import HibanaPico.Support.Cells
import HibanaPico.Support.Framing
import HibanaPico.Transport.Types

/-!
# Uno Q — The UART frame codec

`encode_uart_frame` writes a frame into a fixed buffer: the magic `HBU1`, the session (little
endian), lane, source, peer, label and length, the payload, and the xor checksum of everything
after the magic.  `UartFrameParser::push` reads one byte at a time into a buffer it never clears.

* `image_eq`: the bytes `encode_uart_frame` leaves in its buffer, whatever was there before.
* `uartFraming`: the parser stands `k` bytes into a frame when its length is `k` and its buffer
  begins with the frame's first `k` bytes; it is idle when its length is zero.
* `uart_round_trip`: any list of frames, encoded back to back, is parsed back.
-/

namespace HibanaPico.UnoQ
open HibanaPico.Support
open HibanaPico.Transport

def proofCarrierFrameBytes : ℕ := 128
/-- `*b"HBU1"`. -/
def uartCarrierMagic : List U8 := [0x48, 0x42, 0x55, 0x31]
def uartCarrierCheck : U8 := 0xa7
def uartCarrierHeaderBytes : ℕ := 13
def uartCarrierFrameBytes : ℕ := uartCarrierHeaderBytes + proofCarrierFrameBytes + 1

/-- A frame on the wire.  The payload is `bytes[..len]`; the rest of `bytes` is zero. -/
@[ext] structure UartCarrierFrame where
  sessionId : U32
  lane : U8
  source : U8
  peer : U8
  frameLabel : U8
  payload : FrameBytes proofCarrierFrameBytes
  deriving DecidableEq, Repr

/-- `u32::to_le_bytes`. -/
def toLeBytes (w : U32) : List U8 :=
  [w.extractLsb' 0 8, w.extractLsb' 8 8, w.extractLsb' 16 8, w.extractLsb' 24 8]

/-- `u32::from_le_bytes`. -/
def fromLeBytes (b₀ b₁ b₂ b₃ : U8) : U32 := b₃ ++ b₂ ++ b₁ ++ b₀

def uartFrameChecksum (bytes : List U8) : U8 :=
  bytes.foldl (fun check byte => check ^^^ byte) uartCarrierCheck

/-! ### The encoder -/

/-- `encode_uart_frame`: the buffer and the number of bytes of it to send. -/
def encodeUartFrame (out : Cells U8) (sessionId : U32) (lane source peer frameLabel : U8)
    (bytes : List U8) : Except TransportError (Cells U8 × ℕ) :=
  if bytes.length > proofCarrierFrameBytes then .error .failed
  else
    let out := out.store 0 uartCarrierMagic
    let out := out.store 4 (toLeBytes sessionId)
    let out := Function.update out 8 lane
    let out := Function.update out 9 source
    let out := Function.update out 10 peer
    let out := Function.update out 11 frameLabel
    let out := Function.update out 12 (BitVec.ofNat 8 bytes.length)
    let out := Cells.store out uartCarrierHeaderBytes bytes
    let checksum := uartFrameChecksum (out.slice 4 (uartCarrierHeaderBytes + bytes.length - 4))
    let out := Function.update out (uartCarrierHeaderBytes + bytes.length) checksum
    .ok (out, uartCarrierHeaderBytes + bytes.length + 1)

/-- The bytes sent for `f` from a transmit buffer holding `out`. -/
def UartCarrierFrame.sent (out : Cells U8) (f : UartCarrierFrame) : List U8 :=
  match encodeUartFrame out f.sessionId f.lane f.source f.peer f.frameLabel f.payload.1 with
  | .ok (out, n) => out.slice 0 n
  | .error _ => []

/-- The bytes sent for `f` from a zeroed transmit buffer, as the carriers call the encoder. -/
def UartCarrierFrame.image (f : UartCarrierFrame) : List U8 := f.sent fun _ => 0

/-- The header after the magic, and the payload: what the checksum covers. -/
def UartCarrierFrame.body (f : UartCarrierFrame) : List U8 :=
  toLeBytes f.sessionId ++
    ([f.lane, f.source, f.peer, f.frameLabel, BitVec.ofNat 8 f.payload.1.length] ++ f.payload.1)

theorem UartCarrierFrame.length_body (f : UartCarrierFrame) :
    f.body.length = 9 + f.payload.1.length := by
  simp [body, toLeBytes]; omega

/-- The buffer `encode_uart_frame` leaves, up to the checksum. -/
def UartCarrierFrame.written (out : Cells U8) (f : UartCarrierFrame) : Cells U8 :=
  let out := out.store 0 uartCarrierMagic
  let out := out.store 4 (toLeBytes f.sessionId)
  let out := Function.update out 8 f.lane
  let out := Function.update out 9 f.source
  let out := Function.update out 10 f.peer
  let out := Function.update out 11 f.frameLabel
  let out := Function.update out 12 (BitVec.ofNat 8 f.payload.1.length)
  Cells.store out uartCarrierHeaderBytes f.payload.1

theorem UartCarrierFrame.slice_written_magic (out : Cells U8) (f : UartCarrierFrame) :
    (f.written out).slice 0 4 = uartCarrierMagic := by
  unfold written uartCarrierHeaderBytes
  rw [Cells.slice_store_of_outside (by omega)]
  repeat rw [Cells.slice_update_of_outside _ (by omega)]
  rw [Cells.slice_store_of_outside (by simp [toLeBytes])]
  exact Cells.slice_store out 0 uartCarrierMagic

theorem UartCarrierFrame.slice_written_body (out : Cells U8) (f : UartCarrierFrame) :
    (f.written out).slice 4 (9 + f.payload.1.length) = f.body := by
  have session : (f.written out).slice 4 4 = toLeBytes f.sessionId := by
    unfold written uartCarrierHeaderBytes
    rw [Cells.slice_store_of_outside (by omega)]
    repeat rw [Cells.slice_update_of_outside _ (by omega)]
    exact Cells.slice_store _ 4 (toLeBytes f.sessionId)
  have fields : (f.written out).slice 8 5 =
      [f.lane, f.source, f.peer, f.frameLabel, BitVec.ofNat 8 f.payload.1.length] := by
    unfold written uartCarrierHeaderBytes
    rw [Cells.slice_store_of_outside (by omega)]
    rfl
  have payload : (f.written out).slice 13 f.payload.1.length = f.payload.1 :=
    Cells.slice_store _ 13 f.payload.1
  rw [show 9 + f.payload.1.length = 4 + (5 + f.payload.1.length) by omega, Cells.slice_add,
    Cells.slice_add, session, fields, payload]
  rfl

/-- **What is sent.**  The transmit buffer's old contents never reach the wire. -/
theorem UartCarrierFrame.sent_eq (out : Cells U8) (f : UartCarrierFrame) :
    f.sent out = uartCarrierMagic ++ (f.body ++ [uartFrameChecksum f.body]) := by
  have hle : ¬ f.payload.1.length > proofCarrierFrameBytes := Nat.not_lt.mpr f.payload.2
  have hsum : uartFrameChecksum
      ((f.written out).slice 4 (uartCarrierHeaderBytes + f.payload.1.length - 4)) =
      uartFrameChecksum f.body := by
    rw [show uartCarrierHeaderBytes + f.payload.1.length - 4 = 9 + f.payload.1.length by
      unfold uartCarrierHeaderBytes; omega, f.slice_written_body]
  have hsent : f.sent out = Cells.slice
      (Function.update (f.written out) (13 + f.payload.1.length) (uartFrameChecksum f.body)) 0
      (13 + f.payload.1.length + 1) := by
    rw [← hsum]
    unfold sent encodeUartFrame
    rw [if_neg hle]
    rfl
  rw [hsent, Cells.slice_snoc, Cells.slice_update_of_outside _ (by omega), Nat.zero_add,
    Function.update_self, show 13 + f.payload.1.length = 4 + (9 + f.payload.1.length) by omega,
    Cells.slice_add, f.slice_written_magic, Nat.zero_add, f.slice_written_body, List.append_assoc]

theorem UartCarrierFrame.image_eq (f : UartCarrierFrame) :
    f.image = uartCarrierMagic ++ (f.body ++ [uartFrameChecksum f.body]) :=
  f.sent_eq _

theorem UartCarrierFrame.length_image (f : UartCarrierFrame) :
    f.image.length = 14 + f.payload.1.length := by
  simp [image_eq, length_body, uartCarrierMagic]; omega

/-! ### The parser -/

/-- `UartFrameParser`: `buffer[..len]` is what has been read of the frame in progress. -/
structure UartFrameParser where
  buffer : Cells U8
  len : ℕ

def UartFrameParser.new : UartFrameParser := { buffer := fun _ => 0, len := 0 }

/-- The frame in `buffer`, its payload `payloadLen` bytes long. -/
def UartCarrierFrame.read (buffer : Cells U8) (payloadLen : ℕ)
    (h : ¬ payloadLen > proofCarrierFrameBytes) : UartCarrierFrame where
  sessionId := fromLeBytes (buffer 4) (buffer 5) (buffer 6) (buffer 7)
  lane := buffer 8
  source := buffer 9
  peer := buffer 10
  frameLabel := buffer 11
  payload := ⟨buffer.slice uartCarrierHeaderBytes payloadLen, by simpa using h⟩

/-- `UartFrameParser::push`, once the byte is in `buffer[..len]`. -/
def UartFrameParser.settle (buffer : Cells U8) (len : ℕ) :
    UartFrameParser × Option UartCarrierFrame :=
  if len < uartCarrierHeaderBytes then ({ buffer, len }, none)
  else
    let payloadLen := (buffer 12).toNat
    if h : payloadLen > proofCarrierFrameBytes then ({ buffer, len := 0 }, none)
    else
      let totalLen := uartCarrierHeaderBytes + payloadLen + 1
      if len < totalLen then ({ buffer, len }, none)
      else
        let expected :=
          uartFrameChecksum (buffer.slice 4 (uartCarrierHeaderBytes + payloadLen - 4))
        if buffer (uartCarrierHeaderBytes + payloadLen) ≠ expected then
          ({ buffer, len := 0 }, none)
        else ({ buffer, len := 0 }, some (.read buffer payloadLen h))

/-- `UartFrameParser::push`. -/
def UartFrameParser.push (p : UartFrameParser) (byte : U8) :
    UartFrameParser × Option UartCarrierFrame :=
  if p.len < uartCarrierMagic.length ∧ uartCarrierMagic[p.len]? ≠ some byte then
    ({ p with len := 0 }, none)
  else if p.len = uartCarrierFrameBytes then ({ p with len := 0 }, none)
  else settle (Function.update p.buffer p.len byte) (p.len + 1)

/-- The parser, as a decoder of bytes. -/
def uartDecoder : Decoder UartFrameParser U8 (Option UartCarrierFrame) := ⟨UartFrameParser.push⟩

/-- The parser has read exactly the first `k` bytes of `f`. -/
def UartFrameParser.At (f : UartCarrierFrame) (k : ℕ) (p : UartFrameParser) : Prop :=
  p.len = k ∧ p.buffer.slice 0 k = f.image.take k

theorem UartCarrierFrame.getElem?_image_magic (f : UartCarrierFrame) {k : ℕ} (hk : k < 4) :
    f.image[k]? = uartCarrierMagic[k]? := by
  rw [f.image_eq, List.getElem?_append_left (by simpa [uartCarrierMagic] using hk)]

/-- A buffer that holds a frame's image, read back field by field. -/
theorem UartCarrierFrame.fields_of_slice {f : UartCarrierFrame} {b : Cells U8} {n : ℕ}
    (hn : 13 ≤ n) (h : b.slice 0 n = f.image.take n) :
    b.slice 8 5 = [f.lane, f.source, f.peer, f.frameLabel, BitVec.ofNat 8 f.payload.1.length] ∧
      b.slice 4 4 = toLeBytes f.sessionId := by
  have h13 : b.slice 0 13 = f.image.take 13 := by
    have := congrArg (List.take 13) h
    rwa [List.take_take, Nat.min_eq_left hn, show n = 13 + (n - 13) by omega, Cells.slice_add,
      List.take_left' (Cells.length_slice _ _ _)] at this
  rw [f.image_eq, show (13 : ℕ) = 4 + (4 + 5) from rfl, Cells.slice_add, Cells.slice_add] at h13
  simp only [body, toLeBytes, uartCarrierMagic, Cells.slice_succ, Cells.slice_zero,
    List.take_succ_cons, List.cons_append, List.nil_append, List.cons.injEq, List.take_zero,
    and_true] at h13
  simp only [Cells.slice_succ, Cells.slice_zero, toLeBytes, List.cons.injEq, and_true]
  tauto

theorem fromLeBytes_toLeBytes (w : U32) :
    fromLeBytes (w.extractLsb' 0 8) (w.extractLsb' 8 8) (w.extractLsb' 16 8)
      (w.extractLsb' 24 8) = w := by
  unfold fromLeBytes
  ext i hi
  simp only [BitVec.getElem_append, BitVec.getElem_extractLsb']
  split
  · rw [← BitVec.getLsbD_eq_getElem]; congr 1; omega
  · split
    · rw [← BitVec.getLsbD_eq_getElem]; congr 1; omega
    · split
      · rw [← BitVec.getLsbD_eq_getElem]; congr 1; omega
      · rw [← BitVec.getLsbD_eq_getElem]; congr 1; omega

/-- A buffer that holds a whole image, read back as `push` reads it at the last byte. -/
theorem UartCarrierFrame.body_of_slice {f : UartCarrierFrame} {b : Cells U8}
    (h : b.slice 0 f.image.length = f.image) :
    b.slice 4 (9 + f.payload.1.length) = f.body ∧ b.slice 13 f.payload.1.length = f.payload.1 ∧
      b (13 + f.payload.1.length) = uartFrameChecksum f.body := by
  have hlen : f.image.length = 4 + ((9 + f.payload.1.length) + 1) := by
    rw [f.length_image]; omega
  rw [hlen, Cells.slice_add, Cells.slice_add, Cells.slice_one, f.image_eq] at h
  obtain ⟨-, h⟩ := List.append_inj h (by simp [uartCarrierMagic])
  obtain ⟨hbody, hsum⟩ := List.append_inj h (by simp [f.length_body])
  refine ⟨hbody, ?_, ?_⟩
  · have hsplit := hbody
    rw [Nat.zero_add, Cells.slice_add, body, ← List.append_assoc] at hsplit
    exact (List.append_inj hsplit (by simp [toLeBytes])).2
  · rw [show 13 + f.payload.1.length = 0 + 4 + (9 + f.payload.1.length) by omega]
    exact (List.cons.inj hsum).1

/-- `settle`, on a buffer that holds the first `n` bytes of a frame. -/
theorem UartFrameParser.settle_of_slice {f : UartCarrierFrame} {b : Cells U8} {n : ℕ}
    (hn : n ≤ f.image.length) (h : b.slice 0 n = f.image.take n) :
    settle b n = if n < f.image.length then (⟨b, n⟩, none) else (⟨b, 0⟩, some f) := by
  have hlen := f.length_image
  have hle : f.payload.1.length ≤ 128 := f.payload.2
  unfold settle uartCarrierHeaderBytes
  by_cases hshort : n < 13
  · rw [if_pos hshort, if_pos (by omega)]
  rw [if_neg hshort]
  obtain ⟨hfields, hsession⟩ := UartCarrierFrame.fields_of_slice (by omega) h
  simp only [Cells.slice_succ, Cells.slice_zero, toLeBytes, List.cons.injEq, and_true]
    at hfields hsession
  obtain ⟨h8, h9, h10, h11, h12⟩ := hfields
  obtain ⟨h4, h5, h6, h7⟩ := hsession
  have hlen12 : (b 12).toNat = f.payload.1.length := by
    rw [h12, BitVec.toNat_ofNat]; omega
  have hcap : ¬ (b 12).toNat > proofCarrierFrameBytes := by
    rw [hlen12]; exact Nat.not_lt.mpr f.payload.2
  rw [dif_neg hcap]
  by_cases hmid : n < f.image.length
  · rw [if_pos hmid, if_pos (by omega)]
  rw [if_neg hmid, if_neg (by omega)]
  have hall : b.slice 0 f.image.length = f.image := by
    rwa [show n = f.image.length by omega, List.take_length] at h
  obtain ⟨hbody, hpayload, hsum⟩ := UartCarrierFrame.body_of_slice hall
  have hcheck : b (13 + (b 12).toNat) =
      uartFrameChecksum (b.slice 4 (13 + (b 12).toNat - 4)) := by
    rw [hlen12, show 13 + f.payload.1.length - 4 = 9 + f.payload.1.length by omega, hbody, hsum]
  rw [if_neg (not_not.mpr hcheck)]
  have hread : UartCarrierFrame.read b (b 12).toNat hcap = f := by
    refine UartCarrierFrame.ext ?_ h8 h9 h10 h11 (Subtype.ext ?_)
    · show fromLeBytes (b 4) (b (4 + 1)) (b (4 + 1 + 1)) (b (4 + 1 + 1 + 1)) = f.sessionId
      rw [h4, h5, h6, h7, fromLeBytes_toLeBytes]
    · show b.slice 13 (b 12).toNat = f.payload.1
      rw [hlen12, hpayload]
  rw [hread]

/-- **One byte of a frame.**  `push` keeps the byte and answers nothing, until the last byte,
which it answers with the frame. -/
theorem UartFrameParser.push_at {f : UartCarrierFrame} {k : ℕ} {p : UartFrameParser}
    (h : p.At f k) (hk : k < f.image.length) :
    ∃ b : Cells U8, b.slice 0 (k + 1) = f.image.take (k + 1) ∧
      p.push f.image[k] =
        if k + 1 < f.image.length then (⟨b, k + 1⟩, none) else (⟨b, 0⟩, some f) := by
  obtain ⟨rfl, hbuf⟩ := h
  have hlen := f.length_image
  have hle : f.payload.1.length ≤ 128 := f.payload.2
  have hb : Cells.slice (Function.update p.buffer p.len f.image[p.len]) 0 (p.len + 1) =
      f.image.take (p.len + 1) := by
    rw [Cells.slice_snoc, Cells.slice_update_of_outside _ (by omega), hbuf, Nat.zero_add,
      Function.update_self, List.take_succ_eq_append_getElem hk]
  refine ⟨_, hb, ?_⟩
  -- the first bytes of the frame are the magic, so none of them resets the parser
  have hmagic : ¬ (p.len < uartCarrierMagic.length ∧
      uartCarrierMagic[p.len]? ≠ some f.image[p.len]) := by
    rintro ⟨hlt, hne⟩
    refine hne ?_
    rw [← f.getElem?_image_magic hlt, List.getElem?_eq_getElem hk]
  have hfull : p.len ≠ uartCarrierFrameBytes := by
    unfold uartCarrierFrameBytes uartCarrierHeaderBytes proofCarrierFrameBytes; omega
  unfold push
  rw [if_neg hmagic, if_neg hfull]
  exact settle_of_slice (by omega) hb

/-- The wire format, as a framing of the parser. -/
def uartFraming : Framing uartDecoder UartCarrierFrame where
  image := UartCarrierFrame.image
  quiet := none
  emit := some
  Idle p := p.len = 0
  At f k p := p.At f k
  image_pos f := by rw [f.length_image]; omega
  start f p h := ⟨h, by simp⟩
  step f k p hk h := by
    obtain ⟨b, hb, hpush⟩ := UartFrameParser.push_at h (Nat.lt_of_succ_lt hk)
    simp only [uartDecoder, hpush, if_pos hk]
    exact ⟨⟨rfl, hb⟩, trivial⟩
  last f k p hk h := by
    obtain ⟨b, -, hpush⟩ := UartFrameParser.push_at h (by omega)
    simp only [uartDecoder, hpush, if_neg (show ¬ k + 1 < f.image.length by omega), and_self]

/-- **The round trip.**  Whatever frames are sent back to back, a fresh parser reads exactly
those frames, in order: each at its last byte, and nothing in between.  It ends at rest. -/
theorem uart_round_trip (fs : List UartCarrierFrame) :
    (uartDecoder.feed .new (fs.flatMap UartCarrierFrame.image)).1.len = 0 ∧
      (uartDecoder.feed .new (fs.flatMap UartCarrierFrame.image)).2 =
        fs.flatMap fun f => List.replicate (f.image.length - 1) none ++ [some f] :=
  uartFraming.feed_images fs rfl

end HibanaPico.UnoQ
