import HibanaPico.UnoQ.Soundness

/-!
# Uno Q — One corrupted byte

The checksum of a UART frame is the exclusive or of what follows the magic.  One changed byte
changes it, as long as the length byte says which bytes it is over, and the magic where they begin.

* `emitted`: the frames a fresh parser emits.
* `corrupted`: images back to back, with one byte replaced.
* `feed_spoiled`: a frame spoiled outside its magic and its length byte is dropped at its last byte.
* `single_byte`: what is emitted from a corrupted stream.
-/

namespace HibanaPico.UnoQ
open HibanaPico.Support
open HibanaPico.Transport

/-- The frames a fresh parser emits. -/
def emitted (xs : List U8) : List UartCarrierFrame := (uartDecoder.feed .new xs).2.reduceOption

/-- The images of `pre`, `f` and `post` back to back, with byte `k` of `f`'s replaced. -/
def corrupted (pre : List UartCarrierFrame) (f : UartCarrierFrame) (post : List UartCarrierFrame)
    (k : ℕ) (byte : U8) : List U8 :=
  ((pre ++ f :: post).flatMap UartCarrierFrame.image).set
    ((pre.flatMap UartCarrierFrame.image).length + k) byte

theorem corrupted_eq (pre : List UartCarrierFrame) {f : UartCarrierFrame}
    (post : List UartCarrierFrame) {k : ℕ} (hk : k < f.image.length) (byte : U8) :
    corrupted pre f post k byte = pre.flatMap UartCarrierFrame.image ++
      (f.image.set k byte ++ post.flatMap UartCarrierFrame.image) := by
  unfold corrupted
  rw [List.flatMap_append, List.flatMap_cons, List.set_append_right _ _ (by omega),
    Nat.add_sub_cancel_left, List.set_append_left _ _ hk]

/-! ### Frames back to back -/

theorem reduceOption_answers (fs : List UartCarrierFrame) :
    (fs.flatMap uartFraming.answers).reduceOption = fs := by
  induction fs with
  | nil => rfl
  | cons f fs ih =>
      have hone : (uartFraming.answers f).reduceOption = [f] := by
        unfold Framing.answers
        rw [List.reduceOption_append, show uartFraming.quiet = none from rfl,
          List.reduceOption_replicate_none]
        rfl
      rw [List.flatMap_cons, List.reduceOption_append, hone, ih]
      rfl

/-- From rest, the frames sent are the frames emitted. -/
theorem feed_frames {p : UartFrameParser} (hp : p.len = 0) (fs : List UartCarrierFrame) :
    (uartDecoder.feed p (fs.flatMap UartCarrierFrame.image)).1.len = 0 ∧
      (uartDecoder.feed p (fs.flatMap UartCarrierFrame.image)).2.reduceOption = fs := by
  obtain ⟨hidle, hout⟩ := uartFraming.feed_images fs hp
  exact ⟨hidle, by rw [show uartFraming.image = UartCarrierFrame.image from rfl] at hout
                   rw [hout, reduceOption_answers]⟩

/-! ### The checksum -/

theorem foldl_xor (bytes : List U8) (a b : U8) :
    bytes.foldl (fun check byte => check ^^^ byte) (a ^^^ b) =
      a ^^^ bytes.foldl (fun check byte => check ^^^ byte) b := by
  induction bytes generalizing b with
  | nil => rfl
  | cons x xs ih => rw [List.foldl_cons, List.foldl_cons, BitVec.xor_assoc, ih]

/-- Each byte counts once in the checksum. -/
theorem uartFrameChecksum_append_cons (xs ys : List U8) (x : U8) :
    uartFrameChecksum (xs ++ x :: ys) = x ^^^ uartFrameChecksum (xs ++ ys) := by
  unfold uartFrameChecksum
  rw [List.foldl_append, List.foldl_append, List.foldl_cons, BitVec.xor_comm, foldl_xor]

/-- A changed byte changes the checksum. -/
theorem uartFrameChecksum_set {bytes : List U8} {j : ℕ} (hj : j < bytes.length) {byte : U8}
    (hne : byte ≠ bytes[j]) : uartFrameChecksum (bytes.set j byte) ≠ uartFrameChecksum bytes := by
  intro h
  rw [List.set_eq_take_append_cons_drop, if_pos hj, uartFrameChecksum_append_cons] at h
  have hsplit : bytes = bytes.take j ++ bytes[j] :: bytes.drop (j + 1) := by
    rw [← List.drop_eq_getElem_cons hj, List.take_append_drop]
  have hsame : uartFrameChecksum bytes =
      bytes[j] ^^^ uartFrameChecksum (bytes.take j ++ bytes.drop (j + 1)) := by
    conv_lhs => rw [hsplit]
    exact uartFrameChecksum_append_cons _ _ _
  rw [hsame] at h
  exact hne ((BitVec.xor_left_inj _).mp h)

/-! ### A spoiled frame -/

/-- The bytes of a body, with the length byte that says how many follow it, are a frame's. -/
theorem exists_body {body : List U8} {n : ℕ} (hlen : body.length = 9 + n) (hn : n ≤ 128)
    (h8 : body[8]? = some (BitVec.ofNat 8 n)) :
    ∃ f : UartCarrierFrame, f.body = body ∧ f.payload.1.length = n := by
  match body, hlen, h8 with
  | b₀ :: b₁ :: b₂ :: b₃ :: b₄ :: b₅ :: b₆ :: b₇ :: b₈ :: rest, hlen, h8 =>
      have hrest : rest.length = n := by
        simp only [List.length_cons] at hlen
        omega
      obtain rfl : b₈ = BitVec.ofNat 8 n := Option.some.inj h8
      refine ⟨⟨fromLeBytes b₀ b₁ b₂ b₃, b₄, b₅, b₆, b₇, ⟨rest, by rw [hrest]; exact hn⟩⟩, ?_,
        hrest⟩
      simp only [UartCarrierFrame.body, toLeBytes_fromLeBytes, hrest]
      rfl

/-- A frame with another checksum is dropped at its last byte. -/
theorem feed_bad_checksum {p : UartFrameParser} (hp : p.len = 0) (f : UartCarrierFrame)
    {check : U8} (hne : check ≠ uartFrameChecksum f.body) :
    (uartDecoder.feed p (uartCarrierMagic ++ (f.body ++ [check]))).1.len = 0 ∧
      (uartDecoder.feed p (uartCarrierMagic ++ (f.body ++ [check]))).2.reduceOption = [] := by
  have hlen := f.length_image
  have hle : f.payload.1.length ≤ 128 := f.payload.2
  have htake : f.image.take (13 + f.payload.1.length) = uartCarrierMagic ++ f.body := by
    rw [f.image_eq, ← List.append_assoc]
    exact List.take_left' (by rw [List.length_append, f.length_body, uartCarrierMagic]; simp; omega)
  obtain ⟨⟨hqlen, hheld⟩, hquiet⟩ := uartFraming.feed_take f hp
    (show 13 + f.payload.1.length < f.image.length by omega)
  have I := uartScanner.inv_feed (UartFrameParser.inv_of_len_zero hp)
    (f.image.take (13 + f.payload.1.length))
  rw [← List.append_assoc, ← htake, Decoder.feed_append]
  rw [show uartFraming.image f = f.image from rfl] at hqlen hheld hquiet
  generalize (uartDecoder.feed p (f.image.take (13 + f.payload.1.length))).1 = q at *
  simp only [Decoder.feed_cons, Decoder.feed_nil, List.reduceOption_append, hquiet,
    show uartFraming.quiet = none from rfl, List.reduceOption_replicate_none, List.nil_append]
  have hkept : Cells.slice (Function.update q.buffer q.len check) 0 (q.len + 1) =
      uartCarrierMagic ++ (f.body ++ [check]) := by
    rw [Cells.slice_snoc, Cells.slice_update_of_outside _ (by omega), Nat.zero_add,
      Function.update_self, hqlen, hheld, htake, List.append_assoc]
  rcases UartFrameParser.push_cases I check with ⟨hout, hzero⟩ | ⟨-, hnew, J⟩ | ⟨g, -, -, hg⟩
  · exact ⟨hzero, by rw [show (uartDecoder.push q check).2 = none from hout]; rfl⟩
  · -- the frame is complete: the parser cannot be waiting for more of it
    have h12 : (q.buffer 12).toNat = f.payload.1.length := by
      obtain ⟨hfields, -⟩ := UartCarrierFrame.fields_of_slice (by omega) hheld
      simp only [Cells.slice_succ, Cells.slice_zero, List.cons.injEq, and_true] at hfields
      rw [hfields.2.2.2.2, BitVec.toNat_ofNat]
      omega
    have hdeclared := J.declared
    rw [hnew] at hdeclared
    simp only [hqlen] at hdeclared
    rw [Function.update_of_ne (by omega), h12] at hdeclared
    have := (hdeclared (by omega)).2
    omega
  · rw [hkept, g.image_eq] at hg
    obtain ⟨hbody, hsum⟩ := List.append_inj' (List.append_cancel_left hg) rfl
    rw [hbody] at hsum
    exact absurd (List.cons.inj hsum).1.symm hne

/-- A frame spoiled outside its magic and its length byte is a frame with another checksum. -/
theorem exists_bad_checksum {f : UartCarrierFrame} {k : ℕ} (hk : k < f.image.length)
    (hmagic : 4 ≤ k) (hlength : k ≠ 12) {byte : U8} (hne : f.image[k]? ≠ some byte) :
    ∃ g : UartCarrierFrame, ∃ check, check ≠ uartFrameChecksum g.body ∧
      f.image.set k byte = uartCarrierMagic ++ (g.body ++ [check]) := by
  have hlen := f.length_image
  have hbody := f.length_body
  have hle : f.payload.1.length ≤ 128 := f.payload.2
  have hset : f.image.set k byte =
      uartCarrierMagic ++ (f.body ++ [uartFrameChecksum f.body]).set (k - 4) byte := by
    rw [f.image_eq, List.set_append_right _ _ hmagic]
    rfl
  have hget : f.image[k]? = (f.body ++ [uartFrameChecksum f.body])[k - 4]? := by
    rw [f.image_eq, List.getElem?_append_right hmagic]
    rfl
  by_cases hlast : k - 4 = f.body.length
  · -- the checksum itself
    refine ⟨f, byte, ?_, ?_⟩
    · rintro rfl
      rw [hget, hlast, List.getElem?_concat_length] at hne
      exact hne rfl
    · rw [hset, List.set_append_right _ _ (Nat.le_of_eq hlast.symm), hlast, Nat.sub_self]
      rfl
  · -- a byte the checksum is over
    have hlt : k - 4 < f.body.length := by omega
    have hlength' : (f.body.set (k - 4) byte).length = 9 + f.payload.1.length := by
      rw [List.length_set, hbody]
    obtain ⟨g, hg, -⟩ := exists_body hlength' hle
      (by rw [List.getElem?_set_ne (by omega)]; rfl)
    refine ⟨g, uartFrameChecksum f.body, ?_, ?_⟩
    · rw [hg]
      refine (uartFrameChecksum_set hlt fun h => hne ?_).symm
      rw [hget, List.getElem?_append_left hlt, List.getElem?_eq_getElem hlt, h]
    · rw [hset, hg, List.set_append_left _ _ hlt]

/-- **A spoiled frame.**  Spoiled outside its magic and its length byte, a frame is dropped at its
last byte. -/
theorem feed_spoiled {p : UartFrameParser} (hp : p.len = 0) {f : UartCarrierFrame} {k : ℕ}
    (hk : k < f.image.length) (hmagic : 4 ≤ k) (hlength : k ≠ 12) {byte : U8}
    (hne : f.image[k]? ≠ some byte) :
    (uartDecoder.feed p (f.image.set k byte)).1.len = 0 ∧
      (uartDecoder.feed p (f.image.set k byte)).2.reduceOption = [] := by
  obtain ⟨g, check, hcheck, hset⟩ := exists_bad_checksum hk hmagic hlength hne
  rw [hset]
  exact feed_bad_checksum hp g hcheck

/-! ### The corrupted stream -/

theorem emitted_corrupted (pre : List UartCarrierFrame) {f : UartCarrierFrame}
    (post : List UartCarrierFrame) {k : ℕ} (hk : k < f.image.length) (byte : U8) :
    ∃ p : UartFrameParser, p.len = 0 ∧ emitted (corrupted pre f post k byte) = pre ++
      (uartDecoder.feed p
        (f.image.set k byte ++ post.flatMap UartCarrierFrame.image)).2.reduceOption := by
  obtain ⟨hidle, hout⟩ := feed_frames (p := .new) rfl pre
  refine ⟨_, hidle, ?_⟩
  rw [emitted, corrupted_eq pre post hk, Decoder.feed_append, List.reduceOption_append, hout]

/-- **One corrupted byte.**  Of frames sent back to back with one byte of one frame replaced, a
fresh parser emits exactly the others when the byte changed is not of the magic and not the length
byte.  Wherever it is, it emits the frames before it, and then frames whose images lie in the rest
of the stream, one after the other: some of the frames from there on, in their order, if no image of
a frame occurs there except those frames' own at their own places. -/
theorem single_byte (pre : List UartCarrierFrame) (f : UartCarrierFrame)
    (post : List UartCarrierFrame) (k : ℕ) (hk : k < f.image.length) (byte : U8) :
    (4 ≤ k → k ≠ 12 → f.image[k]? ≠ some byte →
      emitted (corrupted pre f post k byte) = pre ++ post) ∧
    (∃ rest, emitted (corrupted pre f post k byte) = pre ++ rest ∧
      Scattered UartCarrierFrame.image rest
        (f.image.set k byte ++ post.flatMap UartCarrierFrame.image) ∧
      (Scattered.OwnPlaces UartCarrierFrame.image (f :: post)
        (f.image.set k byte ++ post.flatMap UartCarrierFrame.image) → rest.Sublist (f :: post))) ∧
    Scattered UartCarrierFrame.image (emitted (corrupted pre f post k byte))
      (corrupted pre f post k byte) := by
  obtain ⟨p, hp, hemitted⟩ := emitted_corrupted pre post hk byte
  refine ⟨fun hmagic hlength hne => ?_,
    ⟨_, hemitted, scattered_emitted hp _, fun hown => ?_⟩, scattered_emitted rfl _⟩
  · obtain ⟨hidle, hnone⟩ := feed_spoiled hp hk hmagic hlength hne
    rw [hemitted, Decoder.feed_append, List.reduceOption_append, hnone,
      (feed_frames hidle post).2, List.nil_append]
  · refine Scattered.sublist_of_ownPlaces (fun g => ?_) hown (scattered_emitted hp _)
    rw [g.length_image]
    omega

/-- A spoiled session byte, between two other frames. -/
theorem single_byte_session :
    emitted (corrupted [shortFrame] shortFrame [shortFrame] 4 9) = [shortFrame, shortFrame] :=
  (single_byte [shortFrame] shortFrame [shortFrame] 4 (by decide) 9).1 (by decide) (by decide)
    (by decide)

/-- A frame whose one byte of payload is the checksum of the same frame without a payload. -/
def checksumFrame : UartCarrierFrame :=
  { sessionId := 1, lane := 0, source := 1, peer := 0, frameLabel := 7,
    payload := ⟨[0xa0], by decide⟩ }

/-- With its length byte replaced, it is read as the frame without a payload. -/
theorem single_byte_length :
    ¬ ∀ fs pos byte, pos < (fs.flatMap UartCarrierFrame.image).length →
      (emitted ((fs.flatMap UartCarrierFrame.image).set pos byte)).Sublist fs := by
  intro H
  have hsub := H [checksumFrame] 12 0 (by decide +kernel)
  have hout : emitted (([checksumFrame].flatMap UartCarrierFrame.image).set 12 0) =
      [shortFrame] := by decide +kernel
  rw [hout] at hsub
  exact absurd (List.singleton_sublist.mp hsub) (by decide)

end HibanaPico.UnoQ
