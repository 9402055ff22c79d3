import Mathlib.Tactic.IntervalCases
import HibanaPico.Support.Cells
import HibanaPico.Support.Framing
import HibanaPico.Sio.Types

/-!
# Rp2w — Words

A frame on the RP2350 inter-core FIFO is a run of 32-bit words: a magic word, the session, the
metadata, the lane, and the payload, four bytes to a word.  `PendingTxFrame::word` makes them one
by one; `SioRxAccumulator::push_word` takes them one by one.

* `decodeMeta_encodeMeta`, `wordByte_packPayloadWord`: the two word codecs, field by field.
* `unpackPayload_of_words`: the bytes read back from the payload words.
* `wordFraming`: the words of a frame, as a framing of the accumulator.
-/

namespace HibanaPico.Rp2w
open HibanaPico.Support
open HibanaPico.Transport
open HibanaPico.Sio

def sioFrameMagic : U32 := 0x48495301
def sioFrameHeaderWords : ℕ := 4
def sioFramePayloadWords : ℕ := (sioFrameBytes + 3) / 4
def sioFrameWords : ℕ := sioFrameHeaderWords + sioFramePayloadWords

/-- `encode_meta`. -/
def encodeMeta (senderRole peerRole frameLabel : U8) (len : ℕ) : U32 :=
  (frameLabel.setWidth 32 <<< 24) ||| (peerRole.setWidth 32 <<< 16) |||
    (senderRole.setWidth 32 <<< 8) ||| BitVec.ofNat 32 len

/-- `decode_meta`: sender, peer, label, length. -/
def decodeMeta (word : U32) : U8 × U8 × U8 × ℕ :=
  (((word >>> 8) &&& 0xff).setWidth 8, ((word >>> 16) &&& 0xff).setWidth 8,
    (word >>> 24).setWidth 8, (word &&& 0xff).toNat)

/-- `payload_word_count`. -/
def payloadWordCount (len : ℕ) : ℕ := (len + 3) / 4

/-- `pack_payload_word`. -/
def packPayloadWord (bytes : List U8) (offset : ℕ) : U32 :=
  (List.range 4).foldl (fun word idx =>
    match bytes[offset + idx]? with
    | some byte => word ||| (byte.setWidth 32 <<< (idx * 8))
    | none => word) 0

/-- Byte `idx` of a payload word. -/
def wordByte (word : U32) (idx : ℕ) : U8 := ((word >>> (idx * 8)) &&& 0xff).setWidth 8

/-- `unpack_payload_word`: writes of bytes past the end are skipped. -/
def unpackPayloadWord (word : U32) (bytes : List U8) (offset : ℕ) : List U8 :=
  (List.range 4).foldl (fun bytes idx => bytes.set (offset + idx) (wordByte word idx)) bytes

/-- The `while offset < len` loop of `push_word`, which goes word by word. -/
def unpackPayload (words : Cells U32) (len : ℕ) : List U8 :=
  (List.range (payloadWordCount len)).foldl (fun bytes w =>
    unpackPayloadWord (words (sioFrameHeaderWords + w)) bytes (4 * w)) (List.replicate len 0)

/-! ### The word codecs -/

/-- Four bytes side by side in a word, lowest first. -/
def joinBytes (b₀ b₁ b₂ b₃ : U8) : U32 :=
  b₀.setWidth 32 ||| (b₁.setWidth 32 <<< 8) ||| (b₂.setWidth 32 <<< 16) |||
    (b₃.setWidth 32 <<< 24)

theorem wordByte_joinBytes (b₀ b₁ b₂ b₃ : U8) :
    wordByte (joinBytes b₀ b₁ b₂ b₃) 0 = b₀ ∧ wordByte (joinBytes b₀ b₁ b₂ b₃) 1 = b₁ ∧
      wordByte (joinBytes b₀ b₁ b₂ b₃) 2 = b₂ ∧ wordByte (joinBytes b₀ b₁ b₂ b₃) 3 = b₃ := by
  unfold wordByte joinBytes
  refine ⟨?_, ?_, ?_, ?_⟩
  all_goals
    ext i hi
    interval_cases i <;> simp

/-- `decode_meta` reads the four bytes of the word. -/
theorem decodeMeta_eq (word : U32) : decodeMeta word =
    (wordByte word 1, wordByte word 2, wordByte word 3, (wordByte word 0).toNat) := by
  have hmask : ∀ i < 8, (0xff : U32).getLsbD i = true := by decide
  have hlabel : (word >>> 24).setWidth 8 = wordByte word 3 := by
    ext i hi
    simp only [wordByte, BitVec.getElem_setWidth, BitVec.getLsbD_and, hmask i hi, Bool.and_true]
  have hlen : (word &&& 0xff).toNat = (wordByte word 0).toNat := by
    unfold wordByte
    rw [Nat.zero_mul, BitVec.ushiftRight_zero, BitVec.toNat_setWidth, Nat.mod_eq_of_lt]
    rw [BitVec.toNat_and]
    exact Nat.and_lt_two_pow _ (by decide)
  rw [decodeMeta, hlabel, hlen]
  rfl

theorem decodeMeta_encodeMeta (senderRole peerRole frameLabel : U8) {len : ℕ} (h : len < 256) :
    decodeMeta (encodeMeta senderRole peerRole frameLabel len) =
      (senderRole, peerRole, frameLabel, len) := by
  have hlen : BitVec.ofNat 32 len = (BitVec.ofNat 8 len).setWidth 32 := by
    refine BitVec.eq_of_toNat_eq ?_
    rw [BitVec.toNat_setWidth, BitVec.toNat_ofNat, BitVec.toNat_ofNat]
    omega
  have hjoin : encodeMeta senderRole peerRole frameLabel len =
      joinBytes (BitVec.ofNat 8 len) senderRole peerRole frameLabel := by
    rw [encodeMeta, joinBytes, hlen, BitVec.or_comm _ ((BitVec.ofNat 8 len).setWidth 32),
      BitVec.or_comm _ (senderRole.setWidth 32 <<< 8),
      BitVec.or_comm _ (peerRole.setWidth 32 <<< 16), BitVec.or_assoc, BitVec.or_assoc]
  obtain ⟨h₀, h₁, h₂, h₃⟩ :=
    wordByte_joinBytes (BitVec.ofNat 8 len) senderRole peerRole frameLabel
  rw [hjoin, decodeMeta_eq, h₀, h₁, h₂, h₃, BitVec.toNat_ofNat, Nat.mod_eq_of_lt h]

theorem packPayloadWord_eq (bytes : List U8) (offset : ℕ) : packPayloadWord bytes offset =
    joinBytes (bytes[offset]?.getD 0) (bytes[offset + 1]?.getD 0) (bytes[offset + 2]?.getD 0)
      (bytes[offset + 3]?.getD 0) := by
  have hstep : ∀ (word : U32) (idx : ℕ),
      (match bytes[offset + idx]? with
        | some byte => word ||| (byte.setWidth 32 <<< (idx * 8))
        | none => word) =
      word ||| ((bytes[offset + idx]?.getD 0).setWidth 32 <<< (idx * 8)) := by
    intro word idx
    cases bytes[offset + idx]? with
    | none => simp
    | some byte => rfl
  simp only [packPayloadWord, hstep, List.range_succ, List.range_zero, List.nil_append,
    List.foldl_append, List.foldl_cons, List.foldl_nil, joinBytes]
  simp

theorem wordByte_packPayloadWord (bytes : List U8) (offset : ℕ) {idx : ℕ} (h : idx < 4) :
    wordByte (packPayloadWord bytes offset) idx = bytes[offset + idx]?.getD 0 := by
  rw [packPayloadWord_eq]
  obtain ⟨h₀, h₁, h₂, h₃⟩ := wordByte_joinBytes (bytes[offset]?.getD 0)
    (bytes[offset + 1]?.getD 0) (bytes[offset + 2]?.getD 0) (bytes[offset + 3]?.getD 0)
  interval_cases idx
  · exact h₀
  · exact h₁
  · exact h₂
  · exact h₃

/-! ### The payload loop -/

theorem length_unpackPayloadWord (word : U32) (bytes : List U8) (offset : ℕ) :
    (unpackPayloadWord word bytes offset).length = bytes.length := by
  simp [unpackPayloadWord, List.range_succ]

/-- What one word's unpacking leaves at each byte. -/
theorem getElem?_unpackPayloadWord (word : U32) (bytes : List U8) (w i : ℕ)
    (hi : i < bytes.length) : (unpackPayloadWord word bytes (4 * w))[i]? =
      if i / 4 = w then some (wordByte word (i % 4)) else bytes[i]? := by
  have hrange : List.range 4 = [0, 1, 2, 3] := rfl
  simp only [unpackPayloadWord, hrange, List.foldl_cons, List.foldl_nil, List.getElem?_set,
    List.length_set]
  by_cases hw : i / 4 = w
  · obtain ⟨k, hk, rfl⟩ : ∃ k < 4, i = 4 * w + k := ⟨i % 4, Nat.mod_lt _ (by decide), by omega⟩
    rw [if_pos hw, show (4 * w + k) % 4 = k by omega]
    interval_cases k <;> simpa using hi
  · rw [if_neg hw, if_neg (by omega), if_neg (by omega), if_neg (by omega), if_neg (by omega)]

/-- The payload loop after its first `n` words. -/
theorem unpackPayload_isPrefix (words : Cells U32) (len n : ℕ) :
    ((List.range n).foldl (fun bytes w =>
      unpackPayloadWord (words (sioFrameHeaderWords + w)) bytes (4 * w))
        (List.replicate len 0)).length = len ∧
    ∀ i < len, i / 4 < n → ((List.range n).foldl (fun bytes w =>
      unpackPayloadWord (words (sioFrameHeaderWords + w)) bytes (4 * w))
        (List.replicate len 0))[i]? =
          some (wordByte (words (sioFrameHeaderWords + i / 4)) (i % 4)) := by
  induction n with
  | zero => exact ⟨by simp, fun i _ hi => absurd hi (Nat.not_lt_zero _)⟩
  | succ n ih =>
      obtain ⟨hlen, hbytes⟩ := ih
      rw [List.range_succ, List.foldl_append, List.foldl_cons, List.foldl_nil]
      refine ⟨by rw [length_unpackPayloadWord, hlen], fun i hi hn => ?_⟩
      rw [getElem?_unpackPayloadWord _ _ _ _ (by rw [hlen]; exact hi)]
      split
      · rename_i hin; rw [hin]
      · exact hbytes i hi (by omega)

theorem length_unpackPayload (words : Cells U32) (len : ℕ) :
    (unpackPayload words len).length = len :=
  (unpackPayload_isPrefix words len _).1

/-- **The payload, read back.**  Words packed from a payload unpack to it. -/
theorem unpackPayload_of_words {words : Cells U32} {payload : List U8}
    (h : ∀ w < payloadWordCount payload.length,
      words (sioFrameHeaderWords + w) = packPayloadWord payload (4 * w)) :
    unpackPayload words payload.length = payload := by
  refine List.ext_getElem? fun i => ?_
  by_cases hi : i < payload.length
  · have hword : i / 4 < payloadWordCount payload.length := by unfold payloadWordCount; omega
    rw [unpackPayload, (unpackPayload_isPrefix words payload.length _).2 i hi hword, h _ hword,
      wordByte_packPayloadWord _ _ (Nat.mod_lt _ (by decide)), Nat.div_add_mod,
      List.getElem?_eq_getElem hi, Option.getD_some]
  · rw [List.getElem?_eq_none (by rw [length_unpackPayload]; omega),
      List.getElem?_eq_none (by omega)]

end HibanaPico.Rp2w
