import Mathlib.Data.List.Induction
import HibanaPico.UnoQ.Uart

/-!
# Uno Q — Resynchronisation of the UART parser

On a byte that does not continue the magic, `UartFrameParser::push` drops what it had matched
and the byte with it: the byte is not tried as the first byte of a magic.  So noise that ends
inside a partial match of the magic swallows the first byte of the frame that follows.

* `Broken`: a byte string that splits, from its start, into failed attempts at the magic — some
  proper prefix of it, possibly empty, then one byte that does not continue it.
* `broken_or_matched`: any byte string is a broken one followed by a prefix of the magic, whole or
  not.
* `resync_iff`: after noise in which no magic comes before the frame, the frame is read at its
  last byte exactly when the noise is broken.
-/

namespace HibanaPico.UnoQ
open HibanaPico.Support
open HibanaPico.Transport

/-- Failed attempts at the magic, one after the other. -/
inductive Broken : List U8 → Prop where
  | nil : Broken []
  | attempt {k : ℕ} {byte : U8} {rest : List U8} (hk : k < 4)
      (hb : uartCarrierMagic[k]? ≠ some byte) (h : Broken rest) :
      Broken (uartCarrierMagic.take k ++ byte :: rest)

/-- No magic starts in the noise, read together with the frame that follows it. -/
def NoEarlierMagic (noise : List U8) (f : UartCarrierFrame) : Prop :=
  ∀ i < noise.length, ¬ uartCarrierMagic <+: (noise ++ f.image).drop i

/-- A fresh parser fed the noise, the frame and more emits the frame at the frame's last byte. -/
def EmitsAtLastByte (noise : List U8) (f : UartCarrierFrame) (rest : List U8) : Prop :=
  (uartDecoder.feed .new (noise ++ f.image ++ rest)).2[noise.length + f.image.length - 1]? =
    some (some f)

/-! ### Failed attempts -/

theorem Broken.append {xs ys : List U8} (hx : Broken xs) (hy : Broken ys) : Broken (xs ++ ys) := by
  induction hx with
  | nil => exact hy
  | attempt hk hb _ ih =>
      rw [List.append_assoc, List.cons_append]
      exact .attempt hk hb ih

theorem take_succ_magic {k : ℕ} {byte : U8} (h : uartCarrierMagic[k]? = some byte) :
    uartCarrierMagic.take k ++ [byte] = uartCarrierMagic.take (k + 1) := by
  rw [List.take_add_one, h]
  rfl

/-- Any byte string is a broken one, then a proper prefix of the magic, or contains the whole
magic after a broken one. -/
theorem broken_or_matched (xs : List U8) :
    (∃ pre, ∃ k < 4, Broken pre ∧ xs = pre ++ uartCarrierMagic.take k) ∨
      ∃ pre rest, xs = pre ++ (uartCarrierMagic ++ rest) := by
  induction xs using List.reverseRecOn with
  | nil => exact .inl ⟨[], 0, by decide, .nil, rfl⟩
  | append_singleton xs byte ih =>
      rcases ih with ⟨pre, k, hk, hpre, rfl⟩ | ⟨pre, rest, rfl⟩
      · -- one more byte of the magic, or the attempt is broken off and the noise so far is broken
        by_cases hb : uartCarrierMagic[k]? = some byte
        · rw [List.append_assoc, take_succ_magic hb]
          by_cases hk' : k + 1 < 4
          · exact .inl ⟨pre, k + 1, hk', hpre, rfl⟩
          · refine .inr ⟨pre, [], ?_⟩
            rw [List.take_of_length_le (by simp [uartCarrierMagic]; omega), List.append_nil]
        · refine .inl ⟨_, 0, by decide, hpre.append (.attempt hk hb .nil), ?_⟩
          simp
      · exact .inr ⟨pre, rest ++ [byte], by simp⟩

/-- The parser after part of the magic. -/
theorem len_feed_magic {p : UartFrameParser} (hp : p.len = 0) {k : ℕ} (hk : k ≤ 4) :
    (uartDecoder.feed p (uartCarrierMagic.take k)).1.len = k := by
  induction k with
  | zero => exact hp
  | succ k ih =>
      have hk' : k < 4 := hk
      obtain ⟨byte, hbyte⟩ : ∃ byte, uartCarrierMagic[k]? = some byte :=
        ⟨uartCarrierMagic[k], List.getElem?_eq_getElem hk'⟩
      have hlen := ih (by omega)
      rw [← take_succ_magic hbyte, Decoder.feed_append, Decoder.feed_cons]
      generalize (uartDecoder.feed p (uartCarrierMagic.take k)).1 = q at hlen
      subst hlen
      simp only [Decoder.feed_nil, uartDecoder, UartFrameParser.push, UartFrameParser.settle]
      rw [if_neg (fun h => h.2 hbyte),
        if_neg (by unfold uartCarrierFrameBytes uartCarrierHeaderBytes; omega),
        if_pos (by unfold uartCarrierHeaderBytes; omega)]

/-- A byte that does not continue the magic puts the parser back to rest. -/
theorem push_mismatch {p : UartFrameParser} {byte : U8} (hk : p.len < 4)
    (hb : uartCarrierMagic[p.len]? ≠ some byte) : (p.push byte).1.len = 0 := by
  unfold UartFrameParser.push
  rw [if_pos ⟨hk, hb⟩]

/-- Broken noise leaves a parser at rest. -/
theorem Broken.feed {xs : List U8} (h : Broken xs) :
    ∀ p : UartFrameParser, p.len = 0 → (uartDecoder.feed p xs).1.len = 0 := by
  induction h with
  | nil => exact fun _ hp => hp
  | @attempt k byte rest hk hb _ ih =>
      intro p hp
      have hlen := len_feed_magic hp (Nat.le_of_lt hk)
      rw [Decoder.feed_append, Decoder.feed_cons]
      refine ih _ (push_mismatch (by rw [hlen]; exact hk) (by rw [hlen]; exact hb))

/-! ### What a parser that starts late can emit -/

/-- `push` lengthens what is held by at most its byte, and emits only frames that fit in it. -/
theorem push_bounds (p : UartFrameParser) (byte : U8) :
    (p.push byte).1.len ≤ p.len + 1 ∧
      ∀ g, (p.push byte).2 = some g → 14 + g.payload.1.length ≤ p.len + 1 := by
  unfold UartFrameParser.push UartFrameParser.settle uartCarrierHeaderBytes
  split
  · simp
  split
  · simp
  split
  · simp
  simp only
  split
  · simp
  split
  · simp
  split
  · simp
  · rename_i hcap hlen _
    simp only [Nat.zero_le, true_and, Option.some.injEq]
    rintro g rfl
    simp only [UartCarrierFrame.read, Cells.length_slice]
    omega

theorem len_feed_le (p : UartFrameParser) (xs : List U8) :
    (uartDecoder.feed p xs).1.len ≤ p.len + xs.length := by
  induction xs generalizing p with
  | nil => exact Nat.le_refl _
  | cons x xs ih =>
      have h₁ := ih (p.push x).1
      have h₂ := (push_bounds p x).1
      simp only [Decoder.feed_cons, List.length_cons]
      exact Nat.le_trans h₁ (by omega)

/-- A parser that drops a frame's first byte does not emit that frame at its last byte: what it
holds there is too short. -/
theorem not_emit_of_dropped {p : UartFrameParser} {f : UartCarrierFrame} {x y : U8}
    {mid : List U8} (hf : f.image = x :: (mid ++ [y])) (hp : (p.push x).1.len = 0) :
    ((uartDecoder.feed p (x :: mid)).1.push y).2 ≠ some f := by
  intro h
  have hlen := f.length_image
  have hheld := len_feed_le (p.push x).1 mid
  have hfit := (push_bounds _ y).2 f h
  rw [hf] at hlen
  simp only [List.length_cons, List.length_append, List.length_nil] at hlen
  simp only [Decoder.feed_cons] at hfit
  change 14 + f.payload.1.length ≤ (uartDecoder.feed (p.push x).1 mid).1.len + 1 at hfit
  omega

/-! ### Resynchronisation -/

/-- A frame's image, opened at its first and last bytes. -/
theorem image_ends (f : UartCarrierFrame) :
    ∃ mid, f.image = 0x48 :: (mid ++ [uartFrameChecksum f.body]) :=
  ⟨[0x42, 0x55, 0x31] ++ f.body, by rw [f.image_eq]; rfl⟩

/-- The answer at a frame's last byte, from where the parser stands after the noise. -/
theorem answer_at_last_byte (noise : List U8) (f : UartCarrierFrame) (rest : List U8)
    {mid : List U8} {x y : U8} (hf : f.image = x :: (mid ++ [y])) :
    (uartDecoder.feed .new (noise ++ f.image ++ rest)).2[noise.length + f.image.length - 1]? =
      some ((uartDecoder.feed (uartDecoder.feed .new noise).1 (x :: mid)).1.push y).2 := by
  have hlist : noise ++ f.image ++ rest = (noise ++ x :: mid) ++ y :: rest := by simp [hf]
  have hindex : noise.length + f.image.length - 1 = (noise ++ x :: mid).length := by
    simp [hf]
  rw [hlist, hindex, Decoder.feed_answer, Decoder.feed_append]
  rfl

/-- From rest, a frame is emitted at its last byte. -/
theorem emit_of_idle {p : UartFrameParser} (hp : p.len = 0) {f : UartCarrierFrame} {x y : U8}
    {mid : List U8} (hf : f.image = x :: (mid ++ [y])) :
    ((uartDecoder.feed p (x :: mid)).1.push y).2 = some f := by
  have hout : (uartDecoder.feed p f.image).2 =
      List.replicate (f.image.length - 1) none ++ [some f] := (uartFraming.feed_image f hp).2
  rw [hf, ← List.cons_append, Decoder.feed_append] at hout
  exact List.cons.inj (List.append_inj_right' hout rfl) |>.1

/-- **Resynchronisation.**  After noise in which no magic comes before the frame, the frame is
read at its last byte exactly when the noise splits into failed attempts at the magic. -/
theorem resync_iff (noise : List U8) (f : UartCarrierFrame) (rest : List U8)
    (h : NoEarlierMagic noise f) : EmitsAtLastByte noise f rest ↔ Broken noise := by
  obtain ⟨mid, hmid⟩ := image_ends f
  rw [EmitsAtLastByte, answer_at_last_byte noise f rest hmid, Option.some.injEq]
  constructor
  · intro hemit
    rcases broken_or_matched noise with ⟨pre, k, hk, hpre, rfl⟩ | ⟨pre, tail, rfl⟩
    · -- the noise ends `k` bytes into the magic: with `0 < k`, the frame's first byte is dropped
      by_contra hnb
      have hk0 : k ≠ 0 := by
        rintro rfl
        exact hnb (by simpa using hpre)
      have hlen : (uartDecoder.feed .new (pre ++ uartCarrierMagic.take k)).1.len = k := by
        rw [Decoder.feed_append]
        exact len_feed_magic (hpre.feed _ rfl) (Nat.le_of_lt hk)
      have hne : uartCarrierMagic[k]? ≠ some 0x48 := by
        have hcases : k = 1 ∨ k = 2 ∨ k = 3 := by omega
        rcases hcases with rfl | rfl | rfl <;> decide
      exact not_emit_of_dropped hmid
        (push_mismatch (by rw [hlen]; exact hk) (by rw [hlen]; exact hne)) hemit
    · -- a magic inside the noise comes before the frame
      refine absurd ?_ (h pre.length (by simp [uartCarrierMagic]))
      rw [List.append_assoc, List.drop_left]
      exact ⟨tail ++ f.image, by simp⟩
  · exact fun hb => emit_of_idle (hb.feed .new rfl) hmid

/-- A frame of role 1 with no payload. -/
def shortFrame : UartCarrierFrame :=
  { sessionId := 1, lane := 0, source := 1, peer := 0, frameLabel := 7, payload := .empty _ }

/-- One `H` before a frame: the only magic is the frame's, and the frame is not read. -/
theorem resync_fails :
    ¬ ∀ noise f rest, NoEarlierMagic noise f → EmitsAtLastByte noise f rest := by
  intro h
  have hclear : NoEarlierMagic [0x48] shortFrame := by
    intro i hi
    obtain rfl : i = 0 := by simpa using hi
    decide
  exact absurd (h [0x48] shortFrame [] hclear) (by unfold EmitsAtLastByte; decide)

/-- Two `H`s before a frame are a failed attempt, and the frame is read. -/
theorem resync_after_two : EmitsAtLastByte [0x48, 0x48] shortFrame [] :=
  (resync_iff [0x48, 0x48] shortFrame [] (by
    intro i hi
    have hcases : i = 0 ∨ i = 1 := by simp at hi; omega
    rcases hcases with rfl | rfl <;> decide)).mpr
    (.attempt (k := 1) (by decide) (by decide) .nil)

end HibanaPico.UnoQ
