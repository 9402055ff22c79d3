import Mathlib.Data.List.Basic
import Mathlib.Data.List.Flatten

/-!
# Support — Framing

A decoder reads a stream one symbol at a time and answers each symbol.  A framing says what it
means for the decoder to stand `k` symbols into the image of a frame: it answers `quiet` until
the image's last symbol, answers that one with the frame, and is idle again.

* `feed_image`: the answers to one whole image, from any idle state.
* `feed_images`: the answers to any list of images, back to back — the round trip.
* `feed_take`: where a decoder stands after a proper prefix of an image.
* `feed_prefix`: the answers to any prefix of images back to back.
-/

namespace HibanaPico.Support

/-- A decoder: the next state and the answer, for each symbol. -/
structure Decoder (σ ι ω : Type*) where
  push : σ → ι → σ × ω

namespace Decoder

variable {σ ι ω : Type*} (D : Decoder σ ι ω)

/-- The state after a list of symbols, and the answer to each. -/
def feed : σ → List ι → σ × List ω
  | s, [] => (s, [])
  | s, x :: xs => ((feed (D.push s x).1 xs).1, (D.push s x).2 :: (feed (D.push s x).1 xs).2)

@[simp] theorem feed_nil (s : σ) : D.feed s [] = (s, []) := rfl

@[simp] theorem feed_cons (s : σ) (x : ι) (xs : List ι) :
    D.feed s (x :: xs) =
      ((D.feed (D.push s x).1 xs).1, (D.push s x).2 :: (D.feed (D.push s x).1 xs).2) := rfl

theorem feed_append (s : σ) (xs ys : List ι) :
    D.feed s (xs ++ ys) =
      ((D.feed (D.feed s xs).1 ys).1, (D.feed s xs).2 ++ (D.feed (D.feed s xs).1 ys).2) := by
  induction xs generalizing s with
  | nil => rfl
  | cons x xs ih => simp only [List.cons_append, feed_cons, ih]

@[simp] theorem length_feed (s : σ) (xs : List ι) : (D.feed s xs).2.length = xs.length := by
  induction xs generalizing s with
  | nil => rfl
  | cons x xs ih => simp [ih]

/-- The answer to the symbol after `xs`. -/
theorem feed_answer (s : σ) (xs zs : List ι) (y : ι) :
    (D.feed s (xs ++ y :: zs)).2[xs.length]? = some (D.push (D.feed s xs).1 y).2 := by
  rw [D.feed_append, List.getElem?_append_right (by simp), D.length_feed, Nat.sub_self]
  rfl

/-- The decoder, with another answer made of the state, the symbol and its own answer. -/
def observe {ω' : Type*} (note : σ → ι → ω → ω') : Decoder σ ι ω' :=
  ⟨fun s x => ((D.push s x).1, note s x (D.push s x).2)⟩

theorem feed_observe {ω' : Type*} (note : σ → ι → ω → ω') (s : σ) (xs : List ι) :
    ((D.observe note).feed s xs).1 = (D.feed s xs).1 := by
  induction xs generalizing s with
  | nil => rfl
  | cons x xs ih => exact ih (D.push s x).1

/-- What is noted of an answer. -/
theorem answer_observe {ω' : Type*} (note : σ → ι → ω → ω') {s : σ} {xs : List ι} {i : ℕ} {y : ω}
    (h : (D.feed s xs).2[i]? = some y) : ∃ (hi : i < xs.length),
      ((D.observe note).feed s xs).2[i]? = some (note (D.feed s (xs.take i)).1 xs[i] y) := by
  induction xs generalizing s i with
  | nil => cases h
  | cons x xs ih =>
      cases i with
      | zero =>
          obtain rfl : (D.push s x).2 = y := Option.some.inj h
          exact ⟨Nat.zero_lt_succ _, rfl⟩
      | succ i =>
          obtain ⟨hi, hnote⟩ := ih h
          exact ⟨Nat.succ_lt_succ hi, hnote⟩

end Decoder

/-- A framing of `φ` for a decoder: `At f k s` says that `s` has read exactly the first `k`
symbols of `f`'s image. -/
structure Framing {σ ι ω : Type*} (D : Decoder σ ι ω) (φ : Type*) where
  image : φ → List ι
  quiet : ω
  emit : φ → ω
  Idle : σ → Prop
  At : φ → ℕ → σ → Prop
  image_pos : ∀ f, 0 < (image f).length
  start : ∀ f s, Idle s → At f 0 s
  step : ∀ f k s (h : k + 1 < (image f).length), At f k s →
    At f (k + 1) (D.push s (image f)[k]).1 ∧ (D.push s (image f)[k]).2 = quiet
  last : ∀ f k s (h : k + 1 = (image f).length), At f k s →
    Idle (D.push s (image f)[k]).1 ∧ (D.push s (image f)[k]).2 = emit f

namespace Framing

variable {σ ι ω φ : Type*} {D : Decoder σ ι ω} (F : Framing D φ)

/-- The answers to a whole image: quiet, and the frame at the last symbol. -/
def answers (f : φ) : List ω := List.replicate ((F.image f).length - 1) F.quiet ++ [F.emit f]

/-- From `k` symbols in, the answers to the rest of the image. -/
theorem feed_drop (f : φ) : ∀ (n k : ℕ) (s : σ), n + k + 1 = (F.image f).length → F.At f k s →
    F.Idle (D.feed s ((F.image f).drop k)).1 ∧
      (D.feed s ((F.image f).drop k)).2 = List.replicate n F.quiet ++ [F.emit f]
  | 0, k, s, hk, hs => by
      have hlt : k < (F.image f).length := by omega
      have hnil : (F.image f).drop (k + 1) = [] := List.drop_eq_nil_of_le (by omega)
      obtain ⟨hidle, hout⟩ := F.last f k s (by omega) hs
      rw [List.drop_eq_getElem_cons hlt, hnil, D.feed_cons]
      exact ⟨hidle, by simp [hout]⟩
  | n + 1, k, s, hk, hs => by
      have hlt : k < (F.image f).length := by omega
      obtain ⟨hat, hout⟩ := F.step f k s (by omega) hs
      obtain ⟨hidle, hrest⟩ := feed_drop f n (k + 1) _ (by omega) hat
      rw [List.drop_eq_getElem_cons hlt, D.feed_cons]
      exact ⟨hidle, by simp [hout, hrest, List.replicate_succ]⟩

/-- **One frame.**  From an idle state, a frame's image is answered by the frame at its last
symbol and nothing before, and leaves the decoder idle. -/
theorem feed_image (f : φ) {s : σ} (hs : F.Idle s) :
    F.Idle (D.feed s (F.image f)).1 ∧ (D.feed s (F.image f)).2 = F.answers f := by
  have hpos := F.image_pos f
  exact F.feed_drop f ((F.image f).length - 1) 0 s (by omega) (F.start f s hs)

/-- **The round trip.**  From an idle state, the images of a list of frames back to back are
answered frame by frame, in order, and leave the decoder idle. -/
theorem feed_images (fs : List φ) {s : σ} (hs : F.Idle s) :
    F.Idle (D.feed s (fs.flatMap F.image)).1 ∧
      (D.feed s (fs.flatMap F.image)).2 = fs.flatMap F.answers := by
  induction fs generalizing s with
  | nil => exact ⟨hs, rfl⟩
  | cons f fs ih =>
      obtain ⟨hidle, hout⟩ := F.feed_image f hs
      obtain ⟨hidle', hout'⟩ := ih hidle
      rw [List.flatMap_cons, List.flatMap_cons, D.feed_append]
      exact ⟨hidle', by rw [hout, hout']⟩

/-- After a proper prefix of an image, the decoder stands that far into the frame and has
answered nothing. -/
theorem feed_take (f : φ) {s : σ} (hs : F.Idle s) {k : ℕ} (hk : k < (F.image f).length) :
    F.At f k (D.feed s ((F.image f).take k)).1 ∧
      (D.feed s ((F.image f).take k)).2 = List.replicate k F.quiet := by
  induction k with
  | zero => exact ⟨F.start f s hs, rfl⟩
  | succ k ih =>
      obtain ⟨hat, hout⟩ := ih (by omega)
      obtain ⟨hat', hout'⟩ := F.step f k _ hk hat
      rw [List.take_succ_eq_append_getElem (by omega), D.feed_append]
      refine ⟨hat', ?_⟩
      rw [hout, D.feed_cons, hout', List.replicate_succ']
      rfl

/-- **A stream cut anywhere.**  The answers to a prefix of the images of a list of frames are
those of its first frames, and quiet after. -/
theorem feed_prefix (fs : List φ) {s : σ} (hs : F.Idle s) {xs : List ι}
    (h : xs <+: fs.flatMap F.image) : ∃ gs k, gs <+: fs ∧
      (D.feed s xs).2 = gs.flatMap F.answers ++ List.replicate k F.quiet := by
  induction fs generalizing s xs with
  | nil =>
      obtain rfl := List.prefix_nil.mp h
      exact ⟨[], 0, List.prefix_rfl, rfl⟩
  | cons f fs ih =>
      rw [List.flatMap_cons] at h
      by_cases hk : xs.length < (F.image f).length
      · -- the cut is inside the image of `f`
        have hxs : xs = (F.image f).take xs.length := by
          have := List.prefix_iff_eq_take.mp h
          rwa [List.take_append_of_le_length (Nat.le_of_lt hk)] at this
        refine ⟨[], xs.length, List.nil_prefix, ?_⟩
        rw [hxs, (F.feed_take f hs hk).2, List.length_take, Nat.min_eq_left (Nat.le_of_lt hk)]
        rfl
      · obtain ⟨ys, rfl⟩ := List.prefix_of_prefix_length_le (List.prefix_append _ _) h
          (Nat.not_lt.mp hk)
        obtain ⟨hidle, hout⟩ := F.feed_image f hs
        obtain ⟨gs, k, hgs, hrest⟩ := ih hidle ((List.prefix_append_right_inj _).mp h)
        refine ⟨f :: gs, k, List.cons_prefix_cons.mpr ⟨rfl, hgs⟩, ?_⟩
        rw [D.feed_append, hout, hrest, List.flatMap_cons, List.append_assoc]

end Framing

end HibanaPico.Support
