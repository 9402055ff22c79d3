import HibanaPico.Support.Framing
import Mathlib.Data.List.ReduceOption

/-!
# Support — Scanning

A scanner reads a stream of symbols and holds the last of them: each symbol is added to what is
held, or everything held is dropped, or what is held and the symbol are the image of a frame, which
is answered.  Whatever the stream is, the frames answered lie in it, one after the other.

* `held_suffix`: what is held is the end of what was read.
* `answer_image`, `answers_apart`: a frame answered is read where it was answered, and two frames
  answered are read apart.
* `Scattered`: frames in a stream, in order, with anything between them.
* `Scattered.sublist_of_ownPlaces`: where images occur at their own places only.
* `scattered_feed`: the frames answered are scattered in the stream.
-/

namespace HibanaPico.Support

/-- A decoder that answers a frame when what it holds, and the symbol, are the frame's image. -/
structure Scanner {σ ι φ : Type*} (D : Decoder σ ι (Option φ)) (image : φ → List ι) where
  Inv : σ → Prop
  held : σ → List ι
  inv_push : ∀ s x, Inv s → Inv (D.push s x).1
  push_none : ∀ s x, Inv s → (D.push s x).2 = none →
    held (D.push s x).1 = held s ++ [x] ∨ held (D.push s x).1 = []
  push_some : ∀ s x f, Inv s → (D.push s x).2 = some f →
    held s ++ [x] = image f ∧ held (D.push s x).1 = []

/-- The frames lie in the stream in this order, with anything before, between and after them. -/
inductive Scattered {ι φ : Type*} (image : φ → List ι) : List φ → List ι → Prop
  | nil (xs : List ι) : Scattered image [] xs
  | cons {f : φ} {fs : List φ} {xs : List ι} (before : List ι) (h : Scattered image fs xs) :
      Scattered image (f :: fs) (before ++ (image f ++ xs))

namespace Scattered

variable {ι φ : Type*} {image : φ → List ι} {fs : List φ} {xs : List ι}

theorem append_left (before : List ι) (h : Scattered image fs xs) :
    Scattered image fs (before ++ xs) := by
  cases h with
  | nil => exact .nil _
  | cons before' h =>
      rw [← List.append_assoc]
      exact .cons _ h

/-- The images fit in the stream. -/
theorem length_le (h : Scattered image fs xs) : (fs.flatMap image).length ≤ xs.length := by
  induction h with
  | nil => simp
  | cons before _ ih =>
      simp only [List.flatMap_cons, List.length_append]
      omega

/-- Images that fill the stream are the stream. -/
theorem eq_of_length (h : Scattered image fs xs) (hlen : (fs.flatMap image).length = xs.length) :
    xs = fs.flatMap image := by
  induction h with
  | nil xs => exact List.eq_nil_of_length_eq_zero hlen.symm
  | cons before h ih =>
      have hle := h.length_le
      simp only [List.flatMap_cons, List.length_append] at hlen
      obtain rfl : before = [] := List.eq_nil_of_length_eq_zero (by omega)
      rw [List.flatMap_cons, ← ih (by rw [List.length_nil] at hlen; omega)]
      rfl

/-- Every image that occurs in the stream is that of one of the frames, at its own place. -/
def OwnPlaces (image : φ → List ι) (fs : List φ) (xs : List ι) : Prop :=
  ∀ i g, image g <+: xs.drop i →
    ∃ before after, fs = before ++ g :: after ∧ i = (before.flatMap image).length

/-- A split of the frames comes before another one whose images are as long or longer. -/
theorem split_of_length_le {fs₀ fs₁ before after : List φ} {g : φ} (hpos : 0 < (image g).length)
    (h : fs₀ ++ fs₁ = before ++ g :: after)
    (hlen : (fs₀.flatMap image).length ≤ (before.flatMap image).length) :
    ∃ mid, fs₁ = mid ++ g :: after := by
  rcases List.append_eq_append_iff.mp h with ⟨mid, -, hmid⟩ | ⟨mid, hbefore, hmid⟩
  · exact ⟨mid, hmid⟩
  · cases mid with
    | nil => exact ⟨[], hmid.symm⟩
    | cons y mid =>
        obtain ⟨rfl, -⟩ := List.cons.inj hmid
        rw [hbefore, List.flatMap_append, List.flatMap_cons, List.length_append,
          List.length_append] at hlen
        omega

/-- Frames scattered in a stream that holds images at their own places only are some of those
frames, in their order. -/
theorem sublist_of_ownPlaces (hpos : ∀ g, 0 < (image g).length) {gs : List φ}
    (hown : OwnPlaces image fs xs) (h : Scattered image gs xs) : gs.Sublist fs := by
  suffices H : ∀ ys (_ : Scattered image gs ys) (done : List ι) (fs₀ fs₁ : List φ),
      xs = done ++ ys → fs = fs₀ ++ fs₁ → (fs₀.flatMap image).length ≤ done.length →
      gs.Sublist fs₁ from H xs h [] [] fs rfl rfl (by simp)
  clear h
  intro ys hys
  induction hys with
  | nil => exact fun _ _ _ _ _ _ => List.nil_sublist _
  | @cons g gs ys before hrest ih =>
      intro done fs₀ fs₁ hxs hfs hlen
      have hdrop : xs.drop (done.length + before.length) = image g ++ ys := by
        rw [hxs, ← List.append_assoc, ← List.length_append, List.drop_left]
      obtain ⟨pre, after, hpre, hplace⟩ := hown _ g (hdrop ▸ List.prefix_append _ _)
      obtain ⟨mid, rfl⟩ := split_of_length_le (hpos g) (hfs.symm.trans hpre) (by omega)
      have hsub := ih (done ++ (before ++ image g)) (pre ++ [g]) after
        (by rw [hxs]; simp) (by rw [hpre]; simp)
        (by simp only [List.flatMap_append, List.flatMap_singleton, List.length_append]; omega)
      exact (hsub.cons_cons g).trans (List.sublist_append_right _ _)

end Scattered

namespace Scanner

variable {σ ι φ : Type*} {D : Decoder σ ι (Option φ)} {image : φ → List ι} (S : Scanner D image)

theorem inv_feed {s : σ} (hs : S.Inv s) (xs : List ι) : S.Inv (D.feed s xs).1 := by
  induction xs generalizing s with
  | nil => exact hs
  | cons x xs ih => exact ih (S.inv_push s x hs)

/-- What is held after a symbol is the end of what was held, with the symbol. -/
theorem held_push {s : σ} (hs : S.Inv s) (x : ι) :
    S.held (D.push s x).1 <:+ S.held s ++ [x] := by
  cases hout : (D.push s x).2 with
  | none =>
      rcases S.push_none s x hs hout with h | h
      · exact h ▸ List.suffix_rfl
      · exact h ▸ List.nil_suffix
  | some f =>
      rw [(S.push_some s x f hs hout).2]
      exact List.nil_suffix

theorem held_suffix {s : σ} (hs : S.Inv s) (xs : List ι) :
    S.held (D.feed s xs).1 <:+ S.held s ++ xs := by
  induction xs generalizing s with
  | nil => simp
  | cons x xs ih =>
      have hrest := ih (S.inv_push s x hs)
      have hpush : S.held (D.push s x).1 ++ xs <:+ S.held s ++ x :: xs := by
        obtain ⟨pre, hpre⟩ := S.held_push hs x
        exact ⟨pre, by rw [← List.append_assoc, hpre]; simp⟩
      exact hrest.trans hpush

/-- What is held after a stream is all that was held and read, or less than was read. -/
theorem held_feed {s : σ} (hs : S.Inv s) (xs : List ι) :
    S.held (D.feed s xs).1 = S.held s ++ xs ∨ (S.held (D.feed s xs).1).length < xs.length := by
  induction xs generalizing s with
  | nil => exact .inl (List.append_nil _).symm
  | cons x xs ih =>
      have hpush : S.held (D.push s x).1 = S.held s ++ [x] ∨ S.held (D.push s x).1 = [] := by
        cases hout : (D.push s x).2 with
        | none => exact S.push_none s x hs hout
        | some f => exact .inr (S.push_some s x f hs hout).2
      rw [D.feed_cons, List.length_cons]
      rcases ih (S.inv_push s x hs) with hrest | hrest
      · rcases hpush with h | h
        · exact .inl (by rw [hrest, h, List.append_assoc]; rfl)
        · exact .inr (by rw [hrest, h]; simp)
      · exact .inr (Nat.lt_succ_of_lt hrest)

/-- A frame answered at the last symbol of its image was read from there. -/
theorem held_eq_nil_of_answer {s : σ} (hs : S.Inv s) {f : φ} (xs : List ι) {x : ι}
    (himage : image f = xs ++ [x]) (h : (D.push (D.feed s xs).1 x).2 = some f) :
    S.held s = [] := by
  have hread := (S.push_some _ x f (S.inv_feed hs xs) h).1
  rw [himage, List.append_left_inj] at hread
  rcases S.held_feed hs xs with hall | hless
  · exact List.append_left_eq_self.mp (hall.symm.trans hread)
  · rw [hread] at hless
    exact absurd hless (Nat.lt_irrefl _)

/-- The symbol answered, in the stream. -/
theorem answer_at {s : σ} {xs : List ι} {i : ℕ} {f : φ}
    (h : (D.feed s xs).2[i]? = some (some f)) : ∃ (hi : i < xs.length),
      (D.push (D.feed s (xs.take i)).1 xs[i]).2 = some f := by
  have hi : i < xs.length := by
    have := (List.getElem?_eq_some_iff.mp h).1
    rwa [D.length_feed] at this
  have hsplit : xs.take i ++ xs[i] :: xs.drop (i + 1) = xs := by
    rw [← List.drop_eq_getElem_cons hi, List.take_append_drop]
  have hanswer := D.feed_answer s (xs.take i) (xs.drop (i + 1)) xs[i]
  rw [hsplit, List.length_take, Nat.min_eq_left (Nat.le_of_lt hi), h, Option.some.injEq] at hanswer
  exact ⟨hi, hanswer.symm⟩

/-- **Where a frame was read.**  A frame answered is the end of what was held and read by then. -/
theorem answer_image {s : σ} (hs : S.Inv s) {xs : List ι} {i : ℕ} {f : φ}
    (h : (D.feed s xs).2[i]? = some (some f)) :
    image f <:+ S.held s ++ xs.take (i + 1) := by
  obtain ⟨hi, hpush⟩ := answer_at h
  obtain ⟨pre, hpre⟩ := S.held_suffix hs (xs.take i)
  obtain ⟨himage, -⟩ := S.push_some _ _ f (S.inv_feed hs _) hpush
  refine ⟨pre, ?_⟩
  rw [← himage, ← List.append_assoc, hpre, List.take_succ_eq_append_getElem hi, List.append_assoc]

/-- **Frames apart.**  A frame answered after another one begins after it. -/
theorem answers_apart {s : σ} (hs : S.Inv s) {xs : List ι} {i j : ℕ} {f g : φ} (hij : i < j)
    (hf : (D.feed s xs).2[i]? = some (some f)) (hg : (D.feed s xs).2[j]? = some (some g)) :
    (image g).length ≤ j - i := by
  obtain ⟨hi, hpush⟩ := answer_at hf
  have hheld : S.held (D.feed s (xs.take (i + 1))).1 = [] := by
    rw [List.take_succ_eq_append_getElem hi, D.feed_append]
    exact (S.push_some _ _ f (S.inv_feed hs _) hpush).2
  have hrest : (D.feed (D.feed s (xs.take (i + 1))).1 (xs.drop (i + 1))).2[j - (i + 1)]? =
      some (some g) := by
    have happ := D.feed_append s (xs.take (i + 1)) (xs.drop (i + 1))
    rw [List.take_append_drop] at happ
    rw [happ, List.getElem?_append_right (by rw [D.length_feed, List.length_take]; omega),
      D.length_feed, List.length_take, Nat.min_eq_left hi] at hg
    exact hg
  have hlen := (S.answer_image (S.inv_feed hs _) hrest).length_le
  rw [hheld, List.nil_append, List.length_take] at hlen
  omega

/-- **The frames answered lie in the stream**, one after the other. -/
theorem scattered_feed {s : σ} (hs : S.Inv s) (xs : List ι) :
    Scattered image (D.feed s xs).2.reduceOption (S.held s ++ xs) := by
  induction xs generalizing s with
  | nil => exact .nil _
  | cons x xs ih =>
      have hrest := ih (S.inv_push s x hs)
      rw [D.feed_cons]
      cases hout : (D.push s x).2 with
      | none =>
          rw [List.reduceOption_cons_of_none]
          rcases S.push_none s x hs hout with h | h
          · rwa [h, List.append_assoc] at hrest
          · rw [h, List.nil_append] at hrest
            rw [← List.singleton_append, ← List.append_assoc]
            exact hrest.append_left _
      | some f =>
          obtain ⟨himage, h⟩ := S.push_some s x f hs hout
          rw [h, List.nil_append] at hrest
          have hstream : S.held s ++ x :: xs = image f ++ xs := by
            rw [← himage, List.append_assoc, List.singleton_append]
          rw [List.reduceOption_cons_of_some, hstream]
          exact .cons [] hrest

end Scanner

end HibanaPico.Support
