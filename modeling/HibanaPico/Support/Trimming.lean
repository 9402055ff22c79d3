import Mathlib.Data.List.DropRight

/-!
# Support — Trimming

A list without the elements a predicate marks at its two ends, and when an encoding of its elements
as lists keeps it trimmed.

* `trimmed_trimBy`: what trimming leaves is trimmed.
* `trimBy_eq_iff`: of a list that starts unmarked, what is trimmed off is a marked tail.
* `Trimmed.flatMap`: a trimmed text encodes to a trimmed text when marked codes come from marked
  elements only.
-/

namespace HibanaPico.Trimming

variable {α β : Type} {p : α → Bool} {q : β → Bool} {l m : List α}

/-- `l` without the marked elements at its two ends. -/
def trimBy (p : α → Bool) (l : List α) : List α := (l.dropWhile p).rdropWhile p

/-- Neither end of `l` is marked. -/
structure Trimmed (p : α → Bool) (l : List α) : Prop where
  head : ∀ hl : l ≠ [], ¬ p (l.head hl)
  last : ∀ hl : l ≠ [], ¬ p (l.getLast hl)

theorem dropWhile_eq_self (head : ∀ hl : l ≠ [], ¬ p (l.head hl)) : l.dropWhile p = l := by
  cases l with
  | nil => rfl
  | cons a l => exact List.dropWhile_cons_of_neg (head (List.cons_ne_nil a l))

/-- A prefix of a list starts as the list does. -/
theorem head_eq_of_start (hm : m <+: l) (h : m ≠ []) (hl : l ≠ []) : m.head h = l.head hl := by
  obtain ⟨tail, rfl⟩ := hm
  exact (List.head_append_of_ne_nil h).symm

theorem trimmed_trimBy (p : α → Bool) (l : List α) : Trimmed p (trimBy p l) where
  head h := by
    have dropped : l.dropWhile p ≠ [] := fun none => h (by rw [trimBy, none]; rfl)
    have same : (trimBy p l).head h = (l.dropWhile p).head dropped :=
      head_eq_of_start (List.rdropWhile_prefix p _) h dropped
    rw [same, List.head_dropWhile_not p dropped]
    exact Bool.false_ne_true
  last h := List.rdropWhile_last_not p _ h

theorem trimBy_eq_iff (head : ∀ hl : l ≠ [], ¬ p (l.head hl)) (hm : Trimmed p m) :
    trimBy p l = m ↔ ∃ blanks, (∀ b ∈ blanks, p b) ∧ l = m ++ blanks := by
  constructor
  · intro trimmed
    rw [trimBy, dropWhile_eq_self head] at trimmed
    refine ⟨l.rtakeWhile p, fun b hb => List.mem_rtakeWhile_imp hb, ?_⟩
    rw [← trimmed]
    exact List.rdropWhile_append_rtakeWhile.symm
  · rintro ⟨blanks, marked, rfl⟩
    rw [trimBy, dropWhile_eq_self head]
    induction blanks using List.reverseRecOn with
    | nil => rw [List.append_nil]; exact List.rdropWhile_eq_self_iff.mpr hm.last
    | append_singleton blanks b ih =>
        rw [← List.append_assoc, List.rdropWhile_concat_pos _ _ _ (marked b (by simp))]
        rcases eq_or_ne (m ++ blanks) [] with none | some
        · rw [none, List.rdropWhile_nil]
          exact (List.append_eq_nil_iff.mp none).1.symm
        · refine ih (fun c hc => marked c (by simp [hc])) fun _ => ?_
          rw [head_eq_of_start ⟨[b], List.append_assoc m blanks [b]⟩ some (by simp)]
          exact head _

theorem Trimmed.flatMap {f : α → List β} (h : Trimmed p l) (ne : ∀ a, f a ≠ [])
    (marked : ∀ a, ∀ b ∈ f a, q b → p a) : Trimmed q (l.flatMap f) := by
  constructor
  · intro hl
    cases l with
    | nil => exact absurd rfl hl
    | cons a l =>
        intro hq
        have first : ((a :: l).flatMap f).head hl = (f a).head (ne a) := by
          simp [List.head_append_of_ne_nil, ne a]
        rw [first] at hq
        exact h.head (List.cons_ne_nil a l) (marked a _ (List.head_mem (ne a)) hq)
  · intro hl
    rcases List.eq_nil_or_concat' l with rfl | ⟨l, a, rfl⟩
    · exact absurd rfl hl
    · intro hq
      have last : (((l ++ [a]).flatMap f).getLast hl) = (f a).getLast (ne a) := by
        simp [List.flatMap_append, List.getLast_append_of_ne_nil, ne a]
      rw [last] at hq
      exact h.last (by simp) (by simpa using marked a _ (List.getLast_mem (ne a)) hq)

end HibanaPico.Trimming
