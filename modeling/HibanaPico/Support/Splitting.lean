import Mathlib.Data.List.Basic

/-!
# Support — Splitting

A list split around the first place where another list stands in it.

* `splitOnce_eq_iff`: what the search for the place comes to.
* `FirstSplit.append`: the place does not depend on what follows.
* `firstSplit_singleton`, `not_mem_of_firstSplit`: the place of a single element.
* `intercalate_cons_iff`, `intercalate_separator_iff`: the first element of words joined with a
  separator.
-/

namespace HibanaPico.Splitting

variable {α : Type*} {needle text before after : List α}

/-- The two sides of the first place where `needle` stands. -/
def splitOnce [DecidableEq α] (needle : List α) : List α → Option (List α × List α)
  | [] => if needle = [] then some ([], []) else none
  | a :: text =>
      if needle.isPrefixOf (a :: text) then some ([], (a :: text).drop needle.length)
      else (splitOnce needle text).map fun halves => (a :: halves.1, halves.2)

/-- `needle` stands in `text` between `before` and `after`, and nowhere earlier. -/
structure FirstSplit (needle text before after : List α) : Prop where
  text_eq : text = before ++ (needle ++ after)
  first : ∀ before' after', text = before' ++ (needle ++ after') → before.length ≤ before'.length

theorem splitOnce_eq_iff [DecidableEq α] :
    splitOnce needle text = some (before, after) ↔ FirstSplit needle text before after := by
  induction text generalizing before with
  | nil =>
      rw [splitOnce]
      split
      next empty =>
        subst empty
        constructor
        · intro same
          cases same
          exact ⟨rfl, fun _ _ _ => Nat.zero_le _⟩
        · intro h
          obtain ⟨rfl, rfl⟩ := List.append_eq_nil_iff.mp h.text_eq.symm
          rfl
      next some =>
        constructor
        · intro same
          cases same
        · intro h
          have none := (List.append_eq_nil_iff.mp (List.append_eq_nil_iff.mp h.text_eq.symm).2).1
          exact absurd none some
  | cons a text ih =>
      rw [splitOnce]
      split
      next here =>
        obtain ⟨tail, same⟩ := List.isPrefixOf_iff_prefix.mp here
        rw [← same, List.drop_left]
        constructor
        · intro result
          cases result
          exact ⟨rfl, fun _ _ _ => Nat.zero_le _⟩
        · intro h
          obtain rfl := List.eq_nil_of_length_eq_zero (Nat.le_zero.mp (h.first [] tail rfl))
          rw [(List.append_cancel_left h.text_eq : tail = after)]
      next elsewhere =>
        have starts {after' : List α} (same : a :: text = needle ++ after') : False :=
          elsewhere (List.isPrefixOf_iff_prefix.mpr ⟨after', same.symm⟩)
        rw [Option.map_eq_some_iff]
        constructor
        · rintro ⟨⟨before, after⟩, found, same⟩
          cases same
          obtain ⟨rfl, first⟩ := ih.mp found
          refine ⟨rfl, fun before' after' same => ?_⟩
          cases before' with
          | nil => exact (starts same).elim
          | cons b before' =>
              exact Nat.succ_le_succ (first before' after' (List.cons.inj same).2)
        · rintro ⟨same, first⟩
          cases before with
          | nil => exact (starts same).elim
          | cons b before =>
              obtain ⟨rfl, rest⟩ := List.cons.inj same
              refine ⟨(before, after), ih.mpr ⟨rest, fun before' after' same => ?_⟩, rfl⟩
              exact Nat.le_of_succ_le_succ (first (a :: before') after' (congrArg (a :: ·) same))

/-- What follows the text does not change where the needle first stands. -/
theorem FirstSplit.append (h : FirstSplit needle text before after) (tail : List α) :
    FirstSplit needle (text ++ tail) before (after ++ tail) where
  text_eq := by rw [h.text_eq, List.append_assoc, List.append_assoc]
  first before' after' same := by
    refine Nat.le_of_not_lt fun earlier => ?_
    have short : (before' ++ needle).length ≤ text.length := by
      rw [h.text_eq, List.length_append, List.length_append, List.length_append]
      omega
    have start : before' ++ needle <+: text ++ tail :=
      ⟨after', by rw [same, List.append_assoc]⟩
    obtain ⟨after'', rest⟩ :=
      List.prefix_of_prefix_length_le start (List.prefix_append text tail) short
    rw [List.append_assoc] at rest
    exact absurd (h.first before' after'' rest.symm) (Nat.not_le_of_lt earlier)

theorem firstSplit_singleton {a : α} (h : a ∉ before) :
    FirstSplit [a] (before ++ a :: after) before after where
  text_eq := rfl
  first before' after' same := by
    refine Nat.le_of_not_lt fun earlier => ?_
    have short : (before' ++ [a]).length ≤ before.length := by
      rw [List.length_append]
      exact earlier
    have start : before' ++ [a] <+: before ++ a :: after :=
      ⟨after', by rw [same, List.append_assoc]⟩
    have inside := List.prefix_of_prefix_length_le start (List.prefix_append before _) short
    exact h (inside.subset (List.mem_append_right before' (List.mem_singleton_self a)))

theorem not_mem_of_firstSplit {a : α} (h : FirstSplit [a] text before after) :
    a ∉ before := by
  intro mem
  obtain ⟨left, right, rfl⟩ := List.append_of_mem mem
  have earlier := h.first left (right ++ a :: after) (by
    rw [h.text_eq, List.append_assoc]
    rfl)
  rw [List.length_append, List.length_cons] at earlier
  omega

/-! ### Lists joined with a separator -/

variable {sep a : α} {rest word : List α} {words : List (List α)}

/-- At anything but the separator, the first word goes on. -/
theorem intercalate_cons_iff (h : a ≠ sep) : a :: rest = [sep].intercalate (word :: words) ↔
    ∃ tail, word = a :: tail ∧ rest = [sep].intercalate (tail :: words) := by
  cases word with
  | nil =>
      refine iff_of_false (fun heq => ?_) (fun ⟨tail, htail, _⟩ => by cases htail)
      cases words with
      | nil =>
          rw [List.intercalate_singleton] at heq
          cases heq
      | cons next words =>
          rw [List.intercalate_cons_cons] at heq
          exact h (List.cons.inj heq).1
  | cons first tail =>
      rw [List.intercalate_cons_cons_left, List.cons.injEq]
      constructor
      · rintro ⟨rfl, hrest⟩
        exact ⟨tail, rfl, hrest⟩
      · rintro ⟨tail', htail, hrest⟩
        obtain ⟨rfl, rfl⟩ := List.cons.inj htail
        exact ⟨rfl, hrest⟩

/-- At the separator the first word is over and another one follows, where no word begins with
it. -/
theorem intercalate_separator_iff (h : ∀ tail, word ≠ sep :: tail) :
    sep :: rest = [sep].intercalate (word :: words) ↔
      word = [] ∧ ∃ next others, words = next :: others ∧
        rest = [sep].intercalate (next :: others) := by
  cases word with
  | nil =>
      cases words with
      | nil =>
          rw [List.intercalate_singleton]
          exact iff_of_false (fun heq => by cases heq)
            (fun ⟨_, next, others, hnil, _⟩ => by cases hnil)
      | cons next others =>
          rw [List.intercalate_cons_cons]
          constructor
          · intro heq
            exact ⟨rfl, next, others, rfl, (List.cons.inj heq).2⟩
          · rintro ⟨-, next', others', heq, rfl⟩
            obtain ⟨rfl, rfl⟩ := List.cons.inj heq
            rfl
  | cons first tail =>
      rw [List.intercalate_cons_cons_left]
      refine iff_of_false (fun heq => ?_) (fun ⟨hnil, _⟩ => by cases hnil)
      exact h tail (by rw [(List.cons.inj heq).1])

end HibanaPico.Splitting
