import Mathlib.Algebra.BigOperators.Group.Finset.Basic
import Mathlib.Algebra.Order.BigOperators.Group.Multiset
import Mathlib.Data.Fintype.Basic
import Mathlib.Tactic.Abel

/-!
# Support — Slots

A finite family of slots that hold one item each.  `held` is the multiset of what they hold.

* `held_update`: setting one slot trades what it held for what it holds.
* `held_move`: moving an item from one slot to an empty one changes nothing held.
* `appeared`, `vanished`: what an observer of two moments sees enter and leave.
-/

namespace HibanaPico.Support

namespace Slots

variable {ι α : Type*}

/-- What a slot holds. -/
def item : Option α → Multiset α
  | none => 0
  | some x => {x}

@[simp] theorem item_none : item (none : Option α) = 0 := rfl

@[simp] theorem item_some (x : α) : item (some x) = {x} := rfl

/-- What the slots hold together. -/
def held [Fintype ι] (slots : ι → Option α) : Multiset α := ∑ i, item (slots i)

variable [DecidableEq ι]

/-- **Setting a slot.** -/
theorem held_update [Fintype ι] (slots : ι → Option α) (i : ι) (v : Option α) :
    held (Function.update slots i v) + item (slots i) = held slots + item v := by
  have hafter : held (Function.update slots i v) =
      item v + ∑ j ∈ Finset.univ.erase i, item (slots j) := by
    rw [held, ← Finset.add_sum_erase _ _ (Finset.mem_univ i), Function.update_self]
    refine congrArg _ (Finset.sum_congr rfl fun j hj => ?_)
    rw [Function.update_of_ne (Finset.ne_of_mem_erase hj)]
  have hbefore : held slots = item (slots i) + ∑ j ∈ Finset.univ.erase i, item (slots j) :=
    (Finset.add_sum_erase _ _ (Finset.mem_univ i)).symm
  rw [hafter, hbefore]
  abel

theorem held_fill [Fintype ι] {slots : ι → Option α} {i : ι} (h : slots i = none) (x : α) :
    held (Function.update slots i (some x)) = held slots + {x} := by
  simpa [h] using held_update slots i (some x)

theorem held_clear [Fintype ι] {slots : ι → Option α} {i : ι} {x : α} (h : slots i = some x) :
    held (Function.update slots i none) + {x} = held slots := by
  simpa [h] using held_update slots i none

/-- **Moving an item** to an empty slot. -/
theorem held_move [Fintype ι] {slots : ι → Option α} {i j : ι} {x : α} (hi : slots i = some x)
    (hj : Function.update slots i none j = none) :
    held (Function.update (Function.update slots i none) j (some x)) = held slots := by
  rw [held_fill hj, held_clear hi]

/-! ### Two moments compared -/

variable [DecidableEq α]

/-- What the listed slots hold that they did not, slot by slot. -/
def appeared (l : List ι) (before after : ι → Option α) : List (ι × α) :=
  l.filterMap fun i => if after i = before i then none else (after i).map (i, ·)

/-- What the listed slots held that they do not, slot by slot. -/
def vanished (l : List ι) (before after : ι → Option α) : List (ι × α) := appeared l after before

omit [DecidableEq ι] in
@[simp] theorem appeared_self (l : List ι) (slots : ι → Option α) :
    appeared l slots slots = [] := by
  simp [appeared]

omit [DecidableEq ι] in
@[simp] theorem vanished_self (l : List ι) (slots : ι → Option α) : vanished l slots slots = [] :=
  appeared_self l slots

/-- Two moments that differ at one slot at most. -/
theorem appeared_of_agree {l : List ι} (hl : l.Nodup) {i : ι} (hi : i ∈ l)
    {before after : ι → Option α} (h : ∀ j, j ≠ i → after j = before j) :
    appeared l before after =
      (if after i = before i then none else (after i).map (i, ·)).toList := by
  have hrest : ∀ l : List ι, i ∉ l → appeared l before after = [] := by
    intro l hil
    refine List.filterMap_eq_nil_iff.mpr fun j hj => if_pos (h j ?_)
    rintro rfl
    exact hil hj
  induction l with
  | nil => cases hi
  | cons j l ih =>
      obtain ⟨hj, hl⟩ := List.nodup_cons.mp hl
      by_cases hji : j = i
      · subst hji
        rw [appeared, List.filterMap_cons]
        have hnil := hrest l hj
        unfold appeared at hnil
        split
        · rename_i hnone; rw [hnil, hnone]; rfl
        · rename_i b hsome; rw [hnil, hsome]; rfl
      · have hil : i ∈ l := (List.mem_cons.mp hi).resolve_left (Ne.symm hji)
        have hskip : appeared (j :: l) before after = appeared l before after := by
          rw [appeared, List.filterMap_cons, if_pos (h j hji)]
          rfl
        rw [hskip, ih hl hil]

theorem appeared_fill {l : List ι} (hl : l.Nodup) {i : ι} (hi : i ∈ l) {slots : ι → Option α}
    (h : slots i = none) (x : α) :
    appeared l slots (Function.update slots i (some x)) = [(i, x)] := by
  rw [appeared_of_agree hl hi fun j hj => Function.update_of_ne hj _ _]
  simp [h]

theorem vanished_fill {l : List ι} (hl : l.Nodup) {i : ι} (hi : i ∈ l) {slots : ι → Option α}
    (h : slots i = none) (x : α) :
    vanished l slots (Function.update slots i (some x)) = [] := by
  rw [vanished, appeared_of_agree hl hi fun j hj => (Function.update_of_ne hj _ _).symm]
  simp [h]

theorem vanished_clear {l : List ι} (hl : l.Nodup) {i : ι} (hi : i ∈ l) {slots : ι → Option α}
    {x : α} (h : slots i = some x) :
    vanished l slots (Function.update slots i none) = [(i, x)] := by
  rw [vanished, appeared_of_agree hl hi fun j hj => (Function.update_of_ne hj _ _).symm]
  simp [h]

end Slots

end HibanaPico.Support
