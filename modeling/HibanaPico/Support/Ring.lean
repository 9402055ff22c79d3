import Mathlib.Data.List.Basic
import Mathlib.Data.List.Range
import HibanaPico.Support.Cells

/-!
# Support — Ring

A ring of `depth` cells holds a list in the `n` cells from `head` on, cyclically (`window`).

* `window_write_tail`, `window_write_head`: a write to the cell after the window appends, one to
  the cell before it prepends.
* `window_closeGap`, `window_shiftDown`: moving each cell of the window from an offset on to its
  predecessor removes the entry at that offset, and keeps the order of the others.
* `Within`: the cells of the window, as a set of indices.
-/

namespace HibanaPico.Support.Ring

variable {α : Type*} {depth head n : ℕ}

/-- The index of the entry at `offset`. -/
def slot (depth head offset : ℕ) : ℕ := (head + offset) % depth

/-- The index before `head`. -/
def before (depth head : ℕ) : ℕ := if head = 0 then depth - 1 else head - 1

/-- The `n` entries from `head` on. -/
def window (c : Cells α) (depth head n : ℕ) : List α :=
  (List.range n).map fun i => c (slot depth head i)

/-- `i` is the index of an entry. -/
def Within (depth head n i : ℕ) : Prop := ∃ j < n, i = slot depth head j

@[simp] theorem length_window (c : Cells α) (depth head n : ℕ) :
    (window c depth head n).length = n := by simp [window]

theorem getElem?_window (c : Cells α) (depth head : ℕ) {n i : ℕ} (h : i < n) :
    (window c depth head n)[i]? = some (c (slot depth head i)) := by
  simp [window, h]

theorem slot_lt (offset : ℕ) (h : head < depth) : slot depth head offset < depth :=
  Nat.mod_lt _ (by omega)

theorem slot_zero (h : head < depth) : slot depth head 0 = head := Nat.mod_eq_of_lt h

theorem slot_eq (h : head < depth) {i : ℕ} (hi : i ≤ depth) :
    slot depth head i = if head + i < depth then head + i else head + i - depth := by
  unfold slot
  split
  · exact Nat.mod_eq_of_lt ‹_›
  · rw [Nat.mod_eq_sub_mod (by omega), Nat.mod_eq_of_lt (by omega)]

theorem slot_inj (h : head < depth) {i j : ℕ} (hi : i < depth) (hj : j < depth)
    (hij : slot depth head i = slot depth head j) : i = j := by
  rw [slot_eq h (by omega), slot_eq h (by omega)] at hij
  split at hij <;> split at hij <;> omega

theorem slot_succ (i : ℕ) :
    (slot depth head i + 1) % depth = slot depth head (i + 1) := by
  unfold slot
  rw [Nat.mod_add_mod, Nat.add_assoc]

theorem before_lt (h : head < depth) : before depth head < depth := by
  unfold before; split <;> omega

theorem slot_before (h : head < depth) {i : ℕ} (hi : i < depth) :
    slot depth (before depth head) (i + 1) = slot depth head i := by
  rw [slot_eq (before_lt h) (by omega), slot_eq h (by omega)]
  unfold before
  split <;> split <;> split <;> omega

/-- Windows agree when their entries do. -/
theorem window_congr {c d : Cells α} (h : ∀ i < n, c (slot depth head i) = d (slot depth head i)) :
    window c depth head n = window d depth head n :=
  List.map_congr_left fun i hi => h i (List.mem_range.mp hi)

theorem window_succ (c : Cells α) (depth head n : ℕ) :
    window c depth head (n + 1) = window c depth head n ++ [c (slot depth head n)] := by
  simp [window, List.range_succ]

theorem window_cons (c : Cells α) (h : head < depth) (hn : n < depth) :
    window c depth (before depth head) (n + 1) =
      c (before depth head) :: window c depth head n := by
  unfold window
  rw [List.range_succ_eq_map, List.map_cons, List.map_map, slot_zero (before_lt h)]
  refine congrArg _ (List.map_congr_left fun i hi => ?_)
  exact congrArg c (slot_before h (by have := List.mem_range.mp hi; omega))

/-- The first entry, and the others. -/
theorem window_uncons (c : Cells α) (h : head < depth) (n : ℕ) :
    window c depth head (n + 1) = c head :: window c depth ((head + 1) % depth) n := by
  unfold window
  rw [List.range_succ_eq_map, List.map_cons, List.map_map, slot_zero h]
  refine congrArg _ (List.map_congr_left fun i _ => ?_)
  show c (slot depth head (i + 1)) = c (slot depth ((head + 1) % depth) i)
  unfold slot
  rw [Nat.mod_add_mod, Nat.add_assoc, Nat.add_comm 1 i]

/-- A write outside the window. -/
theorem window_update {c : Cells α} {i : ℕ} (x : α) (h : ¬ Within depth head n i) :
    window (Function.update c i x) depth head n = window c depth head n :=
  window_congr fun j hj => Function.update_of_ne (fun e => h ⟨j, hj, e.symm⟩) _ _

theorem not_within_tail (h : head < depth) (hn : n < depth) :
    ¬ Within depth head n (slot depth head n) := by
  rintro ⟨j, hj, e⟩
  have := slot_inj h hn (by omega) e
  omega

theorem not_within_before (h : head < depth) (hn : n < depth) :
    ¬ Within depth head n (before depth head) := by
  rintro ⟨j, hj, e⟩
  have e' : slot depth (before depth head) 0 = slot depth (before depth head) (j + 1) := by
    rw [slot_zero (before_lt h), slot_before h (by omega), e]
  have := slot_inj (before_lt h) (by omega) (by omega) e'
  omega

theorem not_within_zero {i : ℕ} : ¬ Within depth head 0 i :=
  fun ⟨_, hj, _⟩ => Nat.not_lt_zero _ hj

/-- The window grown at its tail. -/
theorem within_succ {i : ℕ} :
    Within depth head (n + 1) i ↔ i = slot depth head n ∨ Within depth head n i := by
  constructor
  · rintro ⟨j, hj, rfl⟩
    rcases Nat.lt_succ_iff_lt_or_eq.mp hj with hj | rfl
    · exact .inr ⟨j, hj, rfl⟩
    · exact .inl rfl
  · rintro (rfl | ⟨j, hj, rfl⟩)
    · exact ⟨n, Nat.lt_succ_self n, rfl⟩
    · exact ⟨j, Nat.lt_succ_of_lt hj, rfl⟩

/-- The window grown at its head. -/
theorem within_before (h : head < depth) (hn : n < depth) {i : ℕ} :
    Within depth (before depth head) (n + 1) i ↔
      i = before depth head ∨ Within depth head n i := by
  constructor
  · rintro ⟨j, hj, rfl⟩
    cases j with
    | zero => exact .inl (slot_zero (before_lt h))
    | succ j => exact .inr ⟨j, by omega, slot_before h (by omega)⟩
  · rintro (rfl | ⟨j, hj, rfl⟩)
    · exact ⟨0, by omega, (slot_zero (before_lt h)).symm⟩
    · exact ⟨j + 1, by omega, (slot_before h (by omega)).symm⟩

/-- **Append.** -/
theorem window_write_tail (c : Cells α) (x : α) (h : head < depth) (hn : n < depth) :
    window (Function.update c (slot depth head n) x) depth head (n + 1) =
      window c depth head n ++ [x] := by
  rw [window_succ, window_update x (not_within_tail h hn), Function.update_self]

/-- **Prepend.** -/
theorem window_write_head (c : Cells α) (x : α) (h : head < depth) (hn : n < depth) :
    window (Function.update c (before depth head) x) depth (before depth head) (n + 1) =
      x :: window c depth head n := by
  rw [window_cons _ h hn, Function.update_self, window_update x (not_within_before h hn)]

/-! ### Removal from the middle -/

/-- Move each cell from `cursor` up to `tail` to its predecessor, `fuel` moves at most. -/
def closeGap (depth tail : ℕ) : ℕ → ℕ → Cells α → Cells α
  | 0, _, c => c
  | fuel + 1, cursor, c =>
      if cursor = tail then c
      else closeGap depth tail fuel ((cursor + 1) % depth)
        (Function.update c cursor (c ((cursor + 1) % depth)))

/-- What the moves leave in each cell of the window. -/
theorem closeGap_slot (h : head < depth) (hn : n < depth) :
    ∀ (fuel j : ℕ) (c : Cells α), j ≤ n → n - j ≤ fuel → ∀ i ≤ n,
      closeGap depth (slot depth head n) fuel (slot depth head j) c (slot depth head i) =
        if j ≤ i ∧ i < n then c (slot depth head (i + 1)) else c (slot depth head i)
  | 0, j, c, hj, hf, i, hi => by
      rw [closeGap, if_neg (by omega)]
  | fuel + 1, j, c, hj, hf, i, hi => by
      by_cases hjn : j = n
      · subst hjn
        rw [closeGap, if_pos rfl, if_neg (by omega)]
      · have hne : slot depth head j ≠ slot depth head n :=
          fun e => hjn (slot_inj h (by omega) hn e)
        rw [closeGap, if_neg hne, slot_succ,
          closeGap_slot h hn fuel (j + 1) _ (by omega) (by omega) i hi]
        by_cases hij : i = j
        · subst hij
          rw [if_neg (by omega), Function.update_self, if_pos (by omega)]
        · have h₁ : slot depth head i ≠ slot depth head j :=
            fun e => hij (slot_inj h (by omega) (by omega) e)
          by_cases hlt : j + 1 ≤ i ∧ i < n
          · have h₂ : slot depth head (i + 1) ≠ slot depth head j :=
              fun e => by have := slot_inj h (by omega) (by omega) e; omega
            rw [if_pos hlt, Function.update_of_ne h₂, if_pos (by omega)]
          · rw [if_neg hlt, Function.update_of_ne h₁, if_neg (by omega)]

/-- **Removal.**  Closing the gap at offset `j` of a window of `n + 1` entries removes that
entry and keeps the order of the others. -/
theorem window_closeGap (c : Cells α) (h : head < depth) (hn : n < depth) {fuel j : ℕ}
    (hj : j ≤ n) (hf : n - j ≤ fuel) :
    window (closeGap depth (slot depth head n) fuel (slot depth head j) c) depth head n =
      (window c depth head (n + 1)).eraseIdx j := by
  refine List.ext_getElem? fun i => ?_
  by_cases hi : i < n
  · rw [getElem?_window _ _ _ hi, closeGap_slot h hn fuel j c hj hf i (by omega),
      List.getElem?_eraseIdx]
    -- before the gap nothing has moved, and from it on everything is one cell down
    by_cases hij : i < j
    · rw [if_pos hij, if_neg (by omega), getElem?_window _ _ _ (by omega)]
    · rw [if_neg hij, if_pos (by omega), getElem?_window _ _ _ (by omega)]
  · rw [List.getElem?_eq_none (by simpa using hi), List.getElem?_eq_none]
    rw [List.length_eraseIdx_of_lt (by simp; omega)]
    simpa using hi

/-- The moves touch only cells of the window. -/
theorem closeGap_of_not_within (h : head < depth) (hn : n < depth) {k : ℕ}
    (hk : ¬ Within depth head (n + 1) k) : ∀ (fuel j : ℕ) (c : Cells α), j ≤ n →
      closeGap depth (slot depth head n) fuel (slot depth head j) c k = c k
  | 0, _, _, _ => rfl
  | fuel + 1, j, c, hj => by
      rw [closeGap]
      split
      · rfl
      · rename_i hne
        have hjn : j ≠ n := fun e => hne (by rw [e])
        rw [slot_succ, closeGap_of_not_within h hn hk fuel (j + 1) _ (by omega),
          Function.update_of_ne fun e => hk ⟨j, by omega, e⟩]

/-- Move the entries after the offset `cursor` to the offset before theirs, so many of them. -/
def shiftDown (depth head : ℕ) : ℕ → ℕ → Cells α → Cells α
  | 0, _, c => c
  | moves + 1, cursor, c =>
      shiftDown depth head moves (cursor + 1)
        (Function.update c (slot depth head cursor) (c (slot depth head (cursor + 1))))

/-- Counting the moves is running to the tail. -/
theorem shiftDown_eq_closeGap (h : head < depth) (hn : n < depth) :
    ∀ (moves j : ℕ) (c : Cells α), j + moves = n →
      shiftDown depth head moves j c =
        closeGap depth (slot depth head n) moves (slot depth head j) c
  | 0, _, _, _ => rfl
  | moves + 1, j, c, hj => by
      have hne : slot depth head j ≠ slot depth head n := fun e => by
        have := slot_inj h (by omega) hn e
        omega
      rw [shiftDown, closeGap, if_neg hne, slot_succ,
        shiftDown_eq_closeGap h hn moves (j + 1) _ (by omega)]

/-- **Removal**, by offsets. -/
theorem window_shiftDown (c : Cells α) (h : head < depth) (hn : n < depth) {j : ℕ} (hj : j ≤ n) :
    window (shiftDown depth head (n - j) j c) depth head n =
      (window c depth head (n + 1)).eraseIdx j := by
  rw [shiftDown_eq_closeGap h hn (n - j) j c (by omega), window_closeGap c h hn hj (Nat.le_refl _)]

/-- What holds of every cell holds of every cell after the moves. -/
theorem shiftDown_all {P : α → Prop} :
    ∀ (moves cursor : ℕ) (c : Cells α), (∀ i, P (c i)) →
      ∀ i, P (shiftDown depth head moves cursor c i)
  | 0, _, _, hc, i => hc i
  | moves + 1, cursor, c, hc, i =>
      shiftDown_all moves (cursor + 1) _
        (fun k => by
          by_cases hk : k = slot depth head cursor
          · subst hk; rw [Function.update_self]; exact hc _
          · rw [Function.update_of_ne hk]; exact hc k) i

end HibanaPico.Support.Ring
