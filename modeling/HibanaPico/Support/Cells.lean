import Mathlib.Data.List.Basic
import Mathlib.Logic.Function.Basic

/-!
# Support — Cells

A bank of cells is a total map from indices.  Fixed byte arrays that keep stale contents are
banks: a write changes one cell, `store` writes a list from an offset on, `slice` reads a range.
-/

namespace HibanaPico.Support

/-- A bank of cells. -/
abbrev Cells (α : Type*) := ℕ → α

namespace Cells

variable {α : Type*}

/-- The `n` cells from `off` on. -/
def slice (c : Cells α) (off n : ℕ) : List α := (List.range' off n).map c

/-- `xs` written from `off` on. -/
def store (c : Cells α) (off : ℕ) (xs : List α) : Cells α := fun i =>
  if off ≤ i then xs[i - off]?.getD (c i) else c i

@[simp] theorem length_slice (c : Cells α) (off n : ℕ) : (c.slice off n).length = n := by
  simp [slice]

@[simp] theorem slice_zero (c : Cells α) (off : ℕ) : c.slice off 0 = [] := rfl

theorem slice_succ (c : Cells α) (off n : ℕ) : c.slice off (n + 1) = c off :: c.slice (off + 1) n :=
  rfl

theorem slice_one (c : Cells α) (off : ℕ) : c.slice off 1 = [c off] := rfl

theorem slice_add (c : Cells α) (off m n : ℕ) :
    c.slice off (m + n) = c.slice off m ++ c.slice (off + m) n := by
  induction m generalizing off with
  | zero => simp
  | succ m ih =>
      rw [Nat.add_right_comm, slice_succ, ih, slice_succ, List.cons_append,
        Nat.add_assoc, Nat.add_comm 1 m]

theorem slice_snoc (c : Cells α) (off n : ℕ) :
    c.slice off (n + 1) = c.slice off n ++ [c (off + n)] := by
  rw [slice_add, slice_one]

theorem getElem?_slice (c : Cells α) (off : ℕ) {n i : ℕ} (h : i < n) :
    (c.slice off n)[i]? = some (c (off + i)) := by
  simp [slice, h]

/-- Two banks agree on a range when they agree at each of its cells. -/
theorem slice_congr {c d : Cells α} {off n : ℕ} (h : ∀ i, off ≤ i → i < off + n → c i = d i) :
    c.slice off n = d.slice off n :=
  List.map_congr_left fun i hi => by
    have := List.mem_range'_1.mp hi
    exact h i (by omega) (by omega)

/-- Banks with the same entry put in the same cell agree where they did, and at that cell. -/
theorem update_congr {c d : Cells α} {i k : ℕ} (x : α) (h : k ≠ i → c k = d k) :
    Function.update c i x k = Function.update d i x k := by
  by_cases hne : k = i
  · rw [hne, Function.update_self, Function.update_self]
  · rw [Function.update_of_ne hne, Function.update_of_ne hne, h hne]

theorem slice_update_of_outside {c : Cells α} {off n i : ℕ} (x : α) (h : i < off ∨ off + n ≤ i) :
    Cells.slice (Function.update c i x) off n = c.slice off n :=
  slice_congr fun j _ _ => Function.update_of_ne (by omega) _ _

@[simp] theorem store_nil (c : Cells α) (off : ℕ) : c.store off [] = c := by
  funext i
  simp [store]

/-- Writing a list is writing its first entry, then the others one cell further. -/
theorem store_cons (c : Cells α) (off : ℕ) (x : α) (xs : List α) :
    c.store off (x :: xs) = Cells.store (Function.update c off x) (off + 1) xs := by
  funext i
  unfold store
  rcases Nat.lt_trichotomy i off with h | h | h
  · rw [if_neg (by omega), if_neg (by omega), Function.update_of_ne (by omega)]
  · rw [if_pos (by omega), if_neg (by omega), h, Function.update_self]
    simp
  · obtain ⟨k, rfl⟩ : ∃ k, i = off + 1 + k := ⟨i - off - 1, by omega⟩
    rw [if_pos (by omega), if_pos (by omega), Function.update_of_ne (by omega),
      show off + 1 + k - off = k + 1 by omega, show off + 1 + k - (off + 1) = k by omega,
      List.getElem?_cons_succ]

theorem store_of_outside {c : Cells α} {off i : ℕ} {xs : List α}
    (h : i < off ∨ off + xs.length ≤ i) : c.store off xs i = c i := by
  unfold store
  split
  · rw [List.getElem?_eq_none (by omega), Option.getD_none]
  · rfl

theorem slice_store_of_outside {c : Cells α} {off n k : ℕ} {xs : List α}
    (h : k + xs.length ≤ off ∨ off + n ≤ k) : (c.store k xs).slice off n = c.slice off n :=
  slice_congr fun _ _ _ => store_of_outside (by omega)

/-- What was stored is read back. -/
theorem slice_store (c : Cells α) (off : ℕ) (xs : List α) :
    (c.store off xs).slice off xs.length = xs := by
  refine List.ext_getElem (length_slice _ _ _) fun i h₁ h₂ => ?_
  simp [slice, store, h₂]

/-- What was stored at the beginning is read back in parts. -/
theorem slice_store_part (c : Cells α) (xs ys zs : List α) :
    (c.store 0 (xs ++ ys ++ zs)).slice xs.length ys.length = ys := by
  have hall := slice_store c 0 (xs ++ ys ++ zs)
  rw [List.length_append, List.length_append, slice_add, slice_add, Nat.zero_add] at hall
  have hleft := (List.append_inj hall (by simp)).1
  exact (List.append_inj hleft (by simp)).2

theorem store_snoc (c : Cells α) (off : ℕ) (xs : List α) (x : α) :
    Function.update (c.store off xs) (off + xs.length) x = c.store off (xs ++ [x]) := by
  induction xs generalizing c off with
  | nil => rw [store_nil, List.nil_append, store_cons, store_nil]; rfl
  | cons y xs ih =>
      rw [List.cons_append, store_cons, store_cons, ← ih, List.length_cons]
      congr 1
      omega

end Cells

end HibanaPico.Support
