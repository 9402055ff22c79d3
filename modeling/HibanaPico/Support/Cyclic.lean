import Mathlib.Data.List.Rotate

/-!
# Support — Cyclic scans

The places `0, …, n - 1` on a circle, some of them marked.  A scan looks for the first marked place
from a start on; the next scan starts behind the place that was found.

* `around`: the places as they come from a start.
* `marked_next`: a scan that finds a place puts it last for the next one.
* `picks_eq_take`: scans in turn find the marked places in order, each once before any comes again.
-/

namespace HibanaPico.Support.Cyclic

variable {n : ℕ} {p : ℕ → Bool} {start i : ℕ}

/-- The places, as they come from `start` on. -/
def around (n start : ℕ) : List ℕ := (List.range n).map fun offset => (start + offset) % n

/-- The marked places, as they come from `start` on. -/
def marked (p : ℕ → Bool) (n start : ℕ) : List ℕ := (around n start).filter p

/-- What so many scans find in turn, up to one that finds nothing. -/
def picks (p : ℕ → Bool) (n : ℕ) : ℕ → ℕ → List ℕ
  | 0, _ => []
  | k + 1, start =>
      match (around n start).find? p with
      | some i => i :: picks p n k ((i + 1) % n)
      | none => []

@[simp] theorem length_around (n start : ℕ) : (around n start).length = n := by simp [around]

theorem around_eq_rotate (n start : ℕ) : around n start = (List.range n).rotate start := by
  refine List.ext_getElem (by simp) fun k hk hk' => ?_
  simp [around, List.getElem_rotate, Nat.add_comm]

theorem around_perm (n start : ℕ) : (around n start).Perm (List.range n) := by
  rw [around_eq_rotate]
  exact List.rotate_perm _ _

theorem marked_perm (p : ℕ → Bool) (n start : ℕ) :
    (marked p n start).Perm ((List.range n).filter p) := (around_perm n start).filter p

theorem nodup_marked (p : ℕ → Bool) (n start : ℕ) : (marked p n start).Nodup :=
  (marked_perm p n start).nodup_iff.mpr (List.nodup_range.filter p)

theorem mem_marked : i ∈ marked p n start ↔ i < n ∧ p i = true := by
  rw [(marked_perm p n start).mem_iff, List.mem_filter, List.mem_range]

/-- **One scan.**  The place it finds comes first now, and last from the place behind it. -/
theorem marked_next (h : (around n start).find? p = some i) :
    ∃ others, marked p n start = i :: others ∧ marked p n ((i + 1) % n) = others ++ [i] := by
  obtain ⟨hi, ahead, behind, hsplit, hahead⟩ := List.find?_eq_some_iff_append.mp h
  have hnone : ahead.filter p = [] :=
    List.filter_eq_nil_iff.mpr fun a ha => by simpa using hahead a ha
  have hlen : ahead.length < (around n start).length := by simp [hsplit]
  have hplace : i = (start + ahead.length) % n := by
    have hget : (around n start)[ahead.length]? = some i := by simp [hsplit]
    rw [length_around] at hlen
    rw [around, List.getElem?_map, List.getElem?_range hlen] at hget
    exact (Option.some.inj hget).symm
  have hnext : around n ((i + 1) % n) = behind ++ ahead ++ [i] := by
    calc around n ((i + 1) % n) = (List.range n).rotate (start + (ahead.length + 1)) := by
          rw [around_eq_rotate, ← List.rotate_mod, List.length_range, Nat.mod_mod, hplace,
            Nat.mod_add_mod, Nat.add_assoc, ← List.rotate_mod _ (start + _), List.length_range]
      _ = (around n start).rotate (ahead.length + 1) := by
          rw [around_eq_rotate, List.rotate_rotate]
      _ = behind ++ ahead ++ [i] := by
          have := List.rotate_append_length_eq (ahead ++ [i]) behind
          rwa [List.length_append, List.length_singleton, List.append_assoc, List.singleton_append,
            ← hsplit, ← List.append_assoc] at this
  refine ⟨behind.filter p, ?_, ?_⟩
  · rw [marked, hsplit, List.filter_append, hnone, List.nil_append, List.filter_cons_of_pos hi]
  · rw [marked, hnext, List.filter_append, List.filter_append, hnone, List.append_nil,
      List.filter_cons_of_pos hi, List.filter_nil]

/-- **Scans in turn** find the marked places in the order of the circle. -/
theorem picks_eq_take (p : ℕ → Bool) (n : ℕ) {k start : ℕ}
    (hk : k ≤ (marked p n start).length) : picks p n k start = (marked p n start).take k := by
  induction k generalizing start with
  | zero => rfl
  | succ k ih =>
      cases hfind : (around n start).find? p with
      | none =>
          have hnil : marked p n start = [] :=
            List.filter_eq_nil_iff.mpr (List.find?_eq_none.mp hfind)
          rw [hnil] at hk
          cases hk
      | some i =>
          obtain ⟨others, hnow, hnext⟩ := marked_next hfind
          rw [hnow, List.length_cons, Nat.add_le_add_iff_right] at hk
          have hpicks := @ih ((i + 1) % n) (by rw [hnext, List.length_append]; omega)
          rw [picks, hfind]
          dsimp only
          rw [hpicks, hnext, hnow, List.take_succ_cons, List.take_append_of_le_length hk]

end HibanaPico.Support.Cyclic
