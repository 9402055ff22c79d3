import Mathlib.Algebra.Order.Group.Multiset
import Mathlib.Data.List.Basic
import HibanaPico.Support.Runs
import Mathlib.Tactic.Abel

/-!
# Support — Ledger

What a machine's steps take in and give out, collected along a run.

* `collect_eq_nil_iff`: nothing is collected along a run when nothing is at any of its steps.
* `exec_balance`: a balance that every step keeps holds from end to end.
* `coe_add_drop`: of two logs, one ahead of the other, what each has that the other has not.
-/

namespace HibanaPico.Support

namespace Machine

variable {σ α β : Type*} {M : Machine σ α}

theorem collect_eq_nil_iff {f : σ → α → List β} {s t : σ} {as : List α}
    (h : M.exec s as = some t) :
    M.collect f s as = [] ↔ M.Along (fun s a => f s a = []) s as := by
  induction as generalizing s with
  | nil => exact ⟨fun _ => trivial, fun _ => rfl⟩
  | cons a as ih =>
      obtain ⟨u, hu, h⟩ := exec_cons.mp h
      rw [collect_cons hu, List.append_eq_nil_iff, ih h]
      refine and_congr_right fun _ => ⟨fun along v hv => ?_, fun along => along u hu⟩
      rw [hu] at hv
      cases hv
      exact along

theorem forall_mem_collect {I : σ → Prop} {P : σ → α → Prop} {f : σ → α → List β} {Q : β → Prop}
    (keeps : ∀ s a t, I s → P s a → M.next s a = some t → I t)
    (all : ∀ s a, I s → ∀ x ∈ f s a, Q x) {s t : σ} {as : List α} (hI : I s)
    (hP : M.Along P s as) (h : M.exec s as = some t) : ∀ x ∈ M.collect f s as, Q x := by
  induction as generalizing s with
  | nil => exact fun _ mem => by cases mem
  | cons a as ih =>
      obtain ⟨u, hu, h⟩ := exec_cons.mp h
      rw [collect_cons hu]
      intro x mem
      exact (List.mem_append.mp mem).elim (all s a hI x)
        (ih (keeps s a u hI hP.1 hu) (hP.2 u hu) h x)

theorem coe_collect_append {f g : σ → α → List β} (s : σ) (as : List α) :
    (M.collect (fun s a => f s a ++ g s a) s as : Multiset β) =
      ↑(M.collect f s as) + ↑(M.collect g s as) := by
  induction as generalizing s with
  | nil => rfl
  | cons a as ih =>
      simp only [collect]
      cases M.next s a with
      | none =>
          simp only [Option.map_none, Option.getD_none, List.append_nil, ← Multiset.coe_add]
      | some u =>
          simp only [Option.map_some, Option.getD_some, ← Multiset.coe_add, ih]
          abel

theorem collect_map {γ : Type*} {f : σ → α → List β} (g : β → γ) (s : σ) (as : List α) :
    M.collect (fun s a => (f s a).map g) s as = (M.collect f s as).map g := by
  induction as generalizing s with
  | nil => rfl
  | cons a as ih =>
      simp only [collect, List.map_append]
      cases M.next s a with
      | none => rfl
      | some u => simp only [Option.map_some, Option.getD_some, ih]

/-- **A balance.**  When at every step what is held before, what comes in and the credit after make
up what goes out, what is held after and the credit before, they do for the whole run. -/
theorem exec_balance {I : σ → Prop} {P : σ → α → Prop} {held credit : σ → Multiset β}
    {ins outs : σ → α → List β}
    (keeps : ∀ s a t, I s → P s a → M.next s a = some t → I t)
    (step : ∀ s a t, I s → P s a → M.next s a = some t →
      held s + ↑(ins s a) + credit t = ↑(outs s a) + held t + credit s)
    {s t : σ} {as : List α} (hI : I s) (hP : M.Along P s as) (h : M.exec s as = some t) :
    held s + ↑(M.collect ins s as) + credit t = ↑(M.collect outs s as) + held t + credit s := by
  induction as generalizing s with
  | nil =>
      cases h
      simp only [collect, Multiset.coe_nil, zero_add, add_zero]
  | cons a as ih =>
      obtain ⟨u, hu, h⟩ := exec_cons.mp h
      have first := step s a u hI hP.1 hu
      have rest := ih (keeps s a u hI hP.1 hu) (hP.2 u hu) h
      rw [collect_cons hu, collect_cons hu, ← Multiset.coe_add, ← Multiset.coe_add]
      refine add_right_cancel (b := held u + credit u) ?_
      calc held s + (↑(ins s a) + ↑(M.collect ins u as)) + credit t + (held u + credit u)
          _ = (held s + ↑(ins s a) + credit u) + (held u + ↑(M.collect ins u as) + credit t) := by
            abel
          _ = (↑(outs s a) + held u + credit s) + (↑(M.collect outs u as) + held t + credit u) := by
            rw [first, rest]
          _ = ↑(outs s a) + ↑(M.collect outs u as) + held t + credit s + (held u + credit u) := by
            abel

end Machine

/-- Of two lists, one of which begins with the other. -/
theorem coe_add_drop {α : Type*} {xs ys : List α} (h : xs <+: ys ∨ ys <+: xs) :
    (xs : Multiset α) + ↑(ys.drop xs.length) = ys + ↑(xs.drop ys.length) := by
  have longer : ∀ {xs ys : List α}, xs <+: ys →
      (xs : Multiset α) + ↑(ys.drop xs.length) = ys + ↑(xs.drop ys.length) := by
    rintro xs _ ⟨rest, rfl⟩
    rw [List.drop_left, List.drop_eq_nil_of_le (by simp), Multiset.coe_nil, add_zero,
      Multiset.coe_add]
  exact h.elim longer fun h => (longer h).symm

end HibanaPico.Support
