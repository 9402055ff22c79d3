import Mathlib.Data.List.Basic
import Mathlib.Logic.Function.Basic

/-!
# Support — Runs

A machine is a partial step function: the state an action leads to, where the action can be
taken.  A run is a list of actions every one of which can be taken in turn.

* `exec`: the state a list of actions leads to.
* `Along`: a condition on the state and the action of every step of a run.
* `exec_invariant`: what every step that meets a condition preserves holds after every run that
  meets it.
* `exec_rank`: what every step reaches or comes closer to is reached in so many steps.
* `along_of_invariant`: what an invariant gives at each step holds along every such run.
* `collect`: what each step of a run contributes to a list.
* `reads_collect`: a run whose every step contributes what an observer may read next is read by it.
-/

namespace HibanaPico.Support

/-- A machine: the state an action leads to, where the action can be taken. -/
structure Machine (σ α : Type*) where
  next : σ → α → Option σ

namespace Machine

variable {σ α : Type*} (M : Machine σ α)

/-- The state after the actions, taken in turn. -/
def exec : σ → List α → Option σ
  | s, [] => some s
  | s, a :: as => (M.next s a).bind fun t => exec t as

/-- `P` holds of the state and the action of every step of the run. -/
def Along (P : σ → α → Prop) : σ → List α → Prop
  | _, [] => True
  | s, a :: as => P s a ∧ ∀ t, M.next s a = some t → Along P t as

variable {M}

@[simp] theorem exec_nil (s : σ) : M.exec s [] = some s := rfl

theorem exec_cons {s t : σ} {a : α} {as : List α} :
    M.exec s (a :: as) = some t ↔ ∃ u, M.next s a = some u ∧ M.exec u as = some t :=
  Option.bind_eq_some_iff

theorem exec_append {s t : σ} {as bs : List α} :
    M.exec s (as ++ bs) = some t ↔ ∃ u, M.exec s as = some u ∧ M.exec u bs = some t := by
  induction as generalizing s with
  | nil => simp
  | cons a as ih =>
      simp only [List.cons_append, exec_cons, ih]
      exact ⟨fun ⟨u, h, v, hv, ht⟩ => ⟨v, ⟨u, h, hv⟩, ht⟩,
        fun ⟨v, ⟨u, h, hv⟩, ht⟩ => ⟨u, h, v, hv, ht⟩⟩

/-- A machine whose every action can be taken takes every list of them. -/
theorem exec_total (h : ∀ s a, ∃ t, M.next s a = some t) (s : σ) (as : List α) :
    ∃ t, M.exec s as = some t := by
  induction as generalizing s with
  | nil => exact ⟨s, rfl⟩
  | cons a as ih =>
      obtain ⟨u, hu⟩ := h s a
      obtain ⟨t, ht⟩ := ih u
      exact ⟨t, exec_cons.mpr ⟨u, hu, ht⟩⟩

instance Along.decidable {P : σ → α → Prop} [∀ s a, Decidable (P s a)] :
    ∀ (s : σ) (as : List α), Decidable (M.Along P s as)
  | _, [] => isTrue trivial
  | s, a :: as =>
      match h : M.next s a with
      | none => decidable_of_iff (P s a)
          ⟨fun hp => ⟨hp, fun t ht => by rw [h] at ht; cases ht⟩, And.left⟩
      | some u =>
          have : Decidable (M.Along P u as) := Along.decidable u as
          decidable_of_iff (P s a ∧ M.Along P u as)
            ⟨fun ⟨hp, hu⟩ => ⟨hp, fun t ht => by rw [h] at ht; cases ht; exact hu⟩,
              fun ⟨hp, hr⟩ => ⟨hp, hr u h⟩⟩

theorem Along.mono {P Q : σ → α → Prop} (h : ∀ s a, P s a → Q s a) {s : σ} {as : List α}
    (hP : M.Along P s as) : M.Along Q s as := by
  induction as generalizing s with
  | nil => trivial
  | cons a as ih => exact ⟨h s a hP.1, fun t ht => ih (hP.2 t ht)⟩

theorem Along.and {P Q : σ → α → Prop} {s : σ} {as : List α} (hP : M.Along P s as)
    (hQ : M.Along Q s as) : M.Along (fun s a => P s a ∧ Q s a) s as := by
  induction as generalizing s with
  | nil => trivial
  | cons a as ih => exact ⟨⟨hP.1, hQ.1⟩, fun t ht => ih (hP.2 t ht) (hQ.2 t ht)⟩

/-- **The run rule.**  What every step meeting `P` preserves holds after every run that meets
`P`. -/
theorem exec_invariant {I : σ → Prop} {P : σ → α → Prop}
    (step : ∀ s a t, I s → P s a → M.next s a = some t → I t) {s t : σ} {as : List α}
    (hI : I s) (hP : M.Along P s as) (h : M.exec s as = some t) : I t := by
  induction as generalizing s with
  | nil => cases h; exact hI
  | cons a as ih =>
      obtain ⟨u, hu, ht⟩ := exec_cons.mp h
      exact ih (step s a u hI hP.1 hu) (hP.2 u hu) ht

/-- What every step preserves holds after every run. -/
theorem exec_keeps {I : σ → Prop} (step : ∀ s a t, I s → M.next s a = some t → I t) {s t : σ}
    {as : List α} (hI : I s) (h : M.exec s as = some t) : I t := by
  induction as generalizing s with
  | nil => cases h; exact hI
  | cons a as ih =>
      obtain ⟨u, hu, ht⟩ := exec_cons.mp h
      exact ih (step s a u hI hu) ht

/-- **The step rule, both ways**, along runs that meet `R`.  When every such step keeps `Q` exactly
if it meets `P`, a run keeps `Q` exactly if it meets `P` all along. -/
theorem exec_iff_along_of_along {I Q : σ → Prop} {P R : σ → α → Prop}
    (keeps : ∀ s a t, I s → R s a → M.next s a = some t → I t)
    (step : ∀ s a t, I s → R s a → M.next s a = some t → (Q t ↔ Q s ∧ P s a)) {s t : σ}
    {as : List α} (hI : I s) (hR : M.Along R s as) (h : M.exec s as = some t) :
    Q t ↔ Q s ∧ M.Along P s as := by
  induction as generalizing s with
  | nil => cases h; exact ⟨fun hQ => ⟨hQ, trivial⟩, And.left⟩
  | cons a as ih =>
      obtain ⟨u, hu, ht⟩ := exec_cons.mp h
      have hstep := step s a u hI hR.1 hu
      rw [ih (keeps s a u hI hR.1 hu) (hR.2 u hu) ht, hstep, and_assoc]
      refine and_congr_right fun _ => and_congr_right fun _ => ?_
      exact ⟨fun H v hv => Option.some.inj (hu.symm.trans hv) ▸ H, fun H => H u hu⟩

theorem along_trivial (s : σ) (as : List α) : M.Along (fun _ _ => True) s as := by
  induction as generalizing s with
  | nil => trivial
  | cons a as ih => exact ⟨trivial, fun t _ => ih t⟩

theorem along_mem (s : σ) (as : List α) : M.Along (fun _ a => a ∈ as) s as := by
  have suffix (bs : List α) (h : bs ⊆ as) (s : σ) : M.Along (fun _ a => a ∈ as) s bs := by
    induction bs generalizing s with
    | nil => trivial
    | cons b bs ih =>
        obtain ⟨hb, hbs⟩ := List.cons_subset.mp h
        exact ⟨hb, fun t _ => ih hbs t⟩
  exact suffix as (List.Subset.refl as) s

/-- The step rule, both ways, under an invariant. -/
theorem exec_iff_along_of_invariant {I Q : σ → Prop} {P : σ → α → Prop}
    (keeps : ∀ s a t, I s → M.next s a = some t → I t)
    (step : ∀ s a t, I s → M.next s a = some t → (Q t ↔ Q s ∧ P s a)) {s t : σ} {as : List α}
    (hI : I s) (h : M.exec s as = some t) : Q t ↔ Q s ∧ M.Along P s as :=
  exec_iff_along_of_along (fun s a t hI _ => keeps s a t hI) (fun s a t hI _ => step s a t hI) hI
    (along_trivial s as) h

/-- The step rule, both ways, with no invariant. -/
theorem exec_iff_along {Q : σ → Prop} {P : σ → α → Prop}
    (step : ∀ s a t, M.next s a = some t → (Q t ↔ Q s ∧ P s a)) {s t : σ} {as : List α}
    (h : M.exec s as = some t) : Q t ↔ Q s ∧ M.Along P s as :=
  exec_iff_along_of_invariant (fun _ _ _ _ _ => trivial) (fun s a t _ => step s a t) trivial h

/-- **The step rule, along a run.**  What the invariant gives at a step meeting `P` holds of
every step of a run that meets `P`. -/
theorem along_of_invariant {I : σ → Prop} {P Q : σ → α → Prop}
    (step : ∀ s a t, I s → P s a → M.next s a = some t → I t)
    (give : ∀ s a, I s → P s a → Q s a) {s : σ} {as : List α} (hI : I s)
    (hP : M.Along P s as) : M.Along Q s as := by
  induction as generalizing s with
  | nil => trivial
  | cons a as ih =>
      exact ⟨give s a hI hP.1, fun t ht => ih (step s a t hI hP.1 ht) (hP.2 t ht)⟩

/-- Two conditions that agree under an invariant hold along the same runs. -/
theorem along_iff_of_invariant {I : σ → Prop} {P Q : σ → α → Prop}
    (agree : ∀ s a, I s → (P s a ↔ Q s a))
    (step : ∀ s a t, I s → Q s a → M.next s a = some t → I t) {s : σ} {as : List α} (hI : I s) :
    M.Along P s as ↔ M.Along Q s as := by
  induction as generalizing s with
  | nil => exact Iff.rfl
  | cons a as ih =>
      have hfirst := agree s a hI
      constructor
      · exact fun h => ⟨hfirst.mp h.1, fun t ht =>
          (ih (step s a t hI (hfirst.mp h.1) ht)).mp (h.2 t ht)⟩
      · exact fun h => ⟨hfirst.mpr h.1, fun t ht => (ih (step s a t hI h.1 ht)).mpr (h.2 t ht)⟩

/-- **The rank rule.**  When every step reaches `Q` or comes closer to it, a run reaches `Q` or has
fewer steps than it was away. -/
theorem exec_rank {I Q : σ → Prop} {rank : σ → ℕ}
    (step : ∀ s a t, I s → M.next s a = some t → Q t ∨ I t ∧ rank t < rank s)
    (stays : ∀ s a t, Q s → M.next s a = some t → Q t) {s t : σ} {as : List α} (hI : I s)
    (h : M.exec s as = some t) : Q t ∨ I t ∧ as.length + rank t ≤ rank s := by
  induction as generalizing s with
  | nil => cases h; exact .inr ⟨hI, by simp⟩
  | cons a as ih =>
      obtain ⟨u, hu, ht⟩ := exec_cons.mp h
      rcases step s a u hI hu with hQ | ⟨hI', hlt⟩
      · exact .inl (exec_keeps stays hQ ht)
      · rcases ih hI' ht with hQ | ⟨hI'', hle⟩
        · exact .inl hQ
        · exact .inr ⟨hI'', by rw [List.length_cons]; omega⟩

/-- What `f` makes of each step of the run, in order. -/
def collect {β : Type*} (M : Machine σ α) (f : σ → α → List β) : σ → List α → List β
  | _, [] => []
  | s, a :: as => f s a ++ ((M.next s a).map fun t => collect M f t as).getD []

theorem collect_cons {β : Type*} {f : σ → α → List β} {s t : σ} {a : α} {as : List α}
    (h : M.next s a = some t) : M.collect f s (a :: as) = f s a ++ M.collect f t as := by
  rw [collect, h]
  rfl

/-- An observer reads events, one after the other, and changes its state as `step` allows. -/
inductive Reads {η ε : Type*} (step : η → ε → η → Prop) : η → List ε → η → Prop
  | nil (h : η) : Reads step h [] h
  | cons {h h' h'' : η} {e : ε} {es : List ε} (first : step h e h') (rest : Reads step h' es h'') :
      Reads step h (e :: es) h''

theorem Reads.append {η ε : Type*} {step : η → ε → η → Prop} {h h' h'' : η} {es es' : List ε}
    (first : Reads step h es h') (rest : Reads step h' es' h'') : Reads step h (es ++ es') h'' := by
  induction first with
  | nil _ => exact rest
  | cons first _ ih => exact .cons first (ih rest)

/-- **The observer rule.**  When an observer whose state shows in the machine's reads what each step
contributes, it reads what a run contributes. -/
theorem reads_collect {η ε : Type*} {I : σ → Prop} (abs : σ → η) {f : σ → α → List ε}
    {step : η → ε → η → Prop} (keeps : ∀ s a t, I s → M.next s a = some t → I t)
    (reads : ∀ s a t, I s → M.next s a = some t → Reads step (abs s) (f s a) (abs t)) {s t : σ}
    {as : List α} (hI : I s) (h : M.exec s as = some t) :
    Reads step (abs s) (M.collect f s as) (abs t) := by
  induction as generalizing s with
  | nil => cases h; exact .nil _
  | cons a as ih =>
      obtain ⟨u, hu, ht⟩ := exec_cons.mp h
      rw [collect_cons hu]
      exact (reads s a u hI hu).append (ih (keeps s a u hI hu) ht)

/-- A condition that fails at a state a run reaches fails along the run's next step. -/
theorem not_along_of_exec {P : σ → α → Prop} {s u : σ} {as : List α} {a : α}
    (h : M.exec s as = some u) (hP : ¬ P u a) : ¬ M.Along P s (as ++ [a]) := by
  induction as generalizing s with
  | nil => cases h; exact fun H => hP H.1
  | cons b as ih =>
      obtain ⟨t, ht, hu⟩ := exec_cons.mp h
      exact fun H => ih hu (H.2 t ht)

end Machine

end HibanaPico.Support
