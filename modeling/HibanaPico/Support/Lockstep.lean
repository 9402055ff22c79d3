import HibanaPico.Support.Runs
import Mathlib.Data.List.Infix
import Mathlib.Logic.Function.Iterate

/-!
# Support — Lockstep

Machines that go through the states of one function, each at its own pace.

* `Follows`: each step of a machine is a step of the function, or none, as an abstraction of the
  machine's state sees it.
* `comparable`: of two machines that follow one function from one state, one is ahead of the other.
* `behind_end`: none is ahead of one that has come to rest.
-/

namespace HibanaPico.Support

variable {σ τ α δ β ε : Type*} {M : Machine σ α} {N : Machine τ δ} {f : β → β} {abs : σ → β}
  {abs' : τ → β}

/-- Each step of `M` is a step of `f`, or none. -/
def Machine.Follows (M : Machine σ α) (abs : σ → β) (f : β → β) : Prop :=
  ∀ s a t, M.next s a = some t → abs t = abs s ∨ abs t = f (abs s)

/-- A run has taken some number of steps of `f`. -/
theorem Machine.Follows.exec (h : M.Follows abs f) {s t : σ} {as : List α}
    (hrun : M.exec s as = some t) : ∃ n, abs t = f^[n] (abs s) := by
  induction as generalizing s with
  | nil => cases hrun; exact ⟨0, rfl⟩
  | cons a as ih =>
      obtain ⟨u, hu, ht⟩ := Machine.exec_cons.mp hrun
      obtain ⟨n, hn⟩ := ih ht
      rcases h s a u hu with hsame | hstep
      · exact ⟨n, by rw [hn, hsame]⟩
      · exact ⟨n + 1, by rw [hn, hstep, Function.iterate_succ_apply]⟩

/-- What `f` only adds to, it never takes back. -/
theorem iterate_grows {obs : β → List ε} (grows : ∀ b, obs b <+: obs (f b)) (b : β) (m k : ℕ) :
    obs (f^[m] b) <+: obs (f^[m + k] b) := by
  induction k with
  | zero => exact List.prefix_refl _
  | succ k ih =>
      rw [← Nat.add_assoc, Function.iterate_succ_apply']
      exact ih.trans (grows _)

/-- A state that `f` keeps is where every later state is. -/
theorem iterate_eq_of_fixed {b : β} {m n : ℕ} (h : m ≤ n) (hm : f (f^[m] b) = f^[m] b) :
    f^[n] b = f^[m] b := by
  obtain ⟨k, rfl⟩ := Nat.exists_eq_add_of_le h
  rw [Nat.add_comm, Function.iterate_add_apply]
  exact Function.iterate_fixed hm k

section Two
variable (hM : M.Follows abs f) (hN : N.Follows abs' f) {s₀ s : σ} {t₀ t : τ} {as : List α}
  {ds : List δ} (hstart : abs s₀ = abs' t₀) (hs : M.exec s₀ as = some s)
  (ht : N.exec t₀ ds = some t)
include hM hN hstart hs ht

/-- **One is ahead.**  What the two machines show is a part, the one of the other. -/
theorem comparable {obs : β → List ε} (grows : ∀ b, obs b <+: obs (f b)) :
    obs (abs s) <+: obs (abs' t) ∨ obs (abs' t) <+: obs (abs s) := by
  obtain ⟨m, hm⟩ := hM.exec hs
  obtain ⟨n, hn⟩ := hN.exec ht
  rw [hm, hn, hstart]
  rcases Nat.le_total m n with h | h
  · obtain ⟨k, rfl⟩ := Nat.exists_eq_add_of_le h
    exact .inl (iterate_grows grows _ m k)
  · obtain ⟨k, rfl⟩ := Nat.exists_eq_add_of_le h
    exact .inr (iterate_grows grows _ n k)

/-- **None is past the end.**  What a machine shows is part of what one at rest shows. -/
theorem behind_end {obs : β → List ε} (grows : ∀ b, obs b <+: obs (f b))
    (hrest : f (abs' t) = abs' t) : obs (abs s) <+: obs (abs' t) := by
  obtain ⟨m, hm⟩ := hM.exec hs
  obtain ⟨n, hn⟩ := hN.exec ht
  rw [hn] at hrest
  rw [hm, hn, hstart]
  rcases Nat.le_total m n with h | h
  · obtain ⟨k, rfl⟩ := Nat.exists_eq_add_of_le h
    exact iterate_grows grows _ m k
  · rw [iterate_eq_of_fixed h hrest]

end Two

end HibanaPico.Support
