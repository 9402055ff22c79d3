import HibanaPico.Transport.Types
import Mathlib.Data.List.FinRange

/-!
# Appkit — Roles

The roles of a logical image, and the walk over those it requests.

* `RoleSet`: the requested roles, as bits.
* `visitRequestedProjectedRoles`: the requested roles are visited in ascending order, and a visit
  may panic or never return.
* `visitRequested_eq`: the walk is that of the list of requested roles.
-/

namespace HibanaPico.Appkit

/-- `Role<0>` to `Role<15>`. -/
abbrev Role := Fin 16

inductive RoleKind where
  | engine
  | driver
  | boundary
  deriving DecidableEq, Repr

structure RoleSet where
  bits : BitVec 16
  deriving DecidableEq, Repr

namespace RoleSet

/-- `contains`. -/
def contains (s : RoleSet) (role : Role) : Bool := (s.bits &&& (1#16 <<< role.val)) ≠ 0

/-- The roles of the set, in ascending order. -/
def roles (s : RoleSet) : List Role := (List.finRange 16).filter fun role => s.contains role

/-- `count`. -/
def count (s : RoleSet) : ℕ := s.roles.length

@[simp] theorem mem_roles {s : RoleSet} {role : Role} : role ∈ s.roles ↔ s.contains role := by
  simp [roles]

theorem roles_sorted (s : RoleSet) : s.roles.Pairwise (· < ·) :=
  (List.pairwise_lt_finRange 16).filter _

theorem roles_nodup (s : RoleSet) : s.roles.Nodup := s.roles_sorted.imp fun h => ne_of_lt h

theorem contains_eq (s : RoleSet) (role : Role) : s.contains role = s.bits.getLsbD role := by
  have hpow : BitVec.twoPow 16 role ≠ 0#16 := fun h => by
    have := congrArg (BitVec.getLsbD · role) h
    simp at this
  unfold contains
  rw [← BitVec.twoPow_eq, BitVec.and_twoPow]
  cases s.bits.getLsbD role <;> simp [hpow]

theorem roles_ne_nil {s : RoleSet} (h : s.bits ≠ 0) : s.roles ≠ [] := fun hnil => by
  refine h (BitVec.eq_of_getLsbD_eq fun i hi => ?_)
  have hnot : (⟨i, hi⟩ : Role) ∉ s.roles := by rw [hnil]; exact List.not_mem_nil
  rw [mem_roles, contains_eq, Bool.not_eq_true] at hnot
  exact hnot.trans (BitVec.getLsbD_zero).symm

theorem count_le (s : RoleSet) : s.count ≤ 16 := by
  have h := List.length_filter_le (fun role => s.contains role) (List.finRange 16)
  rwa [List.length_finRange] at h

end RoleSet

/-! ### The walk -/

/-- How a visit ends: it returns, panics, or runs the role's engine and never returns. -/
inductive Visit (σ : Type*) where
  | returned (s : σ)
  | panicked
  | never (s : σ) (role : Role)
  deriving DecidableEq

variable {σ : Type*}

/-- What follows a visit that returns. -/
def Visit.andThen (v : Visit σ) (next : σ → Visit σ) : Visit σ :=
  match v with
  | .returned s => next s
  | .panicked => .panicked
  | .never s role => .never s role

/-- `visit_requested_projected_roles`, from one of its sixteen `if`s on. -/
def visitRequestedFrom (requested : RoleSet) (visit : Role → σ → Visit σ) :
    List Role → σ → Visit σ
  | [], s => .returned s
  | role :: roles, s =>
      if requested.contains role then
        (visit role s).andThen (visitRequestedFrom requested visit roles)
      else visitRequestedFrom requested visit roles s

/-- `visit_requested_projected_roles`: an `if` for each role from 0 to 15. -/
def visitRequestedProjectedRoles (requested : RoleSet) (visit : Role → σ → Visit σ) (s : σ) :
    Visit σ :=
  visitRequestedFrom requested visit (List.finRange 16) s

/-- The roles of a list, visited in turn. -/
def visitEach (visit : Role → σ → Visit σ) : List Role → σ → Visit σ
  | [], s => .returned s
  | role :: roles, s => (visit role s).andThen (visitEach visit roles)

theorem visitRequestedFrom_eq (requested : RoleSet) (visit : Role → σ → Visit σ)
    (roles : List Role) (s : σ) : visitRequestedFrom requested visit roles s =
      visitEach visit (roles.filter fun role => requested.contains role) s := by
  induction roles generalizing s with
  | nil => rfl
  | cons role roles ih =>
      have hnext : visitRequestedFrom requested visit roles =
          visitEach visit (roles.filter fun role => requested.contains role) := funext ih
      rw [visitRequestedFrom, List.filter_cons]
      split
      · rw [hnext, visitEach]
      · exact ih s

theorem visitRequested_eq (requested : RoleSet) (visit : Role → σ → Visit σ) (s : σ) :
    visitRequestedProjectedRoles requested visit s = visitEach visit requested.roles s :=
  visitRequestedFrom_eq requested visit _ s

end HibanaPico.Appkit
