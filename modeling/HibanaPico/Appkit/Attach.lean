import HibanaPico.Appkit.Roles

/-!
# Appkit — Attach

`attach_projected_roles`, on the host and on the embedded target.  Every requested role is entered
and its task stored in the scheduler; on the embedded target a WASI engine is run from inside its
visit, which then never returns.

* `attachProjectedRoles`: what is attached when the image starts to run.
* `attach_iff`: on the embedded target all requested roles are attached if and only if each is
  admitted and none is numbered above a WASI engine; on the host, if and only if each is admitted.
* `attach_leaves_out`: an engine of role 0 leaves role 1 out.
-/

namespace HibanaPico.Appkit

inductive Target where
  | host
  | embedded
  deriving DecidableEq, Repr

/-- `APPKIT_CARRIER_ROLES` and `APPKIT_EMBEDDED_ROLE_SLOTS`. -/
def Target.slots : Target → ℕ
  | .host => 16
  | .embedded => 4

inductive Artifact where
  | wasiImage
  | noWasi
  deriving DecidableEq, Repr

/-- `wasi_bytes` is `Some`.  Without the feature `wasm-engine-core` there is only `NoWasi`. -/
def Artifact.hasWasiGuest : Artifact → Bool
  | .wasiImage => true
  | .noWasi => false

/-- `wasi_guest_lease` is `Some`. -/
def Artifact.hasGuestStorage : Artifact → Bool
  | .wasiImage => true
  | .noWasi => false

/-- A logical image with its artifact, and what the rendezvous, the arena and the compiler say of
each of its roles. -/
structure LogicalImage where
  requestedRoles : RoleSet
  /-- `RoleSet::from_bits` and `RoleSet::single` make no empty set. -/
  requested_ne : requestedRoles.bits ≠ 0
  roleKind : Role → RoleKind
  artifact : Artifact
  /-- The carrier registers its rendezvous. -/
  registersRendezvous : Bool
  /-- The role's resolvers are registered. -/
  registersResolvers : Role → Bool
  /-- `enter` answers the role `Ok`. -/
  enters : Role → Bool
  /-- The role's guest arena is not leased already. -/
  leases : Role → Bool
  /-- The role's future has the size and the alignment of a slot of the target. -/
  fits : Target → Role → Bool
  /-- The engine state of the role has those of an embedded slot. -/
  engineFits : Role → Bool

/-- What `AttachProjectedRoles` has attached: the roles entered, and those whose task is stored. -/
structure Attachment where
  entered : List Role
  tasks : List Role
  count : ℕ
  deriving DecidableEq

def Attachment.empty : Attachment := { entered := [], tasks := [], count := 0 }

/-- The role is entered. -/
def Attachment.enter (a : Attachment) (role : Role) : Attachment :=
  { a with entered := a.entered ++ [role] }

/-- The task of a role is stored, and the role is counted. -/
def Attachment.store (a : Attachment) (role : Role) : Attachment :=
  { a with tasks := a.tasks ++ [role], count := a.count + 1 }

variable (t : Target) (image : LogicalImage)

/-- The end of a visit: the role's task is pushed, and the role is counted. -/
def pushTask (role : Role) (a : Attachment) : Visit Attachment :=
  if a.tasks.length < t.slots ∧ image.fits t role then
    if a.count + 1 < 256 then .returned (a.store role) else .panicked
  else .panicked

/-- `run_canonical_wasi_engine_forever`, up to its loop: the engine state takes one slot. -/
def runCanonicalWasiEngineForever (role : Role) (a : Attachment) : Visit Attachment :=
  if a.tasks.length < Target.embedded.slots ∧ image.engineFits role then .never a role
  else .panicked

/-- `AttachProjectedRoles::visit` of an engine role, once it is entered. -/
def visitEngine (role : Role) (a : Attachment) : Visit Attachment :=
  if image.artifact.hasGuestStorage ∧ ¬ image.leases role then .panicked
  else if image.artifact.hasWasiGuest ≠ image.artifact.hasGuestStorage then .panicked
  else if image.artifact.hasWasiGuest then
    match t with
    | .host => pushTask t image role a
    | .embedded => runCanonicalWasiEngineForever image role a
  else pushTask t image role a

/-- `AttachProjectedRoles::visit`. -/
def visitRole (role : Role) (a : Attachment) : Visit Attachment :=
  if image.enters role then
    match image.roleKind role with
    | .engine => visitEngine t image role (a.enter role)
    | .driver => pushTask t image role (a.enter role)
    | .boundary => pushTask t image role (a.enter role)
  else .panicked

/-- `AttachProjectedResolvers::visit`. -/
def visitResolvers (role : Role) (_ : Unit) : Visit Unit :=
  if image.registersResolvers role then .returned () else .panicked

/-- How attaching ends: in a panic, or with the image running what is attached, and the engine
that a visit runs. -/
inductive Outcome where
  | panicked
  | running (a : Attachment) (engine : Option Role)
  deriving DecidableEq

/-- `attach_projected_roles`, up to `poll_until_quiescent` or a loop that never ends. -/
def attachProjectedRoles : Outcome :=
  if image.registersRendezvous then
    match visitRequestedProjectedRoles image.requestedRoles (visitResolvers image) () with
    | .returned _ =>
        match visitRequestedProjectedRoles image.requestedRoles (visitRole t image) .empty with
        | .panicked => .panicked
        | .never a role => .running a (some role)
        | .returned a =>
            if t = .embedded ∧ a.tasks.length = 0 then .panicked else .running a none
    | .panicked => .panicked
    | .never _ _ => .panicked
  else .panicked

/-! ### One visit -/

/-- A visit to the role runs its engine. -/
def runsEngine (role : Role) : Prop :=
  t = .embedded ∧ image.roleKind role = .engine ∧ image.artifact = .wasiImage

instance (role : Role) : Decidable (runsEngine t image role) :=
  inferInstanceAs (Decidable (_ ∧ _ ∧ _))

/-- Nothing but the room left can stop the role from being attached. -/
structure Admits (role : Role) : Prop where
  enters : image.enters role
  leases : image.roleKind role = .engine → image.artifact = .wasiImage → image.leases role
  fits : if runsEngine t image role then image.engineFits role else image.fits t role

instance (role : Role) : Decidable (Admits t image role) :=
  decidable_of_iff (_ ∧ _ ∧ _) ⟨fun ⟨h₁, h₂, h₃⟩ => ⟨h₁, h₂, h₃⟩, fun ⟨h₁, h₂, h₃⟩ => ⟨h₁, h₂, h₃⟩⟩

variable {t image} {role : Role} {a : Attachment}

theorem visitRole_of_runsEngine (h : runsEngine t image role) :
    visitRole t image role a =
      if Admits t image role ∧ a.tasks.length < t.slots then .never (a.enter role) role
      else .panicked := by
  obtain ⟨rfl, hkind, hguest⟩ := h
  have hruns : runsEngine .embedded image role := ⟨rfl, hkind, hguest⟩
  have hadmits : Admits .embedded image role ↔
      image.enters role ∧ image.leases role ∧ image.engineFits role :=
    ⟨fun ⟨h₁, h₂, h₃⟩ => ⟨h₁, h₂ hkind hguest, by rwa [if_pos hruns] at h₃⟩,
      fun ⟨h₁, h₂, h₃⟩ => ⟨h₁, fun _ _ => h₂, by rwa [if_pos hruns]⟩⟩
  have hlength : (a.enter role).tasks.length = a.tasks.length := rfl
  simp only [visitRole, hkind, visitEngine, hguest, Artifact.hasGuestStorage,
    Artifact.hasWasiGuest, runCanonicalWasiEngineForever, hadmits, hlength]
  by_cases henters : image.enters role <;> by_cases hleases : image.leases role <;>
    simp [henters, hleases, and_comm]

theorem visitRole_of_task (h : ¬ runsEngine t image role) (hcount : a.count + 1 < 256) :
    visitRole t image role a =
      if Admits t image role ∧ a.tasks.length < t.slots then .returned ((a.enter role).store role)
      else .panicked := by
  have hpush : pushTask t image role (a.enter role) =
      if a.tasks.length < t.slots ∧ image.fits t role then .returned ((a.enter role).store role)
      else .panicked := by
    unfold pushTask
    rw [if_pos (show (a.enter role).count + 1 < 256 from hcount)]
    rfl
  have hadmits : Admits t image role ↔ image.enters role ∧
      (image.roleKind role = .engine → image.artifact = .wasiImage → image.leases role) ∧
        image.fits t role :=
    ⟨fun ⟨h₁, h₂, h₃⟩ => ⟨h₁, h₂, by rwa [if_neg h] at h₃⟩,
      fun ⟨h₁, h₂, h₃⟩ => ⟨h₁, h₂, by rwa [if_neg h]⟩⟩
  rw [visitRole]
  by_cases henters : image.enters role
  · rw [if_pos henters]
    cases hkind : image.roleKind role with
    | driver => simp [hpush, hadmits, henters, hkind, and_comm]
    | boundary => simp [hpush, hadmits, henters, hkind, and_comm]
    | engine =>
        cases hguest : image.artifact with
        | noWasi =>
            simp [visitEngine, hguest, Artifact.hasGuestStorage, Artifact.hasWasiGuest, hpush,
              hadmits, henters, hkind, and_comm]
        | wasiImage =>
            cases t with
            | embedded => exact absurd ⟨rfl, hkind, hguest⟩ h
            | host =>
                by_cases hleases : image.leases role <;>
                  simp [visitEngine, hguest, Artifact.hasGuestStorage, Artifact.hasWasiGuest,
                    hpush, hadmits, henters, hkind, hleases, and_comm]
  · rw [if_neg henters, if_neg]
    exact fun H => henters H.1.enters

/-! ### The walk -/

/-- The walk over `roles` has attached them all. -/
def Attaches (a : Attachment) (roles : List Role) : Visit Attachment → Prop
  | .panicked => False
  | .returned b => b.entered = a.entered ++ roles ∧ b.tasks = a.tasks ++ roles
  | .never b engine => b.entered = a.entered ++ roles ∧ b.tasks ++ [engine] = a.tasks ++ roles

/-- What a walk has attached is the roles up to the one it ends at. -/
inductive WalkedTo (t : Target) (image : LogicalImage) (a : Attachment) (roles : List Role) :
    Visit Attachment → Prop where
  | panicked : WalkedTo t image a roles .panicked
  | returned {b} (hentered : b.entered = a.entered ++ roles) (htasks : b.tasks = a.tasks ++ roles) :
      WalkedTo t image a roles (.returned b)
  | never {b engine before after} (hroles : roles = before ++ engine :: after)
      (hentered : b.entered = a.entered ++ (before ++ [engine]))
      (htasks : b.tasks = a.tasks ++ before) : WalkedTo t image a roles (.never b engine)

theorem walkedTo (roles : List Role) (a : Attachment) (hcount : a.count + roles.length < 256) :
    WalkedTo t image a roles (visitEach (visitRole t image) roles a) := by
  induction roles generalizing a with
  | nil => exact .returned (List.append_nil _).symm (List.append_nil _).symm
  | cons role roles ih =>
      rw [List.length_cons] at hcount
      rw [visitEach]
      by_cases hruns : runsEngine t image role
      · rw [visitRole_of_runsEngine hruns]
        split
        · exact @WalkedTo.never t image a (role :: roles) (a.enter role) role [] roles rfl rfl
            (List.append_nil _).symm
        · exact .panicked
      · rw [visitRole_of_task hruns (by omega)]
        split
        · have hrest := ih ((a.enter role).store role)
            (show a.count + 1 + roles.length < 256 by omega)
          rw [Visit.andThen]
          generalize visitEach (visitRole t image) roles ((a.enter role).store role) = v at hrest
          cases hrest with
          | panicked => exact .panicked
          | returned hentered htasks =>
              exact .returned (hentered.trans (List.append_assoc _ _ _))
                (htasks.trans (List.append_assoc _ _ _))
          | @never b engine before after hroles hentered htasks =>
              exact .never (congrArg (role :: ·) hroles)
                (hentered.trans (List.append_assoc _ _ _))
                (htasks.trans (List.append_assoc _ _ _))
        · exact .panicked

/-- **The walk attaches its roles** exactly when each is admitted, they have room, and none comes
after one whose visit runs its engine. -/
theorem attaches_iff (roles : List Role) (a : Attachment)
    (hcount : a.count + roles.length < 256) (hroom : a.tasks.length ≤ t.slots) :
    Attaches a roles (visitEach (visitRole t image) roles a) ↔
      (∀ role ∈ roles, Admits t image role) ∧ a.tasks.length + roles.length ≤ t.slots ∧
        ∀ before engine after, roles = before ++ engine :: after → runsEngine t image engine →
          after = [] := by
  induction roles generalizing a with
  | nil => simp [visitEach, Attaches, hroom]
  | cons role roles ih =>
      rw [List.length_cons] at hcount ⊢
      rw [visitEach]
      have hnot : ¬ (Admits t image role ∧ a.tasks.length < t.slots) →
          ¬ ((∀ r ∈ role :: roles, Admits t image r) ∧
            a.tasks.length + (roles.length + 1) ≤ t.slots ∧
            ∀ before engine after, role :: roles = before ++ engine :: after →
              runsEngine t image engine → after = []) := by
        rintro hnot ⟨hadmits, hlength, -⟩
        exact hnot ⟨hadmits role (List.mem_cons_self ..), by omega⟩
      by_cases hok : Admits t image role ∧ a.tasks.length < t.slots
      · obtain ⟨hadmits, hlt⟩ := hok
        by_cases hruns : runsEngine t image role
        · -- the visit never returns: there must be no role left
          rw [visitRole_of_runsEngine hruns, if_pos ⟨hadmits, hlt⟩, Visit.andThen]
          constructor
          · rintro ⟨hentered, -⟩
            obtain rfl : roles = [] :=
              (List.cons.inj (List.append_cancel_left hentered)).2.symm
            refine ⟨fun r hr => List.mem_singleton.mp hr ▸ hadmits, hlt, ?_⟩
            intro before engine after h _
            cases before with
            | nil => exact (List.cons.inj h).2.symm
            | cons _ before => exact absurd (List.cons.inj h).2 (by simp)
          · rintro ⟨-, -, hlast⟩
            obtain rfl := hlast [] role roles rfl hruns
            exact ⟨rfl, rfl⟩
        · -- the visit stores a task and returns: the rest is for the induction
          rw [visitRole_of_task hruns (by omega), if_pos ⟨hadmits, hlt⟩, Visit.andThen]
          have hrest := ih ((a.enter role).store role)
            (show a.count + 1 + roles.length < 256 by omega)
            (show (a.tasks ++ [role]).length ≤ t.slots by rw [List.length_append]; exact hlt)
          have hsame : ∀ v, Attaches a (role :: roles) v ↔
              Attaches ((a.enter role).store role) roles v := fun v => by
            cases v <;> simp [Attaches, Attachment.enter, Attachment.store]
          have hlength : ((a.enter role).store role).tasks.length = a.tasks.length + 1 :=
            List.length_append
          rw [hsame, hrest, hlength, Nat.add_assoc, Nat.add_comm 1]
          refine and_congr (by simp [hadmits]) (and_congr_right fun _ => ⟨fun H => ?_, fun H => ?_⟩)
          · intro before engine after h hengine
            cases before with
            | nil => exact absurd ((List.cons.inj h).1 ▸ hengine) hruns
            | cons _ before => exact H before engine after (List.cons.inj h).2 hengine
          · intro before engine after h hengine
            exact H (role :: before) engine after (congrArg (role :: ·) h) hengine
      · -- a role that is not admitted, or finds the slots full, stops either visit
        refine iff_of_false (fun h => ?_) (hnot hok)
        by_cases hruns : runsEngine t image role
        · rw [visitRole_of_runsEngine hruns, if_neg hok] at h
          exact h
        · rw [visitRole_of_task hruns (by omega), if_neg hok] at h
          exact h

/-! ### The result -/

/-- Every requested role is entered, and its task is stored or it is the engine that runs. -/
def AllAttached (image : LogicalImage) : Outcome → Prop
  | .panicked => False
  | .running a engine => ∀ role, image.requestedRoles.contains role →
      role ∈ a.entered ∧ (role ∈ a.tasks ∨ engine = some role)

/-- Everything but the order of the roles is as it must be: the rendezvous and the resolvers are
registered, each requested role is admitted, and there are slots for all. -/
structure Admitted (t : Target) (image : LogicalImage) : Prop where
  rendezvous : image.registersRendezvous
  resolvers : ∀ role, image.requestedRoles.contains role → image.registersResolvers role
  roles : ∀ role, image.requestedRoles.contains role → Admits t image role
  slots : image.requestedRoles.count ≤ t.slots

/-- With a WASI guest, no requested role is numbered above a requested engine role. -/
def EngineLast (image : LogicalImage) : Prop :=
  image.artifact = .wasiImage → ∀ engine role, image.requestedRoles.contains engine →
    image.roleKind engine = .engine → image.requestedRoles.contains role → role ≤ engine

theorem visitResolvers_iff (roles : List Role) :
    visitEach (visitResolvers image) roles () =
      if ∀ role ∈ roles, image.registersResolvers role then .returned () else .panicked := by
  induction roles with
  | nil => simp [visitEach]
  | cons role roles ih =>
      rw [visitEach, visitResolvers]
      by_cases h : image.registersResolvers role <;> simp [h, Visit.andThen, ih]

theorem count_roles_lt (s : RoleSet) : Attachment.empty.count + s.roles.length < 256 := by
  have h := s.count_le
  unfold RoleSet.count at h
  rw [Attachment.empty, Nat.zero_add]
  omega

/-- Of a list without repetitions, all are attached when the walk has attached the list. -/
theorem attaches_of_members {roles : List Role} (hnodup : roles.Nodup) {v : Visit Attachment}
    (hwalked : WalkedTo t image .empty roles v) {b : Attachment} {engine : Option Role}
    (hv : v = .returned b ∧ engine = none ∨ ∃ e, v = .never b e ∧ engine = some e)
    (h : ∀ role ∈ roles, role ∈ b.entered ∧ (role ∈ b.tasks ∨ engine = some role)) :
    Attaches .empty roles v := by
  cases hwalked with
  | panicked => rcases hv with ⟨hv, -⟩ | ⟨e, hv, -⟩ <;> cases hv
  | returned hentered htasks => exact ⟨hentered, htasks⟩
  | @never b' e before after hroles hentered htasks =>
      have hb : b' = b := by
        rcases hv with ⟨hv, -⟩ | ⟨e, hv, -⟩
        · cases hv
        · cases hv; rfl
      subst hb
      cases after with
      | nil =>
          subst hroles
          exact ⟨hentered, by rw [htasks, List.append_assoc]⟩
      | cons role after =>
          -- the first role left out was entered, so it would be there twice
          subst hroles
          have hmem := (h role (by simp)).1
          rw [hentered] at hmem
          simp only [Attachment.empty, List.nil_append, List.mem_append, List.mem_singleton]
            at hmem
          rw [List.nodup_append] at hnodup
          obtain ⟨-, hafter, hdisjoint⟩ := hnodup
          rcases hmem with hmem | rfl
          · exact absurd rfl (hdisjoint role hmem role (by simp))
          · exact absurd (List.mem_cons_self ..) (List.nodup_cons.mp hafter).1

/-- Attaching, in terms of its walk over the requested roles. -/
theorem allAttached_iff (t : Target) (image : LogicalImage) :
    AllAttached image (attachProjectedRoles t image) ↔
      image.registersRendezvous ∧
        (∀ role ∈ image.requestedRoles.roles, image.registersResolvers role) ∧
        Attaches .empty image.requestedRoles.roles
          (visitEach (visitRole t image) image.requestedRoles.roles .empty) := by
  rw [attachProjectedRoles]
  simp only [visitRequested_eq, visitResolvers_iff]
  by_cases hrendezvous : image.registersRendezvous
  on_goal 2 => simp [hrendezvous, AllAttached]
  by_cases hresolvers : ∀ role ∈ image.requestedRoles.roles, image.registersResolvers role
  on_goal 2 => simp only [if_pos hrendezvous, if_neg hresolvers, AllAttached]; tauto
  simp only [if_pos hresolvers, hrendezvous, true_and, and_iff_right hresolvers]
  -- unless it panics, the walk enters a first part of the roles, and all of them if it returns
  have hwalked := @walkedTo t image image.requestedRoles.roles .empty (count_roles_lt _)
  have hnodup := image.requestedRoles.roles_nodup
  have hne := RoleSet.roles_ne_nil image.requested_ne
  generalize visitEach (visitRole t image) image.requestedRoles.roles .empty = v at hwalked ⊢
  cases v with
  | panicked => exact Iff.rfl
  | never b engine =>
      refine ⟨fun h => attaches_of_members hnodup hwalked (.inr ⟨engine, rfl, rfl⟩)
        fun role hrole => h role (RoleSet.mem_roles.mp hrole), ?_⟩
      rintro ⟨hentered, htasks⟩ role hrole
      rw [← RoleSet.mem_roles] at hrole
      have hmem : role ∈ b.tasks ++ [engine] := by rw [htasks]; exact hrole
      refine ⟨by rw [hentered]; exact hrole, ?_⟩
      rcases List.mem_append.mp hmem with hmem | hmem
      · exact .inl hmem
      · exact .inr (by rw [List.mem_singleton.mp hmem])
  | returned b =>
      -- a set of roles that is not empty leaves a task, so the image is not refused for want of one
      have hsome : Attaches .empty image.requestedRoles.roles (.returned b) →
          ¬ (t = .embedded ∧ b.tasks.length = 0) := by
        rintro ⟨-, htasks⟩ ⟨-, hnil⟩
        rw [htasks] at hnil
        exact hne (List.length_eq_zero_iff.mp hnil)
      dsimp only
      by_cases hnil : t = .embedded ∧ b.tasks.length = 0
      · rw [if_pos hnil]
        exact iff_of_false id fun h => hsome h hnil
      rw [if_neg hnil]
      refine ⟨fun h => attaches_of_members hnodup hwalked (.inl ⟨rfl, rfl⟩)
        fun role hrole => h role (RoleSet.mem_roles.mp hrole), ?_⟩
      rintro ⟨hentered, htasks⟩ role hrole
      rw [← RoleSet.mem_roles] at hrole
      exact ⟨by rw [hentered]; exact hrole, .inl (by rw [htasks]; exact hrole)⟩

/-- Of roles in ascending order none follows a WASI engine exactly when none is above one. -/
theorem engineLast_iff : EngineLast image ↔ ∀ before engine after,
    image.requestedRoles.roles = before ++ engine :: after →
      runsEngine .embedded image engine → after = [] := by
  have hsorted := image.requestedRoles.roles_sorted
  constructor
  · rintro h before engine after hroles ⟨-, hkind, hguest⟩
    cases after with
    | nil => rfl
    | cons role after =>
        have hmem : ∀ r, r ∈ before ++ engine :: role :: after →
            image.requestedRoles.contains r := fun r hr => by
          rw [← hroles] at hr; exact RoleSet.mem_roles.mp hr
        rw [hroles, List.pairwise_append] at hsorted
        have hlt : engine < role :=
          (List.pairwise_cons.mp hsorted.2.1).1 role (List.mem_cons_self ..)
        exact absurd (h hguest engine role (hmem _ (by simp)) hkind (hmem _ (by simp)))
          (not_le.mpr hlt)
  · intro h hguest engine role hengine hkind hrole
    obtain ⟨before, after, hroles⟩ :=
      List.append_of_mem (RoleSet.mem_roles.mpr hengine)
    obtain rfl := h before engine after hroles ⟨rfl, hkind, hguest⟩
    rw [← RoleSet.mem_roles, hroles, List.mem_append, List.mem_singleton] at hrole
    rw [hroles, List.pairwise_append] at hsorted
    rcases hrole with hrole | rfl
    · exact le_of_lt (hsorted.2.2 role hrole engine (List.mem_singleton_self _))
    · exact le_refl _

theorem admitted_iff (t : Target) (image : LogicalImage) : Admitted t image ↔
    image.registersRendezvous ∧
      (∀ role ∈ image.requestedRoles.roles, image.registersResolvers role) ∧
      (∀ role ∈ image.requestedRoles.roles, Admits t image role) ∧
      Attachment.empty.tasks.length + image.requestedRoles.roles.length ≤ t.slots := by
  simp only [RoleSet.mem_roles]
  rw [Attachment.empty, List.length_nil, Nat.zero_add]
  constructor
  · intro h
    exact ⟨h.rendezvous, h.resolvers, h.roles, h.slots⟩
  · rintro ⟨hrendezvous, hresolvers, hroles, hslots⟩
    exact ⟨hrendezvous, hresolvers, hroles, hslots⟩

theorem attach_embedded_iff (image : LogicalImage) :
    AllAttached image (attachProjectedRoles .embedded image) ↔
      Admitted .embedded image ∧ EngineLast image := by
  rw [allAttached_iff, attaches_iff _ _ (count_roles_lt _) (Nat.zero_le _), admitted_iff,
    engineLast_iff]
  tauto

/-- On the host no order of the roles leaves one out. -/
theorem attach_host_iff (image : LogicalImage) :
    AllAttached image (attachProjectedRoles .host image) ↔ Admitted .host image := by
  have hnone : ∀ before engine after, image.requestedRoles.roles = before ++ engine :: after →
      runsEngine .host image engine → after = [] := fun _ _ _ _ h => by cases h.1
  rw [allAttached_iff, attaches_iff _ _ (count_roles_lt _) (Nat.zero_le _), admitted_iff]
  tauto

/-- **Attachment.**  On the embedded target every requested role is entered, and stored or run,
before the image runs forever, if and only if each is admitted in one of the four slots and, with a
WASI guest, none is numbered above a requested engine role.  On the host that has all of them
attached wherever each is admitted. -/
theorem attach_iff (image : LogicalImage) :
    (AllAttached image (attachProjectedRoles .embedded image) ↔
        Admitted .embedded image ∧ EngineLast image) ∧
      (AllAttached image (attachProjectedRoles .host image) ↔ Admitted .host image) :=
  ⟨attach_embedded_iff image, attach_host_iff image⟩

/-- Roles 0 and 1 are requested, and role 0 is an engine with a WASI guest. -/
def engineFirst : LogicalImage :=
  { requestedRoles := ⟨0b11⟩
    requested_ne := by decide
    roleKind := fun role => if role = 0 then .engine else .driver
    artifact := .wasiImage
    registersRendezvous := true
    registersResolvers := fun _ => true
    enters := fun _ => true
    leases := fun _ => true
    fits := fun _ _ => true
    engineFits := fun _ => true }

/-- **Role 1 is left out**, though the host attaches it. -/
theorem attach_leaves_out :
    attachProjectedRoles .embedded engineFirst =
        .running { entered := [0], tasks := [], count := 0 } (some 0) ∧
      attachProjectedRoles .host engineFirst =
        .running { entered := [0, 1], tasks := [0, 1], count := 2 } none ∧
      ¬ AllAttached engineFirst (attachProjectedRoles .embedded engineFirst) := by
  have hembedded : attachProjectedRoles .embedded engineFirst =
      .running { entered := [0], tasks := [], count := 0 } (some 0) := by decide +kernel
  refine ⟨hembedded, by decide +kernel, fun h => ?_⟩
  rw [hembedded] at h
  exact absurd (h 1 (by decide)).1 (by decide)

end HibanaPico.Appkit
