import HibanaPico.Appkit.Engine
import HibanaPico.Support.Runs
import Mathlib.Data.List.Induction
import Mathlib.Logic.Function.Iterate

/-!
# Appkit — Arena

The life cycle of the guest arena.  Its one lease is held by the engine, by the slot the engine
keeps between two activations, or by the slot of the drive under way; the slot's storage is
dropped by hand, in two places.

* `arenaNext`: what may happen to an arena, and when.
* `engineMachine`: leases, drives and drops of an engine, in any order; a drop can come in the
  middle of a drive.
* `Owns`: who holds the lease, and what that means for the arena.
* `guest_lifeCycle`: in every run the arena's events are in order, and one lease is live at most.
-/

namespace HibanaPico.Appkit
open HibanaPico.Support

/-! ### What may happen to an arena -/

inductive ArenaPhase where
  | free
  | leased
  /-- Leased, with a guest written to it. -/
  | written
  deriving DecidableEq, Repr

/-- A lease is of a free arena and released without a guest; a guest is accessed and dropped
where it was written. -/
def arenaNext : ArenaPhase → ArenaEvent → Option ArenaPhase
  | .free, .leased => some .leased
  | .leased, .wrote => some .written
  | .written, .accessed => some .written
  | .written, .dropped => some .leased
  | .leased, .released => some .free
  | _, _ => none

/-- The phase a list of events leaves a free arena in. -/
def arenaPhase (events : List ArenaEvent) : Option ArenaPhase := events.foldlM arenaNext .free

/-- The flag `occupied`, as the events leave it. -/
def occupied (events : List ArenaEvent) : Bool :=
  events.foldl (fun flag event =>
    if event = .leased then true else if event = .released then false else flag) false

theorem arenaPhase_append {events more : List ArenaEvent} {phase : ArenaPhase}
    (h : arenaPhase events = some phase) :
    arenaPhase (events ++ more) = more.foldlM arenaNext phase := by
  rw [arenaPhase, List.foldlM_append]
  exact congrArg (· >>= _) h

/-- What events in order say of an arena. -/
structure Lawful (events : List ArenaEvent) (phase : ArenaPhase) : Prop where
  occupied : occupied events = decide (phase ≠ .free)
  /-- The guest is dropped once for each time it was written. -/
  wrote : events.count .wrote = events.count .dropped + if phase = .written then 1 else 0
  /-- The lease is released once for each time it was taken. -/
  leased : events.count .leased = events.count .released + if phase = .free then 0 else 1

theorem lawful_of_phase {events : List ArenaEvent} {phase : ArenaPhase}
    (h : arenaPhase events = some phase) : Lawful events phase := by
  induction events using List.reverseRecOn generalizing phase with
  | nil => cases h; exact ⟨rfl, rfl, rfl⟩
  | append_singleton events event ih =>
      rw [arenaPhase, List.foldlM_append] at h
      obtain ⟨before, hbefore, h⟩ := Option.bind_eq_some_iff.mp h
      obtain ⟨hoccupied, hwrote, hleased⟩ := ih hbefore
      have hnext : arenaNext before event = some phase := by
        obtain ⟨after, hafter, hnil⟩ := Option.bind_eq_some_iff.mp h
        exact hafter.trans hnil
      have hlast : Appkit.occupied (events ++ [event]) = if event = .leased then true
          else if event = .released then false else Appkit.occupied events := by
        rw [Appkit.occupied, List.foldl_append]
        rfl
      refine ⟨?_, ?_, ?_⟩
      · rw [hlast, hoccupied]
        revert hnext
        cases before <;> cases event <;> rintro ⟨⟩ <;> rfl
      · rw [List.count_append, List.count_append, hwrote]
        revert hnext
        cases before <;> cases event <;> rintro ⟨⟩ <;> rfl
      · rw [List.count_append, List.count_append, hleased]
        revert hnext
        cases before <;> cases event <;> rintro ⟨⟩ <;> rfl

/-! ### Any sequence of drives -/

/-- An engine, or what one has left behind, and the drive under way. -/
structure EngineLife (γ σ α : Type*) where
  engine : CanonicalWasiEngine γ σ α
  alive : Bool
  drive : Option (DriveAt γ α)

inductive LifeAction where
  /-- The arena is leased, and an engine made with the lease. -/
  | lease
  /-- `drive_wasi_guest` is called. -/
  | call
  /-- The drive goes on to where it next can wait. -/
  | step
  /-- The engine is dropped, with the drive under way. -/
  | drop
  deriving DecidableEq, Repr

variable {γ σ α : Type*}

def EngineLife.init (endpoint : σ) : EngineLife γ σ α :=
  { engine := { endpoint, wasiGuestBytes := true, guestStorage := false, guestSlot := none,
                trace := [], arena := [] }
    alive := false
    drive := none }

/-- The drive's own slot is dropped, and then the engine. -/
def EngineLife.drop (s : EngineLife γ σ α) : EngineLife γ σ α :=
  { engine := CanonicalWasiEngine.drop
      { s.engine with
        arena := s.engine.arena ++ s.drive.elim [] fun drive => drive.slot.drop }
    alive := false
    drive := none }

/-- A drive is where it is; a panic of it drops the engine. -/
def EngineLife.driven : Driven γ σ α WasiGuestStatus → EngineLife γ σ α
  | .stands engine drive => { engine, alive := true, drive := some drive }
  | .returned engine _ => { engine, alive := true, drive := none }
  | .panicked engine => EngineLife.drop { engine, alive := true, drive := none }

/-- `WasiGuestArena::lease` panics on an arena that is leased already. -/
def engineNext (rt : WasiRuntime γ α) (ep : Endpoint σ α) (s : EngineLife γ σ α) :
    LifeAction → Option (EngineLife γ σ α)
  | .lease =>
      if s.alive ∨ occupied s.engine.arena then none
      else some
        { engine := .new s.engine.endpoint s.engine.trace s.engine.arena
          alive := true
          drive := none }
  | .call =>
      if s.alive ∧ s.drive.isNone then some (.driven (beginDrive rt s.engine)) else none
  | .step => s.drive.map fun drive => .driven (driveWasiGuest rt ep s.engine drive)
  | .drop => if s.alive then some s.drop else none

def engineMachine (rt : WasiRuntime γ α) (ep : Endpoint σ α) :
    Machine (EngineLife γ σ α) LifeAction := ⟨engineNext rt ep⟩

/-- Who holds the lease, and the phase the arena is in with it. -/
inductive Owns : EngineLife γ σ α → ArenaPhase → Prop where
  /-- The slot of the drive under way. -/
  | drive {e drive} (hslot : drive.slot.initialized) (hstorage : e.guestStorage = false)
      (hkept : e.guestSlot = none) : Owns ⟨e, true, some drive⟩ .written
  /-- The slot kept for the next activation. -/
  | kept {e slot} (hslot : slot.initialized) (hstorage : e.guestStorage = false)
      (hkept : e.guestSlot = some slot) : Owns ⟨e, true, none⟩ .written
  /-- The engine. -/
  | engine {e} (hstorage : e.guestStorage) (hkept : e.guestSlot = none) :
      Owns ⟨e, true, none⟩ .leased
  /-- Nobody: the engine is gone, or its guest did not initialise. -/
  | nobody {e alive} (hstorage : e.guestStorage = false) (hkept : e.guestSlot = none) :
      Owns ⟨e, alive, none⟩ .free

/-- The arena is in the phase that its holder puts it in. -/
structure LifeInv (s : EngineLife γ σ α) (phase : ArenaPhase) : Prop where
  inPhase : arenaPhase s.engine.arena = some phase
  owns : Owns s phase

variable {rt : WasiRuntime γ α} {ep : Endpoint σ α} {e : CanonicalWasiEngine γ σ α}

/-- The slot is dropped or put away: the drive returns. -/
theorem lifeInv_endDrive {slot : WasiGuestSlot γ}
    (hphase : arenaPhase e.arena = some .written) (hslot : slot.initialized)
    (hstorage : e.guestStorage = false) (hkept : e.guestSlot = none)
    (result : Except WasiGuestError WasiGuestStatus) :
    ∃ phase, LifeInv (EngineLife.driven (endDrive e slot result)) phase := by
  have hfinish : arenaPhase (e.arena ++ slot.finish) = some .leased := by
    rw [arenaPhase_append hphase, WasiGuestSlot.finish, if_pos hslot]
    rfl
  have hput : ∃ phase, LifeInv ⟨CanonicalWasiEngine.setGuestStorage
      { e with arena := e.arena ++ slot.finish }, true, none⟩ phase := by
    refine ⟨.leased, ?_, .engine rfl hkept⟩
    simp only [CanonicalWasiEngine.setGuestStorage, hstorage, Bool.false_eq_true, if_false,
      List.append_nil]
    exact hfinish
  cases result with
  | error _ => exact hput
  | ok status =>
      cases status with
      | exit => exact hput
      | budgetExpired =>
          refine ⟨.written, ?_, .kept hslot hstorage rfl⟩
          simp only [endDrive, EngineLife.driven, CanonicalWasiEngine.storeWasiGuestSlot,
            CanonicalWasiEngine.setGuestSlot, hkept, Option.elim_none, List.append_nil]
          exact hphase

/-- The guest in the slot is called. -/
theorem arenaPhase_callGuest (hphase : arenaPhase e.arena = some .written)
    (event : DriveEvent α) : arenaPhase (e.callGuest event).arena = some .written := by
  rw [CanonicalWasiEngine.callGuest, arenaPhase_append hphase]
  rfl

theorem lifeInv_begin {phase : ArenaPhase} (h : LifeInv ⟨e, true, none⟩ phase) :
    ∃ phase, LifeInv (EngineLife.driven (beginDrive rt e)) phase := by
  obtain ⟨hphase, howns⟩ := h
  dsimp only at hphase
  unfold beginDrive CanonicalWasiEngine.takeWasiGuestSlot
  cases howns with
  | kept hslot hstorage hkept =>
      -- the guest of an expired budget is taken up as it was left
      rw [hkept]
      exact ⟨.written, hphase, .drive hslot hstorage rfl⟩
  | nobody hstorage hkept =>
      rw [hkept]
      dsimp only
      by_cases hbytes : e.wasiGuestBytes
      · -- the `expect` fails, and the unwinding drops an engine that owns nothing
        rw [if_pos hbytes, if_neg (by rw [hstorage]; exact Bool.false_ne_true)]
        refine ⟨.free, ?_, .nobody rfl rfl⟩
        simp only [EngineLife.driven, EngineLife.drop, CanonicalWasiEngine.drop, hstorage, hkept,
          Option.elim_none, List.append_nil, Bool.false_eq_true, if_false]
        exact hphase
      · rw [if_neg hbytes]
        exact ⟨.free, hphase, .nobody hstorage hkept⟩
  | engine hstorage hkept =>
      rw [hkept]
      dsimp only
      by_cases hbytes : e.wasiGuestBytes
      · rw [if_pos hbytes, if_pos hstorage, CanonicalWasiEngine.initSlot]
        have hwritten : arenaPhase (e.arena ++ [.wrote, .accessed]) = some .written := by
          rw [arenaPhase_append hphase]; rfl
        dsimp only
        split
        · rename_i htake
          cases hguest : rt.init (e.arena.count .wrote) with
          | none => rw [hguest] at htake; cases htake
          | some guest =>
              rw [hguest] at htake
              cases htake
              exact ⟨.written, hwritten, .drive rfl rfl rfl⟩
        · rename_i htake
          cases hguest : rt.init (e.arena.count .wrote) with
          | some guest => rw [hguest] at htake; cases htake
          | none =>
              -- the slot is dropped on the way out, and with it the lease
              rw [hguest] at htake
              cases htake
              refine ⟨.free, ?_, .nobody rfl rfl⟩
              dsimp only [EngineLife.driven]
              rw [arenaPhase_append hwritten]
              rfl
        · rename_i htake
          cases hguest : rt.init (e.arena.count .wrote) <;> rw [hguest] at htake <;> cases htake
      · rw [if_neg hbytes]
        exact ⟨.leased, hphase, .engine hstorage hkept⟩

theorem lifeInv_step {drive : DriveAt γ α} {phase : ArenaPhase}
    (h : LifeInv ⟨e, true, some drive⟩ phase) :
    ∃ phase, LifeInv (EngineLife.driven (driveWasiGuest rt ep e drive)) phase := by
  obtain ⟨hphase, howns⟩ := h
  dsimp only at hphase
  obtain ⟨hslot, hstorage, hkept⟩ :
      drive.slot.initialized ∧ e.guestStorage = false ∧ e.guestSlot = none := by
    cases howns; exact ⟨‹_›, ‹_›, ‹_›⟩
  have hphase : arenaPhase e.arena = some .written := by
    cases howns; exact hphase
  -- what holds after a call of the guest or of the endpoint
  have hstands : ∀ (e' : CanonicalWasiEngine γ σ α) (drive' : DriveAt γ α),
      arenaPhase e'.arena = some .written → drive'.slot.initialized → e'.guestStorage = false →
        e'.guestSlot = none → ∃ phase, LifeInv (EngineLife.driven (.stands e' drive')) phase :=
    fun _ _ h₁ h₂ h₃ h₄ => ⟨.written, h₁, .drive h₂ h₃ h₄⟩
  have hends : ∀ (e' : CanonicalWasiEngine γ σ α) (slot : WasiGuestSlot γ) result,
      arenaPhase e'.arena = some .written → slot.initialized → e'.guestStorage = false →
        e'.guestSlot = none →
          ∃ phase, LifeInv (EngineLife.driven (endDrive e' slot result)) phase :=
    fun _ _ result h₁ h₂ h₃ h₄ => lifeInv_endDrive h₁ h₂ h₃ h₄ result
  have hguest : ∀ event, arenaPhase (e.callGuest event).arena = some .written :=
    arenaPhase_callGuest hphase
  cases drive with
  | resume slot =>
      simp only [driveWasiGuest]
      split
      · exact hends _ _ _ (hguest _) hslot hstorage hkept
      · exact hstands _ _ (hguest _) hslot hstorage hkept
      · exact hstands _ _ (hguest _) hslot hstorage hkept
      · exact hends _ _ _ (hguest _) hslot hstorage hkept
      · exact hends _ _ _ (hguest _) hslot hstorage hkept
  | sendImport slot pending =>
      simp only [driveWasiGuest]
      split
      · exact hstands _ _ hphase hslot hstorage hkept
      · exact hends _ _ _ hphase hslot hstorage hkept
  | sendMemoryGrow slot request =>
      simp only [driveWasiGuest]
      split
      · exact hstands _ _ hphase hslot hstorage hkept
      · exact hends _ _ _ hphase hslot hstorage hkept
  | recvImport slot pending =>
      simp only [driveWasiGuest]
      split
      · exact hends _ _ _ hphase hslot hstorage hkept
      · split
        · exact hstands _ _ (hguest (.resumed none)) hslot hstorage hkept
        · exact hends _ _ _ (hguest (.resumed none)) hslot hstorage hkept
  | recvMemoryGrow slot request =>
      simp only [driveWasiGuest]
      split
      · exact hends _ _ _ hphase hslot hstorage hkept
      · split
        · exact hstands _ _ (hguest (.resumed none)) hslot hstorage hkept
        · exact hends _ _ _ (hguest (.resumed none)) hslot hstorage hkept

/-- Dropping the engine frees the arena, whoever held the lease. -/
theorem lifeInv_drop {s : EngineLife γ σ α} {phase : ArenaPhase} (h : LifeInv s phase) :
    LifeInv s.drop .free := by
  obtain ⟨hphase, howns⟩ := h
  refine ⟨?_, .nobody rfl rfl⟩
  cases howns with
  | @drive e drive hslot hstorage hkept =>
      simp only [EngineLife.drop, CanonicalWasiEngine.drop, hstorage, hkept, Option.elim_none,
        Option.elim_some, WasiGuestSlot.drop, if_pos hslot, List.append_nil, Bool.false_eq_true,
        if_false]
      rw [arenaPhase_append hphase]
      rfl
  | @kept e slot hslot hstorage hkept =>
      simp only [EngineLife.drop, CanonicalWasiEngine.drop, hstorage, hkept, Option.elim_none,
        Option.elim_some, WasiGuestSlot.drop, if_pos hslot, List.append_nil, Bool.false_eq_true,
        if_false]
      rw [arenaPhase_append hphase]
      rfl
  | @engine e hstorage hkept =>
      simp only [EngineLife.drop, CanonicalWasiEngine.drop, hstorage, hkept, Option.elim_none,
        List.append_nil, if_true]
      rw [arenaPhase_append hphase]
      rfl
  | @nobody e alive hstorage hkept =>
      simp only [EngineLife.drop, CanonicalWasiEngine.drop, hstorage, hkept, Option.elim_none,
        List.append_nil, Bool.false_eq_true, if_false]
      exact hphase

theorem lifeInv_next (s : EngineLife γ σ α) (a : LifeAction) (t : EngineLife γ σ α)
    (h : ∃ phase, LifeInv s phase) (hstep : (engineMachine rt ep).next s a = some t) :
    ∃ phase, LifeInv t phase := by
  obtain ⟨phase, h⟩ := h
  cases a with
  | lease =>
      simp only [engineMachine, engineNext] at hstep
      split at hstep
      · cases hstep
      rename_i hfree
      cases hstep
      rw [not_or, Bool.not_eq_true, Bool.not_eq_true] at hfree
      -- an arena that is not occupied is free
      have hoccupied := (lawful_of_phase h.inPhase).occupied
      rw [hfree.2] at hoccupied
      obtain rfl : phase = .free := by simpa using hoccupied
      exact ⟨.leased, by
        rw [CanonicalWasiEngine.new, arenaPhase_append h.inPhase]; rfl, .engine rfl rfl⟩
  | call =>
      simp only [engineMachine, engineNext, Option.ite_none_right_eq_some] at hstep
      obtain ⟨⟨halive, hdrive⟩, hstep⟩ := hstep
      cases hstep
      obtain ⟨e, alive, drive⟩ := s
      obtain rfl : alive = true := halive
      obtain rfl : drive = none := Option.isNone_iff_eq_none.mp hdrive
      exact lifeInv_begin h
  | step =>
      obtain ⟨drive, hdrive, rfl⟩ := Option.map_eq_some_iff.mp hstep
      obtain ⟨e, alive, drive'⟩ := s
      obtain rfl : drive' = some drive := hdrive
      obtain rfl : alive = true := by cases h.owns; rfl
      exact lifeInv_step h
  | drop =>
      simp only [engineMachine, engineNext, Option.ite_none_right_eq_some] at hstep
      obtain ⟨-, hstep⟩ := hstep
      cases hstep
      exact ⟨.free, lifeInv_drop h⟩

/-! ### The life cycle -/

/-- The slots with a live guest in them. -/
def EngineLife.liveGuests (s : EngineLife γ σ α) : ℕ :=
  (if s.engine.guestSlot.isSome then 1 else 0) + if s.drive.isSome then 1 else 0

/-- The live leases: the engine's, and one in every slot. -/
def EngineLife.liveLeases (s : EngineLife γ σ α) : ℕ :=
  (if s.engine.guestStorage then 1 else 0) + s.liveGuests

/-- The arena's life so far is in order. -/
structure LifeCycle (s : EngineLife γ σ α) : Prop where
  /-- Leased when free, written when leased, accessed and dropped when written, released when
  dropped. -/
  inOrder : (arenaPhase s.engine.arena).isSome
  oneLease : s.liveLeases ≤ 1
  occupied : occupied s.engine.arena = decide (s.liveLeases = 1)
  /-- Each guest written is dropped once, or live. -/
  wrote : s.engine.arena.count .wrote = s.engine.arena.count .dropped + s.liveGuests
  /-- Each lease is released once, or live. -/
  leased : s.engine.arena.count .leased = s.engine.arena.count .released + s.liveLeases
  /-- A dropped engine leaves nothing behind. -/
  gone : s.alive = false → s.liveLeases = 0

theorem LifeInv.lifeCycle {s : EngineLife γ σ α} {phase : ArenaPhase} (h : LifeInv s phase) :
    LifeCycle s := by
  obtain ⟨hphase, howns⟩ := h
  obtain ⟨hoccupied, hwrote, hleased⟩ := lawful_of_phase hphase
  have hcounts : s.liveGuests = (if phase = .written then 1 else 0) ∧
      s.liveLeases = if phase = .free then 0 else 1 := by
    unfold EngineLife.liveLeases EngineLife.liveGuests
    cases howns with
    | drive _ hstorage hkept => simp [hstorage, hkept]
    | kept _ hstorage hkept => simp [hstorage, hkept]
    | engine hstorage hkept => simp [hstorage, hkept]
    | nobody hstorage hkept => simp [hstorage, hkept]
  obtain ⟨hguests, hleases⟩ := hcounts
  refine ⟨by rw [hphase]; rfl, ?_, ?_, hguests ▸ hwrote, hleases ▸ hleased, ?_⟩
  · rw [hleases]
    split <;> decide
  · rw [hoccupied, hleases]
    cases phase <;> rfl
  · intro halive
    cases howns with
    | drive => cases halive
    | kept => cases halive
    | engine => cases halive
    | nobody => rw [hleases]; rfl

theorem lifeCycle_run (endpoint : σ) {as : List LifeAction} {s : EngineLife γ σ α}
    (h : (engineMachine rt ep).exec (.init endpoint) as = some s) : LifeCycle s := by
  obtain ⟨phase, hinv⟩ := Machine.exec_keeps (I := fun s => ∃ phase, LifeInv s phase)
    lifeInv_next ⟨.free, rfl, .nobody rfl rfl⟩ h
  exact hinv.lifeCycle

/-! ### A budget that expires -/

/-- The next drive takes up the slot that one stopped by its budget left: the guest is not
initialised again. -/
theorem beginDrive_of_budgetExpired {drive : DriveAt γ α} {e' : CanonicalWasiEngine γ σ α}
    (h : driveWasiGuest rt ep e drive = .returned e' (.ok .budgetExpired)) :
    ∃ slot, e'.guestSlot = some slot ∧ slot.guest = (rt.resume drive.slot.guest).1 ∧
      slot.initialized = drive.slot.initialized ∧
      beginDrive (S := WasiGuestStatus) rt e' =
        .stands { e' with guestSlot := none } (.resume slot) := by
  cases drive with
  | resume slot =>
      simp only [driveWasiGuest, endDrive] at h
      split at h <;> cases h
      exact ⟨_, rfl, rfl, rfl, rfl⟩
  | sendImport slot pending =>
      simp only [driveWasiGuest, endDrive] at h
      split at h <;> cases h
  | sendMemoryGrow slot request =>
      simp only [driveWasiGuest, endDrive] at h
      split at h <;> cases h
  | recvImport slot pending =>
      simp only [driveWasiGuest, endDrive] at h
      split at h
      · cases h
      · split at h <;> cases h
  | recvMemoryGrow slot request =>
      simp only [driveWasiGuest, endDrive] at h
      split at h
      · cases h
      · split at h <;> cases h

/-! ### The engine's task never misses its storage -/

/-- At the top of its loop the task has the lease, or a slot with it. -/
def HasStorage (s : CanonicalWasiEngine γ σ α × EngineTask γ α) : Prop :=
  s.2 ≠ .panicked ∧ (s.2 = .call → s.1.guestStorage ∨ s.1.guestSlot.isSome)

theorem hasStorage_begin (h : e.guestStorage ∨ e.guestSlot.isSome) :
    HasStorage (afterDrive (beginDrive rt e)) := by
  unfold beginDrive CanonicalWasiEngine.takeWasiGuestSlot
  cases hslot : e.guestSlot with
  | some slot => exact ⟨nofun, nofun⟩
  | none =>
      rw [hslot] at h
      have hstorage : e.guestStorage = true := h.resolve_right Bool.false_ne_true
      dsimp only
      by_cases hbytes : e.wasiGuestBytes
      · rw [if_pos hbytes, if_pos hstorage, CanonicalWasiEngine.initSlot]
        dsimp only
        cases rt.init (e.arena.count .wrote) <;> exact ⟨nofun, nofun⟩
      · rw [if_neg hbytes]
        exact ⟨nofun, nofun⟩

theorem hasStorage_step (drive : DriveAt γ α) :
    HasStorage (afterDrive (driveWasiGuest rt ep e drive)) := by
  cases hdriven : driveWasiGuest rt ep e drive with
  | stands e' drive' => exact ⟨nofun, nofun⟩
  | returned e' result =>
      cases result with
      | error _ => exact ⟨nofun, nofun⟩
      | ok status =>
          cases status with
          | exit => exact ⟨nofun, nofun⟩
          | budgetExpired =>
              obtain ⟨slot, hslot, -⟩ := beginDrive_of_budgetExpired hdriven
              exact ⟨nofun, fun _ => .inr (Option.isSome_iff_exists.mpr ⟨slot, hslot⟩)⟩
  | panicked e' =>
      -- a drive under way does not take its slot again
      cases drive <;> simp only [driveWasiGuest, endDrive] at hdriven <;>
        (repeat' split at hdriven) <;> cases hdriven

theorem hasStorage_run (endpoint : σ) (trace : List (DriveEvent α)) (arena : List ArenaEvent)
    (n : ℕ) : HasStorage ((fun s => driveCanonicalWasiEngine rt ep s.1 s.2)^[n]
      (.new endpoint trace arena, .call)) := by
  induction n with
  | zero => exact ⟨nofun, fun _ => .inl rfl⟩
  | succ n ih =>
      rw [Function.iterate_succ_apply']
      generalize (fun s => driveCanonicalWasiEngine rt ep s.1 s.2)^[n] _ = s at ih ⊢
      obtain ⟨e, task⟩ := s
      cases task with
      | call => exact hasStorage_begin (ih.2 rfl)
      | drive drive => exact hasStorage_step drive
      | pending => exact ih
      | failed => exact ih
      | panicked => exact ih

/-- **The guest's arena.**  In every run of leases, drives and drops — a drop can come in the middle
of a drive — the arena's events are in order, one lease is live at most, and each guest and each
lease is dropped once or live.  A drive after an expired budget takes up the same guest, and the
engine's task never panics for want of its storage. -/
theorem guest_lifeCycle (rt : WasiRuntime γ α) (ep : Endpoint σ α) (endpoint : σ) :
    (∀ (as : List LifeAction) (s : EngineLife γ σ α),
      (engineMachine rt ep).exec (.init endpoint) as = some s → LifeCycle s) ∧
    (∀ (e e' : CanonicalWasiEngine γ σ α) (drive : DriveAt γ α),
      driveWasiGuest rt ep e drive = .returned e' (.ok .budgetExpired) →
        ∃ slot, e'.guestSlot = some slot ∧ slot.guest = (rt.resume drive.slot.guest).1 ∧
          slot.initialized = drive.slot.initialized ∧
          beginDrive (S := WasiGuestStatus) rt e' =
            .stands { e' with guestSlot := none } (.resume slot)) ∧
    (∀ (trace : List (DriveEvent α)) (arena : List ArenaEvent) (n : ℕ),
      ((fun s => driveCanonicalWasiEngine rt ep s.1 s.2)^[n]
        (.new endpoint trace arena, .call)).2 ≠ .panicked) :=
  ⟨fun _ _ h => lifeCycle_run endpoint h, fun _ _ _ h => beginDrive_of_budgetExpired h,
    fun trace arena n => (hasStorage_run endpoint trace arena n).1⟩

/-- A guest whose first activation runs out of budget, and which then asks for memory. -/
def growingGuest : WasiRuntime ℕ ℕ where
  init written := if written = 0 then some 0 else none
  resume guest := (guest + 1, some (if guest = 0 then .budgetExpired else .memoryGrowPending guest))
  completeImport _ guest _ := (guest, true)
  completeMemoryGrow _ guest _ := (guest, true)

/-- An endpoint that takes everything and answers `0`. -/
def zeroEndpoint : Endpoint Unit ℕ where
  send endpoint _ _ := (endpoint, true)
  recv endpoint _ := (endpoint, some 0)

/-- An engine is dropped while its second activation waits to send, and the arena leased again for
an engine whose guest does not initialise. -/
theorem guest_lifeCycle_droppedInSend :
    ∃ s, (engineMachine growingGuest zeroEndpoint).exec (.init ())
        [.lease, .call, .step, .call, .step, .drop, .lease, .call] = some s ∧
      s.engine.arena = [.leased, .wrote, .accessed, .accessed, .accessed, .dropped, .released,
        .leased, .wrote, .accessed, .dropped, .released] ∧ LifeCycle s :=
  ⟨_, rfl, rfl, (guest_lifeCycle growingGuest zeroEndpoint ()).1
    [.lease, .call, .step, .call, .step, .drop, .lease, .call] _ rfl⟩

end HibanaPico.Appkit
