import HibanaPico.Appkit.Host

/-!
# Appkit — Embedded

An image on the embedded target: `run_canonical_wasi_engine_forever` drives the engine itself, and
polls the stored tasks once before it starts and once each time the engine's endpoint is not ready.

* `afterDriveBlocking`: what it does with the outcome of a drive.
* `embeddedNext`: one turn of it, `embeddedNext_cases` what a turn does.
-/

namespace HibanaPico.Appkit
open HibanaPico.Support

variable {γ σ α : Type*}

/-- Where `run_canonical_wasi_engine_forever` stands. -/
inductive EmbeddedAt (γ α : Type*) where
  /-- In the `poll_once` before the loop. -/
  | first (taskIdx : ℕ)
  /-- At the top of the loop. -/
  | call
  | drive (stands : DriveAt γ α)
  /-- In the `poll_once` of `poll_embedded_wasi_unit` or `poll_embedded_wasi_value`, and then
  waiting for an event. -/
  | tasks (stands : DriveAt γ α) (taskIdx : ℕ)
  /-- The budget has expired: `C::observe`, and back to the top. -/
  | expired
  /-- In `embedded_observe_forever`. -/
  | observing
  /-- `Err` was returned: `C::observe`, and panic. -/
  | failed
  | panicked

structure EmbeddedImage (γ σ α : Type*) where
  engine : CanonicalWasiEngine γ σ α
  stands : EmbeddedAt γ α
  /-- A task has failed, and the image panicked. -/
  halted : Bool
  watch : Watch

/-- What is done once a drive is where it is. -/
def afterDriveBlocking : Driven γ σ α EmbeddedWasiGuestStatus →
    CanonicalWasiEngine γ σ α × EmbeddedAt γ α
  | .stands e drive => (e, .drive drive)
  | .returned e (.ok .budgetExpired) => (e, .expired)
  | .returned e (.ok .exit) | .returned e (.ok .terminalEndpoint) => (e, .observing)
  | .returned e (.error _) => (e, .failed)
  | .panicked e => (e, .panicked)

namespace EmbeddedImage

def init (endpoint : σ) : EmbeddedImage γ σ α :=
  { engine := .new endpoint [] [], stands := .first 0, halted := false, watch := .start }

variable (s : EmbeddedImage γ σ α)

/-- The engine is driven on. -/
def went (driven : Driven γ σ α EmbeddedWasiGuestStatus) (events : List ImageEvent) :
    EmbeddedImage γ σ α :=
  { s with
    engine := (afterDriveBlocking driven).1
    stands := (afterDriveBlocking driven).2
    watch := s.watch.note events }

/-- A stored task is polled by `poll_once`: pending, or a panic. -/
def pollStored (taskIdx : ℕ) (then_ : EmbeddedAt γ α) :
    ImageAction → Option (EmbeddedImage γ σ α)
  | .pending wakes => some
      { s with stands := then_, watch := (s.watch.poll taskIdx wakes).note [.polled taskIdx] }
  | .failed => some { s with halted := true, watch := s.watch.note [.polled taskIdx] }
  | .go | .observe _ => none

end EmbeddedImage

/-- A turn of `run_canonical_wasi_engine_forever`, with `len` tasks stored. -/
def embeddedNext (rt : WasiRuntime γ α) (ep : Endpoint σ α) (len : ℕ)
    (s : EmbeddedImage γ σ α) (a : ImageAction) : Option (EmbeddedImage γ σ α) :=
  if s.halted then none else match s.stands with
  | .first taskIdx =>
      if taskIdx < len then s.pollStored taskIdx (.first (taskIdx + 1)) a
      else if a = .go then some { s with stands := .call } else none
  | .call => if a = .go then some (s.went (beginDrive rt s.engine) []) else none
  | .drive drive =>
      match a with
      | .go => some (s.went (driveWasiGuestBlocking rt ep s.engine drive) (drive.resumes rt))
      | .pending wakes =>
          if drive.awaits then
            some { s with stands := .tasks drive 0, watch := (s.watch.wake wakes).note [.waited] }
          else none
      | .failed | .observe _ => none
  | .tasks drive taskIdx =>
      if taskIdx < len then s.pollStored taskIdx (.tasks drive (taskIdx + 1)) a
      else if a = .go then some { s with stands := .drive drive } else none
  | .expired =>
      match a with
      | .observe wakes => some
          { s with stands := .call, watch := (s.watch.wake wakes).note [.observed] }
      | .go | .pending _ | .failed => none
  | .observing =>
      match a with
      | .observe wakes => some { s with watch := (s.watch.wake wakes).note [.observed] }
      | .go | .pending _ | .failed => none
  | .failed =>
      if a = .failed then
        some { s with halted := true, watch := s.watch.note [.observed] }
      else none
  | .panicked => none

def embeddedMachine (rt : WasiRuntime γ α) (ep : Endpoint σ α) (len : ℕ) :
    Machine (EmbeddedImage γ σ α) ImageAction := ⟨embeddedNext rt ep len⟩

/-! ### What a turn does -/

/-- The turns of the engine's loop. -/
inductive EmbeddedStep (rt : WasiRuntime γ α) (ep : Endpoint σ α) (len : ℕ)
    (s : EmbeddedImage γ σ α) : EmbeddedImage γ σ α → Prop
  | firstPolled {taskIdx wakes} (hstands : s.stands = .first taskIdx) (hlt : taskIdx < len) :
      EmbeddedStep rt ep len s
        { s with
          stands := .first (taskIdx + 1)
          watch := (s.watch.poll taskIdx wakes).note [.polled taskIdx] }
  | firstDone {taskIdx} (hstands : s.stands = .first taskIdx) (hidx : ¬ taskIdx < len) :
      EmbeddedStep rt ep len s { s with stands := .call }
  | called (hstands : s.stands = .call) :
      EmbeddedStep rt ep len s (s.went (beginDrive rt s.engine) [])
  | drove {drive} (hstands : s.stands = .drive drive) :
      EmbeddedStep rt ep len s
        (s.went (driveWasiGuestBlocking rt ep s.engine drive) (drive.resumes rt))
  | waited {drive wakes} (hstands : s.stands = .drive drive) (hawaits : drive.awaits) :
      EmbeddedStep rt ep len s
        { s with stands := .tasks drive 0, watch := (s.watch.wake wakes).note [.waited] }
  | polled {drive taskIdx wakes} (hstands : s.stands = .tasks drive taskIdx)
      (hlt : taskIdx < len) :
      EmbeddedStep rt ep len s
        { s with
          stands := .tasks drive (taskIdx + 1)
          watch := (s.watch.poll taskIdx wakes).note [.polled taskIdx] }
  | polledAll {drive taskIdx} (hstands : s.stands = .tasks drive taskIdx)
      (hidx : ¬ taskIdx < len) : EmbeddedStep rt ep len s { s with stands := .drive drive }
  | taskFailed {taskIdx} (hlt : taskIdx < len)
      (hstands : s.stands = .first taskIdx ∨ ∃ drive, s.stands = .tasks drive taskIdx) :
      EmbeddedStep rt ep len s { s with halted := true, watch := s.watch.note [.polled taskIdx] }
  | expired {wakes} (hstands : s.stands = .expired) :
      EmbeddedStep rt ep len s
        { s with stands := .call, watch := (s.watch.wake wakes).note [.observed] }
  | observed {wakes} (hstands : s.stands = .observing) :
      EmbeddedStep rt ep len s { s with watch := (s.watch.wake wakes).note [.observed] }
  | failed (hstands : s.stands = .failed) :
      EmbeddedStep rt ep len s { s with halted := true, watch := s.watch.note [.observed] }

theorem embeddedNext_cases {rt : WasiRuntime γ α} {ep : Endpoint σ α} {len : ℕ}
    {s t : EmbeddedImage γ σ α} {a : ImageAction} (h : embeddedNext rt ep len s a = some t) :
    s.halted = false ∧ EmbeddedStep rt ep len s t := by
  obtain ⟨e, stands, halted, w⟩ := s
  obtain rfl : halted = false := by
    cases halted with
    | true => cases h
    | false => rfl
  refine ⟨rfl, ?_⟩
  cases stands with
  | first taskIdx =>
      simp only [embeddedNext, Bool.false_eq_true, if_false] at h
      by_cases hlt : taskIdx < len
      · rw [if_pos hlt] at h
        cases a with
        | pending wakes => cases h; exact .firstPolled rfl hlt
        | failed => cases h; exact .taskFailed hlt (.inl rfl)
        | go => cases h
        | observe _ => cases h
      · rw [if_neg hlt] at h
        obtain ⟨-, h⟩ := Option.ite_none_right_eq_some.mp h
        cases h
        exact .firstDone rfl hlt
  | call =>
      obtain ⟨-, h⟩ := Option.ite_none_right_eq_some.mp h
      cases h
      exact .called rfl
  | drive drive =>
      cases a with
      | go => cases h; exact .drove rfl
      | pending wakes =>
          obtain ⟨hawaits, h⟩ := Option.ite_none_right_eq_some.mp h
          cases h
          exact .waited rfl hawaits
      | failed => cases h
      | observe _ => cases h
  | tasks drive taskIdx =>
      simp only [embeddedNext, Bool.false_eq_true, if_false] at h
      by_cases hlt : taskIdx < len
      · rw [if_pos hlt] at h
        cases a with
        | pending wakes => cases h; exact .polled rfl hlt
        | failed => cases h; exact .taskFailed hlt (.inr ⟨drive, rfl⟩)
        | go => cases h
        | observe _ => cases h
      · rw [if_neg hlt] at h
        obtain ⟨-, h⟩ := Option.ite_none_right_eq_some.mp h
        cases h
        exact .polledAll rfl hlt
  | expired =>
      cases a with
      | observe wakes => cases h; exact .expired rfl
      | go => cases h
      | pending _ => cases h
      | failed => cases h
  | observing =>
      cases a with
      | observe wakes => cases h; exact .observed rfl
      | go => cases h
      | pending _ => cases h
      | failed => cases h
  | failed =>
      obtain ⟨-, h⟩ := Option.ite_none_right_eq_some.mp h
      cases h
      exact .failed rfl
  | panicked => cases h

end HibanaPico.Appkit
