import HibanaPico.Appkit.Engine
import HibanaPico.Support.Runs

/-!
# Appkit — Host

An image on the host: `poll_until_quiescent` polls the slots in turn, pass after pass while a waker
was called, and one slot holds the task of the WASI engine.  A poll of the engine's slot goes on for
as long as the engine does not have to wait.

* `Watch`: which tasks were woken since they were last polled, and what has happened so far.
* `hostNext`: one turn of `poll_until_quiescent`, or one step of the engine inside its poll.
* `hostNext_cases`: what a turn does.
-/

namespace HibanaPico.Appkit
open HibanaPico.Support

/-! ### What is watched of an image -/

/-- What happens to the tasks of an image. -/
inductive ImageEvent where
  /-- A task other than the engine is polled. -/
  | polled (task : ℕ)
  /-- The endpoint of the engine is polled, and not ready. -/
  | waited
  /-- The guest is activated; whether its budget expires. -/
  | resumed (expired : Bool)
  /-- `C::observe`. -/
  | observed
  deriving DecidableEq, Repr

structure Watch where
  /-- The task's waker was called since the task was last polled; a new task counts as woken. -/
  woken : ℕ → Bool
  log : List ImageEvent

namespace Watch

def start : Watch := { woken := fun _ => true, log := [] }

def note (w : Watch) (events : List ImageEvent) : Watch := { w with log := w.log ++ events }

/-- Wakers are called. -/
def wake (w : Watch) (wakes : List ℕ) : Watch :=
  { w with woken := fun task => w.woken task || wakes.contains task }

/-- A task is polled, and wakers are called during the poll. -/
def poll (w : Watch) (task : ℕ) (wakes : List ℕ) : Watch :=
  wake { w with woken := fun other => if other = task then false else w.woken other } wakes

@[simp] theorem log_note (w : Watch) (events : List ImageEvent) :
    (w.note events).log = w.log ++ events := rfl

@[simp] theorem woken_note (w : Watch) (events : List ImageEvent) :
    (w.note events).woken = w.woken := rfl

@[simp] theorem log_wake (w : Watch) (wakes : List ℕ) : (w.wake wakes).log = w.log := rfl

@[simp] theorem log_poll (w : Watch) (task : ℕ) (wakes : List ℕ) :
    (w.poll task wakes).log = w.log := rfl

/-- A polled task is woken again only by a call of its waker. -/
theorem woken_poll {w : Watch} {task other : ℕ} {wakes : List ℕ}
    (h : (w.poll task wakes).woken other) : wakes ≠ [] ∨ other ≠ task ∧ w.woken other := by
  rcases Bool.or_eq_true .. |>.mp h with hkept | hwoken
  · refine .inr ?_
    dsimp only at hkept
    split at hkept
    · cases hkept
    · exact ⟨‹_›, hkept⟩
  · exact .inl (List.ne_nil_of_mem (List.contains_iff_mem.mp hwoken))

theorem woken_poll_of_ne {w : Watch} {task other : ℕ} (h : other ≠ task) (wakes : List ℕ)
    (hwoken : w.woken other) : (w.poll task wakes).woken other := by
  simp [poll, wake, h, hwoken]

theorem woken_wake {w : Watch} {task : ℕ} (wakes : List ℕ) (hwoken : w.woken task) :
    (w.wake wakes).woken task := by
  simp [wake, hwoken]

end Watch

/-- What the scheduler's surroundings decide. -/
inductive ImageAction where
  /-- The engine goes on: nothing it waits for is missing. -/
  | go
  /-- The polled future is pending; these tasks' wakers were called meanwhile. -/
  | pending (wakes : List ℕ)
  /-- The polled task returns `Err`. -/
  | failed
  /-- The pass is over, and `C::observe` is called; these tasks' wakers were called meanwhile. -/
  | observe (wakes : List ℕ)
  deriving DecidableEq, Repr

variable {γ σ α : Type*}

/-- The driver waits for its endpoint here. -/
def DriveAt.awaits : DriveAt γ α → Bool
  | .resume _ => false
  | .sendImport .. | .recvImport .. | .sendMemoryGrow .. | .recvMemoryGrow .. => true

/-- The budget of an activation has expired. -/
def expires : Option (WasiBoundaryStep α) → Bool
  | some .budgetExpired => true
  | some (.importPending _) | some (.memoryGrowPending _) | some .exit | none => false

/-- The activation of the guest that a driver's next step makes. -/
def DriveAt.resumes (rt : WasiRuntime γ α) : DriveAt γ α → List ImageEvent
  | .resume slot => [.resumed (expires (rt.resume slot.guest).2)]
  | .sendImport .. | .recvImport .. | .sendMemoryGrow .. | .recvMemoryGrow .. => []

/-- The engine's task is in its loop. -/
def EngineTask.goes : EngineTask γ α → Bool
  | .call | .drive _ => true
  | .pending | .failed | .panicked => false

def EngineTask.resumes (rt : WasiRuntime γ α) : EngineTask γ α → List ImageEvent
  | .drive stands => stands.resumes rt
  | .call | .pending | .failed | .panicked => []

/-! ### The host's scheduler -/

/-- How `poll_until_quiescent` ends. -/
inductive HostOver where
  | quiescent
  /-- `appkit role task failed`. -/
  | failed (task : ℕ)
  deriving DecidableEq, Repr

/-- `ScheduledTasks` in the middle of `poll_until_quiescent`. -/
structure HostImage (γ σ α : Type*) where
  engine : CanonicalWasiEngine γ σ α
  task : EngineTask γ α
  taskIdx : ℕ
  woke : Bool
  halted : Option HostOver
  watch : Watch

namespace HostImage

def init (endpoint : σ) : HostImage γ σ α :=
  { engine := .new endpoint [] [], task := .call, taskIdx := 0, woke := false, halted := none
    watch := .start }

variable (s : HostImage γ σ α)

/-- The polled task is pending. -/
def pended (wakes : List ℕ) (events : List ImageEvent) : HostImage γ σ α :=
  { s with
    taskIdx := s.taskIdx + 1
    woke := s.woke || !wakes.isEmpty
    watch := (s.watch.poll s.taskIdx wakes).note events }

/-- The polled task returns `Err`: `observe`, and panic. -/
def fail (events : List ImageEvent) : HostImage γ σ α :=
  { s with halted := some (.failed s.taskIdx), watch := (s.watch.note events).note [.observed] }

def pollOther : ImageAction → Option (HostImage γ σ α)
  | .pending wakes => some (s.pended wakes [.polled s.taskIdx])
  | .failed => some (s.fail [.polled s.taskIdx])
  | .go | .observe _ => none

/-- The engine's slot is polled. -/
def pollEngine (rt : WasiRuntime γ α) (ep : Endpoint σ α) :
    ImageAction → Option (HostImage γ σ α)
  | .go =>
      if s.task.goes then
        let (engine, task) := driveCanonicalWasiEngine rt ep s.engine s.task
        some { s with engine, task, watch := s.watch.note (s.task.resumes rt) }
      else none
  | .pending wakes =>
      match s.task with
      | .drive drive => if drive.awaits then some (s.pended wakes [.waited]) else none
      | .pending => some (s.pended wakes [])
      | .call | .failed | .panicked => none
  | .failed =>
      match s.task with
      | .failed => some (s.fail [])
      | .panicked => some { s with halted := some (.failed s.taskIdx) }
      | .call | .drive _ | .pending => none
  | .observe _ => none

/-- The end of a pass. -/
def endPass : ImageAction → Option (HostImage γ σ α)
  | .observe wakes =>
      let watch := (s.watch.wake wakes).note [.observed]
      if s.woke || !wakes.isEmpty then some { s with taskIdx := 0, woke := false, watch }
      else some { s with halted := some .quiescent, watch }
  | .go | .pending _ | .failed => none

end HostImage

/-- A turn of `poll_until_quiescent` over `len` slots, with the engine in slot `engineIdx`. -/
def hostNext (rt : WasiRuntime γ α) (ep : Endpoint σ α) (len engineIdx : ℕ)
    (s : HostImage γ σ α) (a : ImageAction) : Option (HostImage γ σ α) :=
  if s.halted.isSome then none
  else if s.taskIdx < len then
    if s.taskIdx = engineIdx then s.pollEngine rt ep a else s.pollOther a
  else s.endPass a

def hostMachine (rt : WasiRuntime γ α) (ep : Endpoint σ α) (len engineIdx : ℕ) :
    Machine (HostImage γ σ α) ImageAction := ⟨hostNext rt ep len engineIdx⟩

/-! ### What a turn does -/

/-- The turns of the scheduler. -/
inductive HostStep (rt : WasiRuntime γ α) (ep : Endpoint σ α) (len engineIdx : ℕ)
    (s : HostImage γ σ α) : HostImage γ σ α → Prop
  /-- The engine's task goes on, inside the poll of its slot. -/
  | went (hlt : s.taskIdx < len) (hidx : s.taskIdx = engineIdx) (htask : s.task.goes) :
      HostStep rt ep len engineIdx s
        { s with
          engine := (driveCanonicalWasiEngine rt ep s.engine s.task).1
          task := (driveCanonicalWasiEngine rt ep s.engine s.task).2
          watch := s.watch.note (s.task.resumes rt) }
  | polled {wakes} (hlt : s.taskIdx < len) (hidx : s.taskIdx ≠ engineIdx) :
      HostStep rt ep len engineIdx s (s.pended wakes [.polled s.taskIdx])
  /-- The engine waits for its endpoint. -/
  | waited {wakes drive} (hlt : s.taskIdx < len) (hidx : s.taskIdx = engineIdx)
      (htask : s.task = .drive drive) (hawaits : drive.awaits) :
      HostStep rt ep len engineIdx s (s.pended wakes [.waited])
  /-- The guest has exited. -/
  | rested {wakes} (hlt : s.taskIdx < len) (hidx : s.taskIdx = engineIdx)
      (htask : s.task = .pending) : HostStep rt ep len engineIdx s (s.pended wakes [])
  | otherFailed (hlt : s.taskIdx < len) (hidx : s.taskIdx ≠ engineIdx) :
      HostStep rt ep len engineIdx s (s.fail [.polled s.taskIdx])
  | engineFailed (hlt : s.taskIdx < len) (hidx : s.taskIdx = engineIdx)
      (htask : s.task = .failed) : HostStep rt ep len engineIdx s (s.fail [])
  | enginePanicked (hlt : s.taskIdx < len) (hidx : s.taskIdx = engineIdx)
      (htask : s.task = .panicked) :
      HostStep rt ep len engineIdx s { s with halted := some (.failed s.taskIdx) }
  /-- A waker was called: there is another pass. -/
  | passed {wakes : List ℕ} (hidx : ¬ s.taskIdx < len) (hwoke : s.woke || !wakes.isEmpty) :
      HostStep rt ep len engineIdx s
        { s with
          taskIdx := 0
          woke := false
          watch := (s.watch.wake wakes).note [.observed] }
  | quiesced (hidx : ¬ s.taskIdx < len) (hwoke : s.woke = false) :
      HostStep rt ep len engineIdx s
        { s with halted := some .quiescent, watch := (s.watch.wake []).note [.observed] }

theorem hostNext_cases {rt : WasiRuntime γ α} {ep : Endpoint σ α} {len engineIdx : ℕ}
    {s t : HostImage γ σ α} {a : ImageAction} (h : hostNext rt ep len engineIdx s a = some t) :
    s.halted = none ∧ HostStep rt ep len engineIdx s t := by
  obtain ⟨engine, task, taskIdx, woke, halted, watch⟩ := s
  unfold hostNext at h
  cases halted with
  | some _ => cases h
  | none =>
      refine ⟨rfl, ?_⟩
      rw [if_neg (by simp)] at h
      by_cases hlt : taskIdx < len
      · rw [if_pos hlt] at h
        by_cases hidx : taskIdx = engineIdx
        · rw [if_pos hidx] at h
          cases a with
          | go =>
              obtain ⟨hgoes, h⟩ := Option.ite_none_right_eq_some.mp h
              cases h
              exact .went hlt hidx hgoes
          | pending wakes =>
              cases task with
              | drive drive =>
                  obtain ⟨hawaits, h⟩ := Option.ite_none_right_eq_some.mp h
                  cases h
                  exact .waited hlt hidx rfl hawaits
              | pending => cases h; exact .rested hlt hidx rfl
              | call => cases h
              | failed => cases h
              | panicked => cases h
          | failed =>
              cases task with
              | failed => cases h; exact .engineFailed hlt hidx rfl
              | panicked => cases h; exact .enginePanicked hlt hidx rfl
              | call => cases h
              | drive _ => cases h
              | pending => cases h
          | observe _ => cases h
        · rw [if_neg hidx] at h
          cases a with
          | pending wakes => cases h; exact .polled hlt hidx
          | failed => cases h; exact .otherFailed hlt hidx
          | go => cases h
          | observe _ => cases h
      · rw [if_neg hlt] at h
        cases a with
        | observe wakes =>
            simp only [HostImage.endPass] at h
            by_cases hwoke : (woke || !wakes.isEmpty) = true
            · rw [if_pos hwoke] at h
              cases h
              exact .passed hlt hwoke
            · rw [if_neg hwoke] at h
              cases h
              obtain ⟨hnone, rfl⟩ : woke = false ∧ wakes = [] := by simpa using hwoke
              exact .quiesced hlt hnone
        | go => cases h
        | pending _ => cases h
        | failed => cases h

end HibanaPico.Appkit
