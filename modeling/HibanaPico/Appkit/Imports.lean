import HibanaPico.Appkit.Engine
import Mathlib.Logic.Function.Iterate

/-!
# Appkit — Imports

A driver has one import outstanding at a time, and completes it with its own reply.

* `Round`: a resume, the request of what the guest waits for, its answer, and its completion.
* `Ending`: what is left of a trace when the driver returns; an error is the last thing in it.
* `one_outstanding`: the trace of every drive, and of every run of `drive_canonical_wasi_engine`,
  is of rounds and an ending.
-/

namespace HibanaPico.Appkit

variable {γ σ α : Type*}

/-! ### The law -/

/-- What a guest waits for: an import, or memory. -/
inductive Outstanding (α : Type*) where
  | wasiImport (pending : WasiImportPending α)
  | memoryGrow (request : α)

namespace Outstanding

def kind : Outstanding α → MessageKind
  | .wasiImport pending => .wasiImport pending.ofImport
  | .memoryGrow _ => .memoryGrow

/-- The value of its request. -/
def value : Outstanding α → α
  | .wasiImport pending => pending.request.value
  | .memoryGrow request => request

/-- The resume that comes back with it. -/
def resumed : Outstanding α → DriveEvent α
  | .wasiImport pending => .resumed (some (.importPending pending))
  | .memoryGrow request => .resumed (some (.memoryGrowPending request))

/-- Its completion with a received value. -/
inductive Completes : Outstanding α → α → Bool → DriveEvent α → Prop where
  | wasiImport {pending : WasiImportPending α} {completion : WasiImportCompletion α} {ok}
      (hkind : completion.ofImport = pending.ofImport) :
      Completes (.wasiImport pending) completion.value ok (.completedImport pending completion ok)
  | memoryGrow {request decision : α} {ok} :
      Completes (.memoryGrow request) decision ok (.completedMemoryGrow request decision ok)

/-- Resumed, and not yet answered. -/
def asked (o : Outstanding α) : List (DriveEvent α) := [o.resumed]

/-- Its request is sent. -/
def requested (o : Outstanding α) : List (DriveEvent α) :=
  o.asked ++ [.sent (.req o.kind) o.value true]

/-- Its answer is received. -/
def answered (o : Outstanding α) (value : α) : List (DriveEvent α) :=
  o.requested ++ [.received (.ret o.kind) (some value)]

end Outstanding

/-- One import, from its resume to its completion. -/
def Round (events : List (DriveEvent α)) : Prop :=
  ∃ (o : Outstanding α) (value : α) (completed : DriveEvent α),
    o.Completes value true completed ∧ events = o.answered value ++ [completed]

/-- What is left of the trace of a drive that returns. -/
inductive Ending : Except WasiGuestError WasiGuestStatus → List (DriveEvent α) → Prop where
  /-- There is no guest. -/
  | rejected : Ending (.error .rejected) []
  | resumeFailed : Ending (.error .rejected) [.resumed none]
  | exit : Ending (.ok .exit) [.resumed (some .exit)]
  | budgetExpired : Ending (.ok .budgetExpired) [.resumed (some .budgetExpired)]
  | sendFailed (o : Outstanding α) :
      Ending (.error .rejected) (o.asked ++ [.sent (.req o.kind) o.value false])
  | recvFailed (o : Outstanding α) :
      Ending (.error .rejected) (o.requested ++ [.received (.ret o.kind) none])
  | completeFailed {o : Outstanding α} {value completed} (h : o.Completes value false completed) :
      Ending (.error .rejected) (o.answered value ++ [completed])

/-- What a driver has done since the last completion. -/
def DriveAt.sinceRound : DriveAt γ α → List (DriveEvent α)
  | .resume _ => []
  | .sendImport _ pending => (Outstanding.wasiImport pending).asked
  | .recvImport _ pending => (Outstanding.wasiImport pending).requested
  | .sendMemoryGrow _ request => (Outstanding.memoryGrow request).asked
  | .recvMemoryGrow _ request => (Outstanding.memoryGrow request).requested

/-- Rounds, and what comes after them. -/
def Rounds (events rest : List (DriveEvent α)) : Prop :=
  ∃ rounds : List (List (DriveEvent α)), (∀ round ∈ rounds, Round round) ∧
    events = rounds.flatten ++ rest

/-- The trace of a drive: rounds, and what it stands in or ends with. -/
inductive DriveLaw (before : List (DriveEvent α)) : Driven γ σ α WasiGuestStatus → Prop where
  | stands {e drive events} (htrace : e.trace = before ++ events)
      (h : Rounds events drive.sinceRound) : DriveLaw before (.stands e drive)
  | returned {e result events ending} (htrace : e.trace = before ++ events)
      (h : Rounds events ending) (hending : Ending result ending) :
      DriveLaw before (.returned e result)
  | panicked {e} (htrace : e.trace = before) : DriveLaw before (.panicked e)

theorem Rounds.nil (rest : List (DriveEvent α)) : Rounds rest rest :=
  ⟨[], List.forall_mem_nil _, rfl⟩

theorem Rounds.append {events rest : List (DriveEvent α)} (h : Rounds events rest)
    (more : List (DriveEvent α)) : Rounds (events ++ more) (rest ++ more) := by
  obtain ⟨rounds, hrounds, rfl⟩ := h
  exact ⟨rounds, hrounds, List.append_assoc _ _ _⟩

theorem Rounds.round {events rest : List (DriveEvent α)} (h : Rounds events rest)
    (hround : Round rest) : Rounds events [] := by
  obtain ⟨rounds, hrounds, rfl⟩ := h
  refine ⟨rounds ++ [rest], ?_, by simp⟩
  rw [List.forall_mem_append]
  exact ⟨hrounds, fun round hr => List.mem_singleton.mp hr ▸ hround⟩

/-! ### One step of the driver -/

variable (rt : WasiRuntime γ α) (ep : Endpoint σ α)

theorem trace_takeWasiGuestSlot (e : CanonicalWasiEngine γ σ α) :
    (e.takeWasiGuestSlot rt).1.trace = e.trace := by
  unfold CanonicalWasiEngine.takeWasiGuestSlot
  split
  · rfl
  split
  · split
    · unfold CanonicalWasiEngine.initSlot
      dsimp only
      split <;> rfl
    · rfl
  · rfl

theorem trace_storeWasiGuestSlot (e : CanonicalWasiEngine γ σ α) (slot : WasiGuestSlot γ)
    (result : Except WasiGuestError WasiGuestStatus) :
    (e.storeWasiGuestSlot slot result).trace = e.trace := by
  unfold CanonicalWasiEngine.storeWasiGuestSlot
  split <;> rfl

theorem driveLaw_begin (e : CanonicalWasiEngine γ σ α) : DriveLaw e.trace (beginDrive rt e) := by
  have htrace := trace_takeWasiGuestSlot rt e
  unfold beginDrive
  split <;> rename_i htake <;> rw [htake] at htrace
  · exact .stands (htrace.trans (List.append_nil _).symm) (.nil _)
  · exact .returned (htrace.trans (List.append_nil _).symm) (.nil _) .rejected
  · exact .panicked htrace

variable {rt ep} {before events : List (DriveEvent α)} {e : CanonicalWasiEngine γ σ α}

/-- The driver returns, with a last event. -/
theorem DriveLaw.endDrive {slot : WasiGuestSlot γ} {result : Except WasiGuestError WasiGuestStatus}
    {ending : List (DriveEvent α)} (htrace : e.trace = before ++ events)
    (h : Rounds events ending) (hending : Ending result ending) :
    DriveLaw before (endDrive e slot result) :=
  .returned ((trace_storeWasiGuestSlot e slot result).trans htrace) h hending

/-- A request is sent, or its error ends the drive. -/
theorem DriveLaw.sent {slot : WasiGuestSlot γ} (o : Outstanding α) {message : Message × α}
    {next : DriveAt γ α} (hmessage : message = (.req o.kind, o.value))
    (hnext : next.sinceRound = o.requested) (htrace : e.trace = before ++ events)
    (h : Rounds events o.asked) :
    DriveLaw before (if (e.send ep message).2 then .stands (e.send ep message).1 next
      else HibanaPico.Appkit.endDrive (e.send ep message).1 slot (.error .rejected)) := by
  subst hmessage
  have hsent : (e.send ep (.req o.kind, o.value)).1.trace = before ++
      (events ++ [.sent (.req o.kind) o.value (e.send ep (.req o.kind, o.value)).2]) := by
    rw [← List.append_assoc, ← htrace]; rfl
  split <;> rename_i hok
  · rw [hok] at hsent
    exact .stands hsent (hnext ▸ h.append _)
  · rw [Bool.not_eq_true] at hok
    rw [hok] at hsent
    exact .endDrive hsent (h.append _) (.sendFailed o)

/-- An answer is received and the import completed, or an error ends the drive. -/
theorem DriveLaw.received {slot : WasiGuestSlot γ} (o : Outstanding α) (message : Message)
    (complete : α → γ × Bool) (completed : α → Bool → DriveEvent α)
    (hmessage : message = .ret o.kind)
    (hcompletes : ∀ value ok, o.Completes value ok (completed value ok))
    (htrace : e.trace = before ++ events) (h : Rounds events o.requested) :
    DriveLaw before (match (e.recv ep message).2 with
      | none => HibanaPico.Appkit.endDrive (e.recv ep message).1 slot (.error .rejected)
      | some value =>
          if (complete value).2 then
            .stands ((e.recv ep message).1.callGuest (completed value (complete value).2))
              (.resume { slot with guest := (complete value).1 })
          else
            HibanaPico.Appkit.endDrive
              ((e.recv ep message).1.callGuest (completed value (complete value).2))
              { slot with guest := (complete value).1 } (.error .rejected)) := by
  subst hmessage
  have hreceived : (e.recv ep (.ret o.kind)).1.trace = before ++
      (events ++ [.received (.ret o.kind) (e.recv ep (.ret o.kind)).2]) := by
    rw [← List.append_assoc, ← htrace]; rfl
  split
  · rename_i hvalue
    rw [hvalue] at hreceived
    exact .endDrive hreceived (h.append _) (.recvFailed o)
  · rename_i value hvalue
    rw [hvalue] at hreceived
    have hdone : ∀ ok, ((e.recv ep (.ret o.kind)).1.callGuest (completed value ok)).trace =
        before ++ (events ++ [.received (.ret o.kind) (some value)] ++ [completed value ok]) :=
      fun ok => by rw [← List.append_assoc, ← hreceived]; rfl
    have hrounds := fun ok => (h.append [.received (.ret o.kind) (some value)]).append
      [completed value ok]
    split <;> rename_i hok
    · rw [hok]
      exact .stands (hdone true) ((hrounds true).round ⟨o, value, _, hcompletes value true, rfl⟩)
    · rw [Bool.not_eq_true] at hok
      rw [hok]
      exact .endDrive (hdone false) (hrounds false) (.completeFailed (hcompletes value false))

theorem driveLaw_step {drive : DriveAt γ α} (htrace : e.trace = before ++ events)
    (h : Rounds events drive.sinceRound) : DriveLaw before (driveWasiGuest rt ep e drive) := by
  cases drive with
  | resume slot =>
      -- an activation adds to the rounds, and opens one or ends the drive
      have hmore : ∀ more, e.trace ++ more = before ++ (events ++ more) := fun more => by
        rw [htrace, List.append_assoc]
      simp only [driveWasiGuest]
      split <;> rename_i hstep <;> rw [hstep]
      · exact .endDrive (hmore _) (h.append _) .resumeFailed
      · exact .stands (hmore _) (h.append _)
      · exact .stands (hmore _) (h.append _)
      · exact .endDrive (hmore _) (h.append _) .budgetExpired
      · exact .endDrive (hmore _) (h.append _) .exit
  | sendImport slot pending =>
      -- the request is sent as its own kind's message, with the value it carries
      refine DriveLaw.sent (.wasiImport pending) ?_ rfl htrace h
      rw [(message_import pending.request pending.ofImport pending.request.value).1,
        pending.request_eq]
      rfl
  | recvImport slot pending =>
      obtain ⟨-, hmessage, -, -⟩ := message_import pending.request pending.ofImport
        pending.request.value
      simp only [driveWasiGuest]
      refine DriveLaw.received (.wasiImport pending) _
        (fun value => rt.completeImport pending slot.guest
          ((recvWasiImportCompletion pending.ofImport).2 value))
        (fun value ok =>
          .completedImport pending ((recvWasiImportCompletion pending.ofImport).2 value) ok)
        hmessage (fun value ok => ?_) htrace h
      -- and completed as that kind, with the value received
      obtain ⟨-, -, hkind, hvalue⟩ := message_import pending.request pending.ofImport value
      have hcompletes := @Outstanding.Completes.wasiImport α pending _ ok hkind
      rwa [hvalue] at hcompletes
  | sendMemoryGrow slot request => exact DriveLaw.sent (.memoryGrow request) rfl rfl htrace h
  | recvMemoryGrow slot request =>
      exact DriveLaw.received (.memoryGrow request) _
        (fun value => rt.completeMemoryGrow request slot.guest value)
        (fun value ok => .completedMemoryGrow request value ok) rfl
        (fun _ _ => .memoryGrow) htrace h

/-! ### Whole runs -/

/-- A drive, one step further. -/
def Driven.advance (rt : WasiRuntime γ α) (ep : Endpoint σ α) :
    Driven γ σ α WasiGuestStatus → Driven γ σ α WasiGuestStatus
  | .stands e drive => driveWasiGuest rt ep e drive
  | .returned e result => .returned e result
  | .panicked e => .panicked e

theorem driveLaw_run (rt : WasiRuntime γ α) (ep : Endpoint σ α) (e : CanonicalWasiEngine γ σ α)
    (n : ℕ) : DriveLaw e.trace ((Driven.advance rt ep)^[n] (beginDrive rt e)) := by
  induction n with
  | zero => exact driveLaw_begin rt e
  | succ n ih =>
      rw [Function.iterate_succ_apply']
      generalize (Driven.advance rt ep)^[n] (beginDrive rt e) = d at ih ⊢
      cases ih with
      | stands htrace h => exact driveLaw_step htrace h
      | returned htrace h hending => exact .returned htrace h hending
      | panicked htrace => exact .panicked htrace

/-- Activations that ran out of budget: rounds, and a resume that says so. -/
def Expired (events : List (DriveEvent α)) : Prop :=
  ∃ activations : List (List (DriveEvent α)),
    (∀ activation ∈ activations, Rounds activation [.resumed (some .budgetExpired)]) ∧
      events = activations.flatten

theorem Expired.append {expired events : List (DriveEvent α)} (h : Expired expired)
    (hevents : Rounds events [.resumed (some .budgetExpired)]) : Expired (expired ++ events) := by
  obtain ⟨activations, hactivations, rfl⟩ := h
  refine ⟨activations ++ [events], ?_, by simp⟩
  rw [List.forall_mem_append]
  exact ⟨hactivations, fun activation ha => List.mem_singleton.mp ha ▸ hevents⟩

/-- The trace of `drive_canonical_wasi_engine`: activations that ran out of budget, and one that
the task stands in or that has ended it. -/
inductive TaskLaw (before : List (DriveEvent α)) :
    CanonicalWasiEngine γ σ α × EngineTask γ α → Prop where
  | call {e expired} (h : Expired expired) (htrace : e.trace = before ++ expired) :
      TaskLaw before (e, .call)
  | drive {e drive expired events} (h : Expired expired)
      (htrace : e.trace = before ++ expired ++ events) (hevents : Rounds events drive.sinceRound) :
      TaskLaw before (e, .drive drive)
  | pending {e expired events} (h : Expired expired)
      (htrace : e.trace = before ++ expired ++ events)
      (hevents : Rounds events [.resumed (some .exit)]) : TaskLaw before (e, .pending)
  | failed {e expired events ending} (h : Expired expired)
      (htrace : e.trace = before ++ expired ++ events) (hevents : Rounds events ending)
      (hending : Ending (.error .rejected) ending) : TaskLaw before (e, .failed)
  | panicked {e expired} (h : Expired expired) (htrace : e.trace = before ++ expired) :
      TaskLaw before (e, .panicked)

theorem taskLaw_afterDrive {expired : List (DriveEvent α)} (h : Expired expired)
    {d : Driven γ σ α WasiGuestStatus} (hd : DriveLaw (before ++ expired) d) :
    TaskLaw before (afterDrive d) := by
  cases hd with
  | stands htrace hevents => exact .drive h htrace hevents
  | panicked htrace => exact .panicked h htrace
  | @returned e result events ending htrace hevents hending =>
      cases hending with
      | exit => exact .pending h htrace hevents
      | budgetExpired =>
          exact .call (h.append hevents) (htrace.trans (List.append_assoc _ _ _))
      | rejected => exact .failed h htrace hevents .rejected
      | resumeFailed => exact .failed h htrace hevents .resumeFailed
      | sendFailed o => exact .failed h htrace hevents (.sendFailed o)
      | recvFailed o => exact .failed h htrace hevents (.recvFailed o)
      | completeFailed hcompletes => exact .failed h htrace hevents (.completeFailed hcompletes)

theorem taskLaw_run (rt : WasiRuntime γ α) (ep : Endpoint σ α) (e : CanonicalWasiEngine γ σ α)
    (n : ℕ) :
    TaskLaw e.trace ((fun s => driveCanonicalWasiEngine rt ep s.1 s.2)^[n] (e, .call)) := by
  induction n with
  | zero => exact .call ⟨[], List.forall_mem_nil _, rfl⟩ (List.append_nil _).symm
  | succ n ih =>
      rw [Function.iterate_succ_apply']
      generalize (fun s => driveCanonicalWasiEngine rt ep s.1 s.2)^[n] (e, .call) = s at ih ⊢
      cases ih with
      | @call e' expired h htrace =>
          have hbegin := driveLaw_begin rt e'
          rw [htrace] at hbegin
          exact taskLaw_afterDrive h hbegin
      | drive h htrace hevents => exact taskLaw_afterDrive h (driveLaw_step htrace hevents)
      | pending h htrace hevents => exact .pending h htrace hevents
      | failed h htrace hevents hending => exact .failed h htrace hevents hending
      | panicked h htrace => exact .panicked h htrace

/-- **One outstanding import, completed by its own reply.**  For every guest and endpoint, a drive
has done whole rounds — a resume, the request message of what it came back with, the return message
of the same kind, the completion of the same import with the value received — and then part of one,
or an ending; an error is last, and makes the drive return `Err`.  The engine's task strings such
drives together, each but the last ended by its budget, and does nothing after an error. -/
theorem one_outstanding (rt : WasiRuntime γ α) (ep : Endpoint σ α)
    (e : CanonicalWasiEngine γ σ α) (n : ℕ) :
    DriveLaw e.trace ((Driven.advance rt ep)^[n] (beginDrive rt e)) ∧
      TaskLaw e.trace ((fun s => driveCanonicalWasiEngine rt ep s.1 s.2)^[n] (e, .call)) :=
  ⟨driveLaw_run rt ep e n, taskLaw_run rt ep e n⟩

end HibanaPico.Appkit
