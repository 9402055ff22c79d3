import HibanaPico.Appkit.Wasi
import Mathlib.Data.List.Basic

/-!
# Appkit — Engine

`CanonicalWasiEngine` and its two drivers: `drive_wasi_guest` for the host, an `async fn`, and
`drive_wasi_guest_blocking` for the embedded target.  Both take the guest slot, and at each turn of
their loop resume the guest, send its request, receive the answer, and complete the import with it.
A driver is cut where it can wait: a step of it goes from one such place to the next.

* `WasiGuestSlot`: the leased storage with a guest in it; it is dropped by hand.
* `driveWasiGuest`, `driveWasiGuestBlocking`: one step of each driver.
* `driveCanonicalWasiEngine`: one step of the engine's role task on the host.
-/

namespace HibanaPico.Appkit

/-! ### What an observer notes -/

/-- What happens to the guest arena. -/
inductive ArenaEvent where
  | leased
  | wrote
  | accessed
  | dropped
  | released
  deriving DecidableEq, Repr

/-- What a driver does with the guest and the endpoint. -/
inductive DriveEvent (α : Type*) where
  | resumed (step : Option (WasiBoundaryStep α))
  | sent (message : Message) (value : α) (ok : Bool)
  | received (message : Message) (value : Option α)
  | completedImport (pending : WasiImportPending α) (completion : WasiImportCompletion α)
      (ok : Bool)
  | completedMemoryGrow (request : α) (decision : α) (ok : Bool)

/-! ### The engine -/

/-- `WasiGuestSlot`, which holds the lease. -/
structure WasiGuestSlot (γ : Type*) where
  guest : γ
  initialized : Bool

/-- `CanonicalWasiEngine`, with what an observer has noted. -/
structure CanonicalWasiEngine (γ σ α : Type*) where
  endpoint : σ
  /-- `wasi_guest_bytes` is `Some`. -/
  wasiGuestBytes : Bool
  /-- `guest_storage` is `Some`: the engine holds the lease. -/
  guestStorage : Bool
  guestSlot : Option (WasiGuestSlot γ)
  trace : List (DriveEvent α)
  arena : List ArenaEvent

inductive WasiGuestStatus where
  | exit
  | budgetExpired
  deriving DecidableEq, Repr

inductive EmbeddedWasiGuestStatus where
  | exit
  | budgetExpired
  | terminalEndpoint
  deriving DecidableEq, Repr

/-- `WasiGuestError::rejected`, the only one. -/
inductive WasiGuestError where
  | rejected
  deriving DecidableEq, Repr

variable {γ σ α : Type*}

/-- What dropping a slot does: `Drop` of `WasiGuestSlot`. -/
def WasiGuestSlot.drop (slot : WasiGuestSlot γ) : List ArenaEvent :=
  if slot.initialized then [.dropped, .released] else []

/-- What `finish` of a slot does before it gives the lease back: with `initialized` cleared, `Drop`
does nothing more. -/
def WasiGuestSlot.finish (slot : WasiGuestSlot γ) : List ArenaEvent :=
  if slot.initialized then [.dropped] else []

namespace CanonicalWasiEngine

variable (e : CanonicalWasiEngine γ σ α)

omit e in
/-- `CanonicalWasiEngine::new` with a guest, right after its arena is leased. -/
def new (endpoint : σ) (trace : List (DriveEvent α)) (arena : List ArenaEvent) :
    CanonicalWasiEngine γ σ α :=
  { endpoint, wasiGuestBytes := true, guestStorage := true, guestSlot := none, trace,
    arena := arena ++ [.leased] }

/-- `guest_storage = Some(..)`, which drops the lease held before. -/
def setGuestStorage : CanonicalWasiEngine γ σ α :=
  { e with
    guestStorage := true
    arena := e.arena ++ if e.guestStorage then [.released] else [] }

/-- `guest_slot = Some(slot)`, which drops the slot held before. -/
def setGuestSlot (slot : WasiGuestSlot γ) : CanonicalWasiEngine γ σ α :=
  { e with
    guestSlot := some slot
    arena := e.arena ++ e.guestSlot.elim [] WasiGuestSlot.drop }

/-- The engine is dropped: its fields in turn. -/
def drop : CanonicalWasiEngine γ σ α :=
  { e with
    guestStorage := false
    guestSlot := none
    arena := e.arena ++ (if e.guestStorage then [.released] else []) ++
      e.guestSlot.elim [] WasiGuestSlot.drop }

/-- How `take_wasi_guest_slot` ends. -/
inductive Taken (γ : Type*) where
  | slot (slot : WasiGuestSlot γ)
  | rejected
  | panicked

/-- `WasiGuestSlot::init`: when the guest does not initialise, the slot is dropped. -/
def initSlot (rt : WasiRuntime γ α) : CanonicalWasiEngine γ σ α × Taken γ :=
  let written := e.arena ++ [.wrote, .accessed]
  match rt.init (e.arena.count .wrote) with
  | none => ({ e with arena := written ++ [.dropped, .released] }, .rejected)
  | some guest => ({ e with arena := written }, .slot ⟨guest, true⟩)

/-- `take_wasi_guest_slot`. -/
def takeWasiGuestSlot (rt : WasiRuntime γ α) : CanonicalWasiEngine γ σ α × Taken γ :=
  match e.guestSlot with
  | some slot => ({ e with guestSlot := none }, .slot slot)
  | none =>
      if e.wasiGuestBytes then
        if e.guestStorage then initSlot { e with guestStorage := false } rt else (e, .panicked)
      else (e, .rejected)

/-- `store_wasi_guest_slot`. -/
def storeWasiGuestSlot (slot : WasiGuestSlot γ) :
    Except WasiGuestError WasiGuestStatus → CanonicalWasiEngine γ σ α
  | .ok .budgetExpired => e.setGuestSlot slot
  | .ok .exit | .error _ => setGuestStorage { e with arena := e.arena ++ slot.finish }

/-- `store_embedded_wasi_guest_slot`. -/
def storeEmbeddedWasiGuestSlot (slot : WasiGuestSlot γ) :
    Except WasiGuestError EmbeddedWasiGuestStatus → CanonicalWasiEngine γ σ α
  | .ok .budgetExpired => e.setGuestSlot slot
  | .ok .exit | .ok .terminalEndpoint | .error _ =>
      setGuestStorage { e with arena := e.arena ++ slot.finish }

/-- The guest in the slot is called. -/
def callGuest (event : DriveEvent α) : CanonicalWasiEngine γ σ α :=
  { e with trace := e.trace ++ [event], arena := e.arena ++ [.accessed] }

/-- `send` of the endpoint, once it is ready. -/
def send (ep : Endpoint σ α) (message : Message × α) : CanonicalWasiEngine γ σ α × Bool :=
  let (endpoint, ok) := ep.send e.endpoint message.1 message.2
  ({ e with endpoint, trace := e.trace ++ [.sent message.1 message.2 ok] }, ok)

/-- `recv` of the endpoint, once it is ready. -/
def recv (ep : Endpoint σ α) (message : Message) : CanonicalWasiEngine γ σ α × Option α :=
  let (endpoint, value) := ep.recv e.endpoint message
  ({ e with endpoint, trace := e.trace ++ [.received message value] }, value)

end CanonicalWasiEngine

/-! ### The drivers -/

/-- Where a driver stands in its loop.  The slot is a local variable of it. -/
inductive DriveAt (γ α : Type*) where
  | resume (slot : WasiGuestSlot γ)
  | sendImport (slot : WasiGuestSlot γ) (pending : WasiImportPending α)
  | recvImport (slot : WasiGuestSlot γ) (pending : WasiImportPending α)
  | sendMemoryGrow (slot : WasiGuestSlot γ) (request : α)
  | recvMemoryGrow (slot : WasiGuestSlot γ) (request : α)

def DriveAt.slot : DriveAt γ α → WasiGuestSlot γ
  | .resume slot | .sendImport slot _ | .recvImport slot _ | .sendMemoryGrow slot _
  | .recvMemoryGrow slot _ => slot

/-- How a step of a driver ends. -/
inductive Driven (γ σ α S : Type*) where
  | stands (e : CanonicalWasiEngine γ σ α) (drive : DriveAt γ α)
  | returned (e : CanonicalWasiEngine γ σ α) (result : Except WasiGuestError S)
  | panicked (e : CanonicalWasiEngine γ σ α)

variable (rt : WasiRuntime γ α) (ep : Endpoint σ α)

/-- The start of either driver. -/
def beginDrive {S : Type*} (e : CanonicalWasiEngine γ σ α) : Driven γ σ α S :=
  match e.takeWasiGuestSlot rt with
  | (e, .slot slot) => .stands e (.resume slot)
  | (e, .rejected) => .returned e (.error .rejected)
  | (e, .panicked) => .panicked e

/-- The end of `drive_wasi_guest`. -/
def endDrive (e : CanonicalWasiEngine γ σ α) (slot : WasiGuestSlot γ)
    (result : Except WasiGuestError WasiGuestStatus) : Driven γ σ α WasiGuestStatus :=
  .returned (e.storeWasiGuestSlot slot result) result

/-- A step of `drive_wasi_guest`. -/
def driveWasiGuest (e : CanonicalWasiEngine γ σ α) :
    DriveAt γ α → Driven γ σ α WasiGuestStatus
  | .resume slot =>
      let (guest, step) := rt.resume slot.guest
      let e := e.callGuest (.resumed step)
      let slot := { slot with guest }
      match step with
      | none => endDrive e slot (.error .rejected)
      | some (.importPending pending) => .stands e (.sendImport slot pending)
      | some (.memoryGrowPending request) => .stands e (.sendMemoryGrow slot request)
      | some .budgetExpired => endDrive e slot (.ok .budgetExpired)
      | some .exit => endDrive e slot (.ok .exit)
  | .sendImport slot pending =>
      let (e, ok) := e.send ep (sendWasiImportRequest pending.request)
      if ok then .stands e (.recvImport slot pending) else endDrive e slot (.error .rejected)
  | .recvImport slot pending =>
      let (message, completionOf) := recvWasiImportCompletion pending.ofImport
      let (e, value) := e.recv ep message
      match value with
      | none => endDrive e slot (.error .rejected)
      | some value =>
          let (guest, ok) := rt.completeImport pending slot.guest (completionOf value)
          let e := e.callGuest (.completedImport pending (completionOf value) ok)
          let slot := { slot with guest }
          if ok then .stands e (.resume slot) else endDrive e slot (.error .rejected)
  | .sendMemoryGrow slot request =>
      let (e, ok) := e.send ep (sendMemoryGrowRequest request)
      if ok then .stands e (.recvMemoryGrow slot request) else endDrive e slot (.error .rejected)
  | .recvMemoryGrow slot request =>
      let (e, value) := e.recv ep recvMemoryGrowDecision
      match value with
      | none => endDrive e slot (.error .rejected)
      | some value =>
          let (guest, ok) := rt.completeMemoryGrow request slot.guest value
          let e := e.callGuest (.completedMemoryGrow request value ok)
          let slot := { slot with guest }
          if ok then .stands e (.resume slot) else endDrive e slot (.error .rejected)

/-- `wasi_endpoint_terminal`: every endpoint error is. -/
def wasiEndpointTerminal : Bool := true

/-- The end of `drive_wasi_guest_blocking`. -/
def endDriveBlocking (e : CanonicalWasiEngine γ σ α) (slot : WasiGuestSlot γ)
    (result : Except WasiGuestError EmbeddedWasiGuestStatus) :
    Driven γ σ α EmbeddedWasiGuestStatus :=
  .returned (e.storeEmbeddedWasiGuestSlot slot result) result

/-- What `drive_wasi_guest_blocking` makes of an endpoint error. -/
def endpointFailed : Except WasiGuestError EmbeddedWasiGuestStatus :=
  if wasiEndpointTerminal then .ok .terminalEndpoint else .error .rejected

/-- A step of `drive_wasi_guest_blocking`. -/
def driveWasiGuestBlocking (e : CanonicalWasiEngine γ σ α) :
    DriveAt γ α → Driven γ σ α EmbeddedWasiGuestStatus
  | .resume slot =>
      let (guest, step) := rt.resume slot.guest
      let e := e.callGuest (.resumed step)
      let slot := { slot with guest }
      match step with
      | none => endDriveBlocking e slot (.error .rejected)
      | some (.importPending pending) => .stands e (.sendImport slot pending)
      | some (.memoryGrowPending request) => .stands e (.sendMemoryGrow slot request)
      | some .budgetExpired => endDriveBlocking e slot (.ok .budgetExpired)
      | some .exit => endDriveBlocking e slot (.ok .exit)
  | .sendImport slot pending =>
      let (e, ok) := e.send ep (sendWasiImportRequest pending.request)
      if ok then .stands e (.recvImport slot pending) else endDriveBlocking e slot endpointFailed
  | .recvImport slot pending =>
      let (message, completionOf) := recvWasiImportCompletion pending.ofImport
      let (e, value) := e.recv ep message
      match value with
      | none => endDriveBlocking e slot endpointFailed
      | some value =>
          let (guest, ok) := rt.completeImport pending slot.guest (completionOf value)
          let e := e.callGuest (.completedImport pending (completionOf value) ok)
          let slot := { slot with guest }
          if ok then .stands e (.resume slot) else endDriveBlocking e slot (.error .rejected)
  | .sendMemoryGrow slot request =>
      let (e, ok) := e.send ep (sendMemoryGrowRequest request)
      if ok then .stands e (.recvMemoryGrow slot request)
      else endDriveBlocking e slot endpointFailed
  | .recvMemoryGrow slot request =>
      let (e, value) := e.recv ep recvMemoryGrowDecision
      match value with
      | none => endDriveBlocking e slot endpointFailed
      | some value =>
          let (guest, ok) := rt.completeMemoryGrow request slot.guest value
          let e := e.callGuest (.completedMemoryGrow request value ok)
          let slot := { slot with guest }
          if ok then .stands e (.resume slot) else endDriveBlocking e slot (.error .rejected)

/-! ### The engine's task on the host -/

/-- Where `drive_canonical_wasi_engine` stands. -/
inductive EngineTask (γ α : Type*) where
  /-- At the top of its loop. -/
  | call
  | drive (drive : DriveAt γ α)
  /-- The guest has exited; the engine is `pending` forever. -/
  | pending
  /-- It has returned `Err`. -/
  | failed
  | panicked

/-- What `drive_canonical_wasi_engine` does once a drive is where it is. -/
def afterDrive : Driven γ σ α WasiGuestStatus → CanonicalWasiEngine γ σ α × EngineTask γ α
  | .stands e drive => (e, .drive drive)
  | .returned e (.ok .budgetExpired) => (e, .call)
  | .returned e (.ok .exit) => (e, .pending)
  | .returned e (.error _) => (e, .failed)
  | .panicked e => (e, .panicked)

/-- A step of `drive_canonical_wasi_engine`, with the endpoint ready. -/
def driveCanonicalWasiEngine (e : CanonicalWasiEngine γ σ α) :
    EngineTask γ α → CanonicalWasiEngine γ σ α × EngineTask γ α
  | .call => afterDrive (beginDrive rt e)
  | .drive drive => afterDrive (driveWasiGuest rt ep e drive)
  | .pending => (e, .pending)
  | .failed => (e, .failed)
  | .panicked => (e, .panicked)

end HibanaPico.Appkit
