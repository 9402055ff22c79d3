import HibanaPico.Transport.Types

/-!
# Appkit — Wasi

What passes between a WASI guest, its engine and its endpoint.  The guest runtime and the endpoint
are other crates: what they answer is given by a `WasiRuntime` and an `Endpoint`.

* `WasiRuntime`, `Endpoint`: any guest and any endpoint.
* `sendWasiImportRequest`, `recvWasiImportCompletion`: the message each import is sent as, and the
  one its completion is received as.
* `message_import`: the two agree, import by import.
-/

namespace HibanaPico.Appkit

/-- The imports a guest can make. -/
inductive WasiImport where
  | fdWrite
  | fdWriteObject
  | fdRead
  | fdReaddir
  | pathOpen
  | fdPrestatGet
  | fdPrestatDirName
  | fdFilestatGet
  | argsSizesGet
  | argsGet
  | environSizesGet
  | environGet
  | fdFdstatGet
  | pathFilestatGet
  | fdClose
  | clockResGet
  | clockTimeGet
  | pollOneoff
  | randomGet
  deriving DecidableEq, Repr

inductive WasiImportRequest (α : Type*) where
  | fdWrite (request : α)
  | fdWriteObject (request : α)
  | fdRead (request : α)
  | fdReaddir (request : α)
  | pathOpen (request : α)
  | fdPrestatGet (request : α)
  | fdPrestatDirName (request : α)
  | fdFilestatGet (request : α)
  | argsSizesGet (request : α)
  | argsGet (request : α)
  | environSizesGet (request : α)
  | environGet (request : α)
  | fdFdstatGet (request : α)
  | pathFilestatGet (request : α)
  | fdClose (request : α)
  | clockResGet (request : α)
  | clockTimeGet (request : α)
  | pollOneoff (request : α)
  | randomGet (request : α)
  deriving DecidableEq

inductive WasiImportCompletion (α : Type*) where
  | fdWrite (ret : α)
  | fdWriteObject (ret : α)
  | fdRead (ret : α)
  | fdReaddir (ret : α)
  | pathOpen (ret : α)
  | fdPrestatGet (ret : α)
  | fdPrestatDirName (ret : α)
  | fdFilestatGet (ret : α)
  | argsSizesGet (ret : α)
  | argsGet (ret : α)
  | environSizesGet (ret : α)
  | environGet (ret : α)
  | fdFdstatGet (ret : α)
  | pathFilestatGet (ret : α)
  | fdClose (ret : α)
  | clockResGet (ret : α)
  | clockTimeGet (ret : α)
  | pollOneoff (ret : α)
  | randomGet (ret : α)
  deriving DecidableEq

/-- The import a request or a completion is of. -/
def WasiImportRequest.ofImport {α : Type*} : WasiImportRequest α → WasiImport
  | .fdWrite _ => .fdWrite
  | .fdWriteObject _ => .fdWriteObject
  | .fdRead _ => .fdRead
  | .fdReaddir _ => .fdReaddir
  | .pathOpen _ => .pathOpen
  | .fdPrestatGet _ => .fdPrestatGet
  | .fdPrestatDirName _ => .fdPrestatDirName
  | .fdFilestatGet _ => .fdFilestatGet
  | .argsSizesGet _ => .argsSizesGet
  | .argsGet _ => .argsGet
  | .environSizesGet _ => .environSizesGet
  | .environGet _ => .environGet
  | .fdFdstatGet _ => .fdFdstatGet
  | .pathFilestatGet _ => .pathFilestatGet
  | .fdClose _ => .fdClose
  | .clockResGet _ => .clockResGet
  | .clockTimeGet _ => .clockTimeGet
  | .pollOneoff _ => .pollOneoff
  | .randomGet _ => .randomGet

def WasiImportRequest.value {α : Type*} : WasiImportRequest α → α
  | .fdWrite request | .fdWriteObject request | .fdRead request | .fdReaddir request
  | .pathOpen request | .fdPrestatGet request | .fdPrestatDirName request
  | .fdFilestatGet request | .argsSizesGet request | .argsGet request | .environSizesGet request
  | .environGet request | .fdFdstatGet request | .pathFilestatGet request | .fdClose request
  | .clockResGet request | .clockTimeGet request | .pollOneoff request
  | .randomGet request => request

def WasiImportCompletion.ofImport {α : Type*} : WasiImportCompletion α → WasiImport
  | .fdWrite _ => .fdWrite
  | .fdWriteObject _ => .fdWriteObject
  | .fdRead _ => .fdRead
  | .fdReaddir _ => .fdReaddir
  | .pathOpen _ => .pathOpen
  | .fdPrestatGet _ => .fdPrestatGet
  | .fdPrestatDirName _ => .fdPrestatDirName
  | .fdFilestatGet _ => .fdFilestatGet
  | .argsSizesGet _ => .argsSizesGet
  | .argsGet _ => .argsGet
  | .environSizesGet _ => .environSizesGet
  | .environGet _ => .environGet
  | .fdFdstatGet _ => .fdFdstatGet
  | .pathFilestatGet _ => .pathFilestatGet
  | .fdClose _ => .fdClose
  | .clockResGet _ => .clockResGet
  | .clockTimeGet _ => .clockTimeGet
  | .pollOneoff _ => .pollOneoff
  | .randomGet _ => .randomGet

def WasiImportCompletion.value {α : Type*} : WasiImportCompletion α → α
  | .fdWrite ret | .fdWriteObject ret | .fdRead ret | .fdReaddir ret | .pathOpen ret
  | .fdPrestatGet ret | .fdPrestatDirName ret | .fdFilestatGet ret | .argsSizesGet ret
  | .argsGet ret | .environSizesGet ret | .environGet ret | .fdFdstatGet ret
  | .pathFilestatGet ret | .fdClose ret | .clockResGet ret | .clockTimeGet ret | .pollOneoff ret
  | .randomGet ret => ret

/-- What a pair of messages is about. -/
inductive MessageKind where
  | wasiImport (i : WasiImport)
  | memoryGrow
  deriving DecidableEq, Repr

/-- The messages of the protocol: `FdWriteReqMsg` is `req (wasiImport fdWrite)`. -/
inductive Message where
  | req (kind : MessageKind)
  | ret (kind : MessageKind)
  deriving DecidableEq, Repr

/-! ### The messages of an import -/

variable {α : Type*}

/-- What `send_wasi_import_request` sends. -/
def sendWasiImportRequest : WasiImportRequest α → Message × α
  | .fdWrite request => (.req (.wasiImport .fdWrite), request)
  | .fdWriteObject request => (.req (.wasiImport .fdWriteObject), request)
  | .fdRead request => (.req (.wasiImport .fdRead), request)
  | .fdReaddir request => (.req (.wasiImport .fdReaddir), request)
  | .pathOpen request => (.req (.wasiImport .pathOpen), request)
  | .fdPrestatGet request => (.req (.wasiImport .fdPrestatGet), request)
  | .fdPrestatDirName request => (.req (.wasiImport .fdPrestatDirName), request)
  | .fdFilestatGet request => (.req (.wasiImport .fdFilestatGet), request)
  | .argsSizesGet request => (.req (.wasiImport .argsSizesGet), request)
  | .argsGet request => (.req (.wasiImport .argsGet), request)
  | .environSizesGet request => (.req (.wasiImport .environSizesGet), request)
  | .environGet request => (.req (.wasiImport .environGet), request)
  | .fdFdstatGet request => (.req (.wasiImport .fdFdstatGet), request)
  | .pathFilestatGet request => (.req (.wasiImport .pathFilestatGet), request)
  | .fdClose request => (.req (.wasiImport .fdClose), request)
  | .clockResGet request => (.req (.wasiImport .clockResGet), request)
  | .clockTimeGet request => (.req (.wasiImport .clockTimeGet), request)
  | .pollOneoff request => (.req (.wasiImport .pollOneoff), request)
  | .randomGet request => (.req (.wasiImport .randomGet), request)

/-- What `recv_wasi_import_completion` receives, and the completion it makes of it. -/
def recvWasiImportCompletion : WasiImport → Message × (α → WasiImportCompletion α)
  | .fdWrite => (.ret (.wasiImport .fdWrite), .fdWrite)
  | .fdWriteObject => (.ret (.wasiImport .fdWriteObject), .fdWriteObject)
  | .fdRead => (.ret (.wasiImport .fdRead), .fdRead)
  | .fdReaddir => (.ret (.wasiImport .fdReaddir), .fdReaddir)
  | .pathOpen => (.ret (.wasiImport .pathOpen), .pathOpen)
  | .fdPrestatGet => (.ret (.wasiImport .fdPrestatGet), .fdPrestatGet)
  | .fdPrestatDirName => (.ret (.wasiImport .fdPrestatDirName), .fdPrestatDirName)
  | .fdFilestatGet => (.ret (.wasiImport .fdFilestatGet), .fdFilestatGet)
  | .argsSizesGet => (.ret (.wasiImport .argsSizesGet), .argsSizesGet)
  | .argsGet => (.ret (.wasiImport .argsGet), .argsGet)
  | .environSizesGet => (.ret (.wasiImport .environSizesGet), .environSizesGet)
  | .environGet => (.ret (.wasiImport .environGet), .environGet)
  | .fdFdstatGet => (.ret (.wasiImport .fdFdstatGet), .fdFdstatGet)
  | .pathFilestatGet => (.ret (.wasiImport .pathFilestatGet), .pathFilestatGet)
  | .fdClose => (.ret (.wasiImport .fdClose), .fdClose)
  | .clockResGet => (.ret (.wasiImport .clockResGet), .clockResGet)
  | .clockTimeGet => (.ret (.wasiImport .clockTimeGet), .clockTimeGet)
  | .pollOneoff => (.ret (.wasiImport .pollOneoff), .pollOneoff)
  | .randomGet => (.ret (.wasiImport .randomGet), .randomGet)

/-- What `send_memory_grow_request` sends. -/
def sendMemoryGrowRequest (request : α) : Message × α := (.req .memoryGrow, request)

/-- What `recv_memory_grow_decision` receives. -/
def recvMemoryGrowDecision : Message := .ret .memoryGrow

/-- **The two matches agree**: an import's request goes out as its request message, with the
request's value, and its completion comes in as its return message, with the value received. -/
theorem message_import (request : WasiImportRequest α) (i : WasiImport) (value : α) :
    sendWasiImportRequest request = (.req (.wasiImport request.ofImport), request.value) ∧
      (recvWasiImportCompletion i : _ × (α → _)).1 = .ret (.wasiImport i) ∧
      ((recvWasiImportCompletion i).2 value).ofImport = i ∧
      ((recvWasiImportCompletion i).2 value).value = value := by
  refine ⟨?_, ?_, ?_, ?_⟩
  · cases request <;> rfl
  · cases i <;> rfl
  · cases i <;> rfl
  · cases i <;> rfl

/-! ### The guest and the endpoint -/

/-- `WasiImportPending`: the import a guest waits for. -/
structure WasiImportPending (α : Type*) where
  request : WasiImportRequest α
  ofImport : WasiImport
  /-- `request()` is a request of `import()`. -/
  request_eq : request.ofImport = ofImport

/-- `WasiBoundaryStep`, what `resume_wasi_boundary` comes back with. -/
inductive WasiBoundaryStep (α : Type*) where
  | importPending (pending : WasiImportPending α)
  | memoryGrowPending (request : α)
  | budgetExpired
  | exit

/-- A guest: how its initialisations end, and what it does from each of its states.  `none` and
`false` are errors. -/
structure WasiRuntime (γ α : Type*) where
  /-- The `n`-th `HibanaWasiGuestStorage::init`. -/
  init : ℕ → Option γ
  /-- `resume_wasi_boundary`, with the image's budget. -/
  resume : γ → γ × Option (WasiBoundaryStep α)
  /-- `WasiImportPending::complete`. -/
  completeImport : WasiImportPending α → γ → WasiImportCompletion α → γ × Bool
  /-- `WasiMemoryGrowPending::complete`. -/
  completeMemoryGrow : α → γ → α → γ × Bool

/-- An endpoint: what `send` and `recv` answer once they are ready.  `false` and `none` are an
`EndpointError`. -/
structure Endpoint (σ α : Type*) where
  send : σ → Message → α → σ × Bool
  recv : σ → Message → σ × Option α

end HibanaPico.Appkit
