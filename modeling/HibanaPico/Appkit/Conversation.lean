import HibanaPico.Appkit.Engine

/-!
# Appkit — Conversation

What a guest and its endpoint say to each other, apart from who drives them: the guest is resumed,
what it asks for is sent, the answer received and handed to it, and so on until one of them ends it.
The next turn follows from the last, so two drivers that take these turns and no others can differ
only in how far they have got.

* `Conversation.next`: the next turn.
* `driveTurn`: the loop both drivers run; they differ in how they report its end.
* `conversation_beginDrive`, `conversation_driveWasiGuest`, `conversation_driveWasiGuestBlocking`:
  a driver's step is one turn; taking up a kept slot is none.
-/

namespace HibanaPico.Appkit

/-- What a guest can wait for. -/
inductive Exchange (α : Type*) where
  | wasiImport (pending : WasiImportPending α)
  | memoryGrow (request : α)

/-- Whose turn it is. -/
inductive Talk (γ α : Type*) where
  /-- The guest is to be initialised, with this result. -/
  | opening (guest : Option γ)
  | running (guest : γ)
  | sending (guest : γ) (exchange : Exchange α)
  | receiving (guest : γ) (exchange : Exchange α)
  | ended

structure Conversation (γ σ α : Type*) where
  endpoint : σ
  talk : Talk γ α
  trace : List (DriveEvent α)

variable {γ σ α : Type*}

def Exchange.request : Exchange α → Message × α
  | .wasiImport pending => sendWasiImportRequest pending.request
  | .memoryGrow request => sendMemoryGrowRequest request

def Exchange.reply : Exchange α → Message
  | .wasiImport pending => .ret (.wasiImport pending.ofImport)
  | .memoryGrow _ => .ret .memoryGrow

/-- The guest is handed the answer. -/
def Exchange.complete (rt : WasiRuntime γ α) (guest : γ) (value : α) :
    Exchange α → γ × Bool × (Bool → DriveEvent α)
  | .wasiImport pending =>
      let completion := (recvWasiImportCompletion pending.ofImport).2 value
      let (guest, ok) := rt.completeImport pending guest completion
      (guest, ok, .completedImport pending completion)
  | .memoryGrow request =>
      let (guest, ok) := rt.completeMemoryGrow request guest value
      (guest, ok, .completedMemoryGrow request value)

/-- What a guest's activation leads to. -/
def Talk.resumed (guest : γ) : Option (WasiBoundaryStep α) → Talk γ α
  | some (.importPending pending) => .sending guest (.wasiImport pending)
  | some (.memoryGrowPending request) => .sending guest (.memoryGrow request)
  | some .budgetExpired => .running guest
  | some .exit | none => .ended

/-- The next turn. -/
def Conversation.next (rt : WasiRuntime γ α) (ep : Endpoint σ α) (c : Conversation γ σ α) :
    Conversation γ σ α :=
  match c.talk with
  | .opening (some guest) => { c with talk := .running guest }
  | .opening none => { c with talk := .ended }
  | .running guest =>
      let (guest, step) := rt.resume guest
      { c with talk := .resumed guest step, trace := c.trace ++ [.resumed step] }
  | .sending guest exchange =>
      let (message, value) := exchange.request
      let (endpoint, ok) := ep.send c.endpoint message value
      { endpoint
        talk := bif ok then .receiving guest exchange else .ended
        trace := c.trace ++ [.sent message value ok] }
  | .receiving guest exchange =>
      let (endpoint, value) := ep.recv c.endpoint exchange.reply
      let trace := c.trace ++ [.received exchange.reply value]
      match value with
      | none => { endpoint, talk := .ended, trace }
      | some value =>
          let (guest, ok, completed) := exchange.complete rt guest value
          { endpoint
            talk := bif ok then .running guest else .ended
            trace := trace ++ [completed ok] }
  | .ended => c

/-- Nothing said is taken back. -/
theorem trace_next (rt : WasiRuntime γ α) (ep : Endpoint σ α) (c : Conversation γ σ α) :
    c.trace <+: (c.next rt ep).trace := by
  obtain ⟨endpoint, talk, trace⟩ := c
  cases talk with
  | opening guest => cases guest <;> exact List.prefix_refl _
  | running guest => exact List.prefix_append _ _
  | sending guest exchange => exact List.prefix_append _ _
  | receiving guest exchange =>
      simp only [Conversation.next]
      split
      · exact List.prefix_append _ _
      · exact (List.prefix_append _ _).trans (List.prefix_append _ _)
  | ended => exact List.prefix_refl _

theorem next_ended (rt : WasiRuntime γ α) (ep : Endpoint σ α) {c : Conversation γ σ α}
    (h : c.talk = .ended) : c.next rt ep = c := by
  rw [Conversation.next, h]

/-! ### Where a driver is in it -/

/-- In the loop of a drive. -/
def DriveAt.talk : DriveAt γ α → Talk γ α
  | .resume slot => .running slot.guest
  | .sendImport slot pending => .sending slot.guest (.wasiImport pending)
  | .recvImport slot pending => .receiving slot.guest (.wasiImport pending)
  | .sendMemoryGrow slot request => .sending slot.guest (.memoryGrow request)
  | .recvMemoryGrow slot request => .receiving slot.guest (.memoryGrow request)

variable (rt : WasiRuntime γ α) (ep : Endpoint σ α) (e : CanonicalWasiEngine γ σ α)

/-- Before a drive. -/
def CanonicalWasiEngine.talk : Talk γ α :=
  match e.guestSlot with
  | some slot => .running slot.guest
  | none =>
      if e.wasiGuestBytes ∧ e.guestStorage then .opening (rt.init (e.arena.count .wrote))
      else .ended

/-- An engine is in a conversation. -/
def CanonicalWasiEngine.conversation (talk : Talk γ α) : Conversation γ σ α :=
  { endpoint := e.endpoint, talk, trace := e.trace }

def WasiGuestStatus.expired (status : WasiGuestStatus) : Bool := status = .budgetExpired

def EmbeddedWasiGuestStatus.expired (status : EmbeddedWasiGuestStatus) : Bool :=
  status = .budgetExpired

/-- After a step of a driver. -/
def Driven.conversation {S : Type*} (expired : S → Bool) :
    Driven γ σ α S → Conversation γ σ α
  | .stands e drive => e.conversation drive.talk
  | .returned e (.ok status) => e.conversation (if expired status then e.talk rt else .ended)
  | .returned e (.error _) => e.conversation .ended
  | .panicked e => e.conversation .ended

/-- A drive takes up the guest kept for it, or opens the conversation. -/
theorem conversation_beginDrive {S : Type*} (expired : S → Bool) :
    Driven.conversation rt expired (beginDrive rt e) = e.conversation (e.talk rt) ∨
      Driven.conversation rt expired (beginDrive rt e) =
        (e.conversation (e.talk rt)).next rt ep := by
  unfold beginDrive CanonicalWasiEngine.takeWasiGuestSlot CanonicalWasiEngine.talk
  cases hslot : e.guestSlot with
  | some slot => exact .inl rfl
  | none =>
      dsimp only
      by_cases hbytes : e.wasiGuestBytes
      · by_cases hstorage : e.guestStorage
        · rw [if_pos hbytes, if_pos hstorage, if_pos ⟨hbytes, hstorage⟩,
            CanonicalWasiEngine.initSlot]
          dsimp only
          cases rt.init (e.arena.count .wrote) <;> exact .inr rfl
        · rw [if_pos hbytes, if_neg hstorage, if_neg fun h => hstorage h.2]
          exact .inl rfl
      · rw [if_neg hbytes, if_neg fun h => hbytes h.1]
        exact .inl rfl

/-- `recv_wasi_import_completion` receives what its import is answered with. -/
theorem recvWasiImportCompletion_reply (pending : WasiImportPending α) :
    (recvWasiImportCompletion pending.ofImport : Message × (α → _)).1 =
      (Exchange.wasiImport pending).reply := by
  obtain ⟨request, i, -⟩ := pending
  cases i <;> rfl

/-! ### The loop of both drivers -/

/-- What ends a drive. -/
inductive DriveEnd where
  | guestFailed
  | endpointFailed
  | budgetExpired
  | exit

/-- The two drivers differ in how they report an end. -/
def DriveEnd.result : DriveEnd → Except WasiGuestError WasiGuestStatus
  | .guestFailed | .endpointFailed => .error .rejected
  | .budgetExpired => .ok .budgetExpired
  | .exit => .ok .exit

def DriveEnd.resultBlocking : DriveEnd → Except WasiGuestError EmbeddedWasiGuestStatus
  | .guestFailed => .error .rejected
  | .endpointFailed => Appkit.endpointFailed
  | .budgetExpired => .ok .budgetExpired
  | .exit => .ok .exit

/-- A turn of the loop: where it stands then, or what ended it. -/
def driveTurn : DriveAt γ α →
    CanonicalWasiEngine γ σ α × (DriveAt γ α ⊕ WasiGuestSlot γ × DriveEnd)
  | .resume slot =>
      let (guest, step) := rt.resume slot.guest
      let slot := { slot with guest }
      (e.callGuest (.resumed step), match step with
        | none => .inr (slot, .guestFailed)
        | some (.importPending pending) => .inl (.sendImport slot pending)
        | some (.memoryGrowPending request) => .inl (.sendMemoryGrow slot request)
        | some .budgetExpired => .inr (slot, .budgetExpired)
        | some .exit => .inr (slot, .exit))
  | .sendImport slot pending =>
      let (e, ok) := e.send ep (sendWasiImportRequest pending.request)
      (e, if ok then .inl (.recvImport slot pending) else .inr (slot, .endpointFailed))
  | .recvImport slot pending =>
      let (message, completionOf) := recvWasiImportCompletion pending.ofImport
      let (e, value) := e.recv ep message
      match value with
      | none => (e, .inr (slot, .endpointFailed))
      | some value =>
          let (guest, ok) := rt.completeImport pending slot.guest (completionOf value)
          let slot := { slot with guest }
          (e.callGuest (.completedImport pending (completionOf value) ok),
            if ok then .inl (.resume slot) else .inr (slot, .guestFailed))
  | .sendMemoryGrow slot request =>
      let (e, ok) := e.send ep (sendMemoryGrowRequest request)
      (e, if ok then .inl (.recvMemoryGrow slot request) else .inr (slot, .endpointFailed))
  | .recvMemoryGrow slot request =>
      let (e, value) := e.recv ep recvMemoryGrowDecision
      match value with
      | none => (e, .inr (slot, .endpointFailed))
      | some value =>
          let (guest, ok) := rt.completeMemoryGrow request slot.guest value
          let slot := { slot with guest }
          (e.callGuest (.completedMemoryGrow request value ok),
            if ok then .inl (.resume slot) else .inr (slot, .guestFailed))

/-- A step of `drive_wasi_guest` is a turn of the loop. -/
theorem driveWasiGuest_eq (drive : DriveAt γ α) :
    driveWasiGuest rt ep e drive = match driveTurn rt ep e drive with
      | (e, .inl drive) => .stands e drive
      | (e, .inr (slot, why)) => endDrive e slot why.result := by
  obtain ⟨init, resume, completeImport, completeMemoryGrow⟩ := rt
  unfold driveWasiGuest driveTurn
  cases drive with
  | resume slot =>
      dsimp only
      rcases resume slot.guest with ⟨guest, none | step⟩
      · rfl
      · cases step <;> rfl
  | sendImport slot pending =>
      dsimp only
      rcases e.send ep _ with ⟨e', _ | _⟩ <;> rfl
  | sendMemoryGrow slot request =>
      dsimp only
      rcases e.send ep _ with ⟨e', _ | _⟩ <;> rfl
  | recvImport slot pending =>
      dsimp only
      rcases e.recv ep _ with ⟨e', none | value⟩
      · rfl
      · dsimp only
        rcases completeImport pending slot.guest _ with ⟨guest, _ | _⟩ <;> rfl
  | recvMemoryGrow slot request =>
      dsimp only
      rcases e.recv ep _ with ⟨e', none | value⟩
      · rfl
      · dsimp only
        rcases completeMemoryGrow request slot.guest _ with ⟨guest, _ | _⟩ <;> rfl

/-- And so is one of `drive_wasi_guest_blocking`. -/
theorem driveWasiGuestBlocking_eq (drive : DriveAt γ α) :
    driveWasiGuestBlocking rt ep e drive = match driveTurn rt ep e drive with
      | (e, .inl drive) => .stands e drive
      | (e, .inr (slot, why)) => endDriveBlocking e slot why.resultBlocking := by
  obtain ⟨init, resume, completeImport, completeMemoryGrow⟩ := rt
  unfold driveWasiGuestBlocking driveTurn
  cases drive with
  | resume slot =>
      dsimp only
      rcases resume slot.guest with ⟨guest, none | step⟩
      · rfl
      · cases step <;> rfl
  | sendImport slot pending =>
      dsimp only
      rcases e.send ep _ with ⟨e', _ | _⟩ <;> rfl
  | sendMemoryGrow slot request =>
      dsimp only
      rcases e.send ep _ with ⟨e', _ | _⟩ <;> rfl
  | recvImport slot pending =>
      dsimp only
      rcases e.recv ep _ with ⟨e', none | value⟩
      · rfl
      · dsimp only
        rcases completeImport pending slot.guest _ with ⟨guest, _ | _⟩ <;> rfl
  | recvMemoryGrow slot request =>
      dsimp only
      rcases e.recv ep _ with ⟨e', none | value⟩
      · rfl
      · dsimp only
        rcases completeMemoryGrow request slot.guest _ with ⟨guest, _ | _⟩ <;> rfl

/-- Only an expired budget leaves a guest to go on with. -/
def talkAfter : DriveAt γ α ⊕ WasiGuestSlot γ × DriveEnd → Talk γ α
  | .inl drive => drive.talk
  | .inr (slot, .budgetExpired) => .running slot.guest
  | .inr (_, .guestFailed) | .inr (_, .endpointFailed) | .inr (_, .exit) => .ended

/-- **One turn** of the loop is a turn of the conversation. -/
theorem conversation_driveTurn (drive : DriveAt γ α) :
    (driveTurn rt ep e drive).1.conversation (talkAfter (driveTurn rt ep e drive).2) =
      (e.conversation drive.talk).next rt ep := by
  obtain ⟨init, resume, completeImport, completeMemoryGrow⟩ := rt
  obtain ⟨send, recv⟩ := ep
  cases drive with
  | resume slot =>
      unfold driveTurn Conversation.next
      dsimp only [DriveAt.talk, CanonicalWasiEngine.conversation]
      rcases resume slot.guest with ⟨guest, none | step⟩
      · rfl
      · cases step <;> rfl
  | sendImport slot pending =>
      unfold driveTurn Conversation.next CanonicalWasiEngine.send
      dsimp only [DriveAt.talk, CanonicalWasiEngine.conversation, Exchange.request]
      rcases send e.endpoint _ _ with ⟨endpoint, _ | _⟩ <;> rfl
  | sendMemoryGrow slot request =>
      unfold driveTurn Conversation.next CanonicalWasiEngine.send
      dsimp only [DriveAt.talk, CanonicalWasiEngine.conversation, Exchange.request]
      rcases send e.endpoint _ _ with ⟨endpoint, _ | _⟩ <;> rfl
  | recvImport slot pending =>
      unfold driveTurn Conversation.next CanonicalWasiEngine.recv
      dsimp only [DriveAt.talk, CanonicalWasiEngine.conversation]
      rw [recvWasiImportCompletion_reply]
      rcases recv e.endpoint _ with ⟨endpoint, none | value⟩
      · rfl
      · dsimp only [Exchange.complete]
        rcases completeImport pending slot.guest _ with ⟨guest, _ | _⟩ <;> rfl
  | recvMemoryGrow slot request =>
      unfold driveTurn Conversation.next CanonicalWasiEngine.recv
      dsimp only [DriveAt.talk, CanonicalWasiEngine.conversation, Exchange.reply,
        recvMemoryGrowDecision]
      rcases recv e.endpoint _ with ⟨endpoint, none | value⟩
      · rfl
      · dsimp only [Exchange.complete]
        rcases completeMemoryGrow request slot.guest _ with ⟨guest, _ | _⟩ <;> rfl

/-- **One turn.**  A step of `drive_wasi_guest` is a turn of the conversation. -/
theorem conversation_driveWasiGuest (drive : DriveAt γ α) :
    Driven.conversation rt WasiGuestStatus.expired (driveWasiGuest rt ep e drive) =
      (e.conversation drive.talk).next rt ep := by
  rw [driveWasiGuest_eq, ← conversation_driveTurn]
  rcases driveTurn rt ep e drive with ⟨e', drive' | ⟨slot, why⟩⟩
  · rfl
  · cases why <;> rfl

/-- A step of `drive_wasi_guest_blocking` is the same turn. -/
theorem conversation_driveWasiGuestBlocking (drive : DriveAt γ α) :
    Driven.conversation rt EmbeddedWasiGuestStatus.expired (driveWasiGuestBlocking rt ep e drive) =
      (e.conversation drive.talk).next rt ep := by
  rw [driveWasiGuestBlocking_eq, ← conversation_driveTurn]
  rcases driveTurn rt ep e drive with ⟨e', drive' | ⟨slot, why⟩⟩
  · rfl
  · cases why <;> rfl

end HibanaPico.Appkit
