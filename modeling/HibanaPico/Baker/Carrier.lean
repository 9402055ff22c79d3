import HibanaPico.Baker.Mailbox
import HibanaPico.Support.Slots

/-!
# Baker — Carrier

`SioTransport`: the calls of the RP2040 carrier on the statics the two cores share.  A call is one
step, except `poll_recv`, whose loop takes from the mailbox any number of times: its parts are
`pollRecv`, up to the loop, and `recvScan`, one turn of it.  A mailbox is a place for one frame,
as `Baker.Mailbox` shows of its cells.

* `SioStatics`: who is attached where, and the frames in the mailboxes and the stashes.
* `pollSend`, `cancelSend`, `pollRecv`, `recvScan`, `requeue`: the calls.
-/

namespace HibanaPico.Baker
open HibanaPico.Support
open HibanaPico.Transport
open HibanaPico.Sio

/-- `core_mask`. -/
def coreMask : Core → U8
  | .core0 => 1
  | .core1 => 2

/-- A static that holds a frame: the mailbox a core publishes to, or a role's stash slot on a
core. -/
inductive Place where
  | outbound (core : Core)
  | stash (core : Core) (role : Fin 3)
  deriving DecidableEq, Repr

def Place.all : List Place :=
  [.outbound .core0, .outbound .core1, .stash .core0 0, .stash .core0 1, .stash .core0 2,
    .stash .core1 0, .stash .core1 1, .stash .core1 2]

theorem Place.nodup_all : Place.all.Nodup := by decide

theorem Place.mem_all : ∀ p : Place, p ∈ Place.all
  | .outbound .core0 | .outbound .core1 => by decide
  | .stash .core0 role => by revert role; decide
  | .stash .core1 role => by revert role; decide

instance : Fintype Place := ⟨⟨Place.all, Place.nodup_all⟩, Place.mem_all⟩

/-- The core whose `poll_recv` looks in the place. -/
def Place.reader : Place → Core
  | .outbound core => core.peer
  | .stash core _ => core

/-- A `poll_recv` of the role on the core looks in the place. -/
def Place.LookedAt (core : Core) (role : U8) : Place → Prop
  | .outbound writer => writer = core.peer
  | .stash owner index => owner = core ∧ role.toNat = index

theorem Place.LookedAt.reader {core : Core} {role : U8} : ∀ {p : Place}, p.LookedAt core role →
    p.reader = core
  | .outbound _, h => by
      obtain rfl := h
      exact core.peer_peer
  | .stash _ _, h => h.1

/-- The statics: `SIO_LOCAL_ROLE_CORE_MASKS`, `SIO_LOCAL_ROLE_LANES`, the two mailboxes and the
two stashes. -/
structure SioStatics where
  coreMasks : Fin 3 → U8
  lanes : Fin 3 → Core → U8
  frames : Place → Option DecodedSioFrame

def SioStatics.init : SioStatics :=
  { coreMasks := fun _ => 0, lanes := fun _ _ => 0, frames := fun _ => none }

/-- `baker_role_stash_index`. -/
def bakerRoleStashIndex (role : U8) : Option (Fin 3) :=
  if h : role.toNat < 3 then some ⟨role.toNat, h⟩ else none

namespace SioStatics

/-- `mark_local_role_attached`; `none` is its panic, for a role that is not 0, 1 or 2. -/
def markLocalRoleAttached (st : SioStatics) (core : Core) (role lane : U8) : Option SioStatics :=
  (bakerRoleStashIndex role).map fun index =>
    { st with
      coreMasks := Function.update st.coreMasks index (st.coreMasks index ||| coreMask core)
      lanes := Function.update st.lanes index (Function.update (st.lanes index) core lane) }

/-- `role_lane_on_core`. -/
def roleLaneOnCore (st : SioStatics) (role : U8) (core : Core) : Option U8 :=
  match bakerRoleStashIndex role with
  | none => none
  | some index =>
      if st.coreMasks index &&& coreMask core ≠ 0 then some (st.lanes index core) else none

/-- `take_stashed_frame`. -/
def takeStashedFrame (st : SioStatics) (core : Core) (role : U8) :
    Option (SioStatics × DecodedSioFrame) :=
  match bakerRoleStashIndex role with
  | none => none
  | some index =>
      (st.frames (.stash core index)).map fun frame =>
        ({ st with frames := Function.update st.frames (.stash core index) none }, frame)

/-- `stash_frame`. -/
def stashFrame (st : SioStatics) (core : Core) (frame : DecodedSioFrame) :
    Except TransportError SioStatics :=
  match bakerRoleStashIndex frame.peerRole with
  | none => .error .failed
  | some index =>
      match st.frames (.stash core index) with
      | some _ => .error .capacity
      | none =>
          .ok { st with frames := Function.update st.frames (.stash core index) (some frame) }

/-- `take_mailbox_frame`: the mailbox the other core publishes to is emptied. -/
def takeMailboxFrame (st : SioStatics) (core : Core) :
    SioStatics × Except TransportError (Option DecodedSioFrame) :=
  match st.frames (.outbound core.peer) with
  | none => (st, .ok none)
  | some frame =>
      ({ st with frames := Function.update st.frames (.outbound core.peer) none },
        if frame.senderRole = frame.peerRole then .error .failed else .ok (some frame))

/-- `clear_outbound_mailbox`. -/
def clearOutboundMailbox (st : SioStatics) (core : Core) : SioStatics :=
  { st with frames := Function.update st.frames (.outbound core) none }

end SioStatics

structure PendingMailboxFrame where
  peerRole : U8
  frameLabel : U8
  lane : U8
  published : Bool
  bytes : FrameBytes sioFrameBytes
  deriving DecidableEq, Repr

/-- `PendingMailboxFrame::new`. -/
def PendingMailboxFrame.new (peerRole frameLabel lane : U8) (bytes : List U8) :
    Except TransportError PendingMailboxFrame :=
  if h : bytes.length > sioFrameBytes then .error .capacity
  else .ok { peerRole, frameLabel, lane, published := false, bytes := ⟨bytes, Nat.not_lt.mp h⟩ }

/-- `publish_mailbox_frame`. -/
def SioStatics.publishMailboxFrame (st : SioStatics) (core : Core) (sessionId : U32)
    (localRole : U8) (frame : PendingMailboxFrame) : SioStatics × PendingMailboxFrame × Bool :=
  if frame.published then (st, frame, true)
  else
    match st.frames (.outbound core) with
    | some _ => (st, frame, false)
    | none =>
        ({ st with
            frames := Function.update st.frames (.outbound core) (some
              { sessionId, senderRole := localRole, peerRole := frame.peerRole,
                frameLabel := frame.frameLabel, lane := frame.lane, payload := frame.bytes }) },
          { frame with published := true }, true)

structure SioTx where
  localRole : U8
  coreId : Core
  lane : U8
  sessionId : U32
  pending : Option PendingMailboxFrame

/-- `open_with_tx_session_xor`, which attaches nobody. -/
def openWithTxSessionXor (core : Core) (port : PortOpen) (txSessionXor : U32)
    (operationalDeadlineTicks : U32) : SioTx × SioRx :=
  ({ localRole := port.localRole, coreId := core, lane := port.lane,
      sessionId := port.sessionId ^^^ txSessionXor, pending := none },
    .new port.localRole port.sessionId port.lane operationalDeadlineTicks core)

/-- `open`. -/
def openPort (st : SioStatics) (core : Core) (port : PortOpen) :
    Option (SioStatics × SioTx × SioRx) :=
  (st.markLocalRoleAttached core port.localRole port.lane).map fun st =>
    (st, { localRole := port.localRole, coreId := core, lane := port.lane,
           sessionId := port.sessionId, pending := none },
      .new port.localRole port.sessionId port.lane 0 core)

/-! ### Sending -/

/-- The end of `poll_send`, with a pending frame: published, or kept for the next poll. -/
def publishPending (st : SioStatics) (tx : SioTx) (pending : PendingMailboxFrame) :
    SioStatics × SioTx × SendAnswer :=
  match st.publishMailboxFrame tx.coreId tx.sessionId tx.localRole pending with
  | (st, pending, false) => (st, { tx with pending := some pending }, .pending)
  | (st, _, true) => (st, { tx with pending := none }, .ready (.ok ()))

/-- `poll_send` to a role that is not on the sender's core. -/
def sendMailbox (st : SioStatics) (tx : SioTx) (outgoing : Outgoing) :
    SioStatics × SioTx × SendAnswer :=
  match tx.pending with
  | some pending => publishPending st tx pending
  | none =>
      match PendingMailboxFrame.new outgoing.targetRole outgoing.frameLabel outgoing.lane
        outgoing.payload with
      | .error e => (st, tx, .ready (.error e))
      | .ok pending => publishPending st tx pending

/-- `poll_send` to a role on the sender's core: the frame goes to its stash slot, on the lane the
role was attached with last. -/
def sendStash (st : SioStatics) (tx : SioTx) (outgoing : Outgoing)
    (fits : outgoing.payload.length ≤ sioFrameBytes) (targetLane : U8) :
    SioStatics × SioTx × SendAnswer :=
  match st.stashFrame tx.coreId
    { sessionId := tx.sessionId, senderRole := tx.localRole, peerRole := outgoing.targetRole,
      frameLabel := outgoing.frameLabel, lane := targetLane,
      payload := ⟨outgoing.payload, fits⟩ } with
  | .error e => (st, tx, .ready (.error e))
  | .ok st => (st, tx, .ready (.ok ()))

/-- `poll_send` after the sender's role is marked attached. -/
def sendAttached (st : SioStatics) (tx : SioTx) (outgoing : Outgoing) :
    SioStatics × SioTx × SendAnswer :=
  if outgoing.targetRole = tx.localRole then (st, tx, .ready (.error .failed))
  else if h : outgoing.payload.length > sioFrameBytes then (st, tx, .ready (.error .capacity))
  else
    match st.roleLaneOnCore outgoing.targetRole tx.coreId with
    | some targetLane => sendStash st tx outgoing (Outgoing.payload_le h) targetLane
    | none => sendMailbox st tx outgoing

/-- `poll_send`, on a core; `none` is a panic. -/
def pollSend (st : SioStatics) (core : Core) (tx : SioTx) (outgoing : Outgoing) :
    Option (SioStatics × SioTx × SendAnswer) :=
  (st.markLocalRoleAttached core tx.localRole tx.lane).map fun st =>
    sendAttached st { tx with coreId := core } outgoing

/-- `cancel_send`. -/
def cancelSend (st : SioStatics) (tx : SioTx) : SioStatics × SioTx :=
  (match tx.pending with
    | some pending => if pending.published then st.clearOutboundMailbox tx.coreId else st
    | none => st,
    { tx with pending := none })

/-! ### Receiving -/

/-- `poll_recv` with the role's stash slot looked up. -/
def recvStash (st : SioStatics) (rx : SioRx) : SioStatics × SioRx × RecvPhase :=
  match st.takeStashedFrame rx.coreId rx.localRole with
  | none => (st, rx, .scan)
  | some (st, frame) =>
      if frame.lane ≠ rx.lane then
        match st.stashFrame rx.coreId frame with
        | .error e => (st, rx, .answer (.ready (.error e)))
        | .ok st => (st, rx, .answer .pending)
      else (st, deliver rx frame)

/-- `poll_recv` after the receiver's role is marked attached, up to its loop. -/
def recvAttached (st : SioStatics) (rx : SioRx) : SioStatics × SioRx × RecvPhase :=
  match rx.frameLabel with
  | some frameLabel =>
      if rx.requeued || !rx.delivered then
        let rx := { rx with requeued := false, delivered := true }
        (st, rx, .answer (.ready (.ok (rx.received frameLabel))))
      else recvStash st (forgetDelivered rx)
  | none => recvStash st (forgetDelivered rx)

/-- `poll_recv` on a core, up to its loop; `none` is a panic. -/
def pollRecv (st : SioStatics) (core : Core) (rx : SioRx) :
    Option (SioStatics × SioRx × RecvPhase) :=
  (st.markLocalRoleAttached core rx.localRole rx.lane).map fun st =>
    recvAttached st { rx with coreId := core }

/-- What the loop does with a frame it took: another role's or lane's goes to the stash, and the
loop goes on. -/
def recvTaken (st : SioStatics) (rx : SioRx) (frame : DecodedSioFrame) :
    SioStatics × SioRx × RecvPhase :=
  if frame.peerRole ≠ rx.localRole ∨ frame.lane ≠ rx.lane then
    match st.stashFrame rx.coreId frame with
    | .error e => (st, rx, .answer (.ready (.error e)))
    | .ok st => (st, rx, .scan)
  else (st, deliver rx frame)

/-- The top of the loop. -/
def recvScan (st : SioStatics) (rx : SioRx) : SioStatics × SioRx × RecvPhase :=
  match st.takeMailboxFrame rx.coreId with
  | (st, .ok (some frame)) => recvTaken st rx frame
  | (st, .error e) => (st, rx, .answer (.ready (.error e)))
  | (st, .ok none) =>
      if rx.operationalDeadlineTicks ≠ 0 then (st, rx, .await)
      else (st, rx, .answer .pending)

/-- A turn of `take_mailbox_until_deadline`, with `baker_timer_route_ready`. -/
def recvAwait (st : SioStatics) (rx : SioRx) (timerReady : Bool) :
    SioStatics × SioRx × RecvPhase :=
  match st.takeMailboxFrame rx.coreId with
  | (st, .ok (some frame)) => recvTaken st rx frame
  | (st, .error e) => (st, rx, .answer (.ready (.error e)))
  | (st, .ok none) =>
      if timerReady then (st, rx, .answer (.ready (.error .deadline))) else (st, rx, .await)

end HibanaPico.Baker
