import HibanaPico.Baker.Carrier
import HibanaPico.Support.Runs

/-!
# Baker — System

The two cores as a machine.  A core does one call at a time; between two turns of the loop of its
`poll_recv` the other core may do anything.  An observer writes a ledger: the sends answered `Ok`,
and, by comparing the places before and after a call, the frames that entered a place or left it;
what each port was handed last and had requeued since; and the core each Rx is at work on.

* `sioMachine`: the calls of any number of ports, on either core.
* `Ledger`: what the observer has written.
* `WithinRoles`, `Repolls`: the callers' side — targets are roles of the board, and a caller that
  got `Pending` polls with the same frame again or cancels.
-/

namespace HibanaPico.Baker
open HibanaPico.Support
open HibanaPico.Transport
open HibanaPico.Sio

/-- A `Ready(Ok(..))` of `poll_recv`: the port, with the role and lane it was opened for, and the
frame. -/
structure Delivery where
  port : ℕ
  role : U8
  lane : U8
  received : ReceivedFrame
  deriving DecidableEq, Repr

/-- A frame that left its place in a `poll_recv` answered with an error; `blocking` is what the
stash slot of the frame's role held on that core. -/
structure Discard where
  frame : DecodedSioFrame
  error : TransportError
  blocking : Option DecodedSioFrame
  deriving DecidableEq, Repr

/-- A delivery with no frame leaving a place; `requeued` is what the port was handed last, if it
was requeued since. -/
structure Repeat where
  delivery : Delivery
  requeued : Option Delivery
  deriving DecidableEq, Repr

structure Ledger where
  /-- The sends answered `Ok`, in order. -/
  completed : List CompletedSend
  /-- The frames calls other than `poll_recv` put in a place. -/
  entered : List (Place × DecodedSioFrame)
  /-- The frames calls other than `poll_recv` took from a place. -/
  removed : List (Place × DecodedSioFrame)
  /-- Deliveries of a frame that left a place. -/
  delivered : List Delivery
  /-- Deliveries with no frame leaving a place. -/
  repeated : List Repeat
  discarded : List Discard
  /-- What a port was handed last. -/
  handed : ℕ → Option Delivery
  /-- What a port was handed last, if it was requeued since. -/
  requeued : ℕ → Option Delivery
  /-- The roles with an Rx opened or polled on a core. -/
  receivers : List (U8 × Core)

def Ledger.init : Ledger :=
  { completed := [], entered := [], removed := [], delivered := [], repeated := [],
    discarded := [], handed := fun _ => none, requeued := fun _ => none, receivers := [] }

/-- Note a call other than `poll_recv`. -/
def Ledger.noteCall (l : Ledger) (before after : SioStatics) : Ledger :=
  { l with
    entered := l.entered ++ Slots.appeared Place.all before.frames after.frames
    removed := l.removed ++ Slots.vanished Place.all before.frames after.frames }

/-- Note a `poll_send`. -/
def Ledger.noteSend (l : Ledger) (before after : SioStatics) (tx : SioTx) (o : Outgoing) :
    SendAnswer → Ledger
  | .ready (.ok ()) =>
      { l.noteCall before after with
        completed := l.completed ++ [
          { sessionId := tx.sessionId, senderRole := tx.localRole, targetRole := o.targetRole,
            frameLabel := o.frameLabel, payload := o.payload }] }
  | _ => l.noteCall before after

/-- What the stash slot of a frame's role holds on a core. -/
def SioStatics.blocking (st : SioStatics) (core : Core) (f : DecodedSioFrame) :
    Option DecodedSioFrame :=
  (bakerRoleStashIndex f.peerRole).bind fun index => st.frames (.stash core index)

/-- Note a delivery of a frame that left its place; nothing of the port is requeued any more. -/
def Ledger.noteDelivered (l : Ledger) (d : Delivery) : Ledger :=
  { l with
    delivered := l.delivered ++ [d]
    handed := Function.update l.handed d.port (some d)
    requeued := Function.update l.requeued d.port none }

/-- Note a delivery with no frame leaving a place; nothing of the port is requeued any more. -/
def Ledger.noteRepeated (l : Ledger) (d : Delivery) : Ledger :=
  { l with
    repeated := l.repeated ++ [{ delivery := d, requeued := l.requeued d.port }]
    handed := Function.update l.handed d.port (some d)
    requeued := Function.update l.requeued d.port none }

/-- Note a `requeue`. -/
def Ledger.noteRequeue (l : Ledger) (port : ℕ) : Ledger :=
  { l with requeued := Function.update l.requeued port (l.handed port) }

/-- Note the core an Rx is at work on. -/
def Ledger.noteReceiver (l : Ledger) (rx : SioRx) : Ledger :=
  { l with receivers := (rx.localRole, rx.coreId) :: l.receivers }

/-- Note a part of a `poll_recv`. -/
def Ledger.noteRecv (l : Ledger) (before after : SioStatics) (port : ℕ) (rx : SioRx) :
    RecvPhase → Ledger
  | .answer (.ready (.ok received)) =>
      let delivery : Delivery := { port, role := rx.localRole, lane := rx.lane, received }
      if Slots.vanished Place.all before.frames after.frames = [] then l.noteRepeated delivery
      else l.noteDelivered delivery
  | .answer (.ready (.error error)) =>
      { l with
        discarded := l.discarded ++
          (Slots.vanished Place.all before.frames after.frames).map fun e =>
            { frame := e.2, error, blocking := before.blocking rx.coreId e.2 } }
  | _ => l

structure SioState where
  st : SioStatics
  txs : ℕ → Option SioTx
  rxs : ℕ → Option SioRx
  /-- The port a core is in the loop of `poll_recv` for, and whether it awaits the deadline. -/
  busy : Core → Option (ℕ × Bool)
  /-- The frame of a send answered `Pending` and neither finished nor cancelled. -/
  inflight : ℕ → Option Outgoing
  ledger : Ledger

def SioState.init : SioState :=
  { st := .init, txs := fun _ => none, rxs := fun _ => none, busy := fun _ => none,
    inflight := fun _ => none, ledger := .init }

inductive SioAction where
  | open (core : Core) (port : ℕ) (as : PortOpen)
  | openWithTxSessionXor (core : Core) (port : ℕ) (as : PortOpen) (txSessionXor : U32)
      (operationalDeadlineTicks : U32)
  | pollSend (core : Core) (port : ℕ) (outgoing : Outgoing)
  | cancelSend (core : Core) (port : ℕ)
  | pollRecv (core : Core) (port : ℕ)
  /-- One turn of the loop of the `poll_recv` the core is in. -/
  | recvTurn (core : Core) (timerReady : Bool)
  | requeue (core : Core) (port : ℕ)
  deriving DecidableEq

/-- A core is between calls. -/
def SioState.Free (s : SioState) (core : Core) : Prop := s.busy core = none

instance (s : SioState) (core : Core) : Decidable (s.Free core) :=
  inferInstanceAs (Decidable (_ = _))

/-- The core is between calls, and its peer is not in a `poll_recv` of the port. -/
def SioState.Owns (s : SioState) (core : Core) (port : ℕ) : Prop :=
  s.Free core ∧ (s.busy core.peer).map Prod.fst ≠ some port

instance (s : SioState) (core : Core) (port : ℕ) : Decidable (s.Owns core port) :=
  inferInstanceAs (Decidable (_ ∧ _))

/-- A port is opened. -/
def SioState.opened (s : SioState) (port : ℕ) (st : SioStatics) (tx : SioTx) (rx : SioRx) :
    SioState :=
  { s with
    st
    txs := Function.update s.txs port (some tx)
    rxs := Function.update s.rxs port (some rx)
    inflight := Function.update s.inflight port none
    ledger := (s.ledger.noteCall s.st st).noteReceiver rx }

/-- A `poll_send` has answered. -/
def SioState.sent (s : SioState) (port : ℕ) (o : Outgoing) (st : SioStatics) (tx : SioTx)
    (answer : SendAnswer) : SioState :=
  { s with
    st
    txs := Function.update s.txs port (some tx)
    inflight := Function.update s.inflight port (if answer = .pending then some o else none)
    ledger := s.ledger.noteSend s.st st tx o answer }

def SioState.cancelled (s : SioState) (port : ℕ) (st : SioStatics) (tx : SioTx) : SioState :=
  { s with
    st
    txs := Function.update s.txs port (some tx)
    inflight := Function.update s.inflight port none
    ledger := s.ledger.noteCall s.st st }

/-- A core has done a part of `poll_recv`. -/
def SioState.received (s : SioState) (core : Core) (port : ℕ) (st : SioStatics) (rx : SioRx)
    (phase : RecvPhase) : SioState :=
  { s with
    st
    rxs := Function.update s.rxs port (some rx)
    busy := Function.update s.busy core (match phase with
      | .answer _ => none
      | .scan => some (port, false)
      | .await => some (port, true))
    ledger := (s.ledger.noteRecv s.st st port rx phase).noteReceiver rx }

/-- A port is requeued. -/
def SioState.requeued (s : SioState) (port : ℕ) (rx : SioRx) : SioState :=
  { s with
    rxs := Function.update s.rxs port (some rx)
    ledger := s.ledger.noteRequeue port }

def sioNext (s : SioState) : SioAction → Option SioState
  | .open core port as =>
      if s.Free core ∧ (s.txs port).isNone ∧ (s.rxs port).isNone then
        (openPort s.st core as).map fun (st, tx, rx) => s.opened port st tx rx
      else none
  | .openWithTxSessionXor core port as txSessionXor operationalDeadlineTicks =>
      if s.Free core ∧ (s.txs port).isNone ∧ (s.rxs port).isNone then
        let (tx, rx) := openWithTxSessionXor core as txSessionXor operationalDeadlineTicks
        some (s.opened port s.st tx rx)
      else none
  | .pollSend core port o =>
      if s.Free core then
        (s.txs port).bind fun tx =>
          (pollSend s.st core tx o).map fun (st, tx, answer) => s.sent port o st tx answer
      else none
  | .cancelSend core port =>
      if s.Free core then
        (s.txs port).map fun tx =>
          let (st, tx) := cancelSend s.st tx
          s.cancelled port st tx
      else none
  | .pollRecv core port =>
      if s.Owns core port then
        (s.rxs port).bind fun rx =>
          (pollRecv s.st core rx).map fun (st, rx, phase) => s.received core port st rx phase
      else none
  | .recvTurn core timerReady =>
      (s.busy core).bind fun (port, awaiting) =>
        (s.rxs port).map fun rx =>
          let (st, rx, phase) := if awaiting then recvAwait s.st rx timerReady else recvScan s.st rx
          s.received core port st rx phase
  | .requeue core port =>
      if s.Owns core port then
        (s.rxs port).map fun rx => s.requeued port (requeue rx)
      else none

def sioMachine : Machine SioState SioAction := ⟨sioNext⟩

/-- Sends are to roles of the board. -/
def WithinRoles (_ : SioState) : SioAction → Prop
  | .pollSend _ _ o => o.targetRole.toNat < 3
  | _ => True

/-- A caller that got `Pending` polls the Tx with the same frame again, or cancels. -/
def Repolls (s : SioState) : SioAction → Prop
  | .pollSend _ port o => ∀ o', s.inflight port = some o' → o = o'
  | _ => True

instance (s : SioState) : ∀ a, Decidable (WithinRoles s a)
  | .pollSend _ _ o => inferInstanceAs (Decidable (o.targetRole.toNat < 3))
  | .open _ _ _ | .openWithTxSessionXor _ _ _ _ _ | .cancelSend _ _ | .pollRecv _ _
  | .recvTurn _ _ | .requeue _ _ => isTrue trivial

instance (s : SioState) : ∀ a, Decidable (Repolls s a)
  | .pollSend _ port o =>
      match h : s.inflight port with
      | none => isTrue fun o' ho' => by rw [h] at ho'; cases ho'
      | some o' => decidable_of_iff (o = o')
          ⟨fun e o'' ho'' => by rw [h] at ho''; cases ho''; exact e, fun H => H o' h⟩
  | .open _ _ _ | .openWithTxSessionXor _ _ _ _ _ | .cancelSend _ _ | .pollRecv _ _
  | .recvTurn _ _ | .requeue _ _ => isTrue trivial

end HibanaPico.Baker
