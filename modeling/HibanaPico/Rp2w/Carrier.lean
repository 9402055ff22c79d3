import HibanaPico.Rp2w.Accumulator

/-!
# Rp2w — Carrier

`SioTransport` of the RP2350: frames to a role on the other core go word by word through the
inter-core FIFO, frames to a role on the same core to its stash slot.  The loops of `poll_send`
and `poll_recv` push and pop one word a turn; between two turns the other core may do anything, so
a turn is a step.  The depth of the FIFO is a parameter: 4 on the RP2350, and 0 for the host
build, whose `try_push` always fails.

* `pollSend`, `sendTurn`, `cancelSend`: the sending calls.
* `pollRecv`, `recvTurn`, `recvAwait`: the receiving calls.
-/

namespace HibanaPico.Rp2w
open HibanaPico.Support
open HibanaPico.Transport
open HibanaPico.Sio

/-- The FIFOs, by the core that writes them; the accumulators and the stashes, by the core that
owns them. -/
structure SioStatics where
  fifo : Core → List U32
  accum : Core → SioRxAccumulator
  stash : Core → Fin 16 → Option DecodedSioFrame

def SioStatics.init : SioStatics :=
  { fifo := fun _ => [], accum := fun _ => .empty, stash := fun _ _ => none }

/-- `rp2w_role_core`; `none` is its panic. -/
def rp2wRoleCore (role : U8) : Option Core :=
  if role = 0 ∨ role = 2 then some .core0 else if role = 1 then some .core1 else none

namespace SioStatics

/-- `take_stashed_frame`. -/
def takeStashedFrame (st : SioStatics) (core : Core) (role : U8) :
    Option (SioStatics × DecodedSioFrame) :=
  if h : role.toNat < 16 then
    (st.stash core ⟨role.toNat, h⟩).map fun frame =>
      ({ st with
          stash := Function.update st.stash core
            (Function.update (st.stash core) ⟨role.toNat, h⟩ none) }, frame)
  else none

/-- `stash_frame`. -/
def stashFrame (st : SioStatics) (core : Core) (frame : DecodedSioFrame) :
    Except TransportError SioStatics :=
  if h : frame.peerRole.toNat < 16 then
    match st.stash core ⟨frame.peerRole.toNat, h⟩ with
    | some _ => .error .capacity
    | none =>
        .ok { st with
          stash := Function.update st.stash core
            (Function.update (st.stash core) ⟨frame.peerRole.toNat, h⟩ (some frame)) }
  else .error .capacity

/-- `fifo::try_push`, with `depth` words of room. -/
def tryPush (st : SioStatics) (depth : ℕ) (core : Core) (word : U32) : Option SioStatics :=
  if (st.fifo core).length < depth then
    some { st with fifo := Function.update st.fifo core (st.fifo core ++ [word]) }
  else none

/-- `fifo::try_pop`. -/
def tryPop (st : SioStatics) (core : Core) : Option (SioStatics × U32) :=
  match st.fifo core.peer with
  | [] => none
  | word :: rest => some ({ st with fifo := Function.update st.fifo core.peer rest }, word)

end SioStatics

/-- The Tx of a port.  A pending frame is never to the role of its own Tx. -/
structure SioTx where
  localRole : U8
  coreId : Core
  sessionId : U32
  pending : Option { p : PendingTxFrame // localRole ≠ p.peerRole }

/-- The frame that a Tx sends with a pending one. -/
def SioTx.frame (tx : SioTx) (p : { p : PendingTxFrame // tx.localRole ≠ p.peerRole }) :
    WordFrame :=
  ⟨p.1.frame tx.sessionId tx.localRole, p.2⟩

/-- `open` and `open_with_tx_session_xor`: the first is the second with nothing to xor and no
deadline. -/
def openWithTxSessionXor (core : Core) (port : PortOpen) (txSessionXor : U32)
    (operationalDeadlineTicks : U32) : SioTx × SioRx :=
  ({ localRole := port.localRole, coreId := core, sessionId := port.sessionId ^^^ txSessionXor,
      pending := none },
    .new port.localRole port.sessionId port.lane operationalDeadlineTicks core)

/-! ### Sending -/

/-- Where `poll_send` stands: it has answered, or is at the top of its loop. -/
inductive SendPhase where
  | answer (answer : SendAnswer)
  | push
  deriving DecidableEq

/-- `poll_send` to a role on the same core. -/
def sendStash (st : SioStatics) (tx : SioTx) (outgoing : Outgoing)
    (fits : outgoing.payload.length ≤ sioFrameBytes) : SioStatics × SioTx × SendPhase :=
  match st.stashFrame tx.coreId
    { sessionId := tx.sessionId, senderRole := tx.localRole, peerRole := outgoing.targetRole,
      frameLabel := outgoing.frameLabel, lane := outgoing.lane,
      payload := ⟨outgoing.payload, fits⟩ } with
  | .error e => (st, tx, .answer (.ready (.error e)))
  | .ok st => (st, tx, .answer (.ready (.ok ())))

/-- `poll_send` to a role on the other core, up to its loop: a Tx with a pending frame keeps it. -/
def sendFifo (st : SioStatics) (tx : SioTx) (outgoing : Outgoing)
    (fits : outgoing.payload.length ≤ sioFrameBytes) (other : tx.localRole ≠ outgoing.targetRole) :
    SioStatics × SioTx × SendPhase :=
  match tx.pending with
  | some _ => (st, tx, .push)
  | none =>
      (st,
        { tx with
          pending := some
            ⟨.new outgoing.targetRole outgoing.frameLabel outgoing.lane ⟨outgoing.payload, fits⟩,
              other⟩ },
        .push)

/-- `poll_send`, up to its loop; `none` is a panic. -/
def pollSend (st : SioStatics) (tx : SioTx) (outgoing : Outgoing) :
    Option (SioStatics × SioTx × SendPhase) :=
  if hself : tx.localRole = outgoing.targetRole then some (st, tx, .answer (.ready (.ok ())))
  else if h : outgoing.payload.length > sioFrameBytes then
    some (st, tx, .answer (.ready (.error .capacity)))
  else
    (rp2wRoleCore outgoing.targetRole).map fun core =>
      if core = tx.coreId then sendStash st tx outgoing (Outgoing.payload_le h)
      else sendFifo st tx outgoing (Outgoing.payload_le h) hself

/-- A turn of the loop of `poll_send`: the next word of the pending frame, if the FIFO has room. -/
def sendTurn (st : SioStatics) (depth : ℕ) (tx : SioTx) : SioStatics × SioTx × SendPhase :=
  match tx.pending with
  | none => (st, tx, .answer (.ready (.error .failed)))
  | some p =>
      if p.1.wordIndex ≥ p.1.totalWords then
        (st, { tx with pending := none }, .answer (.ready (.ok ())))
      else
        match st.tryPush depth tx.coreId (p.1.word tx.sessionId tx.localRole p.1.wordIndex) with
        | none => (st, tx, .answer .pending)
        | some st =>
            (st,
              { tx with pending := some ⟨{ p.1 with wordIndex := p.1.wordIndex + 1 }, p.2⟩ },
              .push)

/-- `cancel_send`. -/
def cancelSend (tx : SioTx) : SioTx := { tx with pending := none }

/-! ### Receiving -/

/-- `poll_recv` with the role's stash slot looked up. -/
def recvStash (st : SioStatics) (rx : SioRx) : SioStatics × SioRx × RecvPhase :=
  match st.takeStashedFrame rx.coreId rx.localRole with
  | none => (st, rx, .scan)
  | some (st, frame) =>
      if frame.lane ≠ rx.lane then
        match st.stashFrame rx.coreId frame with
        | .error e => (st, rx, .answer (.ready (.error e)))
        | .ok st => (st, rx, .answer .pending)
      else (st, deliver rx frame)

/-- `poll_recv`, up to its loop. -/
def pollRecv (st : SioStatics) (rx : SioRx) : SioStatics × SioRx × RecvPhase :=
  match rx.frameLabel with
  | some frameLabel =>
      if rx.requeued || !rx.delivered then
        let rx := { rx with requeued := false, delivered := true }
        (st, rx, .answer (.ready (.ok (rx.received frameLabel))))
      else recvStash st (forgetDelivered rx)
  | none => recvStash st (forgetDelivered rx)

/-- What the loop does with a decoded frame: another role's or lane's goes to the stash, and the
loop goes on. -/
def recvTaken (st : SioStatics) (rx : SioRx) (frame : DecodedSioFrame) :
    SioStatics × SioRx × RecvPhase :=
  if frame.peerRole ≠ rx.localRole ∨ frame.lane ≠ rx.lane then
    match st.stashFrame rx.coreId frame with
    | .error e => (st, rx, .answer (.ready (.error e)))
    | .ok st => (st, rx, .scan)
  else (st, deliver rx frame)

/-- What the loop does with a word it popped: the accumulator of the core takes it. -/
def recvWord (st : SioStatics) (rx : SioRx) (word : U32) : SioStatics × SioRx × RecvPhase :=
  let (acc, answer) := (st.accum rx.coreId).pushWord word
  let st := { st with accum := Function.update st.accum rx.coreId acc }
  match answer with
  | .ok (some frame) => recvTaken st rx frame
  | .ok none => (st, rx, .scan)
  | .error e => (st, rx, .answer (.ready (.error e)))

/-- A turn of the loop of `poll_recv`. -/
def recvTurn (st : SioStatics) (rx : SioRx) : SioStatics × SioRx × RecvPhase :=
  match st.tryPop rx.coreId with
  | some (st, word) => recvWord st rx word
  | none =>
      if rx.operationalDeadlineTicks ≠ 0 then (st, rx, .await)
      else (st, rx, .answer .pending)

/-- A turn of `try_pop_until_deadline`, with `rp2w_timer_route_ready`. -/
def recvAwait (st : SioStatics) (rx : SioRx) (timerReady : Bool) :
    SioStatics × SioRx × RecvPhase :=
  match st.tryPop rx.coreId with
  | some (st, word) => recvWord st rx word
  | none =>
      if timerReady then (st, rx, .answer (.ready (.error .deadline))) else (st, rx, .await)

end HibanaPico.Rp2w
