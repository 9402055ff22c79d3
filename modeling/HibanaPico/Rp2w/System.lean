import HibanaPico.Rp2w.Carrier
import HibanaPico.Support.Runs

/-!
# Rp2w — System

The two cores as a machine.  A core does one call at a time; between two turns of a loop the other
core may do anything.  An observer notes, for the words each core writes, what was pushed and
popped, what the accumulator at the far end answered, which sends were answered `Ok`, and how many
words of a frame were out when it was cancelled.

* `sioMachine`: the calls of any number of ports, on either core.
* `Stream`: what the observer has noted of the words of one core.
* `Repolls`: the callers' side — a caller that got `Pending` polls with the same frame again or
  cancels.
-/

namespace HibanaPico.Rp2w
open HibanaPico.Support
open HibanaPico.Transport
open HibanaPico.Sio

/-- The words one core writes, as an observer notes them. -/
structure Stream where
  pushed : List U32
  popped : List U32
  /-- What the far accumulator answered to each word popped. -/
  answers : List SioRxAccumulator.Answer
  /-- The frames of the sends through the FIFO answered `Ok`. -/
  completed : List WordFrame
  /-- For each cancel, how many words of the Tx's frame were pushed. -/
  cancelled : List ℕ

def Stream.init : Stream :=
  { pushed := [], popped := [], answers := [], completed := [], cancelled := [] }

/-- The call a core is in the loop of. -/
inductive Call where
  | send (port : ℕ) (outgoing : Outgoing)
  | recv (port : ℕ) (awaiting : Bool)
  deriving DecidableEq

structure SioState where
  st : SioStatics
  txs : List SioTx
  rxs : List SioRx
  busy : Core → Option Call
  /-- The frame of a send that is neither answered nor cancelled. -/
  inflight : ℕ → Option Outgoing
  stream : Core → Stream

def SioState.init : SioState :=
  { st := .init, txs := [], rxs := [], busy := fun _ => none, inflight := fun _ => none,
    stream := fun _ => .init }

inductive SioAction where
  /-- Opens the next port. -/
  | open (core : Core) (as : PortOpen) (txSessionXor : U32) (operationalDeadlineTicks : U32)
  | pollSend (port : ℕ) (outgoing : Outgoing)
  | cancelSend (port : ℕ)
  | pollRecv (port : ℕ)
  /-- One turn of the loop the core is in. -/
  | turn (core : Core) (timerReady : Bool)
  | requeue (port : ℕ)
  deriving DecidableEq

/-- The frame of a call through the FIFO. -/
def callFrame (tx : SioTx) (o : Outgoing) : Option WordFrame :=
  if h : o.payload.length ≤ sioFrameBytes ∧ tx.localRole ≠ o.targetRole then
    some ⟨{ sessionId := tx.sessionId, senderRole := tx.localRole, peerRole := o.targetRole,
            frameLabel := o.frameLabel, lane := o.lane, payload := ⟨o.payload, h.1⟩ }, h.2⟩
  else none

/-- How many words of its pending frame a Tx has pushed. -/
def SioTx.wordsOut (tx : SioTx) : ℕ :=
  match tx.pending with
  | some p => p.1.wordIndex
  | none => 0

/-- A `poll_send` has come up to its loop, or answered. -/
def SioState.sendStarted (s : SioState) (port : ℕ) (o : Outgoing) (st : SioStatics) (tx : SioTx)
    (phase : SendPhase) : SioState :=
  { s with
    st
    txs := s.txs.set port tx
    busy := Function.update s.busy tx.coreId (if phase = .push then some (.send port o) else none)
    inflight := Function.update s.inflight port (if phase = .push then some o else none) }

/-- What the observer notes of a turn of `poll_send`. -/
def Stream.noteSend (l : Stream) (before after : List U32) (tx : SioTx) (o : Outgoing)
    (phase : SendPhase) : Stream :=
  { l with
    pushed := l.pushed ++ after.drop before.length
    completed :=
      if phase = .answer (.ready (.ok ())) then l.completed ++ (callFrame tx o).toList
      else l.completed }

/-- A turn of `poll_send` is done. -/
def SioState.sendTurned (s : SioState) (port : ℕ) (o : Outgoing) (st : SioStatics) (tx : SioTx)
    (phase : SendPhase) : SioState :=
  { s with
    st
    txs := s.txs.set port tx
    busy := Function.update s.busy tx.coreId (if phase = .push then some (.send port o) else none)
    inflight := Function.update s.inflight port
      (if phase = .push ∨ phase = .answer .pending then some o else none)
    stream := Function.update s.stream tx.coreId
      ((s.stream tx.coreId).noteSend (s.st.fifo tx.coreId) (st.fifo tx.coreId) tx o phase) }

/-- What the observer notes of a part of `poll_recv`: the word popped, if one was, and the answer
of the accumulator to it. -/
def Stream.noteRecv (l : Stream) (before after : List U32) (acc : SioRxAccumulator) : Stream :=
  let popped := before.take (before.length - after.length)
  { l with
    popped := l.popped ++ popped
    answers := l.answers ++ (wordDecoder.feed acc popped).2 }

/-- A part of `poll_recv` is done. -/
def SioState.received (s : SioState) (port : ℕ) (st : SioStatics) (rx : SioRx)
    (phase : RecvPhase) : SioState :=
  let writer := rx.coreId.peer
  { s with
    st
    rxs := s.rxs.set port rx
    busy := Function.update s.busy rx.coreId (match phase with
      | .answer _ => none
      | .scan => some (.recv port false)
      | .await => some (.recv port true))
    stream := Function.update s.stream writer
      ((s.stream writer).noteRecv (s.st.fifo writer) (st.fifo writer) (s.st.accum rx.coreId)) }

/-- A send is cancelled. -/
def SioState.cancelled (s : SioState) (port : ℕ) (tx : SioTx) : SioState :=
  { s with
    txs := s.txs.set port (cancelSend tx)
    inflight := Function.update s.inflight port none
    stream := Function.update s.stream tx.coreId
      { s.stream tx.coreId with cancelled := (s.stream tx.coreId).cancelled ++ [tx.wordsOut] } }

/-- A port is polled, cancelled and requeued on the core that opened it. -/
def sioNext (depth : ℕ) (s : SioState) : SioAction → Option SioState
  | .open core as txSessionXor operationalDeadlineTicks =>
      if s.busy core = none then
        let (tx, rx) := openWithTxSessionXor core as txSessionXor operationalDeadlineTicks
        some { s with
          txs := s.txs ++ [tx]
          rxs := s.rxs ++ [rx]
          inflight := Function.update s.inflight s.txs.length none }
      else none
  | .pollSend port o =>
      s.txs[port]?.bind fun tx =>
        if s.busy tx.coreId = none then
          (pollSend s.st tx o).map fun (st, tx, phase) => s.sendStarted port o st tx phase
        else none
  | .cancelSend port =>
      s.txs[port]?.bind fun tx =>
        if s.busy tx.coreId = none then some (s.cancelled port tx) else none
  | .pollRecv port =>
      s.rxs[port]?.bind fun rx =>
        if s.busy rx.coreId = none then
          let (st, rx, phase) := pollRecv s.st rx
          some (s.received port st rx phase)
        else none
  | .turn core timerReady =>
      match s.busy core with
      | none => none
      | some (.send port o) =>
          s.txs[port]?.map fun tx =>
            let (st, tx, phase) := sendTurn s.st depth tx
            s.sendTurned port o st tx phase
      | some (.recv port awaiting) =>
          s.rxs[port]?.map fun rx =>
            let (st, rx, phase) := if awaiting then recvAwait s.st rx timerReady
              else recvTurn s.st rx
            s.received port st rx phase
  | .requeue port =>
      s.rxs[port]?.bind fun rx =>
        if s.busy rx.coreId = none then
          some { s with rxs := s.rxs.set port (requeue rx) }
        else none

def sioMachine (depth : ℕ) : Machine SioState SioAction := ⟨sioNext depth⟩

/-- A caller that got `Pending` polls the Tx with the same frame again, or cancels. -/
def Repolls (s : SioState) : SioAction → Prop
  | .pollSend port o => ∀ o', s.inflight port = some o' → o = o'
  | _ => True

instance (s : SioState) : ∀ a, Decidable (Repolls s a)
  | .pollSend port o => inferInstanceAs (Decidable (∀ o' ∈ s.inflight port, o = o'))
  | .open _ _ _ _ | .cancelSend _ | .pollRecv _ | .turn _ _ | .requeue _ => isTrue trivial

end HibanaPico.Rp2w
