import HibanaPico.Support.Replay
import HibanaPico.Support.Runs
import HibanaPico.UnoQ.ProofQueue

/-!
# Uno Q — ProofCarrier

The in-process carrier: one `ProofQueue` a role, shared by all its lanes.  `poll_send` appends to
the target role's queue, `poll_recv` takes the first frame of the port's lane, and `requeue` puts
the port's last frame back at the front — unless the queue is full, when `push_front` returns
without a word and `requeue` answers `Ok` all the same.

* `proofMachine`: the carrier with any number of ports, and for each role and lane the history of
  what its calls answered.
* `LaneExact`: the history is one of a first-in first-out queue with put-back, and the next
  `poll_recv` answers with the front of that queue.
* `ProofInv`: every queue is well formed, and the history of every lane leaves what its queue
  holds of the lane.
* `proofCarrier_exact`: in every run whose requeues find room, every lane is exact.
* `proofCarrier_loses`: a full queue between a receive and its requeue breaks it.
-/

namespace HibanaPico.UnoQ
open HibanaPico.Support
open HibanaPico.Transport

structure ProofTx where
  localRole : U8
  sessionId : U32
  lane : U8

structure ProofRx where
  localRole : U8
  sessionId : U32
  lane : U8
  sourceRole : U8
  frameLabel : Option U8
  hintFrameLabel : Option U8
  bytes : FrameBytes proofCarrierFrameBytes

/-- `ProofQueues::by_role`. -/
abbrev ProofQueues := Cells ProofQueue

/-- `ProofCarrier::open`. -/
def proofOpen (port : PortOpen) : ProofTx × ProofRx :=
  ({ localRole := port.localRole, sessionId := port.sessionId, lane := port.lane },
    { localRole := port.localRole, sessionId := port.sessionId, lane := port.lane,
      sourceRole := 0, frameLabel := none, hintFrameLabel := none,
      bytes := ⟨[], Nat.zero_le _⟩ })

/-- `proof_frame_header`. -/
def proofFrameHeader (sessionId : U32) (lane sourceRole peerRole frameLabel : U8) : FrameHeader :=
  { sessionId, lane, sourceRole, peerRole, frameLabel }

/-- `ProofCarrier::poll_send`. -/
def proofPollSend (queues : ProofQueues) (tx : ProofTx) (outgoing : Outgoing) :
    ProofQueues × Poll (Except TransportError Unit) :=
  if tx.sessionId = 0 ∨ outgoing.targetRole = tx.localRole ∨ outgoing.lane ≠ tx.lane then
    (queues, .ready (.error .failed))
  else
    let peer := outgoing.targetRole.toNat
    if peer ≥ proofCarrierRoles then (queues, .ready (.error .failed))
    else
      match (queues peer).pushBack outgoing.lane tx.localRole outgoing.frameLabel
        outgoing.payload with
      | .error e => (queues, .ready (.error e))
      | .ok queue => (Function.update queues peer queue, .ready (.ok ()))

/-- `ProofCarrier::poll_recv`. -/
def proofPollRecv (queues : ProofQueues) (rx : ProofRx) :
    ProofQueues × ProofRx × Poll (Except TransportError ReceivedFrame) :=
  if rx.sessionId = 0 then (queues, rx, .ready (.error .failed))
  else
    let localRole := rx.localRole.toNat
    if localRole ≥ proofCarrierRoles then (queues, rx, .ready (.error .failed))
    else
      match (queues localRole).popFront rx.lane with
      | (queue, none) => (Function.update queues localRole queue, rx, .pending)
      | (queue, some frame) =>
          (Function.update queues localRole queue,
            { rx with
              frameLabel := some frame.frameLabel
              sourceRole := frame.source
              hintFrameLabel := some frame.frameLabel
              bytes := frame.payload },
            .ready (.ok
              { header := proofFrameHeader rx.sessionId rx.lane frame.source rx.localRole
                  frame.frameLabel
                payload := frame.payload.1 }))

/-- The end of every carrier's `poll_recv`: the first frame of the port's lane leaves its role's
queue. -/
def popReceived (queues : ProofQueues) (rx : ProofRx) :
    ProofQueues × ProofRx × Poll (Except TransportError ReceivedFrame) :=
  match (queues rx.localRole.toNat).popFront rx.lane with
  | (queue, none) => (Function.update queues rx.localRole.toNat queue, rx, .pending)
  | (queue, some frame) =>
      (Function.update queues rx.localRole.toNat queue,
        { rx with
          frameLabel := some frame.frameLabel
          sourceRole := frame.source
          hintFrameLabel := some frame.frameLabel
          bytes := frame.payload },
        .ready (.ok
          { header := proofFrameHeader rx.sessionId rx.lane frame.source rx.localRole
              frame.frameLabel
            payload := frame.payload.1 }))

/-- `ProofCarrier::requeue`. -/
def proofRequeue (queues : ProofQueues) (rx : ProofRx) :
    ProofQueues × ProofRx × Except TransportError Unit :=
  match rx.frameLabel with
  | some frameLabel =>
      let localRole := rx.localRole.toNat
      let queues :=
        if localRole < proofCarrierRoles then
          Function.update queues localRole
            ((queues localRole).pushFront rx.lane rx.sourceRole frameLabel rx.bytes.1)
        else queues
      (queues, { rx with frameLabel := none, hintFrameLabel := none }, .ok ())
  | none => (queues, { rx with hintFrameLabel := none }, .ok ())

/-! ### Runs of the carrier -/

/-- A frame as its sender gave it and its receiver sees it: sender role, label, bytes. -/
structure LaneFrame where
  source : U8
  frameLabel : U8
  payload : List U8
  deriving DecidableEq, Repr

def LaneFrame.ofReceived (r : ReceivedFrame) : LaneFrame :=
  { source := r.header.sourceRole, frameLabel := r.header.frameLabel, payload := r.payload }

/-- The carrier, its ports, and what an observer of the calls has noted: the history of each
role and lane, and the frame each port was handed last and has not put back. -/
structure ProofState where
  queues : ProofQueues
  txs : ℕ → Option ProofTx
  rxs : ℕ → Option ProofRx
  history : U8 → U8 → List (QueueEvent LaneFrame)
  handed : ℕ → Option LaneFrame

def ProofState.init : ProofState :=
  { queues := fun _ => .empty, txs := fun _ => none, rxs := fun _ => none,
    history := fun _ _ => [], handed := fun _ => none }

/-- A call on a port. -/
inductive ProofAction where
  | open (port : ℕ) (as : PortOpen)
  | pollSend (port : ℕ) (outgoing : Outgoing)
  | cancelSend (port : ℕ)
  | pollRecv (port : ℕ)
  | requeue (port : ℕ)
  deriving DecidableEq

/-- Note an event of a role's lane. -/
def note (history : U8 → U8 → List (QueueEvent LaneFrame)) (role lane : U8)
    (e : QueueEvent LaneFrame) : U8 → U8 → List (QueueEvent LaneFrame) := fun r l =>
  if r = role ∧ l = lane then history r l ++ [e] else history r l

def proofNext (s : ProofState) : ProofAction → Option ProofState
  | .open port as =>
      if (s.txs port).isSome ∨ (s.rxs port).isSome then none
      else
        some { s with
          txs := Function.update s.txs port (some (proofOpen as).1)
          rxs := Function.update s.rxs port (some (proofOpen as).2)
          handed := Function.update s.handed port none }
  | .pollSend port outgoing => (s.txs port).map fun tx =>
      match proofPollSend s.queues tx outgoing with
      | (queues, .ready (.ok ())) =>
          { s with
            queues
            history := note s.history outgoing.targetRole outgoing.lane
              (.sent ⟨tx.localRole, outgoing.frameLabel, outgoing.payload⟩) }
      | (queues, _) => { s with queues }
  | .cancelSend port => (s.txs port).map fun _ => s
  | .pollRecv port => (s.rxs port).map fun rx =>
      match proofPollRecv s.queues rx with
      | (queues, rx', .ready (.ok frame)) =>
          { s with
            queues
            rxs := Function.update s.rxs port (some rx')
            history := note s.history rx.localRole rx.lane (.delivered (.ofReceived frame))
            handed := Function.update s.handed port (some (.ofReceived frame)) }
      | (queues, rx', _) => { s with queues, rxs := Function.update s.rxs port (some rx') }
  | .requeue port => (s.rxs port).map fun rx =>
      match proofRequeue s.queues rx, s.handed port with
      | (queues, rx', .ok ()), some frame =>
          { s with
            queues
            rxs := Function.update s.rxs port (some rx')
            history := note s.history rx.localRole rx.lane (.requeued frame)
            handed := Function.update s.handed port none }
      | (queues, rx', _), _ => { s with queues, rxs := Function.update s.rxs port (some rx') }

/-- `ProofCarrier` and its callers. -/
def proofMachine : Machine ProofState ProofAction := ⟨proofNext⟩

/-- What the next `poll_recv` of a port answers, when the frames of its lane that wait are `q`. -/
def expectedAnswer (rx : ProofRx) : List LaneFrame → Poll (Except TransportError ReceivedFrame)
  | [] => .pending
  | f :: _ => .ready (.ok
      { header := proofFrameHeader rx.sessionId rx.lane f.source rx.localRole f.frameLabel
        payload := f.payload })

/-- A port receives on a role's lane. -/
def Receives (s : ProofState) (role lane : U8) (port : ℕ) : Prop :=
  ∃ rx, s.rxs port = some rx ∧ rx.localRole = role ∧ rx.lane = lane

/-- At most one port receives on a role's lane. -/
def OneRx (s : ProofState) (role lane : U8) : Prop :=
  ∀ p p', Receives s role lane p → Receives s role lane p' → p = p'

/-- What an exact lane is, with `q` the frames of it that wait. -/
structure LaneExact (s : ProofState) (role lane : U8) (q : List LaneFrame) : Prop where
  /-- The history is that of a first-in first-out queue with put-back. -/
  replay : QueueEvent.replay (s.history role lane) = some q
  /-- A frame was delivered once for each send and requeue of it, unless it waits. -/
  count : ∀ f, (QueueEvent.deliveries (s.history role lane)).count f + q.count f =
    (QueueEvent.sends (s.history role lane)).count f +
      (QueueEvent.requeues (s.history role lane)).count f
  /-- A requeued frame is the next one delivered. -/
  requeued_next : ∀ before f g (later : List LaneFrame), s.history role lane =
    before ++ [.requeued f] ++ later.map .sent ++ [.delivered g] → g = f
  /-- With one receiver, what stands delivered and then what waits are the sends, in order. -/
  order : OneRx s role lane → ∃ d, QueueEvent.settled (s.history role lane) = some d ∧
    d ++ q = QueueEvent.sends (s.history role lane)
  /-- Every receiver is next answered with the front of what waits. -/
  answer : ∀ port rx, s.rxs port = some rx → rx.localRole = role → rx.lane = lane →
    rx.sessionId ≠ 0 → role.toNat < proofCarrierRoles →
    (proofPollRecv s.queues rx).2.2 = expectedAnswer rx q

/-- A requeue of a frame finds room in its role's queue. -/
def RequeueFits (s : ProofState) : ProofAction → Prop
  | .requeue port => ∀ rx, s.rxs port = some rx → s.handed port ≠ none →
      (s.queues rx.localRole.toNat).len < proofCarrierQueueDepth
  | _ => True

/-! ### What the calls do to a lane -/

def ProofFrame.toLaneFrame (f : ProofFrame) : LaneFrame := ⟨f.source, f.frameLabel, f.payload.1⟩

/-- The frames of a lane in a queue, oldest first. -/
def ProofQueue.onLane (q : ProofQueue) (lane : U8) : List LaneFrame :=
  (q.contents.filter fun f => f.lane = lane).map ProofFrame.toLaneFrame

/-- The frames of a role's lane that wait. -/
def waiting (queues : ProofQueues) (role lane : U8) : List LaneFrame :=
  (queues role.toNat).onLane lane

/-- The queues after a call that changed one lane of one role, to `w`. -/
structure Rewrites (queues queues' : ProofQueues) (role lane : U8) (w : List LaneFrame) :
    Prop where
  wellFormed : ∀ r, (queues' r).WellFormed
  here : waiting queues' role lane = w
  elsewhere : ∀ r l, ¬ (r = role ∧ l = lane) → waiting queues' r l = waiting queues r l

variable {queues : ProofQueues}

theorem rewrites_update (hq : ∀ r, (queues r).WellFormed) {role lane : U8} {q' : ProofQueue}
    {w : List LaneFrame} (hwf : q'.WellFormed) (hhere : q'.onLane lane = w)
    (helse : ∀ l, l ≠ lane → q'.onLane l = (queues role.toNat).onLane l) :
    Rewrites queues (Function.update queues role.toNat q') role lane w where
  wellFormed r := by
    by_cases h : r = role.toNat
    · rw [h, Function.update_self]; exact hwf
    · rw [Function.update_of_ne h]; exact hq r
  here := by rw [waiting, Function.update_self]; exact hhere
  elsewhere r l hne := by
    by_cases h : r = role
    · subst h
      rw [waiting, Function.update_self]
      exact helse l fun e => hne ⟨rfl, e⟩
    · rw [waiting, Function.update_of_ne fun e => h (BitVec.eq_of_toNat_eq e)]
      rfl

/-- A frame appended to its role's queue is last on its lane. -/
theorem rewrites_append (hq : ∀ r, (queues r).WellFormed) {role lane source frameLabel : U8}
    {payload : FrameBytes proofCarrierFrameBytes} {q' : ProofQueue} (hwf : q'.WellFormed)
    (hcontents : q'.contents = (queues role.toNat).contents ++
      [⟨true, lane, source, frameLabel, payload⟩]) :
    Rewrites queues (Function.update queues role.toNat q') role lane
      (waiting queues role lane ++ [⟨source, frameLabel, payload.1⟩]) := by
  refine rewrites_update hq hwf ?_ fun l hl => ?_
  · simp [ProofQueue.onLane, waiting, hcontents, ProofFrame.toLaneFrame]
  · simp [ProofQueue.onLane, hcontents, Ne.symm hl]

/-- **`poll_send`.**  Either refused, with nothing changed, or `Ok` with the frame last on its
lane. -/
theorem proofPollSend_cases (hq : ∀ r, (queues r).WellFormed) (tx : ProofTx) (o : Outgoing) :
    (∃ e, proofPollSend queues tx o = (queues, .ready (.error e))) ∨
      ∃ queues', proofPollSend queues tx o = (queues', .ready (.ok ())) ∧
        Rewrites queues queues' o.targetRole o.lane (waiting queues o.targetRole o.lane ++
          [⟨tx.localRole, o.frameLabel, o.payload⟩]) := by
  unfold proofPollSend
  split
  · exact .inl ⟨_, rfl⟩
  dsimp only
  split
  · exact .inl ⟨_, rfl⟩
  split
  · exact .inl ⟨_, rfl⟩
  rename_i q' hpush
  obtain ⟨hwf, hb, hcontents⟩ := ProofQueue.contents_pushBack (hq _) hpush
  exact .inr ⟨_, rfl, rewrites_append hq hwf hcontents⟩

/-- **A frame popped.**  An empty lane changes nothing; the first frame of a lane leaves the queue
and is the answer. -/
theorem popReceived_cases (hq : ∀ r, (queues r).WellFormed) (rx : ProofRx) :
    (waiting queues rx.localRole rx.lane = [] ∧ popReceived queues rx = (queues, rx, .pending)) ∨
      ∃ queues' bytes f w, waiting queues rx.localRole rx.lane = f :: w ∧ bytes.1 = f.payload ∧
        popReceived queues rx = (queues', { rx with
            frameLabel := some f.frameLabel
            sourceRole := f.source
            hintFrameLabel := some f.frameLabel
            bytes },
          expectedAnswer rx (f :: w)) ∧
        Rewrites queues queues' rx.localRole rx.lane w := by
  unfold popReceived
  obtain ⟨hpop, hnone⟩ | ⟨q', f, pre, post, hpop, hwf, hold, hnew, hlane, hpre⟩ :=
    ProofQueue.popFront_cases (hq rx.localRole.toNat) rx.lane
  · refine .inl ⟨?_, ?_⟩
    · rw [waiting, ProofQueue.onLane, List.filter_eq_nil_iff.mpr]
      · rfl
      · simpa using hnone
    · simp only [hpop, Function.update_eq_self]
  · have hpre' : pre.filter (fun g => g.lane = rx.lane) = [] :=
      List.filter_eq_nil_iff.mpr (by simpa using hpre)
    refine .inr ⟨_, f.payload, f.toLaneFrame,
      (post.filter fun g => g.lane = rx.lane).map ProofFrame.toLaneFrame, ?_, rfl, ?_,
      rewrites_update hq hwf ?_ fun l hl => ?_⟩
    · simp [waiting, ProofQueue.onLane, hold, hpre', hlane]
    · rw [hpop]; rfl
    · simp [ProofQueue.onLane, hnew, hpre']
    · simp [ProofQueue.onLane, hold, hnew, hlane, Ne.symm hl]

/-- **`poll_recv`.**  A port with a session and a queue is answered with the first frame of its
lane, which leaves the queue; any other port, and an empty lane, change nothing. -/
theorem proofPollRecv_cases (hq : ∀ r, (queues r).WellFormed) (rx : ProofRx) :
    ((rx.sessionId = 0 ∨ rx.localRole.toNat ≥ proofCarrierRoles) ∧
        proofPollRecv queues rx = (queues, rx, .ready (.error .failed))) ∨
      (rx.localRole.toNat < proofCarrierRoles ∧ waiting queues rx.localRole rx.lane = [] ∧
        proofPollRecv queues rx = (queues, rx, .pending)) ∨
      ∃ queues' bytes f w, rx.localRole.toNat < proofCarrierRoles ∧
        waiting queues rx.localRole rx.lane = f :: w ∧ bytes.1 = f.payload ∧
        proofPollRecv queues rx = (queues', { rx with
            frameLabel := some f.frameLabel
            sourceRole := f.source
            hintFrameLabel := some f.frameLabel
            bytes },
          expectedAnswer rx (f :: w)) ∧
        Rewrites queues queues' rx.localRole rx.lane w := by
  unfold proofPollRecv
  by_cases hs : rx.sessionId = 0
  · rw [if_pos hs]; exact .inl ⟨.inl hs, rfl⟩
  rw [if_neg hs]
  dsimp only
  by_cases hr : rx.localRole.toNat ≥ proofCarrierRoles
  · rw [if_pos hr]; exact .inl ⟨.inr hr, rfl⟩
  rw [if_neg hr]
  have hlt : rx.localRole.toNat < proofCarrierRoles := by omega
  obtain ⟨hnil, hpop⟩ | ⟨queues', bytes, f, w, hfront, hbytes, hpop, hw⟩ := popReceived_cases hq rx
  · exact .inr (.inl ⟨hlt, hnil, hpop⟩)
  · exact .inr (.inr ⟨queues', bytes, f, w, hlt, hfront, hbytes, hpop, hw⟩)

/-- **`requeue`.**  With room in the queue, the port's last frame is first on its lane again. -/
theorem proofRequeue_fits (hq : ∀ r, (queues r).WellFormed) {rx : ProofRx} {label : U8}
    (hlabel : rx.frameLabel = some label) (hrole : rx.localRole.toNat < proofCarrierRoles)
    (hfits : (queues rx.localRole.toNat).len < proofCarrierQueueDepth) :
    ∃ queues', proofRequeue queues rx =
        (queues', { rx with frameLabel := none, hintFrameLabel := none }, .ok ()) ∧
      Rewrites queues queues' rx.localRole rx.lane
        (⟨rx.sourceRole, label, rx.bytes.1⟩ :: waiting queues rx.localRole rx.lane) := by
  obtain ⟨hwf, hcontents⟩ := @ProofQueue.contents_pushFront _ (hq rx.localRole.toNat)
    rx.lane rx.sourceRole label _ rx.bytes.2 hfits
  unfold proofRequeue
  rw [hlabel]
  dsimp only
  rw [if_pos hrole]
  refine ⟨_, rfl, rewrites_update hq hwf ?_ fun l hl => ?_⟩
  · simp [ProofQueue.onLane, waiting, hcontents, ProofFrame.toLaneFrame]
  · simp [ProofQueue.onLane, hcontents, Ne.symm hl]

/-! ### The invariant -/

/-- What a receiver and its observer agree on: the frame it was handed last. -/
structure Remembers (handed : Option LaneFrame) (rx : ProofRx) : Prop where
  frame : handed = rx.frameLabel.map fun label => ⟨rx.sourceRole, label, rx.bytes.1⟩
  role_lt : rx.frameLabel ≠ none → rx.localRole.toNat < proofCarrierRoles

/-- What the carrier and its observer agree on. -/
structure ProofInv (s : ProofState) : Prop where
  wellFormed : ∀ r, (s.queues r).WellFormed
  replay : ∀ role lane,
    QueueEvent.replay (s.history role lane) = some (waiting s.queues role lane)
  remembers : ∀ port rx, s.rxs port = some rx → Remembers (s.handed port) rx

theorem proofInv_init : ProofInv .init where
  wellFormed _ := ProofQueue.wellFormed_empty
  replay _ _ := rfl
  remembers _ _ h := by cases h

/-- An event noted on one lane keeps every history in step with its queue. -/
theorem replay_note {history : U8 → U8 → List (QueueEvent LaneFrame)} {role lane : U8}
    {e : QueueEvent LaneFrame} {queues queues' : ProofQueues} {w : List LaneFrame}
    (h : ∀ r l, QueueEvent.replay (history r l) = some (waiting queues r l))
    (hw : Rewrites queues queues' role lane w)
    (he : QueueEvent.apply (waiting queues role lane) e = some w) (r l : U8) :
    QueueEvent.replay (note history role lane e r l) = some (waiting queues' r l) := by
  unfold note
  split
  · rename_i hrl
    obtain ⟨rfl, rfl⟩ := hrl
    rw [QueueEvent.replay_snoc, h, Option.bind_some, he, hw.here]
  · rename_i hrl
    rw [h, hw.elsewhere r l hrl]

theorem remembers_update {rxs : ℕ → Option ProofRx} {handed : ℕ → Option LaneFrame}
    (h : ∀ p rx, rxs p = some rx → Remembers (handed p) rx) {port : ℕ} {rx' : ProofRx}
    {frame : Option LaneFrame} (hport : Remembers frame rx') (p : ℕ) (rx : ProofRx)
    (hrx : Function.update rxs port (some rx') p = some rx) :
    Remembers (Function.update handed port frame p) rx := by
  by_cases hp : p = port
  · subst hp
    rw [Function.update_self] at *
    cases hrx
    exact hport
  · rw [Function.update_of_ne hp] at *
    exact h p rx hrx

/-- The steps of the carrier, with the calls' answers and what they do to a lane. -/
inductive ProofStep (s : ProofState) : ProofAction → ProofState → Prop where
  | opened {port as} (htx : s.txs port = none) (hrx : s.rxs port = none) :
      ProofStep s (.open port as) { s with
        txs := Function.update s.txs port (some (proofOpen as).1)
        rxs := Function.update s.rxs port (some (proofOpen as).2)
        handed := Function.update s.handed port none }
  | idle {a} : ProofStep s a s
  | sent {port o tx queues'} (htx : s.txs port = some tx)
      (hw : Rewrites s.queues queues' o.targetRole o.lane
        (waiting s.queues o.targetRole o.lane ++ [⟨tx.localRole, o.frameLabel, o.payload⟩])) :
      ProofStep s (.pollSend port o) { s with
        queues := queues'
        history := note s.history o.targetRole o.lane
          (.sent ⟨tx.localRole, o.frameLabel, o.payload⟩) }
  | delivered {port rx queues' f w} {bytes : FrameBytes proofCarrierFrameBytes}
      (hrx : s.rxs port = some rx) (hrole : rx.localRole.toNat < proofCarrierRoles)
      (hfront : waiting s.queues rx.localRole rx.lane = f :: w) (hbytes : bytes.1 = f.payload)
      (hw : Rewrites s.queues queues' rx.localRole rx.lane w) :
      ProofStep s (.pollRecv port) { s with
        queues := queues'
        rxs := Function.update s.rxs port (some { rx with
          frameLabel := some f.frameLabel
          sourceRole := f.source
          hintFrameLabel := some f.frameLabel
          bytes })
        history := note s.history rx.localRole rx.lane (.delivered f)
        handed := Function.update s.handed port (some f) }
  | requeued {port rx queues' f} (hrx : s.rxs port = some rx) (hhanded : s.handed port = some f)
      (hw : Rewrites s.queues queues' rx.localRole rx.lane
        (f :: waiting s.queues rx.localRole rx.lane)) :
      ProofStep s (.requeue port) { s with
        queues := queues'
        rxs := Function.update s.rxs port
          (some { rx with frameLabel := none, hintFrameLabel := none })
        history := note s.history rx.localRole rx.lane (.requeued f)
        handed := Function.update s.handed port none }
  | nothingToRequeue {port rx} (hrx : s.rxs port = some rx) (hlabel : rx.frameLabel = none) :
      ProofStep s (.requeue port) { s with
        rxs := Function.update s.rxs port
          (some { rx with frameLabel := none, hintFrameLabel := none }) }

/-- **The step lemma.**  A step whose requeue finds room is one of these. -/
theorem proofStep_of_next {s t : ProofState} {a : ProofAction} (h : ProofInv s)
    (hfits : RequeueFits s a) (hstep : proofMachine.next s a = some t) : ProofStep s a t := by
  cases a with
  | «open» port as =>
      simp only [proofMachine, proofNext] at hstep
      split at hstep
      · cases hstep
      rename_i hnone
      simp only [not_or, Option.not_isSome_iff_eq_none] at hnone
      cases hstep
      exact .opened hnone.1 hnone.2
  | pollSend port o =>
      obtain ⟨tx, htx, rfl⟩ := Option.map_eq_some_iff.mp hstep
      obtain ⟨e, hsend⟩ | ⟨queues', hsend, hw⟩ := proofPollSend_cases h.wellFormed tx o
      · rw [hsend]; exact .idle
      · rw [hsend]; exact .sent htx hw
  | cancelSend port =>
      obtain ⟨tx, -, rfl⟩ := Option.map_eq_some_iff.mp hstep
      exact .idle
  | pollRecv port =>
      obtain ⟨rx, hrx, rfl⟩ := Option.map_eq_some_iff.mp hstep
      have hsame : Function.update s.rxs port (some rx) = s.rxs := by
        rw [← hrx, Function.update_eq_self]
      obtain ⟨-, hrecv⟩ | ⟨-, -, hrecv⟩ | ⟨queues', bytes, f, w, hrole, hfront, hb, hrecv, hw⟩ :=
        proofPollRecv_cases h.wellFormed rx
      · rw [hrecv]
        dsimp only
        rw [hsame]
        exact .idle
      · rw [hrecv]
        dsimp only
        rw [hsame]
        exact .idle
      · rw [hrecv]
        exact .delivered hrx hrole hfront hb hw
  | requeue port =>
      obtain ⟨rx, hrx, rfl⟩ := Option.map_eq_some_iff.mp hstep
      obtain ⟨hframe, hrole⟩ := h.remembers port rx hrx
      cases hlabel : rx.frameLabel with
      | none =>
          rw [hlabel] at hframe
          have hreq : proofRequeue s.queues rx =
              (s.queues, { rx with frameLabel := none, hintFrameLabel := none }, .ok ()) := by
            simp [proofRequeue, hlabel]
          rw [hreq, hframe]
          exact .nothingToRequeue hrx hlabel
      | some label =>
          rw [hlabel] at hframe
          have hhanded : s.handed port = some ⟨rx.sourceRole, label, rx.bytes.1⟩ := hframe
          obtain ⟨queues', hreq, hw⟩ := proofRequeue_fits h.wellFormed hlabel
            (hrole (by simp [hlabel])) (hfits rx hrx (by simp [hhanded]))
          rw [hreq, hhanded]
          exact .requeued hrx hhanded hw

theorem proofInv_step (s : ProofState) (a : ProofAction) (t : ProofState) (h : ProofInv s)
    (hfits : RequeueFits s a) (hstep : proofMachine.next s a = some t) : ProofInv t := by
  cases proofStep_of_next h hfits hstep with
  | opened htx hrx =>
      exact ⟨h.wellFormed, h.replay,
        remembers_update h.remembers ⟨rfl, fun e => absurd rfl e⟩⟩
  | idle => exact h
  | sent htx hw => exact ⟨hw.wellFormed, replay_note h.replay hw rfl, h.remembers⟩
  | delivered hrx hrole hfront hbytes hw =>
      refine ⟨hw.wellFormed, replay_note h.replay hw ?_, remembers_update h.remembers ⟨?_, ?_⟩⟩
      · rw [hfront]; exact if_pos rfl
      · simp [hbytes]
      · exact fun _ => hrole
  | requeued hrx hhanded hw =>
      exact ⟨hw.wellFormed, replay_note h.replay hw rfl,
        remembers_update h.remembers ⟨rfl, fun e => absurd rfl e⟩⟩
  | @nothingToRequeue port rx hrx hlabel =>
      refine ⟨h.wellFormed, h.replay, fun p rx' hrx' => ?_⟩
      have hsame : s.handed = Function.update s.handed port none := by
        rw [Function.eq_update_iff]
        exact ⟨by rw [(h.remembers port rx hrx).frame, hlabel]; rfl, fun _ _ => rfl⟩
      dsimp only at hrx' ⊢
      rw [hsame]
      refine remembers_update h.remembers ?_ p rx' hrx'
      exact ⟨rfl, fun e => absurd rfl e⟩

/-! ### Lanes with one receiver -/

/-- On a lane with one receiver, the frame it was handed is the latest delivery that stands. -/
def Settles (s : ProofState) : Prop :=
  ∀ role lane, OneRx s role lane → ∃ d,
    QueueEvent.settled (s.history role lane) = some d ∧
      ∀ p f, Receives s role lane p → s.handed p = some f → d.getLast? = some f

theorem settles_init : Settles .init := fun _ _ _ =>
  ⟨[], rfl, fun _ _ ⟨_, h, _⟩ => by cases h⟩

theorem receives_update {s t : ProofState} {port : ℕ} {rx rx' : ProofRx}
    (hrx : s.rxs port = some rx) (ht : t.rxs = Function.update s.rxs port (some rx'))
    (hrole : rx'.localRole = rx.localRole) (hlane : rx'.lane = rx.lane) {role lane : U8} {p : ℕ} :
    Receives t role lane p ↔ Receives s role lane p := by
  unfold Receives
  rw [ht]
  by_cases hp : p = port
  · subst hp
    rw [Function.update_self, hrx]
    simp [hrole, hlane]
  · rw [Function.update_of_ne hp]

theorem oneRx_congr {s t : ProofState} {role lane : U8}
    (h : ∀ p, Receives t role lane p ↔ Receives s role lane p) :
    OneRx t role lane ↔ OneRx s role lane := by
  simp only [OneRx, h]

/-- A step that notes one event on a lane and sets what one of its receivers remembers. -/
theorem settles_note {s t : ProofState} (h : Settles s) {role lane : U8} {port : ℕ}
    {e : QueueEvent LaneFrame} {frame : Option LaneFrame}
    (hport : Receives s role lane port)
    (hreceives : ∀ r l p, Receives t r l p ↔ Receives s r l p)
    (hhistory : t.history = note s.history role lane e)
    (hhanded : t.handed = Function.update s.handed port frame)
    (hsettle : ∀ d, (∀ f, s.handed port = some f → d.getLast? = some f) →
      ∃ d', QueueEvent.settle d e = some d' ∧ ∀ f, frame = some f → d'.getLast? = some f) :
    Settles t := by
  intro r l hone
  rw [oneRx_congr (hreceives r l)] at hone
  obtain ⟨d, hd, hlast⟩ := h r l hone
  by_cases hrl : r = role ∧ l = lane
  · obtain ⟨rfl, rfl⟩ := hrl
    obtain ⟨d', hd', hlast'⟩ := hsettle d fun f hf => hlast port f hport hf
    refine ⟨d', ?_, fun p f hp hf => hlast' f ?_⟩
    · rw [hhistory, note, if_pos ⟨rfl, rfl⟩, QueueEvent.settled_snoc, hd]
      exact hd'
    · obtain rfl := hone p port ((hreceives _ _ _).mp hp) hport
      rwa [hhanded, Function.update_self] at hf
  · refine ⟨d, ?_, fun p f hp hf => hlast p f ((hreceives _ _ _).mp hp) ?_⟩
    · rw [hhistory, note, if_neg hrl]
      exact hd
    · have hne : p ≠ port := by
        rintro rfl
        obtain ⟨rx, hrx, hr, hl⟩ := (hreceives _ _ _).mp hp
        obtain ⟨rx', hrx', hr', hl'⟩ := hport
        rw [hrx] at hrx'
        cases hrx'
        exact hrl ⟨hr.symm.trans hr', hl.symm.trans hl'⟩
      rwa [hhanded, Function.update_of_ne hne] at hf

theorem settles_step {s t : ProofState} {a : ProofAction} (h : Settles s)
    (hstep : ProofStep s a t) : Settles t := by
  cases hstep with
  | @opened port as htx hrx =>
      intro role lane hone
      -- the receivers of `s` are receivers still, and remember what they did
      have hmono : ∀ p, Receives s role lane p → p ≠ port ∧
          Receives { s with rxs := Function.update s.rxs port (some (proofOpen as).2) }
            role lane p := by
        rintro p ⟨rx, hp, hr, hl⟩
        have hne : p ≠ port := fun e => by rw [e, hrx] at hp; cases hp
        exact ⟨hne, rx, by rw [← hp]; exact Function.update_of_ne hne _ _, hr, hl⟩
      obtain ⟨d, hd, hlast⟩ := h role lane fun p p' hp hp' =>
        hone p p' (hmono p hp).2 (hmono p' hp').2
      refine ⟨d, hd, fun p f hp hf => ?_⟩
      by_cases hpp : p = port
      · rw [hpp] at hf
        exact absurd hf (by simp)
      · obtain ⟨rx, hp, hr, hl⟩ := hp
        dsimp only at hp hf
        rw [Function.update_of_ne hpp] at hp hf
        exact hlast p f ⟨rx, hp, hr, hl⟩ hf
  | idle => exact h
  | @sent port o tx queues' htx hw =>
      intro role lane hone
      obtain ⟨d, hd, hlast⟩ := h role lane hone
      refine ⟨d, ?_, hlast⟩
      dsimp only [note]
      split
      · rw [QueueEvent.settled_snoc, hd]; rfl
      · exact hd
  | delivered hrx hrole hfront hbytes hw =>
      refine settles_note h ⟨_, hrx, rfl, rfl⟩ (fun r l p => receives_update hrx rfl ?_ ?_)
        rfl rfl fun d _ => ⟨_, rfl, ?_⟩
      · rfl
      · rfl
      · rintro f ⟨⟩
        exact List.getLast?_concat
  | requeued hrx hhanded hw =>
      refine settles_note h ⟨_, hrx, rfl, rfl⟩ (fun r l p => receives_update hrx rfl ?_ ?_)
        rfl rfl fun d hd => ⟨_, if_pos (hd _ hhanded), fun f hf => by cases hf⟩
      · rfl
      · rfl
  | @nothingToRequeue port rx hrx hlabel =>
      intro role lane hone
      -- the port forgets its frame; its role and lane are the same
      let rx' : ProofRx := { rx with frameLabel := none, hintFrameLabel := none }
      have hreceives : ∀ p, Receives { s with rxs := Function.update s.rxs port (some rx') }
          role lane p ↔ Receives s role lane p :=
        fun p => @receives_update s _ port rx rx' hrx rfl rfl rfl role lane p
      obtain ⟨d, hd, hlast⟩ := h role lane ((oneRx_congr hreceives).mp hone)
      exact ⟨d, hd, fun p f hp hf => hlast p f ((hreceives p).mp hp) hf⟩

/-! ### The result -/

theorem expectedAnswer_of_waiting {s : ProofState} (h : ProofInv s) {rx : ProofRx}
    (hsession : rx.sessionId ≠ 0) (hrole : rx.localRole.toNat < proofCarrierRoles) :
    (proofPollRecv s.queues rx).2.2 =
      expectedAnswer rx (waiting s.queues rx.localRole rx.lane) := by
  obtain ⟨hbad, -⟩ | ⟨-, hnil, hrecv⟩ | ⟨queues', bytes, f, w, -, hfront, -, hrecv, -⟩ :=
    proofPollRecv_cases h.wellFormed rx
  · exact absurd hbad (not_or.mpr ⟨hsession, Nat.not_le.mpr hrole⟩)
  · rw [hrecv, hnil]; rfl
  · rw [hrecv, hfront]

/-- **The lanes of the carrier are exact** in every run whose requeues find room in the queue. -/
theorem proofCarrier_exact (as : List ProofAction) (s : ProofState)
    (hrun : proofMachine.exec .init as = some s)
    (hfits : proofMachine.Along RequeueFits .init as) (role lane : U8) :
    ∃ q, LaneExact s role lane q := by
  have hinv : ProofInv s ∧ Settles s :=
    Machine.exec_invariant (I := fun s => ProofInv s ∧ Settles s)
      (fun s a t hs hP h => ⟨proofInv_step s a t hs.1 hP h,
        settles_step hs.2 (proofStep_of_next hs.1 hP h)⟩)
      ⟨proofInv_init, settles_init⟩ hfits hrun
  obtain ⟨hinv, hsettles⟩ := hinv
  have hreplay := hinv.replay role lane
  refine ⟨waiting s.queues role lane, hreplay, QueueEvent.replay_count hreplay, ?_, ?_, ?_⟩
  · intro before f g later hlog
    rw [hlog] at hreplay
    exact QueueEvent.replay_requeued_next hreplay
  · intro hone
    obtain ⟨d, hd, -⟩ := hsettles role lane hone
    exact ⟨d, hd, QueueEvent.replay_order hreplay hd⟩
  · rintro port rx hrx rfl rfl hsession hrole
    exact expectedAnswer_of_waiting hinv hsession hrole

instance (s : ProofState) : ∀ a, Decidable (RequeueFits s a)
  | .requeue port =>
      match h : s.rxs port with
      | none => isTrue fun rx hrx => by rw [h] at hrx; cases hrx
      | some rx => decidable_of_iff
          (s.handed port ≠ none → (s.queues rx.localRole.toNat).len < proofCarrierQueueDepth)
          ⟨fun H rx' hrx' => by rw [h] at hrx'; cases hrx'; exact H, fun H => H rx h⟩
  | .open _ _ | .pollSend _ _ | .cancelSend _ | .pollRecv _ => isTrue trivial

/-- Role 1 sends to role 2 on lane 3; the port of role 2 takes the frame. -/
def sendAndTake : List ProofAction :=
  [.open 0 { localRole := 1, sessionId := 7, lane := 3 },
    .open 1 { localRole := 2, sessionId := 7, lane := 3 },
    .pollSend 0 { targetRole := 2, frameLabel := 5, lane := 3, payload := [1, 2] },
    .pollRecv 1]

/-- A frame put back is delivered again. -/
theorem proofCarrier_exact_requeued :
    ∃ s, proofMachine.exec .init (sendAndTake ++ [.requeue 1, .pollRecv 1]) = some s ∧
      QueueEvent.deliveries (s.history 2 3) = [⟨1, 5, [1, 2]⟩, ⟨1, 5, [1, 2]⟩] ∧
      ∃ q, LaneExact s 2 3 q := by
  have hsome : (proofMachine.exec .init (sendAndTake ++ [.requeue 1, .pollRecv 1])).map
      (fun s => QueueEvent.deliveries (s.history 2 3)) =
        some [⟨1, 5, [1, 2]⟩, ⟨1, 5, [1, 2]⟩] := by decide +kernel
  obtain ⟨s, hrun, hdeliveries⟩ := Option.map_eq_some_iff.mp hsome
  exact ⟨s, hrun, hdeliveries, proofCarrier_exact _ s hrun (by decide +kernel) 2 3⟩

/-- **A full queue loses the frame** between its receipt and its requeue: the next delivery after
the requeue is another frame. -/
theorem proofCarrier_loses :
    ∃ s, proofMachine.exec .init (sendAndTake ++ List.replicate 24
        (.pollSend 0 { targetRole := 2, frameLabel := 6, lane := 3, payload := [] }) ++
          [.requeue 1, .pollRecv 1]) = some s ∧
      ∀ q, ¬ LaneExact s 2 3 q := by
  have hsome : (proofMachine.exec .init (sendAndTake ++ List.replicate 24
        (.pollSend 0 { targetRole := 2, frameLabel := 6, lane := 3, payload := [] }) ++
          [.requeue 1, .pollRecv 1])).map
      (fun s => QueueEvent.replay (s.history 2 3)) = some none := by decide +kernel
  obtain ⟨s, hrun, hreplay⟩ := Option.map_eq_some_iff.mp hsome
  exact ⟨s, hrun, fun q hq => by rw [hq.replay] at hreplay; cases hreplay⟩

end HibanaPico.UnoQ
