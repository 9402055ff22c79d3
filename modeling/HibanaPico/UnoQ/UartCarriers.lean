import HibanaPico.Support.Lists
import HibanaPico.UnoQ.Drain

/-!
# Uno Q — The UART carriers

`UnoQUartCarrier` on the M33 board and `HardwarePeerCarrier` on the Linux side.  Both drain the
serial port into the queues of `ProofCarrier` and then take the first frame of the polling port's
lane; the second looks in the queue before it drains, and sends to its own roles through the same
queues.

* `uartPollRecv`, `hardwarePollRecv`: the two `poll_recv`s.
* `carrierMachine`: either carrier with any number of ports, and what an observer notes.
* `PollStep`: what either `poll_recv` does, as one drain and at most one frame taken.
* `UartCarrier.Lawful.serves`: in every run nothing is dropped exactly when every read finds room.
-/

namespace HibanaPico.UnoQ
open HibanaPico.Support
open HibanaPico.Transport

/-- `ROLE_M33_LED_KERNEL`. -/
def roleM33LedKernel : U8 := 0

/-- What a `poll_recv` of either carrier leaves and answers, with the bytes it took from the serial
port and what became of them. -/
structure CarrierPoll where
  parser : UartFrameParser
  queues : ProofQueues
  rx : ProofRx
  taken : List U8
  outcomes : List ByteOutcome
  answer : Poll (Except TransportError ReceivedFrame)

/-- `UnoQUartCarrier::poll_recv`, with the bytes there are to read and whether the port's deadline
has elapsed. -/
def uartPollRecv (parser : UartFrameParser) (queues : ProofQueues) (rx : ProofRx)
    (bytes : List U8) (deadlineElapsed : Bool) : CarrierPoll :=
  match drainUart rx.sessionId parser queues bytes with
  | (parser, queues, outcomes) =>
      if rx.localRole.toNat ≥ proofCarrierRoles then
        ⟨parser, queues, rx, bytes, outcomes, .ready (.error .failed)⟩
      else
        match popReceived queues rx with
        | (queues, rx, .pending) =>
            ⟨parser, queues, rx, bytes, outcomes,
              if deadlineElapsed then .ready (.error .failed) else .pending⟩
        | (queues, rx, .ready answer) => ⟨parser, queues, rx, bytes, outcomes, .ready answer⟩

/-- `HardwarePeerCarrier::poll_recv`, with what the serial port answers if it is read. -/
def hardwarePollRecv (parser : UartFrameParser) (queues : ProofQueues) (rx : ProofRx)
    (read : SerialRead) : CarrierPoll :=
  if rx.localRole.toNat ≥ proofCarrierRoles then
    ⟨parser, queues, rx, [], [], .ready (.error .failed)⟩
  else
    match popReceived queues rx with
    | (queues, rx, .ready answer) => ⟨parser, queues, rx, [], [], .ready answer⟩
    | (queues, rx, .pending) =>
        match drainSerial rx.sessionId parser queues read with
        | (parser, queues, taken, outcomes, .error e) =>
            ⟨parser, queues, rx, taken, outcomes, .ready (.error e)⟩
        | (parser, queues, taken, outcomes, .ok ()) =>
            match popReceived queues rx with
            | (queues, rx, answer) => ⟨parser, queues, rx, taken, outcomes, answer⟩

/-- `UnoQUartCarrier::poll_send`, with whether every byte was written before the deadline. -/
def uartPollSend (queues : ProofQueues) (tx : ProofTx) (outgoing : Outgoing) (written : Bool) :
    ProofQueues × Poll (Except TransportError Unit) :=
  if tx.sessionId = 0 ∨ outgoing.targetRole = tx.localRole ∨ outgoing.lane ≠ tx.lane then
    (queues, .ready (.error .failed))
  else
    match encodeUartFrame (fun _ => 0) tx.sessionId outgoing.lane tx.localRole outgoing.targetRole
      outgoing.frameLabel outgoing.payload with
    | .error e => (queues, .ready (.error e))
    | .ok _ => (queues, .ready (if written then .ok () else .error .failed))

/-- `HardwarePeerCarrier::poll_send`, with whether every byte was written to the serial port. -/
def hardwarePollSend (queues : ProofQueues) (tx : ProofTx) (outgoing : Outgoing) (written : Bool) :
    ProofQueues × Poll (Except TransportError Unit) :=
  if tx.sessionId = 0 ∨ outgoing.targetRole = tx.localRole ∨ outgoing.lane ≠ tx.lane then
    (queues, .ready (.error .failed))
  else if outgoing.targetRole = roleM33LedKernel then
    match encodeUartFrame (fun _ => 0) tx.sessionId outgoing.lane tx.localRole outgoing.targetRole
      outgoing.frameLabel outgoing.payload with
    | .error e => (queues, .ready (.error e))
    | .ok _ => (queues, .ready (if written then .ok () else .error .failed))
  else
    let peer := outgoing.targetRole.toNat
    if peer ≥ proofCarrierRoles then (queues, .ready (.error .failed))
    else
      match (queues peer).pushBack outgoing.lane tx.localRole outgoing.frameLabel
        outgoing.payload with
      | .error e => (queues, .ready (.error e))
      | .ok queue => (Function.update queues peer queue, .ready (.ok ()))

/-- A carrier over a serial port; `ρ` is what a `poll_recv` finds there, and `takes` the bytes it
takes of it. -/
structure UartCarrier (ρ : Type) where
  takes : ProofQueues → ProofRx → ρ → List U8
  pollSend : ProofQueues → ProofTx → Outgoing → Bool →
    ProofQueues × Poll (Except TransportError Unit)
  pollRecv : UartFrameParser → ProofQueues → ProofRx → ρ → CarrierPoll

def unoQUartCarrier : UartCarrier (List U8 × Bool) :=
  { takes := fun _ _ read => read.1
    pollSend := uartPollSend
    pollRecv := fun parser queues rx read => uartPollRecv parser queues rx read.1 read.2 }

/-- It reads the serial port only when no frame of the port's lane waits. -/
def hardwareTakes (queues : ProofQueues) (rx : ProofRx) : SerialRead → List U8
  | .error () => []
  | .ok bytes =>
      if rx.localRole.toNat < proofCarrierRoles ∧ waiting queues rx.localRole rx.lane = [] then
        bytes.1
      else []

def hardwarePeerCarrier : UartCarrier SerialRead :=
  { takes := hardwareTakes, pollSend := hardwarePollSend, pollRecv := hardwarePollRecv }

/-- The two of them. -/
inductive SerialCarrier where
  | unoQUart
  | hardwarePeer

/-- What a `poll_recv` finds at the serial port. -/
def SerialCarrier.Read : SerialCarrier → Type
  | .unoQUart => List U8 × Bool
  | .hardwarePeer => SerialRead

def SerialCarrier.calls : (c : SerialCarrier) → UartCarrier c.Read
  | .unoQUart => unoQUartCarrier
  | .hardwarePeer => hardwarePeerCarrier

/-! ### Runs -/

/-- A carrier, its ports, and what an observer has noted. -/
structure CarrierState where
  parser : UartFrameParser
  queues : ProofQueues
  txs : ℕ → Option ProofTx
  rxs : ℕ → Option ProofRx
  /-- The bytes read from the serial port, each with the session that polled. -/
  bytes : List (U8 × U32)
  /-- Those of them the parser was never given. -/
  unparsed : List U8
  /-- The frames put into a queue, but for those put back. -/
  arrivals : List Arrival
  history : U8 → U8 → List (QueueEvent LaneFrame)

def CarrierState.init : CarrierState :=
  { parser := .new, queues := fun _ => .empty, txs := fun _ => none, rxs := fun _ => none,
    bytes := [], unparsed := [], arrivals := [], history := fun _ _ => [] }

inductive CarrierAction (ρ : Type) where
  | open (port : ℕ) (as : PortOpen)
  | pollSend (port : ℕ) (outgoing : Outgoing) (written : Bool)
  | pollRecv (port : ℕ) (read : ρ)
  | requeue (port : ℕ)

/-- Note frames that arrived on their lanes. -/
def noteArrivals (history : U8 → U8 → List (QueueEvent LaneFrame)) (arrivals : List Arrival) :
    U8 → U8 → List (QueueEvent LaneFrame) :=
  fun role lane => history role lane ++ (onLane role lane arrivals).map .sent

/-- A `poll_send` has answered; a frame of it that went into a queue has arrived. -/
def CarrierState.sent (s : CarrierState) (tx : ProofTx) (o : Outgoing) (queues : ProofQueues) :
    CarrierState :=
  if (queues o.targetRole.toNat).len = (s.queues o.targetRole.toNat).len then { s with queues }
  else
    let arrival : Arrival :=
      { position := none, peer := o.targetRole, lane := o.lane,
        frame := ⟨tx.localRole, o.frameLabel, o.payload⟩ }
    { s with
      queues
      arrivals := s.arrivals ++ [arrival]
      history := noteArrivals s.history [arrival] }

/-- A `poll_recv` has answered. -/
def CarrierState.polled (s : CarrierState) (port : ℕ) (rx : ProofRx) (r : CarrierPoll) :
    CarrierState :=
  let arrivals := arrivalsOf s.bytes.length r.outcomes
  let history := noteArrivals s.history arrivals
  { s with
    parser := r.parser
    queues := r.queues
    rxs := Function.update s.rxs port (some r.rx)
    bytes := s.bytes ++ polledBy rx.sessionId r.taken
    unparsed := s.unparsed ++ r.taken.drop r.outcomes.length
    arrivals := s.arrivals ++ arrivals
    history := match r.answer with
      | .ready (.ok frame) => note history rx.localRole rx.lane (.delivered (.ofReceived frame))
      | _ => history }

/-- A `requeue` has answered; a frame that went into the queue is back. -/
def CarrierState.requeued (s : CarrierState) (port : ℕ) (rx rx' : ProofRx) (queues : ProofQueues) :
    CarrierState :=
  { s with
    queues
    rxs := Function.update s.rxs port (some rx')
    history := match rx.frameLabel with
      | some label =>
          if (queues rx.localRole.toNat).len = (s.queues rx.localRole.toNat).len then s.history
          else note s.history rx.localRole rx.lane
            (.requeued ⟨rx.sourceRole, label, rx.bytes.1⟩)
      | none => s.history }

variable {ρ : Type}

def carrierNext (C : UartCarrier ρ) (s : CarrierState) : CarrierAction ρ → Option CarrierState
  | .open port as =>
      if (s.txs port).isSome ∨ (s.rxs port).isSome then none
      else
        some { s with
          txs := Function.update s.txs port (some (proofOpen as).1)
          rxs := Function.update s.rxs port (some (proofOpen as).2) }
  | .pollSend port o written => (s.txs port).map fun tx =>
      s.sent tx o (C.pollSend s.queues tx o written).1
  | .pollRecv port read => (s.rxs port).map fun rx =>
      s.polled port rx (C.pollRecv s.parser s.queues rx read)
  | .requeue port => (s.rxs port).map fun rx =>
      s.requeued port rx (proofRequeue s.queues rx).2.1 (proofRequeue s.queues rx).1

/-- A carrier and its callers. -/
def carrierMachine (C : UartCarrier ρ) : Machine CarrierState (CarrierAction ρ) := ⟨carrierNext C⟩

/-- **Nothing is dropped**: the frames that arrived from the serial port are those that the bytes
read from it complete and that pass the checks, each once and in order, and the parser was given
every byte. -/
def AllDrained (s : CarrierState) : Prop :=
  s.arrivals.filter (fun a => a.position.isSome) = accepted .new 0 s.bytes ∧ s.unparsed = []

/-- **A read finds room** in the queues for the frames it completes. -/
def FindsRoom (C : UartCarrier ρ) (s : CarrierState) : CarrierAction ρ → Prop
  | .pollRecv port read => ∀ rx, s.rxs port = some rx →
      Room rx.sessionId s.parser s.queues (C.takes s.queues rx read)
  | _ => True

/-! ### What the calls do -/

/-- What either `poll_recv` does: a drain of the first bytes it takes, all of them with no frame
refused exactly when there is room, and then at most one frame taken from the port's lane. -/
structure PollStep (parser : UartFrameParser) (queues : ProofQueues) (rx : ProofRx)
    (taken : List U8) (r : CarrierPoll) (k : ℕ) (drained : ProofQueues) : Prop where
  taken_eq : r.taken = taken
  le : k ≤ taken.length
  drain : drainUart rx.sessionId parser queues (taken.take k) = (r.parser, drained, r.outcomes)
  room : (k = taken.length ∧ ∀ o ∈ r.outcomes, ¬ o.Refused) ↔ Room rx.sessionId parser queues taken
  pop : r.queues = drained ∧ r.rx = rx ∧ (∀ frame, r.answer ≠ .ready (.ok frame)) ∨
    ∃ f w bytes, waiting drained rx.localRole rx.lane = f :: w ∧
      Rewrites drained r.queues rx.localRole rx.lane w ∧ r.answer = expectedAnswer rx (f :: w) ∧
      r.rx = { rx with
        frameLabel := some f.frameLabel
        sourceRole := f.source
        hintFrameLabel := some f.frameLabel
        bytes }
  serves : rx.localRole.toNat < proofCarrierRoles → ∀ f w,
    waiting queues rx.localRole rx.lane = f :: w → r.answer = expectedAnswer rx [f]

variable {parser : UartFrameParser} {queues : ProofQueues} {rx : ProofRx}

/-- **`UnoQUartCarrier::poll_recv`.** -/
theorem uartPollRecv_step (hq : ∀ r, (queues r).WellFormed) (bytes : List U8)
    (deadlineElapsed : Bool) : ∃ k drained,
      PollStep parser queues rx bytes (uartPollRecv parser queues rx bytes deadlineElapsed) k
        drained := by
  have hdrained := drainUart_drained rx.sessionId bytes 0 parser queues hq
  have hroom := @noneRefused_iff rx.sessionId bytes parser queues hq
  unfold uartPollRecv
  rcases hdrain : drainUart rx.sessionId parser queues bytes with ⟨parser', queues', outcomes⟩
  rw [hdrain] at hdrained hroom
  have htake : drainUart rx.sessionId parser queues (bytes.take bytes.length) =
      (parser', queues', outcomes) := by rw [List.take_length, hdrain]
  have hall : (bytes.length = bytes.length ∧ ∀ o ∈ outcomes, ¬ o.Refused) ↔
      Room rx.sessionId parser queues bytes := by rw [← hroom]; exact and_iff_right rfl
  refine ⟨bytes.length, queues', ?_⟩
  have hkeeps := hdrained.waiting_eq rx.localRole rx.lane
  dsimp only at hkeeps ⊢
  split
  · rename_i hrole
    exact ⟨rfl, Nat.le_refl _, htake, hall, .inl ⟨rfl, rfl, fun _ h => by cases h⟩,
      fun hlt => absurd hrole (Nat.not_le.mpr hlt)⟩
  obtain ⟨hnil, hpop⟩ | ⟨queues'', b, f, w, hfront, -, hpop, hw⟩ :=
    popReceived_cases hdrained.wellFormed rx
  · rw [hpop]
    refine ⟨rfl, Nat.le_refl _, htake, hall, .inl ⟨rfl, rfl, ?_⟩, fun _ f w hf => ?_⟩
    · cases deadlineElapsed <;> exact nofun
    · rw [hnil, hf] at hkeeps
      cases hkeeps
  · rw [hpop]
    refine ⟨rfl, Nat.le_refl _, htake, hall, .inr ⟨f, w, b, hfront, hw, rfl, rfl⟩,
      fun _ f' w' hf' => ?_⟩
    -- what waited before the drain is still first
    rw [hfront, hf'] at hkeeps
    obtain ⟨rfl, -⟩ := List.cons.inj hkeeps
    rfl

/-- A `poll_recv` that reads nothing has room. -/
theorem room_nil (hq : ∀ r, (queues r).WellFormed) (sessionId : U32) :
    Room sessionId parser queues [] := fun r _ => (hq r).len_le

theorem hardwareTakes_eq_nil (read : SerialRead)
    (h : ¬ (rx.localRole.toNat < proofCarrierRoles ∧ waiting queues rx.localRole rx.lane = [])) :
    hardwareTakes queues rx read = [] := by
  cases read with
  | error _ => rfl
  | ok bytes => exact if_neg h

/-- A `poll_recv` that reads nothing drains nothing, whatever it takes from its lane. -/
theorem PollStep.unread {queues' : ProofQueues} {rx' : ProofRx}
    {answer : Poll (Except TransportError ReceivedFrame)} (hq : ∀ r, (queues r).WellFormed)
    (hpop : queues' = queues ∧ rx' = rx ∧ (∀ frame, answer ≠ .ready (.ok frame)) ∨
      ∃ f w bytes, waiting queues rx.localRole rx.lane = f :: w ∧
        Rewrites queues queues' rx.localRole rx.lane w ∧ answer = expectedAnswer rx (f :: w) ∧
        rx' = { rx with
          frameLabel := some f.frameLabel
          sourceRole := f.source
          hintFrameLabel := some f.frameLabel
          bytes })
    (hserves : rx.localRole.toNat < proofCarrierRoles → ∀ f w,
      waiting queues rx.localRole rx.lane = f :: w → answer = expectedAnswer rx [f]) :
    PollStep parser queues rx [] ⟨parser, queues', rx', [], [], answer⟩ 0 queues where
  taken_eq := rfl
  le := Nat.le_refl _
  drain := rfl
  room := iff_of_true ⟨rfl, fun _ h => by cases h⟩ (room_nil hq _)
  pop := hpop
  serves := hserves

/-- **`HardwarePeerCarrier::poll_recv`.** -/
theorem hardwarePollRecv_step (hq : ∀ r, (queues r).WellFormed) (read : SerialRead) :
    ∃ k drained, PollStep parser queues rx (hardwareTakes queues rx read)
      (hardwarePollRecv parser queues rx read) k drained := by
  unfold hardwarePollRecv
  by_cases hrole : rx.localRole.toNat ≥ proofCarrierRoles
  · rw [if_pos hrole, hardwareTakes_eq_nil read fun h => absurd h.1 (Nat.not_lt.mpr hrole)]
    exact ⟨0, queues, .unread hq (.inl ⟨rfl, rfl, fun _ h => by cases h⟩)
      fun hlt => absurd hrole (Nat.not_le.mpr hlt)⟩
  rw [if_neg hrole]
  obtain ⟨hnil, hpop⟩ | ⟨queues', b, f, w, hfront, -, hpop, hw⟩ := popReceived_cases hq rx
  · -- no frame waits, so the port reads
    have hserves : ∀ {p : Prop} f w, waiting queues rx.localRole rx.lane = f :: w → p := by
      intro p f w hf
      rw [hnil] at hf
      cases hf
    rw [hpop]
    dsimp only
    cases read with
    | error _ =>
        exact ⟨0, queues, .unread hq (.inl ⟨rfl, rfl, fun _ h => by cases h⟩)
          fun _ f w => hserves f w⟩
    | ok bytes =>
        have htakes : hardwareTakes queues rx (.ok bytes) = bytes.1 :=
          if_pos ⟨Nat.not_le.mp hrole, hnil⟩
        -- the drain stops at the first frame its queue has no room for
        obtain ⟨k, result, hgets⟩ := drainSerialBytes_getsTo rx.sessionId bytes.1 parser queues hq
        have hdrained := drainUart_drained rx.sessionId (bytes.1.take k) 0 parser queues hq
        have hroom := hgets.all_iff hq
        rw [htakes, drainSerial, hgets.eq]
        rcases hdrain : drainUart rx.sessionId parser queues (bytes.1.take k) with
          ⟨parser', queues', outcomes⟩
        rw [hdrain] at hdrained hroom
        refine ⟨k, queues', ?_⟩
        cases result with
        | error e =>
            exact ⟨rfl, hgets.le, hdrain, hroom, .inl ⟨rfl, rfl, fun _ h => by cases h⟩,
              fun _ f w => hserves f w⟩
        | ok _ =>
            dsimp only
            obtain ⟨-, hpop⟩ | ⟨queues'', b, f, w, hfront, -, hpop, hw⟩ :=
              popReceived_cases hdrained.wellFormed rx
            · rw [hpop]
              exact ⟨rfl, hgets.le, hdrain, hroom, .inl ⟨rfl, rfl, fun _ h => by cases h⟩,
                fun _ f w => hserves f w⟩
            · rw [hpop]
              exact ⟨rfl, hgets.le, hdrain, hroom, .inr ⟨f, w, b, hfront, hw, rfl, rfl⟩,
                fun _ f w => hserves f w⟩
  · have hread : ¬ (rx.localRole.toNat < proofCarrierRoles ∧
        waiting queues rx.localRole rx.lane = []) := by
      rintro ⟨-, hnil⟩
      rw [hfront] at hnil
      cases hnil
    rw [hpop, hardwareTakes_eq_nil read hread]
    refine ⟨0, queues, .unread hq (.inr ⟨f, w, b, hfront, hw, rfl, rfl⟩) fun _ f' w' hf' => ?_⟩
    rw [hfront] at hf'
    obtain ⟨rfl, -⟩ := List.cons.inj hf'
    rfl

/-- What a `poll_send` does to the queues: nothing, or its frame is last on its lane. -/
def AppendsAtMost (queues : ProofQueues) (tx : ProofTx) (o : Outgoing) (queues' : ProofQueues) :
    Prop :=
  queues' = queues ∨
    (queues' o.targetRole.toNat).len = (queues o.targetRole.toNat).len + 1 ∧
      Rewrites queues queues' o.targetRole o.lane (waiting queues o.targetRole o.lane ++
        [⟨tx.localRole, o.frameLabel, o.payload⟩])

theorem uartPollSend_appends (tx : ProofTx) (o : Outgoing) (written : Bool) :
    AppendsAtMost queues tx o (uartPollSend queues tx o written).1 := by
  unfold uartPollSend
  split
  · exact .inl rfl
  split <;> exact .inl rfl

theorem hardwarePollSend_appends (hq : ∀ r, (queues r).WellFormed) (tx : ProofTx) (o : Outgoing)
    (written : Bool) : AppendsAtMost queues tx o (hardwarePollSend queues tx o written).1 := by
  unfold hardwarePollSend
  split
  · exact .inl rfl
  split
  · split <;> exact .inl rfl
  dsimp only
  split
  · exact .inl rfl
  split
  · exact .inl rfl
  rename_i q' hpush
  obtain ⟨hwf, hb, hcontents⟩ := ProofQueue.contents_pushBack (hq _) hpush
  refine .inr ⟨?_, rewrites_append hq hwf hcontents⟩
  dsimp only
  rw [Function.update_self]
  exact ProofQueue.len_of_append hcontents

/-- **`requeue`** leaves the queues as they are, or puts the port's last frame first on its
lane. -/
theorem proofRequeue_cases (hq : ∀ r, (queues r).WellFormed) (rx : ProofRx) :
    (proofRequeue queues rx).1 = queues ∨ ∃ label, rx.frameLabel = some label ∧
      ((proofRequeue queues rx).1 rx.localRole.toNat).len =
        (queues rx.localRole.toNat).len + 1 ∧
      Rewrites queues (proofRequeue queues rx).1 rx.localRole rx.lane
        (⟨rx.sourceRole, label, rx.bytes.1⟩ :: waiting queues rx.localRole rx.lane) := by
  cases hlabel : rx.frameLabel with
  | none => exact .inl (by simp [proofRequeue, hlabel])
  | some label =>
      by_cases hrole : rx.localRole.toNat < proofCarrierRoles
      · by_cases hfull : (queues rx.localRole.toNat).len = proofCarrierQueueDepth
        · refine .inl ?_
          simp only [proofRequeue, hlabel, hrole, if_true]
          rw [ProofQueue.pushFront_refused (.inr hfull), Function.update_eq_self]
        · have hfits := Nat.lt_of_le_of_ne (hq rx.localRole.toNat).len_le hfull
          obtain ⟨queues', hreq, hw⟩ := proofRequeue_fits hq hlabel hrole hfits
          refine .inr ⟨label, rfl, ?_, by rw [hreq]; exact hw⟩
          obtain ⟨-, hcontents⟩ := @ProofQueue.contents_pushFront _ (hq rx.localRole.toNat) rx.lane
            rx.sourceRole label _ rx.bytes.2 hfits
          simp only [proofRequeue, hlabel, hrole, if_true, Function.update_self]
          rw [← ProofQueue.length_contents, hcontents, List.length_cons, ProofQueue.length_contents]
      · exact .inl (by simp [proofRequeue, hlabel, hrole])

/-! ### The invariant -/

/-- What the theorems need of a carrier. -/
structure UartCarrier.Lawful (C : UartCarrier ρ) : Prop where
  pollSend : ∀ (queues : ProofQueues) (tx : ProofTx) (o : Outgoing) (written : Bool),
    (∀ r, (queues r).WellFormed) → AppendsAtMost queues tx o (C.pollSend queues tx o written).1
  pollRecv : ∀ (parser : UartFrameParser) (queues : ProofQueues) (rx : ProofRx) (read : ρ),
    (∀ r, (queues r).WellFormed) → ∃ k drained, PollStep parser queues rx (C.takes queues rx read)
      (C.pollRecv parser queues rx read) k drained

theorem unoQUartCarrier_lawful : unoQUartCarrier.Lawful where
  pollSend _ tx o written _ := uartPollSend_appends tx o written
  pollRecv _ _ _ read hq := uartPollRecv_step hq read.1 read.2

theorem hardwarePeerCarrier_lawful : hardwarePeerCarrier.Lawful where
  pollSend _ tx o written hq := hardwarePollSend_appends hq tx o written
  pollRecv _ _ _ read hq := hardwarePollRecv_step hq read

theorem SerialCarrier.lawful : ∀ c : SerialCarrier, c.calls.Lawful
  | .unoQUart => unoQUartCarrier_lawful
  | .hardwarePeer => hardwarePeerCarrier_lawful

/-- What a carrier and its observer agree on. -/
structure CarrierInv (s : CarrierState) : Prop where
  wellFormed : ∀ r, (s.queues r).WellFormed
  replay : ∀ role lane,
    QueueEvent.replay (s.history role lane) = some (waiting s.queues role lane)
  sends : ∀ role lane, QueueEvent.sends (s.history role lane) = onLane role lane s.arrivals
  /-- As long as the parser was given every byte, it stands where the bytes leave it. -/
  fed : s.unparsed = [] → s.parser = (uartDecoder.feed .new (s.bytes.map Prod.fst)).1
  positions : ∀ a ∈ s.arrivals, ∀ n, a.position = some n → n < s.bytes.length

theorem carrierInv_init : CarrierInv .init where
  wellFormed _ := ProofQueue.wellFormed_empty
  replay _ _ := rfl
  sends _ _ := rfl
  fed _ := rfl
  positions _ h := by cases h

/-- Frames that arrived, noted where they were queued. -/
theorem replay_noteArrivals {history : U8 → U8 → List (QueueEvent LaneFrame)}
    {arrivals : List Arrival} {queues queues' : ProofQueues}
    (h : ∀ role lane, QueueEvent.replay (history role lane) = some (waiting queues role lane))
    (hw : ∀ role lane, waiting queues' role lane =
      waiting queues role lane ++ onLane role lane arrivals) (role lane : U8) :
    QueueEvent.replay (noteArrivals history arrivals role lane) =
      some (waiting queues' role lane) := by
  rw [noteArrivals, QueueEvent.replay_sents (h role lane), hw]

theorem sends_noteArrivals {history : U8 → U8 → List (QueueEvent LaneFrame)}
    {arrivals : List Arrival} {before : List Arrival}
    (h : ∀ role lane, QueueEvent.sends (history role lane) = onLane role lane before)
    (role lane : U8) : QueueEvent.sends (noteArrivals history arrivals role lane) =
      onLane role lane (before ++ arrivals) := by
  rw [noteArrivals, QueueEvent.sends_append, h, QueueEvent.sends_map_sent, onLane_append]

/-- A delivery or a requeue is no send. -/
theorem sends_note {history : U8 → U8 → List (QueueEvent LaneFrame)} {e : QueueEvent LaneFrame}
    (he : QueueEvent.sends [e] = []) (role lane r l : U8) :
    QueueEvent.sends (note history role lane e r l) = QueueEvent.sends (history r l) := by
  unfold note
  split
  · rw [QueueEvent.sends_append, he, List.append_nil]
  · rfl

variable {s : CarrierState}

theorem CarrierInv.sent (h : CarrierInv s) {tx : ProofTx} {o : Outgoing} {queues : ProofQueues}
    (happends : AppendsAtMost s.queues tx o queues) : CarrierInv (s.sent tx o queues) := by
  unfold CarrierState.sent
  -- the queue's length tells whether a frame was put in
  rcases happends with rfl | ⟨hlen, hw⟩
  · rw [if_pos rfl]
    exact ⟨h.wellFormed, h.replay, h.sends, h.fed, h.positions⟩
  · rw [if_neg (by omega)]
    refine ⟨hw.wellFormed, replay_noteArrivals h.replay fun role lane => ?_,
      sends_noteArrivals h.sends, h.fed, fun a ha n hn => ?_⟩
    · by_cases hhere : role = o.targetRole ∧ lane = o.lane
      · obtain ⟨rfl, rfl⟩ := hhere
        rw [hw.here]
        simp [onLane]
      · rw [hw.elsewhere role lane hhere]
        have hnot : ¬ (o.targetRole = role ∧ o.lane = lane) := fun e => hhere ⟨e.1.symm, e.2.symm⟩
        simp [onLane, hnot]
    · rcases List.mem_append.mp ha with ha | ha
      · exact h.positions a ha n hn
      · rw [List.mem_singleton.mp ha] at hn
        cases hn

theorem CarrierInv.requeued (h : CarrierInv s) (port : ℕ) (rx rx' : ProofRx) :
    CarrierInv (s.requeued port rx rx' (proofRequeue s.queues rx).1) := by
  unfold CarrierState.requeued
  -- here too the length of the queue tells
  obtain hsame | ⟨label, hlabel, hlen, hw⟩ := proofRequeue_cases h.wellFormed rx
  · rw [hsame]
    cases rx.frameLabel with
    | none => exact ⟨h.wellFormed, h.replay, h.sends, h.fed, h.positions⟩
    | some label =>
        dsimp only
        rw [if_pos rfl]
        exact ⟨h.wellFormed, h.replay, h.sends, h.fed, h.positions⟩
  · rw [hlabel]
    dsimp only
    rw [if_neg (by omega)]
    exact ⟨hw.wellFormed, replay_note h.replay hw rfl,
      fun r l => (sends_note rfl _ _ r l).trans (h.sends r l), h.fed, h.positions⟩

variable {rx : ProofRx} {taken : List U8} {r : CarrierPoll} {k : ℕ} {queues' : ProofQueues}

/-- The drain of a poll, as the observer counts its bytes. -/
theorem PollStep.drained (h : CarrierInv s)
    (hstep : PollStep s.parser s.queues rx taken r k queues') :
    Drained s.parser s.queues (taken.take k) s.bytes.length r.parser queues' r.outcomes := by
  have hdrained := drainUart_drained rx.sessionId (taken.take k) s.bytes.length s.parser s.queues
    h.wellFormed
  rw [hstep.drain] at hdrained
  exact hdrained

theorem PollStep.length_outcomes (h : CarrierInv s)
    (hstep : PollStep s.parser s.queues rx taken r k queues') : r.outcomes.length = k := by
  rw [(hstep.drained h).length_eq, List.length_take, Nat.min_eq_left hstep.le]

/-- The parser was given every byte of a poll that drains all it takes. -/
theorem drop_eq_nil_iff_of_le {k : ℕ} {taken : List U8} (h : k ≤ taken.length) :
    taken.drop k = [] ↔ k = taken.length := by
  rw [List.drop_eq_nil_iff]
  omega

theorem fst_polledBy (sessionId : U32) (bytes : List U8) :
    (polledBy sessionId bytes).map Prod.fst = bytes := by
  simp [polledBy, List.map_map, Function.comp_def]

theorem CarrierInv.polled (h : CarrierInv s) (port : ℕ)
    (hstep : PollStep s.parser s.queues rx taken r k queues') :
    CarrierInv (s.polled port rx r) := by
  have hdrained := hstep.drained h
  have hlength := hstep.length_outcomes h
  have hreplay := replay_noteArrivals h.replay hdrained.waiting_eq
  have hsends := @sends_noteArrivals s.history (arrivalsOf s.bytes.length r.outcomes) _ h.sends
  have hrest : (∀ role lane, QueueEvent.replay ((s.polled port rx r).history role lane) =
        some (waiting r.queues role lane)) →
      (∀ role lane, QueueEvent.sends ((s.polled port rx r).history role lane) =
        onLane role lane (s.arrivals ++ arrivalsOf s.bytes.length r.outcomes)) →
      (∀ role, (r.queues role).WellFormed) → CarrierInv (s.polled port rx r) := by
    intro hreplay hsends hwf
    refine ⟨hwf, hreplay, hsends, fun hunparsed => ?_, fun a ha n hn => ?_⟩
    · obtain ⟨hbefore, hnow⟩ := List.append_eq_nil_iff.mp hunparsed
      rw [hlength, hstep.taken_eq, drop_eq_nil_iff_of_le hstep.le] at hnow
      have hparser := hdrained.parser_eq
      rw [h.fed hbefore, hnow, List.take_length] at hparser
      refine hparser.trans ?_
      simp only [CarrierState.polled, List.map_append, fst_polledBy, Decoder.feed_append,
        hstep.taken_eq]
    · simp only [CarrierState.polled, List.length_append]
      rcases List.mem_append.mp ha with ha | ha
      · have := h.positions a ha n hn
        omega
      · obtain ⟨i, hi, hposition⟩ := position_arrivalsOf ha
        have hle := hstep.le
        obtain rfl := Option.some.inj (hposition.symm.trans hn)
        rw [polledBy, List.length_map, hstep.taken_eq]
        omega
  rcases hstep.pop with ⟨hqueues, -, hanswer⟩ | ⟨f, w, bytes, hfront, hw, hanswer, -⟩
  · have hhistory : (s.polled port rx r).history =
        noteArrivals s.history (arrivalsOf s.bytes.length r.outcomes) := by
      unfold CarrierState.polled
      dsimp only
      split
      · rename_i frame heq
        exact absurd heq (hanswer frame)
      · rfl
    refine hrest ?_ ?_ ?_
    · rw [hhistory, hqueues]; exact hreplay
    · rw [hhistory]; exact hsends
    · rw [hqueues]; exact hdrained.wellFormed
  · have hhistory : (s.polled port rx r).history =
        note (noteArrivals s.history (arrivalsOf s.bytes.length r.outcomes)) rx.localRole rx.lane
          (.delivered f) := by
      unfold CarrierState.polled
      rw [hanswer]
      rfl
    refine hrest ?_ ?_ hw.wellFormed
    · rw [hhistory]
      exact replay_note hreplay hw (by rw [hfront]; exact if_pos rfl)
    · rw [hhistory]
      exact fun r l => (sends_note rfl _ _ r l).trans (hsends r l)

/-- **A poll drops nothing exactly when there is room**, if nothing was dropped before. -/
theorem allDrained_polled (h : CarrierInv s) (port : ℕ)
    (hstep : PollStep s.parser s.queues rx taken r k queues') :
    AllDrained (s.polled port rx r) ↔ AllDrained s ∧ Room rx.sessionId s.parser s.queues taken := by
  have hlength := hstep.length_outcomes h
  have hwire : (s.arrivals ++ arrivalsOf s.bytes.length r.outcomes).filter
      (fun a => a.position.isSome) =
      s.arrivals.filter (fun a => a.position.isSome) ++ arrivalsOf s.bytes.length r.outcomes := by
    have hall : (arrivalsOf s.bytes.length r.outcomes).filter (fun a => a.position.isSome) =
        arrivalsOf s.bytes.length r.outcomes := by
      refine List.filter_eq_self.mpr fun a ha => ?_
      obtain ⟨i, -, hposition⟩ := position_arrivalsOf ha
      rw [hposition]
      rfl
    rw [List.filter_append, hall]
  have haccepted : accepted .new 0 (s.bytes ++ polledBy rx.sessionId taken) =
      accepted .new 0 s.bytes ++ accepted (uartDecoder.feed .new (s.bytes.map Prod.fst)).1
        s.bytes.length (polledBy rx.sessionId taken) := by
    rw [accepted_append, Nat.zero_add]
  have hunparsed : (s.polled port rx r).unparsed = [] ↔ s.unparsed = [] ∧ k = taken.length := by
    rw [← drop_eq_nil_iff_of_le hstep.le]
    simp only [CarrierState.polled, List.append_eq_nil_iff, hlength, hstep.taken_eq]
  -- with every byte given to the parser, this poll's frames are what it is given completes
  have hnow : s.unparsed = [] → k = taken.length →
      (arrivalsOf s.bytes.length r.outcomes =
          accepted (uartDecoder.feed .new (s.bytes.map Prod.fst)).1 s.bytes.length
            (polledBy rx.sessionId taken) ↔ ∀ o ∈ r.outcomes, ¬ o.Refused) := by
    intro hbefore hk
    have hiff := @arrivals_eq_iff rx.sessionId (taken.take k) s.bytes.length s.parser s.queues
      h.wellFormed
    rw [hstep.drain, hk, List.take_length, h.fed hbefore] at hiff
    exact hiff
  rw [AllDrained, AllDrained, hunparsed, ← hstep.room]
  simp only [CarrierState.polled, hstep.taken_eq]
  rw [hwire, haccepted]
  constructor
  · rintro ⟨heq, hbefore, hk⟩
    have hold := @append_inj_of_all _ (fun a : Arrival => a.position.all (· < s.bytes.length)) _
      (s.arrivals.filter fun a => a.position.isSome) (arrivalsOf s.bytes.length r.outcomes)
      (accepted .new 0 s.bytes) _ (fun a ha => ?_) (fun a ha => ?_) (fun a ha => ?_)
      (fun a ha => ?_) heq
    · exact ⟨⟨hold.1, hbefore⟩, hk, (hnow hbefore hk).mp hold.2⟩
    · cases hposition : a.position with
      | none => rfl
      | some n => simpa using h.positions a (List.mem_filter.mp ha).1 n hposition
    · obtain ⟨i, -, hposition⟩ := position_arrivalsOf ha
      simp [hposition]
    · obtain ⟨i, hi, hposition⟩ := position_accepted ha
      simpa [hposition] using hi
    · obtain ⟨i, -, hposition⟩ := position_accepted ha
      simp [hposition]
  · rintro ⟨⟨hold, hbefore⟩, hk, hnone⟩
    exact ⟨by rw [hold, (hnow hbefore hk).mpr hnone], hbefore, hk⟩

/-- A frame a port sends comes from no byte of the serial port. -/
theorem allDrained_sent (tx : ProofTx) (o : Outgoing) (queues : ProofQueues) :
    AllDrained (s.sent tx o queues) ↔ AllDrained s := by
  unfold CarrierState.sent AllDrained
  split
  · rfl
  · dsimp only
    rw [List.filter_append]
    simp

theorem carrierInv_step {C : UartCarrier ρ} (hC : C.Lawful) (s : CarrierState)
    (a : CarrierAction ρ) (t : CarrierState) (h : CarrierInv s)
    (hnext : (carrierMachine C).next s a = some t) : CarrierInv t := by
  cases a with
  | «open» port as =>
      simp only [carrierMachine, carrierNext] at hnext
      split at hnext
      · cases hnext
      · cases hnext
        exact ⟨h.wellFormed, h.replay, h.sends, h.fed, h.positions⟩
  | pollSend port o written =>
      obtain ⟨tx, -, rfl⟩ := Option.map_eq_some_iff.mp hnext
      exact h.sent (hC.pollSend s.queues tx o written h.wellFormed)
  | pollRecv port read =>
      obtain ⟨rx, -, rfl⟩ := Option.map_eq_some_iff.mp hnext
      obtain ⟨k, drained, hstep⟩ := hC.pollRecv s.parser s.queues rx read h.wellFormed
      exact h.polled port hstep
  | requeue port =>
      obtain ⟨rx, -, rfl⟩ := Option.map_eq_some_iff.mp hnext
      exact h.requeued port rx _

/-- Only a poll without room drops anything. -/
theorem allDrained_step {C : UartCarrier ρ} (hC : C.Lawful) (s : CarrierState)
    (a : CarrierAction ρ) (t : CarrierState) (h : CarrierInv s)
    (hnext : (carrierMachine C).next s a = some t) :
    AllDrained t ↔ AllDrained s ∧ FindsRoom C s a := by
  cases a with
  | «open» port as =>
      simp only [carrierMachine, carrierNext] at hnext
      split at hnext
      · cases hnext
      · cases hnext
        exact (and_iff_left trivial).symm
  | pollSend port o written =>
      obtain ⟨tx, -, rfl⟩ := Option.map_eq_some_iff.mp hnext
      rw [allDrained_sent]
      exact (and_iff_left trivial).symm
  | pollRecv port read =>
      obtain ⟨rx, hrx, rfl⟩ := Option.map_eq_some_iff.mp hnext
      obtain ⟨k, drained, hstep⟩ := hC.pollRecv s.parser s.queues rx read h.wellFormed
      rw [allDrained_polled h port hstep]
      refine and_congr_right fun _ => ⟨fun hroom rx' hrx' => ?_, fun hroom => hroom rx hrx⟩
      obtain rfl := Option.some.inj (hrx.symm.trans hrx')
      exact hroom
  | requeue port =>
      obtain ⟨rx, -, rfl⟩ := Option.map_eq_some_iff.mp hnext
      exact (and_iff_left trivial).symm

/-! ### The result -/

/-- What a carrier does for the frames it has queued, on a role's lane. -/
structure LaneServed (C : UartCarrier ρ) (s : CarrierState) (role lane : U8) : Prop where
  /-- The history is that of a first-in first-out queue with put-back. -/
  replay : QueueEvent.replay (s.history role lane) = some (waiting s.queues role lane)
  /-- A frame was delivered once for each arrival and requeue of it, unless it waits. -/
  count : ∀ f, (QueueEvent.deliveries (s.history role lane)).count f +
      (waiting s.queues role lane).count f =
    (onLane role lane s.arrivals).count f + (QueueEvent.requeues (s.history role lane)).count f
  /-- The first frame that waits is what the next `poll_recv` of the lane answers. -/
  answer : ∀ port rx, s.rxs port = some rx → rx.localRole = role → rx.lane = lane →
    role.toNat < proofCarrierRoles → ∀ f w, waiting s.queues role lane = f :: w →
    ∀ read, (C.pollRecv s.parser s.queues rx read).answer = expectedAnswer rx [f]

/-- **What a lawful carrier does.** -/
theorem UartCarrier.Lawful.serves {C : UartCarrier ρ} (hC : C.Lawful) {as : List (CarrierAction ρ)}
    {s : CarrierState} (hrun : (carrierMachine C).exec .init as = some s) :
    (AllDrained s ↔ (carrierMachine C).Along (FindsRoom C) .init as) ∧
      ∀ role lane, LaneServed C s role lane := by
  have hinv : CarrierInv s := Machine.exec_keeps (carrierInv_step hC) carrierInv_init hrun
  have hiff := Machine.exec_iff_along_of_invariant (carrierInv_step hC) (allDrained_step hC)
    carrierInv_init hrun
  refine ⟨hiff.trans (and_iff_right ⟨rfl, rfl⟩), fun role lane =>
    ⟨hinv.replay role lane, fun f => ?_, ?_⟩⟩
  · rw [QueueEvent.replay_count (hinv.replay role lane), hinv.sends]
  · rintro port rx - rfl rfl hrole f w hfront read
    obtain ⟨k, drained, hstep⟩ := hC.pollRecv s.parser s.queues rx read hinv.wellFormed
    exact hstep.serves hrole f w hfront

/-- **The UART carriers drop nothing exactly when every read finds room**, in every run of either;
and what they have queued they hand out once each, in order. -/
theorem uartCarriers_drop_nothing (c : SerialCarrier) (as : List (CarrierAction c.Read))
    (s : CarrierState) (hrun : (carrierMachine c.calls).exec .init as = some s) :
    (AllDrained s ↔ (carrierMachine c.calls).Along (FindsRoom c.calls) .init as) ∧
      ∀ role lane, LaneServed c.calls s role lane :=
  c.lawful.serves hrun

instance (s : CarrierState) : Decidable (AllDrained s) :=
  inferInstanceAs (Decidable (_ = _ ∧ _ = _))

instance (sessionId : U32) (parser : UartFrameParser) (queues : ProofQueues) (bytes : List U8) :
    Decidable (Room sessionId parser queues bytes) :=
  inferInstanceAs (Decidable (∀ r < proofCarrierRoles, _))

instance (C : UartCarrier ρ) (s : CarrierState) : ∀ a, Decidable (FindsRoom C s a)
  | .pollRecv port read =>
      match h : s.rxs port with
      | none => isTrue fun rx hrx => by rw [h] at hrx; cases hrx
      | some rx => decidable_of_iff (Room rx.sessionId s.parser s.queues (C.takes s.queues rx read))
          ⟨fun H rx' hrx' => by rw [h] at hrx'; cases hrx'; exact H, fun H => H rx h⟩
  | .open _ _ | .pollSend _ _ _ | .requeue _ => isTrue trivial

/-- A frame of session 7 on lane 3, with no payload. -/
def bareFrame (source peer : U8) : UartCarrierFrame :=
  { sessionId := 7, lane := 3, source, peer, frameLabel := 5, payload := .empty _ }

/-- What one read of the serial port gives of the bytes that are there. -/
def serialRead (bytes : List U8) : SerialRead := .ok ⟨bytes.take 64, List.length_take_le _ _⟩

/-- Role 2 opens a port, and role 1 one on lane 3. -/
def openPorts {ρ : Type} : List (CarrierAction ρ) :=
  [.open 0 { localRole := 2, sessionId := 7, lane := 4 },
    .open 1 { localRole := 1, sessionId := 7, lane := 3 }]

/-- Two frames in one read, and both carriers queue both. -/
theorem uartCarriers_drop_nothing_twoFrames :
    (∃ s, (carrierMachine unoQUartCarrier).exec .init (openPorts ++
        [.pollRecv 1 ((bareFrame 0 1).image ++ (bareFrame 0 2).image, false)]) = some s ∧
      AllDrained s ∧ ∀ role lane, LaneServed unoQUartCarrier s role lane) ∧
    ∃ s, (carrierMachine hardwarePeerCarrier).exec .init (openPorts ++
        [.pollRecv 1 (serialRead ((bareFrame 0 1).image ++ (bareFrame 0 2).image))]) = some s ∧
      AllDrained s ∧ ∀ role lane, LaneServed hardwarePeerCarrier s role lane := by
  have huart : ((carrierMachine unoQUartCarrier).exec .init (openPorts ++
      [.pollRecv 1 ((bareFrame 0 1).image ++ (bareFrame 0 2).image, false)])).isSome := by
    decide +kernel
  have hserial : ((carrierMachine hardwarePeerCarrier).exec .init (openPorts ++
      [.pollRecv 1 (serialRead ((bareFrame 0 1).image ++ (bareFrame 0 2).image))])).isSome := by
    decide +kernel
  obtain ⟨s, hs⟩ := Option.isSome_iff_exists.mp huart
  obtain ⟨t, ht⟩ := Option.isSome_iff_exists.mp hserial
  have huartRoom : (carrierMachine unoQUartCarrier).Along (FindsRoom unoQUartCarrier) .init
      (openPorts ++ [.pollRecv 1 ((bareFrame 0 1).image ++ (bareFrame 0 2).image, false)]) := by
    decide +kernel
  have hserialRoom : (carrierMachine hardwarePeerCarrier).Along (FindsRoom hardwarePeerCarrier)
      .init (openPorts ++
        [.pollRecv 1 (serialRead ((bareFrame 0 1).image ++ (bareFrame 0 2).image))]) := by
    decide +kernel
  obtain ⟨hs', hslanes⟩ := uartCarriers_drop_nothing .unoQUart _ s hs
  obtain ⟨ht', htlanes⟩ := uartCarriers_drop_nothing .hardwarePeer _ t ht
  exact ⟨⟨s, hs, hs'.mpr huartRoom, hslanes⟩, ⟨t, ht, ht'.mpr hserialRoom, htlanes⟩⟩

/-- What the two ports find. -/
theorem exec_openPorts (C : UartCarrier ρ) :
    ∃ s, (carrierMachine C).exec .init openPorts = some s ∧ s.parser = .new ∧
      s.queues = (fun _ => .empty) ∧ s.bytes = [] ∧
      s.rxs 1 = some (proofOpen { localRole := 1, sessionId := 7, lane := 3 }).2 :=
  ⟨_, rfl, rfl, rfl, rfl, rfl⟩

/-- More than 24 frames for role 1 in the first poll of the board, and one is dropped. -/
theorem exec_tooMany {bytes : List U8}
    (hmany : proofCarrierQueueDepth < forRole 1 (accepted .new 0 (polledBy 7 bytes))) :
    ∃ s, (carrierMachine unoQUartCarrier).exec .init (openPorts ++ [.pollRecv 1 (bytes, false)]) =
      some s ∧ s.bytes = polledBy 7 bytes ∧ ¬ AllDrained s := by
  obtain ⟨s, hopened, hparser, hqueues, hbytes, hrx⟩ := exec_openPorts unoQUartCarrier
  have hfull : ¬ FindsRoom unoQUartCarrier s (.pollRecv 1 (bytes, false)) := by
    intro hroom
    have := hroom _ hrx 1 (by decide)
    rw [hparser, hqueues] at this
    exact absurd (Nat.le_trans (Nat.le_add_left _ _) this) (Nat.not_le.mpr hmany)
  have hpoll : (carrierMachine unoQUartCarrier).next s (.pollRecv 1 (bytes, false)) =
      some (s.polled 1 (proofOpen { localRole := 1, sessionId := 7, lane := 3 }).2
        (unoQUartCarrier.pollRecv s.parser s.queues _ (bytes, false))) :=
    congrArg (Option.map _) hrx
  have hrun := Machine.exec_append.mpr
    ⟨s, hopened, Machine.exec_cons.mpr ⟨_, hpoll, Machine.exec_nil _⟩⟩
  refine ⟨_, hrun, ?_, fun hall => Machine.not_along_of_exec hopened hfull
    ((unoQUartCarrier_lawful.serves hrun).1.mp hall)⟩
  obtain ⟨k, drained, hstep⟩ := unoQUartCarrier_lawful.pollRecv s.parser s.queues
    (proofOpen { localRole := 1, sessionId := 7, lane := 3 }).2 (bytes, false)
    (fun _ => by rw [hqueues]; exact ProofQueue.wellFormed_empty)
  rw [CarrierState.polled, hbytes, hstep.taken_eq]
  rfl

/-- **A full queue drops frames.**  On the board, one of 25 frames of a drain; on the Linux side,
with the queue of role 1 full, a frame for it, and with it, unparsed, the next one of the read,
which is for role 2. -/
theorem uartCarriers_drop :
    (∃ s, (carrierMachine unoQUartCarrier).exec .init (openPorts ++
        [.pollRecv 1 ((List.replicate 25 (bareFrame 0 1)).flatMap UartCarrierFrame.image, false)]) =
          some s ∧ forRole 1 (accepted .new 0 s.bytes) = 25 ∧ ¬ AllDrained s) ∧
    ∃ s, (carrierMachine hardwarePeerCarrier).exec .init (openPorts ++
        List.replicate 24
          (.pollSend 0 { targetRole := 1, frameLabel := 6, lane := 4, payload := [] } true) ++
        [.pollRecv 1 (serialRead ((bareFrame 0 1).image ++ (bareFrame 0 2).image))]) = some s ∧
      onLane 1 3 (accepted .new 0 s.bytes) = [⟨0, 5, []⟩] ∧ s.unparsed = (bareFrame 0 2).image ∧
      onLane 1 3 s.arrivals = [] ∧ onLane 2 3 s.arrivals = [] ∧ ¬ AllDrained s := by
  have hserial : ((carrierMachine hardwarePeerCarrier).exec .init (openPorts ++
        List.replicate 24
          (.pollSend 0 { targetRole := 1, frameLabel := 6, lane := 4, payload := [] } true) ++
        [.pollRecv 1 (serialRead ((bareFrame 0 1).image ++ (bareFrame 0 2).image))])).map
      (fun s => decide (onLane 1 3 (accepted .new 0 s.bytes) = [⟨0, 5, []⟩] ∧
        s.unparsed = (bareFrame 0 2).image ∧ onLane 1 3 s.arrivals = [] ∧
        onLane 2 3 s.arrivals = [] ∧ ¬ AllDrained s)) = some true := by decide +kernel
  obtain ⟨t, ht, hlost⟩ := Option.map_eq_some_iff.mp hserial
  refine ⟨?_, t, ht, of_decide_eq_true hlost⟩
  have hcount : forRole 1 (accepted .new 0 (polledBy 7
      ((List.replicate 25 (bareFrame 0 1)).flatMap UartCarrierFrame.image))) = 25 := by
    have hpass : ∀ f ∈ List.replicate 25 (bareFrame 0 1), rejectReason 7 f = none := by decide
    rw [forRole_eq, accepted_images hpass rfl]
    rfl
  obtain ⟨s, hrun, hbytes, hnot⟩ := exec_tooMany (by rw [hcount]; decide)
  exact ⟨s, hrun, by rw [hbytes, hcount], hnot⟩

end HibanaPico.UnoQ
