import HibanaPico.UnoQ.ProofCarrier

/-!
# Uno Q — Drain

How the two UART carriers empty the serial port into their queues.  Every byte goes to the parser;
a frame it completes is checked, and appended to the queue of its role.  When that queue is full,
`drain_uart` drops the frame and goes on, and `drain_serial` drops the frame, answers an error,
and drops the rest of the bytes it had read.

* `accepted`: the frames that bytes complete and that pass the checks, each with the place it ends.
* `drainUart`, `drainSerial`: the two drains, with what became of each byte.
* `Room`: the frames of a read fit in their queues.
* `accepted_images`: frames that pass the checks, sent back to back, are accepted.
* `arrivals_eq_iff`, `noneRefused_iff`, `GetsTo.all_iff`: a drain appends every accepted frame
  exactly when there is room.
-/

namespace HibanaPico.UnoQ
open HibanaPico.Support
open HibanaPico.Transport

/-- `reject_reason`; the four conditions of `drain_serial` are these. -/
def rejectReason (sessionId : U32) (frame : UartCarrierFrame) : Option ℕ :=
  if frame.sessionId ≠ sessionId then some 1
  else if frame.peer.toNat ≥ proofCarrierRoles then some 2
  else if frame.source.toNat ≥ proofCarrierRoles then some 3
  else if frame.source = frame.peer then some 4
  else none

/-- What became of one byte of a drain. -/
inductive ByteOutcome where
  /-- It completed no frame. -/
  | read
  | rejected (reason : ℕ)
  | queued (frame : UartCarrierFrame)
  /-- `push_back` refused the frame. -/
  | refused (error : TransportError)
  deriving DecidableEq

/-- One byte, in either drain. -/
def drainByte (sessionId : U32) (parser : UartFrameParser) (queues : ProofQueues) (byte : U8) :
    UartFrameParser × ProofQueues × ByteOutcome :=
  match parser.push byte with
  | (parser, none) => (parser, queues, .read)
  | (parser, some frame) =>
      match rejectReason sessionId frame with
      | some reason => (parser, queues, .rejected reason)
      | none =>
          match (queues frame.peer.toNat).pushBack frame.lane frame.source frame.frameLabel
            frame.payload.1 with
          | .error e => (parser, queues, .refused e)
          | .ok queue => (parser, Function.update queues frame.peer.toNat queue, .queued frame)

/-- `UnoQUartCarrier::drain_uart`, on the bytes there are to read. -/
def drainUart (sessionId : U32) :
    UartFrameParser → ProofQueues → List U8 → UartFrameParser × ProofQueues × List ByteOutcome
  | parser, queues, [] => (parser, queues, [])
  | parser, queues, byte :: bytes =>
      match drainByte sessionId parser queues byte with
      | (parser, queues, outcome) =>
          match drainUart sessionId parser queues bytes with
          | (parser, queues, outcomes) => (parser, queues, outcome :: outcomes)

/-- The loop of `HardwarePeerCarrier::drain_serial`, on the bytes of one read. -/
def drainSerialBytes (sessionId : U32) : UartFrameParser → ProofQueues → List U8 →
    UartFrameParser × ProofQueues × List ByteOutcome × Except TransportError Unit
  | parser, queues, [] => (parser, queues, [], .ok ())
  | parser, queues, byte :: bytes =>
      match drainByte sessionId parser queues byte with
      | (parser, queues, .refused e) => (parser, queues, [.refused e], .error e)
      | (parser, queues, outcome) =>
          match drainSerialBytes sessionId parser queues bytes with
          | (parser, queues, outcomes, result) => (parser, queues, outcome :: outcomes, result)

/-- A read of the serial port: its bytes, none when it would block, or an error. -/
abbrev SerialRead := Except Unit (FrameBytes 64)

/-- `HardwarePeerCarrier::drain_serial`, with the bytes it read. -/
def drainSerial (sessionId : U32) (parser : UartFrameParser) (queues : ProofQueues) :
    SerialRead →
      UartFrameParser × ProofQueues × List U8 × List ByteOutcome × Except TransportError Unit
  | .error () => (parser, queues, [], [], .error .failed)
  | .ok bytes =>
      match drainSerialBytes sessionId parser queues bytes.1 with
      | (parser, queues, outcomes, result) => (parser, queues, bytes.1, outcomes, result)

/-! ### The frames bytes complete -/

/-- A frame on its way to a lane: where it ended in the bytes read, if it was read, and what its
receiver is to see. -/
structure Arrival where
  position : Option ℕ
  peer : U8
  lane : U8
  frame : LaneFrame
  deriving DecidableEq

def UartCarrierFrame.arrival (f : UartCarrierFrame) (n : ℕ) : Arrival :=
  { position := some n, peer := f.peer, lane := f.lane,
    frame := ⟨f.source, f.frameLabel, f.payload.1⟩ }

/-- The frame a byte completes, if it passes the checks. -/
def completed (parser : UartFrameParser) (sessionId : U32) (byte : U8) : Option UartCarrierFrame :=
  (parser.push byte).2.filter fun f => rejectReason sessionId f = none

/-- The bytes of one poll, each with the session that polls. -/
def polledBy (sessionId : U32) (bytes : List U8) : List (U8 × U32) :=
  bytes.map fun byte => (byte, sessionId)

/-- **The frames that bytes complete** and that pass the checks; each byte comes with the session
that was polling when it was read. -/
def accepted : UartFrameParser → ℕ → List (U8 × U32) → List Arrival
  | _, _, [] => []
  | parser, n, (byte, sessionId) :: bytes =>
      ((completed parser sessionId byte).map fun f => f.arrival n).toList ++
        accepted (parser.push byte).1 (n + 1) bytes

theorem accepted_append (parser : UartFrameParser) (n : ℕ) (xs ys : List (U8 × U32)) :
    accepted parser n (xs ++ ys) = accepted parser n xs ++
      accepted (uartDecoder.feed parser (xs.map Prod.fst)).1 (n + xs.length) ys := by
  induction xs generalizing parser n with
  | nil => rfl
  | cons x xs ih =>
      simp only [List.cons_append, accepted, ih, List.map_cons, Decoder.feed_cons, List.length_cons,
        List.append_assoc]
      rw [Nat.add_right_comm, Nat.add_assoc]
      rfl

theorem position_accepted {parser : UartFrameParser} {n : ℕ} {xs : List (U8 × U32)} {a : Arrival}
    (h : a ∈ accepted parser n xs) : ∃ i < xs.length, a.position = some (n + i) := by
  induction xs generalizing parser n with
  | nil => cases h
  | cons x xs ih =>
      rcases List.mem_append.mp h with h | h
      · obtain ⟨f, -, rfl⟩ := Option.map_eq_some_iff.mp (Option.mem_toList.mp h)
        exact ⟨0, Nat.zero_lt_succ _, rfl⟩
      · obtain ⟨i, hi, hposition⟩ := ih h
        exact ⟨i + 1, Nat.succ_lt_succ hi, by rw [hposition]; congr 1; omega⟩

/-- A frame as it goes to a lane, without its place. -/
def Arrival.unplaced (a : Arrival) : U8 × U8 × LaneFrame := (a.peer, a.lane, a.frame)

/-- The frames accepted are those the parser answers with that pass the checks. -/
theorem accepted_eq_answers (sessionId : U32) (bytes : List U8) : ∀ (parser : UartFrameParser)
    (n : ℕ), (accepted parser n (polledBy sessionId bytes)).map Arrival.unplaced =
      (((uartDecoder.feed parser bytes).2.filterMap fun answer =>
        answer.filter fun f => rejectReason sessionId f = none).map fun f =>
          (f.arrival 0).unplaced) := by
  induction bytes with
  | nil => exact fun _ _ => rfl
  | cons byte bytes ih =>
      intro parser n
      have hrest := ih (parser.push byte).1 (n + 1)
      rw [polledBy] at hrest
      have hanswer : ((uartDecoder.push parser byte).2.filter fun f =>
          rejectReason sessionId f = none) = completed parser sessionId byte := rfl
      rw [polledBy, List.map_cons, accepted, List.map_append, hrest, Decoder.feed_cons,
        List.filterMap_cons, hanswer]
      cases completed parser sessionId byte with
      | none => rfl
      | some f => rfl

/-- **Frames sent back to back are accepted**, each once and in order, if they pass the checks. -/
theorem accepted_images {sessionId : U32} {fs : List UartCarrierFrame}
    (hfs : ∀ f ∈ fs, rejectReason sessionId f = none) {parser : UartFrameParser}
    (hidle : parser.len = 0) (n : ℕ) :
    (accepted parser n (polledBy sessionId (fs.flatMap UartCarrierFrame.image))).map
      Arrival.unplaced = fs.map fun f => (f.arrival 0).unplaced := by
  have hanswers := (uartFraming.feed_images fs hidle).2
  rw [accepted_eq_answers, show fs.flatMap UartCarrierFrame.image =
    fs.flatMap uartFraming.image from rfl, hanswers]
  congr 1
  induction fs with
  | nil => rfl
  | cons f fs ih =>
      have hf := hfs f List.mem_cons_self
      rw [List.flatMap_cons, List.filterMap_append,
        ih (fun g hg => hfs g (List.mem_cons_of_mem f hg))
          (uartFraming.feed_images fs hidle).2]
      have hquiet : (uartFraming.answers f).filterMap (fun answer =>
          answer.filter fun f => rejectReason sessionId f = none) = [f] := by
        have hpass : (some f).filter (fun f => rejectReason sessionId f = none) = some f := by
          simp [hf]
        rw [Framing.answers, List.filterMap_append, show uartFraming.emit f = some f from rfl,
          List.filterMap_cons_some hpass]
        simp [uartFraming]
      rw [hquiet]
      rfl

/-! ### One byte -/

/-- The frame that went into a queue. -/
def ByteOutcome.arrival (n : ℕ) : ByteOutcome → Option Arrival
  | .queued f => some (f.arrival n)
  | _ => none

def ByteOutcome.Refused : ByteOutcome → Prop
  | .refused _ => True
  | _ => False

/-- The frames a drain put into queues, each with the place it ended. -/
def arrivalsOf : ℕ → List ByteOutcome → List Arrival
  | _, [] => []
  | n, o :: os => (o.arrival n).toList ++ arrivalsOf (n + 1) os

variable {sessionId : U32} {parser : UartFrameParser} {queues : ProofQueues} {byte : U8}

theorem peer_lt_of_completed {f : UartCarrierFrame} (h : completed parser sessionId byte = some f) :
    f.peer.toNat < proofCarrierRoles := by
  obtain ⟨-, hpass⟩ := Option.filter_eq_some_iff.mp h
  simp only [rejectReason] at hpass
  split at hpass
  · cases hpass
  split at hpass
  · cases hpass
  · omega

/-- **One byte.**  It completes no frame that passes, and the queues stay; or its frame finds its
queue full, and they stay; or its frame is last in its queue. -/
theorem drainByte_cases (hq : ∀ r, (queues r).WellFormed) (sessionId : U32)
    (parser : UartFrameParser) (byte : U8) :
    (completed parser sessionId byte = none ∧ ∃ o, (∀ n, o.arrival n = none) ∧ ¬ o.Refused ∧
        drainByte sessionId parser queues byte = ((parser.push byte).1, queues, o)) ∨
      ∃ f, completed parser sessionId byte = some f ∧
        ((queues f.peer.toNat).len = proofCarrierQueueDepth ∧
            drainByte sessionId parser queues byte =
              ((parser.push byte).1, queues, .refused .failed) ∨
          ∃ queues', (queues f.peer.toNat).len < proofCarrierQueueDepth ∧
            drainByte sessionId parser queues byte = ((parser.push byte).1, queues', .queued f) ∧
            (queues' f.peer.toNat).len = (queues f.peer.toNat).len + 1 ∧
            (∀ r, r ≠ f.peer.toNat → queues' r = queues r) ∧
            Rewrites queues queues' f.peer f.lane
              (waiting queues f.peer f.lane ++ [⟨f.source, f.frameLabel, f.payload.1⟩])) := by
  unfold drainByte completed
  -- the byte completes no frame, or one that the checks reject, or one for a queue
  rcases parser.push byte with ⟨parser', _ | f⟩
  · exact .inl ⟨rfl, .read, fun _ => rfl, id, rfl⟩
  dsimp only
  cases hreason : rejectReason sessionId f with
  | some reason =>
      refine .inl ⟨?_, .rejected reason, fun _ => rfl, id, rfl⟩
      simp [hreason]
  | none =>
      refine .inr ⟨f, by simp [hreason], ?_⟩
      obtain ⟨hfull, hpush⟩ | ⟨queue, hlen, hpush, hwf, hcontents⟩ :=
        ProofQueue.pushBack_cases (hq f.peer.toNat) f.lane f.source f.frameLabel f.payload
      · exact .inl ⟨hfull, by rw [hpush]⟩
      · refine .inr ⟨_, hlen, by rw [hpush], ?_, fun r hr => Function.update_of_ne hr _ _,
          rewrites_append hq hwf hcontents⟩
        rw [Function.update_self]
        exact ProofQueue.len_of_append hcontents

/-! ### A whole drain -/

/-- The arrivals on a role's lane. -/
def onLane (role lane : U8) (arrivals : List Arrival) : List LaneFrame :=
  (arrivals.filter fun a => a.peer = role ∧ a.lane = lane).map Arrival.frame

theorem onLane_append (role lane : U8) (xs ys : List Arrival) :
    onLane role lane (xs ++ ys) = onLane role lane xs ++ onLane role lane ys := by
  simp [onLane]

/-- The frames for a role among arrivals. -/
def forRole (r : ℕ) (arrivals : List Arrival) : ℕ :=
  (arrivals.filter fun a => a.peer.toNat = r).length

theorem forRole_eq (r : ℕ) (arrivals : List Arrival) : forRole r arrivals =
    ((arrivals.map Arrival.unplaced).filter fun a => a.1.toNat = r).length := by
  rw [forRole, List.filter_map, List.length_map]
  rfl

/-- **Room**: for every role, the frames that a read completes and that pass the checks fit in
what is free of the role's queue. -/
def Room (sessionId : U32) (parser : UartFrameParser) (queues : ProofQueues) (bytes : List U8) :
    Prop :=
  ∀ r < proofCarrierRoles, (queues r).len +
    forRole r (accepted parser 0 (polledBy sessionId bytes)) ≤ proofCarrierQueueDepth

theorem accepted_cons_none {n : ℕ} {bytes : List (U8 × U32)}
    (h : completed parser sessionId byte = none) :
    accepted parser n ((byte, sessionId) :: bytes) =
      accepted (parser.push byte).1 (n + 1) bytes := by
  rw [accepted, h]
  rfl

theorem accepted_cons_some {n : ℕ} {bytes : List (U8 × U32)} {f : UartCarrierFrame}
    (h : completed parser sessionId byte = some f) :
    accepted parser n ((byte, sessionId) :: bytes) =
      f.arrival n :: accepted (parser.push byte).1 (n + 1) bytes := by
  rw [accepted, h]
  rfl

theorem position_arrivalsOf {n : ℕ} {os : List ByteOutcome} {a : Arrival}
    (h : a ∈ arrivalsOf n os) : ∃ i < os.length, a.position = some (n + i) := by
  induction os generalizing n with
  | nil => cases h
  | cons o os ih =>
      rcases List.mem_append.mp h with h | h
      · cases o with
        | queued f =>
            obtain rfl := Option.mem_some.mp (Option.mem_toList.mp h)
            exact ⟨0, Nat.zero_lt_succ _, rfl⟩
        | read | rejected _ | refused _ => cases h
      · obtain ⟨i, hi, hposition⟩ := ih h
        exact ⟨i + 1, Nat.succ_lt_succ hi, by rw [hposition]; congr 1; omega⟩

theorem drainUart_cons {queues₁ : ProofQueues} {parser₁ : UartFrameParser} {o : ByteOutcome}
    (h : drainByte sessionId parser queues byte = (parser₁, queues₁, o)) (bytes : List U8) :
    drainUart sessionId parser queues (byte :: bytes) =
      ((drainUart sessionId parser₁ queues₁ bytes).1,
        (drainUart sessionId parser₁ queues₁ bytes).2.1,
        o :: (drainUart sessionId parser₁ queues₁ bytes).2.2) := by
  rw [drainUart, h]

/-- What a drain leaves: the parser past every byte, an outcome for each, and every frame it put
in a queue last on its lane. -/
structure Drained (parser : UartFrameParser) (queues : ProofQueues) (bytes : List U8) (n : ℕ)
    (parser' : UartFrameParser) (queues' : ProofQueues) (os : List ByteOutcome) : Prop where
  parser_eq : parser' = (uartDecoder.feed parser bytes).1
  length_eq : os.length = bytes.length
  wellFormed : ∀ r, (queues' r).WellFormed
  waiting_eq : ∀ role lane, waiting queues' role lane =
    waiting queues role lane ++ onLane role lane (arrivalsOf n os)

/-- **`drain_uart`.** -/
theorem drainUart_drained (sessionId : U32) (bytes : List U8) (n : ℕ) :
    ∀ (parser : UartFrameParser) (queues : ProofQueues), (∀ r, (queues r).WellFormed) →
      Drained parser queues bytes n (drainUart sessionId parser queues bytes).1
        (drainUart sessionId parser queues bytes).2.1
        (drainUart sessionId parser queues bytes).2.2 := by
  induction bytes generalizing n with
  | nil => exact fun parser queues hq => ⟨rfl, rfl, hq, fun _ _ => (List.append_nil _).symm⟩
  | cons byte bytes ih =>
      intro parser queues hq
      obtain ⟨-, o, harrival, -, hbyte⟩ | ⟨f, -, ⟨-, hbyte⟩ | ⟨queues₁, -, hbyte, -, -, hw⟩⟩ :=
        drainByte_cases hq sessionId parser byte
      · obtain ⟨hparser, hlength, hwf, hwaiting⟩ := ih (n + 1) (parser.push byte).1 queues hq
        rw [drainUart_cons hbyte]
        refine ⟨hparser, congrArg Nat.succ hlength, hwf, fun role lane => ?_⟩
        rw [hwaiting, arrivalsOf, harrival n]
        rfl
      · obtain ⟨hparser, hlength, hwf, hwaiting⟩ := ih (n + 1) (parser.push byte).1 queues hq
        rw [drainUart_cons hbyte]
        exact ⟨hparser, congrArg Nat.succ hlength, hwf, hwaiting⟩
      · -- the frame is queued, and the rest of the drain appends behind it
        obtain ⟨hparser, hlength, hwf, hwaiting⟩ :=
          ih (n + 1) (parser.push byte).1 queues₁ hw.wellFormed
        rw [drainUart_cons hbyte]
        refine ⟨hparser, congrArg Nat.succ hlength, hwf, fun role lane => ?_⟩
        rw [hwaiting, arrivalsOf, onLane_append, ← List.append_assoc]
        congr 1
        by_cases hhere : role = f.peer ∧ lane = f.lane
        · obtain ⟨rfl, rfl⟩ := hhere
          rw [hw.here]
          simp [onLane, ByteOutcome.arrival, UartCarrierFrame.arrival]
        · rw [hw.elsewhere role lane hhere]
          have hnot : ¬ (f.peer = role ∧ f.lane = lane) := fun h => hhere ⟨h.1.symm, h.2.symm⟩
          simp [onLane, ByteOutcome.arrival, UartCarrierFrame.arrival, hnot]

/-! ### Room -/

/-- **A drain appends every accepted frame** exactly when none is refused. -/
theorem arrivals_eq_iff {bytes : List U8} {n : ℕ} {parser : UartFrameParser} {queues : ProofQueues}
    (hq : ∀ r, (queues r).WellFormed) :
    arrivalsOf n (drainUart sessionId parser queues bytes).2.2 =
        accepted parser n (polledBy sessionId bytes) ↔
      ∀ o ∈ (drainUart sessionId parser queues bytes).2.2, ¬ o.Refused := by
  induction bytes generalizing n parser queues with
  | nil => exact iff_of_true rfl fun _ h => by cases h
  | cons byte bytes ih =>
      rw [polledBy, List.map_cons, ← polledBy]
      obtain ⟨hnone, o, harrival, hkeeps, hbyte⟩ |
          ⟨f, hsome, ⟨-, hbyte⟩ | ⟨queues₁, -, hbyte, -, -, hw⟩⟩ :=
        drainByte_cases hq sessionId parser byte
      · rw [drainUart_cons hbyte, accepted_cons_none hnone, arrivalsOf, harrival n,
          List.forall_mem_cons]
        simp only [Option.toList_none, List.nil_append, ih hq, hkeeps, not_false_eq_true, true_and]
      · rw [drainUart_cons hbyte, accepted_cons_some hsome, List.forall_mem_cons]
        refine iff_of_false (fun heq => ?_) fun h => h.1 trivial
        -- the refused frame ends before every frame that comes after it
        have hmem : f.arrival n ∈ arrivalsOf (n + 1)
            (drainUart sessionId (parser.push byte).1 queues bytes).2.2 := by
          rw [show arrivalsOf (n + 1) _ = _ from heq]
          exact List.mem_cons_self
        obtain ⟨i, -, hposition⟩ := position_arrivalsOf hmem
        have := Option.some.inj hposition
        omega
      · rw [drainUart_cons hbyte, accepted_cons_some hsome, List.forall_mem_cons, arrivalsOf]
        have hkeeps : ¬ (ByteOutcome.queued f).Refused := id
        simp only [ByteOutcome.arrival, Option.toList_some, List.singleton_append,
          List.cons.injEq, true_and, ih hw.wellFormed, hkeeps, not_false_eq_true]

/-- Where the bytes start does not change how many frames there are for a role. -/
theorem forRole_accepted (r : ℕ) (bytes : List (U8 × U32)) : ∀ (parser : UartFrameParser)
    (n m : ℕ), forRole r (accepted parser n bytes) = forRole r (accepted parser m bytes) := by
  induction bytes with
  | nil => exact fun _ _ _ => rfl
  | cons x bytes ih =>
      intro parser n m
      obtain ⟨byte, sessionId⟩ := x
      have hrest := ih (parser.push byte).1 (n + 1) (m + 1)
      cases h : completed parser sessionId byte with
      | none => rw [accepted_cons_none h, accepted_cons_none h, hrest]
      | some f =>
          rw [accepted_cons_some h, accepted_cons_some h]
          unfold forRole at hrest ⊢
          by_cases hr : f.peer.toNat = r
          · simp [UartCarrierFrame.arrival, hr, hrest]
          · simp [UartCarrierFrame.arrival, hr, hrest]

/-- **No frame is refused exactly when there is room.** -/
theorem noneRefused_iff {bytes : List U8} {parser : UartFrameParser} {queues : ProofQueues}
    (hq : ∀ r, (queues r).WellFormed) :
    (∀ o ∈ (drainUart sessionId parser queues bytes).2.2, ¬ o.Refused) ↔
      Room sessionId parser queues bytes := by
  induction bytes generalizing parser queues with
  | nil => exact iff_of_true (fun _ h => by cases h) fun r _ => (hq r).len_le
  | cons byte bytes ih =>
      unfold Room
      rw [polledBy, List.map_cons, ← polledBy]
      obtain ⟨hnone, o, -, hkeeps, hbyte⟩ | ⟨f, hsome, hfound⟩ :=
        drainByte_cases hq sessionId parser byte
      · rw [drainUart_cons hbyte, accepted_cons_none hnone, List.forall_mem_cons]
        simp only [hkeeps, not_false_eq_true, true_and, ih hq, Room,
          forRole_accepted _ _ _ (0 + 1) 0]
      -- one more frame for its role, and none for another
      have hpeer := peer_lt_of_completed hsome
      have hcount : ∀ r,
          forRole r (accepted parser 0 ((byte, sessionId) :: polledBy sessionId bytes)) =
          (if f.peer.toNat = r then 1 else 0) +
            forRole r (accepted (parser.push byte).1 0 (polledBy sessionId bytes)) := by
        intro r
        rw [accepted_cons_some hsome, forRole_accepted _ _ _ 0 (0 + 1)]
        unfold forRole
        by_cases hr : f.peer.toNat = r
        · simp [UartCarrierFrame.arrival, hr, Nat.add_comm]
        · simp [UartCarrierFrame.arrival, hr]
      rcases hfound with ⟨hfull, hbyte⟩ | ⟨queues₁, hfree, hbyte, hlen, hothers, hw⟩
      · rw [drainUart_cons hbyte, List.forall_mem_cons]
        refine iff_of_false (fun h => h.1 trivial) fun h => ?_
        have := h _ hpeer
        rw [hcount, if_pos rfl] at this
        omega
      · rw [drainUart_cons hbyte, List.forall_mem_cons]
        have hkeeps : ¬ (ByteOutcome.queued f).Refused := id
        simp only [hkeeps, not_false_eq_true, true_and, ih hw.wellFormed, Room]
        refine forall_congr' fun r => imp_congr_right fun _ => ?_
        rw [hcount]
        by_cases hr : f.peer.toNat = r
        · subst hr
          rw [hlen, if_pos rfl]
          omega
        · rw [hothers r (Ne.symm hr), if_neg hr]
          omega

/-! ### `drain_serial` -/

/-- The loop of `drain_serial` gets to the first `k` bytes, on which it does what `drain_uart`
does: they are all of them, with no frame refused and no error, or one of their frames is refused,
and there is an error. -/
structure GetsTo (sessionId : U32) (parser : UartFrameParser) (queues : ProofQueues)
    (bytes : List U8) (k : ℕ) (result : Except TransportError Unit) : Prop where
  le : k ≤ bytes.length
  eq : drainSerialBytes sessionId parser queues bytes =
    ((drainUart sessionId parser queues (bytes.take k)).1,
      (drainUart sessionId parser queues (bytes.take k)).2.1,
      (drainUart sessionId parser queues (bytes.take k)).2.2, result)
  ends : k = bytes.length ∧ result = .ok () ∧
      (∀ o ∈ (drainUart sessionId parser queues (bytes.take k)).2.2, ¬ o.Refused) ∨
    (∃ e, result = .error e) ∧
      ∃ o ∈ (drainUart sessionId parser queues (bytes.take k)).2.2, o.Refused

/-- A byte whose frame is not refused, and then the rest. -/
theorem GetsTo.cons {parser₁ : UartFrameParser} {queues₁ : ProofQueues} {o : ByteOutcome}
    {bytes : List U8} {k : ℕ} {result : Except TransportError Unit}
    (hbyte : drainByte sessionId parser queues byte = (parser₁, queues₁, o)) (ho : ¬ o.Refused)
    (h : GetsTo sessionId parser₁ queues₁ bytes k result) :
    GetsTo sessionId parser queues (byte :: bytes) (k + 1) result := by
  have hdrain := drainUart_cons hbyte (bytes.take k)
  have hserial : drainSerialBytes sessionId parser queues (byte :: bytes) =
      ((drainSerialBytes sessionId parser₁ queues₁ bytes).1,
        (drainSerialBytes sessionId parser₁ queues₁ bytes).2.1,
        o :: (drainSerialBytes sessionId parser₁ queues₁ bytes).2.2.1,
        (drainSerialBytes sessionId parser₁ queues₁ bytes).2.2.2) := by
    rw [drainSerialBytes, hbyte]
    cases o with
    | read | rejected _ | queued _ => rfl
    | refused _ => exact absurd trivial ho
  refine ⟨Nat.succ_le_succ h.le, ?_, ?_⟩
  · rw [hserial, h.eq, List.take_succ_cons, hdrain]
  · rw [List.take_succ_cons, hdrain]
    rcases h.ends with ⟨hk, hresult, hnone⟩ | ⟨herror, o', ho', hrefused⟩
    · exact .inl ⟨congrArg Nat.succ hk, hresult, List.forall_mem_cons.mpr ⟨ho, hnone⟩⟩
    · exact .inr ⟨herror, o', List.mem_cons_of_mem _ ho', hrefused⟩

theorem drainSerialBytes_getsTo (sessionId : U32) (bytes : List U8) :
    ∀ (parser : UartFrameParser) (queues : ProofQueues), (∀ r, (queues r).WellFormed) →
      ∃ k result, GetsTo sessionId parser queues bytes k result := by
  induction bytes with
  | nil =>
      intro parser queues _
      exact ⟨0, .ok (), Nat.le_refl _, rfl, .inl ⟨rfl, rfl, fun _ h => by cases h⟩⟩
  | cons byte bytes ih =>
      intro parser queues hq
      obtain ⟨-, o, -, hkeeps, hbyte⟩ | ⟨f, -, ⟨-, hbyte⟩ | ⟨queues₁, -, hbyte, -, -, hw⟩⟩ :=
        drainByte_cases hq sessionId parser byte
      · obtain ⟨k, result, h⟩ := ih (parser.push byte).1 queues hq
        exact ⟨k + 1, result, h.cons hbyte hkeeps⟩
      · -- the loop stops here
        refine ⟨1, .error .failed, Nat.succ_le_succ (Nat.zero_le _), ?_, .inr ⟨⟨_, rfl⟩, ?_⟩⟩
        · rw [drainSerialBytes, hbyte, List.take_succ_cons, drainUart_cons hbyte]
          rfl
        · rw [List.take_succ_cons, drainUart_cons hbyte]
          exact ⟨_, List.mem_cons_self, trivial⟩
      · obtain ⟨k, result, h⟩ := ih (parser.push byte).1 queues₁ hw.wellFormed
        exact ⟨k + 1, result, h.cons hbyte id⟩

/-- Room for a read is room for what its first bytes complete. -/
theorem Room.take {bytes : List U8} (h : Room sessionId parser queues bytes) (k : ℕ) :
    Room sessionId parser queues (bytes.take k) := by
  intro r hr
  refine Nat.le_trans (Nat.add_le_add_left ?_ _) (h r hr)
  -- what the whole read completes begins with what its first bytes complete
  have hsplit := accepted_append parser 0 (polledBy sessionId (bytes.take k))
    (polledBy sessionId (bytes.drop k))
  have hall : polledBy sessionId (bytes.take k) ++ polledBy sessionId (bytes.drop k) =
      polledBy sessionId bytes := by
    rw [polledBy, polledBy, ← List.map_append, List.take_append_drop]
    rfl
  rw [hall] at hsplit
  rw [hsplit, forRole, forRole, List.filter_append, List.length_append]
  exact Nat.le_add_right _ _

/-- **With room, `drain_serial` gets to every byte**, and without it drops a frame. -/
theorem GetsTo.all_iff {bytes : List U8} {k : ℕ} {result : Except TransportError Unit}
    (hq : ∀ r, (queues r).WellFormed) (h : GetsTo sessionId parser queues bytes k result) :
    (k = bytes.length ∧
        ∀ o ∈ (drainUart sessionId parser queues (bytes.take k)).2.2, ¬ o.Refused) ↔
      Room sessionId parser queues bytes := by
  constructor
  · rintro ⟨hk, hnone⟩
    rw [hk, List.take_length] at hnone
    exact (noneRefused_iff hq).mp hnone
  · intro hroom
    have hnone := (noneRefused_iff hq).mpr (hroom.take k)
    rcases h.ends with ⟨hk, -⟩ | ⟨-, o, ho, hrefused⟩
    · exact ⟨hk, hnone⟩
    · exact absurd hrefused (hnone o ho)

end HibanaPico.UnoQ
