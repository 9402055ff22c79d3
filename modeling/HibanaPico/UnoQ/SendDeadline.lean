import Mathlib.Algebra.BigOperators.Intervals
import Mathlib.Algebra.Order.BigOperators.Group.Finset
import HibanaPico.UnoQ.Soundness
import HibanaPico.UnoQ.UartCarriers

/-!
# Uno Q — The deadline of a send

`UnoQUartCarrier::poll_send` writes a frame byte by byte and, behind each byte, reads the tick
counter against the start its `Tx` keeps.  The start is set when the port is opened and when a send
succeeds, not when a send begins: the ticks between two sends count.  A send that is cut short
leaves its first bytes on the wire, before the frame of the next one.

* `writeBytes_cases`: the loop writes every byte, or stops behind the first one that finds the
  deadline elapsed.
* `sendMachine`: the sends of any number of ports, at any times, and the peer's parser.
* `answer_iff_rest`: a whole frame is read at its last byte exactly when the parser was at rest.
* `send_deadline_iff`: when the deadline strikes only sends that took that long, and frames sent
  are read.
-/

namespace HibanaPico.UnoQ
open HibanaPico.Support
open HibanaPico.Transport

/-- `UNO_Q_M33_UART_OPERATIONAL_DEADLINE_TICKS`. -/
def unoQM33UartOperationalDeadlineTicks : ℕ := 1000000000

/-- `UnoQUartTx`. -/
structure UnoQUartTx extends ProofTx where
  deadlineStartTicks : U32

/-! ### The counter -/

/-- `timer_ticks`, `now` ticks after the counter was zero. -/
def timerTicks (now : ℕ) : U32 := BitVec.ofNat 32 now

/-- `deadline_elapsed`. -/
def deadlineElapsed (now : ℕ) (startTicks : U32) : Option U32 :=
  let elapsed := timerTicks now - startTicks
  if unoQM33UartOperationalDeadlineTicks ≤ elapsed.toNat then some elapsed else none

/-- What a counter has advanced by, a while later. -/
theorem toNat_timerTicks_add_sub (now later : ℕ) (startTicks : U32) :
    (timerTicks (now + later) - startTicks).toNat =
      ((timerTicks now - startTicks).toNat + later) % 2 ^ 32 := by
  simp only [timerTicks, BitVec.toNat_sub, BitVec.toNat_ofNat]
  omega

/-- The ticks of a call up to its `i`th reading of the counter. -/
def runTicks (delay : ℕ → ℕ) (i : ℕ) : ℕ := ∑ j ∈ Finset.range (i + 1), delay j

theorem runTicks_zero (delay : ℕ → ℕ) : runTicks delay 0 = delay 0 := by simp [runTicks]

theorem runTicks_succ (delay : ℕ → ℕ) (i : ℕ) :
    runTicks delay (i + 1) = delay 0 + runTicks (fun j => delay (j + 1)) i := by
  rw [runTicks, Finset.sum_range_succ', Nat.add_comm]
  rfl

theorem runTicks_mono (delay : ℕ → ℕ) {i j : ℕ} (h : i ≤ j) :
    runTicks delay i ≤ runTicks delay j :=
  Finset.sum_le_sum_of_subset (Finset.range_subset_range.mpr (Nat.succ_le_succ h))

/-! ### The loop -/

/-- What the loop of `poll_send` leaves: the bytes written, when it last read the counter, and what
`deadline_elapsed` found there. -/
structure WrittenBytes where
  bytes : List U8
  now : ℕ
  elapsed : Option U32
  deriving DecidableEq

/-- The loop of `poll_send`, and the reading of the counter after it.  `delay i` ticks pass before
reading `i`. -/
def writeBytes (startTicks : U32) : List U8 → (ℕ → ℕ) → ℕ → WrittenBytes
  | [], delay, now => ⟨[], now + delay 0, none⟩
  | byte :: bytes, delay, now =>
      match deadlineElapsed (now + delay 0) startTicks with
      | some elapsed => ⟨[byte], now + delay 0, some elapsed⟩
      | none =>
          match writeBytes startTicks bytes (fun i => delay (i + 1)) (now + delay 0) with
          | ⟨written, now, elapsed⟩ => ⟨byte :: written, now, elapsed⟩

/-- **The loop.**  It writes every byte, or it stops behind the first one that finds the deadline
elapsed. -/
theorem writeBytes_cases (startTicks : U32) (bytes : List U8) (delay : ℕ → ℕ) (now : ℕ) :
    ((∀ i < bytes.length, deadlineElapsed (now + runTicks delay i) startTicks = none) ∧
      writeBytes startTicks bytes delay now =
        ⟨bytes, now + runTicks delay bytes.length, none⟩) ∨
    ∃ i < bytes.length, ∃ elapsed,
      deadlineElapsed (now + runTicks delay i) startTicks = some elapsed ∧
        (∀ j < i, deadlineElapsed (now + runTicks delay j) startTicks = none) ∧
        writeBytes startTicks bytes delay now =
          ⟨bytes.take (i + 1), now + runTicks delay i, some elapsed⟩ := by
  induction bytes generalizing delay now with
  | nil =>
      refine .inl ⟨fun i hi => absurd hi (Nat.not_lt_zero i), ?_⟩
      simp [writeBytes, runTicks_zero]
  | cons byte bytes ih =>
      unfold writeBytes
      cases hfirst : deadlineElapsed (now + delay 0) startTicks with
      | some elapsed =>
          refine .inr ⟨0, Nat.zero_lt_succ _, elapsed, ?_, ?_, ?_⟩
          · rw [runTicks_zero, hfirst]
          · exact fun j hj => absurd hj (Nat.not_lt_zero j)
          · rw [runTicks_zero]
            rfl
      | none =>
          -- the readings behind the first one are those of the rest of the loop
          have hlater : ∀ i, now + delay 0 + runTicks (fun j => delay (j + 1)) i =
              now + runTicks delay (i + 1) := fun i => by rw [runTicks_succ]; omega
          have hnone : ∀ n,
              (∀ j < n, deadlineElapsed (now + delay 0 + runTicks (fun j => delay (j + 1)) j)
                startTicks = none) →
              ∀ j < n + 1, deadlineElapsed (now + runTicks delay j) startTicks = none := by
            intro n hrest j hj
            cases j with
            | zero => rw [runTicks_zero, hfirst]
            | succ j => rw [← hlater]; exact hrest j (Nat.lt_of_succ_lt_succ hj)
          rcases ih (fun j => delay (j + 1)) (now + delay 0) with
            ⟨hrest, hwritten⟩ | ⟨i, hi, elapsed, helapsed, hrest, hwritten⟩
          · exact .inl ⟨hnone _ hrest, by rw [hwritten, hlater]; rfl⟩
          · refine .inr ⟨i + 1, Nat.succ_lt_succ hi, elapsed, ?_, hnone _ hrest, ?_⟩
            · rw [← hlater, helapsed]
            · rw [hwritten, hlater]
              rfl

/-! ### A call -/

/-- What a `poll_send` leaves and answers, the bytes it wrote, when it last read the counter, and
what it told `observe_deadline`. -/
structure SendPoll where
  tx : UnoQUartTx
  written : List U8
  now : ℕ
  observed : Option (U8 × U8 × U8 × U32)
  answer : Poll (Except TransportError Unit)

/-- `UnoQUartCarrier::poll_send`, called at `now`. -/
def UnoQUartTx.pollSend (tx : UnoQUartTx) (outgoing : Outgoing) (delay : ℕ → ℕ) (now : ℕ) :
    SendPoll :=
  if tx.sessionId = 0 ∨ outgoing.targetRole = tx.localRole ∨ outgoing.lane ≠ tx.lane then
    ⟨tx, [], now, none, .ready (.error .failed)⟩
  else
    match encodeUartFrame (fun _ => 0) tx.sessionId outgoing.lane tx.localRole outgoing.targetRole
      outgoing.frameLabel outgoing.payload with
    | .error e => ⟨tx, [], now, none, .ready (.error e)⟩
    | .ok (frame, len) =>
        match writeBytes tx.deadlineStartTicks (frame.slice 0 len) delay now with
        | ⟨written, now, some elapsed⟩ =>
            ⟨tx, written, now, some (1, tx.localRole, tx.lane, elapsed), .ready (.error .failed)⟩
        | ⟨written, now, none⟩ =>
            ⟨{ tx with deadlineStartTicks := timerTicks now }, written, now, none, .ready (.ok ())⟩

/-- The frame a `poll_send` writes, where it accepts the outgoing frame. -/
def ProofTx.uartFrame (tx : ProofTx) (outgoing : Outgoing) : Option UartCarrierFrame :=
  if tx.sessionId = 0 ∨ outgoing.targetRole = tx.localRole ∨ outgoing.lane ≠ tx.lane then none
  else if h : outgoing.payload.length > proofCarrierFrameBytes then none
  else some
    { sessionId := tx.sessionId
      lane := outgoing.lane
      source := tx.localRole
      peer := outgoing.targetRole
      frameLabel := outgoing.frameLabel
      payload := ⟨outgoing.payload, Outgoing.payload_le h⟩ }

/-- The counter read less than the deadline after the start, at each byte of the frame. -/
def UnoQUartTx.InTime (tx : UnoQUartTx) (f : UartCarrierFrame) (delay : ℕ → ℕ) (now : ℕ) : Prop :=
  ∀ i < f.image.length, deadlineElapsed (now + runTicks delay i) tx.deadlineStartTicks = none

/-- A frame that is refused: nothing is written. -/
theorem UnoQUartTx.pollSend_none {tx : UnoQUartTx} {outgoing : Outgoing}
    (h : tx.uartFrame outgoing = none) (delay : ℕ → ℕ) (now : ℕ) :
    tx.pollSend outgoing delay now = ⟨tx, [], now, none, .ready (.error .failed)⟩ := by
  unfold ProofTx.uartFrame at h
  unfold pollSend encodeUartFrame
  split at h
  · rename_i href
    rw [if_pos href]
  rename_i href
  rw [if_neg href]
  split at h
  · rename_i hlong
    rw [if_pos hlong]
  · cases h

/-- A frame that is accepted: what the loop does with its image. -/
theorem UnoQUartTx.pollSend_some {tx : UnoQUartTx} {outgoing : Outgoing} {f : UartCarrierFrame}
    (h : tx.uartFrame outgoing = some f) (delay : ℕ → ℕ) (now : ℕ) :
    tx.pollSend outgoing delay now =
      match writeBytes tx.deadlineStartTicks f.image delay now with
      | ⟨written, now, some elapsed⟩ =>
          ⟨tx, written, now, some (1, tx.localRole, tx.lane, elapsed), .ready (.error .failed)⟩
      | ⟨written, now, none⟩ =>
          ⟨{ tx with deadlineStartTicks := timerTicks now }, written, now, none,
            .ready (.ok ())⟩ := by
  unfold ProofTx.uartFrame at h
  unfold pollSend encodeUartFrame
  split at h
  · cases h
  rename_i href
  rw [if_neg href]
  split at h
  · cases h
  rename_i hshort
  cases h
  unfold UartCarrierFrame.image UartCarrierFrame.sent encodeUartFrame
  rw [if_neg hshort]

/-- **What a call does** with a frame it accepts: it sends the frame in time, or it stops behind the
first byte that is late. -/
theorem UnoQUartTx.pollSend_cases {tx : UnoQUartTx} {outgoing : Outgoing} {f : UartCarrierFrame}
    (h : tx.uartFrame outgoing = some f) (delay : ℕ → ℕ) (now : ℕ) :
    (tx.InTime f delay now ∧ tx.pollSend outgoing delay now =
      ⟨{ tx with deadlineStartTicks := timerTicks (now + runTicks delay f.image.length) }, f.image,
        now + runTicks delay f.image.length, none, .ready (.ok ())⟩) ∨
    ∃ i < f.image.length, ∃ elapsed,
      deadlineElapsed (now + runTicks delay i) tx.deadlineStartTicks = some elapsed ∧
        (∀ j < i, deadlineElapsed (now + runTicks delay j) tx.deadlineStartTicks = none) ∧
        tx.pollSend outgoing delay now =
          ⟨tx, f.image.take (i + 1), now + runTicks delay i,
            some (1, tx.localRole, tx.lane, elapsed), .ready (.error .failed)⟩ := by
  rw [tx.pollSend_some h]
  rcases writeBytes_cases tx.deadlineStartTicks f.image delay now with
    ⟨hall, hwritten⟩ | ⟨i, hi, elapsed, helapsed, hbefore, hwritten⟩
  · exact .inl ⟨hall, by rw [hwritten]⟩
  · exact .inr ⟨i, hi, elapsed, helapsed, hbefore, by rw [hwritten]⟩

/-- What `uartPollSend` answers, told whether every byte was written. -/
theorem uartPollSend_answer (queues : ProofQueues) (tx : ProofTx) (outgoing : Outgoing)
    (written : Bool) : (uartPollSend queues tx outgoing written).2 =
      match tx.uartFrame outgoing with
      | none => .ready (.error .failed)
      | some _ => .ready (if written then .ok () else .error .failed) := by
  unfold uartPollSend ProofTx.uartFrame encodeUartFrame
  by_cases href : tx.sessionId = 0 ∨ outgoing.targetRole = tx.localRole ∨ outgoing.lane ≠ tx.lane
  · rw [if_pos href, if_pos href]
  rw [if_neg href, if_neg href]
  by_cases hlong : outgoing.payload.length > proofCarrierFrameBytes
  · rw [if_pos hlong, dif_pos hlong]
  · rw [if_neg hlong, dif_neg hlong]

/-- The answer is that of `uartPollSend`, told whether every byte was in time. -/
theorem UnoQUartTx.pollSend_answer (tx : UnoQUartTx) (outgoing : Outgoing) (delay : ℕ → ℕ)
    (now : ℕ) (queues : ProofQueues) (written : Bool)
    (h : written = true ↔ ∀ f, tx.uartFrame outgoing = some f → tx.InTime f delay now) :
    (tx.pollSend outgoing delay now).answer =
      (uartPollSend queues tx.toProofTx outgoing written).2 := by
  rw [uartPollSend_answer]
  cases hf : tx.uartFrame outgoing with
  | none => rw [tx.pollSend_none hf]
  | some f =>
      rcases tx.pollSend_cases hf delay now with
        ⟨htime, hpoll⟩ | ⟨i, hi, elapsed, helapsed, -, hpoll⟩
      · have hwritten : written = true := h.mpr fun g hg => by
          obtain rfl : f = g := Option.some.inj (hf.symm.trans hg)
          exact htime
        rw [hpoll, hwritten]
        rfl
      · have hwritten : ¬ written = true := fun hw => by
          have hnone := h.mp hw f hf i hi
          rw [helapsed] at hnone
          cases hnone
        rw [hpoll]
        exact congrArg Poll.ready (if_neg hwritten).symm

/-! ### The peer's parser -/

/-- The answer of the peer's parser to the last byte of a whole frame. -/
theorem answer_iff_rest {p : UartFrameParser} (I : p.Inv) (f : UartCarrierFrame) :
    (uartDecoder.feed p f.image).2.getLast? = some (some f) ↔ p.len = 0 := by
  obtain ⟨mid, hmid⟩ := image_ends f
  have hlast : (uartDecoder.feed p f.image).2.getLast? =
      some ((uartDecoder.feed p (0x48 :: mid)).1.push (uartFrameChecksum f.body)).2 := by
    rw [hmid, ← List.cons_append, Decoder.feed_append, Decoder.feed_cons uartDecoder _ _ [],
      Decoder.feed_nil, List.getLast?_concat]
    rfl
  rw [hlast, Option.some.injEq]
  constructor
  · intro h
    have hheld := uartScanner.held_eq_nil_of_answer I (0x48 :: mid) hmid h
    exact List.length_eq_zero_iff.mpr hheld ▸ (Cells.length_slice p.buffer 0 p.len).symm
  · exact fun h => emit_of_idle h hmid

/-! ### Runs -/

/-- A call, when it was made, and what the peer's parser answered to the bytes it wrote. -/
structure SendNote where
  tx : UnoQUartTx
  outgoing : Outgoing
  start : ℕ
  poll : SendPoll
  answers : List (Option UartCarrierFrame)

/-- The ports of a carrier, the ticks that have passed, and the peer's parser. -/
structure SendState where
  now : ℕ
  txs : ℕ → Option UnoQUartTx
  peer : UartFrameParser
  notes : List SendNote

def SendState.init (now : ℕ) : SendState := ⟨now, fun _ => none, .new, []⟩

inductive SendAction where
  | open (port : ℕ) (as : PortOpen)
  /-- `delay i` ticks pass before the call's `i`th reading of the counter. -/
  | pollSend (port : ℕ) (outgoing : Outgoing) (delay : ℕ → ℕ)
  | idle (ticks : ℕ)

/-- A `poll_send` has answered. -/
def SendState.polled (s : SendState) (port : ℕ) (tx : UnoQUartTx) (o : Outgoing) (r : SendPoll) :
    SendState where
  now := r.now
  txs := Function.update s.txs port (some r.tx)
  peer := (uartDecoder.feed s.peer r.written).1
  notes := s.notes ++ [⟨tx, o, s.now, r, (uartDecoder.feed s.peer r.written).2⟩]

def SendState.next (s : SendState) : SendAction → Option SendState
  | .open port as =>
      if (s.txs port).isSome then none
      else some { s with
        txs := Function.update s.txs port (some ⟨(proofOpen as).1, timerTicks s.now⟩) }
  | .pollSend port o delay => (s.txs port).map fun tx =>
      s.polled port tx o (tx.pollSend o delay s.now)
  | .idle ticks => some { s with now := s.now + ticks }

/-- The sends of a carrier. -/
def sendMachine : Machine SendState SendAction := ⟨SendState.next⟩

/-- A call that failed for the deadline ran that long, and a call that succeeded made the peer's
parser emit its frame at the frame's last byte. -/
def SendNote.Sound (n : SendNote) : Prop :=
  (n.poll.observed ≠ none → unoQM33UartOperationalDeadlineTicks ≤ n.poll.now - n.start) ∧
    (n.poll.answer = .ready (.ok ()) →
      ∃ f ∈ n.tx.uartFrame n.outgoing, n.answers.getLast? = some (some f))

def SendState.Sound (s : SendState) : Prop := ∀ n ∈ s.notes, n.Sound

/-- The ticks since the port was opened or last sent a frame, modulo the counter's period. -/
def UnoQUartTx.idleTicks (tx : UnoQUartTx) (now : ℕ) : ℕ :=
  (timerTicks now - tx.deadlineStartTicks).toNat

/-- A byte written `ran` ticks into a call finds less than the deadline on the counter. -/
def UnoQUartTx.Early (tx : UnoQUartTx) (now ran : ℕ) : Prop :=
  (tx.idleTicks now + ran) % 2 ^ 32 < unoQM33UartOperationalDeadlineTicks

/-- **A timely call**: every byte written less than the deadline into it finds less than that on the
counter, and where every byte does, the peer's parser was at rest before the call. -/
def Timely (s : SendState) : SendAction → Prop
  | .pollSend port o delay => ∀ tx, s.txs port = some tx → ∀ f, tx.uartFrame o = some f →
      (∀ i < f.image.length, runTicks delay i < unoQM33UartOperationalDeadlineTicks →
        tx.Early s.now (runTicks delay i)) ∧
      ((∀ i < f.image.length, tx.Early s.now (runTicks delay i)) → s.peer.len = 0)
  | _ => True

theorem UnoQUartTx.early_iff (tx : UnoQUartTx) (now ran : ℕ) :
    tx.Early now ran ↔ deadlineElapsed (now + ran) tx.deadlineStartTicks = none := by
  unfold Early idleTicks deadlineElapsed
  rw [← toNat_timerTicks_add_sub]
  dsimp only
  split
  · rename_i h
    exact iff_of_false (Nat.not_lt.mpr h) (fun hnone => by cases hnone)
  · rename_i h
    exact iff_of_true (Nat.lt_of_not_le h) rfl

/-- A call that is refused is sound. -/
theorem sound_of_refused {tx : UnoQUartTx} {o : Outgoing} (h : tx.uartFrame o = none)
    (delay : ℕ → ℕ) (now : ℕ) (answers : List (Option UartCarrierFrame)) :
    SendNote.Sound ⟨tx, o, now, tx.pollSend o delay now, answers⟩ := by
  unfold SendNote.Sound
  rw [tx.pollSend_none h]
  exact ⟨fun hne => absurd rfl hne, fun hok => by cases hok⟩

/-- **One call** is sound exactly when it is timely. -/
theorem sound_iff_timely {tx : UnoQUartTx} {o : Outgoing} {f : UartCarrierFrame}
    (h : tx.uartFrame o = some f) (delay : ℕ → ℕ) (now : ℕ) {p : UartFrameParser} (I : p.Inv) :
    SendNote.Sound ⟨tx, o, now, tx.pollSend o delay now,
        (uartDecoder.feed p (tx.pollSend o delay now).written).2⟩ ↔
      (∀ i < f.image.length, runTicks delay i < unoQM33UartOperationalDeadlineTicks →
        tx.Early now (runTicks delay i)) ∧
      ((∀ i < f.image.length, tx.Early now (runTicks delay i)) → p.len = 0) := by
  simp only [tx.early_iff]
  unfold SendNote.Sound
  rcases tx.pollSend_cases h delay now with
    ⟨htime, hpoll⟩ | ⟨i, hi, elapsed, helapsed, hbefore, hpoll⟩
  · rw [hpoll, ← answer_iff_rest I f]
    constructor
    · rintro ⟨-, hok⟩
      obtain ⟨g, hg, hlast⟩ := hok rfl
      obtain rfl : f = g := Option.some.inj (h.symm.trans hg)
      exact ⟨fun i hi _ => htime i hi, fun _ => hlast⟩
    · rintro ⟨-, hrest⟩
      exact ⟨fun hne => absurd rfl hne, fun _ => ⟨f, h, hrest htime⟩⟩
  · have hlate : ¬ deadlineElapsed (now + runTicks delay i) tx.deadlineStartTicks = none := by
      rw [helapsed]
      simp
    rw [hpoll]
    simp only [Nat.add_sub_cancel_left]
    constructor
    · rintro ⟨hran, -⟩
      -- a byte this early stands before the one the call stopped at
      refine ⟨fun j hj hlt => hbefore j (Nat.lt_of_not_le fun hij => ?_),
        fun htime => absurd (htime i hi) hlate⟩
      have hle := hran (by simp)
      have hmono := runTicks_mono delay hij
      omega
    · rintro ⟨hearly, -⟩
      exact ⟨fun _ => Nat.le_of_not_lt fun hlt => hlate (hearly i hi hlt), fun hok => by cases hok⟩

theorem SendState.inv_next {s t : SendState} {a : SendAction} (I : s.peer.Inv)
    (h : sendMachine.next s a = some t) : t.peer.Inv := by
  cases a with
  | «open» port as =>
      obtain ⟨-, ht⟩ := Option.ite_none_left_eq_some.mp h
      cases ht
      exact I
  | pollSend port o delay =>
      obtain ⟨tx, -, rfl⟩ := Option.map_eq_some_iff.mp h
      exact uartScanner.inv_feed I _
  | idle ticks =>
      cases h
      exact I

/-- A step notes at most one call, and that call is sound exactly when the step is timely. -/
theorem SendState.sound_next {s t : SendState} {a : SendAction} (I : s.peer.Inv)
    (h : sendMachine.next s a = some t) : t.Sound ↔ s.Sound ∧ Timely s a := by
  cases a with
  | «open» port as =>
      obtain ⟨-, ht⟩ := Option.ite_none_left_eq_some.mp h
      cases ht
      exact (and_iff_left trivial).symm
  | pollSend port o delay =>
      obtain ⟨tx, htx, rfl⟩ := Option.map_eq_some_iff.mp h
      have hnote : SendNote.Sound ⟨tx, o, s.now, tx.pollSend o delay s.now,
          (uartDecoder.feed s.peer (tx.pollSend o delay s.now).written).2⟩ ↔
            Timely s (.pollSend port o delay) := by
        constructor
        · intro hsound tx' htx' f hf
          obtain rfl : tx = tx' := Option.some.inj (htx.symm.trans htx')
          exact (sound_iff_timely hf delay s.now I).mp hsound
        · intro htimely
          cases hf : tx.uartFrame o with
          | none => exact sound_of_refused hf delay s.now _
          | some f => exact (sound_iff_timely hf delay s.now I).mpr (htimely tx htx f hf)
      rw [← hnote]
      unfold SendState.Sound SendState.polled
      simp only [List.mem_append, List.mem_singleton, or_imp, forall_and, forall_eq]
  | idle ticks =>
      cases h
      exact (and_iff_left trivial).symm

/-- **The deadline of a send.**  In every run, the calls that fail for the deadline ran that long
and the frames sent are read by the peer, exactly when every call is timely. -/
theorem send_deadline_iff (now : ℕ) (as : List SendAction) (s : SendState)
    (h : sendMachine.exec (.init now) as = some s) :
    s.Sound ↔ sendMachine.Along Timely (.init now) as := by
  have hinit : (SendState.init now).Sound := fun n hn => absurd hn List.not_mem_nil
  rw [Machine.exec_iff_along_of_invariant (I := fun s => s.peer.Inv)
    (fun _ _ _ I hnext => SendState.inv_next I hnext)
    (fun _ _ _ I hnext => SendState.sound_next I hnext) UartFrameParser.inv_new h]
  exact and_iff_right hinit

instance (n : SendNote) : Decidable n.Sound := inferInstanceAs (Decidable (_ ∧ _))

instance (s : SendState) : Decidable s.Sound := List.decidableBAll _ _

/-- A port of role 1. -/
def ledPort : PortOpen := { localRole := 1, sessionId := 1, lane := 0 }

/-- What it sends. -/
def ledCommand : Outgoing := { targetRole := 0, frameLabel := 7, lane := 0, payload := [] }

/-- A deadline after the port was opened a send fails at its first byte, though no tick passes in
it; when the counter has come round, the next one succeeds, and the peer does not read it. -/
def lateSends : List SendAction :=
  [.open 0 ledPort, .idle 1000000000, .pollSend 0 ledCommand fun _ => 0, .idle 3294967296,
    .pollSend 0 ledCommand fun _ => 0]

theorem send_deadline_fails : ¬ ∀ now as s, sendMachine.exec (.init now) as = some s → s.Sound := by
  intro h
  have hrun : ((sendMachine.exec (.init 0) lateSends).any fun s => ¬ s.Sound) = true := by
    decide +kernel
  obtain ⟨s, hs, hfail⟩ := (Option.any_eq_true _ _).mp hrun
  exact (decide_eq_true_iff.mp hfail) (h 0 lateSends s hs)

/-- Two sends a while apart. -/
def timelySends : List SendAction :=
  [.open 0 ledPort, .idle 1000, .pollSend 0 ledCommand fun _ => 10, .idle 999999000,
    .pollSend 0 ledCommand fun _ => 10]

theorem send_deadline_two : ∃ s, sendMachine.exec (.init 4294967000) timelySends = some s ∧
    s.notes.length = 2 ∧ (s.Sound ↔ sendMachine.Along Timely (.init 4294967000) timelySends) := by
  have hrun : ((sendMachine.exec (.init 4294967000) timelySends).any fun s => s.notes.length = 2) =
      true := by decide +kernel
  obtain ⟨s, hs, hlen⟩ := (Option.any_eq_true _ _).mp hrun
  exact ⟨s, hs, of_decide_eq_true hlen, send_deadline_iff _ _ s hs⟩

end HibanaPico.UnoQ
