import HibanaPico.Rp2w.Interleaving
import HibanaPico.Rp2w.Stash
import HibanaPico.Support.Ledger

/-!
# Rp2w — Delivery

Every send answered `Ok`, on whichever of its three ways, against the frames that `poll_recv` hands
out.

* `okSends`, `handed`, `discarded`: what a step answers `Ok`, hands out for the first time, and
  takes out of the FIFO for nothing.
* `delivery_step`: no step makes or loses a frame, but for a send to its own role and a frame
  discarded.
* `sio_delivery_iff`: where the words of each core are pushed frame by frame, every send answered
  `Ok` is handed out once or waits to be, exactly when no send is to its own role and no frame is
  decoded while another waits in its slot.
-/

namespace HibanaPico.Rp2w
open HibanaPico.Support
open HibanaPico.Transport
open HibanaPico.Sio

/-! ### What a step does -/

/-- The frame of a send that the step answers `Ok`. -/
def okSends (depth : ℕ) (s : SioState) : SioAction → List ReceivedFrame
  | .pollSend port o =>
      s.txs[port]?.toList.flatMap fun tx =>
        if (pollSend s.st tx o).map (fun result => result.2.2) = some (.answer (.ready (.ok ())))
        then [announced tx o] else []
  | .turn core _ =>
      match s.busy core with
      | some (.send port o) =>
          s.txs[port]?.toList.flatMap fun tx =>
            if (sendTurn s.st depth tx).2.2 = .answer (.ready (.ok ())) then [announced tx o]
            else []
      | _ => []
  | _ => []

/-- The frame of a `poll_send` to the role of its own Tx. -/
def selfSends (s : SioState) : SioAction → List ReceivedFrame
  | .pollSend port o =>
      s.txs[port]?.toList.flatMap fun tx =>
        if tx.localRole = o.targetRole then [announced tx o] else []
  | _ => []

/-- A turn of the loop of `poll_recv` that the core is in. -/
def recvPart (st : SioStatics) (rx : SioRx) (awaiting timerReady : Bool) :
    SioStatics × SioRx × RecvPhase :=
  if awaiting then recvAwait st rx timerReady else recvTurn st rx

/-- The frame handed out. -/
def handOut (rx : SioRx) : RecvPhase → List (SioRx × ReceivedFrame)
  | .answer (.ready (.ok frame)) => [(rx, frame)]
  | _ => []

theorem handOut_of_quiet {rx : SioRx} {phase : RecvPhase} (quiet : phase.Quiet) :
    handOut rx phase = [] := by
  cases phase with
  | answer answer =>
      cases answer with
      | pending => rfl
      | ready result =>
          cases result with
          | ok _ => exact quiet.elim
          | error _ => rfl
  | scan => rfl
  | await => rfl

/-- The frame that the step hands out to an Rx, other than one requeued. -/
def handed (s : SioState) : SioAction → List (SioRx × ReceivedFrame)
  | .pollRecv port =>
      s.rxs[port]?.toList.flatMap fun rx =>
        if Holds rx then [] else handOut rx (pollRecv s.st rx).2.2
  | .turn core timerReady =>
      match s.busy core with
      | some (.recv port awaiting) =>
          s.rxs[port]?.toList.flatMap fun rx =>
            handOut rx (recvPart s.st rx awaiting timerReady).2.2
      | _ => []
  | _ => []

/-- `poll_recv` answers `Pending` or an error. -/
def Fails : RecvPhase → Bool
  | .answer .pending | .answer (.ready (.error _)) => true
  | _ => false

/-- The frame that a `poll_recv` takes out of the FIFO as it answers `Pending` or an error. -/
def discarded (s : SioState) : SioAction → List ReceivedFrame
  | .turn core timerReady =>
      match s.busy core with
      | some (.recv port awaiting) =>
          s.rxs[port]?.toList.flatMap fun rx =>
            if Fails (recvPart s.st rx awaiting timerReady).2.2 then
              ((taken s.st rx).map DecodedSioFrame.received).toList
            else []
      | _ => []
  | _ => []

/-- What goes out of the balance: frames handed out, discarded, and sent to their own role. -/
def outgoings (s : SioState) (a : SioAction) : List ReceivedFrame :=
  selfSends s a ++ (handed s a).map Prod.snd ++ discarded s a

/-- The frames that core `c` was answered `Ok` for through the FIFO. -/
def completedFrames (s : SioState) (c : Core) : List ReceivedFrame :=
  (s.stream c).completed.map fun f => f.1.received

/-- The frames that the words of core `c` were decoded to. -/
def decodedFrames (s : SioState) (c : Core) : List ReceivedFrame :=
  (decodedOf (s.stream c).answers).map DecodedSioFrame.received

/-- Both cores' together. -/
def bothCores (f : Core → List ReceivedFrame) : Multiset ReceivedFrame :=
  (f .core0 : Multiset ReceivedFrame) + f .core1

theorem bothCores_congr {f g : Core → List ReceivedFrame} (h : ∀ c, f c = g c) :
    bothCores f = bothCores g := by
  rw [bothCores, bothCores, h, h]

/-- One core's list has grown at its end. -/
theorem bothCores_grow {f g : Core → List ReceivedFrame} {more : List ReceivedFrame} (core : Core)
    (grown : g core = f core ++ more) (others : ∀ c, c ≠ core → g c = f c) :
    bothCores g = bothCores f + more := by
  rw [bothCores, bothCores]
  cases core with
  | core0 => rw [grown, others .core1 (by decide), ← Multiset.coe_add, add_right_comm]
  | core1 => rw [grown, others .core0 (by decide), ← Multiset.coe_add, add_assoc]

/-! ### The steps -/

variable {depth : ℕ} {s t : SioState}

/-- The balance of a step. -/
def Balanced (depth : ℕ) (s : SioState) (a : SioAction) (t : SioState) : Prop :=
  stashed s.st + bothCores (completedFrames s) + ↑(okSends depth s a) +
      bothCores (decodedFrames t) =
    ↑(outgoings s a) + (stashed t.st + bothCores (completedFrames t)) +
      bothCores (decodedFrames s)

/-- A step that has to do with no frame. -/
theorem balanced_of_same {a : SioAction} (ok : okSends depth s a = []) (out : outgoings s a = [])
    (stash : t.st.stash = s.st.stash)
    (streams : ∀ c, (t.stream c).completed = (s.stream c).completed ∧
      (t.stream c).answers = (s.stream c).answers) : Balanced depth s a t := by
  have completed : bothCores (completedFrames t) = bothCores (completedFrames s) :=
    bothCores_congr fun c => by rw [completedFrames, completedFrames, (streams c).1]
  have decoded : bothCores (decodedFrames t) = bothCores (decodedFrames s) :=
    bothCores_congr fun c => by rw [decodedFrames, decodedFrames, (streams c).2]
  rw [Balanced, ok, out, stashed_congr stash, completed, decoded, Multiset.coe_nil, add_zero,
    zero_add]

/-- A `poll_send` before its loop. -/
theorem balanced_pollSend {port : ℕ} {o : Outgoing} {tx tx' : SioTx} {st : SioStatics}
    {phase : SendPhase} (htx : s.txs[port]? = some tx)
    (h : pollSend s.st tx o = some (st, tx', phase)) :
    Balanced depth s (.pollSend port o) (s.sendStarted port o st tx' phase) := by
  have ok : okSends depth s (.pollSend port o) =
      if phase = .answer (.ready (.ok ())) then [announced tx o] else [] := by
    simp [okSends, htx, h]
  have out : outgoings s (.pollSend port o) =
      if tx.localRole = o.targetRole then [announced tx o] else [] := by
    simp [outgoings, selfSends, handed, discarded, htx]
  have completed : bothCores (completedFrames (s.sendStarted port o st tx' phase)) =
    bothCores (completedFrames s) := rfl
  have decoded : bothCores (decodedFrames (s.sendStarted port o st tx' phase)) =
    bothCores (decodedFrames s) := rfl
  rw [Balanced, ok, out, completed, decoded]
  show _ = _ + (stashed st + _) + _
  cases stashSend_cases h with
  | self own =>
      rw [if_pos rfl, if_pos own]
      abel
  | kept other notOk same =>
      rw [if_neg notOk, if_neg other, stashed_congr same, Multiset.coe_nil]
      abel
  | stashed other frame role near empty filled =>
      rw [if_pos rfl, if_neg other, stashed_fill empty filled, frame, Multiset.coe_nil,
        Multiset.coe_singleton]
      abel

/-- A turn of the loop of `poll_send`. -/
theorem balanced_sendTurn (hinv : TxInv s) {core : Core} {timerReady : Bool} {port : ℕ}
    {o : Outgoing} {tx tx' : SioTx} {st : SioStatics} {phase : SendPhase}
    (hbusy : s.busy core = some (.send port o)) (htx : s.txs[port]? = some tx)
    (h : sendTurn s.st depth tx = (st, tx', phase)) :
    Balanced depth s (.turn core timerReady) (s.sendTurned port o st tx' phase) := by
  have ok : okSends depth s (.turn core timerReady) =
      if phase = .answer (.ready (.ok ())) then [announced tx o] else [] := by
    simp [okSends, hbusy, htx, h]
  have out : outgoings s (.turn core timerReady) = [] := by
    simp [outgoings, selfSends, handed, discarded, hbusy]
  have turn := sendTurn_cases s.st depth tx
  rw [h] at turn
  have stash : st.stash = s.st.stash := by cases turn <;> rfl
  have core_eq : tx'.coreId = tx.coreId := by cases turn <;> rfl
  have frame : callFrame tx' o = callFrame tx o := by cases turn <;> rfl
  have answers : ∀ c, ((s.sendTurned port o st tx' phase).stream c).answers =
      (s.stream c).answers := by
    intro c
    by_cases hc : c = tx'.coreId
    · rw [hc, stream_sendTurned]
      rfl
    · rw [stream_sendTurned_of_ne _ _ _ _ _ hc]
  by_cases done : phase = .answer (.ready (.ok ()))
  · -- the frame is noted as the call's, which it is
    obtain ⟨p, pending⟩ : ∃ p, tx.pending = some p := by
      cases turn with
      | finished pending _ => exact ⟨_, pending⟩
      | _ => cases done
    obtain ⟨-, -, o', inflight, call⟩ := hinv.pending port tx htx p pending
    rw [(hinv.busy core port o hbusy).1] at inflight
    obtain rfl := Option.some.inj inflight
    have completed : bothCores (completedFrames (s.sendTurned port o st tx' phase)) =
        bothCores (completedFrames s) + ([announced tx o] : List ReceivedFrame) := by
      refine bothCores_grow tx'.coreId ?_ fun c hc => ?_
      · rw [completedFrames, stream_sendTurned, Stream.noteSend, if_pos done, frame, call,
          Option.toList_some, List.map_append, List.map_singleton, received_of_callFrame call]
        rfl
      · rw [completedFrames, completedFrames, stream_sendTurned_of_ne _ _ _ _ _ hc]
    have decoded : bothCores (decodedFrames (s.sendTurned port o st tx' phase)) =
        bothCores (decodedFrames s) :=
      bothCores_congr fun c => by rw [decodedFrames, decodedFrames, answers]
    rw [Balanced, ok, out, if_pos done, completed, decoded, Multiset.coe_nil]
    show _ = _ + (stashed st + _) + _
    rw [stashed_congr stash]
    abel
  · refine balanced_of_same (by rw [ok, if_neg done]) out stash fun c => ⟨?_, answers c⟩
    by_cases hc : c = tx'.coreId
    · rw [hc, stream_sendTurned, Stream.noteSend]
      exact if_neg done
    · rw [stream_sendTurned_of_ne _ _ _ _ _ hc]

theorem fifo_recvWord (st : SioStatics) (rx : SioRx) (word : U32) :
    (recvWord st rx word).1.fifo = st.fifo := by
  rw [recvWord]
  dsimp only
  cases ((st.accum rx.coreId).pushWord word).2 with
  | error e => rfl
  | ok frame =>
      cases frame with
      | none => rfl
      | some f => exact (recvTaken_keeps _ rx f).1

theorem decodedOf_append (xs ys : List SioRxAccumulator.Answer) :
    decodedOf (xs ++ ys) = decodedOf xs ++ decodedOf ys := List.filterMap_append

/-- What the observer notes of a turn is the frame that it decodes. -/
theorem decodedOf_recvPart (l : Stream) (st : SioStatics) (rx : SioRx)
    (awaiting timerReady : Bool) :
    decodedOf (l.noteRecv (st.fifo rx.coreId.peer)
        ((recvPart st rx awaiting timerReady).1.fifo rx.coreId.peer) (st.accum rx.coreId)).answers =
      decodedOf l.answers ++ (taken st rx).toList := by
  rw [Stream.noteRecv, decodedOf_append, taken]
  refine congrArg _ ?_
  obtain ⟨empty, none⟩ | ⟨word, rest, st', fifo, some, -, -, left⟩ := tryPop_cases st rx.coreId
  · rw [empty, List.take_nil]
    rfl
  · have after : (recvPart st rx awaiting timerReady).1.fifo rx.coreId.peer = rest := by
      rw [recvPart, recvAwait, recvTurn, some]
      dsimp only
      split <;> rw [fifo_recvWord, left]
    have popped : (word :: rest).take ((word :: rest).length - rest.length) = [word] := by
      rw [List.length_cons, Nat.add_sub_cancel_left]
      rfl
    rw [fifo, after, popped, Decoder.feed_cons, Decoder.feed_nil]
    show decodedOf [((st.accum rx.coreId).pushWord word).2] = _
    dsimp only
    cases ((st.accum rx.coreId).pushWord word).2 with
    | error e => rfl
    | ok frame => cases frame <;> rfl

theorem coreId_recvPart (st : SioStatics) (rx : SioRx) (awaiting timerReady : Bool) :
    (recvPart st rx awaiting timerReady).2.1.coreId = rx.coreId := by
  rw [recvPart]
  split
  · exact (recvFlow_recvAwait st rx timerReady).coreId
  · exact (recvFlow_recvTurn st rx).coreId

/-- What a part of `poll_recv` notes, of the words of the other core. -/
theorem stream_received (s : SioState) (port : ℕ) (st : SioStatics) (rx : SioRx)
    (phase : RecvPhase) : (s.received port st rx phase).stream rx.coreId.peer =
      (s.stream rx.coreId.peer).noteRecv (s.st.fifo rx.coreId.peer) (st.fifo rx.coreId.peer)
        (s.st.accum rx.coreId) :=
  Function.update_self _ _ _

theorem stream_received_of_ne (s : SioState) (port : ℕ) (st : SioStatics) {rx : SioRx}
    (phase : RecvPhase) {c : Core} (h : c ≠ rx.coreId.peer) :
    (s.received port st rx phase).stream c = s.stream c :=
  Function.update_of_ne h _ _

/-- A turn of the loop of `poll_recv`. -/
theorem balanced_recvTurn {core : Core} {timerReady awaiting : Bool} {port : ℕ} {rx rx' : SioRx}
    {st : SioStatics} {phase : RecvPhase}
    (hbusy : s.busy core = some (.recv port awaiting)) (hrx : s.rxs[port]? = some rx)
    (h : recvPart s.st rx awaiting timerReady = (st, rx', phase)) :
    Balanced depth s (.turn core timerReady) (s.received port st rx' phase) := by
  have core_eq : rx'.coreId = rx.coreId := by
    have flow := coreId_recvPart s.st rx awaiting timerReady
    rw [h] at flow
    exact flow
  have ok : okSends depth s (.turn core timerReady) = [] := by simp [okSends, hbusy]
  have out : outgoings s (.turn core timerReady) = (handOut rx phase).map Prod.snd ++
      if Fails phase then ((taken s.st rx).map DecodedSioFrame.received).toList else [] := by
    simp [outgoings, selfSends, handed, discarded, hbusy, hrx, h]
  have completed : bothCores (completedFrames (s.received port st rx' phase)) =
      bothCores (completedFrames s) := by
    refine bothCores_congr fun c => ?_
    rw [completedFrames, completedFrames]
    by_cases hc : c = rx'.coreId.peer
    · rw [hc, stream_received]
      rfl
    · rw [stream_received_of_ne _ _ _ _ hc]
  have decoded : bothCores (decodedFrames (s.received port st rx' phase)) =
      bothCores (decodedFrames s) + ((taken s.st rx).map DecodedSioFrame.received).toList := by
    refine bothCores_grow rx'.coreId.peer ?_ fun c hc => ?_
    · have noted := decodedOf_recvPart (s.stream rx.coreId.peer) s.st rx awaiting timerReady
      rw [h] at noted
      rw [decodedFrames, stream_received, core_eq, noted, List.map_append]
      exact congrArg _ (by cases taken s.st rx <;> rfl)
    · rw [decodedFrames, decodedFrames, stream_received_of_ne _ _ _ _ hc]
  rw [Balanced, ok, out, completed, decoded, Multiset.coe_nil, add_zero]
  show _ = _ + (stashed st + _) + _
  have took := took_turn s.st rx awaiting timerReady
  have part : (if awaiting then recvAwait s.st rx timerReady else recvTurn s.st rx) =
      (st, rx', phase) := h
  rw [part] at took
  generalize taken s.st rx = frame at took
  cases took with
  | nothing quiet same =>
      rw [handOut_of_quiet quiet, List.map_nil, stashed_congr same, Option.map_none,
        Option.toList_none, ite_self, List.append_nil, Multiset.coe_nil]
      abel
  | @handed f _ fits same =>
      have out : (handOut rx (.answer (.ready (.ok f.received)))).map Prod.snd ++
          (if Fails (.answer (.ready (.ok f.received))) then
            ((some f).map DecodedSioFrame.received).toList else []) = [f.received] := rfl
      rw [stashed_congr same, out, Option.map_some, Option.toList_some]
      abel
  | @stashed f _ slot misfits role empty filled =>
      have out : (handOut rx .scan).map Prod.snd ++ (if Fails .scan then
          ((some f).map DecodedSioFrame.received).toList else []) = [] := rfl
      rw [stashed_fill empty filled, out, Option.map_some, Option.toList_some, Multiset.coe_nil,
        Multiset.coe_singleton]
      abel
  | @lost f _ e misfits clashes same =>
      have out : (handOut rx (.answer (.ready (.error e)))).map Prod.snd ++
          (if Fails (.answer (.ready (.error e))) then
            ((some f).map DecodedSioFrame.received).toList else []) = [f.received] := rfl
      rw [stashed_congr same, out, Option.map_some, Option.toList_some]
      abel

/-- The part of `poll_recv` before its loop pops nothing. -/
theorem fifo_pollRecv (st : SioStatics) (rx : SioRx) : (pollRecv st rx).1.fifo = st.fifo := by
  by_cases holds : Holds rx
  · rw [pollRecv_of_holds holds]
  · rw [pollRecv_of_free holds]
    exact (recvStash_keeps st (forgetDelivered rx)).1

/-- A `poll_recv` before its loop. -/
theorem balanced_pollRecv (placed : Placed s.st) {port : ℕ} {rx rx' : SioRx} {st : SioStatics}
    {phase : RecvPhase} (hrx : s.rxs[port]? = some rx)
    (h : pollRecv s.st rx = (st, rx', phase)) :
    Balanced depth s (.pollRecv port) (s.received port st rx' phase) := by
  have ok : okSends depth s (.pollRecv port) = [] := rfl
  have out : outgoings s (.pollRecv port) =
      (if Holds rx then [] else handOut rx phase).map Prod.snd := by
    simp [outgoings, selfSends, handed, discarded, hrx, h]
  have streams : ∀ c, ((s.received port st rx' phase).stream c).completed =
        (s.stream c).completed ∧
      ((s.received port st rx' phase).stream c).answers = (s.stream c).answers := by
    intro c
    have fifo := fifo_pollRecv s.st rx
    rw [h] at fifo
    by_cases hc : c = rx'.coreId.peer
    · rw [hc, stream_received, Stream.noteRecv, show st.fifo = s.st.fifo from fifo, Nat.sub_self,
        List.take_zero, Decoder.feed_nil, List.append_nil, List.append_nil]
      exact ⟨rfl, rfl⟩
    · rw [stream_received_of_ne _ _ _ _ hc]
      exact ⟨rfl, rfl⟩
  have looked := looked_pollRecv placed rx
  rw [h] at looked
  cases looked with
  | again holds => exact balanced_of_same ok (by rw [out, if_pos holds]; rfl) rfl streams
  | nothing free quiet same =>
      refine balanced_of_same ok ?_ same streams
      rw [out, if_neg free, handOut_of_quiet quiet]
      rfl
  | @handed f _ slot free fits role full cleared =>
      have completed : bothCores (completedFrames (s.received port st rx'
          (.answer (.ready (.ok f.received))))) = bothCores (completedFrames s) :=
        bothCores_congr fun c => by rw [completedFrames, completedFrames, (streams c).1]
      have decoded : bothCores (decodedFrames (s.received port st rx'
          (.answer (.ready (.ok f.received))))) = bothCores (decodedFrames s) :=
        bothCores_congr fun c => by rw [decodedFrames, decodedFrames, (streams c).2]
      rw [Balanced, ok, out, if_neg free, completed, decoded, Multiset.coe_nil]
      show _ = _ + (stashed st + _) + _
      rw [← stashed_clear full cleared]
      simp only [handOut, List.map_cons, List.map_nil, Multiset.coe_singleton]
      abel

/-- **No step makes or loses a frame**, but for a send to its own role and a frame discarded. -/
theorem delivery_step (hinv : TxInv s) (placed : Placed s.st) {a : SioAction}
    (h : (sioMachine depth).next s a = some t) : Balanced depth s a t := by
  cases a with
  | «open» core as txSessionXor operationalDeadlineTicks =>
      obtain ⟨-, h⟩ := Option.ite_none_right_eq_some.mp h
      cases h
      exact balanced_of_same rfl rfl rfl fun _ => ⟨rfl, rfl⟩
  | pollSend port o =>
      obtain ⟨tx, htx, h⟩ := Option.bind_eq_some_iff.mp h
      obtain ⟨-, h⟩ := Option.ite_none_right_eq_some.mp h
      obtain ⟨⟨st, tx', phase⟩, hsend, rfl⟩ := Option.map_eq_some_iff.mp h
      exact balanced_pollSend htx hsend
  | cancelSend port =>
      obtain ⟨tx, htx, h⟩ := Option.bind_eq_some_iff.mp h
      obtain ⟨-, h⟩ := Option.ite_none_right_eq_some.mp h
      cases h
      refine balanced_of_same rfl rfl rfl fun c => ?_
      dsimp only [SioState.cancelled]
      by_cases hc : c = tx.coreId
      · rw [hc, Function.update_self]
        exact ⟨rfl, rfl⟩
      · rw [Function.update_of_ne hc]
        exact ⟨rfl, rfl⟩
  | pollRecv port =>
      obtain ⟨rx, hrx, h⟩ := Option.bind_eq_some_iff.mp h
      obtain ⟨-, h⟩ := Option.ite_none_right_eq_some.mp h
      cases h
      exact balanced_pollRecv placed hrx rfl
  | turn core timerReady =>
      simp only [sioMachine, sioNext] at h
      split at h
      next => cases h
      next port o hbusy =>
        obtain ⟨tx, htx, rfl⟩ := Option.map_eq_some_iff.mp h
        exact balanced_sendTurn hinv hbusy htx rfl
      next port awaiting hbusy =>
        obtain ⟨rx, hrx, rfl⟩ := Option.map_eq_some_iff.mp h
        exact balanced_recvTurn hbusy hrx rfl
  | requeue port =>
      obtain ⟨rx, hrx, h⟩ := Option.bind_eq_some_iff.mp h
      obtain ⟨-, h⟩ := Option.ite_none_right_eq_some.mp h
      cases h
      exact balanced_of_same rfl rfl rfl fun _ => ⟨rfl, rfl⟩

end HibanaPico.Rp2w
