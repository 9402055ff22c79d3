import HibanaPico.Rp2w.System
import HibanaPico.Support.Lists

/-!
# Rp2w — Streams

What the calls do to the words of a core.

* `SendTurn`, `RecvFlow`: what a turn of `poll_send` and a part of `poll_recv` do.
* `sioStep_cases`: what a step of the machine does.
* `Flow`: what is pushed was popped or is in the FIFO, and the far accumulator is what the popped
  words make it.
* `flow_step`: every step keeps the flow of both cores.
-/

namespace HibanaPico.Rp2w
open HibanaPico.Support
open HibanaPico.Transport
open HibanaPico.Sio

/-! ### The calls -/

/-- What a turn of `poll_send` does. -/
inductive SendTurn (st : SioStatics) (depth : ℕ) (tx : SioTx) :
    SioStatics → SioTx → SendPhase → Prop where
  | idle (hpending : tx.pending = none) :
      SendTurn st depth tx st tx (.answer (.ready (.error .failed)))
  | finished {p} (hpending : tx.pending = some p) (hdone : p.1.totalWords ≤ p.1.wordIndex) :
      SendTurn st depth tx st { tx with pending := none } (.answer (.ready (.ok ())))
  | full (hfull : ¬ (st.fifo tx.coreId).length < depth) :
      SendTurn st depth tx st tx (.answer .pending)
  | pushed {p} (hpending : tx.pending = some p) (hmore : p.1.wordIndex < p.1.totalWords)
      (hroom : (st.fifo tx.coreId).length < depth) :
      SendTurn st depth tx
        { st with
          fifo := Function.update st.fifo tx.coreId
            (st.fifo tx.coreId ++ [p.1.word tx.sessionId tx.localRole p.1.wordIndex]) }
        { tx with pending := some ⟨{ p.1 with wordIndex := p.1.wordIndex + 1 }, p.2⟩ } .push

theorem sendTurn_cases (st : SioStatics) (depth : ℕ) (tx : SioTx) :
    SendTurn st depth tx (sendTurn st depth tx).1 (sendTurn st depth tx).2.1
      (sendTurn st depth tx).2.2 := by
  unfold sendTurn
  cases hpending : tx.pending with
  | none => exact .idle hpending
  | some p =>
      dsimp only
      by_cases hdone : p.1.totalWords ≤ p.1.wordIndex
      · rw [if_pos hdone]
        exact .finished hpending hdone
      rw [if_neg hdone]
      by_cases hroom : (st.fifo tx.coreId).length < depth
      · rw [SioStatics.tryPush, if_pos hroom]
        exact .pushed hpending (Nat.not_le.mp hdone) hroom
      · rw [SioStatics.tryPush, if_neg hroom]
        exact .full hroom

/-- What a part of `poll_recv` does to the words: none is popped, or one, and the accumulator
takes it. -/
structure RecvFlow (st : SioStatics) (rx : SioRx) (st' : SioStatics) (rx' : SioRx) : Prop where
  coreId : rx'.coreId = rx.coreId
  flow : (st'.fifo = st.fifo ∧ st'.accum = st.accum) ∨
    ∃ word rest, st.fifo rx.coreId.peer = word :: rest ∧
      st'.fifo = Function.update st.fifo rx.coreId.peer rest ∧
      st'.accum = Function.update st.accum rx.coreId
        (wordDecoder.push (st.accum rx.coreId) word).1

theorem stashFrame_keeps {st st' : SioStatics} {core : Core} {frame : DecodedSioFrame}
    (h : st.stashFrame core frame = .ok st') : st'.fifo = st.fifo ∧ st'.accum = st.accum := by
  unfold SioStatics.stashFrame at h
  split at h
  · split at h
    · cases h
    · cases h; exact ⟨rfl, rfl⟩
  · cases h

theorem takeStashedFrame_keeps {st st' : SioStatics} {core : Core} {role : U8}
    {frame : DecodedSioFrame} (h : st.takeStashedFrame core role = some (st', frame)) :
    st'.fifo = st.fifo ∧ st'.accum = st.accum := by
  unfold SioStatics.takeStashedFrame at h
  split at h
  · obtain ⟨f, -, heq⟩ := Option.map_eq_some_iff.mp h
    cases heq
    exact ⟨rfl, rfl⟩
  · cases h

theorem recvTaken_keeps (st : SioStatics) (rx : SioRx) (frame : DecodedSioFrame) :
    (recvTaken st rx frame).1.fifo = st.fifo ∧ (recvTaken st rx frame).1.accum = st.accum ∧
      (recvTaken st rx frame).2.1.coreId = rx.coreId := by
  unfold recvTaken
  split
  · split
    · exact ⟨rfl, rfl, rfl⟩
    · rename_i hstash
      obtain ⟨hfifo, haccum⟩ := stashFrame_keeps hstash
      exact ⟨hfifo, haccum, rfl⟩
  · exact ⟨rfl, rfl, rfl⟩

theorem recvStash_keeps (st : SioStatics) (rx : SioRx) :
    (recvStash st rx).1.fifo = st.fifo ∧ (recvStash st rx).1.accum = st.accum ∧
      (recvStash st rx).2.1.coreId = rx.coreId := by
  unfold recvStash
  split
  · exact ⟨rfl, rfl, rfl⟩
  · rename_i htake
    obtain ⟨hfifo, haccum⟩ := takeStashedFrame_keeps htake
    split
    · split
      · exact ⟨hfifo, haccum, rfl⟩
      · rename_i hstash
        obtain ⟨hfifo', haccum'⟩ := stashFrame_keeps hstash
        exact ⟨hfifo'.trans hfifo, haccum'.trans haccum, rfl⟩
    · exact ⟨hfifo, haccum, rfl⟩

theorem coreId_forgetDelivered (rx : SioRx) : (forgetDelivered rx).coreId = rx.coreId := by
  unfold forgetDelivered
  split <;> rfl

theorem recvFlow_pollRecv (st : SioStatics) (rx : SioRx) :
    RecvFlow st rx (pollRecv st rx).1 (pollRecv st rx).2.1 := by
  obtain ⟨hfifo, haccum, hcore⟩ := recvStash_keeps st (forgetDelivered rx)
  rw [coreId_forgetDelivered] at hcore
  unfold pollRecv
  split
  · split
    · exact ⟨rfl, .inl ⟨rfl, rfl⟩⟩
    · exact ⟨hcore, .inl ⟨hfifo, haccum⟩⟩
  · exact ⟨hcore, .inl ⟨hfifo, haccum⟩⟩

theorem recvFlow_recvWord {st st' : SioStatics} {rx : SioRx} {word : U32}
    (hpop : st.tryPop rx.coreId = some (st', word)) :
    RecvFlow st rx (recvWord st' rx word).1 (recvWord st' rx word).2.1 := by
  unfold SioStatics.tryPop at hpop
  split at hpop
  · cases hpop
  rename_i word' rest hfifo
  cases hpop
  unfold recvWord
  dsimp only
  split
  · rename_i frame hanswer
    obtain ⟨hfifo', haccum', hcore⟩ := recvTaken_keeps
      { st with
        fifo := Function.update st.fifo rx.coreId.peer rest
        accum := Function.update st.accum rx.coreId
          ((st.accum rx.coreId).pushWord word).1 } rx frame
    exact ⟨hcore, .inr ⟨word, rest, hfifo, hfifo', haccum'⟩⟩
  · exact ⟨rfl, .inr ⟨word, rest, hfifo, rfl, rfl⟩⟩
  · exact ⟨rfl, .inr ⟨word, rest, hfifo, rfl, rfl⟩⟩

theorem recvFlow_recvTurn (st : SioStatics) (rx : SioRx) :
    RecvFlow st rx (recvTurn st rx).1 (recvTurn st rx).2.1 := by
  unfold recvTurn
  split
  · rename_i hpop; exact recvFlow_recvWord hpop
  · split <;> exact ⟨rfl, .inl ⟨rfl, rfl⟩⟩

theorem recvFlow_recvAwait (st : SioStatics) (rx : SioRx) (timerReady : Bool) :
    RecvFlow st rx (recvAwait st rx timerReady).1 (recvAwait st rx timerReady).2.1 := by
  unfold recvAwait
  split
  · rename_i hpop; exact recvFlow_recvWord hpop
  · split <;> exact ⟨rfl, .inl ⟨rfl, rfl⟩⟩

/-! ### The steps -/

/-- What a step of the machine does. -/
inductive SioStep (depth : ℕ) (s : SioState) : SioAction → SioState → Prop where
  | opened {core as txSessionXor operationalDeadlineTicks} (hidle : s.busy core = none) :
      SioStep depth s (.open core as txSessionXor operationalDeadlineTicks)
        { s with
          txs := s.txs ++
            [(openWithTxSessionXor core as txSessionXor operationalDeadlineTicks).1]
          rxs := s.rxs ++
            [(openWithTxSessionXor core as txSessionXor operationalDeadlineTicks).2]
          inflight := Function.update s.inflight s.txs.length none }
  | sendStarted {port o tx st tx' phase} (htx : s.txs[port]? = some tx)
      (hidle : s.busy tx.coreId = none) (hsend : pollSend s.st tx o = some (st, tx', phase)) :
      SioStep depth s (.pollSend port o) (s.sendStarted port o st tx' phase)
  | sendTurned {core timerReady port o tx st tx' phase}
      (hbusy : s.busy core = some (.send port o)) (htx : s.txs[port]? = some tx)
      (hturn : SendTurn s.st depth tx st tx' phase) :
      SioStep depth s (.turn core timerReady) (s.sendTurned port o st tx' phase)
  | cancelled {port tx} (htx : s.txs[port]? = some tx) (hidle : s.busy tx.coreId = none) :
      SioStep depth s (.cancelSend port) (s.cancelled port tx)
  | received {a port rx st rx' phase} (hrecv : RecvFlow s.st rx st rx')
      (hcall : a = .pollRecv port ∨ ∃ core timerReady, a = .turn core timerReady) :
      SioStep depth s a (s.received port st rx' phase)
  | requeued {port rxs} : SioStep depth s (.requeue port) { s with rxs }

theorem sioStep_cases {depth : ℕ} {s t : SioState} {a : SioAction}
    (h : (sioMachine depth).next s a = some t) : SioStep depth s a t := by
  cases a with
  | «open» core as txSessionXor operationalDeadlineTicks =>
      simp only [sioMachine, sioNext, Option.ite_none_right_eq_some] at h
      obtain ⟨hidle, h⟩ := h
      cases h
      exact .opened hidle
  | pollSend port o =>
      obtain ⟨tx, htx, h⟩ := Option.bind_eq_some_iff.mp h
      rw [Option.ite_none_right_eq_some] at h
      obtain ⟨hidle, h⟩ := h
      obtain ⟨⟨st, tx', phase⟩, hsend, rfl⟩ := Option.map_eq_some_iff.mp h
      exact .sendStarted htx hidle hsend
  | cancelSend port =>
      obtain ⟨tx, htx, h⟩ := Option.bind_eq_some_iff.mp h
      rw [Option.ite_none_right_eq_some] at h
      obtain rfl := Option.some.inj h.2
      exact .cancelled htx h.1
  | pollRecv port =>
      obtain ⟨rx, -, h⟩ := Option.bind_eq_some_iff.mp h
      rw [Option.ite_none_right_eq_some] at h
      obtain rfl := Option.some.inj h.2
      exact .received (recvFlow_pollRecv s.st rx) (.inl rfl)
  | turn core timerReady =>
      simp only [sioMachine, sioNext] at h
      split at h
      · cases h
      · rename_i hbusy
        obtain ⟨tx, htx, rfl⟩ := Option.map_eq_some_iff.mp h
        exact .sendTurned hbusy htx (sendTurn_cases s.st depth tx)
      · rename_i port awaiting _
        obtain ⟨rx, -, rfl⟩ := Option.map_eq_some_iff.mp h
        cases awaiting with
        | false => exact .received (recvFlow_recvTurn s.st rx) (.inr ⟨_, _, rfl⟩)
        | true => exact .received (recvFlow_recvAwait s.st rx timerReady) (.inr ⟨_, _, rfl⟩)
  | requeue port =>
      obtain ⟨rx, -, h⟩ := Option.bind_eq_some_iff.mp h
      rw [Option.ite_none_right_eq_some] at h
      obtain rfl := Option.some.inj h.2
      exact .requeued

/-! ### The flow of words -/

/-- What is pushed was popped or is in the FIFO, and the far accumulator has taken what was
popped. -/
structure Flow (s : SioState) (c : Core) : Prop where
  pushed : (s.stream c).pushed = (s.stream c).popped ++ s.st.fifo c
  taken : wordDecoder.feed .empty (s.stream c).popped =
    (s.st.accum c.peer, (s.stream c).answers)

theorem flow_init (c : Core) : Flow .init c := ⟨rfl, rfl⟩

/-- A turn of `poll_send` pushes what it appends. -/
theorem Flow.sendTurned {s : SioState} (h : ∀ c, Flow s c) {depth port : ℕ} {o : Outgoing}
    {tx tx' : SioTx} {st : SioStatics} {phase : SendPhase}
    (hturn : SendTurn s.st depth tx st tx' phase) (c : Core) :
    Flow (s.sendTurned port o st tx' phase) c := by
  have hcore : tx'.coreId = tx.coreId := by cases hturn <;> rfl
  have haccum : st.accum = s.st.accum := by cases hturn <;> rfl
  unfold SioState.sendTurned
  rw [hcore]
  by_cases hc : c = tx.coreId
  · subst hc
    have hflow := h tx.coreId
    refine ⟨?_, ?_⟩
    · dsimp only
      rw [Function.update_self]
      simp only [Stream.noteSend]
      rw [hflow.pushed]
      cases hturn with
      | pushed _ _ _ => simp
      | _ => simp
    · dsimp only
      rw [Function.update_self, haccum]
      exact hflow.taken
  · have hfifo : st.fifo c = s.st.fifo c := by
      cases hturn with
      | pushed _ _ _ => exact Function.update_of_ne hc _ _
      | _ => rfl
    refine ⟨?_, ?_⟩
    · dsimp only
      rw [Function.update_of_ne hc, hfifo]
      exact (h c).pushed
    · dsimp only
      rw [Function.update_of_ne hc, haccum]
      exact (h c).taken

/-- A part of `poll_recv` pops from the other core's words, and its accumulator takes it. -/
theorem Flow.received {s : SioState} (h : ∀ c, Flow s c) {port : ℕ} {rx rx' : SioRx}
    {st : SioStatics} {phase : RecvPhase} (hrecv : RecvFlow s.st rx st rx') (c : Core) :
    Flow (s.received port st rx' phase) c := by
  unfold SioState.received
  rw [hrecv.coreId]
  by_cases hc : c = rx.coreId.peer
  · subst hc
    have hflow := h rx.coreId.peer
    have htaken := hflow.taken
    rw [Core.peer_peer] at htaken
    rcases hrecv.flow with ⟨hfifo, haccum⟩ | ⟨word, rest, hword, hfifo, haccum⟩
    · refine ⟨?_, ?_⟩
      · dsimp only
        rw [Function.update_self]
        simp only [Stream.noteRecv, hfifo, Nat.sub_self, List.take_zero, List.append_nil]
        exact hflow.pushed
      · dsimp only
        rw [Function.update_self, Core.peer_peer, haccum]
        simp only [Stream.noteRecv, hfifo, Nat.sub_self, List.take_zero, List.append_nil,
          Decoder.feed_nil]
        exact htaken
    · -- the word popped is what the FIFO is shorter by
      have hpopped : (s.st.fifo rx.coreId.peer).take
          ((s.st.fifo rx.coreId.peer).length - (st.fifo rx.coreId.peer).length) = [word] := by
        rw [hword, hfifo, Function.update_self]
        simp
      refine ⟨?_, ?_⟩
      · dsimp only
        rw [Function.update_self]
        simp only [Stream.noteRecv]
        rw [hpopped, hfifo, Function.update_self, hflow.pushed, hword, List.append_assoc]
        rfl
      · dsimp only
        rw [Function.update_self, Core.peer_peer, haccum, Function.update_self]
        simp only [Stream.noteRecv]
        rw [hpopped, Decoder.feed_append, htaken]
        rfl
  · -- the words of the receiving core itself
    have hself : c = rx.coreId := by
      rw [Core.eq_peer_of_ne hc, Core.peer_peer]
    subst hself
    have hfifo : st.fifo rx.coreId = s.st.fifo rx.coreId := by
      rcases hrecv.flow with ⟨hfifo, -⟩ | ⟨word, rest, -, hfifo, -⟩
      · rw [hfifo]
      · rw [hfifo, Function.update_of_ne hc]
    have haccum : st.accum rx.coreId.peer = s.st.accum rx.coreId.peer := by
      rcases hrecv.flow with ⟨-, haccum⟩ | ⟨word, rest, -, -, haccum⟩
      · rw [haccum]
      · rw [haccum, Function.update_of_ne (Core.peer_ne _)]
    refine ⟨?_, ?_⟩
    · dsimp only
      rw [Function.update_of_ne hc, hfifo]
      exact (h rx.coreId).pushed
    · dsimp only
      rw [Function.update_of_ne hc, haccum]
      exact (h rx.coreId).taken

/-- Nothing of the flow changes. -/
theorem Flow.congr {s t : SioState} (h : ∀ c, Flow s c) (hfifo : t.st.fifo = s.st.fifo)
    (haccum : t.st.accum = s.st.accum)
    (hstream : ∀ c, (t.stream c).pushed = (s.stream c).pushed ∧
      (t.stream c).popped = (s.stream c).popped ∧ (t.stream c).answers = (s.stream c).answers)
    (c : Core) : Flow t c := by
  obtain ⟨hpushed, hpopped, hanswers⟩ := hstream c
  exact ⟨by rw [hpushed, hpopped, hfifo]; exact (h c).pushed,
    by rw [hpopped, haccum, hanswers]; exact (h c).taken⟩

theorem pollSend_keeps {st st' : SioStatics} {tx tx' : SioTx} {o : Outgoing} {phase : SendPhase}
    (h : pollSend st tx o = some (st', tx', phase)) :
    st'.fifo = st.fifo ∧ st'.accum = st.accum := by
  unfold pollSend at h
  split at h
  · cases h; exact ⟨rfl, rfl⟩
  split at h
  · cases h; exact ⟨rfl, rfl⟩
  obtain ⟨core, -, h⟩ := Option.map_eq_some_iff.mp h
  split at h
  · unfold sendStash at h
    split at h
    · cases h; exact ⟨rfl, rfl⟩
    · rename_i hstash
      cases h
      exact stashFrame_keeps hstash
  · unfold sendFifo at h
    split at h <;> (cases h; exact ⟨rfl, rfl⟩)

theorem flow_step (depth : ℕ) (s : SioState) (a : SioAction) (t : SioState) (h : ∀ c, Flow s c)
    (hstep : (sioMachine depth).next s a = some t) : ∀ c, Flow t c := by
  cases sioStep_cases hstep with
  | opened _ => exact Flow.congr h rfl rfl fun _ => ⟨rfl, rfl, rfl⟩
  | sendStarted _ _ hsend =>
      obtain ⟨hfifo, haccum⟩ := pollSend_keeps hsend
      exact Flow.congr h hfifo haccum fun _ => ⟨rfl, rfl, rfl⟩
  | sendTurned _ _ hturn => exact Flow.sendTurned h hturn
  | @cancelled _ tx _ _ =>
      refine Flow.congr h rfl rfl fun c => ?_
      simp only [SioState.cancelled]
      by_cases hc : c = tx.coreId
      · rw [hc, Function.update_self]; exact ⟨rfl, rfl, rfl⟩
      · rw [Function.update_of_ne hc]; exact ⟨rfl, rfl, rfl⟩
  | received hrecv _ => exact Flow.received h hrecv
  | requeued => exact Flow.congr h rfl rfl fun _ => ⟨rfl, rfl, rfl⟩

end HibanaPico.Rp2w
