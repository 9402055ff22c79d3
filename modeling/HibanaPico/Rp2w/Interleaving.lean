import HibanaPico.Rp2w.Senders

/-!
# Rp2w — Interleaving

The words of one core, when its Txs take turns.

* `Words`: the words pushed are of the frames answered `Ok`, of cancelled ones, or out.
* `words_step`: every exclusive step keeps this.
* `interleaving_exact`: in every exclusive run the far accumulator yields the frames of the sends
  answered `Ok`, each once, in order and unchanged, and no error.
* `interleaving_mixes`: two Txs that take turns within a frame mix their words.
-/

namespace HibanaPico.Rp2w
open HibanaPico.Support
open HibanaPico.Transport
open HibanaPico.Sio

/-! ### Words out -/

/-- The words core `c` has pushed are of the frames answered `Ok`, of cancelled ones, or out of
one Tx. -/
structure Words (s : SioState) (c : Core) : Prop where
  one : ∃ i, OnlyAt (SioTx.out c) s.txs i
  counted : (s.stream c).pushed.length =
    ((s.stream c).completed.map fun f => frameWords f.1).sum + (s.stream c).cancelled.sum +
      (s.txs.flatMap (SioTx.out c)).length
  framed : (∀ k ∈ (s.stream c).cancelled, k = 0) →
    (s.stream c).pushed =
      (s.stream c).completed.flatMap wordFraming.image ++ s.txs.flatMap (SioTx.out c)

theorem words_init (c : Core) : Words .init c :=
  ⟨⟨0, fun _ _ _ h => by cases h⟩, rfl, fun _ => rfl⟩

variable {s t : SioState} {c : Core} {port : ℕ} {tx tx' : SioTx}

/-- A Tx has changed, but not its words out. -/
theorem Words.same (h : Words s c) (htx : s.txs[port]? = some tx)
    (htxs : t.txs = s.txs.set port tx') (hout : tx'.out c = tx.out c)
    (hstream : (t.stream c).pushed = (s.stream c).pushed ∧
      (t.stream c).completed = (s.stream c).completed ∧
      (t.stream c).cancelled = (s.stream c).cancelled) : Words t c := by
  obtain ⟨hpushed, hcompleted, hcancelled⟩ := hstream
  obtain ⟨i, hi⟩ := h.one
  refine ⟨⟨i, ?_⟩, ?_, ?_⟩
  · rw [htxs]
    exact hi.set fun hne => hout.trans (hi port tx hne htx)
  · rw [hpushed, hcompleted, hcancelled, htxs, flatMap_set_of_eq htx hout]
    exact h.counted
  · rw [hpushed, hcompleted, hcancelled, htxs, flatMap_set_of_eq htx hout]
    exact h.framed

/-- Nothing of the words out has changed. -/
theorem Words.congr (h : Words s c) (htxs : t.txs.flatMap (SioTx.out c) =
      s.txs.flatMap (SioTx.out c)) (hone : ∃ i, OnlyAt (SioTx.out c) t.txs i)
    (hstream : (t.stream c).pushed = (s.stream c).pushed ∧
      (t.stream c).completed = (s.stream c).completed ∧
      (t.stream c).cancelled = (s.stream c).cancelled) : Words t c := by
  obtain ⟨hpushed, hcompleted, hcancelled⟩ := hstream
  refine ⟨hone, ?_, ?_⟩
  · rw [hpushed, hcompleted, hcancelled, htxs]
    exact h.counted
  · rw [hpushed, hcompleted, hcancelled, htxs]
    exact h.framed

/-- A word more is out, of the one Tx that has words out. -/
theorem Words.pushed (h : Words s c) {word : U32} (htx : s.txs[port]? = some tx)
    (hothers : OnlyAt (SioTx.out c) s.txs port) (htxs : t.txs = s.txs.set port tx')
    (hout : tx'.out c = tx.out c ++ [word])
    (hstream : (t.stream c).pushed = (s.stream c).pushed ++ [word] ∧
      (t.stream c).completed = (s.stream c).completed ∧
      (t.stream c).cancelled = (s.stream c).cancelled) : Words t c := by
  obtain ⟨hpushed, hcompleted, hcancelled⟩ := hstream
  have hothers' : OnlyAt (SioTx.out c) t.txs port := htxs ▸ hothers.set fun hne => absurd rfl hne
  have htx' : t.txs[port]? = some tx' := htxs ▸ getElem?_set_self_of_some htx tx'
  have hbefore := flatMap_eq_of_others htx hothers
  have hafter : t.txs.flatMap (SioTx.out c) = s.txs.flatMap (SioTx.out c) ++ [word] := by
    rw [flatMap_eq_of_others htx' hothers', hout, hbefore]
  refine ⟨⟨port, hothers'⟩, ?_, fun hnone => ?_⟩
  · rw [hpushed, hcompleted, hcancelled, hafter, List.length_append, List.length_append,
      h.counted, add_assoc]
  · rw [hcancelled] at hnone
    rw [hpushed, hcompleted, hafter, h.framed hnone, List.append_assoc]

/-- All words of a frame are out, and its send is answered `Ok`. -/
theorem Words.finished (h : Words s c) {f : WordFrame} (htx : s.txs[port]? = some tx)
    (htxs : t.txs = s.txs.set port tx') (hbefore : tx.out c = wordFraming.image f)
    (hafter : tx'.out c = [])
    (hstream : (t.stream c).pushed = (s.stream c).pushed ∧
      (t.stream c).completed = (s.stream c).completed ++ [f] ∧
      (t.stream c).cancelled = (s.stream c).cancelled) : Words t c := by
  obtain ⟨hpushed, hcompleted, hcancelled⟩ := hstream
  obtain ⟨i, hi⟩ := h.one
  have hport : OnlyAt (SioTx.out c) s.txs port := by
    by_cases hne : port = i
    · exact hne ▸ hi
    · have hpos := wordFraming.image_pos f
      rw [← hbefore, hi port tx hne htx] at hpos
      exact absurd hpos (Nat.lt_irrefl 0)
  have hwas := flatMap_eq_of_others htx hport
  have his : t.txs.flatMap (SioTx.out c) = [] := by
    rw [htxs, flatMap_eq_of_others (getElem?_set_self_of_some htx tx')
      (hport.set fun hne => absurd rfl hne), hafter]
  refine ⟨⟨port, htxs ▸ hport.set fun hne => absurd rfl hne⟩, ?_, fun hnone => ?_⟩
  · have hlength : (wordFraming.image f).length = frameWords f.1 := length_frameImage f.1
    rw [hpushed, hcompleted, hcancelled, his, h.counted, hwas, hbefore, hlength, List.map_append,
      List.sum_append, List.map_singleton, List.sum_singleton, List.length_nil]
    omega
  · rw [hcancelled] at hnone
    rw [hpushed, hcompleted, his, h.framed hnone, hwas, hbefore, List.flatMap_append,
      List.flatMap_singleton, List.append_nil]

/-- The words out of a Tx are cancelled. -/
theorem Words.cancelled (h : Words s c) (htx : s.txs[port]? = some tx)
    (htxs : t.txs = s.txs.set port tx') (hafter : tx'.out c = [])
    (hstream : (t.stream c).pushed = (s.stream c).pushed ∧
      (t.stream c).completed = (s.stream c).completed ∧
      (t.stream c).cancelled = (s.stream c).cancelled ++ [(tx.out c).length]) : Words t c := by
  obtain ⟨hpushed, hcompleted, hcancelled⟩ := hstream
  obtain ⟨i, hi⟩ := h.one
  refine ⟨⟨i, htxs ▸ hi.set fun _ => hafter⟩, ?_, fun hnone => ?_⟩
  · have hlength := length_flatMap_set (SioTx.out c) htx tx'
    rw [hafter, List.length_nil] at hlength
    rw [hpushed, hcompleted, hcancelled, htxs, h.counted, List.sum_append, List.sum_singleton]
    omega
  · rw [hcancelled] at hnone
    have hout : tx.out c = [] := List.length_eq_zero_iff.mp
      (hnone _ (List.mem_append_right _ (List.mem_singleton_self _)))
    rw [hpushed, hcompleted, htxs, flatMap_set_of_eq htx (hafter.trans hout.symm)]
    exact h.framed fun k hk => hnone k (List.mem_append_left _ hk)

/-- What a turn of `poll_send` notes, of the words of its core. -/
theorem stream_sendTurned (s : SioState) (port : ℕ) (o : Outgoing) (st : SioStatics) (tx : SioTx)
    (phase : SendPhase) : (s.sendTurned port o st tx phase).stream tx.coreId =
      (s.stream tx.coreId).noteSend (s.st.fifo tx.coreId) (st.fifo tx.coreId) tx o phase :=
  Function.update_self _ _ _

theorem stream_sendTurned_of_ne (s : SioState) (port : ℕ) (o : Outgoing) (st : SioStatics)
    (phase : SendPhase) (h : c ≠ tx.coreId) :
    (s.sendTurned port o st tx phase).stream c = s.stream c :=
  Function.update_of_ne h _ _

/-- A turn of `poll_send` that pushes nothing and is not answered `Ok`. -/
theorem noteSend_of_same (l : Stream) (fifo : List U32) (tx : SioTx) (o : Outgoing)
    {phase : SendPhase} (h : phase ≠ .answer (.ready (.ok ()))) :
    l.noteSend fifo fifo tx o phase = l := by
  unfold Stream.noteSend
  rw [List.drop_length, List.append_nil, if_neg h]

/-- **A turn of `poll_send`** and the words of its own core. -/
theorem Words.sendTurned (h : Words s tx.coreId) (hinv : TxInv s) {depth : ℕ} {o : Outgoing}
    {st : SioStatics} {phase : SendPhase} {timerReady : Bool}
    (hbusy : s.busy tx.coreId = some (.send port o)) (htx : s.txs[port]? = some tx)
    (hexclusive : Exclusive depth tx.coreId s (.turn tx.coreId timerReady))
    (hturn : SendTurn s.st depth tx st tx' phase) :
    Words (s.sendTurned port o st tx' phase) tx.coreId := by
  have hok := hinv.pending port tx htx
  cases hturn with
  | idle hpending =>
      refine h.same htx rfl rfl ?_
      rw [stream_sendTurned, noteSend_of_same _ _ _ _ (by simp)]
      exact ⟨rfl, rfl, rfl⟩
  | full hfull =>
      refine h.same htx rfl rfl ?_
      rw [stream_sendTurned, noteSend_of_same _ _ _ _ (by simp)]
      exact ⟨rfl, rfl, rfl⟩
  | @finished p hpending hdone =>
      obtain ⟨hle, -, o', ho', hframe⟩ := hok p hpending
      obtain rfl : o = o' := by
        rw [(hinv.busy tx.coreId port o hbusy).1] at ho'
        exact Option.some.inj ho'
      -- all its words are out, and become a whole frame's
      have hall : tx.out tx.coreId = wordFraming.image (tx.frame p) := by
        rw [out_of_pending hpending]
        exact List.take_of_length_le (by rw [length_frameImage]; exact hdone)
      refine h.finished htx rfl hall (out_of_idle _ rfl) ?_
      have hstream := stream_sendTurned s port o s.st { tx with pending := none }
        (.answer (.ready (.ok ())))
      dsimp only at hstream
      rw [hstream]
      refine ⟨?_, ?_, rfl⟩
      · rw [Stream.noteSend, List.drop_length, List.append_nil]
      · rw [Stream.noteSend, if_pos rfl]
        exact congrArg _ (congrArg Option.toList hframe)
  | @pushed p hpending hmore hroom =>
      -- no other Tx of the core has words out
      refine h.pushed htx (hexclusive.onlyAt hbusy htx hpending hmore hroom) rfl
        (out_pushed hpending hmore) ?_
      have hstream := stream_sendTurned s port o
        { s.st with
          fifo := Function.update s.st.fifo tx.coreId
            (s.st.fifo tx.coreId ++ [p.1.word tx.sessionId tx.localRole p.1.wordIndex]) }
        { tx with pending := some ⟨{ p.1 with wordIndex := p.1.wordIndex + 1 }, p.2⟩ } .push
      dsimp only at hstream
      rw [hstream, Function.update_self]
      refine ⟨?_, rfl, rfl⟩
      rw [Stream.noteSend, List.drop_left]

/-- A turn of `poll_send` and the words of the other core. -/
theorem Words.sendTurned_of_ne (h : Words s c) {depth : ℕ} {o : Outgoing} {st : SioStatics}
    {phase : SendPhase} (htx : s.txs[port]? = some tx) (hc : c ≠ tx.coreId)
    (hturn : SendTurn s.st depth tx st tx' phase) :
    Words (s.sendTurned port o st tx' phase) c := by
  have hcore : tx'.coreId = tx.coreId := by cases hturn <;> rfl
  refine h.same htx rfl ?_ ?_
  · rw [out_of_ne (Ne.symm hc), out_of_ne (hcore ▸ Ne.symm hc)]
  · rw [stream_sendTurned_of_ne _ _ _ _ _ (hcore ▸ hc)]
    exact ⟨rfl, rfl, rfl⟩

/-- A new port has no words out. -/
theorem OnlyAt.opened {txs : List SioTx} {i : ℕ} (h : OnlyAt (SioTx.out c) txs i)
    (htx : tx.pending = none) : OnlyAt (SioTx.out c) (txs ++ [tx]) i := fun j x hj hx => by
  rcases Nat.lt_trichotomy j txs.length with hlt | rfl | hlt
  · rw [List.getElem?_append_left hlt] at hx
    exact h j x hj hx
  · rw [List.getElem?_concat_length] at hx
    exact Option.some.inj hx ▸ out_of_idle c htx
  · rw [List.getElem?_eq_none (by simp; omega)] at hx
    cases hx

theorem words_step (depth : ℕ) (s : SioState) (a : SioAction) (t : SioState) (hinv : TxInv s)
    (h : Words s c) (hexclusive : Exclusive depth c s a)
    (hstep : (sioMachine depth).next s a = some t) : Words t c := by
  cases sioStep_cases hstep with
  | @opened core as txSessionXor operationalDeadlineTicks hidle =>
      obtain ⟨i, hi⟩ := h.one
      refine h.congr ?_ ⟨i, OnlyAt.opened hi rfl⟩ ⟨rfl, rfl, rfl⟩
      dsimp only
      -- a port just opened has no words out
      rw [List.flatMap_append, List.flatMap_singleton, out_of_idle c rfl, List.append_nil]
  | @sendStarted port o tx st tx' phase htx hidle hsend =>
      cases sendStart_cases hsend with
      | answered _ _ => exact h.same htx rfl rfl ⟨rfl, rfl, rfl⟩
      | resumed _ => exact h.same htx rfl rfl ⟨rfl, rfl, rfl⟩
      | began hpending hindex _ _ _ =>
          refine h.same htx rfl ?_ ⟨rfl, rfl, rfl⟩
          -- a frame just begun has none out either
          rw [out_of_idle c hpending]
          exact out_of_wordsOut c hindex
  | @sendTurned core timerReady port o tx st tx' phase hbusy htx hturn =>
      obtain ⟨-, tx₁, htx₁, hcore⟩ := hinv.busy core port o hbusy
      obtain rfl : tx = tx₁ := Option.some.inj (htx.symm.trans htx₁)
      subst hcore
      by_cases hc : c = tx.coreId
      · subst hc
        exact h.sendTurned hinv hbusy htx hexclusive hturn
      · exact h.sendTurned_of_ne htx hc hturn
  | @cancelled port tx htx hidle =>
      have hafter : (cancelSend tx).out c = [] := out_of_idle c rfl
      by_cases hc : c = tx.coreId
      · subst hc
        refine h.cancelled htx rfl hafter ?_
        rw [length_out (hinv.pending port tx htx)]
        dsimp only [SioState.cancelled]
        rw [Function.update_self]
        exact ⟨rfl, rfl, rfl⟩
      · refine h.same htx rfl (hafter.trans (out_of_ne (Ne.symm hc)).symm) ?_
        dsimp only [SioState.cancelled]
        rw [Function.update_of_ne hc]
        exact ⟨rfl, rfl, rfl⟩
  | @received _ port rx st rx' phase hrecv _ =>
      -- a `poll_recv` pushes nothing
      refine h.congr rfl h.one ?_
      by_cases hc : c = rx'.coreId.peer
      · subst hc
        dsimp only [SioState.received]
        rw [Function.update_self]
        exact ⟨rfl, rfl, rfl⟩
      · dsimp only [SioState.received]
        rw [Function.update_of_ne hc]
        exact ⟨rfl, rfl, rfl⟩
  | requeued => exact h.congr rfl h.one ⟨rfl, rfl, rfl⟩

/-! ### Cancels -/

/-- A send of core `c` is cancelled only with none of its words out. -/
def CancelsNothingOut (c : Core) (s : SioState) : SioAction → Prop
  | .cancelSend port => ∀ tx ∈ s.txs[port]?, tx.coreId = c → tx.wordsOut = 0
  | _ => True

instance (c : Core) (s : SioState) : ∀ a, Decidable (CancelsNothingOut c s a)
  | .cancelSend port => inferInstanceAs (Decidable (∀ tx ∈ s.txs[port]?, _))
  | .open _ _ _ _ | .pollSend _ _ | .pollRecv _ | .turn _ _ | .requeue _ => isTrue trivial

/-- No cancel the observer has noted left words behind. -/
def NoneLeft (c : Core) (s : SioState) : Prop := ∀ k ∈ (s.stream c).cancelled, k = 0

theorem noneLeft_step (depth : ℕ) (s : SioState) (a : SioAction) (t : SioState)
    (hstep : (sioMachine depth).next s a = some t) :
    NoneLeft c t ↔ NoneLeft c s ∧ CancelsNothingOut c s a := by
  have hsame : (t.stream c).cancelled = (s.stream c).cancelled → CancelsNothingOut c s a →
      (NoneLeft c t ↔ NoneLeft c s ∧ CancelsNothingOut c s a) := fun h hcancels => by
    rw [NoneLeft, NoneLeft, h]
    exact ⟨fun H => ⟨H, hcancels⟩, And.left⟩
  cases sioStep_cases hstep with
  | opened _ => exact hsame rfl trivial
  | sendStarted _ _ _ => exact hsame rfl trivial
  | @sendTurned core timerReady port o tx st tx' phase _ _ _ =>
      refine hsame ?_ trivial
      by_cases hc : c = tx'.coreId
      · rw [hc, stream_sendTurned]; rfl
      · rw [stream_sendTurned_of_ne _ _ _ _ _ hc]
  | @cancelled port tx htx _ =>
      by_cases hc : tx.coreId = c
      · subst hc
        simp only [NoneLeft, SioState.cancelled, Function.update_self, List.forall_mem_append,
          List.forall_mem_singleton, CancelsNothingOut, htx, Option.mem_def, Option.some.injEq,
          forall_eq', forall_const]
      · refine hsame ?_ ?_
        · exact congrArg Stream.cancelled (Function.update_of_ne (Ne.symm hc) _ _)
        · intro tx' htx' hcore
          rw [htx] at htx'
          cases htx'
          exact absurd hcore hc
  | @received a port rx st rx' phase _ hcall =>
      refine hsame ?_ ?_
      · by_cases hc : c = rx'.coreId.peer
        · subst hc
          simp only [SioState.received, Function.update_self, Stream.noteRecv]
        · exact congrArg Stream.cancelled (Function.update_of_ne hc _ _)
      · rcases hcall with rfl | ⟨core, timerReady, rfl⟩ <;> trivial
  | requeued => exact hsame rfl trivial

/-- Nothing is left behind in a run whose cancels found nothing out. -/
theorem noneLeft_exec {depth : ℕ} {as : List SioAction} {s : SioState}
    (hrun : (sioMachine depth).exec .init as = some s) :
    NoneLeft c s ↔ (sioMachine depth).Along (CancelsNothingOut c) .init as :=
  (Machine.exec_iff_along (noneLeft_step depth) hrun).trans
    (and_iff_right (List.forall_mem_nil _))

/-! ### The result -/

/-- What a Tx is in the middle of sending, among the frames core `c` writes. -/
def SioTx.sending (c : Core) (tx : SioTx) : List WordFrame :=
  match tx.pending with
  | some p => if tx.coreId = c ∧ p.1.wordIndex ≠ 0 then [tx.frame p] else []
  | none => []

/-- The frames core `c` is in the middle of sending. -/
def SioState.sending (s : SioState) (c : Core) : List WordFrame := s.txs.flatMap (SioTx.sending c)

/-- The words of core `c` are those of whole frames, and its peer yields them. -/
structure StreamExact (s : SioState) (c : Core) : Prop where
  noError : errorsOf (s.stream c).answers = []
  /-- The words of the frames answered `Ok`, then those out of at most one frame. -/
  unmixed : ∃ rest, (s.stream c).pushed =
      (s.stream c).completed.flatMap wordFraming.image ++ rest ∧
    rest <+: (s.sending c).flatMap wordFraming.image
  sending_le : (s.sending c).length ≤ 1
  /-- The frames decoded are those answered `Ok`, in order, or about to be. -/
  decoded : decodedOf (s.stream c).answers <+:
    ((s.stream c).completed ++ s.sending c).map Subtype.val
  /-- With nothing on its way, the frames decoded are those answered `Ok`. -/
  drained : s.st.fifo c = [] → s.sending c = [] →
    decodedOf (s.stream c).answers = (s.stream c).completed.map Subtype.val

theorem sending_of_out {c : Core} {tx : SioTx} (h : tx.out c = []) : tx.sending c = [] := by
  cases hp : tx.pending with
  | none => simp only [SioTx.sending, hp]
  | some p =>
      simp only [SioTx.sending, SioTx.out, hp] at h ⊢
      refine if_neg ?_
      rintro ⟨hcore, hindex⟩
      rw [if_pos hcore, List.take_eq_nil_iff] at h
      have hpos := wordFraming.image_pos (tx.frame p)
      rcases h with h | h
      · exact hindex h
      · exact absurd (congrArg List.length h) (Nat.ne_of_gt hpos)

theorem out_prefix (c : Core) (tx : SioTx) :
    tx.out c <+: (tx.sending c).flatMap wordFraming.image := by
  cases hp : tx.pending with
  | none => simp only [SioTx.out, hp]; exact List.nil_prefix
  | some p =>
      simp only [SioTx.out, SioTx.sending, hp]
      split
      · rename_i hcore
        by_cases hindex : p.1.wordIndex = 0
        · rw [hindex, List.take_zero]; exact List.nil_prefix
        · rw [if_pos ⟨hcore, hindex⟩, List.flatMap_singleton]
          exact List.take_prefix _ _
      · exact List.nil_prefix

theorem length_sending_le (c : Core) (tx : SioTx) : (tx.sending c).length ≤ 1 := by
  unfold SioTx.sending
  split
  · split <;> simp
  · simp

/-- One Tx has words out: what is out is of one frame. -/
theorem Words.out_prefix (h : Words s c) :
    s.txs.flatMap (SioTx.out c) <+: (s.sending c).flatMap wordFraming.image ∧
      (s.sending c).length ≤ 1 := by
  obtain ⟨i, hi⟩ := h.one
  have hsending : OnlyAt (SioTx.sending c) s.txs i := fun j x hj hx =>
    sending_of_out (hi j x hj hx)
  rw [SioState.sending, hi.flatMap, hsending.flatMap]
  cases s.txs[i]? with
  | none => exact ⟨List.prefix_rfl, Nat.zero_le _⟩
  | some tx =>
      rw [Option.toList_some, List.flatMap_singleton, List.flatMap_singleton]
      exact ⟨Rp2w.out_prefix c tx, length_sending_le c tx⟩

/-- **The words in every exclusive run.** -/
theorem words_exec {depth : ℕ} {as : List SioAction} {s : SioState}
    (hrun : (sioMachine depth).exec .init as = some s)
    (hrepolls : (sioMachine depth).Along Repolls .init as)
    (hexclusive : (sioMachine depth).Along (Exclusive depth c) .init as) :
    (∀ c, Flow s c) ∧ Words s c := by
  have hinv : (∀ c, Flow s c) ∧ TxInv s ∧ Words s c :=
    Machine.exec_invariant (I := fun s => (∀ c, Flow s c) ∧ TxInv s ∧ Words s c)
      (fun s a t ⟨hflow, hinv, hwords⟩ hP hstep => ⟨flow_step depth s a t hflow hstep,
        txInv_step depth s a t hinv hP.1 hstep, words_step depth s a t hinv hwords hP.2 hstep⟩)
      ⟨flow_init, txInv_init, words_init c⟩ (hrepolls.and hexclusive) hrun
  exact ⟨hinv.1, hinv.2.2⟩

/-- With nothing left behind and nothing on its way, what was popped is whole frames. -/
theorem popped_of_drained (hflow : Flow s c) (hwords : Words s c) (hleft : NoneLeft c s)
    (hfifo : s.st.fifo c = []) (hsending : s.sending c = []) :
    (s.stream c).popped = (s.stream c).completed.flatMap wordFraming.image := by
  have hpushed := hwords.framed hleft
  have hout := hwords.out_prefix.1
  rw [hsending, List.flatMap_nil, List.prefix_nil] at hout
  rwa [hflow.pushed, hfifo, hout, List.append_nil, List.append_nil] at hpushed

theorem streamExact_of_words (hflow : Flow s c) (hwords : Words s c) (hleft : NoneLeft c s) :
    StreamExact s c := by
  have hpushed := hwords.framed hleft
  obtain ⟨hout, hlength⟩ := hwords.out_prefix
  have hall : (s.stream c).popped <+:
      ((s.stream c).completed ++ s.sending c).flatMap wordFraming.image := by
    rw [List.flatMap_append]
    refine (hflow.pushed ▸ List.prefix_append _ _).trans ?_
    rw [hpushed]
    exact (List.prefix_append_right_inj _).mpr hout
  have hidle := SioRxAccumulator.idle_empty
  have htaken : (wordDecoder.feed .empty (s.stream c).popped).2 = (s.stream c).answers :=
    congrArg Prod.snd hflow.taken
  obtain ⟨gs, k, hgs, hanswers⟩ := wordFraming.feed_prefix _ hidle hall
  obtain ⟨hdecoded, herrors⟩ := decodedOf_answers gs k
  refine ⟨?_, ⟨_, hpushed, hout⟩, hlength, ?_, fun hfifo hsending => ?_⟩
  · rw [← htaken, hanswers]
    exact herrors
  · rw [← htaken, hanswers]
    exact hdecoded.symm ▸ hgs.map _
  · have hwhole := (wordFraming.feed_images (s.stream c).completed hidle).2
    have hdecoded := (decodedOf_answers (s.stream c).completed 0).1
    rw [List.replicate_zero, List.append_nil] at hdecoded
    rw [← htaken, popped_of_drained hflow hwords hleft hfifo hsending, hwhole, hdecoded]

/-- **Several senders, one FIFO.**  In every run in which each word is pushed while no other Tx of
the core has words out, and no send is cancelled with words out, the far accumulator yields the
frames of the sends answered `Ok`, each once, in order and unchanged, and never an error. -/
theorem interleaving_exact (depth : ℕ) (c : Core) (as : List SioAction) (s : SioState)
    (hrun : (sioMachine depth).exec .init as = some s)
    (hrepolls : (sioMachine depth).Along Repolls .init as)
    (hexclusive : (sioMachine depth).Along (Exclusive depth c) .init as)
    (hcancels : (sioMachine depth).Along (CancelsNothingOut c) .init as) : StreamExact s c := by
  obtain ⟨hflow, hwords⟩ := words_exec hrun hrepolls hexclusive
  exact streamExact_of_words (hflow c) hwords ((noneLeft_exec hrun).mpr hcancels)

/-! ### Two Txs of core 0 -/

/-- Ports 0 and 1 are of roles 0 and 2, on core 0; port 2 is of role 1, on core 1. -/
def threePorts : List SioAction :=
  [.open .core0 { localRole := 0, sessionId := 42, lane := 1 } 0 0,
    .open .core0 { localRole := 2, sessionId := 42, lane := 1 } 0 0,
    .open .core1 { localRole := 1, sessionId := 42, lane := 1 } 0 0]

/-- A poll of a Tx of core 0 and `n` turns of its loop, with a frame of five words to role 1. -/
def sendTurns (port : ℕ) (frameLabel : U8) (n : ℕ) : List SioAction :=
  .pollSend port { targetRole := 1, frameLabel, lane := 1, payload := [7] } ::
    List.replicate n (.turn .core0 false)

/-- A poll of port 2 and `n` turns of its loop. -/
def recvTurns (n : ℕ) : List SioAction := .pollRecv 2 :: List.replicate n (.turn .core1 false)

/-- Port 1 begins once port 0 is answered `Ok`. -/
def oneByOne : List SioAction :=
  threePorts ++ sendTurns 0 5 5 ++ recvTurns 5 ++ sendTurns 0 5 2 ++ sendTurns 1 6 4 ++
    recvTurns 1 ++ recvTurns 4 ++ sendTurns 1 6 3 ++ recvTurns 2

theorem interleaving_exact_oneByOne :
    ∃ s, (sioMachine 4).exec .init oneByOne = some s ∧
      (decodedOf (s.stream .core0).answers).map (fun f => (f.senderRole, f.frameLabel)) =
        [(0, 5), (2, 6)] ∧ StreamExact s .core0 := by
  have hsome : ((sioMachine 4).exec .init oneByOne).map (fun s =>
      (decodedOf (s.stream .core0).answers).map (fun f => (f.senderRole, f.frameLabel))) =
        some [(0, 5), (2, 6)] := by decide +kernel
  obtain ⟨s, hrun, hdecoded⟩ := Option.map_eq_some_iff.mp hsome
  exact ⟨s, hrun, hdecoded, interleaving_exact 4 .core0 oneByOne s hrun (by decide +kernel)
    (by decide +kernel) (by decide +kernel)⟩

/-- **Words mixed.**  Port 1 begins its frame while the last word of port 0's waits for room: both
sends are answered `Ok`, and the far accumulator answers errors. -/
theorem interleaving_mixes :
    ∃ as s, (sioMachine 4).exec .init as = some s ∧ (sioMachine 4).Along Repolls .init as ∧
      (sioMachine 4).Along (CancelsNothingOut .core0) .init as ∧ ¬ StreamExact s .core0 := by
  let as : List SioAction := threePorts ++ sendTurns 0 5 5 ++ recvTurns 5 ++ sendTurns 1 6 5 ++
    recvTurns 1 ++ recvTurns 1 ++ recvTurns 1 ++ recvTurns 1 ++ sendTurns 0 5 2 ++
    sendTurns 1 6 2 ++ recvTurns 1 ++ recvTurns 1
  have hsome : ((sioMachine 4).exec .init as).map
      (fun s => ((s.stream .core0).completed.length, errorsOf (s.stream .core0).answers)) =
        some (2, [.failed, .failed, .failed, .failed, .failed]) := by decide +kernel
  obtain ⟨s, hrun, hmixed⟩ := Option.map_eq_some_iff.mp hsome
  refine ⟨as, s, hrun, by decide +kernel, by decide +kernel, fun h => ?_⟩
  have herrors := (Prod.mk.inj hmixed).2
  rw [h.noError] at herrors
  cases herrors

end HibanaPico.Rp2w
