import HibanaPico.Rp2w.Streams

/-!
# Rp2w — Senders

Every Tx of a core pushes its words to the same FIFO, and keeps its own place in its own frame.

* `TxInv`: a pending frame is that of the call in flight.
* `Exclusive`: a word is pushed only when no other Tx of the core has words out.
* `Words`: the words pushed are of the frames answered `Ok`, of cancelled ones, or out.
* `txInv_step`, `words_step`: every step keeps these, the second when it is exclusive.
-/

namespace HibanaPico.Rp2w
open HibanaPico.Support
open HibanaPico.Transport
open HibanaPico.Sio

/-! ### Calls in flight -/

/-- A pending frame is that of the call in flight, and is to a role on the other core. -/
def PendingOk (inflight : Option Outgoing) (tx : SioTx) : Prop :=
  ∀ p, tx.pending = some p → p.1.wordIndex ≤ p.1.totalWords ∧
    (∃ core, rp2wRoleCore p.1.peerRole = some core ∧ core ≠ tx.coreId) ∧
      ∃ o, inflight = some o ∧ callFrame tx o = some (tx.frame p)

structure TxInv (s : SioState) : Prop where
  pending : ∀ port tx, s.txs[port]? = some tx → PendingOk (s.inflight port) tx
  busy : ∀ c port o, s.busy c = some (.send port o) → s.inflight port = some o ∧
    ∃ tx, s.txs[port]? = some tx ∧ tx.coreId = c

theorem txInv_init : TxInv .init where
  pending _ _ h := by cases h
  busy _ _ _ h := by cases h

theorem callFrame_eq {tx : SioTx} {o : Outgoing}
    {p : { p : PendingTxFrame // tx.localRole ≠ p.peerRole }}
    (h : callFrame tx o = some (tx.frame p)) :
    o.payload.length ≤ sioFrameBytes ∧ tx.localRole ≠ o.targetRole ∧
      p.1.peerRole = o.targetRole := by
  unfold callFrame at h
  split at h
  · rename_i hfits
    have hframe := congrArg Subtype.val (Option.some.inj h)
    exact ⟨hfits.1, hfits.2, (congrArg DecodedSioFrame.peerRole hframe).symm⟩
  · cases h

/-- What a `poll_send` does before its loop. -/
inductive SendStart (st : SioStatics) (tx : SioTx) (o : Outgoing) :
    SioTx → SendPhase → Prop where
  /-- Answered, never `Pending`; the call is not for the FIFO. -/
  | answered {answer} (hanswer : answer ≠ .pending)
      (hwhy : tx.localRole = o.targetRole ∨ o.payload.length > sioFrameBytes ∨
        rp2wRoleCore o.targetRole = some tx.coreId) : SendStart st tx o tx (.answer answer)
  | resumed {p} (hpending : tx.pending = some p) : SendStart st tx o tx .push
  | began {p core} (hpending : tx.pending = none) (hindex : p.1.wordIndex = 0)
      (hcore : rp2wRoleCore p.1.peerRole = some core) (hother : core ≠ tx.coreId)
      (hframe : callFrame tx o = some (tx.frame p)) :
      SendStart st tx o { tx with pending := some p } .push

theorem sendStart_cases {st st' : SioStatics} {tx tx' : SioTx} {o : Outgoing} {phase : SendPhase}
    (h : pollSend st tx o = some (st', tx', phase)) : SendStart st tx o tx' phase := by
  unfold pollSend at h
  split at h
  · rename_i hself
    cases h
    exact .answered (by simp) (.inl hself)
  rename_i hself
  split at h
  · rename_i hlong
    cases h
    exact .answered (by simp) (.inr (.inl hlong))
  rename_i hlong
  obtain ⟨core, hcore, h⟩ := Option.map_eq_some_iff.mp h
  split at h
  · rename_i hsame
    subst hsame
    unfold sendStash at h
    split at h <;> (cases h; exact .answered (by simp) (.inr (.inr hcore)))
  · rename_i hother
    unfold sendFifo at h
    split at h
    · rename_i hpending
      cases h
      exact .resumed hpending
    · rename_i hpending
      cases h
      exact .began hpending rfl hcore hother (dif_pos ⟨Nat.not_lt.mp hlong, hself⟩)

/-- A busy port is not one of another core. -/
theorem TxInv.busy_ne {s : SioState} (h : TxInv s) {c : Core} {port port' : ℕ} {o : Outgoing}
    {tx : SioTx} (htx : s.txs[port]? = some tx) (hbusy : s.busy c = some (.send port' o))
    (hne : c ≠ tx.coreId) : port' ≠ port := by
  obtain ⟨-, tx', htx', hcore⟩ := h.busy c port' o hbusy
  rintro rfl
  rw [htx] at htx'
  cases htx'
  exact hne hcore.symm

/-- One port's Tx and call in flight have changed, and its core's call. -/
theorem TxInv.set {s t : SioState} (h : TxInv s) {port : ℕ} {tx tx' : SioTx} {o : Option Outgoing}
    {call : Option Call} (htx : s.txs[port]? = some tx) (htxs : t.txs = s.txs.set port tx')
    (hcore : tx'.coreId = tx.coreId)
    (hinflight : t.inflight = Function.update s.inflight port o)
    (hbusy : t.busy = Function.update s.busy tx.coreId call) (hpending : PendingOk o tx')
    (hcall : ∀ port' o', call = some (.send port' o') → port' = port ∧ o = some o') :
    TxInv t := by
  refine ⟨?_, fun c port' o' hc => ?_⟩
  · rw [htxs, hinflight]
    refine forall_set (P := fun j x => PendingOk (Function.update s.inflight port o j) x)
      (fun j x hj hx => ?_) ?_
    · rw [Function.update_of_ne hj]; exact h.pending j x hx
    · rw [Function.update_self]; exact hpending
  · rw [hbusy] at hc
    rw [htxs, hinflight]
    by_cases hcc : c = tx.coreId
    · rw [hcc, Function.update_self] at hc
      obtain ⟨rfl, ho⟩ := hcall port' o' hc
      rw [Function.update_self]
      exact ⟨ho, tx', getElem?_set_self_of_some htx tx', hcore.trans hcc.symm⟩
    · rw [Function.update_of_ne hcc] at hc
      have hne := h.busy_ne htx hc hcc
      obtain ⟨ho, tx'', htx'', hcore''⟩ := h.busy c port' o' hc
      rw [Function.update_of_ne hne, List.getElem?_set_ne (Ne.symm hne)]
      exact ⟨ho, tx'', htx'', hcore''⟩

/-- Nothing of the senders has changed, but a core's receiving call. -/
theorem TxInv.congr {s t : SioState} (h : TxInv s) (htxs : t.txs = s.txs)
    (hinflight : t.inflight = s.inflight)
    (hbusy : ∀ c port o, t.busy c = some (.send port o) → s.busy c = some (.send port o)) :
    TxInv t := by
  refine ⟨?_, fun c port o hc => ?_⟩
  · rw [htxs, hinflight]; exact h.pending
  · rw [htxs, hinflight]; exact h.busy c port o (hbusy c port o hc)

theorem TxInv.received {s : SioState} (h : TxInv s) (port : ℕ) (st : SioStatics) (rx : SioRx)
    (phase : RecvPhase) : TxInv (s.received port st rx phase) := by
  refine h.congr rfl rfl fun c port' o hc => ?_
  simp only [SioState.received] at hc
  by_cases hcc : c = rx.coreId
  · rw [hcc, Function.update_self] at hc
    split at hc <;> cases hc
  · rwa [Function.update_of_ne hcc] at hc

/-- A `poll_send` that answers before its loop is on a Tx with nothing pending. -/
theorem pending_of_answered {s : SioState} {port : ℕ} {tx : SioTx} {o : Outgoing}
    (hok : PendingOk (s.inflight port) tx) (hrepolls : Repolls s (.pollSend port o))
    (hwhy : tx.localRole = o.targetRole ∨ o.payload.length > sioFrameBytes ∨
      rp2wRoleCore o.targetRole = some tx.coreId) : tx.pending = none := by
  cases hp : tx.pending with
  | none => rfl
  | some p =>
      obtain ⟨-, ⟨core, hcore, hother⟩, o', ho', hframe⟩ := hok p hp
      obtain rfl := hrepolls o' ho'
      obtain ⟨hfits, hself, htarget⟩ := callFrame_eq hframe
      rcases hwhy with hwhy | hwhy | hwhy
      · exact absurd hwhy hself
      · exact absurd hfits (Nat.not_le.mpr hwhy)
      · rw [htarget, hwhy] at hcore
        exact absurd (Option.some.inj hcore).symm hother

theorem txInv_step (depth : ℕ) (s : SioState) (a : SioAction) (t : SioState) (h : TxInv s)
    (hrepolls : Repolls s a) (hstep : (sioMachine depth).next s a = some t) : TxInv t := by
  cases sioStep_cases hstep with
  | opened hidle =>
      refine ⟨fun j tx htx => ?_, fun c port o hc => ?_⟩
      · -- the new Tx is the last, and has nothing pending
        dsimp only at htx ⊢
        rcases Nat.lt_trichotomy j s.txs.length with hj | rfl | hj
        · rw [List.getElem?_append_left hj] at htx
          rw [Function.update_of_ne hj.ne]
          exact h.pending j tx htx
        · rw [List.getElem?_concat_length] at htx
          cases htx
          exact fun p hp => by cases hp
        · rw [List.getElem?_eq_none (by simp; omega)] at htx
          cases htx
      · obtain ⟨ho, tx, htx, hcore⟩ := h.busy c port o hc
        obtain ⟨hlt, -⟩ := List.getElem?_eq_some_iff.mp htx
        dsimp only
        rw [Function.update_of_ne hlt.ne, List.getElem?_append_left hlt]
        exact ⟨ho, tx, htx, hcore⟩
  | @sendStarted port o tx st tx' phase htx _ hsend =>
      have hok := h.pending port tx htx
      cases sendStart_cases hsend with
      | answered _ hwhy =>
          have hnone := pending_of_answered hok hrepolls hwhy
          exact h.set htx rfl rfl rfl rfl (fun p hp => by rw [hnone] at hp; cases hp)
            (fun _ _ hcall => by cases hcall)
      | @resumed p hpending =>
          -- the caller polls with the frame that is pending
          obtain ⟨-, -, o', ho', -⟩ := hok p hpending
          obtain rfl := hrepolls o' ho'
          exact h.set htx rfl rfl rfl rfl (ho' ▸ hok) (fun _ _ hcall => by cases hcall; simp)
      | @began p core hpending hindex hcore hother hframe =>
          refine h.set htx rfl rfl rfl rfl (fun p' hp' => ?_)
            (fun _ _ hcall => by cases hcall; simp)
          cases hp'
          exact ⟨hindex ▸ Nat.zero_le _, ⟨core, hcore, hother⟩, o, if_pos rfl, hframe⟩
  | @sendTurned core timerReady port o tx st tx' phase hbusy htx hturn =>
      have hok := h.pending port tx htx
      obtain ⟨ho, -⟩ := h.busy core port o hbusy
      cases hturn with
      | idle hpending =>
          exact h.set htx rfl rfl rfl rfl (fun p hp => by rw [hpending] at hp; cases hp)
            (fun _ _ hcall => by cases hcall)
      | finished _ _ =>
          exact h.set htx rfl rfl rfl rfl (fun p hp => by cases hp)
            (fun _ _ hcall => by cases hcall)
      | full _ =>
          exact h.set htx rfl rfl rfl rfl (ho ▸ hok) (fun _ _ hcall => by cases hcall)
      | @pushed p hpending hmore _ =>
          refine h.set htx rfl rfl rfl rfl (fun p' hp' => ?_)
            (fun _ _ hcall => by cases hcall; simp)
          cases hp'
          obtain ⟨-, hcore, o', ho', hframe⟩ := hok p hpending
          rw [ho] at ho'
          exact ⟨hmore, hcore, o', ho', hframe⟩
  | @cancelled port tx htx hidle =>
      -- a core that cancels is in no call
      have hbusy : s.busy = Function.update s.busy tx.coreId none :=
        (Function.update_eq_self_iff.mpr hidle.symm).symm
      exact h.set htx rfl rfl rfl hbusy (fun p hp => by cases hp)
        (fun _ _ hcall => by cases hcall)
  | received _ _ => exact h.received _ _ _ _
  | requeued => exact h.congr rfl rfl fun _ _ _ hc => hc

/-! ### Words out -/

/-- The words out of a Tx, among those core `c` writes. -/
def SioTx.out (c : Core) (tx : SioTx) : List U32 :=
  match tx.pending with
  | some p => if tx.coreId = c then (frameImage (tx.frame p).1).take p.1.wordIndex else []
  | none => []

theorem out_of_idle (c : Core) {tx : SioTx} (h : tx.pending = none) : tx.out c = [] := by
  simp only [SioTx.out, h]

theorem out_of_ne {c : Core} {tx : SioTx} (h : tx.coreId ≠ c) : tx.out c = [] := by
  unfold SioTx.out
  split
  · exact if_neg h
  · rfl

theorem out_of_pending {tx : SioTx} {p : { p : PendingTxFrame // tx.localRole ≠ p.peerRole }}
    (h : tx.pending = some p) :
    tx.out tx.coreId = (frameImage (tx.frame p).1).take p.1.wordIndex := by
  simp only [SioTx.out, h, if_pos]

/-- One word more is out. -/
theorem out_pushed {tx : SioTx} {p : { p : PendingTxFrame // tx.localRole ≠ p.peerRole }}
    (h : tx.pending = some p) (hmore : p.1.wordIndex < p.1.totalWords) :
    SioTx.out tx.coreId
        { tx with pending := some ⟨{ p.1 with wordIndex := p.1.wordIndex + 1 }, p.2⟩ } =
      tx.out tx.coreId ++ [p.1.word tx.sessionId tx.localRole p.1.wordIndex] := by
  have hlt : p.1.wordIndex < (frameImage (tx.frame p).1).length := by
    rw [length_frameImage]; exact hmore
  have hword : (frameImage (tx.frame p).1)[p.1.wordIndex] =
      p.1.word tx.sessionId tx.localRole p.1.wordIndex := by
    rw [getElem_frameImage]
    exact frameWord_frame p.1 tx.sessionId tx.localRole p.1.wordIndex
  rw [out_of_pending h, ← hword, ← List.take_succ_eq_append_getElem hlt, SioTx.out]
  exact if_pos rfl

theorem out_of_wordsOut (c : Core) {tx : SioTx} (h : tx.wordsOut = 0) : tx.out c = [] := by
  cases hp : tx.pending with
  | none => exact out_of_idle c hp
  | some p =>
      have hindex : p.1.wordIndex = 0 := by
        rw [SioTx.wordsOut, hp] at h
        exact h
      simp [SioTx.out, hp, hindex]

theorem length_out {inflight : Option Outgoing} {tx : SioTx} (h : PendingOk inflight tx) :
    (tx.out tx.coreId).length = tx.wordsOut := by
  cases hp : tx.pending with
  | none => rw [out_of_idle _ hp, SioTx.wordsOut, hp]; rfl
  | some p =>
      have hle : p.1.wordIndex ≤ frameWords (tx.frame p).1 := (h p hp).1
      rw [out_of_pending hp, List.length_take, length_frameImage, SioTx.wordsOut, hp]
      exact Nat.min_eq_left hle

/-- The port the turn of core `c` pushes a word of. -/
def pushing (depth : ℕ) (s : SioState) (c : Core) : Option ℕ :=
  match s.busy c with
  | some (.send port _) =>
      s.txs[port]?.bind fun tx => tx.pending.bind fun p =>
        if p.1.wordIndex < p.1.totalWords ∧ (s.st.fifo c).length < depth then some port else none
  | _ => none

/-- A word of core `c` is pushed only when no other Tx of the core has words out. -/
def Exclusive (depth : ℕ) (c : Core) (s : SioState) : SioAction → Prop
  | .turn core _ => core = c → ∀ port ∈ pushing depth s c, ∀ j (hj : j < s.txs.length), j ≠ port →
      s.txs[j].coreId = c → s.txs[j].wordsOut = 0
  | _ => True

instance (depth : ℕ) (c : Core) (s : SioState) : ∀ a, Decidable (Exclusive depth c s a)
  | .turn core _ => inferInstanceAs (Decidable (core = c → _))
  | .open _ _ _ _ | .pollSend _ _ | .cancelSend _ | .pollRecv _ | .requeue _ => isTrue trivial

theorem Exclusive.onlyAt {depth : ℕ} {s : SioState} {c : Core} {timerReady : Bool} {port : ℕ}
    {o : Outgoing} {tx : SioTx} {p : { p : PendingTxFrame // tx.localRole ≠ p.peerRole }}
    (h : Exclusive depth c s (.turn c timerReady)) (hbusy : s.busy c = some (.send port o))
    (htx : s.txs[port]? = some tx) (hp : tx.pending = some p)
    (hmore : p.1.wordIndex < p.1.totalWords) (hroom : (s.st.fifo c).length < depth) :
    OnlyAt (SioTx.out c) s.txs port := fun j tx' hj htx' => by
  have hpushing : port ∈ pushing depth s c := by
    simp only [pushing, hbusy, htx, hp, hmore, hroom, Option.bind_some, and_self, if_true,
      Option.mem_def]
  obtain ⟨hlt, rfl⟩ := List.getElem?_eq_some_iff.mp htx'
  by_cases hcore : s.txs[j].coreId = c
  · exact out_of_wordsOut c (h rfl port hpushing j hlt hj hcore)
  · exact out_of_ne hcore

end HibanaPico.Rp2w
