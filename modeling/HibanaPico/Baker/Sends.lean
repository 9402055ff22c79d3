import HibanaPico.Baker.Locality

/-!
# Baker — Sends

`poll_send` looks anew at every poll whether the target is on the sender's core.  A send that
kept a frame pending for the mailbox and is polled again once the target is on the core goes to
the stash, and answers `Ok` with the frame still pending; the next send of the Tx publishes it in
place of its own.  And a target that is open on the sender's core but not attached is taken to be on
the other core, whose ports alone read the mailbox the frame goes to.

* `Ledger.Serves`: a place that an Rx of the role looks in.
* `Undisturbed`: no Tx with a pending frame is polled while the target is on its core, and what is
  published has its target on the other core.
* `sends_exact`: in every undisturbed run the frames that entered a place are, in order, those of
  the sends answered `Ok`, each in a place that serves its target.
* `sends_inexact`: a disturbed send publishes a stale frame, or its own where its target never
  looks.
-/

namespace HibanaPico.Baker
open HibanaPico.Support
open HibanaPico.Transport
open HibanaPico.Sio

/-- A place serves a role: an Rx of the role, opened or polled on a core, looks in it there. -/
def Ledger.Serves (l : Ledger) (p : Place) (role : U8) : Prop :=
  ∃ core, (role, core) ∈ l.receivers ∧ p.LookedAt core role

/-- The frames in the places are those of the sends answered `Ok`. -/
structure SendsExact (s : SioState) : Prop where
  /-- Each send answered `Ok` put its own frame in a place, once, and nothing else did. -/
  entered_eq : s.ledger.entered.map (fun e => e.2.sent) = s.ledger.completed
  /-- The place is one where the target's ports look. -/
  serves : ∀ e ∈ s.ledger.entered, s.ledger.Serves e.1 e.2.peerRole
  /-- Sends, cancels and opens take nothing from a place. -/
  kept : s.ledger.removed = []
  /-- What the places hold entered them so. -/
  held_le : (Slots.held s.st.frames).map DecodedSioFrame.received ≤
    ↑(s.ledger.entered.map fun e => e.2.received)

/-- A `poll_send` that leaves no stale frame and publishes none where its target does not look. -/
structure SendUndisturbed (s : SioState) (core : Core) (tx : SioTx) (o : Outgoing) : Prop where
  /-- With a frame pending, the target is not attached on the core. -/
  pending : tx.pending ≠ none → s.st.roleLaneOnCore o.targetRole core = none
  /-- The sender, which is marked attached on the core, has an Rx there. -/
  here : (tx.localRole, core) ∈ s.ledger.receivers
  /-- A frame that goes to the mailbox goes to a role with an Rx on the other core. -/
  there : o.targetRole ≠ tx.localRole → o.payload.length ≤ sioFrameBytes →
    s.st.roleLaneOnCore o.targetRole core = none → s.st.frames (.outbound core) = none →
      (o.targetRole, core.peer) ∈ s.ledger.receivers

/-- Every `poll_send` is undisturbed. -/
def Undisturbed (s : SioState) : SioAction → Prop
  | .pollSend core port o => ∀ tx, s.txs port = some tx → SendUndisturbed s core tx o
  | _ => True

/-- What the sends and the observer agree on: the completed sends, the send a pending frame is of,
and where the roles have their Rx. -/
structure SendInv (s : SioState) : Prop where
  entered_eq : s.ledger.entered.map (fun e => e.2.sent) = s.ledger.completed
  pending : ∀ port tx, s.txs port = some tx → ∀ p, tx.pending = some p →
    ∃ o, s.inflight port = some o ∧ PendingOf p o
  /-- A role attached on a core has an Rx there. -/
  attached : ∀ role core, (s.st.roleLaneOnCore role core).isSome → (role, core) ∈ s.ledger.receivers
  serves : ∀ e ∈ s.ledger.entered, s.ledger.Serves e.1 e.2.peerRole

theorem sendInv_init : SendInv .init where
  entered_eq := rfl
  pending _ _ h := by cases h
  attached role core h := by
    obtain ⟨lane, hlane⟩ := Option.isSome_iff_exists.mp h
    obtain ⟨index, -, hmask, -⟩ := roleLaneOnCore_eq_some.mp hlane
    exact absurd BitVec.zero_and hmask
  serves _ h := by cases h

/-- The send of the frame made of a pending one. -/
theorem sent_frame {pending : PendingMailboxFrame} {o : Outgoing} (h : PendingOf pending o)
    (sessionId : U32) (localRole : U8) : (pending.frame sessionId localRole).sent =
      ⟨sessionId, localRole, o.targetRole, o.frameLabel, o.payload⟩ := by
  simp only [DecodedSioFrame.sent, PendingMailboxFrame.frame, h.peerRole, h.frameLabel, h.bytes]

variable {s : SioState}

/-- The pending frames after one port has changed. -/
theorem pending_update (h : SendInv s) {port : ℕ} {tx : SioTx} {inflight : Option Outgoing}
    (hpending : ∀ p, tx.pending = some p → ∃ o, inflight = some o ∧ PendingOf p o) :
    ∀ port' tx', Function.update s.txs port (some tx) port' = some tx' →
      ∀ p, tx'.pending = some p →
        ∃ o, Function.update s.inflight port inflight port' = some o ∧ PendingOf p o := by
  intro port' tx' htx'
  by_cases hp : port' = port
  · subst hp
    rw [Function.update_self] at htx' ⊢
    exact Option.some.inj htx' ▸ hpending
  · rw [Function.update_of_ne hp] at htx' ⊢
    exact h.pending port' tx' htx'

/-- A stash slot holds frames of its own role. -/
theorem stashes_of_framesOk {st : SioStatics} (h : ∀ p f, st.frames p = some f → FrameOk p f)
    (core : Core) (index : Fin 3) (f : DecodedSioFrame)
    (hf : st.frames (.stash core index) = some f) :
    bakerRoleStashIndex f.peerRole = some index := by
  have hindex : f.peerRole.toNat = index := (h _ f hf).admits
  rw [bakerRoleStashIndex_of_lt (h _ f hf).peerRole_lt]
  exact congrArg some (Fin.ext hindex)

theorem Ledger.Serves.mono {l l' : Ledger} {p : Place} {role : U8} (h : l.Serves p role)
    (hreceivers : l.receivers ⊆ l'.receivers) : l'.Serves p role :=
  h.imp fun _ h => ⟨hreceivers h.1, h.2⟩

/-- The roles attached on a core after one has been marked that has an Rx there. -/
theorem attached_mark {st st' : SioStatics} {core : Core} {role lane : U8}
    {receivers : List (U8 × Core)} (hmark : st.markLocalRoleAttached core role lane = some st')
    (hrole : (role, core) ∈ receivers)
    (h : ∀ role core, (st.roleLaneOnCore role core).isSome → (role, core) ∈ receivers)
    (role' : U8) (core' : Core) (hattached : (st'.roleLaneOnCore role' core').isSome) :
    (role', core') ∈ receivers := by
  obtain ⟨lane', hlane⟩ := Option.isSome_iff_exists.mp hattached
  rcases roleLaneOnCore_of_mark hmark hlane with ⟨rfl, rfl, -⟩ | hbefore
  · exact hrole
  · exact h role' core' (by rw [hbefore]; rfl)

/-- A polled Tx with a pending frame holds the frame of this call, and, undisturbed, is not
refused nor sent to the stash. -/
theorem pending_of_call (hinv : SioInv s) (h : SendInv s) {core : Core} {port : ℕ} {tx : SioTx}
    {o : Outgoing} {p : PendingMailboxFrame} (hport : s.txs port = some tx)
    (hrepolls : Repolls s (.pollSend core port o)) (hundisturbed : SendUndisturbed s core tx o)
    (hp : tx.pending = some p) :
    PendingOf p o ∧ ¬ (o.targetRole = tx.localRole ∨ o.payload.length > sioFrameBytes) ∧
      s.st.roleLaneOnCore o.targetRole core = none := by
  obtain ⟨o', ho', hof⟩ := h.pending port tx hport p hp
  obtain rfl := hrepolls o' ho'
  have hok := hinv.txs port tx hport p hp
  refine ⟨hof, not_or.mpr ⟨?_, ?_⟩, hundisturbed.pending (by simp [hp])⟩
  · rw [← hof.peerRole]; exact hok.peerRole_ne
  · rw [← hof.bytes]; exact Nat.not_lt.mpr p.bytes.2

/-- What a `poll_send` notes of the places. -/
theorem entered_noteSend (l : Ledger) (before after : SioStatics) (tx : SioTx) (o : Outgoing)
    (answer : SendAnswer) :
    (l.noteSend before after tx o answer).entered = (l.noteCall before after).entered ∧
      (l.noteSend before after tx o answer).receivers = l.receivers := by
  unfold Ledger.noteSend
  split <;> exact ⟨rfl, rfl⟩

/-- **What an undisturbed `poll_send` enters**: nothing and no send is completed, or the frame of
its call, to a place that serves its target. -/
theorem sent_cases (hinv : SioInv s) (h : SendInv s) {core : Core} {port : ℕ} {tx tx' : SioTx}
    {o : Outgoing} {st : SioStatics} {answer : SendAnswer} (hport : s.txs port = some tx)
    (hrole : o.targetRole.toNat < 3) (hrepolls : Repolls s (.pollSend core port o))
    (hundisturbed : SendUndisturbed s core tx o)
    (hsend : pollSend s.st core tx o = some (st, tx', answer)) :
    (∀ p, tx'.pending = some p → answer = .pending ∧ PendingOf p o) ∧
      (st.frames = s.st.frames ∧ answer ≠ .ready (.ok ()) ∨
        answer = .ready (.ok ()) ∧ ∃ p f, s.st.frames p = none ∧
          st.frames = Function.update s.st.frames p (some f) ∧
          f.sent = ⟨tx'.sessionId, tx'.localRole, o.targetRole, o.frameLabel, o.payload⟩ ∧
          s.ledger.Serves p f.peerRole) := by
  obtain ⟨marked, hmark, hstep⟩ := sendStep_pollSend hrole (hinv.txs port tx hport) hsend
  have hmarked := frames_markLocalRoleAttached hmark
  have hcall := fun p => @pending_of_call s hinv h core port tx o p hport hrepolls hundisturbed
  -- a call that does not go to the mailbox finds no frame kept for it
  have hidle : o.targetRole = tx.localRole ∨ o.payload.length > sioFrameBytes ∨
      (marked.roleLaneOnCore o.targetRole core).isSome → tx.pending = none := by
    intro hwhy
    cases hp : tx.pending with
    | none => rfl
    | some p =>
        obtain ⟨-, hnot, hlane⟩ := hcall p hp
        have hself : o.targetRole ≠ tx.localRole := fun e => hnot (.inl e)
        rw [roleLaneOnCore_markLocalRoleAttached hmark hself, hlane] at hwhy
        rcases hwhy with hwhy | hwhy | hwhy
        · exact absurd hwhy hself
        · exact absurd (.inr hwhy) hnot
        · cases hwhy
  -- the frame sent is this call's, whether it was kept before or not
  have hpendingOf : ∀ p, tx.pending = some p ∨ tx.pending = none ∧ PendingOf p o →
      PendingOf p o := by
    rintro p (hp | ⟨-, hof⟩)
    · exact (hcall p hp).1
    · exact hof
  generalize hafter : st.frames = frames at hstep ⊢
  cases hstep with
  | refused hwhy =>
      have hnone := hidle hwhy
      refine ⟨fun p hp => ?_, .inl ⟨hmarked, fun e => by cases e⟩⟩
      rw [hnone] at hp
      cases hp
  | @stashed index f hattached hempty hindex hne hsent =>
      have hnone := hidle (.inr (.inr hattached))
      refine ⟨fun p hp => (by rw [hnone] at hp; cases hp), .inr ⟨rfl, .stash core index, f,
        ?_, ?_, hsent, ?_⟩⟩
      · rw [← hmarked]; exact hempty
      · rw [hmarked]
      -- the target is attached on the core, so it has an Rx there
      · rw [show f.peerRole = o.targetRole from congrArg CompletedSend.targetRole hsent]
        refine ⟨core, h.attached _ _ ?_, rfl, hindex⟩
        rwa [← roleLaneOnCore_markLocalRoleAttached hmark hne]
  | @published p haway hempty hok hpending =>
      have hof := hpendingOf p hpending
      have hne : o.targetRole ≠ tx.localRole := by rw [← hof.peerRole]; exact hok.peerRole_ne
      have hfits : o.payload.length ≤ sioFrameBytes := by rw [← hof.bytes]; exact p.bytes.2
      rw [hmarked] at hempty
      refine ⟨fun p hp => (by cases hp),
        .inr ⟨rfl, .outbound core, _, hempty, by rw [hmarked], sent_frame hof _ _,
          core.peer, ?_, core.peer_peer.symm⟩⟩
      -- the target is not attached on the core, so it has its Rx on the other
      rw [roleLaneOnCore_markLocalRoleAttached hmark hne] at haway
      rw [show (p.frame tx.sessionId tx.localRole).peerRole = o.targetRole from hof.peerRole]
      exact hundisturbed.there hne hfits haway hempty
  | @kept p hok hpending =>
      refine ⟨fun p' hp' => ⟨rfl, ?_⟩, .inl ⟨hmarked, fun e => by cases e⟩⟩
      obtain rfl := Option.some.inj hp'
      exact hpendingOf p hpending

/-- **An undisturbed `poll_send`** enters the frame of its call exactly when it answers `Ok`. -/
theorem SendInv.sent (hinv : SioInv s) (h : SendInv s) {core : Core} {port : ℕ} {tx tx' : SioTx}
    {o : Outgoing} {st : SioStatics} {answer : SendAnswer} (hport : s.txs port = some tx)
    (hrole : o.targetRole.toNat < 3) (hrepolls : Repolls s (.pollSend core port o))
    (hundisturbed : SendUndisturbed s core tx o)
    (hsend : pollSend s.st core tx o = some (st, tx', answer)) :
    SendInv (s.sent port o st tx' answer) := by
  obtain ⟨hpending, hcases⟩ := sent_cases hinv h hport hrole hrepolls hundisturbed hsend
  obtain ⟨hentered, hreceivers⟩ := entered_noteSend s.ledger s.st st tx' o answer
  obtain ⟨marked, hmark, hattached⟩ := Option.map_eq_some_iff.mp hsend
  have hregistry := (kept_sendAttached marked { tx with coreId := core } o).registry
  rw [hattached] at hregistry
  refine ⟨?_, pending_update h fun p hp => ?_, fun role core' hsome => ?_, fun e he => ?_⟩
  · rcases hcases with ⟨hsame, hnot⟩ | ⟨rfl, p, f, hempty, hfill, hsent, -⟩
    · have hnote : s.ledger.noteSend s.st st tx' o answer = s.ledger.noteCall s.st st := by
        unfold Ledger.noteSend
        split
        · exact absurd rfl hnot
        · rfl
      rw [SioState.sent, hnote, noteCall_of_same hsame]
      exact h.entered_eq
    · dsimp only [SioState.sent, Ledger.noteSend]
      rw [noteCall_of_fill hempty hfill, List.map_append, h.entered_eq]
      exact congrArg _ (congrArg (· :: []) hsent)
  · obtain ⟨hanswer, hof⟩ := hpending p hp
    exact ⟨o, if_pos hanswer, hof⟩
  · have hin : (role, core') ∈ s.ledger.receivers :=
      attached_mark hmark hundisturbed.here h.attached role core' (by rwa [← hregistry])
    rw [SioState.sent, hreceivers]
    exact hin
  · rw [SioState.sent, hentered] at he
    rw [SioState.sent, Ledger.Serves, hreceivers]
    rcases hcases with ⟨hsame, -⟩ | ⟨-, p, f, hempty, hfill, -, hserves⟩
    · rw [noteCall_of_same hsame] at he
      exact h.serves e he
    · rw [noteCall_of_fill hempty hfill] at he
      rcases List.mem_append.mp he with he | he
      · exact h.serves e he
      · obtain rfl := List.mem_singleton.mp he
        exact hserves

theorem entered_noteRecv (l : Ledger) (before after : SioStatics) (port : ℕ) (rx : SioRx)
    (phase : RecvPhase) :
    (l.noteRecv before after port rx phase).entered = l.entered ∧
      (l.noteRecv before after port rx phase).completed = l.completed ∧
      (l.noteRecv before after port rx phase).receivers = l.receivers := by
  unfold Ledger.noteRecv
  split
  · dsimp only
    split <;> exact ⟨rfl, rfl, rfl⟩
  · exact ⟨rfl, rfl, rfl⟩
  · exact ⟨rfl, rfl, rfl⟩

/-- A `poll_recv` enters nothing and completes nothing. -/
theorem SendInv.received (h : SendInv s) {core : Core} {port : ℕ} {st : SioStatics} {rx : SioRx}
    {phase : RecvPhase}
    (hattached : ∀ role core', (st.roleLaneOnCore role core').isSome →
      (role, core') ∈ (rx.localRole, rx.coreId) :: s.ledger.receivers) :
    SendInv (s.received core port st rx phase) := by
  obtain ⟨hentered, hcompleted, hreceivers⟩ := entered_noteRecv s.ledger s.st st port rx phase
  have hledger : (s.received core port st rx phase).ledger.receivers =
      (rx.localRole, rx.coreId) :: s.ledger.receivers := congrArg _ hreceivers
  refine ⟨?_, h.pending, fun role core' hsome => ?_, fun e he => ?_⟩
  · exact (congrArg _ hentered).trans (h.entered_eq.trans hcompleted.symm)
  · rw [hledger]
    exact hattached role core' hsome
  · have hold : e ∈ s.ledger.entered := hentered ▸ he
    refine (h.serves e hold).mono ?_
    rw [hledger]
    exact List.subset_cons_self _ _

/-- A call that touches no place and leaves no frame pending. -/
theorem SendInv.opened (h : SendInv s) {port : ℕ} {st : SioStatics} {tx : SioTx} {rx : SioRx}
    (hst : st.frames = s.st.frames) (htx : tx.pending = none)
    (hattached : ∀ role core', (st.roleLaneOnCore role core').isSome →
      (role, core') ∈ (rx.localRole, rx.coreId) :: s.ledger.receivers) :
    SendInv (s.opened port st tx rx) := by
  have hledger : (s.opened port st tx rx).ledger = s.ledger.noteReceiver rx := by
    rw [SioState.opened, noteCall_of_same hst]
  refine ⟨?_, pending_update h fun p hp => (by rw [htx] at hp; cases hp),
    fun role core' hsome => ?_, fun e he => ?_⟩
  · rw [hledger]
    exact h.entered_eq
  · rw [hledger]
    exact hattached role core' hsome
  · rw [hledger] at he ⊢
    exact (h.serves e he).mono (List.subset_cons_self _ _)

theorem sendInv_step (a : SioAction) (t : SioState) (hinv : SioInv s) (h : SendInv s)
    (hroles : WithinRoles s a) (hrepolls : Repolls s a) (hundisturbed : Undisturbed s a)
    (hstep : sioMachine.next s a = some t) : SendInv t := by
  -- the roles attached before a part of a `poll_recv` that marks none
  have hgrows : ∀ role core r, (s.st.roleLaneOnCore role core).isSome →
      (role, core) ∈ r :: s.ledger.receivers := fun role core r hsome =>
    List.mem_cons_of_mem _ (h.attached role core hsome)
  cases sioStep_cases hstep with
  | opened _ _ _ hmark =>
      exact h.opened (frames_markLocalRoleAttached hmark) rfl
        (attached_mark hmark (List.mem_cons_self ..)
          fun role core hsome => hgrows role core _ hsome)
  | openedXor => exact h.opened rfl rfl fun role core hsome => hgrows role core _ hsome
  | sent _ htx hsend =>
      exact h.sent hinv htx hroles hrepolls (hundisturbed _ htx) hsend
  | @cancelled core port tx _ htx =>
      rw [cancelSend_eq (hinv.txs port tx htx)]
      have hledger : (s.cancelled port s.st { tx with pending := none }).ledger = s.ledger := by
        rw [SioState.cancelled, noteCall_of_same rfl]
      refine ⟨?_, pending_update h fun p hp => (by cases hp), fun role core' hsome => ?_,
        fun e he => ?_⟩
      all_goals rw [hledger] at *
      · exact h.entered_eq
      · exact h.attached role core' hsome
      · exact h.serves e he
  | @received core port rx st rx' phase _ hrx hrecv =>
      obtain ⟨marked, hmark, hrecv⟩ := Option.map_eq_some_iff.mp hrecv
      have hframes : ∀ p f, marked.frames p = some f → FrameOk p f := by
        rw [frames_markLocalRoleAttached hmark]; exact hinv.frames
      have hsettled : ({ rx with coreId := core } : SioRx).Settled := hinv.rxs.settled port rx hrx
      obtain ⟨rx₁, hkeeps, hattached⟩ := recvStep_recvAttached hframes hsettled
      rw [hrecv] at hattached
      have hregistry := (@tidy_recvAttached marked { rx with coreId := core }
        (stashes_of_framesOk hframes)).registry
      rw [hrecv] at hregistry
      refine h.received fun role core' hsome => ?_
      rw [hattached.samePort.1, hattached.samePort.2, hkeeps.localRole, hkeeps.coreId]
      exact attached_mark hmark (List.mem_cons_self ..)
        (fun role core hsome => hgrows role core _ hsome) role core' (by rwa [← hregistry])
  | @scanned core timerReady port rx _ _ =>
      refine h.received fun role core' hsome => hgrows role core' _ ?_
      rwa [← (kept_recvScan s.st rx).registry]
  | @awaited core timerReady port rx _ _ =>
      refine h.received fun role core' hsome => hgrows role core' _ ?_
      rwa [← (kept_recvAwait s.st rx timerReady).registry]
  | requeued => exact ⟨h.entered_eq, h.pending, h.attached, h.serves⟩

/-! ### The result -/

theorem held_le_entered {l : Ledger} {frames : Frames} (h : Accounted l frames) :
    (Slots.held frames).map DecodedSioFrame.received ≤ ↑(l.entered.map fun e => e.2.received) := by
  rw [h.balance, add_assoc]
  exact (Multiset.le_add_right _ _).trans (Multiset.le_add_left _ _)

/-- **Sends are exact** in every undisturbed run of the two cores. -/
theorem sends_exact (as : List SioAction) (s : SioState)
    (hrun : sioMachine.exec .init as = some s) (hroles : sioMachine.Along WithinRoles .init as)
    (hrepolls : sioMachine.Along Repolls .init as)
    (hundisturbed : sioMachine.Along Undisturbed .init as) : SendsExact s := by
  have hinv : SioInv s ∧ SendInv s :=
    Machine.exec_invariant (I := fun s => SioInv s ∧ SendInv s)
      (fun s a t hs hP h => ⟨sioInv_step s a t hs.1 hP.1 h,
        sendInv_step a t hs.1 hs.2 hP.1 hP.2.1 hP.2.2 h⟩)
      ⟨sioInv_init, sendInv_init⟩ (hroles.and (hrepolls.and hundisturbed)) hrun
  have hacc := hinv.1.accounted
  exact ⟨hinv.2.entered_eq, hinv.2.serves, hacc.removed, held_le_entered hacc⟩

instance (s : SioState) (core : Core) (tx : SioTx) (o : Outgoing) :
    Decidable (SendUndisturbed s core tx o) :=
  decidable_of_iff ((tx.pending ≠ none → s.st.roleLaneOnCore o.targetRole core = none) ∧
      (tx.localRole, core) ∈ s.ledger.receivers ∧
      (o.targetRole ≠ tx.localRole → o.payload.length ≤ sioFrameBytes →
        s.st.roleLaneOnCore o.targetRole core = none → s.st.frames (.outbound core) = none →
          (o.targetRole, core.peer) ∈ s.ledger.receivers))
    ⟨fun h => ⟨h.1, h.2.1, h.2.2⟩, fun h => ⟨h.pending, h.here, h.there⟩⟩

instance (s : SioState) : ∀ a, Decidable (Undisturbed s a)
  | .pollSend core port o =>
      match h : s.txs port with
      | none => isTrue fun tx htx => by rw [h] at htx; cases htx
      | some tx => decidable_of_iff (SendUndisturbed s core tx o)
          ⟨fun H tx' htx' => by rw [h] at htx'; cases htx'; exact H, fun H => H tx h⟩
  | .open _ _ _ | .openWithTxSessionXor _ _ _ _ _ | .cancelSend _ _ | .pollRecv _ _
  | .recvTurn _ _ | .requeue _ _ => isTrue trivial

/-- Role 0 on core 0 sends two frames to role 1 on core 1: one is in the mailbox, the other is
pending. -/
def onePending : List SioAction :=
  [.open .core0 0 { localRole := 0, sessionId := 42, lane := 1 },
    .open .core1 1 { localRole := 2, sessionId := 42, lane := 1 },
    .open .core1 2 { localRole := 1, sessionId := 42, lane := 1 },
    .pollSend .core0 0 { targetRole := 1, frameLabel := 5, lane := 1, payload := [1] },
    .pollSend .core0 0 { targetRole := 1, frameLabel := 6, lane := 1, payload := [2] }]

/-- Role 2 takes what is in the mailbox, until it is empty. -/
def drained : List SioAction := [.pollRecv .core1 1, .recvTurn .core1 false, .recvTurn .core1 false]

/-- The pending frame is published at the next poll. -/
theorem sends_exact_pending :
    ∃ s, sioMachine.exec .init (onePending ++ drained ++
        [.pollSend .core0 0 { targetRole := 1, frameLabel := 6, lane := 1, payload := [2] }]) =
          some s ∧
      s.ledger.completed = [⟨42, 0, 1, 5, [1]⟩, ⟨42, 0, 1, 6, [2]⟩] ∧ SendsExact s := by
  have hsome : (sioMachine.exec .init (onePending ++ drained ++
      [.pollSend .core0 0 { targetRole := 1, frameLabel := 6, lane := 1, payload := [2] }])).map
      (fun s => s.ledger.completed) = some [⟨42, 0, 1, 5, [1]⟩, ⟨42, 0, 1, 6, [2]⟩] := by
    decide +kernel
  obtain ⟨s, hrun, hcompleted⟩ := Option.map_eq_some_iff.mp hsome
  exact ⟨s, hrun, hcompleted, sends_exact _ s hrun (by decide +kernel) (by decide +kernel)
    (by decide +kernel)⟩

/-- Role 1 is opened on core 0 too between two polls of the pending send, which is then answered
from the stash; the send to role 2 that follows is answered `Ok`, and the frame it publishes is the
one left pending. -/
def staleSend : List SioAction := onePending ++
  [.open .core0 3 { localRole := 1, sessionId := 42, lane := 1 },
    .pollSend .core0 0 { targetRole := 1, frameLabel := 6, lane := 1, payload := [2] }] ++
  drained ++ [.pollSend .core0 0 { targetRole := 2, frameLabel := 7, lane := 1, payload := [3] }]

/-- Roles 0 and 1 are open on core 0, and nobody is attached there: the frame for role 1 goes to the
mailbox that core 1 reads. -/
def straySend : List SioAction :=
  [.openWithTxSessionXor .core0 0 { localRole := 0, sessionId := 42, lane := 1 } 0 0,
    .openWithTxSessionXor .core0 1 { localRole := 1, sessionId := 42, lane := 1 } 0 0,
    .pollSend .core0 0 { targetRole := 1, frameLabel := 5, lane := 1, payload := [1] }]

/-- A run of callers that keep to what is theirs, and sends that are not exact. -/
def InexactRun (as : List SioAction) : Prop :=
  ∃ s, sioMachine.exec .init as = some s ∧ sioMachine.Along WithinRoles .init as ∧
    sioMachine.Along Repolls .init as ∧ ¬ SendsExact s

/-- **A send that is not exact**: one that publishes a stale frame, and one that publishes its own
where its target never looks. -/
theorem sends_inexact : InexactRun staleSend ∧ InexactRun straySend := by
  have hstale : (sioMachine.exec .init staleSend).map
      (fun s => decide (s.ledger.entered.map (fun e => e.2.sent) = s.ledger.completed)) =
        some false := by decide +kernel
  have hstray : (sioMachine.exec .init straySend).map
      (fun s => (s.ledger.entered.map fun e => (e.1, e.2.peerRole), s.ledger.receivers)) =
        some ([(.outbound .core0, 1)], [(1, .core0), (0, .core0)]) := by decide +kernel
  constructor
  · obtain ⟨s, hrun, hne⟩ := Option.map_eq_some_iff.mp hstale
    exact ⟨s, hrun, by decide +kernel, by decide +kernel,
      fun h => of_decide_eq_false hne h.entered_eq⟩
  · obtain ⟨s, hrun, hs⟩ := Option.map_eq_some_iff.mp hstray
    obtain ⟨hentered, hreceivers⟩ := Prod.mk.inj hs
    refine ⟨s, hrun, by decide +kernel, by decide +kernel, fun h => ?_⟩
    obtain ⟨e, hmem, he⟩ := List.mem_map.mp
      (hentered ▸ List.mem_singleton_self (Place.outbound Core.core0, (1 : U8)))
    obtain ⟨hplace, hrole⟩ := Prod.mk.inj he
    -- core 1 has no port of role 1
    obtain ⟨core, hcore, hlooked⟩ := h.serves e hmem
    rw [hrole, hreceivers] at hcore
    rw [hplace] at hlooked
    cases core with
    | core0 => cases hlooked
    | core1 => exact absurd hcore (by decide)

end HibanaPico.Baker
