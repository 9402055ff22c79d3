import HibanaPico.Rp2w.Delivery

/-!
# Rp2w — Exactly once

The three ways of a frame together: to a role on the other core, to another role on the same core,
and to the role of the Tx itself.

* `Framed`: the words of each core are pushed frame by frame, and left by no cancel.
* `Kept`: no send to its own role, and no frame decoded while its slot in the stash is taken.
* `SioDelivers`: every send answered `Ok` was handed out once to an Rx of its role and lane or waits
  for one, and no frame was discarded.
* `sio_delivery_iff`: of the runs that are framed, those that are kept deliver.
-/

namespace HibanaPico.Rp2w
open HibanaPico.Support
open HibanaPico.Transport
open HibanaPico.Sio

variable {depth : ℕ} {s t : SioState}

/-! ### Where frames wait -/

/-- The frames that a core was answered `Ok` for are to roles of the other one. -/
def CompletedPlaced (s : SioState) : Prop :=
  ∀ c, ∀ f ∈ (s.stream c).completed, rp2wRoleCore f.1.peerRole = some c.peer

/-- What the machine keeps when its words are pushed frame by frame. -/
structure SioInv (s : SioState) : Prop where
  flow : ∀ c, Flow s c
  tx : TxInv s
  words : ∀ c, Words s c
  left : ∀ c, NoneLeft c s
  completed : CompletedPlaced s
  placed : Placed s.st

/-- The caller polls with the frame it was put off with, each word is pushed while no other Tx of
its core has words out, and no send is cancelled with words out. -/
def Framed (depth : ℕ) (s : SioState) (a : SioAction) : Prop :=
  Repolls s a ∧ (∀ c, Exclusive depth c s a) ∧ ∀ c, CancelsNothingOut c s a

theorem forall_core {P : Core → Prop} : (∀ c, P c) ↔ P .core0 ∧ P .core1 :=
  ⟨fun h => ⟨h _, h _⟩, fun h c => by cases c; exacts [h.1, h.2]⟩

instance (depth : ℕ) (s : SioState) (a : SioAction) : Decidable (Framed depth s a) :=
  have : Decidable (∀ c, Exclusive depth c s a) := decidable_of_iff' _ forall_core
  have : Decidable (∀ c, CancelsNothingOut c s a) := decidable_of_iff' _ forall_core
  inferInstanceAs (Decidable (_ ∧ _ ∧ _))

theorem SioInv.exact (h : SioInv s) (c : Core) : StreamExact s c :=
  streamExact_of_words (h.flow c) (h.words c) (h.left c)

/-- The core of the role of a pending frame. -/
theorem placed_of_pending (h : TxInv s) {port : ℕ} {tx : SioTx}
    {p : { p : PendingTxFrame // tx.localRole ≠ p.peerRole }} (htx : s.txs[port]? = some tx)
    (pending : tx.pending = some p) : rp2wRoleCore p.1.peerRole = some tx.coreId.peer := by
  obtain ⟨-, ⟨core, role, other⟩, -⟩ := h.pending port tx htx p pending
  rw [role, Core.eq_peer_of_ne other]

/-- A frame decoded from the words of a core is to a role of the other one. -/
theorem placed_of_decoded (flow : StreamExact s c) (tx : TxInv s) (completed : CompletedPlaced s)
    {f : DecodedSioFrame} (mem : f ∈ decodedOf (s.stream c).answers) :
    rp2wRoleCore f.peerRole = some c.peer := by
  obtain ⟨frame, sent, rfl⟩ := List.mem_map.mp (flow.decoded.subset mem)
  rcases List.mem_append.mp sent with sent | sent
  · exact completed c frame sent
  · obtain ⟨x, hx, sent⟩ := List.mem_flatMap.mp sent
    obtain ⟨port, hx⟩ := List.getElem?_of_mem hx
    rw [SioTx.sending] at sent
    split at sent
    next p pending =>
      split at sent
      next out =>
        obtain rfl := List.mem_singleton.mp sent
        rw [← out.1]
        exact placed_of_pending tx hx pending
      next => cases sent
    next => cases sent

theorem completedPlaced_step (hinv : TxInv s) (h : CompletedPlaced s) {a : SioAction}
    (step : (sioMachine depth).next s a = some t) : CompletedPlaced t := by
  intro c f mem
  cases sioStep_cases step with
  | opened _ => exact h c f mem
  | sendStarted _ _ _ => exact h c f mem
  | @sendTurned core timerReady port o tx st tx' phase hbusy htx hturn =>
      by_cases hc : c = tx'.coreId
      · subst hc
        rw [stream_sendTurned, Stream.noteSend] at mem
        dsimp only at mem
        split at mem
        next done =>
          rcases List.mem_append.mp mem with mem | mem
          · exact h _ f mem
          · cases hturn with
            | @finished p pending _ =>
                obtain ⟨-, -, o', inflight, call⟩ := hinv.pending port tx htx p pending
                rw [(hinv.busy core port o hbusy).1] at inflight
                obtain rfl := Option.some.inj inflight
                change f ∈ (callFrame tx o).toList at mem
                rw [call] at mem
                obtain rfl := List.mem_singleton.mp mem
                exact placed_of_pending hinv htx pending
            | _ => cases done
        next => exact h _ f mem
      · rw [stream_sendTurned_of_ne _ _ _ _ _ hc] at mem
        exact h c f mem
  | @cancelled port tx htx _ =>
      refine h c f ?_
      by_cases hc : c = tx.coreId
      · subst hc
        simpa only [SioState.cancelled, Function.update_self] using mem
      · simpa only [SioState.cancelled, Function.update_of_ne hc] using mem
  | @received a port rx st rx' phase _ _ =>
      refine h c f ?_
      by_cases hc : c = rx'.coreId.peer
      · subst hc
        rw [stream_received] at mem
        exact mem
      · rw [stream_received_of_ne _ _ _ _ hc] at mem
        exact mem
  | requeued => exact h c f mem

/-- A frame taken in a turn is among those decoded after it. -/
theorem mem_decodedOf_recvPart {port : ℕ} {rx : SioRx} {awaiting timerReady : Bool}
    {f : DecodedSioFrame} (core : (recvPart s.st rx awaiting timerReady).2.1.coreId = rx.coreId)
    (h : taken s.st rx = some f) :
    f ∈ decodedOf ((s.received port (recvPart s.st rx awaiting timerReady).1
      (recvPart s.st rx awaiting timerReady).2.1
      (recvPart s.st rx awaiting timerReady).2.2).stream rx.coreId.peer).answers := by
  have noted := decodedOf_recvPart (s.stream rx.coreId.peer) s.st rx awaiting timerReady
  have stream := stream_received s port (recvPart s.st rx awaiting timerReady).1
    (recvPart s.st rx awaiting timerReady).2.1 (recvPart s.st rx awaiting timerReady).2.2
  rw [core] at stream
  rw [stream, noted, h]
  exact List.mem_append_right _ (List.mem_singleton_self f)

theorem placed_step (h : Placed s.st) {a : SioAction}
    (after : ∀ c f, f ∈ decodedOf (t.stream c).answers → rp2wRoleCore f.peerRole = some c.peer)
    (step : (sioMachine depth).next s a = some t) : Placed t.st := by
  cases a with
  | «open» core as txSessionXor operationalDeadlineTicks =>
      obtain ⟨-, step⟩ := Option.ite_none_right_eq_some.mp step
      cases step
      exact h
  | pollSend port o =>
      obtain ⟨tx, htx, step⟩ := Option.bind_eq_some_iff.mp step
      obtain ⟨-, step⟩ := Option.ite_none_right_eq_some.mp step
      obtain ⟨⟨st, tx', phase⟩, hsend, rfl⟩ := Option.map_eq_some_iff.mp step
      cases stashSend_cases hsend with
      | self _ => exact h
      | kept _ _ same => exact h.congr same
      | stashed other frame role near empty filled =>
          exact h.set (fun f hf => by cases hf; exact ⟨role, near⟩) filled
  | cancelSend port =>
      obtain ⟨tx, htx, step⟩ := Option.bind_eq_some_iff.mp step
      obtain ⟨-, step⟩ := Option.ite_none_right_eq_some.mp step
      cases step
      exact h
  | pollRecv port =>
      obtain ⟨rx, hrx, step⟩ := Option.bind_eq_some_iff.mp step
      obtain ⟨-, step⟩ := Option.ite_none_right_eq_some.mp step
      cases step
      show Placed (pollRecv s.st rx).1
      have looked := looked_pollRecv h rx
      generalize pollRecv s.st rx = result at looked ⊢
      obtain ⟨st, rx', phase⟩ := result
      cases looked with
      | again _ => exact h
      | nothing _ _ same => exact h.congr same
      | handed _ _ _ _ cleared => exact h.set (fun f hf => by cases hf) cleared
  | turn core timerReady =>
      simp only [sioMachine, sioNext] at step
      split at step
      next => cases step
      next port o hbusy =>
        obtain ⟨tx, htx, rfl⟩ := Option.map_eq_some_iff.mp step
        refine h.congr ?_
        have turn := sendTurn_cases s.st depth tx
        generalize sendTurn s.st depth tx = result at turn ⊢
        obtain ⟨st, tx', phase⟩ := result
        cases turn <;> rfl
      next port awaiting hbusy =>
        obtain ⟨rx, hrx, rfl⟩ := Option.map_eq_some_iff.mp step
        have took := took_turn s.st rx awaiting timerReady
        have near : ∀ f, taken s.st rx = some f → rp2wRoleCore f.peerRole = some rx.coreId := by
          intro f completes
          rw [← Core.peer_peer rx.coreId]
          exact after _ f (mem_decodedOf_recvPart (coreId_recvPart _ _ _ _) completes)
        change Placed (recvPart s.st rx awaiting timerReady).1
        change Took s.st rx _ (recvPart s.st rx awaiting timerReady).1
          (recvPart s.st rx awaiting timerReady).2.2 at took
        generalize recvPart s.st rx awaiting timerReady = result at took ⊢
        obtain ⟨st, rx', phase⟩ := result
        generalize taken s.st rx = frame at took near
        cases took with
        | nothing _ same => exact h.congr same
        | handed _ same => exact h.congr same
        | lost _ _ same => exact h.congr same
        | stashed _ role _ filled =>
            exact h.set (fun f hf => by cases hf; exact ⟨role, near _ rfl⟩) filled
  | requeue port =>
      obtain ⟨rx, hrx, step⟩ := Option.bind_eq_some_iff.mp step
      obtain ⟨-, step⟩ := Option.ite_none_right_eq_some.mp step
      cases step
      exact h

theorem sioInv_init : SioInv .init where
  flow := flow_init
  tx := txInv_init
  words := words_init
  left _ _ mem := by cases mem
  completed _ _ mem := by cases mem
  placed _ _ _ full := by cases full

/-- **What a framed step preserves.** -/
theorem sioInv_step (s : SioState) (a : SioAction) (t : SioState) (h : SioInv s)
    (framed : Framed depth s a) (step : (sioMachine depth).next s a = some t) : SioInv t := by
  obtain ⟨repolls, exclusive, cancels⟩ := framed
  have flow := flow_step depth s a t h.flow step
  have tx := txInv_step depth s a t h.tx repolls step
  have words := fun c => words_step depth s a t h.tx (h.words c) (exclusive c) step
  have left := fun c => (noneLeft_step depth s a t step).mpr ⟨h.left c, cancels c⟩
  have completed := completedPlaced_step h.tx h.completed step
  refine ⟨flow, tx, words, left, completed, ?_⟩
  refine placed_step h.placed (fun c f mem => ?_) step
  exact placed_of_decoded (streamExact_of_words (flow c) (words c) (left c)) tx completed mem

/-! ### What a run delivers -/

/-- The frames that core `c` was answered `Ok` for and whose words are still on their way. -/
def onTheWay (s : SioState) (c : Core) : List ReceivedFrame :=
  (completedFrames s c).drop (decodedFrames s c).length

/-- The frames decoded ahead of the answer to their send. -/
def ahead (s : SioState) (c : Core) : List ReceivedFrame :=
  (decodedFrames s c).drop (completedFrames s c).length

/-- What the sends and the receives of a run owe each other. -/
structure SioDelivers (depth : ℕ) (as : List SioAction) (s : SioState) : Prop where
  /-- A frame whose send was answered `Ok`, or is about to be, was handed out once, or waits in the
  stash, or is on its way. -/
  once : ((sioMachine depth).collect (okSends depth) .init as : Multiset ReceivedFrame) +
      bothCores (ahead s) =
    ↑(((sioMachine depth).collect handed .init as).map Prod.snd) + stashed s.st +
      bothCores (onTheWay s)
  /-- Frames are handed out to an Rx of their role and lane. -/
  rightful : ∀ out ∈ (sioMachine depth).collect handed .init as,
    out.2.header.peerRole = out.1.localRole ∧ out.2.header.lane = out.1.lane
  kept : (sioMachine depth).collect discarded .init as = []
  /-- A frame in the stash waits at the core of its role, and is handed out to an Rx of its role and
  lane that polls there for a frame. -/
  deliverable : ∀ rx slot f, s.st.stash rx.coreId slot = some f →
    rp2wRoleCore f.peerRole = some rx.coreId ∧
      (f.peerRole = rx.localRole → f.lane = rx.lane → ¬ Holds rx →
        (pollRecv s.st rx).2.2 = .answer (.ready (.ok f.received)))
  /-- The words of a frame on its way are whole, and at the core of its role. -/
  streams : ∀ c, StreamExact s c ∧
    ∀ f ∈ (s.stream c).completed, rp2wRoleCore f.1.peerRole = some c.peer

/-- A step that sends nothing to its own role, and decodes no frame for another role or lane while
another frame waits in the slot of its role. -/
def Kept (s : SioState) : SioAction → Prop
  | .pollSend port o => ∀ tx ∈ s.txs[port]?, tx.localRole ≠ o.targetRole
  | .turn core _ =>
      match s.busy core with
      | some (.recv port _) => ∀ rx ∈ s.rxs[port]?, ∀ f ∈ taken s.st rx, Misfits rx f →
          ¬ Clashes s.st rx.coreId f
      | _ => True
  | _ => True

theorem fits_received {rx : SioRx} {f : DecodedSioFrame} (fits : ¬ Misfits rx f) :
    f.received.header.peerRole = rx.localRole ∧ f.received.header.lane = rx.lane :=
  (not_or.mp fits).imp not_not.mp not_not.mp

/-- What is handed out to an Rx fits it. -/
theorem handOut_fits {rx : SioRx} {phase : RecvPhase}
    (fits : ∀ r, phase = .answer (.ready (.ok r)) →
      r.header.peerRole = rx.localRole ∧ r.header.lane = rx.lane) :
    ∀ out ∈ handOut rx phase,
      out.2.header.peerRole = out.1.localRole ∧ out.2.header.lane = out.1.lane := by
  intro out mem
  unfold handOut at mem
  split at mem
  next r =>
    obtain rfl := List.mem_singleton.mp mem
    exact fits r rfl
  next => cases mem

theorem handed_fits (s : SioState) (a : SioAction) (placed : Placed s.st) :
    ∀ out ∈ handed s a,
      out.2.header.peerRole = out.1.localRole ∧ out.2.header.lane = out.1.lane := by
  intro out mem
  cases a with
  | pollRecv port =>
      obtain ⟨rx, -, mem⟩ := List.mem_flatMap.mp mem
      split at mem
      next => cases mem
      next free =>
        refine handOut_fits (fun r phase => ?_) out mem
        have looked := looked_pollRecv placed rx
        rw [phase] at looked
        generalize (pollRecv s.st rx).1 = st at looked
        cases looked with
        | again holds => exact absurd holds free
        | nothing _ quiet _ => exact quiet.elim
        | handed _ fits _ _ _ => exact fits_received fits
  | turn core timerReady =>
      unfold handed at mem
      dsimp only at mem
      split at mem
      next port awaiting _ =>
        obtain ⟨rx, -, mem⟩ := List.mem_flatMap.mp mem
        refine handOut_fits (fun r phase => ?_) out mem
        have took := took_turn s.st rx awaiting timerReady
        change Took s.st rx _ _ (recvPart s.st rx awaiting timerReady).2.2 at took
        rw [phase] at took
        generalize taken s.st rx = frame at took
        generalize (if awaiting then recvAwait s.st rx timerReady
          else recvTurn s.st rx).1 = st at took
        cases took with
        | nothing quiet _ => exact quiet.elim
        | handed fits _ => exact fits_received fits
      next => cases mem
  | «open» _ _ _ _ | pollSend _ _ | cancelSend _ | requeue _ => cases mem

/-- A turn fails with a frame in hand exactly when the stash has no room for it. -/
theorem fails_iff {rx : SioRx} {awaiting timerReady : Bool} :
    (if Fails (recvPart s.st rx awaiting timerReady).2.2 then
        ((taken s.st rx).map DecodedSioFrame.received).toList else []) = [] ↔
      ∀ f ∈ taken s.st rx, Misfits rx f → ¬ Clashes s.st rx.coreId f := by
  have took := took_turn s.st rx awaiting timerReady
  change Took s.st rx _ _ (recvPart s.st rx awaiting timerReady).2.2 at took
  generalize (if awaiting then recvAwait s.st rx timerReady else recvTurn s.st rx).1 = st at took
  generalize (recvPart s.st rx awaiting timerReady).2.2 = phase at took ⊢
  generalize taken s.st rx = frame at took ⊢
  cases took with
  | nothing quiet same => simp
  | handed fits same => simp [Fails, fits]
  | @stashed f _ slot misfits role empty filled =>
      simp only [Fails, Bool.false_eq_true, if_false, true_iff, Option.mem_def, Option.some.injEq]
      rintro _ rfl _ clashes
      exact clashes slot role empty
  | @lost f _ e misfits clashes same =>
      simp only [Fails, if_true, Option.map_some, Option.toList_some, List.cons_ne_nil, false_iff]
      exact fun free => free f rfl misfits clashes

theorem kept_iff (s : SioState) (a : SioAction) :
    Kept s a ↔ selfSends s a = [] ∧ discarded s a = [] := by
  cases a with
  | pollSend port o =>
      refine Iff.trans ?_ (and_iff_left rfl).symm
      change _ ↔ List.flatMap _ _ = []
      rw [List.flatMap_eq_nil_iff]
      simp only [Option.mem_toList, ite_eq_right_iff, List.cons_ne_nil]
      exact Iff.rfl
  | turn core timerReady =>
      refine Iff.trans ?_ (and_iff_right rfl).symm
      unfold Kept discarded
      dsimp only
      cases s.busy core with
      | none => exact ⟨fun _ => rfl, fun _ => trivial⟩
      | some call =>
          cases call with
          | send port o => exact ⟨fun _ => rfl, fun _ => trivial⟩
          | recv port awaiting =>
              dsimp only
              rw [List.flatMap_eq_nil_iff]
              simp only [Option.mem_toList, fails_iff]
              exact Iff.rfl
  | «open» _ _ _ _ | cancelSend _ | pollRecv _ | requeue _ =>
      exact ⟨fun _ => ⟨rfl, rfl⟩, fun _ => trivial⟩

/-- The frames decoded and those answered `Ok` are in step, one list ahead of the other. -/
theorem ahead_balance (exact : ∀ c, StreamExact s c) :
    bothCores (completedFrames s) + bothCores (ahead s) =
      bothCores (decodedFrames s) + bothCores (onTheWay s) := by
  have core : ∀ c, (completedFrames s c : Multiset ReceivedFrame) + ↑(ahead s c) =
      ↑(decodedFrames s c) + ↑(onTheWay s c) := by
    intro c
    refine coe_add_drop ?_
    have whole : (s.stream c).completed.map Subtype.val <+:
        ((s.stream c).completed ++ s.sending c).map Subtype.val := by
      rw [List.map_append]
      exact List.prefix_append _ _
    have step := List.prefix_or_prefix_of_prefix whole (exact c).decoded
    refine (step.imp (·.map DecodedSioFrame.received) (·.map DecodedSioFrame.received)).imp ?_ ?_
    all_goals
      rw [List.map_map]
      exact id
  have both : ∀ f g : Core → List ReceivedFrame, bothCores f + bothCores g =
      ((f .core0 : Multiset ReceivedFrame) + ↑(g .core0)) + (↑(f .core1) + ↑(g .core1)) := by
    intro f g
    rw [bothCores, bothCores]
    abel
  rw [both, both, core, core]

/-- **The balance of a framed run.** -/
theorem delivery_balance {as : List SioAction} (h : SioInv s)
    (balance : stashed SioState.init.st + bothCores (completedFrames .init) +
        ↑((sioMachine depth).collect (okSends depth) .init as) + bothCores (decodedFrames s) =
      ↑((sioMachine depth).collect outgoings .init as) +
        (stashed s.st + bothCores (completedFrames s)) + bothCores (decodedFrames .init)) :
    ((sioMachine depth).collect (okSends depth) .init as : Multiset ReceivedFrame) +
        bothCores (ahead s) =
      (↑((sioMachine depth).collect selfSends .init as) +
          ↑((sioMachine depth).collect discarded .init as)) +
        (↑(((sioMachine depth).collect handed .init as).map Prod.snd) + stashed s.st +
          bothCores (onTheWay s)) := by
  have stash : stashed SioState.init.st = 0 := rfl
  have completed : bothCores (completedFrames .init) = 0 := rfl
  have decoded : bothCores (decodedFrames .init) = 0 := rfl
  have outs : ((sioMachine depth).collect outgoings .init as : Multiset ReceivedFrame) =
      ↑((sioMachine depth).collect selfSends .init as) +
        ↑(((sioMachine depth).collect handed .init as).map Prod.snd) +
          ↑((sioMachine depth).collect discarded .init as) := by
    rw [← Machine.collect_map, ← Machine.coe_collect_append, ← Machine.coe_collect_append]
    rfl
  have step := ahead_balance h.exact
  rw [stash, completed, decoded, zero_add, zero_add, add_zero, outs] at balance
  refine add_right_cancel (b := bothCores (decodedFrames s)) ?_
  rw [add_right_comm, balance]
  calc _ = ↑((sioMachine depth).collect selfSends .init as) +
          ↑(((sioMachine depth).collect handed .init as).map Prod.snd) +
          ↑((sioMachine depth).collect discarded .init as) + stashed s.st +
          (bothCores (completedFrames s) + bothCores (ahead s)) := by abel
    _ = _ := by
      rw [step]
      abel

/-- **Every frame once.**  In a run in which each core's words are pushed frame by frame, every send
answered `Ok` is handed out once or waits to be, and no `poll_recv` discards a frame, exactly when
nothing is sent to its own role and no frame is decoded while another waits in its slot. -/
theorem sio_delivery_iff (depth : ℕ) (as : List SioAction) (s : SioState)
    (hrun : (sioMachine depth).exec .init as = some s)
    (hframed : (sioMachine depth).Along (Framed depth) .init as) :
    SioDelivers depth as s ↔ (sioMachine depth).Along Kept .init as := by
  have inv := Machine.exec_invariant sioInv_step sioInv_init hframed hrun
  have balance := delivery_balance inv
    (@Machine.exec_balance _ _ _ (sioMachine depth) SioInv (Framed depth)
      (fun s => stashed s.st + bothCores (completedFrames s)) (fun s => bothCores (decodedFrames s))
      (okSends depth) outgoings sioInv_step
      (fun s a t h _ step => delivery_step h.tx h.placed step) _ _ _ sioInv_init hframed hrun)
  have kept : (sioMachine depth).Along Kept .init as ↔
      (sioMachine depth).collect selfSends .init as = [] ∧
        (sioMachine depth).collect discarded .init as = [] := by
    rw [Machine.collect_eq_nil_iff hrun, Machine.collect_eq_nil_iff hrun]
    constructor
    · intro along
      exact ⟨along.mono fun s a h => ((kept_iff s a).mp h).1,
        along.mono fun s a h => ((kept_iff s a).mp h).2⟩
    · rintro ⟨own, lost⟩
      exact (own.and lost).mono fun s a h => (kept_iff s a).mpr h
  rw [kept]
  constructor
  · intro delivers
    have none := right_eq_add.mp (delivers.once.symm.trans balance)
    rw [Multiset.coe_add, Multiset.coe_eq_zero] at none
    exact List.append_eq_nil_iff.mp none
  · rintro ⟨own, lost⟩
    rw [own, lost, Multiset.coe_nil, zero_add, zero_add] at balance
    refine ⟨balance, ?_, lost, fun rx slot f full => ?_, fun c => ⟨inv.exact c, inv.completed c⟩⟩
    · exact Machine.forall_mem_collect sioInv_step (fun s a h => handed_fits s a h.placed)
        sioInv_init hframed hrun
    · refine ⟨(inv.placed _ _ _ full).2, fun role lane free => ?_⟩
      refine pollRecv_of_stashed inv.placed full (not_or.mpr ?_) free
      exact ⟨not_not.mpr role, not_not.mpr lane⟩

instance (s : SioState) : ∀ a, Decidable (Kept s a)
  | .pollSend port o =>
      inferInstanceAs (Decidable (∀ tx ∈ s.txs[port]?, tx.localRole ≠ o.targetRole))
  | .turn core _ =>
      match h : s.busy core with
      | some (.recv port _) =>
          decidable_of_iff (∀ rx ∈ s.rxs[port]?, ∀ f ∈ taken s.st rx, Misfits rx f →
            ¬ Clashes s.st rx.coreId f) (by rw [Kept, h])
      | some (.send _ _) => isTrue (by rw [Kept, h]; trivial)
      | none => isTrue (by rw [Kept, h]; trivial)
  | .open _ _ _ _ | .cancelSend _ | .pollRecv _ | .requeue _ => isTrue trivial

/-! ### Three ports -/

/-- Role 1 sends a frame of five words to role 2, and role 0 polls on role 2's core until it has
taken them, `n` turns after the last. -/
def toAnother (n : ℕ) : List SioAction :=
  let o : Outgoing := { targetRole := 2, frameLabel := 5, lane := 1, payload := [7] }
  [.pollSend 2 o] ++ List.replicate 5 (.turn .core1 false) ++ [.pollRecv 0] ++
    List.replicate 5 (.turn .core0 false) ++ [.pollSend 2 o] ++
    List.replicate 2 (.turn .core1 false) ++ [.pollRecv 0] ++ List.replicate n (.turn .core0 false)

/-- A frame for role 2 that role 0 stashes and role 2 is handed, and one from role 0 to role 2. -/
def threeWays : List SioAction :=
  threePorts ++ toAnother 2 ++ [.pollRecv 1] ++
    [.pollSend 0 { targetRole := 2, frameLabel := 6, lane := 1, payload := [] }, .pollRecv 1]

theorem sio_delivery_iff_threeWays : ∃ s, (sioMachine 4).exec .init threeWays = some s ∧
    ((sioMachine 4).collect handed .init threeWays).map (fun out => out.2.header.frameLabel) =
      [5, 6] ∧ SioDelivers 4 threeWays s := by
  have run : ((sioMachine 4).exec .init threeWays).isSome = true := by decide +kernel
  obtain ⟨s, h⟩ := Option.isSome_iff_exists.mp run
  exact ⟨s, h, by decide +kernel,
    (sio_delivery_iff 4 threeWays s h (by decide +kernel)).mpr (by decide +kernel)⟩

/-- **A frame discarded.**  Two frames for role 2 arrive back to back as role 0 polls: the second is
taken out of the FIFO, and `poll_recv` answers `Capacity`. -/
theorem sio_discards_second : ¬ ∀ as s, (sioMachine 4).exec .init as = some s →
    (sioMachine 4).Along (Framed 4) .init as → SioDelivers 4 as s := by
  intro H
  let as := threePorts ++ toAnother 2 ++ toAnother 1
  have run : ((sioMachine 4).exec .init as).isSome = true := by decide +kernel
  obtain ⟨s, h⟩ := Option.isSome_iff_exists.mp run
  have kept := (H as s h (by decide +kernel)).kept
  exact absurd kept (by decide +kernel)

end HibanaPico.Rp2w
