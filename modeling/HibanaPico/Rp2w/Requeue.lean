import HibanaPico.Rp2w.Delivery
import HibanaPico.Sio.Hand

/-!
# Rp2w — Requeue

The calls on the ports of the RP2350 carrier, as the law of the frame in hand sees them: the frame a
part of a `poll_recv` takes is the one that leaves its stash slot, or that the next word of the FIFO
completes.

* `rxEvents`: what is seen of a step, at a port.
* `part_recvStash`, `part_recvPart`: the parts of a `poll_recv`.
* `RxInv`: a port in the loop of `poll_recv` has nothing in hand.
* `reads_rxEvents`: in every run, every port obeys the law.
-/

namespace HibanaPico.Rp2w
open HibanaPico.Support
open HibanaPico.Transport
open HibanaPico.Sio

/-- The frame that left its stash slot. -/
def takenFromStash (before after : SioStatics) (core : Core) : Option DecodedSioFrame :=
  (Slots.vanished (List.finRange 16) (before.stash core) (after.stash core)).head?.map Prod.snd

/-- What is seen of a `poll_recv`, up to its loop. -/
def pollEvent (rx : SioRx) (before after : SioStatics) (phase : RecvPhase) : RxEvent SioStatics :=
  .poll rx before after (takenFromStash before after rx.coreId) phase

/-- What is seen of a turn of the loop. -/
def turnEvent (rx : SioRx) (before after : SioStatics) (phase : RecvPhase) : RxEvent SioStatics :=
  .poll rx before after (taken before rx) phase

/-- What is seen of a step, at a port. -/
def rxEvents (port : ℕ) (s : SioState) : SioAction → List (RxEvent SioStatics)
  | .pollRecv p =>
      if p = port then
        s.rxs[port]?.toList.map fun rx =>
          pollEvent rx s.st (pollRecv s.st rx).1 (pollRecv s.st rx).2.2
      else []
  | .turn core timerReady =>
      match s.busy core with
      | some (.recv p awaiting) =>
          if p = port then
            s.rxs[port]?.toList.map fun rx =>
              turnEvent rx s.st (recvPart s.st rx awaiting timerReady).1
                (recvPart s.st rx awaiting timerReady).2.2
          else []
      | _ => []
  | .requeue p =>
      if p = port then s.rxs[port]?.toList.map fun rx => .requeue rx (requeue rx) else []
  | _ => []

/-- What a port has in hand. -/
def SioState.hand (s : SioState) (port : ℕ) : Hand := s.rxs[port]?.bind SioRx.hand

/-! ### The parts of a poll -/

variable {st : SioStatics}

theorem part_recvTaken (rx : SioRx) (f : DecodedSioFrame) :
    Part rx (some f) (recvTaken st rx f).2.1 (recvTaken st rx f).2.2 := by
  unfold recvTaken
  split
  · split <;> exact .quiet trivial
  · rename_i htargets
    exact .handed rfl (not_not.mp (not_or.mp htargets).2)

theorem part_recvWord {st' : SioStatics} {rx : SioRx} {word : U32} {rest : List U32}
    (hfifo : st.fifo rx.coreId.peer = word :: rest) (haccum : st'.accum = st.accum) :
    Part rx (taken st rx) (recvWord st' rx word).2.1 (recvWord st' rx word).2.2 := by
  rw [taken, hfifo, recvWord, haccum]
  dsimp only
  cases ((st.accum rx.coreId).pushWord word).2 with
  | error e => exact .quiet trivial
  | ok answer =>
      cases answer with
      | none => exact .quiet trivial
      | some f => exact part_recvTaken rx f

/-- A turn of the loop. -/
theorem part_recvPart (st : SioStatics) (rx : SioRx) (awaiting timerReady : Bool) :
    Part rx (taken st rx) (recvPart st rx awaiting timerReady).2.1
      (recvPart st rx awaiting timerReady).2.2 := by
  rw [recvPart, recvAwait, recvTurn]
  obtain ⟨-, hnone⟩ | ⟨word, rest, st', hfifo, hsome, -, haccum, -⟩ := tryPop_cases st rx.coreId
  · rw [hnone]
    dsimp only
    split <;> split <;> exact .quiet trivial
  · rw [hsome]
    dsimp only
    split <;> exact part_recvWord hfifo haccum

theorem part_recvStash (st : SioStatics) (rx : SioRx) :
    Part rx (takenFromStash st (recvStash st rx).1 rx.coreId) (recvStash st rx).2.1
      (recvStash st rx).2.2 := by
  unfold recvStash SioStatics.takeStashedFrame
  by_cases hrole : rx.localRole.toNat < 16
  · rw [dif_pos hrole]
    cases hslot : st.stash rx.coreId ⟨rx.localRole.toNat, hrole⟩ with
    | none => exact .quiet trivial
    | some f =>
        dsimp only [Option.map_some]
        split
        · split <;> exact .quiet trivial
        · rename_i hlane
          refine .handed ?_ (not_not.mp hlane)
          rw [takenFromStash]
          dsimp only
          rw [Function.update_self,
            Slots.vanished_clear (List.nodup_finRange 16) (List.mem_finRange _) hslot]
          rfl
  · rw [dif_neg hrole]
    exact .quiet trivial

/-- **`poll_recv`, up to its loop**, obeys the law. -/
theorem handStep_pollRecv (st : SioStatics) {rx : SioRx} (h : rx.Settled) :
    HandStep rx.hand (pollEvent rx st (pollRecv st rx).1 (pollRecv st rx).2.2)
        (pollRecv st rx).2.1.hand ∧
      (pollRecv st rx).2.1.Settled ∧
      ((∀ answer, (pollRecv st rx).2.2 ≠ .answer answer) → (pollRecv st rx).2.1.Empty) := by
  have hstash : ∀ (_ : rx.frameLabel = none ∨ ¬ (rx.requeued || !rx.delivered) = true),
      HandStep rx.hand (pollEvent rx st (recvStash st (forgetDelivered rx)).1
          (recvStash st (forgetDelivered rx)).2.2) (recvStash st (forgetDelivered rx)).2.1.hand ∧
        (recvStash st (forgetDelivered rx)).2.1.Settled ∧
        ((∀ answer, (recvStash st (forgetDelivered rx)).2.2 ≠ .answer answer) →
          (recvStash st (forgetDelivered rx)).2.1.Empty) := by
    intro hfree
    obtain ⟨free, empty, role, lane⟩ := empty_forgetDelivered h hfree
    have part := part_recvStash st (forgetDelivered rx)
    rw [coreId_forgetDelivered] at part
    obtain ⟨hstep, hsettled⟩ := handStep_part _ _ free empty role lane part
    exact ⟨hstep, hsettled, part.empty empty⟩
  unfold pollRecv
  split
  · rename_i label hlabel
    split
    · rename_i hagain
      obtain ⟨hstep, hsettled⟩ := handStep_again st rx hlabel hagain
      refine ⟨?_, hsettled, fun hne => absurd rfl (hne _)⟩
      rw [pollEvent, takenFromStash, Slots.vanished_self]
      exact hstep
    · rename_i hfree
      exact hstash (.inr hfree)
  · rename_i hlabel
    exact hstash (.inl hlabel)

/-! ### Runs -/

/-- A port in the loop of `poll_recv` is polled on its own core, and has nothing in hand. -/
structure RxInv (s : SioState) : Prop where
  settled : ∀ (port : ℕ) (rx : SioRx), s.rxs[port]? = some rx → rx.Settled
  looping : ∀ core port awaiting, s.busy core = some (.recv port awaiting) →
    ∃ rx, s.rxs[port]? = some rx ∧ rx.coreId = core ∧ rx.Empty

theorem rxInv_init : RxInv .init where
  settled _ _ h := by cases h
  looping _ _ _ h := by cases h

variable {depth : ℕ} {s t : SioState}

/-- A step of a send. -/
theorem RxInv.congr (h : RxInv s) (hrxs : t.rxs = s.rxs)
    (hbusy : ∀ core port awaiting, t.busy core = some (.recv port awaiting) →
      s.busy core = some (.recv port awaiting)) : RxInv t where
  settled port rx hrx := h.settled port rx (hrxs ▸ hrx)
  looping core port awaiting hloop := by
    rw [hrxs]
    exact h.looping core port awaiting (hbusy core port awaiting hloop)

/-- A core that sends is not in the loop of a `poll_recv`. -/
theorem recv_of_update {core core' : Core} {call : Option Call}
    (hcall : ∀ port awaiting, call ≠ some (.recv port awaiting)) {port : ℕ} {awaiting : Bool}
    (h : Function.update s.busy core call core' = some (.recv port awaiting)) :
    s.busy core' = some (.recv port awaiting) := by
  by_cases hc : core' = core
  · subst hc
    rw [Function.update_self] at h
    exact absurd h (hcall port awaiting)
  · rwa [Function.update_of_ne hc] at h

/-- The Rx of one port, set. -/
theorem getElem?_set_rx {rx rx' : SioRx} {p : ℕ} (hrx : s.rxs[p]? = some rx) (port : ℕ) :
    (s.rxs.set p rx')[port]? = if port = p then some rx' else s.rxs[port]? := by
  rw [List.getElem?_set]
  have hlt := (List.getElem?_eq_some_iff.mp hrx).1
  by_cases hp : port = p
  · subst hp
    rw [if_pos rfl, if_pos rfl, if_pos hlt]
  · rw [if_neg (Ne.symm hp), if_neg hp]

/-- The hand of one port set, and of the others. -/
theorem hand_set {rx rx' : SioRx} {p : ℕ} (hrx : s.rxs[p]? = some rx)
    (hrxs : t.rxs = s.rxs.set p rx') (port : ℕ) :
    t.hand port = if port = p then rx'.hand else s.hand port := by
  rw [SioState.hand, hrxs, getElem?_set_rx hrx]
  split <;> rfl

/-- A part of a `poll_recv` on the port's core. -/
theorem RxInv.received (h : RxInv s) {p : ℕ} {rx rx' : SioRx} {st : SioStatics}
    {phase : RecvPhase} (hrx : s.rxs[p]? = some rx) (core : rx'.coreId = rx.coreId)
    (settled : rx'.Settled) (empty : (∀ answer, phase ≠ .answer answer) → rx'.Empty)
    (away : ∀ core port awaiting, s.busy core = some (.recv port awaiting) → core ≠ rx.coreId →
      port ≠ p) : RxInv (s.received p st rx' phase) where
  settled port rx₁ hrx₁ := by
    change (s.rxs.set p rx')[port]? = some rx₁ at hrx₁
    rw [getElem?_set_rx hrx] at hrx₁
    split at hrx₁
    · exact Option.some.inj hrx₁ ▸ settled
    · exact h.settled port rx₁ hrx₁
  looping core' port awaiting hloop := by
    change ∃ rx₁, (s.rxs.set p rx')[port]? = some rx₁ ∧ rx₁.coreId = core' ∧ rx₁.Empty
    unfold SioState.received at hloop
    dsimp only at hloop
    by_cases hc : core' = rx'.coreId
    · -- the core that polls goes on only with nothing in hand
      subst hc
      rw [Function.update_self] at hloop
      have hgoes : port = p ∧ ∀ answer, phase ≠ .answer answer := by
        cases phase with
        | answer _ => cases hloop
        | scan =>
            cases hloop
            exact ⟨rfl, fun _ h => by cases h⟩
        | await =>
            cases hloop
            exact ⟨rfl, fun _ h => by cases h⟩
      rw [getElem?_set_rx hrx, if_pos hgoes.1]
      exact ⟨rx', rfl, rfl, empty hgoes.2⟩
    · rw [Function.update_of_ne hc] at hloop
      have hp := away core' port awaiting hloop (core ▸ hc)
      rw [getElem?_set_rx hrx, if_neg hp]
      exact h.looping core' port awaiting hloop

/-- An Rx requeued while its core is between calls. -/
theorem RxInv.requeued (h : RxInv s) {p : ℕ} {rx : SioRx} (hrx : s.rxs[p]? = some rx)
    (hidle : s.busy rx.coreId = none) : RxInv { s with rxs := s.rxs.set p (requeue rx) } where
  settled port rx₁ hrx₁ := by
    dsimp only at hrx₁
    rw [getElem?_set_rx hrx] at hrx₁
    split at hrx₁
    · exact Option.some.inj hrx₁ ▸ (handStep_requeue (σ := SioStatics) (h.settled p rx hrx)).2
    · exact h.settled port rx₁ hrx₁
  looping core port awaiting hloop := by
    obtain ⟨rx₀, hrx₀, hcore, empty⟩ := h.looping core port awaiting hloop
    have hp : port ≠ p := by
      rintro rfl
      obtain rfl : rx = rx₀ := Option.some.inj (hrx.symm.trans hrx₀)
      rw [hcore, show s.busy core = some (.recv port awaiting) from hloop] at hidle
      cases hidle
    refine ⟨rx₀, ?_, hcore, empty⟩
    dsimp only
    rw [getElem?_set_rx hrx, if_neg hp, hrx₀]

/-- A port opened has nothing in hand. -/
theorem reads_opened (h : RxInv s) {rx : SioRx} (hrxs : t.rxs = s.rxs ++ [rx])
    (hbusy : t.busy = s.busy) (empty : rx.Empty) (port : ℕ) :
    Machine.Reads (HandStep (σ := SioStatics)) (s.hand port) [] (t.hand port) ∧ RxInv t := by
  refine ⟨?_, fun port rx₁ hrx₁ => ?_, fun core port awaiting hloop => ?_⟩
  · have hsame : t.hand port = s.hand port := by
      rw [SioState.hand, hrxs, SioState.hand]
      rcases Nat.lt_trichotomy port s.rxs.length with hlt | heq | hgt
      · rw [List.getElem?_append_left hlt]
      · rw [heq, List.getElem?_concat_length, List.getElem?_eq_none (Nat.le_refl _)]
        exact empty.hand_eq
      · rw [List.getElem?_eq_none (by rw [List.length_append, List.length_singleton]; omega),
          List.getElem?_eq_none (Nat.le_of_lt hgt)]
    rw [hsame]
    exact .nil _
  · rw [hrxs] at hrx₁
    rcases List.mem_append.mp (List.mem_of_getElem? hrx₁) with hmem | hmem
    · obtain ⟨p, hp⟩ := List.getElem?_of_mem hmem
      exact h.settled p rx₁ hp
    · rw [List.mem_singleton.mp hmem]
      exact empty.settled
  · rw [hbusy] at hloop
    obtain ⟨rx₀, hrx₀, hcore⟩ := h.looping core port awaiting hloop
    refine ⟨rx₀, ?_, hcore⟩
    rw [hrxs, List.getElem?_append_left (List.getElem?_eq_some_iff.mp hrx₀).1, hrx₀]

/-- A part of a `poll_recv` that obeys the law at its port. -/
theorem reads_received (st : SioStatics) (h : RxInv s) {p : ℕ} {rx rx' : SioRx}
    {phase : RecvPhase} {e : RxEvent SioStatics} (hrx : s.rxs[p]? = some rx)
    (core : rx'.coreId = rx.coreId) (step : HandStep rx.hand e rx'.hand) (settled : rx'.Settled)
    (empty : (∀ answer, phase ≠ .answer answer) → rx'.Empty) (port : ℕ) :
    Machine.Reads HandStep (s.hand port) (if p = port then [e] else [])
        ((s.received p st rx' phase).hand port) ∧
      RxInv (s.received p st rx' phase) := by
  refine ⟨?_, h.received hrx core settled empty fun core' p' awaiting hloop hne hp => ?_⟩
  · rw [hand_set (t := s.received p st rx' phase) hrx rfl]
    by_cases hp : port = p
    · subst hp
      rw [if_pos rfl, if_pos rfl, SioState.hand, hrx]
      exact .cons step (.nil _)
    · rw [if_neg hp, if_neg (Ne.symm hp)]
      exact .nil _
  · -- a core in the loop of the port is the port's own
    subst hp
    obtain ⟨rx₀, hrx₀, hcore, -⟩ := h.looping core' p' awaiting hloop
    obtain rfl : rx = rx₀ := Option.some.inj (hrx.symm.trans hrx₀)
    exact hne hcore.symm

/-- A turn of the loop. -/
theorem reads_turn (h : RxInv s) {core : Core} {p : ℕ} {awaiting : Bool} {rx : SioRx}
    (hbusy : s.busy core = some (.recv p awaiting)) (hrx : s.rxs[p]? = some rx)
    (timerReady : Bool) (port : ℕ) :
    Machine.Reads HandStep (s.hand port) (rxEvents port s (.turn core timerReady))
        ((s.received p (recvPart s.st rx awaiting timerReady).1
          (recvPart s.st rx awaiting timerReady).2.1
          (recvPart s.st rx awaiting timerReady).2.2).hand port) ∧
      RxInv (s.received p (recvPart s.st rx awaiting timerReady).1
        (recvPart s.st rx awaiting timerReady).2.1
        (recvPart s.st rx awaiting timerReady).2.2) := by
  obtain ⟨rx₀, hrx₀, -, empty⟩ := h.looping core p awaiting hbusy
  obtain rfl : rx = rx₀ := Option.some.inj (hrx.symm.trans hrx₀)
  have free : rx.hand.Free := fun f hf => by
    rw [empty.hand_eq] at hf
    cases hf
  have part := part_recvPart s.st rx awaiting timerReady
  obtain ⟨step, settled⟩ := handStep_part s.st
    (recvPart s.st rx awaiting timerReady).1 free empty rfl rfl part
  have events : rxEvents port s (.turn core timerReady) =
      if p = port then [turnEvent rx s.st (recvPart s.st rx awaiting timerReady).1
        (recvPart s.st rx awaiting timerReady).2.2] else [] := by
    rw [rxEvents, hbusy]
    exact map_toList_at hrx _
  rw [events]
  exact reads_received (recvPart s.st rx awaiting timerReady).1 h hrx
    (coreId_recvPart s.st rx awaiting timerReady) step settled (part.empty empty) port

/-- A requeue, between calls. -/
theorem reads_requeued (h : RxInv s) {p : ℕ} {rx : SioRx} (hrx : s.rxs[p]? = some rx)
    (hidle : s.busy rx.coreId = none) (port : ℕ) :
    Machine.Reads HandStep (s.hand port) (rxEvents port s (.requeue p))
        (SioState.hand { s with rxs := s.rxs.set p (requeue rx) } port) ∧
      RxInv { s with rxs := s.rxs.set p (requeue rx) } := by
  obtain ⟨step, settled⟩ := handStep_requeue (σ := SioStatics) (h.settled p rx hrx)
  refine ⟨?_, h.requeued hrx hidle⟩
  rw [hand_set (t := { s with rxs := s.rxs.set p (requeue rx) }) hrx rfl port, rxEvents]
  by_cases hp : port = p
  · subst hp
    rw [if_pos rfl, if_pos rfl, hrx, SioState.hand, hrx]
    exact .cons step (.nil _)
  · rw [if_neg hp, if_neg (Ne.symm hp)]
    exact .nil _

/-- **One step**: what is seen of it at a port is what the law allows. -/
theorem reads_rxEvents_step (h : RxInv s) {a : SioAction}
    (hstep : (sioMachine depth).next s a = some t) (port : ℕ) :
    Machine.Reads HandStep (s.hand port) (rxEvents port s a) (t.hand port) ∧ RxInv t := by
  cases a with
  | «open» core as txSessionXor operationalDeadlineTicks =>
      obtain ⟨-, ht⟩ := Option.ite_none_right_eq_some.mp hstep
      cases ht
      have empty : SioRx.Empty
          (openWithTxSessionXor core as txSessionXor operationalDeadlineTicks).2 := ⟨rfl, rfl⟩
      exact reads_opened (t := { s with txs := _, rxs := _, inflight := _ }) h rfl rfl empty port
  | pollSend p o =>
      obtain ⟨tx, -, ht⟩ := Option.bind_eq_some_iff.mp hstep
      obtain ⟨-, ht⟩ := Option.ite_none_right_eq_some.mp ht
      obtain ⟨⟨st, tx', phase⟩, -, rfl⟩ := Option.map_eq_some_iff.mp ht
      refine ⟨.nil _, h.congr rfl fun core' p' awaiting => recv_of_update fun _ _ => ?_⟩
      split <;> simp
  | cancelSend p =>
      obtain ⟨tx, -, ht⟩ := Option.bind_eq_some_iff.mp hstep
      obtain ⟨-, ht⟩ := Option.ite_none_right_eq_some.mp ht
      cases ht
      exact ⟨.nil _, h.congr rfl fun _ _ _ h => h⟩
  | pollRecv p =>
      obtain ⟨rx, hrx, ht⟩ := Option.bind_eq_some_iff.mp hstep
      obtain ⟨-, ht⟩ := Option.ite_none_right_eq_some.mp ht
      cases ht
      obtain ⟨step, settled, empty⟩ := handStep_pollRecv s.st (h.settled p rx hrx)
      have reads := reads_received (pollRecv s.st rx).1 h hrx
        (recvFlow_pollRecv s.st rx).coreId step settled empty port
      refine ⟨?_, reads.2⟩
      have events : rxEvents port s (.pollRecv p) =
          if p = port then [pollEvent rx s.st (pollRecv s.st rx).1 (pollRecv s.st rx).2.2]
          else [] := by
        rw [rxEvents]
        exact map_toList_at hrx _
      rw [events]
      exact reads.1
  | turn core timerReady =>
      simp only [sioMachine, sioNext] at hstep
      split at hstep
      · cases hstep
      · rename_i p o hbusy
        obtain ⟨tx, -, rfl⟩ := Option.map_eq_some_iff.mp hstep
        refine ⟨?_, h.congr rfl fun core' p' awaiting => recv_of_update fun _ _ => ?_⟩
        · rw [rxEvents, hbusy]
          exact .nil _
        · split <;> simp
      · rename_i p awaiting hbusy
        obtain ⟨rx, hrx, rfl⟩ := Option.map_eq_some_iff.mp hstep
        exact reads_turn h hbusy hrx timerReady port
  | requeue p =>
      obtain ⟨rx, hrx, ht⟩ := Option.bind_eq_some_iff.mp hstep
      obtain ⟨hidle, ht⟩ := Option.ite_none_right_eq_some.mp ht
      cases ht
      exact reads_requeued h hrx hidle port

/-- **The ports of the RP2350 carrier** obey the law of the frame in hand, in every run. -/
theorem reads_rxEvents {as : List SioAction} (h : (sioMachine depth).exec .init as = some t)
    (port : ℕ) :
    Machine.Reads HandStep none ((sioMachine depth).collect (rxEvents port) .init as)
      (t.hand port) :=
  Machine.reads_collect (fun s => s.hand port) (I := RxInv)
    (fun _ _ _ hinv hstep => (reads_rxEvents_step hinv hstep 0).2)
    (fun _ _ _ hinv hstep => (reads_rxEvents_step hinv hstep port).1) rxInv_init h

end HibanaPico.Rp2w
