import HibanaPico.Baker.Steps
import HibanaPico.Sio.Hand
import HibanaPico.Support.Lists

/-!
# Baker — Requeue

The calls on the ports of the RP2040 carrier, as the law of the frame in hand sees them: the frame a
part of a `poll_recv` takes is the one that leaves its mailbox or its stash slot.

* `rxEvents`: what is seen of a step, at a port.
* `part_recvStash`, `part_recvScan`, `part_recvAwait`: the parts of a `poll_recv`.
* `RxInv`: a port in the loop of `poll_recv` has nothing in hand.
* `reads_rxEvents`: in every run, every port obeys the law.
-/

namespace HibanaPico.Baker
open HibanaPico.Support
open HibanaPico.Transport
open HibanaPico.Sio

/-- The frame that left its place. -/
def takenFrom (before after : Frames) : Option DecodedSioFrame :=
  (Slots.vanished Place.all before after).head?.map Prod.snd

theorem takenFrom_self (frames : Frames) : takenFrom frames frames = none := by
  rw [takenFrom, Slots.vanished_self]
  rfl

theorem takenFrom_clear {frames : Frames} {p : Place} {f : DecodedSioFrame}
    (h : frames p = some f) : takenFrom frames (Function.update frames p none) = some f := by
  rw [takenFrom, Slots.vanished_clear Place.nodup_all (Place.mem_all p) h]
  rfl

/-- What is seen of a part of a `poll_recv`. -/
def pollEvent (rx : SioRx) (before after : SioStatics) (phase : RecvPhase) : RxEvent Frames :=
  .poll rx before.frames after.frames (takenFrom before.frames after.frames) phase

/-- What is seen of a step, at a port. -/
def rxEvents (port : ℕ) (s : SioState) : SioAction → List (RxEvent Frames)
  | .pollRecv core p =>
      if p = port then
        (s.rxs port).toList.flatMap fun rx =>
          (pollRecv s.st core rx).toList.map fun r => pollEvent rx s.st r.1 r.2.2
      else []
  | .recvTurn core timerReady =>
      match s.busy core with
      | some (p, awaiting) =>
          if p = port then
            (s.rxs port).toList.map fun rx =>
              let r := if awaiting then recvAwait s.st rx timerReady else recvScan s.st rx
              pollEvent rx s.st r.1 r.2.2
          else []
      | none => []
  | .requeue _ p =>
      if p = port then (s.rxs port).toList.map fun rx => .requeue rx (requeue rx) else []
  | _ => []

/-- What a port has in hand. -/
def SioState.hand (s : SioState) (port : ℕ) : Hand := (s.rxs port).bind SioRx.hand

/-! ### The parts of a poll -/

variable {st : SioStatics}

theorem part_recvTaken {p : Place} {f : DecodedSioFrame} (hslot : st.frames p = some f)
    (rx : SioRx) {st₀ : SioStatics} (hst : st₀.frames = Function.update st.frames p none) :
    Part rx (takenFrom st.frames (recvTaken st₀ rx f).1.frames) (recvTaken st₀ rx f).2.1
      (recvTaken st₀ rx f).2.2 := by
  unfold recvTaken
  split
  · split <;> exact .quiet trivial
  · rename_i htargets
    refine .handed ?_ (not_not.mp (not_or.mp htargets).2)
    rw [hst, takenFrom_clear hslot]

/-- `take_mailbox_frame`, as it leaves the places. -/
theorem takeMailboxFrame_frames (st : SioStatics) (core : Core) :
    st.takeMailboxFrame core = (st, .ok none) ∨
    (∃ st₀ e, st.takeMailboxFrame core = (st₀, .error e)) ∨
    ∃ p f st₀, st.frames p = some f ∧ st₀.frames = Function.update st.frames p none ∧
      st.takeMailboxFrame core = (st₀, .ok (some f)) := by
  unfold SioStatics.takeMailboxFrame
  cases hslot : st.frames (.outbound core.peer) with
  | none => exact .inl rfl
  | some f =>
      dsimp only
      split
      · exact .inr (.inl ⟨_, _, rfl⟩)
      · exact .inr (.inr ⟨_, f, _, hslot, rfl, rfl⟩)

theorem part_recvScan (rx : SioRx) :
    Part rx (takenFrom st.frames (recvScan st rx).1.frames) (recvScan st rx).2.1
      (recvScan st rx).2.2 := by
  unfold recvScan
  rcases takeMailboxFrame_frames st rx.coreId with
    htake | ⟨st₀, e, htake⟩ | ⟨p, f, st₀, hslot, hst, htake⟩
  · rw [htake]
    dsimp only
    split <;> exact .quiet trivial
  · rw [htake]
    exact .quiet trivial
  · rw [htake]
    exact part_recvTaken hslot rx hst

theorem part_recvAwait (rx : SioRx) (timerReady : Bool) :
    Part rx (takenFrom st.frames (recvAwait st rx timerReady).1.frames)
      (recvAwait st rx timerReady).2.1 (recvAwait st rx timerReady).2.2 := by
  unfold recvAwait
  rcases takeMailboxFrame_frames st rx.coreId with
    htake | ⟨st₀, e, htake⟩ | ⟨p, f, st₀, hslot, hst, htake⟩
  · rw [htake]
    dsimp only
    split <;> exact .quiet trivial
  · rw [htake]
    exact .quiet trivial
  · rw [htake]
    exact part_recvTaken hslot rx hst

theorem part_recvStash (st : SioStatics) (rx : SioRx) :
    Part rx (takenFrom st.frames (recvStash st rx).1.frames) (recvStash st rx).2.1
      (recvStash st rx).2.2 := by
  unfold recvStash SioStatics.takeStashedFrame
  cases bakerRoleStashIndex rx.localRole with
  | none => exact .quiet trivial
  | some index =>
      dsimp only
      cases hslot : st.frames (.stash rx.coreId index) with
      | none => exact .quiet trivial
      | some f =>
          dsimp only [Option.map_some]
          split
          · split <;> exact .quiet trivial
          · rename_i hlane
            refine .handed ?_ (not_not.mp hlane)
            rw [takenFrom_clear hslot]

/-- **`poll_recv`, up to its loop**, obeys the law. -/
theorem handStep_recvAttached (st : SioStatics) (rx rx₀ : SioRx) (h : rx.Settled)
    (role : rx.localRole = rx₀.localRole) (lane : rx.lane = rx₀.lane) :
    HandStep rx.hand (pollEvent rx₀ st (recvAttached st rx).1 (recvAttached st rx).2.2)
        (recvAttached st rx).2.1.hand ∧
      (recvAttached st rx).2.1.Settled ∧
      ((∀ answer, (recvAttached st rx).2.2 ≠ .answer answer) → (recvAttached st rx).2.1.Empty) := by
  have hstash : ∀ (_ : rx.frameLabel = none ∨ ¬ (rx.requeued || !rx.delivered) = true),
      HandStep rx.hand (pollEvent rx₀ st (recvStash st (forgetDelivered rx)).1
          (recvStash st (forgetDelivered rx)).2.2) (recvStash st (forgetDelivered rx)).2.1.hand ∧
        (recvStash st (forgetDelivered rx)).2.1.Settled ∧
        ((∀ answer, (recvStash st (forgetDelivered rx)).2.2 ≠ .answer answer) →
          (recvStash st (forgetDelivered rx)).2.1.Empty) := by
    intro hfree
    obtain ⟨free, empty, hrole, hlane⟩ := empty_forgetDelivered h hfree
    have part := part_recvStash st (forgetDelivered rx)
    obtain ⟨hstep, hsettled⟩ :=
      handStep_part _ _ free empty (hrole.trans role) (hlane.trans lane) part
    exact ⟨hstep, hsettled, part.empty empty⟩
  unfold recvAttached
  split
  · rename_i label hlabel
    split
    · rename_i hagain
      obtain ⟨hstep, hsettled⟩ := handStep_again st.frames rx₀ hlabel hagain
      refine ⟨?_, hsettled, fun hne => absurd rfl (hne _)⟩
      rw [pollEvent, takenFrom_self]
      exact hstep
    · rename_i hfree
      exact hstash (.inr hfree)
  · rename_i hlabel
    exact hstash (.inl hlabel)

/-! ### Runs -/

/-- A port in the loop of `poll_recv` has nothing in hand, and is in that of one core only. -/
structure RxInv (s : SioState) : Prop where
  settled : ∀ port rx, s.rxs port = some rx → rx.Settled
  looping : ∀ core port awaiting, s.busy core = some (port, awaiting) →
    (∃ rx, s.rxs port = some rx ∧ rx.Empty) ∧ (s.busy core.peer).map Prod.fst ≠ some port

theorem rxInv_init : RxInv .init where
  settled _ _ h := by cases h
  looping _ _ _ h := by cases h

variable {s t : SioState}

/-- A step that changes no port's Rx, and no core's place. -/
theorem RxInv.congr (h : RxInv s) (hrxs : t.rxs = s.rxs) (hbusy : t.busy = s.busy) : RxInv t where
  settled port rx hrx := h.settled port rx (hrxs ▸ hrx)
  looping core port awaiting hloop := by
    rw [hbusy] at hloop ⊢
    rw [hrxs]
    exact h.looping core port awaiting hloop

/-- One port's Rx is set, by a core that no other core's loop concerns. -/
theorem RxInv.set (h : RxInv s) {port : ℕ} {rx' : SioRx} (settled : rx'.Settled)
    (hrxs : t.rxs = Function.update s.rxs port (some rx')) (hbusy : t.busy = s.busy)
    (away : ∀ core, (s.busy core).map Prod.fst ≠ some port) : RxInv t where
  settled port' rx hrx := by
    rw [hrxs] at hrx
    by_cases hp : port' = port
    · subst hp
      rw [Function.update_self] at hrx
      exact Option.some.inj hrx ▸ settled
    · rw [Function.update_of_ne hp] at hrx
      exact h.settled port' rx hrx
  looping core port' awaiting hloop := by
    rw [hbusy] at hloop ⊢
    have hp : port' ≠ port := by
      rintro rfl
      exact away core (by rw [hloop]; rfl)
    rw [hrxs, Function.update_of_ne hp]
    exact h.looping core port' awaiting hloop

/-- A core has done a part of a `poll_recv` of a port that the other core is not in. -/
theorem RxInv.received (h : RxInv s) {core : Core} {port : ℕ} {st : SioStatics} {rx' : SioRx}
    {phase : RecvPhase} (settled : rx'.Settled)
    (empty : (∀ answer, phase ≠ .answer answer) → rx'.Empty)
    (away : (s.busy core.peer).map Prod.fst ≠ some port) :
    RxInv (s.received core port st rx' phase) where
  settled port' rx hrx := by
    unfold SioState.received at hrx
    dsimp only at hrx
    by_cases hp : port' = port
    · subst hp
      rw [Function.update_self] at hrx
      exact Option.some.inj hrx ▸ settled
    · rw [Function.update_of_ne hp] at hrx
      exact h.settled port' rx hrx
  looping core' port' awaiting hloop := by
    unfold SioState.received at hloop ⊢
    dsimp only at hloop ⊢
    by_cases hc : core' = core
    · -- the core that polls: it goes on only with nothing in hand
      subst hc
      rw [Function.update_self] at hloop
      rw [Function.update_of_ne core'.peer_ne]
      cases phase with
      | answer _ => cases hloop
      | scan =>
          cases hloop
          exact ⟨⟨rx', Function.update_self _ _ _, empty fun _ h => by cases h⟩, away⟩
      | await =>
          cases hloop
          exact ⟨⟨rx', Function.update_self _ _ _, empty fun _ h => by cases h⟩, away⟩
    · -- the other core is in the loop of another port
      obtain rfl := Core.eq_peer_of_ne hc
      rw [Function.update_of_ne core.peer_ne] at hloop
      have hp : port' ≠ port := by
        rintro rfl
        exact away (by rw [hloop]; rfl)
      obtain ⟨hrx, -⟩ := h.looping _ _ _ hloop
      rw [Function.update_of_ne hp, Core.peer_peer, Function.update_self]
      refine ⟨hrx, fun hsame => hp ?_⟩
      cases phase with
      | answer _ => cases hsame
      | scan => exact (Option.some.inj hsame).symm
      | await => exact (Option.some.inj hsame).symm

/-- The port of a part of a `poll_recv`, and the others. -/
theorem hand_received {core : Core} {port : ℕ} {st : SioStatics} {rx' : SioRx} {phase : RecvPhase}
    (port' : ℕ) : (s.received core port st rx' phase).hand port' =
      if port' = port then rx'.hand else s.hand port' := by
  unfold SioState.hand SioState.received
  dsimp only
  split
  · rename_i hp
    subst hp
    rw [Function.update_self]
    rfl
  · rename_i hp
    rw [Function.update_of_ne hp]

/-- The hand of one port set, and of the others. -/
theorem hand_set {port : ℕ} {rx' : SioRx}
    (hrxs : t.rxs = Function.update s.rxs port (some rx')) (port' : ℕ) :
    t.hand port' = if port' = port then rx'.hand else s.hand port' := by
  unfold SioState.hand
  rw [hrxs]
  split
  · rename_i hp
    subst hp
    rw [Function.update_self]
    rfl
  · rename_i hp
    rw [Function.update_of_ne hp]

/-- A port opened has nothing in hand. -/
theorem reads_opened (h : RxInv s) {p : ℕ} {rx' : SioRx} (hnone : (s.rxs p).isNone)
    (empty : rx'.Empty) (hrxs : t.rxs = Function.update s.rxs p (some rx'))
    (hbusy : t.busy = s.busy) (port : ℕ) :
    Machine.Reads (HandStep (σ := Frames)) (s.hand port) [] (t.hand port) ∧ RxInv t := by
  rw [Option.isNone_iff_eq_none] at hnone
  refine ⟨?_, h.set empty.settled hrxs hbusy fun core hcore => ?_⟩
  · rw [hand_set hrxs]
    split
    · rename_i hp
      subst hp
      rw [empty.hand_eq, SioState.hand, hnone]
      exact .nil _
    · exact .nil _
  · -- no core is in the loop of a port that is not there
    obtain ⟨⟨p', awaiting⟩, hloop, hp⟩ := Option.map_eq_some_iff.mp hcore
    obtain rfl : p' = p := hp
    obtain ⟨⟨rx, hrx, -⟩, -⟩ := h.looping core p' awaiting hloop
    rw [hnone] at hrx
    cases hrx

/-- A part of a `poll_recv` that obeys the law at its port. -/
theorem reads_received (h : RxInv s) {core : Core} {p : ℕ} {rx rx' : SioRx} {st : SioStatics}
    {phase : RecvPhase} (hrx : s.rxs p = some rx)
    (away : (s.busy core.peer).map Prod.fst ≠ some p)
    (step : HandStep rx.hand (pollEvent rx s.st st phase) rx'.hand) (settled : rx'.Settled)
    (empty : (∀ answer, phase ≠ .answer answer) → rx'.Empty) (port : ℕ) :
    Machine.Reads HandStep (s.hand port)
        (if p = port then [pollEvent rx s.st st phase] else [])
        ((s.received core p st rx' phase).hand port) ∧
      RxInv (s.received core p st rx' phase) := by
  refine ⟨?_, h.received settled empty away⟩
  rw [hand_received]
  by_cases hp : port = p
  · subst hp
    rw [if_pos rfl, if_pos rfl, SioState.hand, hrx]
    exact .cons step (.nil _)
  · rw [if_neg hp, if_neg (Ne.symm hp)]
    exact .nil _

/-- A turn of the loop. -/
theorem reads_turn (h : RxInv s) {core : Core} {p : ℕ} {awaiting : Bool} {rx rx' : SioRx}
    {st : SioStatics} {phase : RecvPhase} (hbusy : s.busy core = some (p, awaiting))
    (hrx : s.rxs p = some rx) (part : Part rx (takenFrom s.st.frames st.frames) rx' phase)
    (port : ℕ) :
    Machine.Reads HandStep (s.hand port)
        (if p = port then [pollEvent rx s.st st phase] else [])
        ((s.received core p st rx' phase).hand port) ∧
      RxInv (s.received core p st rx' phase) := by
  obtain ⟨⟨rx₀, hrx₀, empty⟩, away⟩ := h.looping core p awaiting hbusy
  obtain rfl : rx = rx₀ := Option.some.inj (hrx.symm.trans hrx₀)
  have free : rx.hand.Free := fun f hf => by
    rw [empty.hand_eq] at hf
    cases hf
  obtain ⟨step, settled⟩ := handStep_part _ _ free empty rfl rfl part
  exact reads_received h hrx away step settled (part.empty empty) port

/-- A requeue, between calls. -/
theorem reads_requeued (h : RxInv s) {core : Core} {p : ℕ} {rx : SioRx}
    (howns : s.Owns core p) (hrx : s.rxs p = some rx) (port : ℕ) :
    Machine.Reads HandStep (s.hand port) (rxEvents port s (.requeue core p))
        ((s.requeued p (requeue rx)).hand port) ∧
      RxInv (s.requeued p (requeue rx)) := by
  obtain ⟨step, settled⟩ := handStep_requeue (σ := Frames) (h.settled p rx hrx)
  have away : ∀ core', (s.busy core').map Prod.fst ≠ some p := by
    intro core'
    by_cases hc : core' = core
    · subst hc
      rw [show s.busy core' = none from howns.1]
      intro hsome
      cases hsome
    · rw [Core.eq_peer_of_ne hc]
      exact howns.2
  refine ⟨?_, h.set settled rfl rfl away⟩
  rw [hand_set (s := s) (t := s.requeued p (requeue rx)) rfl port, rxEvents]
  by_cases hp : port = p
  · subst hp
    rw [if_pos rfl, if_pos rfl, hrx, SioState.hand, hrx]
    exact .cons step (.nil _)
  · rw [if_neg hp, if_neg (Ne.symm hp)]
    exact .nil _

/-- **One step**: what is seen of it at a port is what the law allows. -/
theorem reads_rxEvents_step (h : RxInv s) {a : SioAction} (hstep : sioMachine.next s a = some t)
    (port : ℕ) :
    Machine.Reads HandStep (s.hand port) (rxEvents port s a) (t.hand port) ∧ RxInv t := by
  cases sioStep_cases hstep with
  | opened _ _ hrxs _ =>
      exact reads_opened (t := s.opened _ _ _ _) h hrxs ⟨rfl, rfl⟩ rfl rfl port
  | openedXor _ _ hrxs =>
      exact reads_opened (t := s.opened _ _ _ _) h hrxs ⟨rfl, rfl⟩ rfl rfl port
  | sent _ _ _ => exact ⟨.nil _, h.congr rfl rfl⟩
  | cancelled _ _ => exact ⟨.nil _, h.congr rfl rfl⟩
  | @received core p rx st rx' phase howns hrx hrecv =>
      obtain ⟨marked, hmark, hattached⟩ := Option.map_eq_some_iff.mp hrecv
      have hframes := frames_markLocalRoleAttached hmark
      obtain ⟨step, settled, empty⟩ := handStep_recvAttached marked { rx with coreId := core } rx
        (h.settled p rx hrx) rfl rfl
      rw [hattached] at step settled empty
      have seen : pollEvent rx marked st phase = pollEvent rx s.st st phase := by
        rw [pollEvent, pollEvent, hframes]
      have reads := reads_received h hrx howns.2 (seen ▸ step) settled empty port
      refine ⟨?_, reads.2⟩
      have events : rxEvents port s (.pollRecv core p) =
          if p = port then [pollEvent rx s.st st phase] else [] := by
        rw [rxEvents]
        split
        · rename_i hp
          subst hp
          rw [hrx, Option.toList_some, List.flatMap_singleton, hrecv]
          rfl
        · rfl
      rw [events]
      exact reads.1
  | @scanned core timerReady p rx hbusy hrx =>
      have reads := reads_turn h hbusy hrx (part_recvScan rx) port
      refine ⟨?_, reads.2⟩
      have events : rxEvents port s (.recvTurn core timerReady) =
          if p = port then [pollEvent rx s.st (recvScan s.st rx).1 (recvScan s.st rx).2.2]
          else [] := by
        rw [rxEvents, hbusy]
        exact map_toList_at hrx _
      rw [events]
      exact reads.1
  | @awaited core timerReady p rx hbusy hrx =>
      have reads := reads_turn h hbusy hrx (part_recvAwait rx timerReady) port
      refine ⟨?_, reads.2⟩
      have events : rxEvents port s (.recvTurn core timerReady) =
          if p = port then [pollEvent rx s.st (recvAwait s.st rx timerReady).1
            (recvAwait s.st rx timerReady).2.2] else [] := by
        rw [rxEvents, hbusy]
        exact map_toList_at hrx _
      rw [events]
      exact reads.1
  | requeued howns hrx => exact reads_requeued h howns hrx port

/-- **The ports of the RP2040 carrier** obey the law of the frame in hand, in every run. -/
theorem reads_rxEvents {as : List SioAction} (h : sioMachine.exec .init as = some t) (port : ℕ) :
    Machine.Reads HandStep none (sioMachine.collect (rxEvents port) .init as) (t.hand port) :=
  Machine.reads_collect (fun s => s.hand port) (I := RxInv)
    (fun _ _ _ hinv hstep => (reads_rxEvents_step hinv hstep 0).2)
    (fun _ _ _ hinv hstep => (reads_rxEvents_step hinv hstep port).1) rxInv_init h

end HibanaPico.Baker
