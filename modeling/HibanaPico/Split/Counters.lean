import HibanaPico.Split.Delivery

/-!
# Split — Counters

Each edge counts what was sent and what was received on it, and the example takes its progress from
the counters.  `poll_send` counts a frame before the slot has taken it.

* `ExampleCarrier.pollSend_counts`, `ExampleCarrier.pollRecv_counts`: what a call does to the slots
  and the counters.
* `excess_exec`: a run adds to what an edge counts too much the refusals of its slots.
* `counters_iff`: a failing send leaves everything as it was exactly on another lane than the
  port's, and an edge counts its occupied slots exactly when its slots refused a multiple of 256
  frames.
-/

namespace HibanaPico.Split
open HibanaPico.Support
open HibanaPico.Transport

/-- The lanes that `slot_mut` has a slot for. -/
def lanes : List U8 := [0, 1, 2, 3]

theorem mem_lanes {lane : U8} (h : lane.toNat < exampleLaneSlots) : lane ∈ lanes := by
  have small : lane.toNat = 0 ∨ lane.toNat = 1 ∨ lane.toNat = 2 ∨ lane.toNat = 3 := by
    rw [exampleLaneSlots] at h
    omega
  simp only [lanes, List.mem_cons, List.not_mem_nil, or_false]
  exact small.imp BitVec.eq_of_toNat_eq <| Or.imp BitVec.eq_of_toNat_eq <|
    Or.imp BitVec.eq_of_toNat_eq BitVec.eq_of_toNat_eq

/-- Counting after a change at one place. -/
theorem countP_change {α : Type} [DecidableEq α] {p q : α → Bool} {l : List α} {x : α}
    (nodup : l.Nodup) (mem : x ∈ l) (others : ∀ y, y ≠ x → q y = p y) :
    l.countP q + (p x).toNat = l.countP p + (q x).toNat := by
  induction l with
  | nil => cases mem
  | cons y l ih =>
      obtain ⟨fresh, nodup⟩ := List.nodup_cons.mp nodup
      rw [List.countP_cons, List.countP_cons]
      rcases List.mem_cons.mp mem with rfl | mem
      · have rest : l.countP q = l.countP p := List.countP_congr fun z hz => by
          rw [others z fun same => fresh (same ▸ hz)]
        rw [rest]
        cases p x <;> cases q x <;> rfl
      · rw [others y fun same => fresh (same ▸ mem)]
        have := ih nodup mem
        omega

namespace ExampleCarrier

variable {c c' : ExampleCarrier} {tx : ExampleTx} {rx rx' : ExampleRx} {outgoing : Outgoing}
  {edge : Edge} {lane : U8}

theorem slots_setSlot_self (c : ExampleCarrier) (edge : Edge) (lane : U8)
    (slot : ExampleFrameSlot) : (c.setSlot edge lane slot).slots edge lane = slot := by
  simp [setSlot]

theorem slots_setSlot_of_lane {other : U8} (ne : other ≠ lane) (slot : ExampleFrameSlot) :
    (c.setSlot edge lane slot).slots edge other = c.slots edge other := by
  simp [setSlot, ne]

theorem slots_setSlot_of_edge {other : Edge} (ne : other ≠ edge) (slot : ExampleFrameSlot) :
    (c.setSlot edge lane slot).slots other = c.slots other := by
  simp [setSlot, ne]

theorem sent_bumpSent (c : ExampleCarrier) (edge other : Edge) :
    (c.bumpSent edge).sent other = if other = edge then c.sent other + 1 else c.sent other := by
  by_cases same : other = edge
  · subst same
    simp [bumpSent]
  · simp [bumpSent, same]

theorem recv_bumpRecv (c : ExampleCarrier) (edge other : Edge) :
    (c.bumpRecv edge).recv other = if other = edge then c.recv other + 1 else c.recv other := by
  by_cases same : other = edge
  · subst same
    simp [bumpRecv]
  · simp [bumpRecv, same]

/-- The occupied slots of an edge. -/
def occupied (c : ExampleCarrier) (edge : Edge) : ℕ :=
  lanes.countP fun lane => (c.slots edge lane).ready

theorem occupied_le (c : ExampleCarrier) (edge : Edge) : c.occupied edge ≤ 4 :=
  List.countP_le_length

/-- The slot that the frame goes to cannot take it. -/
def Refuses (c : ExampleCarrier) (tx : ExampleTx) (outgoing : Outgoing) (edge : Edge) : Prop :=
  outgoing.lane = tx.lane ∧ edgeSlotsForSend tx.localRole outgoing.targetRole = some edge ∧
    ((c.slots edge outgoing.lane).ready = true ∨ outgoing.payload.length > exampleFrameBytes)

instance (c : ExampleCarrier) (tx : ExampleTx) (outgoing : Outgoing) (edge : Edge) :
    Decidable (c.Refuses tx outgoing edge) := inferInstanceAs (Decidable (_ ∧ _ ∧ (_ ∨ _)))

/-- A slot takes a frame when it is free and the frame fits. -/
theorem push_cases (slot : ExampleFrameSlot) (sessionId : U32) (sender peer label : U8)
    (payload : List U8) :
    ((slot.ready = true ∨ payload.length > exampleFrameBytes) ∧
        slot.push sessionId sender peer label payload = .error .failed) ∨
      (slot.ready = false ∧ payload.length ≤ exampleFrameBytes ∧
        ∃ slot', slot'.ready = true ∧
          slot.push sessionId sender peer label payload = .ok slot') := by
  rw [ExampleFrameSlot.push]
  by_cases long : payload.length > exampleFrameBytes
  · exact .inl ⟨.inr long, dif_pos long⟩
  · rw [dif_neg long]
    cases ready : slot.ready with
    | true => exact .inl ⟨.inl rfl, if_pos rfl⟩
    | false => exact .inr ⟨rfl, Nat.not_lt.mp long, _, rfl, if_neg Bool.false_ne_true⟩

/-- **`poll_send`, counted.**  Refused on another lane it changes nothing, refused by the slot it
counts the frame all the same, and else the frame takes the slot and is counted. -/
theorem pollSend_counts {answer : Poll (Except TransportError Unit)}
    (h : c.pollSend tx outgoing = some (c', answer)) :
    (outgoing.lane ≠ tx.lane ∧ answer = .ready (.error .failed) ∧ c' = c) ∨
      ∃ edge, outgoing.lane = tx.lane ∧
        edgeSlotsForSend tx.localRole outgoing.targetRole = some edge ∧
        (c.Refuses tx outgoing edge ∧ answer = .ready (.error .failed) ∧ c' = c.bumpSent edge ∨
          (¬ c.Refuses tx outgoing edge ∧ answer = .ready (.ok ()) ∧
            outgoing.lane.toNat < exampleLaneSlots ∧
            (c.slots edge outgoing.lane).ready = false ∧ ∃ slot, slot.ready = true ∧
              c' = (c.bumpSent edge).setSlot edge outgoing.lane slot)) := by
  unfold pollSend at h
  split at h
  · cases h
  split at h
  next other =>
    cases h
    exact .inl ⟨other, rfl, rfl⟩
  next same =>
    have same := not_not.mp same
    obtain ⟨edge, hedge, h⟩ := Option.bind_eq_some_iff.mp h
    obtain ⟨slot, hslot, h⟩ := Option.bind_eq_some_iff.mp h
    obtain ⟨small, hslot⟩ := Option.ite_none_right_eq_some.mp hslot
    obtain rfl : c.slots edge outgoing.lane = slot := Option.some.inj hslot
    refine .inr ⟨edge, same, hedge, ?_⟩
    rcases push_cases (c.slots edge outgoing.lane) tx.sessionId tx.localRole outgoing.targetRole
      outgoing.frameLabel outgoing.payload with ⟨full, pushed⟩ | ⟨free, fits, slot, ready, pushed⟩
    · simp only [pushed] at h
      cases h
      exact .inl ⟨⟨same, hedge, full⟩, rfl, rfl⟩
    · simp only [pushed] at h
      cases h
      refine .inr ⟨?_, rfl, small, free, slot, ready, rfl⟩
      rintro ⟨-, -, full | long⟩
      · exact absurd (free.symm.trans full) Bool.false_ne_true
      · exact absurd fits (Nat.not_le.mpr long)

/-- **`poll_recv`, counted.**  A frame that is handed on leaves its slot and is counted. -/
theorem pollRecv_counts {answer : Poll (Except TransportError ReceivedFrame)}
    (h : c.pollRecv rx = some (c', rx', answer)) :
    c' = c ∨ ∃ edge, rx.lane.toNat < exampleLaneSlots ∧ (c.slots edge rx.lane).ready = true ∧
      c' = (c.setSlot edge rx.lane .empty).bumpRecv edge := by
  unfold pollRecv at h
  split at h
  · cases h
  obtain ⟨edge, -, h⟩ := Option.bind_eq_some_iff.mp h
  obtain ⟨slot, hslot, h⟩ := Option.bind_eq_some_iff.mp h
  obtain ⟨small, hslot⟩ := Option.ite_none_right_eq_some.mp hslot
  obtain rfl : c.slots edge rx.lane = slot := Option.some.inj hslot
  unfold ExampleFrameSlot.popInto at h
  by_cases isFor : (c.slots edge rx.lane).isFor rx.sessionId rx.localRole
  · simp only [if_pos isFor] at h
    cases h
    exact .inr ⟨edge, small, isFor.1, rfl⟩
  · simp only [if_neg isFor] at h
    cases h
    exact .inl rfl

theorem bumpSent_ne (c : ExampleCarrier) (edge : Edge) : c.bumpSent edge ≠ c := by
  intro same
  have count := congrFun (congrArg sent same) edge
  rw [sent_bumpSent, if_pos rfl] at count
  simp at count

/-! ### What an edge counts too much -/

/-- By how much the difference of an edge's counters is more than its occupied slots. -/
def excess (c : ExampleCarrier) (edge : Edge) : U8 :=
  c.sent edge - c.recv edge - BitVec.ofNat 8 (c.occupied edge)

theorem counted_iff (c : ExampleCarrier) (edge : Edge) :
    (c.sent edge - c.recv edge).toNat = c.occupied edge ↔ c.excess edge = 0 := by
  have small : (BitVec.ofNat 8 (c.occupied edge)).toNat = c.occupied edge := by
    have := c.occupied_le edge
    rw [BitVec.toNat_ofNat]
    omega
  rw [excess, ← small, ← BitVec.toNat_eq, small]
  constructor
  · intro h
    rw [h]
    exact BitVec.sub_self _
  · intro h
    have added := congrArg (· + BitVec.ofNat 8 (c.occupied edge)) h
    simpa [BitVec.sub_add_cancel] using added

/-- A slot that changes hands changes the count of its edge. -/
theorem occupied_setSlot (small : lane.toNat < exampleLaneSlots) (slot : ExampleFrameSlot) :
    (c.setSlot edge lane slot).occupied edge + (c.slots edge lane).ready.toNat =
      c.occupied edge + slot.ready.toNat := by
  have change := countP_change (l := lanes) (x := lane)
    (p := fun lane => (c.slots edge lane).ready)
    (q := fun other => ((c.setSlot edge lane slot).slots edge other).ready) (by decide)
    (mem_lanes small) fun other ne => by rw [slots_setSlot_of_lane ne]
  rwa [slots_setSlot_self] at change

theorem occupied_setSlot_of_ne {other : Edge} (ne : other ≠ edge) (slot : ExampleFrameSlot) :
    (c.setSlot edge lane slot).occupied other = c.occupied other := by
  rw [occupied, occupied, slots_setSlot_of_edge ne]

/-- What a refused frame does to an edge. -/
theorem excess_refused (c : ExampleCarrier) (edge other : Edge) :
    (c.bumpSent edge).excess other = c.excess other + BitVec.ofNat 8 ([edge].count other) := by
  have kept : (c.bumpSent edge).occupied other = c.occupied other := rfl
  have received : (c.bumpSent edge).recv other = c.recv other := rfl
  rw [excess, excess, sent_bumpSent, kept, received, List.count_singleton]
  by_cases same : other = edge
  · subst same
    simp only [if_true, beq_self_eq_true]
    bv_omega
  · simp only [if_neg same, beq_false_of_ne (Ne.symm same), Bool.false_eq_true, if_false]
    bv_omega

/-- A frame that is taken is counted once and occupies one slot more. -/
theorem excess_sent (small : lane.toNat < exampleLaneSlots)
    (free : (c.slots edge lane).ready = false) {slot : ExampleFrameSlot}
    (ready : slot.ready = true) (other : Edge) :
    ((c.bumpSent edge).setSlot edge lane slot).excess other = c.excess other := by
  have received : ((c.bumpSent edge).setSlot edge lane slot).recv other = c.recv other := rfl
  have sent : ((c.bumpSent edge).setSlot edge lane slot).sent other =
      (c.bumpSent edge).sent other := rfl
  rw [excess, excess, received, sent, sent_bumpSent]
  by_cases same : other = edge
  · subst same
    have count : ((c.bumpSent other).setSlot other lane slot).occupied other =
        c.occupied other + 1 := by
      have change : ((c.bumpSent other).setSlot other lane slot).occupied other +
          (c.slots other lane).ready.toNat = c.occupied other + slot.ready.toNat :=
        occupied_setSlot small slot
      rwa [free, ready] at change
    rw [count, if_pos rfl, BitVec.ofNat_add]
    bv_omega
  · rw [if_neg same, occupied_setSlot_of_ne same]
    rfl

/-- A frame that is handed on is counted once and occupies one slot less. -/
theorem excess_received (small : lane.toNat < exampleLaneSlots)
    (full : (c.slots edge lane).ready = true) (other : Edge) :
    ((c.setSlot edge lane .empty).bumpRecv edge).excess other = c.excess other := by
  have sent : ((c.setSlot edge lane .empty).bumpRecv edge).sent other = c.sent other := rfl
  have kept : ((c.setSlot edge lane .empty).bumpRecv edge).occupied other =
      (c.setSlot edge lane .empty).occupied other := rfl
  have received : (c.setSlot edge lane .empty).recv other = c.recv other := rfl
  rw [excess, excess, sent, kept, recv_bumpRecv, received]
  by_cases same : other = edge
  · subst same
    have count : c.occupied other = (c.setSlot other lane .empty).occupied other + 1 := by
      have change : (c.setSlot other lane .empty).occupied other +
          (c.slots other lane).ready.toNat = c.occupied other + 0 := occupied_setSlot small .empty
      rw [full] at change
      exact change.symm
    rw [count, if_pos rfl, BitVec.ofNat_add]
    bv_omega
  · rw [if_neg same, occupied_setSlot_of_ne same]

end ExampleCarrier

/-! ### Runs -/

/-- The edge whose slot refuses a frame in this step. -/
def refusals (s : ExampleState) : ExampleAction → List Edge
  | .pollSend port outgoing =>
      match s.txs port with
      | some tx => (edgeSlotsForSend tx.localRole outgoing.targetRole).toList.filter fun edge =>
          s.carrier.Refuses tx outgoing edge
      | none => []
  | _ => []

open ExampleCarrier

variable {s t : ExampleState}

/-- **A step** adds its refusal to what an edge counts too much. -/
theorem excess_step {a : ExampleAction} (h : s.next a = some t) (edge : Edge) :
    t.carrier.excess edge =
      s.carrier.excess edge + BitVec.ofNat 8 ((refusals s a).count edge) := by
  have quiet : ∀ c : ExampleCarrier, c.excess edge = c.excess edge + BitVec.ofNat 8 0 :=
    fun c => (BitVec.add_zero _).symm
  cases a with
  | «open» port as =>
      obtain ⟨-, h⟩ := Option.ite_none_left_eq_some.mp h
      obtain ⟨ports, -, rfl⟩ := Option.map_eq_some_iff.mp h
      exact quiet _
  | pollSend port outgoing =>
      obtain ⟨tx, htx, h⟩ := Option.bind_eq_some_iff.mp h
      obtain ⟨⟨c', answer⟩, hsend, h⟩ := Option.bind_eq_some_iff.mp h
      have carrier : t.carrier = c' := by
        rcases pollSend_counts hsend with ⟨-, rfl, -⟩ | ⟨_, -, -, ⟨-, rfl, -⟩ | ⟨-, rfl, -⟩⟩
        all_goals cases h; rfl
      rw [carrier]
      rcases pollSend_counts hsend with ⟨other, -, rfl⟩ | ⟨e, same, hedge, refused | taken⟩
      · have none : refusals s (.pollSend port outgoing) = [] := by
          simp only [refusals, htx]
          exact List.filter_eq_nil_iff.mpr fun _ _ h => other (of_decide_eq_true h).1
        rw [none]
        exact quiet _
      · obtain ⟨refused, -, rfl⟩ := refused
        have one : refusals s (.pollSend port outgoing) = [e] := by
          simp only [refusals, htx, hedge]
          exact List.filter_eq_self.mpr fun _ mem =>
            decide_eq_true (List.mem_singleton.mp mem ▸ refused)
        rw [one]
        exact excess_refused _ _ _
      · obtain ⟨taken, -, small, free, slot, ready, rfl⟩ := taken
        have none : refusals s (.pollSend port outgoing) = [] := by
          simp only [refusals, htx, hedge]
          exact List.filter_eq_nil_iff.mpr fun _ mem h =>
            taken (List.mem_singleton.mp mem ▸ of_decide_eq_true h)
        rw [none, excess_sent small free ready]
        exact quiet _
  | cancelSend port =>
      obtain ⟨tx, -, h⟩ := Option.bind_eq_some_iff.mp h
      obtain ⟨_, -, h⟩ := Option.bind_eq_some_iff.mp h
      cases h
      exact quiet _
  | pollRecv port =>
      obtain ⟨rx, -, h⟩ := Option.bind_eq_some_iff.mp h
      obtain ⟨⟨c', rx', answer⟩, hrecv, h⟩ := Option.bind_eq_some_iff.mp h
      have carrier : t.carrier = c' := by
        split at h
        all_goals
          rename_i answered
          cases answered
          cases h
          rfl
      rw [carrier]
      rcases pollRecv_counts hrecv with rfl | ⟨e, small, full, rfl⟩
      · exact quiet _
      · rw [excess_received small full]
        exact quiet _
  | requeue port =>
      obtain ⟨rx, -, h⟩ := Option.bind_eq_some_iff.mp h
      obtain ⟨answer, -, h⟩ := Option.bind_eq_some_iff.mp h
      split at h <;> cases h <;> exact quiet _

/-- **A run** adds all of its refusals. -/
theorem excess_exec {actions : List ExampleAction} (h : exampleMachine.exec s actions = some t)
    (edge : Edge) : t.carrier.excess edge = s.carrier.excess edge +
      BitVec.ofNat 8 ((exampleMachine.collect refusals s actions).count edge) := by
  induction actions generalizing s with
  | nil =>
      cases h
      exact (BitVec.add_zero _).symm
  | cons a actions ih =>
      obtain ⟨u, hu, ht⟩ := Machine.exec_cons.mp h
      rw [ih ht, excess_step hu, Machine.collect_cons hu, List.count_append, BitVec.ofNat_add,
        BitVec.add_assoc]

/-- **The counters.**  A send that fails leaves slots and counters as they were exactly when its
frame is for another lane than the port's; and the counters of an edge differ by its occupied slots
exactly when its slots have refused a multiple of 256 frames. -/
theorem counters_iff {actions : List ExampleAction}
    (h : exampleMachine.exec .init actions = some s) :
    (∀ port tx outgoing c' e, s.txs port = some tx →
      s.carrier.pollSend tx outgoing = some (c', .ready (.error e)) →
        (c' = s.carrier ↔ outgoing.lane ≠ tx.lane)) ∧
    ∀ edge, (s.carrier.sent edge - s.carrier.recv edge).toNat = s.carrier.occupied edge ↔
      256 ∣ (exampleMachine.collect refusals .init actions).count edge := by
  refine ⟨fun port tx outgoing c' e _ hsend => ?_, fun edge => ?_⟩
  · rcases pollSend_counts hsend with ⟨other, -, rfl⟩ | ⟨edge, same, -, ⟨-, -, rfl⟩ | ⟨-, sent, -⟩⟩
    · exact iff_of_true rfl other
    · exact iff_of_false (bumpSent_ne _ _) (not_not.mpr same)
    · cases sent
  · have start : ExampleState.init.carrier.excess edge = 0 := by
      cases edge <;> decide
    have sum : s.carrier.excess edge =
        BitVec.ofNat 8 ((exampleMachine.collect refusals .init actions).count edge) := by
      rw [excess_exec h, start]
      exact BitVec.zero_add _
    rw [counted_iff, sum, BitVec.toNat_eq, BitVec.toNat_ofNat]
    exact Nat.dvd_iff_mod_eq_zero.symm

/-- A frame for another lane fails and leaves all as it was, and the edges count their slots. -/
theorem counters_iff_handover : ∃ s tx c', exampleMachine.exec .init handover = some s ∧
    s.txs 0 = some tx ∧
    s.carrier.pollSend tx ⟨1, 31, 1, []⟩ = some (c', .ready (.error .failed)) ∧ c' = s.carrier ∧
    ∀ edge, (s.carrier.sent edge - s.carrier.recv edge).toNat = s.carrier.occupied edge := by
  have hrun : (exampleMachine.exec .init handover).map (·.txs 0) = some (some ⟨0, 7, 0⟩) := by
    decide +kernel
  obtain ⟨s, hs, htx⟩ := Option.map_eq_some_iff.mp hrun
  have hsend : s.carrier.pollSend ⟨0, 7, 0⟩ ⟨1, 31, 1, []⟩ =
      some (s.carrier, .ready (.error .failed)) := rfl
  refine ⟨s, _, _, hs, htx, hsend, ?_, fun edge => ((counters_iff hs).2 edge).mpr ?_⟩
  · exact ((counters_iff hs).1 0 _ _ _ _ htx hsend).mpr (by decide)
  · cases edge <;> decide +kernel

/-- A frame is sent, and a second one while the first occupies the slot. -/
def sentTwice : List ExampleAction :=
  [.open 0 ⟨0, 7, 0⟩, .pollSend 0 ⟨1, 31, 0, []⟩, .pollSend 0 ⟨1, 31, 0, []⟩]

/-- The edge counts two frames, of which one waits. -/
theorem counters_sentTwice : ¬ ∀ actions s, exampleMachine.exec .init actions = some s →
    ∀ edge, (s.carrier.sent edge - s.carrier.recv edge).toNat = s.carrier.occupied edge := by
  intro counted
  have hrun : (exampleMachine.exec .init sentTwice).map (fun s =>
      (s.carrier.sent .zeroToOne - s.carrier.recv .zeroToOne,
        s.carrier.occupied .zeroToOne)) = some (2, 1) := by decide +kernel
  obtain ⟨s, hs, counts⟩ := Option.map_eq_some_iff.mp hrun
  obtain ⟨counters, occupied⟩ := Prod.mk.inj counts
  have same := counted _ s hs .zeroToOne
  rw [counters, occupied] at same
  exact absurd same (by decide)

end HibanaPico.Split
