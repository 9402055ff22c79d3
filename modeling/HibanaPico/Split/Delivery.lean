import HibanaPico.Split.Carrier
import HibanaPico.Support.Replay
import HibanaPico.Support.Runs

/-!
# Split — Delivery

The split carrier with any number of ports, and for each lane of each role the history of what its
calls answered.  `requeue` answers `Ok` and puts nothing back.

* `EdgeExact`: the history is one of a first-in first-out queue with put-back, and the next
  `poll_recv` answers with the front of that queue.
* `ExampleState.Inv`: without the requeues, every history is exact.
* `split_exact_iff`: every lane is exact exactly when no frame is requeued.
-/

namespace HibanaPico.Split
open HibanaPico.Support
open HibanaPico.Transport

/-- The carrier, its ports, and what an observer of the calls has noted: the history of each
role and lane, and the frame each port was handed last and has not put back. -/
structure ExampleState where
  carrier : ExampleCarrier
  txs : ℕ → Option ExampleTx
  rxs : ℕ → Option ExampleRx
  history : U8 → U8 → List (QueueEvent EdgeFrame)
  handed : ℕ → Option EdgeFrame

/-- A call on a port. -/
inductive ExampleAction where
  | open (port : ℕ) (as : PortOpen)
  | pollSend (port : ℕ) (outgoing : Outgoing)
  | cancelSend (port : ℕ)
  | pollRecv (port : ℕ)
  | requeue (port : ℕ)
  deriving DecidableEq

/-- Note an event of a role's lane. -/
def noteEvent (history : U8 → U8 → List (QueueEvent EdgeFrame)) (role lane : U8)
    (e : QueueEvent EdgeFrame) : U8 → U8 → List (QueueEvent EdgeFrame) := fun r l =>
  if r = role ∧ l = lane then history r l ++ [e] else history r l

/-- A received frame, at the session of the port that received it. -/
def EdgeFrame.receivedBy (rx : ExampleRx) (r : ReceivedFrame) : EdgeFrame :=
  ⟨rx.sessionId, r.header.sourceRole, r.header.frameLabel, r.payload⟩

namespace ExampleState

def init : ExampleState where
  carrier := .empty
  txs _ := none
  rxs _ := none
  history _ _ := []
  handed _ := none

/-- A call; `none` is a port that is not open, or a panic. -/
def next (s : ExampleState) : ExampleAction → Option ExampleState
  | .open port as =>
      if (s.txs port).isSome ∨ (s.rxs port).isSome then none
      else (ExampleCarrier.openPort as).map fun ports => { s with
        txs := Function.update s.txs port (some ports.1)
        rxs := Function.update s.rxs port (some ports.2) }
  | .pollSend port outgoing => do
      let tx ← s.txs port
      let result ← s.carrier.pollSend tx outgoing
      match result with
      | (carrier, .ready (.ok ())) => some { s with
          carrier := carrier
          history := noteEvent s.history outgoing.targetRole outgoing.lane
            (.sent ⟨tx.sessionId, tx.localRole, outgoing.frameLabel, outgoing.payload⟩) }
      | (carrier, _) => some { s with carrier := carrier }
  | .cancelSend port => do
      let tx ← s.txs port
      let _ ← ExampleCarrier.cancelSend tx
      some s
  | .pollRecv port => do
      let rx ← s.rxs port
      let result ← s.carrier.pollRecv rx
      match result with
      | (carrier, rx', .ready (.ok frame)) => some { s with
          carrier := carrier
          rxs := Function.update s.rxs port (some rx')
          history := noteEvent s.history rx.localRole rx.lane
            (.delivered (.receivedBy rx frame))
          handed := Function.update s.handed port (some (.receivedBy rx frame)) }
      | (carrier, rx', _) => some { s with
          carrier := carrier
          rxs := Function.update s.rxs port (some rx') }
  | .requeue port => do
      let rx ← s.rxs port
      let answer ← ExampleCarrier.requeue rx
      match answer, s.handed port with
      | .ok (), some frame => some { s with
          history := noteEvent s.history rx.localRole rx.lane (.requeued frame)
          handed := Function.update s.handed port none }
      | _, _ => some s

/-- The call does not requeue a frame. -/
def NoRequeue (s : ExampleState) : ExampleAction → Prop
  | .requeue port => s.handed port = none
  | _ => True

instance : ∀ (s : ExampleState) (a : ExampleAction), Decidable (s.NoRequeue a)
  | s, .requeue port => inferInstanceAs (Decidable (s.handed port = none))
  | _, .open _ _ | _, .pollSend _ _ | _, .cancelSend _ | _, .pollRecv _ => isTrue trivial

end ExampleState

def exampleMachine : Machine ExampleState ExampleAction := ⟨ExampleState.next⟩

/-- What an exact lane of a role is. -/
structure EdgeExact (s : ExampleState) (role lane : U8) : Prop where
  /-- The history is that of a first-in first-out queue with put-back, which holds what waits. -/
  replay : QueueEvent.replay (s.history role lane) = some (s.carrier.waiting role lane)
  /-- A frame was delivered once for each send and requeue of it, unless it waits. -/
  count : ∀ f, (QueueEvent.deliveries (s.history role lane)).count f +
      (s.carrier.waiting role lane).count f =
    (QueueEvent.sends (s.history role lane)).count f +
      (QueueEvent.requeues (s.history role lane)).count f
  /-- Every receiver is next answered with what waits for its session. -/
  answer : ∀ port rx, s.rxs port = some rx → rx.localRole = role → rx.lane = lane →
    ∀ result, s.carrier.pollRecv rx = some result →
      result.2.2 = ExampleCarrier.expectedAnswer rx (s.carrier.waiting role lane)

namespace ExampleState

variable {s t : ExampleState}

/-- The invariant: without the requeues, the history of each lane leaves what waits on it. -/
structure Inv (s : ExampleState) : Prop where
  addressed : s.carrier.Addressed
  replay : ∀ role lane, QueueEvent.replay (QueueEvent.unrequeued (s.history role lane)) =
    some (s.carrier.waiting role lane)

theorem inv_init : init.Inv where
  addressed _ _ h := by cases h
  replay role lane := by
    show some [] = some _
    unfold ExampleCarrier.waiting
    split <;> rfl

/-- Nothing was requeued. -/
def Unrequeued (s : ExampleState) : Prop :=
  ∀ role lane, QueueEvent.requeues (s.history role lane) = []

/-- What a call does: nothing to be noted, an event of the lane, or a requeue that puts nothing
back. -/
theorem next_cases (hc : s.carrier.Addressed) {a : ExampleAction} (h : s.next a = some t) :
    (s.NoRequeue a ∧ t.history = s.history ∧ t.carrier.slots = s.carrier.slots) ∨
    (s.NoRequeue a ∧ ∃ role lane e w, t.history = noteEvent s.history role lane e ∧
      (∀ f, e ≠ .requeued f) ∧ s.carrier.Rewrites t.carrier role lane w ∧
      QueueEvent.apply (s.carrier.waiting role lane) e = some w) ∨
    (¬ s.NoRequeue a ∧ t.carrier = s.carrier ∧ ∃ role lane f,
      t.history = noteEvent s.history role lane (.requeued f)) := by
  cases a with
  | «open» port as =>
      obtain ⟨-, h⟩ := Option.ite_none_left_eq_some.mp h
      obtain ⟨ports, -, rfl⟩ := Option.map_eq_some_iff.mp h
      exact .inl ⟨trivial, rfl, rfl⟩
  | pollSend port outgoing =>
      obtain ⟨tx, -, h⟩ := Option.bind_eq_some_iff.mp h
      obtain ⟨⟨c', answer⟩, hsend, h⟩ := Option.bind_eq_some_iff.mp h
      obtain ⟨⟨e, rfl⟩, hslots⟩ | ⟨rfl, hempty, hw⟩ := ExampleCarrier.pollSend_cases hc hsend
      · cases h
        exact .inl ⟨trivial, rfl, hslots⟩
      · cases h
        refine .inr (.inl ⟨trivial, _, _, _, _, rfl, fun f hf => (by cases hf), hw, ?_⟩)
        rw [hempty]
        rfl
  | cancelSend port =>
      obtain ⟨tx, -, h⟩ := Option.bind_eq_some_iff.mp h
      obtain ⟨_, -, h⟩ := Option.bind_eq_some_iff.mp h
      cases h
      exact .inl ⟨trivial, rfl, rfl⟩
  | pollRecv port =>
      obtain ⟨rx, -, h⟩ := Option.bind_eq_some_iff.mp h
      obtain ⟨⟨c', rx', answer⟩, hrecv, h⟩ := Option.bind_eq_some_iff.mp h
      obtain ⟨rfl, -, rfl, rfl⟩ | ⟨f, hsession, hwaiting, rfl, hw, -⟩ :=
        ExampleCarrier.pollRecv_cases hc hrecv
      · cases h
        exact .inl ⟨trivial, rfl, rfl⟩
      · simp only [ExampleCarrier.expectedAnswer, hsession, if_true] at h
        cases h
        refine .inr (.inl ⟨trivial, _, _, _, _, rfl, fun f hf => (by cases hf), hw, ?_⟩)
        rw [hwaiting]
        show (if f = EdgeFrame.mk rx.sessionId f.source f.frameLabel f.payload then some []
          else none) = some []
        rw [← hsession]
        exact if_pos rfl
  | requeue port =>
      obtain ⟨rx, -, h⟩ := Option.bind_eq_some_iff.mp h
      obtain ⟨answer, hanswer, h⟩ := Option.bind_eq_some_iff.mp h
      unfold ExampleCarrier.requeue at hanswer
      split at hanswer
      · cases hanswer
      · cases hanswer
        cases hhanded : s.handed port with
        | none =>
            simp only [hhanded] at h
            cases h
            exact .inl ⟨hhanded, rfl, rfl⟩
        | some frame =>
            simp only [hhanded] at h
            cases h
            refine .inr (.inr ⟨fun hno => ?_, rfl, _, _, _, rfl⟩)
            rw [NoRequeue, hhanded] at hno
            cases hno

/-- What waits depends on the slots alone. -/
theorem waiting_congr {c c' : ExampleCarrier} (h : c'.slots = c.slots) (role lane : U8) :
    c'.waiting role lane = c.waiting role lane := by
  unfold ExampleCarrier.waiting
  rw [h]

/-- A call that changes neither the slots nor the history keeps the invariant. -/
theorem Inv.of_slots (I : s.Inv) (hhistory : ∀ role lane,
    QueueEvent.unrequeued (t.history role lane) = QueueEvent.unrequeued (s.history role lane))
    (hslots : t.carrier.slots = s.carrier.slots) : t.Inv where
  addressed := by
    unfold ExampleCarrier.Addressed
    rw [hslots]
    exact I.addressed
  replay role lane := by
    rw [hhistory, waiting_congr hslots]
    exact I.replay role lane

theorem Inv.step (I : s.Inv) {a : ExampleAction} (h : s.next a = some t) : t.Inv := by
  obtain ⟨-, hhistory, hslots⟩ | ⟨-, role, lane, e, w, hhistory, he, hw, happly⟩ |
    ⟨-, hcarrier, role, lane, f, hhistory⟩ := next_cases I.addressed h
  · exact I.of_slots (fun role lane => by rw [hhistory]) hslots
  · refine ⟨hw.addressed, fun r l => ?_⟩
    rw [hhistory, noteEvent]
    by_cases hrl : r = role ∧ l = lane
    · obtain ⟨rfl, rfl⟩ := hrl
      have hkept : QueueEvent.unrequeued [e] = [e] := by
        cases e with
        | sent f => rfl
        | delivered f => rfl
        | requeued f => exact absurd rfl (he f)
      rw [if_pos ⟨rfl, rfl⟩, QueueEvent.unrequeued_append, hkept, QueueEvent.replay_snoc,
        I.replay, Option.bind_some, happly, hw.here]
    · rw [if_neg hrl, I.replay, hw.elsewhere r l hrl]
  · refine I.of_slots (fun r l => ?_) (by rw [hcarrier])
    rw [hhistory, noteEvent]
    by_cases hrl : r = role ∧ l = lane
    · rw [if_pos hrl, QueueEvent.unrequeued_append]
      exact List.append_nil _
    · rw [if_neg hrl]

/-- **One call.**  Nothing has been requeued after it exactly when nothing was before and the call
requeues no frame. -/
theorem Inv.unrequeued_step (I : s.Inv) {a : ExampleAction} (h : s.next a = some t) :
    t.Unrequeued ↔ s.Unrequeued ∧ s.NoRequeue a := by
  obtain ⟨hno, hhistory, -⟩ | ⟨hno, role, lane, e, w, hhistory, he, -, -⟩ |
    ⟨hrequeue, -, role, lane, f, hhistory⟩ := next_cases I.addressed h
  · unfold Unrequeued
    rw [hhistory]
    exact (and_iff_left hno).symm
  · have hnone : QueueEvent.requeues [e] = [] := by
      cases e with
      | sent f => rfl
      | delivered f => rfl
      | requeued f => exact absurd rfl (he f)
    rw [and_iff_left hno]
    refine forall₂_congr fun r l => ?_
    rw [hhistory, noteEvent]
    by_cases hrl : r = role ∧ l = lane
    · rw [if_pos hrl, QueueEvent.requeues_append, hnone, List.append_nil]
    · rw [if_neg hrl]
  · refine iff_of_false (fun hnone => ?_) fun h => hrequeue h.2
    have hlane := hnone role lane
    rw [hhistory, noteEvent, if_pos ⟨rfl, rfl⟩, QueueEvent.requeues_append] at hlane
    exact List.append_ne_nil_of_right_ne_nil _ (List.cons_ne_nil f []) hlane

/-- Every lane is exact exactly when nothing was requeued. -/
theorem Inv.edgeExact_iff (I : s.Inv) :
    (∀ role lane, EdgeExact s role lane) ↔ s.Unrequeued := by
  refine forall₂_congr fun role lane => ?_
  rw [← QueueEvent.replay_iff_requeues_nil (I.replay role lane)]
  refine ⟨EdgeExact.replay, fun hreplay => ⟨hreplay, QueueEvent.replay_count hreplay, ?_⟩⟩
  rintro port rx - rfl rfl ⟨c', rx', answer⟩ hrecv
  obtain ⟨rfl, hexpected, -⟩ | ⟨f, -, hwaiting, rfl, -⟩ :=
    ExampleCarrier.pollRecv_cases I.addressed hrecv
  · exact hexpected.symm
  · rw [hwaiting]

end ExampleState

/-- **The split carrier's delivery.**  After any calls on any ports, every lane of every role is
exact exactly when no call requeued a frame. -/
theorem split_exact_iff {actions : List ExampleAction} {s : ExampleState}
    (h : exampleMachine.exec .init actions = some s) :
    (∀ role lane, EdgeExact s role lane) ↔
      exampleMachine.Along ExampleState.NoRequeue .init actions := by
  have hkeeps : ∀ (s : ExampleState) (a : ExampleAction) (t : ExampleState), s.Inv →
      exampleMachine.next s a = some t → t.Inv := fun _ _ _ I hnext => I.step hnext
  have I : s.Inv := Machine.exec_keeps hkeeps ExampleState.inv_init h
  rw [I.edgeExact_iff, Machine.exec_iff_along_of_invariant hkeeps
    (fun _ _ _ I hnext => I.unrequeued_step hnext) ExampleState.inv_init h]
  exact and_iff_right fun _ _ => rfl

/-- A frame from role 0 to role 1, sent and received. -/
def handover : List ExampleAction :=
  [.open 0 ⟨0, 7, 0⟩, .open 1 ⟨1, 7, 0⟩, .open 2 ⟨1, 8, 0⟩, .pollSend 0 ⟨1, 31, 0, [1, 2, 3]⟩,
    .pollRecv 2, .pollRecv 1]

theorem split_exact_iff_handover : ∃ s, exampleMachine.exec .init handover = some s ∧
    ∀ role lane, EdgeExact s role lane := by
  have hrun : (exampleMachine.exec .init handover).isSome = true := by decide +kernel
  obtain ⟨s, hs⟩ := Option.isSome_iff_exists.mp hrun
  exact ⟨s, hs, (split_exact_iff hs).mpr (by decide +kernel)⟩

/-- A frame received and requeued is not delivered again. -/
theorem split_loses : ¬ ∀ actions s, exampleMachine.exec .init actions = some s →
    ∀ role lane, EdgeExact s role lane := by
  intro H
  have hrun : (exampleMachine.exec .init (handover ++ [.requeue 1])).map (fun s =>
      QueueEvent.replay (s.history 1 0) == some (s.carrier.waiting 1 0)) = some false := by
    decide +kernel
  obtain ⟨s, hs, hfalse⟩ := Option.map_eq_some_iff.mp hrun
  have hreplay := (H _ s hs 1 0).replay
  rw [hreplay] at hfalse
  simp at hfalse

end HibanaPico.Split
