import HibanaPico.Transport.Types
import Mathlib.Logic.Function.Basic

/-!
# Split — Carrier

The carrier of the heterogeneous split example: for each of the edges `0 → 1`, `1 → 2` and
`2 → 0`, one frame slot a lane.

* `pollSend_cases`, `pollRecv_cases`: what a call does to the slots, and what it answers.
-/

namespace HibanaPico.Split
open HibanaPico.Transport

def exampleFrameBytes : ℕ := 32
def exampleLaneSlots : ℕ := 4

/-! ### The slots -/

/-- A slot; `bytes` are its first `len` bytes. -/
structure ExampleFrameSlot where
  ready : Bool
  sessionId : U32
  sender : U8
  peer : U8
  label : U8
  bytes : FrameBytes exampleFrameBytes
  deriving DecidableEq

structure ExampleTx where
  localRole : U8
  sessionId : U32
  lane : U8
  deriving DecidableEq, Repr

/-- `bytes` are those of the frame received last. -/
structure ExampleRx where
  localRole : U8
  sessionId : U32
  lane : U8
  bytes : FrameBytes exampleFrameBytes
  deriving DecidableEq

namespace ExampleFrameSlot

def empty : ExampleFrameSlot := ⟨false, 0, 0, 0, 0, .empty _⟩

/-- `matches`. -/
def isFor (self : ExampleFrameSlot) (sessionId : U32) (peer : U8) : Prop :=
  self.ready = true ∧ self.sessionId = sessionId ∧ self.peer = peer

instance (self : ExampleFrameSlot) (sessionId : U32) (peer : U8) :
    Decidable (self.isFor sessionId peer) := inferInstanceAs (Decidable (_ ∧ _ ∧ _))

def push (self : ExampleFrameSlot) (sessionId : U32) (sender peer label : U8)
    (payload : List U8) : Except TransportError ExampleFrameSlot :=
  if h : payload.length > exampleFrameBytes then .error .failed
  else if self.ready then .error .failed
  else .ok ⟨true, sessionId, sender, peer, label, ⟨payload, Nat.not_lt.mp h⟩⟩

/-- `pop_into`: the frame, the slot and the port after it. -/
def popInto (self : ExampleFrameSlot) (sessionId : U32) (lane peer : U8) (rx : ExampleRx) :
    Option (ReceivedFrame × ExampleFrameSlot × ExampleRx) :=
  if self.isFor sessionId peer then
    some (⟨⟨self.sessionId, lane, self.sender, self.peer, self.label⟩, self.bytes.1⟩, empty,
      { rx with bytes := self.bytes })
  else none

end ExampleFrameSlot

/-! ### The carrier -/

inductive Edge where
  | zeroToOne
  | oneToTwo
  | twoToZero
  deriving DecidableEq, Repr

/-- `edge_slots_for_send`; `none` is a panic. -/
def edgeSlotsForSend (localRole peer : U8) : Option Edge :=
  if localRole = 0 ∧ peer = 1 then some .zeroToOne
  else if localRole = 1 ∧ peer = 2 then some .oneToTwo
  else if localRole = 2 ∧ peer = 0 then some .twoToZero
  else none

/-- `edge_slots_for_recv`; `none` is a panic. -/
def edgeSlotsForRecv (localRole : U8) : Option Edge :=
  if localRole = 0 then some .twoToZero
  else if localRole = 1 then some .zeroToOne
  else if localRole = 2 then some .oneToTwo
  else none

/-- The statics: the slots of the edges, and the counters of what was sent and received. -/
structure ExampleCarrier where
  slots : Edge → U8 → ExampleFrameSlot
  sent : Edge → U8
  recv : Edge → U8

namespace ExampleCarrier

def empty : ExampleCarrier := ⟨fun _ _ => .empty, fun _ => 0, fun _ => 0⟩

/-- `slot_mut`; `none` is a panic. -/
def slotMut (self : ExampleCarrier) (edge : Edge) (lane : U8) : Option ExampleFrameSlot :=
  if lane.toNat < exampleLaneSlots then some (self.slots edge lane) else none

/-- What is written through `slot_mut`. -/
def setSlot (self : ExampleCarrier) (edge : Edge) (lane : U8) (slot : ExampleFrameSlot) :
    ExampleCarrier :=
  { self with
    slots := Function.update self.slots edge (Function.update (self.slots edge) lane slot) }

/-- `bump_counter(sent_counter)`. -/
def bumpSent (self : ExampleCarrier) (edge : Edge) : ExampleCarrier :=
  { self with sent := Function.update self.sent edge (self.sent edge + 1) }

/-- `bump_counter(recv_counter)`. -/
def bumpRecv (self : ExampleCarrier) (edge : Edge) : ExampleCarrier :=
  { self with recv := Function.update self.recv edge (self.recv edge + 1) }

/-- `open`; `none` is a panic. -/
def openPort (port : PortOpen) : Option (ExampleTx × ExampleRx) :=
  if port.lane.toNat < exampleLaneSlots then
    some (⟨port.localRole, port.sessionId, port.lane⟩,
      ⟨port.localRole, port.sessionId, port.lane, .empty _⟩)
  else none

/-- `poll_send`; `none` is a panic. -/
def pollSend (self : ExampleCarrier) (tx : ExampleTx) (outgoing : Outgoing) :
    Option (ExampleCarrier × Poll (Except TransportError Unit)) :=
  if tx.sessionId = 0 ∨ outgoing.targetRole = tx.localRole then none
  else if outgoing.lane ≠ tx.lane then some (self, .ready (.error .failed))
  else do
    let edge ← edgeSlotsForSend tx.localRole outgoing.targetRole
    let carrier := self.bumpSent edge
    let slot ← carrier.slotMut edge outgoing.lane
    match slot.push tx.sessionId tx.localRole outgoing.targetRole outgoing.frameLabel
      outgoing.payload with
    | .ok slot => some (carrier.setSlot edge outgoing.lane slot, .ready (.ok ()))
    | .error e => some (carrier, .ready (.error e))

/-- `cancel_send`; `none` is a panic. -/
def cancelSend (tx : ExampleTx) : Option Unit := if tx.sessionId = 0 then none else some ()

/-- `poll_recv`; `none` is a panic. -/
def pollRecv (self : ExampleCarrier) (rx : ExampleRx) :
    Option (ExampleCarrier × ExampleRx × Poll (Except TransportError ReceivedFrame)) :=
  if rx.sessionId = 0 then none
  else do
    let edge ← edgeSlotsForRecv rx.localRole
    let slot ← self.slotMut edge rx.lane
    match slot.popInto rx.sessionId rx.lane rx.localRole rx with
    | some (received, slot, rx) =>
        some ((self.setSlot edge rx.lane slot).bumpRecv edge, rx, .ready (.ok received))
    | none => some (self, rx, .pending)

/-- `requeue`; `none` is a panic. -/
def requeue (rx : ExampleRx) : Option (Except TransportError Unit) :=
  if rx.sessionId = 0 then none else some (.ok ())

end ExampleCarrier

/-! ### What waits -/

/-- A frame as its sender gave it and its receiver sees it: session, sender role, label, bytes. -/
structure EdgeFrame where
  sessionId : U32
  source : U8
  frameLabel : U8
  payload : List U8
  deriving DecidableEq, Repr

/-- The frame in a slot. -/
def ExampleFrameSlot.frames (slot : ExampleFrameSlot) : List EdgeFrame :=
  if slot.ready then [⟨slot.sessionId, slot.sender, slot.label, slot.bytes.1⟩] else []

namespace ExampleCarrier

variable {c c' : ExampleCarrier}

/-- The frame that waits on a lane of a role. -/
def waiting (c : ExampleCarrier) (role lane : U8) : List EdgeFrame :=
  match edgeSlotsForRecv role with
  | some edge => (c.slots edge lane).frames
  | none => []

/-- A slot that holds a frame holds it for the role its edge leads to. -/
def Addressed (c : ExampleCarrier) : Prop :=
  ∀ edge lane, (c.slots edge lane).ready = true →
    edgeSlotsForRecv (c.slots edge lane).peer = some edge

theorem edgeSlotsForRecv_inj {r r' : U8} {edge : Edge} (h : edgeSlotsForRecv r = some edge)
    (h' : edgeSlotsForRecv r' = some edge) : r = r' := by
  unfold edgeSlotsForRecv at h h'
  split_ifs at h h' <;> cases h <;> cases h' <;> simp_all

/-- The edge a frame is sent on is the one its target receives on. -/
theorem edgeSlotsForRecv_of_send {localRole peer : U8} {edge : Edge}
    (h : edgeSlotsForSend localRole peer = some edge) : edgeSlotsForRecv peer = some edge := by
  unfold edgeSlotsForSend at h
  split_ifs at h with h₁ h₂ h₃
  · cases h
    rw [h₁.2]
    rfl
  · cases h
    rw [h₂.2]
    rfl
  · cases h
    rw [h₃.2]
    rfl

/-- The carrier after a call that changed what waits on one lane of one role, to `w`. -/
structure Rewrites (c c' : ExampleCarrier) (role lane : U8) (w : List EdgeFrame) : Prop where
  addressed : c'.Addressed
  here : c'.waiting role lane = w
  elsewhere : ∀ r l, ¬ (r = role ∧ l = lane) → c'.waiting r l = c.waiting r l

theorem rewrites_setSlot (hc : c.Addressed) {role lane : U8} {edge : Edge}
    (hedge : edgeSlotsForRecv role = some edge) (slot : ExampleFrameSlot)
    (hslot : slot.ready = true → slot.peer = role) :
    Rewrites c (c.setSlot edge lane slot) role lane slot.frames where
  addressed e l hready := by
    by_cases he : e = edge
    · subst he
      by_cases hl : l = lane
      · subst hl
        simp only [setSlot, Function.update_self] at hready ⊢
        rw [hslot hready, hedge]
      · simp only [setSlot, Function.update_self, Function.update_of_ne hl] at hready ⊢
        exact hc e l hready
    · simp only [setSlot, Function.update_of_ne he] at hready ⊢
      exact hc e l hready
  here := by simp only [waiting, hedge, setSlot, Function.update_self]
  elsewhere r l hne := by
    unfold waiting
    cases hr : edgeSlotsForRecv r with
    | none => rfl
    | some e =>
        by_cases he : e = edge
        · subst he
          have hl : l ≠ lane := fun hl => hne ⟨edgeSlotsForRecv_inj hr hedge, hl⟩
          simp only [setSlot, Function.update_self, Function.update_of_ne hl]
        · simp only [setSlot, Function.update_of_ne he]

/-- **`poll_send`.**  Either refused, with what waits unchanged, or `Ok` with the frame alone on
its lane, where none waited. -/
theorem pollSend_cases (hc : c.Addressed) {tx : ExampleTx} {outgoing : Outgoing}
    {answer : Poll (Except TransportError Unit)} (h : c.pollSend tx outgoing = some (c', answer)) :
    ((∃ e, answer = .ready (.error e)) ∧ c'.slots = c.slots) ∨
      (answer = .ready (.ok ()) ∧ c.waiting outgoing.targetRole outgoing.lane = [] ∧
        Rewrites c c' outgoing.targetRole outgoing.lane
          [⟨tx.sessionId, tx.localRole, outgoing.frameLabel, outgoing.payload⟩]) := by
  unfold pollSend at h
  split at h
  · cases h
  split at h
  · cases h
    exact .inl ⟨⟨_, rfl⟩, rfl⟩
  obtain ⟨edge, hedge, h⟩ := Option.bind_eq_some_iff.mp h
  obtain ⟨slot, hslot, h⟩ := Option.bind_eq_some_iff.mp h
  have hrecv := edgeSlotsForRecv_of_send hedge
  obtain ⟨-, hslot⟩ := Option.ite_none_right_eq_some.mp hslot
  cases hslot
  unfold ExampleFrameSlot.push at h
  by_cases hlong : outgoing.payload.length > exampleFrameBytes
  · simp only [dif_pos hlong] at h
    cases h
    exact .inl ⟨⟨_, rfl⟩, rfl⟩
  by_cases hready : (c.slots edge outgoing.lane).ready = true
  · have hready' : ((c.bumpSent edge).slots edge outgoing.lane).ready = true := hready
    simp only [dif_neg hlong, if_pos hready'] at h
    cases h
    exact .inl ⟨⟨_, rfl⟩, rfl⟩
  · have hready' : ¬ ((c.bumpSent edge).slots edge outgoing.lane).ready = true := hready
    simp only [dif_neg hlong, if_neg hready'] at h
    cases h
    refine .inr ⟨rfl, ?_, ?_⟩
    · simp only [waiting, hrecv, ExampleFrameSlot.frames, if_neg hready]
    · have hc' : (c.bumpSent edge).Addressed := hc
      have hw : Rewrites (c.bumpSent edge) _ outgoing.targetRole outgoing.lane _ :=
        rewrites_setSlot hc' hrecv ⟨true, tx.sessionId, tx.localRole, outgoing.targetRole,
          outgoing.frameLabel, ⟨outgoing.payload, Outgoing.payload_le hlong⟩⟩ fun _ => rfl
      exact ⟨hw.addressed, hw.here, hw.elsewhere⟩

/-- What the next `poll_recv` of a port answers, when this waits on its lane. -/
def expectedAnswer (rx : ExampleRx) : List EdgeFrame → Poll (Except TransportError ReceivedFrame)
  | [] => .pending
  | f :: _ =>
      if f.sessionId = rx.sessionId then
        .ready (.ok ⟨⟨rx.sessionId, rx.lane, f.source, rx.localRole, f.frameLabel⟩, f.payload⟩)
      else .pending

/-- **`poll_recv`.**  Either pending, with nothing changed, or the frame that waits on the lane for
the port's session, which waits no more. -/
theorem pollRecv_cases (hc : c.Addressed) {rx rx' : ExampleRx}
    {answer : Poll (Except TransportError ReceivedFrame)}
    (h : c.pollRecv rx = some (c', rx', answer)) :
    (answer = .pending ∧ expectedAnswer rx (c.waiting rx.localRole rx.lane) = .pending ∧
        c' = c ∧ rx' = rx) ∨
      ∃ f, f.sessionId = rx.sessionId ∧ c.waiting rx.localRole rx.lane = [f] ∧
        answer = expectedAnswer rx [f] ∧ Rewrites c c' rx.localRole rx.lane [] ∧
        rx'.localRole = rx.localRole ∧ rx'.sessionId = rx.sessionId ∧ rx'.lane = rx.lane := by
  unfold pollRecv at h
  split at h
  · cases h
  obtain ⟨edge, hedge, h⟩ := Option.bind_eq_some_iff.mp h
  obtain ⟨slot, hslot, h⟩ := Option.bind_eq_some_iff.mp h
  obtain ⟨-, hslot⟩ := Option.ite_none_right_eq_some.mp hslot
  cases hslot
  unfold ExampleFrameSlot.popInto at h
  by_cases hfor : (c.slots edge rx.lane).isFor rx.sessionId rx.localRole
  · simp only [if_pos hfor] at h
    cases h
    obtain ⟨hready, hsession, hpeer⟩ := hfor
    have hw : Rewrites c (c.setSlot edge rx.lane .empty) rx.localRole rx.lane [] :=
      rewrites_setSlot hc hedge .empty fun h => by cases h
    refine .inr ⟨⟨(c.slots edge rx.lane).sessionId, (c.slots edge rx.lane).sender,
      (c.slots edge rx.lane).label, (c.slots edge rx.lane).bytes.1⟩, hsession, ?_, ?_,
      ⟨hw.addressed, hw.here, hw.elsewhere⟩, rfl, rfl, rfl⟩
    · simp only [waiting, hedge, ExampleFrameSlot.frames, if_pos hready]
    · simp only [expectedAnswer, hsession, hpeer, if_true]
  · simp only [if_neg hfor] at h
    cases h
    refine .inl ⟨rfl, ?_, rfl, rfl⟩
    simp only [waiting, hedge, ExampleFrameSlot.frames]
    by_cases hready : (c.slots edge rx.lane).ready = true
    · rw [if_pos hready]
      -- the slot is for the port's role, so its session is another one
      have hpeer := edgeSlotsForRecv_inj (hc edge rx.lane hready) hedge
      exact if_neg fun hsession => hfor ⟨hready, hsession, hpeer⟩
    · rw [if_neg hready]
      rfl

end ExampleCarrier

end HibanaPico.Split
