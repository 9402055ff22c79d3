import HibanaPico.Sio.Types
import HibanaPico.Support.Runs

/-!
# Sio — The frame in hand

An Rx keeps the frame it handed out last, in `frame_label`, `bytes` and the fields of the header,
and the flags `requeued` and `delivered` say whether the next `poll_recv` hands it out again.

* `SioRx.hand`: the frame in hand, and whether it is to be handed out again.
* `HandStep`: the law — what a `requeue` or a part of a `poll_recv` may do to it.
* `Part`: what the parts of a `poll_recv` past the frame in hand do, of either carrier.
* `handStep_part`: they obey the law.
-/

namespace HibanaPico.Sio
open HibanaPico.Support
open HibanaPico.Transport

/-! ### The law -/

/-- The frame an Rx handed out last, and whether it is to hand it out again. -/
abbrev Hand := Option (ReceivedFrame × Bool)

/-- A frame as an Rx hands it out: with the session, role and label of its sender, and the role and
lane of the Rx. -/
def SioRx.receives (rx : SioRx) (frame : DecodedSioFrame) : ReceivedFrame :=
  { header :=
      { sessionId := frame.sessionId, lane := rx.lane, sourceRole := frame.senderRole,
        peerRole := rx.localRole, frameLabel := frame.frameLabel }
    payload := frame.payload.1 }

/-- What is seen of a call on an Rx; `σ` is where frames are that no Rx has yet. -/
inductive RxEvent (σ : Type) where
  | requeue (before after : SioRx)
  /-- A part of a `poll_recv`: the frame it took, and where it stands then. -/
  | poll (rx : SioRx) (before after : σ) (taken : Option DecodedSioFrame) (phase : RecvPhase)

/-- The frame in hand is not to be handed out again. -/
def Hand.Free (hand : Hand) : Prop := ∀ f, hand ≠ some (f, true)

/-- **The law of the frame in hand.** -/
inductive HandStep {σ : Type} : Hand → RxEvent σ → Hand → Prop
  /-- With nothing in hand a requeue changes nothing. -/
  | requeueNone {rx} : HandStep none (.requeue rx rx) none
  | requeue {f again rx rx'} : HandStep (some (f, again)) (.requeue rx rx') (some (f, true))
  /-- A frame requeued is handed out again, and nothing else is touched. -/
  | again {f rx st} :
      HandStep (some (f, true)) (.poll rx st st none (.answer (.ready (.ok f)))) (some (f, false))
  /-- Otherwise what is handed out is a frame just taken. -/
  | fresh {hand rx st st' frame} (free : hand.Free) :
      HandStep hand (.poll rx st st' (some frame) (.answer (.ready (.ok (rx.receives frame)))))
        (some (rx.receives frame, false))
  /-- Or nothing is, and the frame in hand is forgotten. -/
  | none {hand rx st st' taken phase} (free : hand.Free) (quiet : phase.Quiet) :
      HandStep hand (.poll rx st st' taken phase) none

variable {σ : Type} {st st' : σ}

/-! ### The flags -/

/-- The frame in hand, as the flags tell it. -/
def SioRx.hand (rx : SioRx) : Hand :=
  rx.frameLabel.map fun label => (rx.received label, rx.requeued || !rx.delivered)

/-- With no frame in hand, none is requeued. -/
def SioRx.Settled (rx : SioRx) : Prop := rx.frameLabel = none → rx.requeued = false

/-- Nothing in hand, and nothing requeued. -/
def SioRx.Empty (rx : SioRx) : Prop := rx.frameLabel = none ∧ rx.requeued = false

theorem SioRx.Empty.settled {rx : SioRx} (h : rx.Empty) : rx.Settled := fun _ => h.2

theorem SioRx.Empty.hand_eq {rx : SioRx} (h : rx.Empty) : rx.hand = none := by
  rw [SioRx.hand, h.1]
  rfl

/-- A requeued frame is to be handed out again. -/
theorem hand_requeue (rx : SioRx) : (requeue rx).hand = rx.hand.map fun h => (h.1, true) := by
  unfold SioRx.hand requeue
  cases rx.frameLabel with
  | none => rfl
  | some label => rfl

/-- **`requeue`** obeys the law. -/
theorem handStep_requeue {rx : SioRx} (h : rx.Settled) :
    HandStep (σ := σ) rx.hand (.requeue rx (requeue rx)) (requeue rx).hand ∧
      (requeue rx).Settled := by
  cases hlabel : rx.frameLabel with
  | none =>
      have hrequeued := h hlabel
      have hsame : requeue rx = rx := by
        obtain ⟨_, _, _, _, _, _, requeued, _, _, frameLabel, _, _⟩ := rx
        dsimp only at hlabel hrequeued
        subst hlabel hrequeued
        rfl
      have hhand : rx.hand = none := SioRx.Empty.hand_eq ⟨hlabel, hrequeued⟩
      rw [hsame, hhand]
      exact ⟨.requeueNone, h⟩
  | some label =>
      have hhand : rx.hand = some (rx.received label, rx.requeued || !rx.delivered) := by
        rw [SioRx.hand, hlabel]
        rfl
      have hhand' : (requeue rx).hand = some (rx.received label, true) := by
        rw [hand_requeue, hhand]
        rfl
      rw [hhand, hhand']
      refine ⟨.requeue, fun hnone => ?_⟩
      rw [requeue] at hnone
      dsimp only at hnone
      rw [hlabel] at hnone
      cases hnone

/-- A frame handed out again. -/
theorem handStep_again (st : σ) (rx₀ : SioRx) {rx : SioRx} {label : U8}
    (hlabel : rx.frameLabel = some label) (hagain : (rx.requeued || !rx.delivered) = true) :
    HandStep rx.hand (.poll rx₀ st st none (.answer (.ready (.ok (rx.received label)))))
        ({ rx with requeued := false, delivered := true } : SioRx).hand ∧
      ({ rx with requeued := false, delivered := true } : SioRx).Settled := by
  have hhand : rx.hand = some (rx.received label, true) := by
    rw [SioRx.hand, hlabel, hagain]
    rfl
  have hhand' : ({ rx with requeued := false, delivered := true } : SioRx).hand =
      some (rx.received label, false) := by
    rw [SioRx.hand]
    dsimp only
    rw [hlabel]
    rfl
  rw [hhand, hhand']
  exact ⟨.again, fun _ => rfl⟩

/-- A frame in hand that is not to be handed out again is forgotten. -/
theorem empty_forgetDelivered {rx : SioRx} (h : rx.Settled)
    (hfree : rx.frameLabel = none ∨ ¬ (rx.requeued || !rx.delivered) = true) :
    rx.hand.Free ∧ (forgetDelivered rx).Empty ∧ (forgetDelivered rx).localRole = rx.localRole ∧
      (forgetDelivered rx).lane = rx.lane := by
  cases hlabel : rx.frameLabel with
  | none =>
      rw [forgetDelivered, if_neg (by rw [hlabel]; simp), SioRx.hand, hlabel]
      exact ⟨fun f hf => (by cases hf), ⟨hlabel, h hlabel⟩, rfl, rfl⟩
  | some label =>
      have hflags : ¬ (rx.requeued || !rx.delivered) = true :=
        hfree.resolve_left (by rw [hlabel]; simp)
      rw [forgetDelivered, if_pos (by rw [hlabel]; rfl), SioRx.hand, hlabel]
      refine ⟨fun f hf => ?_, ⟨rfl, ?_⟩, rfl, rfl⟩
      · exact hflags (congrArg Prod.snd (Option.some.inj hf))
      · exact Bool.eq_false_iff.mpr fun htrue => hflags (by rw [htrue]; rfl)

/-! ### The parts of a poll -/

/-- What a part of a `poll_recv` does with an Rx that has nothing in hand: it hands out the frame it
took, or leaves the Rx as it is. -/
inductive Part (rx : SioRx) (taken : Option DecodedSioFrame) : SioRx → RecvPhase → Prop
  | quiet {phase} (quiet : phase.Quiet) : Part rx taken rx phase
  | handed {frame} (took : taken = some frame) (lane : frame.lane = rx.lane) :
      Part rx taken (deliver rx frame).1 (deliver rx frame).2

/-- A part that does not end the poll leaves nothing in hand. -/
theorem Part.empty {rx rx' : SioRx} {taken : Option DecodedSioFrame} {phase : RecvPhase}
    (h : Part rx taken rx' phase) (empty : rx.Empty) (goes : ∀ answer, phase ≠ .answer answer) :
    rx'.Empty := by
  cases h with
  | quiet _ => exact empty
  | handed _ _ => exact absurd rfl (goes _)

/-- **The parts of a poll** obey the law. -/
theorem handStep_part (st st' : σ) {hand : Hand} (free : hand.Free) {rx₀ rx rx' : SioRx}
    (empty : rx.Empty)
    (role : rx.localRole = rx₀.localRole) (lane : rx.lane = rx₀.lane)
    {taken : Option DecodedSioFrame} {phase : RecvPhase} (h : Part rx taken rx' phase) :
    HandStep hand (.poll rx₀ st st' taken phase) rx'.hand ∧ rx'.Settled := by
  cases h with
  | quiet quiet =>
      rw [empty.hand_eq]
      exact ⟨.none free quiet, empty.settled⟩
  | @handed frame took same =>
      have hreceives : (stageFrame rx frame).received frame.frameLabel = rx₀.receives frame := by
        simp only [SioRx.received, stageFrame, SioRx.receives, role, ← lane, same]
      have hhand : (deliver rx frame).1.hand = some (rx₀.receives frame, false) := by
        rw [← hreceives]
        unfold deliver SioRx.hand
        simp only [stageFrame, empty.2, Option.map_some]
        rfl
      have hphase : (deliver rx frame).2 = .answer (.ready (.ok (rx₀.receives frame))) := by
        rw [← hreceives]
        rfl
      rw [took, hhand, hphase]
      exact ⟨.fresh free, fun hnone => by cases hnone⟩

end HibanaPico.Sio
