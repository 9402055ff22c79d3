import HibanaPico.Rp2w.Streams
import HibanaPico.Support.Slots

/-!
# Rp2w — Stash

What the calls do to the frames that wait in the stash slots of a core.

* `stashed_fill`, `stashed_clear`: a slot set changes what waits by one frame.
* `Took`: what a turn of `poll_recv` does with a frame it decodes — hands it out, stashes it, or
  answers an error with it in no place.
* `Looked`: what a `poll_recv` does with the stash before its loop.
* `StashSend`: what a `poll_send` does to the stash.
-/

namespace HibanaPico.Rp2w
open HibanaPico.Support
open HibanaPico.Transport
open HibanaPico.Sio

/-- What waits in the stash slots of both cores. -/
def stashed (st : SioStatics) : Multiset ReceivedFrame :=
  (Slots.held (st.stash .core0) + Slots.held (st.stash .core1)).map DecodedSioFrame.received

variable {st st' : SioStatics} {core : Core} {slot : Fin 16} {frame : DecodedSioFrame}

/-- The stash with one slot of one core set. -/
def setSlot (st : SioStatics) (core : Core) (slot : Fin 16) (v : Option DecodedSioFrame) :
    Core → Fin 16 → Option DecodedSioFrame :=
  Function.update st.stash core (Function.update (st.stash core) slot v)

/-- A frame put back into the slot it was taken from. -/
theorem setSlot_back (cleared : st'.stash = setSlot st core slot none)
    (full : st.stash core slot = some frame) :
    setSlot st' core slot (some frame) = st.stash := by
  rw [setSlot, cleared, setSlot, Function.update_self, Function.update_idem, Function.update_idem,
    ← full, Function.update_eq_self, Function.update_eq_self]

theorem stashed_congr (h : st'.stash = st.stash) : stashed st' = stashed st := by
  rw [stashed, stashed, h]

theorem stashed_fill (empty : st.stash core slot = none)
    (h : st'.stash = setSlot st core slot (some frame)) :
    stashed st' = stashed st + {frame.received} := by
  have filled := Slots.held_fill empty frame
  rw [stashed, stashed, h, setSlot]
  cases core with
  | core0 =>
      rw [Function.update_self, Function.update_of_ne (by decide), filled, add_right_comm,
        Multiset.map_add, Multiset.map_singleton]
  | core1 =>
      rw [Function.update_self, Function.update_of_ne (by decide), filled, ← add_assoc,
        Multiset.map_add, Multiset.map_singleton]

theorem stashed_clear (full : st.stash core slot = some frame)
    (h : st'.stash = setSlot st core slot none) : stashed st' + {frame.received} = stashed st := by
  have cleared := Slots.held_clear full
  rw [stashed, stashed, h, setSlot, ← Multiset.map_singleton DecodedSioFrame.received frame,
    ← Multiset.map_add]
  cases core with
  | core0 => rw [Function.update_self, Function.update_of_ne (by decide), add_right_comm, cleared]
  | core1 => rw [Function.update_self, Function.update_of_ne (by decide), add_assoc, cleared]

/-- `stash_frame` fills the empty slot of the frame's role, or fails and changes nothing. -/
theorem stashFrame_eq_ok (h : st.stashFrame core frame = .ok st') :
    ∃ slot : Fin 16, frame.peerRole.toNat = slot ∧ st.stash core slot = none ∧
      st'.stash = setSlot st core slot (some frame) := by
  rw [SioStatics.stashFrame] at h
  split at h
  next small =>
    split at h
    next => cases h
    next empty =>
      cases h
      exact ⟨_, rfl, empty, rfl⟩
  next => cases h

/-- The stash has no room for the frame. -/
def Clashes (st : SioStatics) (core : Core) (frame : DecodedSioFrame) : Prop :=
  ∀ slot : Fin 16, frame.peerRole.toNat = slot → st.stash core slot ≠ none

instance (st : SioStatics) (core : Core) (frame : DecodedSioFrame) :
    Decidable (Clashes st core frame) :=
  inferInstanceAs (Decidable (∀ _ : Fin 16, _ → _))

theorem stashFrame_eq_error {e : TransportError} (h : st.stashFrame core frame = .error e) :
    Clashes st core frame := by
  intro slot role empty
  rw [SioStatics.stashFrame] at h
  split at h
  next small =>
    have same : (⟨frame.peerRole.toNat, small⟩ : Fin 16) = slot := Fin.ext role
    rw [same, empty] at h
    cases h
  next large => exact large (role ▸ slot.2)

/-! ### A turn of `poll_recv` -/

/-- The frame that the next word of the FIFO completes. -/
def taken (st : SioStatics) (rx : SioRx) : Option DecodedSioFrame :=
  match st.fifo rx.coreId.peer with
  | [] => none
  | word :: _ =>
      match ((st.accum rx.coreId).pushWord word).2 with
      | .ok frame => frame
      | .error _ => none

/-- The frame is for another role or another lane. -/
def Misfits (rx : SioRx) (frame : DecodedSioFrame) : Prop :=
  frame.peerRole ≠ rx.localRole ∨ frame.lane ≠ rx.lane

instance (rx : SioRx) (frame : DecodedSioFrame) : Decidable (Misfits rx frame) :=
  inferInstanceAs (Decidable (_ ∨ _))

/-- What a turn of `poll_recv` does with the frame that it decodes. -/
inductive Took (st : SioStatics) (rx : SioRx) :
    Option DecodedSioFrame → SioStatics → RecvPhase → Prop where
  | nothing {st' phase} (quiet : phase.Quiet) (same : st'.stash = st.stash) :
      Took st rx none st' phase
  | handed {f st'} (fits : ¬ Misfits rx f) (same : st'.stash = st.stash) :
      Took st rx (some f) st' (.answer (.ready (.ok f.received)))
  | stashed {f st'} {slot : Fin 16} (misfits : Misfits rx f) (role : f.peerRole.toNat = slot)
      (empty : st.stash rx.coreId slot = none)
      (filled : st'.stash = setSlot st rx.coreId slot (some f)) : Took st rx (some f) st' .scan
  | lost {f st' e} (misfits : Misfits rx f) (clashes : Clashes st rx.coreId f)
      (same : st'.stash = st.stash) : Took st rx (some f) st' (.answer (.ready (.error e)))

/-- A staged frame is handed out as it came. -/
theorem deliver_eq {rx : SioRx} {f : DecodedSioFrame} (role : f.peerRole = rx.localRole) :
    (deliver rx f).2 = .answer (.ready (.ok f.received)) := by
  rw [DecodedSioFrame.received, role]
  rfl

theorem took_recvTaken {rx : SioRx} {f : DecodedSioFrame} (same : st'.stash = st.stash) :
    Took st rx (some f) (recvTaken st' rx f).1 (recvTaken st' rx f).2.2 := by
  rw [recvTaken]
  split
  next misfits =>
    split
    next e failed =>
      refine .lost misfits (fun slot role empty => ?_) same
      exact stashFrame_eq_error failed slot role (by rw [same]; exact empty)
    next st'' stashed =>
      obtain ⟨slot, role, empty, filled⟩ := stashFrame_eq_ok stashed
      rw [same] at empty
      rw [setSlot, same] at filled
      exact .stashed misfits role empty filled
  next fits =>
    rw [deliver_eq (not_not.mp (not_or.mp fits).1)]
    exact .handed fits same

theorem took_recvWord {rx : SioRx} {word : U32} {rest : List U32}
    (fifo : st.fifo rx.coreId.peer = word :: rest) (stash : st'.stash = st.stash)
    (accum : st'.accum = st.accum) :
    Took st rx (taken st rx) (recvWord st' rx word).1 (recvWord st' rx word).2.2 := by
  rw [taken, fifo, recvWord, accum]
  dsimp only
  cases ((st.accum rx.coreId).pushWord word).2 with
  | error e => exact .nothing trivial stash
  | ok frame =>
      cases frame with
      | none => exact .nothing trivial stash
      | some f => exact took_recvTaken stash

theorem tryPop_cases (st : SioStatics) (core : Core) :
    (st.fifo core.peer = [] ∧ st.tryPop core = none) ∨
      ∃ word rest st', st.fifo core.peer = word :: rest ∧ st.tryPop core = some (st', word) ∧
        st'.stash = st.stash ∧ st'.accum = st.accum ∧ st'.fifo core.peer = rest := by
  rw [SioStatics.tryPop]
  split
  next empty => exact .inl ⟨empty, rfl⟩
  next word rest fifo =>
    exact .inr ⟨word, rest, _, fifo, rfl, rfl, rfl, Function.update_self _ _ _⟩

/-- A turn of the loop, before the deadline or at it. -/
theorem took_turn (st : SioStatics) (rx : SioRx) (awaiting timerReady : Bool) :
    Took st rx (taken st rx) (if awaiting then recvAwait st rx timerReady else recvTurn st rx).1
      (if awaiting then recvAwait st rx timerReady else recvTurn st rx).2.2 := by
  obtain ⟨empty, none⟩ | ⟨word, rest, st', fifo, some, stash, accum, -⟩ := tryPop_cases st rx.coreId
  · have nothing : taken st rx = .none := by rw [taken, empty]
    rw [nothing, recvAwait, recvTurn, none]
    dsimp only
    split <;> split <;> exact .nothing trivial rfl
  · rw [recvAwait, recvTurn, some]
    dsimp only
    split <;> exact took_recvWord fifo stash accum

/-! ### The stash before the loop -/

/-- The Rx has a frame to hand out again: one requeued. -/
def Holds (rx : SioRx) : Bool := rx.frameLabel.isSome && (rx.requeued || !rx.delivered)

/-- What a `poll_recv` does before its loop. -/
inductive Looked (st : SioStatics) (rx : SioRx) : SioStatics → RecvPhase → Prop where
  | again {phase} (holds : Holds rx) : Looked st rx st phase
  | nothing {st' phase} (free : ¬ Holds rx) (quiet : phase.Quiet) (same : st'.stash = st.stash) :
      Looked st rx st' phase
  | handed {f st'} {slot : Fin 16} (free : ¬ Holds rx) (fits : ¬ Misfits rx f)
      (role : rx.localRole.toNat = slot) (full : st.stash rx.coreId slot = some f)
      (cleared : st'.stash = setSlot st rx.coreId slot none) :
      Looked st rx st' (.answer (.ready (.ok f.received)))

/-- Each slot holds a frame to its role, at the core of that role. -/
def Placed (st : SioStatics) : Prop :=
  ∀ core slot f, st.stash core slot = some f →
    f.peerRole.toNat = slot.val ∧ rp2wRoleCore f.peerRole = some core

theorem Placed.congr (h : Placed st) (same : st'.stash = st.stash) : Placed st' := by
  rw [Placed, same]
  exact h

theorem Placed.set (h : Placed st) {v : Option DecodedSioFrame}
    (fits : ∀ f, v = some f → f.peerRole.toNat = slot.val ∧ rp2wRoleCore f.peerRole = some core)
    (set : st'.stash = setSlot st core slot v) : Placed st' := by
  intro core' slot' f full
  rw [set, setSlot] at full
  by_cases same : core' = core
  · subst same
    rw [Function.update_self] at full
    by_cases same : slot' = slot
    · subst same
      rw [Function.update_self] at full
      exact fits f full
    · rw [Function.update_of_ne same] at full
      exact h core' slot' f full
  · rw [Function.update_of_ne same] at full
    exact h core' slot' f full

theorem localRole_forgetDelivered (rx : SioRx) :
    (forgetDelivered rx).localRole = rx.localRole ∧ (forgetDelivered rx).lane = rx.lane := by
  rw [forgetDelivered]
  split <;> exact ⟨rfl, rfl⟩

theorem looked_recvStash {rx rx' : SioRx} (free : ¬ Holds rx) (core : rx'.coreId = rx.coreId)
    (role : rx'.localRole = rx.localRole) (lane : rx'.lane = rx.lane) (placed : Placed st) :
    Looked st rx (recvStash st rx').1 (recvStash st rx').2.2 := by
  rw [recvStash, SioStatics.takeStashedFrame, core, role]
  by_cases small : rx.localRole.toNat < 16
  · rw [dif_pos small]
    cases full : st.stash rx.coreId ⟨rx.localRole.toNat, small⟩ with
    | none => exact .nothing free trivial rfl
    | some f =>
        have own : f.peerRole = rx.localRole := BitVec.eq_of_toNat_eq (placed _ _ _ full).1
        dsimp only [Option.map_some]
        split
        next other =>
          -- a frame for another lane goes back to the slot it came from
          split
          next e failed =>
            refine absurd ?_ (stashFrame_eq_error failed ⟨_, small⟩ (congrArg _ own))
            dsimp only
            rw [Function.update_self, Function.update_self]
          next st'' stashed =>
            obtain ⟨slot, same, -, filled⟩ := stashFrame_eq_ok stashed
            have slot_eq : slot = ⟨rx.localRole.toNat, small⟩ :=
              Fin.ext (same.symm.trans (congrArg BitVec.toNat own))
            rw [slot_eq] at filled
            exact .nothing free trivial (filled.trans (setSlot_back rfl full))
        next fits =>
          rw [deliver_eq (own.trans role.symm)]
          refine .handed free (not_or.mpr ⟨not_not.mpr own, ?_⟩) rfl full rfl
          rw [← lane]
          exact fits
  · rw [dif_neg small]
    exact .nothing free trivial rfl

theorem pollRecv_of_free {rx : SioRx} (free : ¬ Holds rx) :
    pollRecv st rx = recvStash st (forgetDelivered rx) := by
  rw [pollRecv]
  split
  next label has =>
    refine if_neg fun holds => free ?_
    rw [Holds, has, holds]
    rfl
  next => rfl

theorem pollRecv_of_holds {rx : SioRx} (holds : Holds rx) : (pollRecv st rx).1 = st := by
  obtain ⟨has, again⟩ := Bool.and_eq_true_iff.mp holds
  obtain ⟨label, has⟩ := Option.isSome_iff_exists.mp has
  rw [pollRecv, has]
  exact congrArg Prod.fst (if_pos again)

theorem looked_pollRecv (placed : Placed st) (rx : SioRx) :
    Looked st rx (pollRecv st rx).1 (pollRecv st rx).2.2 := by
  by_cases holds : Holds rx
  · rw [pollRecv_of_holds holds]
    exact .again holds
  · obtain ⟨role, lane⟩ := localRole_forgetDelivered rx
    rw [pollRecv_of_free holds]
    exact looked_recvStash holds (coreId_forgetDelivered rx) role lane placed

/-- **A frame in the stash is handed out** to an Rx of its role and lane that polls for one. -/
theorem pollRecv_of_stashed (placed : Placed st) {rx : SioRx} {f : DecodedSioFrame}
    (full : st.stash rx.coreId slot = some f) (fits : ¬ Misfits rx f) (free : ¬ Holds rx) :
    (pollRecv st rx).2.2 = .answer (.ready (.ok f.received)) := by
  obtain ⟨role, lane⟩ := localRole_forgetDelivered rx
  obtain ⟨own, same⟩ := not_or.mp fits
  have index : rx.localRole.toNat = slot.val :=
    (congrArg BitVec.toNat (not_not.mp own)).symm.trans (placed _ _ _ full).1
  have take : ∃ st', st.takeStashedFrame rx.coreId rx.localRole = some (st', f) := by
    have slot_eq : (⟨rx.localRole.toNat, index ▸ slot.2⟩ : Fin 16) = slot := Fin.ext index
    rw [SioStatics.takeStashedFrame, dif_pos (index ▸ slot.2), slot_eq, full]
    exact ⟨_, rfl⟩
  obtain ⟨st', take⟩ := take
  rw [pollRecv_of_free free, recvStash, coreId_forgetDelivered, role, take]
  dsimp only
  rw [lane, if_neg same]
  exact deliver_eq ((not_not.mp own).trans role.symm)

/-! ### Sending -/

/-- The frame of a send, as its receiver should see it. -/
def announced (tx : SioTx) (o : Outgoing) : ReceivedFrame where
  header :=
    { sessionId := tx.sessionId, lane := o.lane, sourceRole := tx.localRole,
      peerRole := o.targetRole, frameLabel := o.frameLabel }
  payload := o.payload

theorem received_of_callFrame {tx : SioTx} {o : Outgoing} {f : WordFrame}
    (h : callFrame tx o = some f) : f.1.received = announced tx o := by
  rw [callFrame] at h
  split at h
  · cases h
    rfl
  · cases h

/-- What a `poll_send` does to the stash. -/
inductive StashSend (st : SioStatics) (tx : SioTx) (o : Outgoing) :
    SioStatics → SendPhase → Prop where
  | self (own : tx.localRole = o.targetRole) : StashSend st tx o st (.answer (.ready (.ok ())))
  | kept {st' phase} (other : tx.localRole ≠ o.targetRole)
      (notOk : phase ≠ .answer (.ready (.ok ()))) (same : st'.stash = st.stash) :
      StashSend st tx o st' phase
  | stashed {f st'} {slot : Fin 16} (other : tx.localRole ≠ o.targetRole)
      (frame : f.received = announced tx o) (role : f.peerRole.toNat = slot.val)
      (near : rp2wRoleCore f.peerRole = some tx.coreId) (empty : st.stash tx.coreId slot = none)
      (filled : st'.stash = setSlot st tx.coreId slot (some f)) :
      StashSend st tx o st' (.answer (.ready (.ok ())))

theorem stashSend_cases {tx tx' : SioTx} {o : Outgoing} {phase : SendPhase}
    (h : pollSend st tx o = some (st', tx', phase)) : StashSend st tx o st' phase := by
  rw [pollSend] at h
  split at h
  next own =>
    cases h
    exact .self own
  next other =>
    split at h
    next =>
      cases h
      exact .kept other (by simp) rfl
    next =>
      obtain ⟨core, near, h⟩ := Option.map_eq_some_iff.mp h
      split at h
      next same =>
        subst same
        rw [sendStash] at h
        split at h
        next =>
          cases h
          exact .kept other (by simp) rfl
        next stashed =>
          cases h
          obtain ⟨slot, role, empty, filled⟩ := stashFrame_eq_ok stashed
          exact .stashed other rfl role near empty filled
      next =>
        rw [sendFifo] at h
        split at h <;> (cases h; exact .kept other (by simp) rfl)

end HibanaPico.Rp2w
