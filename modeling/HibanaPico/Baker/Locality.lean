import HibanaPico.Baker.Accounting

/-!
# Baker — Locality

A send goes to the stash of its own core when the target role is registered there, and to the
mailbox of the other core when it is not.  A role is registered by `open` and by the polls of its
ports; `open_with_tx_session_xor`, the way the images open theirs, registers nobody.

* `SioState.Opened`: a role has an Rx on a core.
* `Registered`: a send finds the roles it concerns registered, if they are opened on its core.
* `delivered_locally`: in every run whose sends do, co-located frames stay on their core.
* `published_unpolled`: the first send to a role opened and not yet polled leaves its core.
-/

namespace HibanaPico.Baker
open HibanaPico.Support
open HibanaPico.Transport
open HibanaPico.Sio

/-- A role has an Rx on a core. -/
def SioState.Opened (s : SioState) (core : Core) (role : U8) : Prop :=
  ∃ port rx, s.rxs port = some rx ∧ rx.localRole = role ∧ rx.coreId = core

/-- A port was opened for the role and lane. -/
def SioState.HasLane (s : SioState) (role lane : U8) : Prop :=
  ∃ port rx, s.rxs port = some rx ∧ rx.localRole = role ∧ rx.lane = lane

/-! ### The registry -/

theorem bakerRoleStashIndex_inj {role role' : U8} {index : Fin 3}
    (h : bakerRoleStashIndex role = some index) (h' : bakerRoleStashIndex role' = some index) :
    role = role' :=
  BitVec.eq_of_toNat_eq ((bakerRoleStashIndex_eq h).trans (bakerRoleStashIndex_eq h').symm)

theorem roleLaneOnCore_index {st : SioStatics} {role : U8} {core : Core}
    (h : (st.roleLaneOnCore role core).isSome) :
    ∃ index, bakerRoleStashIndex role = some index := by
  obtain ⟨lane, hlane⟩ := Option.isSome_iff_exists.mp h
  obtain ⟨index, hindex, -⟩ := roleLaneOnCore_eq_some.mp hlane
  exact ⟨index, hindex⟩

/-- The lanes registered are those of ports, and a stash slot holds frames of its own role. -/
structure LocalInv (s : SioState) : Prop where
  txs : ∀ port tx, s.txs port = some tx → s.HasLane tx.localRole tx.lane
  lanes : ∀ role core lane, s.st.roleLaneOnCore role core = some lane → s.HasLane role lane
  stashes : ∀ core index f, s.st.frames (.stash core index) = some f →
    bakerRoleStashIndex f.peerRole = some index

theorem localInv_init : LocalInv .init where
  txs _ _ h := by cases h
  lanes role core lane h := by
    obtain ⟨index, -, hmask, -⟩ := roleLaneOnCore_eq_some.mp h
    exact absurd BitVec.zero_and hmask
  stashes _ _ _ h := by cases h

/-! ### What calls leave alone -/

/-- The registry is as it was, and a frame new to a stash slot is of its role. -/
structure Tidy (st st' : SioStatics) : Prop where
  registry : ∀ role core, st'.roleLaneOnCore role core = st.roleLaneOnCore role core
  filled : ∀ core index f, st'.frames (.stash core index) = some f →
    st.frames (.stash core index) = some f ∨ bakerRoleStashIndex f.peerRole = some index

/-- And every frame of a stash is still in its slot. -/
structure Kept (st st' : SioStatics) : Prop extends Tidy st st' where
  kept : ∀ core index f, st.frames (.stash core index) = some f →
    st'.frames (.stash core index) = some f

theorem Kept.refl (st : SioStatics) : Kept st st :=
  ⟨⟨fun _ _ => rfl, fun _ _ _ h => .inl h⟩, fun _ _ _ h => h⟩

theorem Kept.trans {st st' st'' : SioStatics} (h : Kept st st') (h' : Kept st' st'') :
    Kept st st'' where
  registry role core := (h'.registry role core).trans (h.registry role core)
  filled core index f hf := (h'.filled core index f hf).elim (h.filled core index f) .inr
  kept core index f hf := h'.kept core index f (h.kept core index f hf)

theorem kept_outbound (st : SioStatics) (core : Core) (v : Option DecodedSioFrame) :
    Kept st { st with frames := Function.update st.frames (.outbound core) v } := by
  -- a mailbox is no stash slot
  have hsame : ∀ core' index, Function.update st.frames (.outbound core) v (.stash core' index) =
      st.frames (.stash core' index) := fun _ _ => Function.update_of_ne (by simp) _ _
  refine ⟨⟨fun _ _ => rfl, fun core' index f hf => .inl ?_⟩, fun core' index f hf => ?_⟩
  · exact (hsame core' index).symm.trans hf
  · exact (hsame core' index).trans hf

/-- `stash_frame`: to the slot of the frame's role, if it is empty. -/
theorem stashFrame_ok {st st' : SioStatics} {core : Core} {f : DecodedSioFrame}
    (h : st.stashFrame core f = .ok st') : ∃ index, bakerRoleStashIndex f.peerRole = some index ∧
      st.frames (.stash core index) = none ∧
      st' = { st with frames := Function.update st.frames (.stash core index) (some f) } := by
  unfold SioStatics.stashFrame at h
  cases hindex : bakerRoleStashIndex f.peerRole with
  | none => rw [hindex] at h; cases h
  | some index =>
      rw [hindex] at h
      dsimp only at h
      cases hslot : st.frames (.stash core index) with
      | some g => rw [hslot] at h; cases h
      | none => rw [hslot] at h; cases h; exact ⟨index, rfl, hslot, rfl⟩

theorem kept_stashFrame {st st' : SioStatics} {core : Core} {f : DecodedSioFrame}
    (h : st.stashFrame core f = .ok st') : Kept st st' := by
  obtain ⟨index, hindex, hempty, rfl⟩ := stashFrame_ok h
  -- what is new is the frame stashed, and it went to an empty slot
  refine ⟨⟨fun _ _ => rfl, fun core' index' g hg => ?_⟩, fun core' index' g hg => ?_⟩
  · by_cases hp : Place.stash core' index' = .stash core index
    · cases hp
      simp only [Function.update_self, Option.some.injEq] at hg
      exact .inr (hg ▸ hindex)
    · exact .inl ((Function.update_of_ne hp _ _).symm.trans hg)
  · have hne : Place.stash core' index' ≠ .stash core index := by
      rintro ⟨⟩
      rw [hempty] at hg
      cases hg
    exact (Function.update_of_ne hne _ _).trans hg

theorem kept_publishPending (st : SioStatics) (tx : SioTx) (pending : PendingMailboxFrame) :
    Kept st (publishPending st tx pending).1 := by
  unfold publishPending SioStatics.publishMailboxFrame
  cases pending.published with
  | true => exact .refl st
  | false =>
      cases st.frames (.outbound tx.coreId) with
      | some f => exact .refl st
      | none => exact kept_outbound st _ _

theorem kept_sendMailbox (st : SioStatics) (tx : SioTx) (o : Outgoing) :
    Kept st (sendMailbox st tx o).1 := by
  unfold sendMailbox
  cases tx.pending with
  | some pending => exact kept_publishPending st tx pending
  | none =>
      dsimp only
      split
      · exact .refl st
      · exact kept_publishPending st tx _

theorem kept_sendStash (st : SioStatics) (tx : SioTx) (o : Outgoing)
    (fits : o.payload.length ≤ sioFrameBytes) (targetLane : U8) :
    Kept st (sendStash st tx o fits targetLane).1 := by
  unfold sendStash
  split
  · exact .refl st
  · rename_i hstash; exact kept_stashFrame hstash

theorem kept_sendAttached (st : SioStatics) (tx : SioTx) (o : Outgoing) :
    Kept st (sendAttached st tx o).1 := by
  unfold sendAttached
  split
  · exact .refl st
  split
  · exact .refl st
  split
  · exact kept_sendStash st tx o _ _
  · exact kept_sendMailbox st tx o

/-- The Tx of the same port. -/
def SameTx (tx tx' : SioTx) : Prop := tx'.localRole = tx.localRole ∧ tx'.lane = tx.lane

theorem sameTx_sendAttached (st : SioStatics) (tx : SioTx) (o : Outgoing) :
    SameTx tx (sendAttached st tx o).2.1 := by
  have hpublish : ∀ pending, SameTx tx (publishPending st tx pending).2.1 := by
    intro pending
    unfold publishPending
    split <;> exact ⟨rfl, rfl⟩
  unfold sendAttached sendStash sendMailbox
  split
  · exact ⟨rfl, rfl⟩
  split
  · exact ⟨rfl, rfl⟩
  split
  · split <;> exact ⟨rfl, rfl⟩
  · split
    · exact hpublish _
    · split
      · exact ⟨rfl, rfl⟩
      · exact hpublish _

theorem kept_cancelSend (st : SioStatics) (tx : SioTx) : Kept st (cancelSend st tx).1 := by
  unfold cancelSend
  cases tx.pending with
  | none => exact .refl st
  | some pending =>
      dsimp only
      split
      · exact kept_outbound st _ _
      · exact .refl st

theorem kept_takeMailboxFrame (st : SioStatics) (core : Core) :
    Kept st (st.takeMailboxFrame core).1 := by
  unfold SioStatics.takeMailboxFrame
  split
  · exact .refl st
  · exact kept_outbound st _ _

theorem kept_recvTaken (st : SioStatics) (rx : SioRx) (f : DecodedSioFrame) :
    Kept st (recvTaken st rx f).1 := by
  unfold recvTaken
  split
  · split
    · exact .refl st
    · rename_i hstash; exact kept_stashFrame hstash
  · exact .refl st

theorem kept_recvScan (st : SioStatics) (rx : SioRx) : Kept st (recvScan st rx).1 := by
  have htake := kept_takeMailboxFrame st rx.coreId
  unfold recvScan
  split
  · rename_i st' f hst'
    rw [hst'] at htake
    exact htake.trans (kept_recvTaken st' rx f)
  · rename_i hst'; rw [hst'] at htake; exact htake
  · rename_i hst'; rw [hst'] at htake; split <;> exact htake

theorem kept_recvAwait (st : SioStatics) (rx : SioRx) (timerReady : Bool) :
    Kept st (recvAwait st rx timerReady).1 := by
  have htake := kept_takeMailboxFrame st rx.coreId
  unfold recvAwait
  split
  · rename_i st' f hst'
    rw [hst'] at htake
    exact htake.trans (kept_recvTaken st' rx f)
  · rename_i hst'; rw [hst'] at htake; exact htake
  · rename_i hst'; rw [hst'] at htake; split <;> exact htake

theorem recvStash_of_empty {st : SioStatics} {rx : SioRx}
    (h : ∀ index, bakerRoleStashIndex rx.localRole = some index →
      st.frames (.stash rx.coreId index) = none) : recvStash st rx = (st, rx, .scan) := by
  unfold recvStash SioStatics.takeStashedFrame
  cases hindex : bakerRoleStashIndex rx.localRole with
  | none => rfl
  | some index => dsimp only; rw [h index hindex]; rfl

/-- A frame of the role's slot, handed out on its lane and left where it is on another. -/
theorem recvStash_of_stashed {st : SioStatics} {rx : SioRx} {index : Fin 3} {f : DecodedSioFrame}
    (hindex : bakerRoleStashIndex f.peerRole = some index) (hrole : f.peerRole = rx.localRole)
    (hslot : st.frames (.stash rx.coreId index) = some f) :
    recvStash st rx = if f.lane = rx.lane then
        ({ st with frames := Function.update st.frames (.stash rx.coreId index) none },
          deliver rx f)
      else (st, rx, .answer .pending) := by
  unfold recvStash SioStatics.takeStashedFrame
  rw [← hrole, hindex]
  dsimp only
  rw [hslot]
  by_cases hlane : f.lane = rx.lane
  · simp [hlane]
  · -- the slot was just emptied, so the frame goes back where it was
    simp only [Option.map_some, hlane, ne_eq, not_false_eq_true, if_true, if_false,
      SioStatics.stashFrame, hindex, Function.update_self, Function.update_idem]
    rw [← hslot, Function.update_eq_self]

/-- **The stash slot of a `poll_recv`**: empty, holding a frame of another lane, which stays, or
handed out. -/
theorem recvStash_cases {st : SioStatics} {rx : SioRx}
    (hstashes : ∀ core index f, st.frames (.stash core index) = some f →
      bakerRoleStashIndex f.peerRole = some index) :
    recvStash st rx = (st, rx, .scan) ∧ (∀ index, bakerRoleStashIndex rx.localRole = some index →
      st.frames (.stash rx.coreId index) = none) ∨
    ∃ index f, bakerRoleStashIndex rx.localRole = some index ∧
      st.frames (.stash rx.coreId index) = some f ∧ f.peerRole = rx.localRole ∧
      (f.lane ≠ rx.lane ∧ recvStash st rx = (st, rx, .answer .pending) ∨
        f.lane = rx.lane ∧ recvStash st rx =
          ({ st with frames := Function.update st.frames (.stash rx.coreId index) none },
            deliver rx f)) := by
  -- a role with no stash slot has nothing stashed
  by_cases hempty : ∀ index, bakerRoleStashIndex rx.localRole = some index →
      st.frames (.stash rx.coreId index) = none
  · exact .inl ⟨recvStash_of_empty hempty, hempty⟩
  · push Not at hempty
    obtain ⟨index, hindex, hslot⟩ := hempty
    obtain ⟨f, hslot⟩ := Option.ne_none_iff_exists'.mp hslot
    have hf := hstashes _ _ _ hslot
    have hrole := bakerRoleStashIndex_inj hf hindex
    refine .inr ⟨index, f, hindex, hslot, hrole, ?_⟩
    rw [recvStash_of_stashed hf hrole hslot]
    by_cases hlane : f.lane = rx.lane
    · exact .inr ⟨hlane, if_pos hlane⟩
    · exact .inl ⟨hlane, if_neg hlane⟩

theorem tidy_recvStash {st : SioStatics} {rx : SioRx}
    (hstashes : ∀ core index f, st.frames (.stash core index) = some f →
      bakerRoleStashIndex f.peerRole = some index) : Tidy st (recvStash st rx).1 := by
  obtain ⟨h, -⟩ | ⟨index, f, -, -, -, ⟨-, h⟩ | ⟨-, h⟩⟩ := @recvStash_cases _ rx hstashes
  · rw [h]; exact (Kept.refl st).toTidy
  · rw [h]; exact (Kept.refl st).toTidy
  · rw [h]
    refine ⟨fun _ _ => rfl, fun core' index' g hg => .inl ?_⟩
    by_cases hp : Place.stash core' index' = .stash rx.coreId index
    · cases hp
      simp only [Function.update_self, reduceCtorEq] at hg
    · exact (Function.update_of_ne hp _ _).symm.trans hg

/-- The Rx of the same port: its role and its lane. -/
def SamePort (rx rx' : SioRx) : Prop := rx'.localRole = rx.localRole ∧ rx'.lane = rx.lane

theorem samePort_forgetDelivered (rx : SioRx) : SamePort rx (forgetDelivered rx) :=
  ⟨(keeps_forgetDelivered rx).localRole, (keeps_forgetDelivered rx).lane⟩

theorem samePort_recvStash (st : SioStatics) (rx : SioRx) : SamePort rx (recvStash st rx).2.1 := by
  unfold recvStash
  split
  · exact ⟨rfl, rfl⟩
  split
  · split <;> exact ⟨rfl, rfl⟩
  · exact ⟨rfl, rfl⟩

theorem samePort_recvAttached (st : SioStatics) (rx : SioRx) :
    SamePort rx (recvAttached st rx).2.1 := by
  have hforget := samePort_forgetDelivered rx
  have hstash := samePort_recvStash st (forgetDelivered rx)
  have hboth : SamePort rx (recvStash st (forgetDelivered rx)).2.1 :=
    ⟨hstash.1.trans hforget.1, hstash.2.trans hforget.2⟩
  unfold recvAttached
  split
  · dsimp only
    split
    · exact ⟨rfl, rfl⟩
    · exact hboth
  · exact hboth

theorem samePort_recvTaken (st : SioStatics) (rx : SioRx) (f : DecodedSioFrame) :
    SamePort rx (recvTaken st rx f).2.1 := by
  unfold recvTaken
  split
  · split <;> exact ⟨rfl, rfl⟩
  · exact ⟨rfl, rfl⟩

theorem samePort_recvScan (st : SioStatics) (rx : SioRx) : SamePort rx (recvScan st rx).2.1 := by
  unfold recvScan
  split
  · exact samePort_recvTaken _ rx _
  · exact ⟨rfl, rfl⟩
  · split <;> exact ⟨rfl, rfl⟩

theorem samePort_recvAwait (st : SioStatics) (rx : SioRx) (timerReady : Bool) :
    SamePort rx (recvAwait st rx timerReady).2.1 := by
  unfold recvAwait
  split
  · exact samePort_recvTaken _ rx _
  · exact ⟨rfl, rfl⟩
  · split <;> exact ⟨rfl, rfl⟩

theorem tidy_recvAttached {st : SioStatics} {rx : SioRx}
    (hstashes : ∀ core index f, st.frames (.stash core index) = some f →
      bakerRoleStashIndex f.peerRole = some index) : Tidy st (recvAttached st rx).1 := by
  unfold recvAttached
  split
  · dsimp only
    split
    · exact (Kept.refl st).toTidy
    · exact tidy_recvStash hstashes
  · exact tidy_recvStash hstashes

/-! ### What is asked of a call -/

/-- **A co-located send**: its frame is put in the empty stash slot of its core and role, on a lane
the role has a port for, and the answer is `Ok`; or the slot is full, and the answer says so. -/
def StashedLocally (s : SioState) (core : Core) (tx : SioTx) (o : Outgoing) (frames : Frames)
    (answer : SendAnswer) : Prop :=
  ∃ index, bakerRoleStashIndex o.targetRole = some index ∧
    ((∃ f, s.st.frames (.stash core index) = none ∧
        frames = Function.update s.st.frames (.stash core index) (some f) ∧
        f.sent = ⟨tx.sessionId, tx.localRole, o.targetRole, o.frameLabel, o.payload⟩ ∧
        s.HasLane o.targetRole f.lane ∧ answer = .ready (.ok ())) ∨
      (s.st.frames (.stash core index)).isSome ∧ frames = s.st.frames ∧
        answer = .ready (.error .capacity))

/-- The frame of a stash slot is answered to a `poll_recv` of a port, and the slot is empty. -/
def HandedOut (s t : SioState) (core : Core) (index : Fin 3) (f : DecodedSioFrame) (port : ℕ)
    (rx : SioRx) : Prop :=
  t.st.frames (.stash core index) = none ∧
    t.ledger.delivered = s.ledger.delivered ++ [⟨port, rx.localRole, rx.lane, f.received⟩]

/-- The Rx has no frame to hand out again. -/
def NothingToRepeat (rx : SioRx) : Prop :=
  rx.frameLabel = none ∨ rx.requeued = false ∧ rx.delivered = true

structure DeliveredLocally (s : SioState) (a : SioAction) : Prop where
  /-- A send to a role opened on its core, of a payload that fits, stays on the core. -/
  stashed : ∀ core port o tx st tx' answer, a = .pollSend core port o → s.txs port = some tx →
    pollSend s.st core tx o = some (st, tx', answer) → o.targetRole ≠ tx.localRole →
    o.payload.length ≤ sioFrameBytes → s.Opened core o.targetRole →
    StashedLocally s core tx o st.frames answer
  /-- No send publishes a frame to a role opened on its core. -/
  unpublished : ∀ core port o tx st tx' answer f, a = .pollSend core port o →
    s.txs port = some tx → pollSend s.st core tx o = some (st, tx', answer) →
    st.frames (.outbound core) = some f →
    s.st.frames (.outbound core) = some f ∨ ¬ s.Opened core f.peerRole
  /-- A frame leaves its stash slot only to a port of its role and lane, polled on that core. -/
  kept : ∀ t core index f, sioMachine.next s a = some t →
    s.st.frames (.stash core index) = some f → t.st.frames (.stash core index) = some f ∨
    ∃ port rx, a = .pollRecv core port ∧ s.rxs port = some rx ∧ rx.localRole = f.peerRole ∧
      rx.lane = f.lane ∧ HandedOut s t core index f port rx
  /-- A port of its role and lane polled there, with nothing to repeat, gets it. -/
  served : ∀ t core index f port rx, sioMachine.next s a = some t →
    s.st.frames (.stash core index) = some f → a = .pollRecv core port → s.rxs port = some rx →
    rx.localRole = f.peerRole → rx.lane = f.lane → NothingToRepeat rx →
    HandedOut s t core index f port rx

/-- **The roles a send concerns are registered**: the target, if it is opened on the sender's core;
and a Tx that kept a frame for the mailbox, to a role since opened on its core, does not go to the
mailbox. -/
def Registered (s : SioState) : SioAction → Prop
  | .pollSend core port o =>
      (s.Opened core o.targetRole → (s.st.roleLaneOnCore o.targetRole core).isSome) ∧
      (s.st.roleLaneOnCore o.targetRole core = none → ∀ tx p, s.txs port = some tx →
        tx.pending = some p → ¬ s.Opened core p.peerRole)
  | _ => True

/-! ### Sends -/

variable {s : SioState}

theorem outbound_sendStash (st : SioStatics) (tx : SioTx) (o : Outgoing)
    (fits : o.payload.length ≤ sioFrameBytes) (targetLane : U8) (core : Core) :
    (sendStash st tx o fits targetLane).1.frames (.outbound core) = st.frames (.outbound core) := by
  unfold sendStash
  split
  · rfl
  · rename_i hstash
    obtain ⟨index, -, -, rfl⟩ := stashFrame_ok hstash
    dsimp only
    exact Function.update_of_ne (by simp) _ _

/-- What goes to the mailbox: the frame kept for it, or one to the call's target. -/
theorem sendMailbox_cases (st : SioStatics) (tx : SioTx) (o : Outgoing)
    (hfits : o.payload.length ≤ sioFrameBytes) :
    (∀ e, (sendMailbox st tx o).2.2 ≠ .ready (.error e)) ∧
      ((sendMailbox st tx o).1.frames = st.frames ∨ ∃ f,
        (sendMailbox st tx o).1.frames = Function.update st.frames (.outbound tx.coreId) (some f) ∧
        (f.peerRole = o.targetRole ∨ ∃ p, tx.pending = some p ∧ f.peerRole = p.peerRole)) := by
  have hpublish : ∀ pending : PendingMailboxFrame,
      (∀ e, (publishPending st tx pending).2.2 ≠ .ready (.error e)) ∧
        ((publishPending st tx pending).1.frames = st.frames ∨
          (publishPending st tx pending).1.frames = Function.update st.frames
            (.outbound tx.coreId) (some (pending.frame tx.sessionId tx.localRole))) := by
    intro pending
    unfold publishPending SioStatics.publishMailboxFrame
    cases pending.published with
    | true => exact ⟨nofun, .inl rfl⟩
    | false =>
        cases st.frames (.outbound tx.coreId) with
        | some f => exact ⟨nofun, .inl rfl⟩
        | none => exact ⟨nofun, .inr rfl⟩
  unfold sendMailbox
  cases hpending : tx.pending with
  | some p =>
      -- the frame kept from an earlier call goes first, and this call's is not looked at
      obtain ⟨hnot, hframes⟩ := hpublish p
      exact ⟨hnot, hframes.imp_right fun h => ⟨_, h, .inr ⟨p, rfl, rfl⟩⟩⟩
  | none =>
      simp only [PendingMailboxFrame.new, dif_neg (Nat.not_lt.mpr hfits)]
      obtain ⟨hnot, hframes⟩ :=
        hpublish ⟨o.targetRole, o.frameLabel, o.lane, false, ⟨o.payload, hfits⟩⟩
      exact ⟨hnot, hframes.imp_right fun h => ⟨_, h, .inl rfl⟩⟩

/-- **A co-located send is stashed exactly when its target is registered.** -/
theorem stashedLocally_iff (hinv : LocalInv s) {core : Core} {tx tx' : SioTx} {o : Outgoing}
    {st : SioStatics} {answer : SendAnswer}
    (hsend : pollSend s.st core tx o = some (st, tx', answer))
    (hne : o.targetRole ≠ tx.localRole) (hfits : o.payload.length ≤ sioFrameBytes) :
    StashedLocally s core tx o st.frames answer ↔
      (s.st.roleLaneOnCore o.targetRole core).isSome := by
  obtain ⟨marked, hmark, hattached⟩ := Option.map_eq_some_iff.mp hsend
  have hframes := frames_markLocalRoleAttached hmark
  have hregistry := @roleLaneOnCore_markLocalRoleAttached _ _ _ core _ _ _ hmark hne
  rw [sendAttached, if_neg hne, dif_neg (Nat.not_lt.mpr hfits)] at hattached
  dsimp only at hattached
  rw [hregistry] at hattached
  cases hlane : s.st.roleLaneOnCore o.targetRole core with
  | none =>
      rw [hlane] at hattached
      dsimp only at hattached
      obtain ⟨hnoerror, hmailbox⟩ := sendMailbox_cases marked { tx with coreId := core } o hfits
      rw [hattached] at hnoerror hmailbox
      refine ⟨?_, nofun⟩
      rintro ⟨index, -, ⟨f, hempty, hst, -⟩ | ⟨-, -, hanswer⟩⟩
      · -- the mailbox path leaves every stash slot as it is
        have hslot : st.frames (.stash core index) = none := by
          rcases hmailbox with h | ⟨g, h, -⟩
          · rw [h, hframes, hempty]
          · rw [h, Function.update_of_ne (by simp), hframes, hempty]
        rw [hst, Function.update_self] at hslot
        cases hslot
      · exact absurd hanswer (hnoerror _)
  | some lane =>
      rw [hlane] at hattached
      -- only the roles of the board are ever registered, so the target has a slot
      obtain ⟨index, hindex⟩ := roleLaneOnCore_index (by rw [hlane]; rfl)
      refine ⟨fun _ => rfl, fun _ => ⟨index, hindex, ?_⟩⟩
      simp only [sendStash, SioStatics.stashFrame, hindex, hframes] at hattached
      cases hslot : s.st.frames (.stash core index) with
      | none =>
          rw [hslot] at hattached
          cases hattached
          exact .inl ⟨_, rfl, rfl, rfl, hinv.lanes _ _ _ hlane, rfl⟩
      | some f =>
          rw [hslot] at hattached
          cases hattached
          exact .inr ⟨rfl, hframes, rfl⟩

/-- **Nothing to an opened role is published.** -/
theorem unpublished_of_registered {core : Core} {port : ℕ} {tx tx' : SioTx} {o : Outgoing}
    {st : SioStatics} {answer : SendAnswer} {f : DecodedSioFrame} (hport : s.txs port = some tx)
    (hregistered : Registered s (.pollSend core port o))
    (hsend : pollSend s.st core tx o = some (st, tx', answer))
    (hf : st.frames (.outbound core) = some f) :
    s.st.frames (.outbound core) = some f ∨ ¬ s.Opened core f.peerRole := by
  obtain ⟨marked, hmark, hattached⟩ := Option.map_eq_some_iff.mp hsend
  have hframes := frames_markLocalRoleAttached hmark
  have hsame : st.frames (.outbound core) = marked.frames (.outbound core) →
      s.st.frames (.outbound core) = some f := fun h => by rw [← hframes, ← h, hf]
  rw [sendAttached] at hattached
  split at hattached
  · cases hattached; exact .inl (hsame rfl)
  rename_i hne
  split at hattached
  · cases hattached; exact .inl (hsame rfl)
  rename_i hfits
  dsimp only at hattached
  -- marking the sender attached does not register its target
  rw [roleLaneOnCore_markLocalRoleAttached hmark hne] at hattached
  cases hlane : s.st.roleLaneOnCore o.targetRole core with
  | some lane =>
      rw [hlane] at hattached
      dsimp only at hattached
      have hstash := outbound_sendStash marked { tx with coreId := core } o
        (Outgoing.payload_le hfits) lane core
      rw [hattached] at hstash
      exact .inl (hsame hstash)
  | none =>
      rw [hlane] at hattached
      dsimp only at hattached
      obtain ⟨-, hmailbox⟩ :=
        sendMailbox_cases marked { tx with coreId := core } o (Nat.not_lt.mp hfits)
      rw [hattached] at hmailbox
      rcases hmailbox with h | ⟨g, h, hg⟩
      · exact .inl (hsame (congrFun h _))
      · rw [h, Function.update_self] at hf
        obtain rfl := Option.some.inj hf
        refine .inr ?_
        rcases hg with hg | ⟨p, hp, hg⟩
        · intro hopened
          rw [hg] at hopened
          have := hregistered.1 hopened
          rw [hlane] at this
          cases this
        · rw [hg]
          exact hregistered.2 hlane tx p hport hp

/-! ### Receives -/

theorem deliver_answer {rx : SioRx} {f : DecodedSioFrame} (h : f.peerRole = rx.localRole) :
    (deliver rx f).2 = .answer (.ready (.ok f.received)) := by
  simp only [deliver, SioRx.received, stageFrame, DecodedSioFrame.received, h]

theorem recvAttached_of_nothingToRepeat (st : SioStatics) {rx : SioRx} (h : NothingToRepeat rx) :
    recvAttached st rx = recvStash st (forgetDelivered rx) := by
  unfold recvAttached
  rcases h with h | ⟨hrequeued, hdelivered⟩
  · rw [h]
  · cases rx.frameLabel with
    | none => rfl
    | some label => dsimp only; rw [hrequeued, hdelivered]; rfl

/-- A frame to be handed out again, and no place touched. -/
theorem recvAttached_of_repeat (st : SioStatics) {rx : SioRx} (h : ¬ NothingToRepeat rx) :
    (recvAttached st rx).1 = st := by
  simp only [NothingToRepeat, not_or, not_and, Bool.not_eq_true] at h
  obtain ⟨label, hlabel⟩ := Option.ne_none_iff_exists'.mp h.1
  -- this is the test the source makes before it repeats a frame
  have hrepeat : (rx.requeued || !rx.delivered) = true := by
    cases hrequeued : rx.requeued with
    | true => rfl
    | false => rw [h.2 hrequeued]; rfl
  unfold recvAttached
  rw [hlabel]
  dsimp only
  rw [if_pos hrepeat]

/-- **A `poll_recv` and a stash slot**: the frame stays, or goes to this port, which it goes to if
it is of the port's role and lane and the port has nothing to repeat. -/
theorem pollRecv_stash (hinv : LocalInv s) {core : Core} {port : ℕ} {rx rx' : SioRx}
    {st : SioStatics} {phase : RecvPhase} (hrecv : pollRecv s.st core rx = some (st, rx', phase)) :
    (st.frames = s.st.frames ∨ ∃ index f, s.st.frames (.stash core index) = some f ∧
        st.frames = Function.update s.st.frames (.stash core index) none ∧
        f.peerRole = rx.localRole ∧ f.lane = rx.lane ∧
        HandedOut s (s.received core port st rx' phase) core index f port rx) ∧
      ∀ index f, s.st.frames (.stash core index) = some f → rx.localRole = f.peerRole →
        rx.lane = f.lane → NothingToRepeat rx →
        HandedOut s (s.received core port st rx' phase) core index f port rx := by
  obtain ⟨marked, hmark, hattached⟩ := Option.map_eq_some_iff.mp hrecv
  have hframes := frames_markLocalRoleAttached hmark
  by_cases hrepeat : NothingToRepeat rx
  · have hkeeps := keeps_forgetDelivered { rx with coreId := core }
    rw [@recvAttached_of_nothingToRepeat marked { rx with coreId := core } hrepeat] at hattached
    generalize forgetDelivered { rx with coreId := core } = rx₁ at hkeeps hattached
    have hcore : rx₁.coreId = core := hkeeps.coreId
    have hrole : rx₁.localRole = rx.localRole := hkeeps.localRole
    have hlane : rx₁.lane = rx.lane := hkeeps.lane
    subst hcore
    rw [← hrole, ← hlane]
    obtain ⟨hstash, hnone⟩ | ⟨index, f, hindex, hslot, hpeer, hstash⟩ :=
      @recvStash_cases _ rx₁ (by rw [hframes]; exact hinv.stashes)
    · rw [hstash] at hattached
      cases hattached
      refine ⟨.inl hframes, fun index f hf hfrole _ _ => ?_⟩
      have hempty := hnone index (hfrole ▸ hinv.stashes _ _ _ hf)
      rw [hframes, hf] at hempty
      cases hempty
    -- a role has one stash slot on a core, so a frame for it is the one found
    have hunique : ∀ index' f', s.st.frames (.stash rx₁.coreId index') = some f' →
        rx₁.localRole = f'.peerRole → index' = index ∧ f' = f := by
      intro index' f' hf' hrole'
      obtain rfl : index' = index := Option.some.inj
        ((hinv.stashes _ _ _ hf').symm.trans (hrole' ▸ hindex))
      rw [hframes, hf'] at hslot
      exact ⟨rfl, Option.some.inj hslot⟩
    rcases hstash with ⟨hne, hstash⟩ | ⟨heq, hstash⟩
    · rw [hstash] at hattached
      cases hattached
      refine ⟨.inl hframes, fun index' f' hf' hrole' hlane' _ => ?_⟩
      obtain ⟨-, rfl⟩ := hunique index' f' hf' hrole'
      exact absurd hlane'.symm hne
    · rw [hstash] at hattached
      cases hattached
      rw [hframes] at hslot
      have hhanded : HandedOut s (s.received rx₁.coreId port
          { marked with frames := Function.update marked.frames (.stash rx₁.coreId index) none }
          (deliver rx₁ f).1 (deliver rx₁ f).2) rx₁.coreId index f port rx := by
        refine ⟨Function.update_self _ _ _, ?_⟩
        have hvanished := @vanished_of_clear s.st
          { marked with frames := Function.update marked.frames (.stash rx₁.coreId index) none }
          _ f hslot (by rw [hframes])
        simp only [SioState.received, deliver_answer hpeer, Ledger.noteRecv, hvanished]
        rw [if_neg (by simp), ← hrole, ← hlane]
        rfl
      refine ⟨.inr ⟨index, f, hslot, by rw [hframes], hpeer, heq, hhanded⟩, ?_⟩
      intro index' f' hf' hrole' _ _
      obtain ⟨rfl, rfl⟩ := hunique index' f' (by rw [hf']) hrole'
      exact hhanded
  · have hst := @recvAttached_of_repeat marked { rx with coreId := core } hrepeat
    rw [hattached] at hst
    subst hst
    exact ⟨.inl hframes, fun _ _ _ _ _ h => absurd h hrepeat⟩

/-! ### The invariant -/

/-- No port is closed, or changes its role or lane. -/
def PortsStay (s t : SioState) : Prop :=
  ∀ port rx, s.rxs port = some rx → ∃ rx', t.rxs port = some rx' ∧ SamePort rx rx'

theorem SioState.HasLane.stays {t : SioState} {role lane : U8} (h : s.HasLane role lane)
    (hports : PortsStay s t) : t.HasLane role lane := by
  obtain ⟨port, rx, hport, hrole, hlane⟩ := h
  obtain ⟨rx', hport', hsame⟩ := hports port rx hport
  exact ⟨port, rx', hport', hsame.1.trans hrole, hsame.2.trans hlane⟩

/-- One port's Rx changed, or a port opened where none was. -/
theorem portsStay_update {t : SioState} {port : ℕ} {rx' : SioRx}
    (hport : ∀ rx, s.rxs port = some rx → SamePort rx rx')
    (ht : t.rxs = Function.update s.rxs port (some rx')) : PortsStay s t := by
  intro port' rx hrx
  rw [ht]
  by_cases hp : port' = port
  · subst hp
    exact ⟨rx', Function.update_self _ _ _, hport rx hrx⟩
  · exact ⟨rx, (Function.update_of_ne hp _ _).trans hrx, rfl, rfl⟩

/-- What a state needs after a call on statics the port's role may have been marked in. -/
theorem LocalInv.after {t : SioState} (h : LocalInv s) {marked : SioStatics}
    (hmarked : Kept s.st marked ∨ ∃ core role lane,
      s.st.markLocalRoleAttached core role lane = some marked ∧ t.HasLane role lane)
    (hst : Tidy marked t.st) (hports : PortsStay s t)
    (htxs : ∀ port tx, t.txs port = some tx → t.HasLane tx.localRole tx.lane) : LocalInv t where
  txs := htxs
  lanes role core lane hlane := by
    rw [hst.registry] at hlane
    rcases hmarked with hmarked | ⟨core', role', lane', hmark, hhas⟩
    · rw [hmarked.registry] at hlane
      exact (h.lanes _ _ _ hlane).stays hports
    · -- the lane is the one just marked, or was there before
      rcases roleLaneOnCore_of_mark hmark hlane with ⟨rfl, -, rfl⟩ | hbefore
      · exact hhas
      · exact (h.lanes _ _ _ hbefore).stays hports
  stashes core index f hf := by
    rcases hst.filled core index f hf with hf | hf
    · rcases hmarked with hmarked | ⟨core', role', lane', hmark, -⟩
      · exact (hmarked.filled core index f hf).elim (h.stashes core index f) id
      · rw [frames_markLocalRoleAttached hmark] at hf
        exact h.stashes _ _ _ hf
    · exact hf

/-- The ports' Tx after one of them changed, and not in its role or lane. -/
theorem txs_update {t : SioState} (h : LocalInv s) (hports : PortsStay s t) {port : ℕ} {tx : SioTx}
    (htx : t.HasLane tx.localRole tx.lane) (ht : t.txs = Function.update s.txs port (some tx)) :
    ∀ port' tx', t.txs port' = some tx' → t.HasLane tx'.localRole tx'.lane := by
  rw [ht]
  exact forall_update (P := fun _ tx => t.HasLane tx.localRole tx.lane)
    (fun port' tx' htx' => (h.txs port' tx' htx').stays hports) htx

/-- A port is opened, and its role marked or nobody's. -/
theorem LocalInv.opened (h : LocalInv s) {port : ℕ} {st : SioStatics} {tx : SioTx} {rx : SioRx}
    (hport : (s.rxs port).isNone) (hrole : tx.localRole = rx.localRole) (hlane : tx.lane = rx.lane)
    (hmarked : st = s.st ∨ ∃ core, s.st.markLocalRoleAttached core rx.localRole rx.lane = some st) :
    LocalInv (s.opened port st tx rx) := by
  have hports : PortsStay s (s.opened port st tx rx) := portsStay_update
    (fun rx hrx => by rw [Option.isNone_iff_eq_none.mp hport] at hrx; cases hrx) rfl
  have hhas : (s.opened port st tx rx).HasLane rx.localRole rx.lane :=
    ⟨port, rx, Function.update_self _ _ _, rfl, rfl⟩
  refine h.after ?_ (Kept.refl st).toTidy hports
    (txs_update h hports (by rw [hrole, hlane]; exact hhas) rfl)
  rcases hmarked with rfl | ⟨core, hmark⟩
  · exact .inl (.refl _)
  · exact .inr ⟨core, _, _, hmark, hhas⟩

/-- A part of a `poll_recv`, on statics the port's role may have been marked in. -/
theorem LocalInv.received (h : LocalInv s) {core : Core} {port : ℕ} {rx rx' : SioRx}
    {marked st : SioStatics} {phase : RecvPhase} (hport : s.rxs port = some rx)
    (hmarked : marked = s.st ∨
      s.st.markLocalRoleAttached core rx.localRole rx.lane = some marked)
    (hsame : SamePort rx rx') (hst : Tidy marked st) :
    LocalInv (s.received core port st rx' phase) := by
  have hports : PortsStay s (s.received core port st rx' phase) :=
    portsStay_update (fun rx₁ hrx₁ => Option.some.inj (hport.symm.trans hrx₁) ▸ hsame) rfl
  have hhas : s.HasLane rx.localRole rx.lane := ⟨port, rx, hport, rfl, rfl⟩
  refine h.after ?_ hst hports fun port' tx' htx' => (h.txs port' tx' htx').stays hports
  rcases hmarked with rfl | hmark
  · exact .inl (.refl _)
  · exact .inr ⟨core, _, _, hmark, hhas.stays hports⟩

/-- **The step lemma.** -/
theorem localInv_step (a : SioAction) (t : SioState) (h : LocalInv s)
    (hstep : sioMachine.next s a = some t) : LocalInv t := by
  cases sioStep_cases hstep with
  | @opened core port as st _ _ hrxs hmark => exact h.opened hrxs rfl rfl (.inr ⟨core, hmark⟩)
  | openedXor _ _ hrxs => exact h.opened hrxs rfl rfl (.inl rfl)
  | @sent core port o tx st tx' answer _ hport hsend =>
      obtain ⟨marked, hmark, hattached⟩ := Option.map_eq_some_iff.mp hsend
      have hkept := kept_sendAttached marked { tx with coreId := core } o
      have hsame := sameTx_sendAttached marked { tx with coreId := core } o
      rw [hattached] at hkept hsame
      have hhas : s.HasLane tx'.localRole tx'.lane := by
        rw [hsame.1, hsame.2]; exact h.txs port tx hport
      have hports : PortsStay s (s.sent port o st tx' answer) := fun _ rx hrx => ⟨rx, hrx, rfl, rfl⟩
      exact h.after (.inr ⟨core, _, _, hmark, (h.txs port tx hport).stays hports⟩) hkept.toTidy
        hports (txs_update h hports (hhas.stays hports) rfl)
  | @cancelled core port tx _ hport =>
      have hports : PortsStay s (s.cancelled port (cancelSend s.st tx).1 (cancelSend s.st tx).2) :=
        fun _ rx hrx => ⟨rx, hrx, rfl, rfl⟩
      have hhas : s.HasLane (cancelSend s.st tx).2.localRole (cancelSend s.st tx).2.lane :=
        h.txs port tx hport
      exact h.after (.inl (.refl _)) (kept_cancelSend s.st tx).toTidy hports
        (txs_update h hports (hhas.stays hports) rfl)
  | @received core port rx st rx' phase _ hport hrecv =>
      obtain ⟨marked, hmark, hattached⟩ := Option.map_eq_some_iff.mp hrecv
      have hsame := samePort_recvAttached marked { rx with coreId := core }
      have htidy := @tidy_recvAttached marked { rx with coreId := core }
        (by rw [frames_markLocalRoleAttached hmark]; exact h.stashes)
      rw [hattached] at hsame htidy
      exact h.received hport (.inr hmark) hsame htidy
  | @scanned core timerReady port rx _ hport =>
      exact h.received hport (.inl rfl) (samePort_recvScan s.st rx) (kept_recvScan s.st rx).toTidy
  | @awaited core timerReady port rx _ hport =>
      exact h.received hport (.inl rfl) (samePort_recvAwait s.st rx timerReady)
        (kept_recvAwait s.st rx timerReady).toTidy
  | @requeued core port rx _ hport =>
      have hports : PortsStay s (s.requeued port (requeue rx)) :=
        portsStay_update
          (fun rx₁ hrx₁ => Option.some.inj (hport.symm.trans hrx₁) ▸ ⟨rfl, rfl⟩) rfl
      exact h.after (.inl (.refl _)) (Kept.refl _).toTidy hports
        fun port' tx' htx' => (h.txs port' tx' htx').stays hports

/-! ### The result -/

/-- **One step.** -/
theorem deliveredLocally_of_registered (a : SioAction) (h : LocalInv s)
    (hregistered : Registered s a) : DeliveredLocally s a where
  stashed core port o tx st tx' answer ha _ hsend hne hfits hopened := by
    subst ha
    exact (stashedLocally_iff h hsend hne hfits).mpr (hregistered.1 hopened)
  unpublished core port o tx st tx' answer f ha hport hsend hf := by
    subst ha
    exact unpublished_of_registered hport hregistered hsend hf
  kept t core index f hstep hf := by
    cases sioStep_cases hstep with
    | opened _ _ _ hmark => exact .inl ((congrFun (frames_markLocalRoleAttached hmark) _).trans hf)
    | openedXor => exact .inl hf
    | @sent core' port o tx st tx' answer _ _ hsend =>
        obtain ⟨marked, hmark, hattached⟩ := Option.map_eq_some_iff.mp hsend
        have hkept := kept_sendAttached marked { tx with coreId := core' } o
        rw [hattached] at hkept
        exact .inl (hkept.kept core index f
          ((congrFun (frames_markLocalRoleAttached hmark) _).trans hf))
    | @cancelled core' port tx _ _ => exact .inl ((kept_cancelSend s.st tx).kept core index f hf)
    | @received core' port rx st rx' phase _ hport hrecv =>
        obtain ⟨hmoved, -⟩ := @pollRecv_stash _ h _ port _ _ _ _ hrecv
        rcases hmoved with hsame | ⟨index', f', hslot, hst, hrole, hlane, hhanded⟩
        · exact .inl ((congrFun hsame _).trans hf)
        · -- the poll took a frame from one slot; this is it, or it is another
          by_cases hp : Place.stash core index = .stash core' index'
          · cases hp
            obtain rfl := Option.some.inj (hslot.symm.trans hf)
            exact .inr ⟨port, rx, rfl, hport, hrole.symm, hlane.symm, hhanded⟩
          · exact .inl (((congrFun hst _).trans (Function.update_of_ne hp _ _)).trans hf)
    | @scanned core' timerReady port rx _ _ =>
        exact .inl ((kept_recvScan s.st rx).kept core index f hf)
    | @awaited core' timerReady port rx _ _ =>
        exact .inl ((kept_recvAwait s.st rx timerReady).kept core index f hf)
    | requeued => exact .inl hf
  served t core index f port rx hstep hf ha hport hrole hlane hrepeat := by
    subst ha
    cases sioStep_cases hstep with
    | received _ hport' hrecv =>
        obtain rfl := Option.some.inj (hport.symm.trans hport')
        exact (@pollRecv_stash _ h _ port _ _ _ _ hrecv).2 index f hf hrole hlane hrepeat

/-- **Co-located frames stay on their core**, in every run whose sends find the roles they concern
registered: each is put in the stash slot of its core and role, and leaves it to a port of that
role polled there. -/
theorem delivered_locally (as : List SioAction)
    (hregistered : sioMachine.Along Registered .init as) :
    sioMachine.Along DeliveredLocally .init as :=
  Machine.along_of_invariant (I := LocalInv) (fun _ a t h _ hstep => localInv_step a t h hstep)
    (fun _ a h hr => deliveredLocally_of_registered a h hr) localInv_init hregistered

/-- Roles 0 and 1 opened on core 0 the way the images open them. -/
def coLocated : List SioAction :=
  [.openWithTxSessionXor .core0 0 { localRole := 0, sessionId := 42, lane := 1 } 0 0,
    .openWithTxSessionXor .core0 1 { localRole := 1, sessionId := 42, lane := 1 } 0 0]

def coLocatedSend : SioAction :=
  .pollSend .core0 0 { targetRole := 1, frameLabel := 5, lane := 1, payload := [1] }

/-- Every send finds its target registered, opened there or not. -/
def TargetRegistered (s : SioState) : SioAction → Prop
  | .pollSend core _ o => (s.st.roleLaneOnCore o.targetRole core).isSome
  | _ => True

instance (s : SioState) : ∀ a, Decidable (TargetRegistered s a)
  | .pollSend core _ o => inferInstanceAs (Decidable (s.st.roleLaneOnCore o.targetRole core).isSome)
  | .open _ _ _ | .openWithTxSessionXor _ _ _ _ _ | .cancelSend _ _ | .pollRecv _ _
  | .recvTurn _ _ | .requeue _ _ => isTrue trivial

theorem TargetRegistered.registered (s : SioState) :
    ∀ a, TargetRegistered s a → Registered s a
  | .pollSend _ _ _, h => ⟨fun _ => h, fun hnone => by rw [TargetRegistered, hnone] at h; cases h⟩
  | .open _ _ _, _ | .openWithTxSessionXor _ _ _ _ _, _ | .cancelSend _ _, _ | .pollRecv _ _, _
  | .recvTurn _ _, _ | .requeue _ _, _ => trivial

/-- Role 1 polls first, and the send reaches it. -/
theorem delivered_locally_polled :
    (sioMachine.exec .init (coLocated ++ [.pollRecv .core0 1, .recvTurn .core0 false,
        coLocatedSend, .pollRecv .core0 1])).map (fun s => s.ledger.delivered) =
      some [⟨1, 1, 1, ⟨⟨42, 1, 0, 1, 5⟩, [1]⟩⟩] ∧
    sioMachine.Along DeliveredLocally .init (coLocated ++ [.pollRecv .core0 1,
      .recvTurn .core0 false, coLocatedSend, .pollRecv .core0 1]) := by
  have hregistered : sioMachine.Along TargetRegistered .init (coLocated ++ [.pollRecv .core0 1,
      .recvTurn .core0 false, coLocatedSend, .pollRecv .core0 1]) := by decide +kernel
  exact ⟨by decide +kernel,
    delivered_locally _ (Machine.Along.mono TargetRegistered.registered hregistered)⟩

/-- The mailbox of a core before and after a send. -/
def SioState.mailboxAfter (s : SioState) (core : Core) (port : ℕ) (o : Outgoing) :
    Option (Option ReceivedFrame × Option ReceivedFrame) :=
  (s.txs port).bind fun tx => (pollSend s.st core tx o).map fun sent =>
    ((s.st.frames (.outbound core)).map DecodedSioFrame.received,
      (sent.1.frames (.outbound core)).map DecodedSioFrame.received)

theorem not_deliveredLocally {s : SioState} {core : Core} {port : ℕ} {o : Outgoing}
    {r : ReceivedFrame} (hmailbox : s.mailboxAfter core port o = some (none, some r))
    (hopened : s.Opened core r.header.peerRole) : ¬ DeliveredLocally s (.pollSend core port o) := by
  obtain ⟨tx, hport, hmailbox⟩ := Option.bind_eq_some_iff.mp hmailbox
  obtain ⟨⟨st, tx', answer⟩, hsend, hframes⟩ := Option.map_eq_some_iff.mp hmailbox
  obtain ⟨hbefore, hafter⟩ := Prod.mk.inj hframes
  obtain ⟨f, hf, rfl⟩ := Option.map_eq_some_iff.mp hafter
  intro h
  rcases h.unpublished core port o tx st tx' answer f rfl hport hsend hf with hold | hnot
  · rw [hold] at hbefore
    cases hbefore
  · exact hnot hopened

/-- **The first send to a role opened and not yet polled** is published to the other core. -/
theorem published_unpolled :
    ∃ s, sioMachine.exec .init coLocated = some s ∧ s.Opened .core0 1 ∧
      s.mailboxAfter .core0 0 { targetRole := 1, frameLabel := 5, lane := 1, payload := [1] } =
        some (none, some ⟨⟨42, 1, 0, 1, 5⟩, [1]⟩) ∧
      ¬ sioMachine.Along DeliveredLocally .init (coLocated ++ [coLocatedSend]) := by
  have hsome : (sioMachine.exec .init coLocated).map (fun s =>
      ((s.rxs 1).map fun rx => (rx.localRole, rx.coreId),
        s.mailboxAfter .core0 0 { targetRole := 1, frameLabel := 5, lane := 1, payload := [1] })) =
      some (some (1, .core0), some (none, some ⟨⟨42, 1, 0, 1, 5⟩, [1]⟩)) := by
    decide +kernel
  obtain ⟨s, hrun, hs⟩ := Option.map_eq_some_iff.mp hsome
  obtain ⟨hrx, hmailbox⟩ := Prod.mk.inj hs
  obtain ⟨rx, hport, hrx⟩ := Option.map_eq_some_iff.mp hrx
  obtain ⟨hrole, hcore⟩ := Prod.mk.inj hrx
  have hopened : s.Opened .core0 1 := ⟨1, rx, hport, hrole, hcore⟩
  exact ⟨s, hrun, hopened, hmailbox,
    Machine.not_along_of_exec hrun (not_deliveredLocally hmailbox hopened)⟩

end HibanaPico.Baker
