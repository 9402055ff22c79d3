import HibanaPico.Baker.System
import HibanaPico.Sio.Hand

/-!
# Baker — Steps

What the calls do to the places.  Marking a role attached touches no place; `SendStep` lists what
a `poll_send` can do and `RecvStep` what a part of a `poll_recv` can do, each with the answer.

* `sendStep_pollSend`, `recvStep_recvAttached`, `recvStep_recvScan`, `recvStep_recvAwait`: every
  call does one of these.
* `sioStep_cases`: what a step of the machine does.
-/

namespace HibanaPico.Baker
open HibanaPico.Support
open HibanaPico.Transport
open HibanaPico.Sio

/-- What the places hold. -/
abbrev Frames := Place → Option DecodedSioFrame

/-- A place can hold a role's frames: a mailbox those of any role, a stash slot its own role's. -/
def Place.Admits : Place → U8 → Prop
  | .outbound _, _ => True
  | .stash _ index, role => role.toNat = index

/-- A frame is to another role than its sender's, a role of the board, and is in a place that
can hold it. -/
structure FrameOk (p : Place) (f : DecodedSioFrame) : Prop where
  senderRole_ne : f.senderRole ≠ f.peerRole
  peerRole_lt : f.peerRole.toNat < 3
  admits : p.Admits f.peerRole

theorem bakerRoleStashIndex_eq {role : U8} {index : Fin 3}
    (h : bakerRoleStashIndex role = some index) : role.toNat = index := by
  unfold bakerRoleStashIndex at h
  split at h
  · cases h; rfl
  · cases h

theorem bakerRoleStashIndex_of_lt {role : U8} (h : role.toNat < 3) :
    bakerRoleStashIndex role = some ⟨role.toNat, h⟩ := dif_pos h

/-! ### Attaching -/

theorem frames_markLocalRoleAttached {st st' : SioStatics} {core : Core} {role lane : U8}
    (h : st.markLocalRoleAttached core role lane = some st') : st'.frames = st.frames := by
  obtain ⟨index, -, rfl⟩ := Option.map_eq_some_iff.mp h
  rfl

/-- Attaching one role leaves the others as they were. -/
theorem roleLaneOnCore_markLocalRoleAttached {st st' : SioStatics} {core core' : Core}
    {role role' lane : U8} (h : st.markLocalRoleAttached core role lane = some st')
    (hne : role' ≠ role) : st'.roleLaneOnCore role' core' = st.roleLaneOnCore role' core' := by
  obtain ⟨index, hindex, rfl⟩ := Option.map_eq_some_iff.mp h
  unfold SioStatics.roleLaneOnCore
  cases hindex' : bakerRoleStashIndex role' with
  | none => rfl
  | some index' =>
      have hne' : index' ≠ index := by
        rintro rfl
        have := bakerRoleStashIndex_eq hindex
        have := bakerRoleStashIndex_eq hindex'
        exact hne (BitVec.eq_of_toNat_eq (by omega))
      simp only [Function.update_of_ne hne']

theorem coreMask_or_and (mask : U8) {core core' : Core} (h : core' ≠ core) :
    (mask ||| coreMask core) &&& coreMask core' = mask &&& coreMask core' := by
  have hdisjoint : coreMask core &&& coreMask core' = 0 := by
    cases core <;> cases core' <;> first | exact absurd rfl h | rfl
  rw [BitVec.and_comm, BitVec.and_or_distrib_left, BitVec.and_comm,
    BitVec.and_comm _ (coreMask core), hdisjoint]
  exact BitVec.or_zero

theorem roleLaneOnCore_eq_some {st : SioStatics} {role lane : U8} {core : Core} :
    st.roleLaneOnCore role core = some lane ↔ ∃ index, bakerRoleStashIndex role = some index ∧
      st.coreMasks index &&& coreMask core ≠ 0 ∧ st.lanes index core = lane := by
  unfold SioStatics.roleLaneOnCore
  cases bakerRoleStashIndex role with
  | none => simp
  | some index => simp

/-- **A registered lane** is the one just marked, or one that was registered before. -/
theorem roleLaneOnCore_of_mark {st st' : SioStatics} {core core' : Core}
    {role role' lane lane' : U8} (h : st.markLocalRoleAttached core role lane = some st')
    (hlane : st'.roleLaneOnCore role' core' = some lane') :
    role' = role ∧ core' = core ∧ lane' = lane ∨ st.roleLaneOnCore role' core' = some lane' := by
  by_cases hrole : role' = role
  · subst hrole
    obtain ⟨index, hindex, rfl⟩ := Option.map_eq_some_iff.mp h
    obtain ⟨index', hindex', hmask, hlanes⟩ := roleLaneOnCore_eq_some.mp hlane
    obtain rfl : index = index' := Option.some.inj (hindex.symm.trans hindex')
    simp only [Function.update_self] at hmask hlanes
    by_cases hcore : core' = core
    · subst hcore
      rw [Function.update_self] at hlanes
      exact .inl ⟨rfl, rfl, hlanes.symm⟩
    · rw [coreMask_or_and _ hcore] at hmask
      rw [Function.update_of_ne hcore] at hlanes
      exact .inr (roleLaneOnCore_eq_some.mpr ⟨index, hindex, hmask, hlanes⟩)
  · rw [roleLaneOnCore_markLocalRoleAttached h hrole] at hlane
    exact .inr hlane

/-! ### The statics -/

/-- A frame stashed, or refused because its role's slot is full. -/
theorem stashFrame_cases (st : SioStatics) (core : Core) {f : DecodedSioFrame}
    (h : f.peerRole.toNat < 3) :
    (∃ index : Fin 3, f.peerRole.toNat = index ∧ st.frames (.stash core index) = none ∧
      st.stashFrame core f = .ok { st with
        frames := Function.update st.frames (.stash core index) (some f) }) ∨
    (st.blocking core f).isSome ∧ st.stashFrame core f = .error .capacity := by
  unfold SioStatics.stashFrame SioStatics.blocking
  rw [bakerRoleStashIndex_of_lt h]
  dsimp only [Option.bind_some]
  cases hslot : st.frames (.stash core ⟨f.peerRole.toNat, h⟩) with
  | none => exact .inl ⟨_, rfl, hslot, rfl⟩
  | some g => exact .inr ⟨rfl, rfl⟩

/-! ### `poll_send` -/

/-- The pending frame of a call that has not published it. -/
structure PendingOf (pending : PendingMailboxFrame) (o : Outgoing) : Prop where
  peerRole : pending.peerRole = o.targetRole
  frameLabel : pending.frameLabel = o.frameLabel
  bytes : pending.bytes.1 = o.payload

/-- A pending frame: not published, and to another role of the board than its sender's. -/
structure PendingOk (localRole : U8) (pending : PendingMailboxFrame) : Prop where
  published : pending.published = false
  peerRole_ne : pending.peerRole ≠ localRole
  peerRole_lt : pending.peerRole.toNat < 3

/-- The frame `publish_mailbox_frame` makes of a pending one. -/
def PendingMailboxFrame.frame (pending : PendingMailboxFrame) (sessionId : U32) (localRole : U8) :
    DecodedSioFrame :=
  { sessionId, senderRole := localRole, peerRole := pending.peerRole,
    frameLabel := pending.frameLabel, lane := pending.lane, payload := pending.bytes }

/-- What a `poll_send` does. -/
inductive SendStep (st : SioStatics) (tx : SioTx) (o : Outgoing) :
    Frames → SioTx → SendAnswer → Prop where
  /-- Refused.  A Tx with a pending frame of this very call is refused only when the target is on
  its core. -/
  | refused {error}
      (hwhy : o.targetRole = tx.localRole ∨ o.payload.length > sioFrameBytes ∨
        (st.roleLaneOnCore o.targetRole tx.coreId).isSome) :
      SendStep st tx o st.frames tx (.ready (.error error))
  | stashed {index f} (hattached : (st.roleLaneOnCore o.targetRole tx.coreId).isSome)
      (hempty : st.frames (.stash tx.coreId index) = none) (hindex : o.targetRole.toNat = index)
      (hne : o.targetRole ≠ tx.localRole)
      (hsent : f.sent = ⟨tx.sessionId, tx.localRole, o.targetRole, o.frameLabel, o.payload⟩) :
      SendStep st tx o (Function.update st.frames (.stash tx.coreId index) (some f)) tx
        (.ready (.ok ()))
  | published {pending} (haway : st.roleLaneOnCore o.targetRole tx.coreId = none)
      (hempty : st.frames (.outbound tx.coreId) = none)
      (hok : PendingOk tx.localRole pending)
      (hpending : tx.pending = some pending ∨ tx.pending = none ∧ PendingOf pending o) :
      SendStep st tx o (Function.update st.frames (.outbound tx.coreId)
          (some (pending.frame tx.sessionId tx.localRole)))
        { tx with pending := none } (.ready (.ok ()))
  | kept {pending} (hok : PendingOk tx.localRole pending)
      (hpending : tx.pending = some pending ∨ tx.pending = none ∧ PendingOf pending o) :
      SendStep st tx o st.frames { tx with pending := some pending } .pending

theorem sendStep_publishPending (st : SioStatics) (tx : SioTx) (o : Outgoing)
    {pending : PendingMailboxFrame} (haway : st.roleLaneOnCore o.targetRole tx.coreId = none)
    (hok : PendingOk tx.localRole pending)
    (hpending : tx.pending = some pending ∨ tx.pending = none ∧ PendingOf pending o) :
    SendStep st tx o (publishPending st tx pending).1.frames (publishPending st tx pending).2.1
      (publishPending st tx pending).2.2 := by
  unfold publishPending SioStatics.publishMailboxFrame
  rw [hok.published]
  cases hslot : st.frames (.outbound tx.coreId) with
  | some f => exact .kept hok hpending
  | none => exact .published haway hslot hok hpending

theorem sendStep_sendAttached (st : SioStatics) (tx : SioTx) (o : Outgoing)
    (hrole : o.targetRole.toNat < 3) (htx : ∀ p, tx.pending = some p → PendingOk tx.localRole p) :
    SendStep st tx o (sendAttached st tx o).1.frames (sendAttached st tx o).2.1
      (sendAttached st tx o).2.2 := by
  unfold sendAttached
  by_cases hself : o.targetRole = tx.localRole
  · rw [if_pos hself]; exact .refused (.inl hself)
  rw [if_neg hself]
  by_cases hlong : o.payload.length > sioFrameBytes
  · rw [dif_pos hlong]; exact .refused (.inr (.inl hlong))
  rw [dif_neg hlong]
  cases hlane : st.roleLaneOnCore o.targetRole tx.coreId with
  | some targetLane =>
      have hattached : (st.roleLaneOnCore o.targetRole tx.coreId).isSome := by rw [hlane]; rfl
      dsimp only [sendStash]
      obtain ⟨index, hindex, hempty, hstash⟩ | ⟨-, hstash⟩ := stashFrame_cases st tx.coreId
        (f := ⟨tx.sessionId, tx.localRole, o.targetRole, o.frameLabel, targetLane,
          ⟨o.payload, Nat.not_lt.mp hlong⟩⟩) hrole
      · rw [hstash]; exact .stashed hattached hempty hindex hself rfl
      · rw [hstash]; exact .refused (.inr (.inr hattached))
  | none =>
      dsimp only [sendMailbox]
      cases hpending : tx.pending with
      | some pending =>
          exact sendStep_publishPending st tx o hlane (htx pending hpending) (.inl hpending)
      | none =>
          rw [PendingMailboxFrame.new, dif_neg hlong]
          exact sendStep_publishPending st tx o hlane ⟨rfl, hself, hrole⟩
            (.inr ⟨hpending, rfl, rfl, rfl⟩)

/-- **`poll_send`.** -/
theorem sendStep_pollSend {st st' : SioStatics} {core : Core} {tx tx' : SioTx} {o : Outgoing}
    {answer : SendAnswer} (hrole : o.targetRole.toNat < 3)
    (htx : ∀ p, tx.pending = some p → PendingOk tx.localRole p)
    (h : pollSend st core tx o = some (st', tx', answer)) :
    ∃ marked, st.markLocalRoleAttached core tx.localRole tx.lane = some marked ∧
      SendStep marked { tx with coreId := core } o st'.frames tx' answer := by
  obtain ⟨marked, hmarked, hsend⟩ := Option.map_eq_some_iff.mp h
  have hstep := sendStep_sendAttached marked { tx with coreId := core } o hrole htx
  rw [hsend] at hstep
  exact ⟨marked, hmarked, hstep⟩

/-- **`cancel_send`** takes nothing back: a pending frame is never published. -/
theorem cancelSend_eq {st : SioStatics} {tx : SioTx}
    (htx : ∀ p, tx.pending = some p → PendingOk tx.localRole p) :
    cancelSend st tx = (st, { tx with pending := none }) := by
  unfold cancelSend
  cases hpending : tx.pending with
  | none => rfl
  | some pending => simp [(htx pending hpending).published]

/-! ### `poll_recv` -/

/-- The Rx of the same port on the same core, with the same frame in hand or none. -/
structure Keeps (rx rx' : SioRx) : Prop where
  localRole : rx'.localRole = rx.localRole
  lane : rx'.lane = rx.lane
  coreId : rx'.coreId = rx.coreId
  hand : rx'.hand = rx.hand ∨ rx'.hand = none

theorem Keeps.refl (rx : SioRx) : Keeps rx rx := ⟨rfl, rfl, rfl, .inl rfl⟩

/-- What a part of a `poll_recv` does. -/
inductive RecvStep (st : SioStatics) (rx : SioRx) : Frames → SioRx → RecvPhase → Prop where
  /-- No frame moves. -/
  | quiet {rx' phase} (hkeeps : Keeps rx rx') (hquiet : phase.Quiet) :
      RecvStep st rx st.frames rx' phase
  /-- A requeued frame, handed out again. -/
  | repeated {rx' f} (hlocalRole : rx'.localRole = rx.localRole) (hrxlane : rx'.lane = rx.lane)
      (hcoreId : rx'.coreId = rx.coreId) (hagain : rx.hand = some (f, true))
      (hhand : rx'.hand = some (f, false)) :
      RecvStep st rx st.frames rx' (.answer (.ready (.ok f)))
  | delivered {p f rx'} (hslot : st.frames p = some f) (hrole : f.peerRole = rx.localRole)
      (hlane : f.lane = rx.lane) (hlocalRole : rx'.localRole = rx.localRole)
      (hrxlane : rx'.lane = rx.lane) (hcoreId : rx'.coreId = rx.coreId)
      (hhand : rx'.hand = some (f.received, false)) :
      RecvStep st rx (Function.update st.frames p none) rx'
        (.answer (.ready (.ok f.received)))
  /-- Another role's or lane's frame, from the mailbox to its stash slot. -/
  | moved {p q f} (hslot : st.frames p = some f)
      (hempty : Function.update st.frames p none q = none) (hadmits : q.Admits f.peerRole) :
      RecvStep st rx (Function.update (Function.update st.frames p none) q (some f)) rx .scan
  /-- Another role's or lane's frame, with its stash slot full. -/
  | discarded {p f} (hslot : st.frames p = some f) (hblocking : (st.blocking rx.coreId f).isSome) :
      RecvStep st rx (Function.update st.frames p none) rx
        (.answer (.ready (.error .capacity)))

theorem RecvStep.samePort {st : SioStatics} {rx rx' : SioRx} {frames : Frames} {phase : RecvPhase}
    (h : RecvStep st rx frames rx' phase) :
    rx'.localRole = rx.localRole ∧ rx'.coreId = rx.coreId := by
  cases h with
  | quiet hkeeps _ => exact ⟨hkeeps.localRole, hkeeps.coreId⟩
  | repeated hlocalRole _ hcoreId _ _ => exact ⟨hlocalRole, hcoreId⟩
  | delivered _ _ _ hlocalRole _ hcoreId _ => exact ⟨hlocalRole, hcoreId⟩
  | moved _ _ _ => exact ⟨rfl, rfl⟩
  | discarded _ _ => exact ⟨rfl, rfl⟩

variable {st : SioStatics} (hframes : ∀ p f, st.frames p = some f → FrameOk p f)
include hframes

omit hframes in
/-- A frame taken from a place of its role and lane is handed out as it was. -/
theorem recvStep_deliver {p : Place} {f : DecodedSioFrame} {rx : SioRx} (hempty : rx.Empty)
    (hslot : st.frames p = some f) (hrole : f.peerRole = rx.localRole) (hlane : f.lane = rx.lane) :
    RecvStep st rx (Function.update st.frames p none) (deliver rx f).1 (deliver rx f).2 := by
  have hreceived : (stageFrame rx f).received f.frameLabel = f.received := by
    simp only [SioRx.received, stageFrame, DecodedSioFrame.received, hrole]
  have hhand : (stageFrame rx f).hand = some (f.received, false) := by
    rw [← hreceived]
    simp only [SioRx.hand, stageFrame, hempty.2, Option.map_some]
    rfl
  unfold deliver
  dsimp only
  rw [hreceived]
  exact .delivered hslot hrole hlane rfl rfl rfl hhand

/-- What the loop does with the frame of a mailbox. -/
theorem recvStep_recvTaken {core : Core} {f : DecodedSioFrame} {rx : SioRx} (hempty : rx.Empty)
    (hslot : st.frames (.outbound core) = some f) :
    RecvStep st rx
      (recvTaken { st with frames := Function.update st.frames (.outbound core) none } rx
        f).1.frames
      (recvTaken { st with frames := Function.update st.frames (.outbound core) none } rx f).2.1
      (recvTaken { st with frames := Function.update st.frames (.outbound core) none } rx
        f).2.2 := by
  unfold recvTaken
  split
  · obtain ⟨index, hindex, hfree, hstash⟩ | ⟨hblocking, hstash⟩ := stashFrame_cases
      { st with frames := Function.update st.frames (.outbound core) none } rx.coreId
      (hframes _ f hslot).peerRole_lt
    · rw [hstash]; exact .moved hslot hfree hindex
    · rw [hstash]
      refine .discarded hslot ?_
      -- the mailbox is not a stash slot, so taking its frame did not empty the slot
      have hsame : ∀ index, Function.update st.frames (.outbound core) none
          (.stash rx.coreId index) = st.frames (.stash rx.coreId index) :=
        fun index => Function.update_of_ne (fun e => by cases e) _ _
      simpa only [SioStatics.blocking, hsame] using hblocking
  · rename_i htargets
    simp only [not_or, not_not] at htargets
    exact recvStep_deliver hempty hslot htargets.1 htargets.2

/-- `take_mailbox_frame`: nothing there, or a frame that is not to its own sender. -/
theorem takeMailboxFrame_cases (core : Core) :
    st.takeMailboxFrame core = (st, .ok none) ∨
      ∃ f, st.frames (.outbound core.peer) = some f ∧ st.takeMailboxFrame core =
        ({ st with frames := Function.update st.frames (.outbound core.peer) none },
          .ok (some f)) := by
  unfold SioStatics.takeMailboxFrame
  cases hslot : st.frames (.outbound core.peer) with
  | none => exact .inl rfl
  | some f =>
      dsimp only
      rw [if_neg (hframes _ f hslot).senderRole_ne]
      exact .inr ⟨f, rfl, rfl⟩

/-- **The top of the loop.** -/
theorem recvStep_recvScan {rx : SioRx} (hempty : rx.Empty) :
    RecvStep st rx (recvScan st rx).1.frames (recvScan st rx).2.1 (recvScan st rx).2.2 := by
  unfold recvScan
  obtain htake | ⟨f, hslot, htake⟩ := takeMailboxFrame_cases hframes rx.coreId
  · rw [htake]
    dsimp only
    split <;> exact .quiet (.refl rx) trivial
  · rw [htake]
    exact recvStep_recvTaken hframes hempty hslot

/-- **A turn of `take_mailbox_until_deadline`.** -/
theorem recvStep_recvAwait {rx : SioRx} (hempty : rx.Empty) (timerReady : Bool) :
    RecvStep st rx (recvAwait st rx timerReady).1.frames (recvAwait st rx timerReady).2.1
      (recvAwait st rx timerReady).2.2 := by
  unfold recvAwait
  obtain htake | ⟨f, hslot, htake⟩ := takeMailboxFrame_cases hframes rx.coreId
  · rw [htake]
    dsimp only
    split <;> exact .quiet (.refl rx) trivial
  · rw [htake]
    exact recvStep_recvTaken hframes hempty hslot

/-- `take_stashed_frame`: nothing there, or a frame of the role. -/
theorem takeStashedFrame_cases (core : Core) (role : U8) :
    st.takeStashedFrame core role = none ∨
      ∃ index f, st.frames (.stash core index) = some f ∧ f.peerRole = role ∧
        st.takeStashedFrame core role =
          some ({ st with frames := Function.update st.frames (.stash core index) none }, f) := by
  unfold SioStatics.takeStashedFrame
  cases hindex : bakerRoleStashIndex role with
  | none => exact .inl rfl
  | some index =>
      dsimp only
      cases hslot : st.frames (.stash core index) with
      | none => exact .inl rfl
      | some f =>
          refine .inr ⟨index, f, hslot, BitVec.eq_of_toNat_eq ?_, rfl⟩
          rw [bakerRoleStashIndex_eq hindex]
          exact (hframes _ f hslot).admits

/-- A frame of the role's stash slot: handed out, or, on another lane, put back. -/
theorem recvStep_recvStash {rx : SioRx} (hempty : rx.Empty) :
    RecvStep st rx (recvStash st rx).1.frames (recvStash st rx).2.1 (recvStash st rx).2.2 := by
  unfold recvStash
  obtain htake | ⟨index, f, hslot, hrole, htake⟩ :=
    takeStashedFrame_cases hframes rx.coreId rx.localRole
  · rw [htake]
    exact .quiet (.refl rx) trivial
  rw [htake]
  dsimp only
  split
  · obtain ⟨index', hindex', -, hstash⟩ | ⟨hblocking, -⟩ := stashFrame_cases
      { st with frames := Function.update st.frames (.stash rx.coreId index) none } rx.coreId
      (hframes _ f hslot).peerRole_lt
    · obtain rfl : index = index' :=
        Fin.ext ((hframes _ f hslot).admits.symm.trans hindex')
      rw [hstash]
      dsimp only
      rw [Function.update_idem, ← hslot, Function.update_eq_self]
      exact .quiet (.refl rx) trivial
    · -- the slot was just emptied
      have hindex := (hframes _ f hslot).admits
      have hnone : SioStatics.blocking
          { st with frames := Function.update st.frames (.stash rx.coreId index) none }
          rx.coreId f = none := by
        unfold SioStatics.blocking
        rw [bakerRoleStashIndex_of_lt (hframes _ f hslot).peerRole_lt, Option.bind_some]
        rw [show (⟨f.peerRole.toNat, _⟩ : Fin 3) = index from Fin.ext hindex]
        exact Function.update_self _ _ _
      rw [hnone] at hblocking
      cases hblocking
  · rename_i hlane
    exact recvStep_deliver hempty hslot hrole (not_not.mp hlane)

omit hframes in
theorem keeps_forgetDelivered (rx : SioRx) : Keeps rx (forgetDelivered rx) := by
  unfold forgetDelivered
  split
  · exact ⟨rfl, rfl, rfl, .inr rfl⟩
  · exact .refl rx

/-- **`poll_recv`, up to its loop.** -/
theorem recvStep_recvAttached {rx : SioRx} (hsettled : rx.Settled) :
    ∃ rx₁, Keeps rx rx₁ ∧
      RecvStep st rx₁ (recvAttached st rx).1.frames (recvAttached st rx).2.1
        (recvAttached st rx).2.2 := by
  have hforget : ∀ _ : rx.frameLabel = none ∨ ¬ (rx.requeued || !rx.delivered) = true,
      RecvStep st (forgetDelivered rx) (recvStash st (forgetDelivered rx)).1.frames
        (recvStash st (forgetDelivered rx)).2.1 (recvStash st (forgetDelivered rx)).2.2 :=
    fun hfree => recvStep_recvStash hframes (empty_forgetDelivered hsettled hfree).2.1
  unfold recvAttached
  cases hlabel : rx.frameLabel with
  | none => exact ⟨_, keeps_forgetDelivered rx, hforget (.inl hlabel)⟩
  | some label =>
      dsimp only
      split
      · rename_i hagain
        refine ⟨rx, .refl rx, .repeated rfl rfl rfl ?_ ?_⟩
        · rw [SioRx.hand, hlabel, hagain]
          rfl
        · rfl
      · rename_i hfree
        exact ⟨_, keeps_forgetDelivered rx, hforget (.inr hfree)⟩

/-! ### The steps of the machine -/

/-- What a step of the machine does. -/
inductive SioStep (s : SioState) : SioAction → SioState → Prop where
  | opened {core port as st} (hfree : s.Free core) (htxs : (s.txs port).isNone)
      (hrxs : (s.rxs port).isNone)
      (hmark : s.st.markLocalRoleAttached core as.localRole as.lane = some st) :
      SioStep s (.open core port as)
        (s.opened port st
          { localRole := as.localRole, coreId := core, lane := as.lane,
            sessionId := as.sessionId, pending := none }
          (.new as.localRole as.sessionId as.lane 0 core))
  | openedXor {core port as txSessionXor operationalDeadlineTicks} (hfree : s.Free core)
      (htxs : (s.txs port).isNone) (hrxs : (s.rxs port).isNone) :
      SioStep s (.openWithTxSessionXor core port as txSessionXor operationalDeadlineTicks)
        (s.opened port s.st
          (openWithTxSessionXor core as txSessionXor operationalDeadlineTicks).1
          (openWithTxSessionXor core as txSessionXor operationalDeadlineTicks).2)
  | sent {core port o tx st tx' answer} (hfree : s.Free core) (htx : s.txs port = some tx)
      (hsend : pollSend s.st core tx o = some (st, tx', answer)) :
      SioStep s (.pollSend core port o) (s.sent port o st tx' answer)
  | cancelled {core port tx} (hfree : s.Free core) (htx : s.txs port = some tx) :
      SioStep s (.cancelSend core port)
        (s.cancelled port (cancelSend s.st tx).1 (cancelSend s.st tx).2)
  | received {core port rx st rx' phase} (howns : s.Owns core port) (hrx : s.rxs port = some rx)
      (hrecv : pollRecv s.st core rx = some (st, rx', phase)) :
      SioStep s (.pollRecv core port) (s.received core port st rx' phase)
  | scanned {core timerReady port rx} (hbusy : s.busy core = some (port, false))
      (hrx : s.rxs port = some rx) :
      SioStep s (.recvTurn core timerReady)
        (s.received core port (recvScan s.st rx).1 (recvScan s.st rx).2.1 (recvScan s.st rx).2.2)
  | awaited {core timerReady port rx} (hbusy : s.busy core = some (port, true))
      (hrx : s.rxs port = some rx) :
      SioStep s (.recvTurn core timerReady)
        (s.received core port (recvAwait s.st rx timerReady).1 (recvAwait s.st rx timerReady).2.1
          (recvAwait s.st rx timerReady).2.2)
  | requeued {core port rx} (howns : s.Owns core port) (hrx : s.rxs port = some rx) :
      SioStep s (.requeue core port) (s.requeued port (requeue rx))

omit hframes in
theorem sioStep_cases {s t : SioState} {a : SioAction} (h : sioMachine.next s a = some t) :
    SioStep s a t := by
  cases a with
  | «open» core port as =>
      obtain ⟨⟨hfree, htxs, hrxs⟩, h⟩ := Option.ite_none_right_eq_some.mp h
      obtain ⟨⟨st, tx, rx⟩, hopen, rfl⟩ := Option.map_eq_some_iff.mp h
      obtain ⟨marked, hmark, hopen⟩ := Option.map_eq_some_iff.mp hopen
      cases hopen
      exact .opened hfree htxs hrxs hmark
  | openWithTxSessionXor core port as txSessionXor operationalDeadlineTicks =>
      obtain ⟨⟨hfree, htxs, hrxs⟩, h⟩ := Option.ite_none_right_eq_some.mp h
      cases h
      exact .openedXor hfree htxs hrxs
  | pollSend core port o =>
      obtain ⟨hfree, h⟩ := Option.ite_none_right_eq_some.mp h
      obtain ⟨tx, htx, h⟩ := Option.bind_eq_some_iff.mp h
      obtain ⟨⟨st, tx', answer⟩, hsend, rfl⟩ := Option.map_eq_some_iff.mp h
      exact .sent hfree htx hsend
  | cancelSend core port =>
      obtain ⟨hfree, h⟩ := Option.ite_none_right_eq_some.mp h
      obtain ⟨tx, htx, rfl⟩ := Option.map_eq_some_iff.mp h
      exact .cancelled hfree htx
  | pollRecv core port =>
      obtain ⟨howns, h⟩ := Option.ite_none_right_eq_some.mp h
      obtain ⟨rx, hrx, h⟩ := Option.bind_eq_some_iff.mp h
      obtain ⟨⟨st, rx', phase⟩, hrecv, rfl⟩ := Option.map_eq_some_iff.mp h
      exact .received howns hrx hrecv
  | recvTurn core timerReady =>
      obtain ⟨⟨port, awaiting⟩, hbusy, h⟩ := Option.bind_eq_some_iff.mp h
      obtain ⟨rx, hrx, rfl⟩ := Option.map_eq_some_iff.mp h
      cases awaiting with
      | false => exact .scanned hbusy hrx
      | true => exact .awaited hbusy hrx
  | requeue core port =>
      obtain ⟨howns, h⟩ := Option.ite_none_right_eq_some.mp h
      obtain ⟨rx, hrx, rfl⟩ := Option.map_eq_some_iff.mp h
      exact .requeued howns hrx

end HibanaPico.Baker
