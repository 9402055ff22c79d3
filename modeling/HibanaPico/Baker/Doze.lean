import HibanaPico.Baker.Steps
import HibanaPico.Sio.Doze

/-!
# Baker — Doze

The cores that wait for events, over the mailboxes.  A part of a call calls the waker of the pass
where it puts a frame in a stash slot, and `sev` where it changes a mailbox or finds it full.

* `sioCalls`: the calls, with what they wake and signal.
* `SioDid`: what a part of a call does to the places, and who hears of it.
* `NothingFor`: every place that a `poll_recv` of a role looks in is empty; `sio_heeds`.
* `sio_dozes`: no core sleeps while a frame waits for one of its tasks, or one of them could send.
-/

namespace HibanaPico.Baker
open HibanaPico.Support
open HibanaPico.Transport
open HibanaPico.Sio

/-! ### The calls -/

/-- The statics and the ports. -/
abbrev Memory := SioMemory SioStatics SioTx

/-- What a `poll_send` comes to. -/
def sendPart : SendAnswer → CallPart SioReply
  | .pending => .pending
  | .ready answer => .answered (.sent answer)

/-- `signal_peer` is called in every `poll_send` that is not refused. -/
def sendSignals : SendAnswer → Bool
  | .ready (.error _) => false
  | .ready (.ok ()) | .pending => true

/-- A turn of the loop of `poll_recv` ends at its top where it has stashed the frame it took. -/
def recvStashes : RecvPhase → Bool
  | .scan => true
  | .answer _ | .await => false

/-- A call, up to the loop of `poll_recv`. -/
def sioStart (core : Core) (m : Memory) : SioCall → Option (Did Core Memory SioReply)
  | .open port as txSessionXor =>
      if (m.txs core port).isNone ∧ (m.rxs core port).isNone then
        let (tx, rx) := openWithTxSessionXor core as txSessionXor 0
        some
          { memory :=
              { m with txs := setPort m.txs core port tx, rxs := setPort m.rxs core port rx }
            part := .answered .opened, wakes := false, signals := false, sets := fun _ => false }
      else none
  | .pollSend port o =>
      (m.txs core port).bind fun tx =>
        (pollSend m.st core tx o).map fun (st, tx, answer) =>
          { memory := { m with st, txs := setPort m.txs core port tx }
            part := sendPart answer
            wakes := decide (answer = .ready (.ok ())) &&
              (st.roleLaneOnCore o.targetRole core).isSome
            signals := sendSignals answer
            sets := fun _ => false }
  | .cancelSend port =>
      (m.txs core port).map fun tx =>
        let (st, tx') := cancelSend m.st tx
        { memory := { m with st, txs := setPort m.txs core port tx' }
          part := .answered .cancelled
          wakes := false
          signals := tx.pending.any (·.published)
          sets := fun _ => false }
  | .pollRecv port =>
      (m.rxs core port).bind fun rx =>
        (pollRecv m.st core rx).map fun (st, rx, phase) =>
          { memory := { m with st, rxs := setPort m.rxs core port rx }
            part := phasePart phase
            wakes := recvPutsBack phase
            signals := false
            sets := fun _ => false }
  | .requeue port =>
      (m.rxs core port).map fun rx =>
        { memory := { m with rxs := setPort m.rxs core port (requeue rx) }
          part := .answered .requeued, wakes := false, signals := false, sets := fun _ => false }

/-- A turn of the loop of `poll_recv`: `take_mailbox_frame` signals where it takes a frame. -/
def sioResume (core : Core) (m : Memory) : SioCall → Option (Did Core Memory SioReply)
  | .pollRecv port =>
      (m.rxs core port).map fun rx =>
        let (st, rx', phase) := recvScan m.st rx
        { memory := { m with st, rxs := setPort m.rxs core port rx' }
          part := phasePart phase
          wakes := recvStashes phase
          signals := (m.st.frames (.outbound rx.coreId.peer)).isSome
          sets := fun _ => false }
  | .open _ _ _ | .pollSend _ _ | .cancelSend _ | .requeue _ => none

def sioCalls : Calls Core Memory SioCall SioReply := ⟨sioStart, sioResume⟩

/-! ### What the calls do to the places -/

theorem stashFrame_frames {st st' : SioStatics} {core : Core} {f : DecodedSioFrame}
    (h : st.stashFrame core f = .ok st') :
    ∃ index, st'.frames = Function.update st.frames (.stash core index) (some f) := by
  unfold SioStatics.stashFrame at h
  split at h
  · cases h
  · split at h
    · cases h
    · cases h
      exact ⟨_, rfl⟩

/-- A `poll_send` that is refused leaves the places as they were. -/
theorem sendAttached_refused {st : SioStatics} {tx : SioTx} {o : Outgoing} {e : TransportError}
    (h : (sendAttached st tx o).2.2 = .ready (.error e)) :
    (sendAttached st tx o).1.frames = st.frames := by
  have hpublish (pending : PendingMailboxFrame)
      (h : (publishPending st tx pending).2.2 = .ready (.error e)) : False := by
    unfold publishPending at h
    split at h <;> cases h
  unfold sendAttached at h ⊢
  split at h
  · rename_i hself
    rw [if_pos hself]
  rename_i hself
  rw [if_neg hself]
  split at h
  · rename_i hlong
    rw [dif_pos hlong]
  rename_i hlong
  rw [dif_neg hlong]
  cases hlane : st.roleLaneOnCore o.targetRole tx.coreId with
  | some targetLane =>
      rw [hlane] at h
      simp only [sendStash] at h ⊢
      split
      · rfl
      · rename_i hstash
        rw [hstash] at h
        cases h
  | none =>
      rw [hlane] at h
      simp only [sendMailbox] at h ⊢
      cases hpending : tx.pending with
      | some pending =>
          rw [hpending] at h
          exact (hpublish pending h).elim
      | none =>
          rw [hpending] at h
          simp only at h ⊢
          split
          · rfl
          · rename_i pending hnew
            rw [hnew] at h
            exact (hpublish pending h).elim

/-- What the first part of a `poll_recv` does: it only takes from the stash of its core, unless it
puts back what it took. -/
structure Looks (st : SioStatics) (rx : SioRx) (st' : SioStatics) (rx' : SioRx)
    (phase : RecvPhase) : Prop where
  same : SameRx rx rx'
  elsewhere : ∀ p, (∀ index, p ≠ .stash rx.coreId index) → st'.frames p = st.frames p
  takes : recvPutsBack phase = false → ∀ p, st.frames p = none → st'.frames p = none
  scan : phasePart phase = .goesOn → ∀ index : Fin 3, rx.localRole.toNat = index →
    st'.frames (.stash rx.coreId index) = none
  pending : phasePart phase = .pending → recvPutsBack phase = true

theorem looks_recvStash (st : SioStatics) (rx : SioRx) :
    Looks st rx (recvStash st rx).1 (recvStash st rx).2.1 (recvStash st rx).2.2 := by
  unfold recvStash SioStatics.takeStashedFrame
  cases hindex : bakerRoleStashIndex rx.localRole with
  | none =>
      refine ⟨.refl rx, fun _ _ => rfl, fun _ _ h => h, fun _ index hrole => ?_,
        fun h => by cases h⟩
      have hlt : rx.localRole.toNat < 3 := hrole ▸ index.isLt
      cases (bakerRoleStashIndex_of_lt hlt).symm.trans hindex
  | some index =>
      dsimp only
      cases hslot : st.frames (.stash rx.coreId index) with
      | none =>
          refine ⟨.refl rx, fun _ _ => rfl, fun _ _ h => h, fun _ index' hrole => ?_,
            fun h => by cases h⟩
          obtain rfl : index = index' :=
            Fin.ext ((bakerRoleStashIndex_eq hindex).symm.trans hrole)
          exact hslot
      | some f =>
          dsimp only [Option.map_some]
          have htakes (p : Place) (hp : st.frames p = none) :
              Function.update st.frames (.stash rx.coreId index) none p = none := by
            by_cases h : p = .stash rx.coreId index
            · rw [h, Function.update_self]
            · rw [Function.update_of_ne h, hp]
          have helsewhere (p : Place) (hp : ∀ index, p ≠ .stash rx.coreId index) :
              Function.update st.frames (.stash rx.coreId index) none p = st.frames p :=
            Function.update_of_ne (hp index) _ _
          split
          · split
            · exact ⟨.refl rx, helsewhere, fun _ => htakes, (fun h => by cases h),
                fun h => by cases h⟩
            · rename_i st' hstash
              obtain ⟨index', hframes⟩ := stashFrame_frames hstash
              refine ⟨.refl rx, fun p hp => ?_, (fun h => by cases h), (fun h => by cases h),
                fun _ => rfl⟩
              rw [hframes, Function.update_of_ne (hp index')]
              exact helsewhere p hp
          · exact ⟨⟨rfl, rfl, rfl⟩, helsewhere, fun _ => htakes, (fun h => by cases h),
              fun h => by cases h⟩

theorem looks_recvAttached (st : SioStatics) (rx : SioRx) :
    Looks st rx (recvAttached st rx).1 (recvAttached st rx).2.1 (recvAttached st rx).2.2 := by
  have hforget : Looks st rx (recvStash st (forgetDelivered rx)).1
      (recvStash st (forgetDelivered rx)).2.1 (recvStash st (forgetDelivered rx)).2.2 := by
    have hsame := sameRx_forgetDelivered rx
    have hlooks := looks_recvStash st (forgetDelivered rx)
    obtain ⟨hrx, helsewhere, htakes, hscan, hpending⟩ := hlooks
    rw [hsame.coreId] at helsewhere
    rw [hsame.coreId, hsame.localRole] at hscan
    exact ⟨⟨hrx.localRole.trans hsame.localRole, hrx.coreId.trans hsame.coreId,
      hrx.ticks.trans hsame.ticks⟩, helsewhere, htakes, hscan, hpending⟩
  unfold recvAttached
  split
  · split
    · exact ⟨⟨rfl, rfl, rfl⟩, fun _ _ => rfl, fun _ _ h => h, (fun h => by cases h),
        fun h => by cases h⟩
    · exact hforget
  · exact hforget

/-- A turn of the loop with nothing in the mailbox. -/
theorem recvScan_of_none {st : SioStatics} {rx : SioRx}
    (hnone : st.frames (.outbound rx.coreId.peer) = none)
    (hticks : rx.operationalDeadlineTicks = 0) : recvScan st rx = (st, rx, .answer .pending) := by
  unfold recvScan SioStatics.takeMailboxFrame
  rw [hnone]
  dsimp only
  rw [hticks]
  rfl

theorem sameRx_recvScan (st : SioStatics) (rx : SioRx) : SameRx rx (recvScan st rx).2.1 := by
  unfold recvScan
  split
  · unfold recvTaken
    split
    · split <;> exact .refl rx
    · exact ⟨rfl, rfl, rfl⟩
  · exact .refl rx
  · split <;> exact .refl rx

/-- A turn of the loop takes from the mailbox to its core, and puts into the stash of its core. -/
theorem recvScan_elsewhere (st : SioStatics) (rx : SioRx) {p : Place} (hp : p.reader ≠ rx.coreId) :
    (recvScan st rx).1.frames p = st.frames p := by
  have hmailbox : p ≠ .outbound rx.coreId.peer := by
    rintro rfl
    exact hp rx.coreId.peer_peer
  have hstash (index : Fin 3) : p ≠ .stash rx.coreId index := by
    rintro rfl
    exact hp rfl
  unfold recvScan SioStatics.takeMailboxFrame
  cases st.frames (.outbound rx.coreId.peer) with
  | none =>
      dsimp only
      split <;> rfl
  | some f =>
      dsimp only
      split
      · rename_i hok
        split at hok
        · cases hok
        · cases hok
          unfold recvTaken
          split
          · split
            · exact Function.update_of_ne hmailbox _ _
            · rename_i hok
              obtain ⟨index, hframes⟩ := stashFrame_frames hok
              rw [hframes, Function.update_of_ne (hstash index)]
              exact Function.update_of_ne hmailbox _ _
          · exact Function.update_of_ne hmailbox _ _
      · rename_i hok
        split at hok
        · cases hok
          exact Function.update_of_ne hmailbox _ _
        · cases hok
      · rename_i hok
        split at hok <;> cases hok

/-! ### Who hears of it -/

/-- A part of a call on a core: `mine` is for the tasks of the core, `theirs` for the others. -/
structure SioDid (core : Core) (m : Memory) (d : Did Core Memory SioReply) : Prop where
  ok : SioOk d.memory
  ports : KeepsPorts m d.memory
  mine : d.Heard ∨ ∀ p, m.st.frames p = none → d.memory.st.frames p = none
  theirs : d.signals = true ∨ ∀ p, p.reader ≠ core → d.memory.st.frames p = m.st.frames p

/-- A call that is no `poll_recv` of a frame, and changes no Rx. -/
theorem SioDid.of_rxs {core : Core} {m : Memory} {d : Did Core Memory SioReply}
    (hok : SioOk m) (hrxs : d.memory.rxs = m.rxs)
    (h : d.signals = true ∨ d.memory.st.frames = m.st.frames) : SioDid core m d where
  ok c p r hr := hok c p r (hrxs ▸ hr)
  ports := keepsPorts_of_rxs hrxs
  mine := h.imp .inr fun hsame p hp => by rw [hsame]; exact hp
  theirs := h.imp id fun hsame p _ => by rw [hsame]

/-- A call that changes an Rx and nothing else. -/
theorem SioDid.of_st {core : Core} {m : Memory} {d : Did Core Memory SioReply}
    (hok : SioOk d.memory) (hst : d.memory.st = m.st) (hports : KeepsPorts m d.memory) :
    SioDid core m d where
  ok := hok
  ports := hports
  mine := .inr fun p hp => hst ▸ hp
  theirs := .inr fun p _ => by rw [hst]

theorem sioDid_start {core : Core} {m : Memory} {k : SioCall} {d : Did Core Memory SioReply}
    (hok : SioOk m) (h : sioStart core m k = some d) : SioDid core m d := by
  cases k with
  | «open» port as txSessionXor =>
      obtain ⟨⟨-, hnone⟩, h⟩ := Option.ite_none_right_eq_some.mp h
      cases h
      exact .of_st (hok.setPort rfl rfl rfl) rfl (keepsPorts_open hnone rfl)
  | pollSend port o =>
      obtain ⟨tx, -, h⟩ := Option.bind_eq_some_iff.mp h
      obtain ⟨⟨st, tx', answer⟩, hsend, rfl⟩ := Option.map_eq_some_iff.mp h
      obtain ⟨marked, hmarked, hsend⟩ := Option.map_eq_some_iff.mp hsend
      refine .of_rxs hok rfl ?_
      cases answer with
      | pending => exact .inl rfl
      | ready answer =>
          cases answer with
          | ok _ => exact .inl rfl
          | error e =>
              have hsame := sendAttached_refused (e := e) (by rw [hsend])
              rw [hsend] at hsame
              exact .inr (hsame.trans (frames_markLocalRoleAttached hmarked))
  | cancelSend port =>
      obtain ⟨tx, -, rfl⟩ := Option.map_eq_some_iff.mp h
      refine .of_rxs hok rfl ?_
      dsimp only [cancelSend]
      cases hpending : tx.pending with
      | none => exact .inr rfl
      | some pending =>
          cases hpublished : pending.published with
          | true => exact .inl hpublished
          | false =>
              refine .inr ?_
              dsimp only
              rw [hpublished]
              rfl
  | pollRecv port =>
      obtain ⟨rx, hrx, h⟩ := Option.bind_eq_some_iff.mp h
      obtain ⟨⟨st, rx', phase⟩, hrecv, rfl⟩ := Option.map_eq_some_iff.mp h
      obtain ⟨marked, hmarked, hrecv⟩ := Option.map_eq_some_iff.mp hrecv
      have hlooks := looks_recvAttached marked { rx with coreId := core }
      rw [hrecv] at hlooks
      have hframes := frames_markLocalRoleAttached hmarked
      refine ⟨hok.setPort rfl hlooks.same.coreId
        (hlooks.same.ticks.trans (hok core port rx hrx).2), 
        keepsPorts_setPort hrx rfl hlooks.same.localRole,
        ?_, .inr fun p hp => ?_⟩
      · cases hback : recvPutsBack phase with
        | true => exact .inl (.inl hback)
        | false => exact .inr fun p hp => hlooks.takes hback p (hframes ▸ hp)
      · have hne : ∀ index, p ≠ .stash core index := by
          rintro index rfl
          exact hp rfl
        exact (hlooks.elsewhere p hne).trans (by rw [hframes])
  | requeue port =>
      obtain ⟨rx, hrx, rfl⟩ := Option.map_eq_some_iff.mp h
      obtain ⟨hcore, hticks⟩ := hok core port rx hrx
      exact .of_st (hok.setPort rfl hcore hticks) rfl (keepsPorts_setPort hrx rfl rfl)

theorem sioDid_resume {core : Core} {m : Memory} {k : SioCall}
    {d : Did Core Memory SioReply} (hok : SioOk m) (h : sioResume core m k = some d) :
    SioDid core m d := by
  cases k with
  | pollRecv port =>
      obtain ⟨rx, hrx, rfl⟩ := Option.map_eq_some_iff.mp h
      obtain ⟨hcore, hticks⟩ := hok core port rx hrx
      have hsame := sameRx_recvScan m.st rx
      refine ⟨hok.setPort rfl (hsame.coreId.trans hcore) (hsame.ticks.trans hticks),
        keepsPorts_setPort hrx rfl hsame.localRole, ?_, .inr fun p hp => ?_⟩
      · cases hslot : m.st.frames (.outbound rx.coreId.peer) with
        | some f => exact .inl (.inr rfl)
        | none =>
            refine .inr fun p hp => ?_
            rw [recvScan_of_none hslot hticks]
            exact hp
      · exact recvScan_elsewhere m.st rx (hcore ▸ hp)
  | «open» => cases h
  | pollSend => cases h
  | cancelSend => cases h
  | requeue => cases h

/-- Every place that a `poll_recv` of the role on the core looks in is empty. -/
def NothingFor (st : SioStatics) (core : Core) (role : U8) : Prop :=
  ∀ p : Place, p.LookedAt core role → st.frames p = none

/-- The stash slot of the role on the core is empty. -/
def NothingStashed (st : SioStatics) (core : Core) (role : U8) : Prop :=
  ∀ index : Fin 3, role.toNat = index → st.frames (.stash core index) = none

/-- A task at a `poll_recv` that finds nothing. -/
def SioRests (core : Core) (m : Memory) (k : SioCall) : Prop :=
  AtRecv core m k (NothingFor m.st core)

/-- A task in the loop of a `poll_recv`. -/
def SioWithin (core : Core) (m : Memory) (k : SioCall) : Prop :=
  AtRecv core m k (NothingStashed m.st core)

/-- What is empty stays empty. -/
theorem NothingFor.mono {st st' : SioStatics} {core : Core} {role : U8}
    (h : NothingFor st core role)
    (hempty : ∀ p : Place, p.reader = core → st.frames p = none → st'.frames p = none) :
    NothingFor st' core role :=
  fun p hp => hempty p hp.reader (h p hp)

theorem NothingStashed.mono {st st' : SioStatics} {core : Core} {role : U8}
    (h : NothingStashed st core role)
    (hempty : ∀ p : Place, p.reader = core → st.frames p = none → st'.frames p = none) :
    NothingStashed st' core role :=
  fun index hindex => hempty (.stash core index) rfl (h index hindex)

/-- Where a first part leaves a call: a `poll_send` that waits has signalled, and a `poll_recv` that
waits before its loop has called the waker. -/
theorem sioStart_cases {core : Core} {m : Memory} {k : SioCall}
    {d : Did Core Memory SioReply} (h : sioStart core m k = some d) :
    (∃ reply, d.part = .answered reply) ∨ d.part = .pending ∧ d.Heard ∨
      d.part = .goesOn ∧ SioWithin core d.memory k := by
  cases k with
  | «open» port as txSessionXor =>
      obtain ⟨-, h⟩ := Option.ite_none_right_eq_some.mp h
      cases h
      exact .inl ⟨_, rfl⟩
  | pollSend port o =>
      obtain ⟨tx, -, h⟩ := Option.bind_eq_some_iff.mp h
      obtain ⟨⟨st, tx', answer⟩, -, rfl⟩ := Option.map_eq_some_iff.mp h
      cases answer with
      | pending => exact .inr (.inl ⟨rfl, .inr rfl⟩)
      | ready answer => exact .inl ⟨_, rfl⟩
  | cancelSend port =>
      obtain ⟨tx, -, rfl⟩ := Option.map_eq_some_iff.mp h
      exact .inl ⟨_, rfl⟩
  | pollRecv port =>
      obtain ⟨rx, -, h⟩ := Option.bind_eq_some_iff.mp h
      obtain ⟨⟨st, rx', phase⟩, hrecv, rfl⟩ := Option.map_eq_some_iff.mp h
      obtain ⟨marked, -, hrecv⟩ := Option.map_eq_some_iff.mp hrecv
      have hlooks := looks_recvAttached marked { rx with coreId := core }
      rw [hrecv] at hlooks
      cases hpart : phasePart phase with
      | answered reply => exact .inl ⟨reply, hpart⟩
      | pending => exact .inr (.inl ⟨hpart, .inl (hlooks.pending hpart)⟩)
      | goesOn =>
          refine .inr (.inr ⟨hpart, port, rx', rfl, ?_, fun index hindex => ?_⟩)
          · exact (setPort_eq ..).trans (if_pos ⟨rfl, rfl⟩)
          · exact hlooks.scan hpart index (hlooks.same.localRole ▸ hindex)
  | requeue port =>
      obtain ⟨rx, -, rfl⟩ := Option.map_eq_some_iff.mp h
      exact .inl ⟨_, rfl⟩

/-- A turn of the loop signals the frame it takes, and is pending with none. -/
theorem sioResume_cases {core : Core} {m : Memory} {k : SioCall}
    {d : Did Core Memory SioReply} (hok : SioOk m) (hwithin : SioWithin core m k)
    (h : sioResume core m k = some d) :
    d.Heard ∨ d.part = .pending ∧ SioRests core d.memory k := by
  obtain ⟨port, rx, rfl, hrx, hstash⟩ := hwithin
  obtain ⟨rx', hrx', rfl⟩ := Option.map_eq_some_iff.mp h
  obtain rfl := Option.some.inj (hrx.symm.trans hrx')
  obtain ⟨hcore, hticks⟩ := hok core port rx hrx
  cases hslot : m.st.frames (.outbound rx.coreId.peer) with
  | some f => exact .inl (.inr rfl)
  | none =>
      rw [recvScan_of_none hslot hticks]
      refine .inr ⟨rfl, port, rx, rfl, ?_, fun p hp => ?_⟩
      · exact (setPort_eq ..).trans (if_pos ⟨rfl, rfl⟩)
      · cases p with
        | outbound writer =>
            obtain rfl := hp
            exact hcore ▸ hslot
        | stash owner index =>
            obtain ⟨rfl, hindex⟩ := hp
            exact hstash index hindex

/-- **The carrier says it** when a frame comes or a mailbox is freed. -/
theorem sio_heeds : Heeds sioCalls SioOk SioWithin SioRests where
  ok core m k d hok h := (h.elim (sioDid_start hok) (sioDid_resume hok)).ok
  begun core m k d hok h hpart := by
    rcases sioStart_cases h with ⟨_, ha⟩ | ⟨hp, -⟩ | ⟨-, hwithin⟩
    · cases ha.symm.trans hpart
    · cases hp.symm.trans hpart
    · exact .inr hwithin
  goes_on core m k d hok hwithin h hpart := by
    rcases sioResume_cases hok hwithin h with hheard | ⟨hp, -⟩
    · exact .inl hheard
    · cases hp.symm.trans hpart
  started core m k d hok h hpart := by
    rcases sioStart_cases h with ⟨_, ha⟩ | ⟨-, hheard⟩ | ⟨hg, -⟩
    · cases ha.symm.trans hpart
    · exact .inl hheard
    · cases hg.symm.trans hpart
  resumed core m k d hok hwithin h hpart :=
    (sioResume_cases hok hwithin h).imp id And.right
  own core m k k' d hok h hrest := by
    have hdid := h.elim (sioDid_start hok) (sioDid_resume hok)
    exact hdid.mine.imp id fun hempty =>
      hrest.imp hdid.ports fun _ hn => hn.mono fun p _ => hempty p
  other core c m k k' d hok hne h hrest := by
    have hdid := h.elim (sioDid_start hok) (sioDid_resume hok)
    refine hdid.theirs.imp .inl fun hsame => hrest.imp hdid.ports fun _ hn => hn.mono ?_
    exact fun p hp hnone => (hsame p (hp ▸ Ne.symm hne)).trans hnone
  other_within core c m k k' d hok hne h hwithin := by
    have hdid := h.elim (sioDid_start hok) (sioDid_resume hok)
    refine hdid.theirs.imp .inl fun hsame => hwithin.imp hdid.ports fun _ hn => hn.mono ?_
    exact fun p hp hnone => (hsame p (hp ▸ Ne.symm hne)).trans hnone

/-! ### The result -/

/-- **No wake-up is lost between the cores**, whatever they poll, at every moment of every run. -/
theorem sio_dozes (E : Core → Executive SioCall SioReply) (as : List (DozingAction Core))
    (s : Dozing Core Memory SioReply)
    (h : (dozingMachine sioCalls E).exec (.init E (.init .init)) as = some s) (core : Core)
    (hasleep : (s.cpus core).stands = .asleep) : SleepsRight sioCalls E NothingFor s core :=
  sleepsRight_exec sio_heeds (sioOk_init .init) h hasleep

/-- Core 1 has gone to sleep; core 0 has published its frame, and is about to signal it. -/
theorem sio_dozes_published :
    ∃ s, (dozingMachine sioCalls tellingCores).exec (.init tellingCores (.init .init))
        (List.replicate 5 (.run .core1) ++ List.replicate 2 (.run .core0)) = some s ∧
      (s.cpus .core1).stands = .asleep ∧ (s.cpus .core0).due = true ∧
      SleepsRight sioCalls tellingCores NothingFor s .core1 := by
  have hsome : ((dozingMachine sioCalls tellingCores).exec (.init tellingCores (.init .init))
      (List.replicate 5 (.run .core1) ++ List.replicate 2 (.run .core0))).map
        (fun s => ((s.cpus .core1).stands, (s.cpus .core0).due)) = some (.asleep, true) := by
    decide +kernel
  obtain ⟨s, hrun, hs⟩ := Option.map_eq_some_iff.mp hsome
  obtain ⟨hasleep, hdue⟩ := Prod.ext_iff.mp hs
  exact ⟨s, hrun, hasleep, hdue, sio_dozes tellingCores _ s hrun .core1 hasleep⟩

end HibanaPico.Baker
