import HibanaPico.Rp2w.Stash
import HibanaPico.Sio.Doze

/-!
# Rp2w — Doze

The cores that wait for events, over the inter-core FIFOs.  A part of a call calls the waker of the
pass where it puts a frame in a stash slot, finds its FIFO full, or leaves a frame half taken; `sev`
follows only the last word of a frame.  That a sleeping core hears of the words before it is the
device's doing: a word written sets the event of the core that reads it
(`rp2040_sio_signal_peer`).

* `sioCalls`: the calls, with what they wake and signal, and what the FIFO sets.
* `SioDid`: what a part of a call does to the FIFOs and the stashes, and who hears of it.
* `NothingFor`: no word, no half a frame and no stashed frame for a role; `sio_heeds`.
* `sio_words_heard`: no core sleeps while a word waits for one of its tasks, or one of them could
  send.
-/

namespace HibanaPico.Rp2w
open HibanaPico.Support
open HibanaPico.Transport
open HibanaPico.Sio

/-! ### The calls -/

/-- The statics and the ports. -/
abbrev Memory := SioMemory SioStatics SioTx

/-- What a part of a `poll_send` comes to. -/
def sendPart : SendPhase → CallPart SioReply
  | .answer .pending => .pending
  | .answer (.ready answer) => .answered (.sent answer)
  | .push => .goesOn

/-- The waker is called in a turn of `poll_recv`: a frame is stashed, or the FIFO is empty in the
middle of one. -/
def turnWakes (st : SioStatics) (rx : SioRx) : RecvPhase → Bool
  | .scan => (taken st rx).isSome
  | .answer .pending | .await => (st.accum rx.coreId).isPartial
  | .answer (.ready _) => false

/-- A call, up to its loop. -/
def sioStart (core : Core) (m : Memory) : SioCall → Option (Did Core Memory SioReply)
  | .open port as txSessionXor =>
      if (m.txs core port).isNone ∧ (m.rxs core port).isNone then
        let (tx, rx) := openWithTxSessionXor core as txSessionXor 0
        some
          { memory :=
              { m with txs := setPort m.txs core port tx, rxs := setPort m.rxs core port rx }
            part := .answered .opened, wakes := false, signals := false, sets := fun _ => false }
      else none
  | .pollSend port o =>
      (m.txs core port).bind fun tx =>
        (pollSend m.st tx o).map fun (st, tx', phase) =>
          { memory := { m with st, txs := setPort m.txs core port tx' }
            part := sendPart phase
            wakes := decide (phase = .answer (.ready (.ok ()))) &&
              decide (tx.localRole ≠ o.targetRole)
            signals := false
            sets := fun _ => false }
  | .cancelSend port =>
      (m.txs core port).map fun tx =>
        { memory := { m with txs := setPort m.txs core port (cancelSend tx) }
          part := .answered .cancelled, wakes := false, signals := false, sets := fun _ => false }
  | .pollRecv port =>
      (m.rxs core port).map fun rx =>
        let (st, rx', phase) := pollRecv m.st rx
        { memory := { m with st, rxs := setPort m.rxs core port rx' }
          part := phasePart phase
          wakes := recvPutsBack phase
          signals := false
          sets := fun _ => false }
  | .requeue port =>
      (m.rxs core port).map fun rx =>
        { memory := { m with rxs := setPort m.rxs core port (requeue rx) }
          part := .answered .requeued, wakes := false, signals := false, sets := fun _ => false }

/-- A turn of the loop of a call, over FIFOs with `depth` words of room. -/
def sioResume (depth : ℕ) (core : Core) (m : Memory) :
    SioCall → Option (Did Core Memory SioReply)
  | .pollSend port _ =>
      (m.txs core port).map fun tx =>
        let (st, tx', phase) := sendTurn m.st depth tx
        { memory := { m with st, txs := setPort m.txs core port tx' }
          part := sendPart phase
          wakes := decide (phase = .answer .pending)
          signals := decide (phase = .answer (.ready (.ok ())))
          sets := fun c => decide (phase = .push) && decide (c = tx.coreId.peer) }
  | .pollRecv port =>
      (m.rxs core port).map fun rx =>
        let (st, rx', phase) := recvTurn m.st rx
        { memory := { m with st, rxs := setPort m.rxs core port rx' }
          part := phasePart phase
          wakes := turnWakes m.st rx phase
          signals := false
          sets := fun _ => false }
  | .open _ _ _ | .cancelSend _ | .requeue _ => none

def sioCalls (depth : ℕ) : Calls Core Memory SioCall SioReply := ⟨sioStart, sioResume depth⟩

/-! ### What the calls do to the statics -/

/-- No word, no half a frame and no stashed frame waits for the role on the core. -/
structure NothingFor (st : SioStatics) (core : Core) (role : U8) : Prop where
  fifo : st.fifo core.peer = []
  accum : (st.accum core).isPartial = false
  stash : ∀ slot : Fin 16, role.toNat = slot → st.stash core slot = none

/-- Nothing is stashed for the role on the core. -/
def NothingStashed (st : SioStatics) (core : Core) (role : U8) : Prop :=
  ∀ slot : Fin 16, role.toNat = slot → st.stash core slot = none

/-- The words are left alone, and so is the stash of the other core; the core's own only loses
frames, unless `told`. -/
structure OnlyTakes (core : Core) (told : Prop) (st st' : SioStatics) : Prop where
  fifo : st'.fifo = st.fifo
  accum : st'.accum = st.accum
  theirs : st'.stash core.peer = st.stash core.peer
  mine : told ∨ ∀ slot, st.stash core slot = none → st'.stash core slot = none

theorem OnlyTakes.refl (core : Core) (told : Prop) (st : SioStatics) : OnlyTakes core told st st :=
  ⟨rfl, rfl, rfl, .inr fun _ h => h⟩

theorem OnlyTakes.nothingFor {core : Core} {told : Prop} {st st' : SioStatics}
    (h : OnlyTakes core told st st') {role : U8} (hnone : NothingFor st core role) :
    told ∨ NothingFor st' core role :=
  h.mine.imp id fun hmine =>
    ⟨h.fifo ▸ hnone.fifo, h.accum ▸ hnone.accum,
      fun slot hslot => hmine slot (hnone.stash slot hslot)⟩

theorem setSlot_peer (st : SioStatics) (core : Core) (slot : Fin 16) (v : Option DecodedSioFrame) :
    setSlot st core slot v core.peer = st.stash core.peer :=
  Function.update_of_ne core.peer_ne _ _

/-- A slot that is emptied. -/
theorem setSlot_none {st : SioStatics} {core : Core} {slot slot' : Fin 16}
    (h : st.stash core slot' = none) : setSlot st core slot none core slot' = none := by
  unfold setSlot
  rw [Function.update_self]
  by_cases hs : slot' = slot
  · rw [hs, Function.update_self]
  · rw [Function.update_of_ne hs, h]

theorem onlyTakes_pollSend {st st' : SioStatics} {tx tx' : SioTx} {o : Outgoing}
    {phase : SendPhase} (h : pollSend st tx o = some (st', tx', phase)) :
    OnlyTakes tx.coreId (phase = .answer (.ready (.ok ())) ∧ tx.localRole ≠ o.targetRole) st
      st' := by
  obtain ⟨hfifo, haccum⟩ := pollSend_keeps h
  cases stashSend_cases h with
  | self own => exact .refl ..
  | kept other notOk same =>
      exact ⟨hfifo, haccum, by rw [same], .inr fun slot hslot => by rw [same, hslot]⟩
  | stashed other frame role near empty filled =>
      exact ⟨hfifo, haccum, by rw [filled, setSlot_peer], .inl ⟨rfl, other⟩⟩

/-- `poll_send` does not wait before its loop. -/
theorem pollSend_goes_on {st st' : SioStatics} {tx tx' : SioTx} {o : Outgoing}
    {phase : SendPhase} (h : pollSend st tx o = some (st', tx', phase)) :
    tx'.coreId = tx.coreId ∧ phase ≠ .answer .pending := by
  unfold pollSend at h
  split at h
  · cases h; exact ⟨rfl, fun e => by cases e⟩
  split at h
  · cases h; exact ⟨rfl, fun e => by cases e⟩
  obtain ⟨core, -, h⟩ := Option.map_eq_some_iff.mp h
  split at h
  · unfold sendStash at h
    split at h <;> (cases h; exact ⟨rfl, fun e => by cases e⟩)
  · unfold sendFifo at h
    split at h <;> (cases h; exact ⟨rfl, fun e => by cases e⟩)

/-- What the first part of a `poll_recv` does. -/
structure Looks (st : SioStatics) (rx : SioRx) (st' : SioStatics) (rx' : SioRx)
    (phase : RecvPhase) : Prop where
  same : SameRx rx rx'
  takes : OnlyTakes rx.coreId (recvPutsBack phase = true) st st'
  scan : phasePart phase = .goesOn → NothingStashed st' rx.coreId rx.localRole
  pending : phasePart phase = .pending → recvPutsBack phase = true

theorem looks_recvStash (st : SioStatics) (rx : SioRx) :
    Looks st rx (recvStash st rx).1 (recvStash st rx).2.1 (recvStash st rx).2.2 := by
  unfold recvStash
  cases htake : st.takeStashedFrame rx.coreId rx.localRole with
  | none =>
      refine ⟨.refl rx, .refl .., fun _ slot hslot => ?_, fun h => by cases h⟩
      have hlt : rx.localRole.toNat < 16 := hslot ▸ slot.isLt
      rw [SioStatics.takeStashedFrame, dif_pos hlt, Option.map_eq_none_iff] at htake
      obtain rfl : slot = ⟨rx.localRole.toNat, hlt⟩ := Fin.ext hslot.symm
      exact htake
  | some taken =>
      obtain ⟨st', frame⟩ := taken
      obtain ⟨hfifo, haccum⟩ := takeStashedFrame_keeps htake
      have hcleared : ∃ slot, st'.stash = setSlot st rx.coreId slot none := by
        unfold SioStatics.takeStashedFrame at htake
        split at htake
        · obtain ⟨f, -, heq⟩ := Option.map_eq_some_iff.mp htake
          cases heq
          exact ⟨_, rfl⟩
        · cases htake
      obtain ⟨slot, hcleared⟩ := hcleared
      have htakes (told : Prop) : OnlyTakes rx.coreId told st st' :=
        ⟨hfifo, haccum, by rw [hcleared, setSlot_peer], .inr fun slot' h => by
          rw [hcleared, setSlot_none h]⟩
      dsimp only
      split
      · split
        · exact ⟨.refl rx, htakes _, (fun h => by cases h), fun h => by cases h⟩
        · rename_i st'' hstash
          obtain ⟨hfifo', haccum'⟩ := stashFrame_keeps hstash
          obtain ⟨slot', -, -, hfilled⟩ := stashFrame_eq_ok hstash
          refine ⟨.refl rx, ⟨hfifo'.trans hfifo, haccum'.trans haccum, ?_, .inl rfl⟩,
            (fun h => by cases h), fun _ => rfl⟩
          rw [hfilled, setSlot_peer, hcleared, setSlot_peer]
      · exact ⟨⟨rfl, rfl, rfl⟩, htakes _, (fun h => by cases h), fun h => by cases h⟩

theorem looks_pollRecv (st : SioStatics) (rx : SioRx) :
    Looks st rx (pollRecv st rx).1 (pollRecv st rx).2.1 (pollRecv st rx).2.2 := by
  have hforget : Looks st rx (recvStash st (forgetDelivered rx)).1
      (recvStash st (forgetDelivered rx)).2.1 (recvStash st (forgetDelivered rx)).2.2 := by
    have hsame := sameRx_forgetDelivered rx
    obtain ⟨hrx, htakes, hscan, hpending⟩ := looks_recvStash st (forgetDelivered rx)
    rw [hsame.coreId] at htakes
    rw [hsame.coreId, hsame.localRole] at hscan
    exact ⟨⟨hrx.localRole.trans hsame.localRole, hrx.coreId.trans hsame.coreId,
      hrx.ticks.trans hsame.ticks⟩, htakes, hscan, hpending⟩
  unfold pollRecv
  split
  · split
    · exact ⟨⟨rfl, rfl, rfl⟩, .refl .., (fun h => by cases h), fun h => by cases h⟩
    · exact hforget
  · exact hforget

/-- A turn of the loop of `poll_recv` with no word in the FIFO. -/
theorem recvTurn_of_nil {st : SioStatics} {rx : SioRx} (hnil : st.fifo rx.coreId.peer = [])
    (hticks : rx.operationalDeadlineTicks = 0) : recvTurn st rx = (st, rx, .answer .pending) := by
  unfold recvTurn SioStatics.tryPop
  rw [hnil]
  dsimp only
  rw [hticks]
  rfl

/-- A turn that takes a word does not wait. -/
theorem recvWord_ne_pending (st : SioStatics) (rx : SioRx) (word : U32) :
    phasePart (recvWord st rx word).2.2 ≠ .pending := by
  unfold recvWord
  dsimp only
  split
  · unfold recvTaken
    split
    · split <;> exact fun h => by cases h
    · exact fun h => by cases h
  · exact fun h => by cases h
  · exact fun h => by cases h

theorem sameRx_recvTurn (st : SioStatics) (rx : SioRx) : SameRx rx (recvTurn st rx).2.1 := by
  have htaken (st : SioStatics) (frame : DecodedSioFrame) :
      SameRx rx (recvTaken st rx frame).2.1 := by
    unfold recvTaken
    split
    · split <;> exact .refl rx
    · exact ⟨rfl, rfl, rfl⟩
  unfold recvTurn
  split
  · unfold recvWord
    dsimp only
    split
    · exact htaken _ _
    · exact .refl rx
    · exact .refl rx
  · split <;> exact .refl rx

/-- A turn of the loop stashes a frame, which it says, or leaves the stash as it was. -/
theorem recvTurn_stash (st : SioStatics) (rx : SioRx) :
    turnWakes st rx (recvTurn st rx).2.2 = true ∧
        (recvTurn st rx).1.stash rx.coreId.peer = st.stash rx.coreId.peer ∨
      (recvTurn st rx).1.stash = st.stash := by
  have htook := took_turn st rx false false
  simp only [Bool.false_eq_true, if_false] at htook
  generalize htaken : taken st rx = answered at htook
  generalize (recvTurn st rx).1 = st', (recvTurn st rx).2.2 = phase at htook
  cases htook with
  | nothing quiet same => exact .inr same
  | handed fits same => exact .inr same
  | stashed misfits role empty filled =>
      exact .inl ⟨congrArg Option.isSome htaken, by rw [filled, setSlot_peer]⟩
  | lost misfits clashes same => exact .inr same

/-! ### Who hears of it -/

/-- Every port is of the core that opened it, and has no deadline. -/
def MemoryOk (m : Memory) : Prop :=
  SioOk m ∧ ∀ core port tx, m.txs core port = some tx → tx.coreId = core

theorem memoryOk_init : MemoryOk (.init .init) := ⟨sioOk_init _, fun _ _ _ h => by cases h⟩

/-- A Tx is set to one of the core. -/
theorem txs_setPort {m : Memory} (hok : MemoryOk m) {core : Core} {port : ℕ} {tx : SioTx}
    (htx : tx.coreId = core) (c : Core) (p : ℕ) (x : SioTx)
    (h : setPort m.txs core port tx c p = some x) : x.coreId = c := by
  rw [setPort_eq] at h
  split at h
  · rename_i heq
    obtain rfl := Option.some.inj h
    exact htx.trans heq.1.symm
  · exact hok.2 c p x h

/-- A part of a call on a core: `mine` is for the tasks of the core, `theirs` for the others. -/
structure SioDid (core : Core) (m : Memory) (d : Did Core Memory SioReply) : Prop where
  ok : MemoryOk d.memory
  ports : KeepsPorts m d.memory
  mine : ∀ role, NothingFor m.st core role → d.Heard ∨ NothingFor d.memory.st core role
  theirs : ∀ role, NothingFor m.st core.peer role →
    d.HeardBy core.peer ∨ NothingFor d.memory.st core.peer role
  stash : d.memory.st.stash core.peer = m.st.stash core.peer

theorem SioDid.of_takes {core : Core} {m : Memory} {d : Did Core Memory SioReply}
    (hok : MemoryOk d.memory) (hports : KeepsPorts m d.memory)
    (htakes : OnlyTakes core d.Heard m.st d.memory.st) : SioDid core m d where
  ok := hok
  ports := hports
  mine _ hnone := htakes.nothingFor hnone
  theirs _ hnone := .inr ⟨htakes.fifo ▸ hnone.fifo, htakes.accum ▸ hnone.accum,
    fun slot hslot => by rw [htakes.theirs, hnone.stash slot hslot]⟩
  stash := htakes.theirs

theorem sioDid_start {core : Core} {m : Memory} {k : SioCall} {d : Did Core Memory SioReply}
    (hok : MemoryOk m) (h : sioStart core m k = some d) : SioDid core m d := by
  cases k with
  | «open» port as txSessionXor =>
      obtain ⟨⟨-, hnone⟩, h⟩ := Option.ite_none_right_eq_some.mp h
      cases h
      exact .of_takes ⟨hok.1.setPort rfl rfl rfl, txs_setPort hok rfl⟩ (keepsPorts_open hnone rfl)
        (.refl ..)
  | pollSend port o =>
      obtain ⟨tx, htx, h⟩ := Option.bind_eq_some_iff.mp h
      obtain ⟨⟨st, tx', phase⟩, hsend, rfl⟩ := Option.map_eq_some_iff.mp h
      have hcore := hok.2 core port tx htx
      obtain ⟨hfifo, haccum, htheirs, hmine⟩ := onlyTakes_pollSend hsend
      rw [hcore] at htheirs hmine
      refine .of_takes ⟨hok.1, txs_setPort hok ((pollSend_goes_on hsend).1.trans hcore)⟩
        (keepsPorts_of_rxs rfl) ⟨hfifo, haccum, htheirs, hmine.imp ?_ id⟩
      rintro ⟨rfl, hother⟩
      exact .inl (decide_eq_true hother)
  | cancelSend port =>
      obtain ⟨tx, htx, rfl⟩ := Option.map_eq_some_iff.mp h
      exact .of_takes ⟨hok.1, txs_setPort hok (hok.2 core port tx htx)⟩ (keepsPorts_of_rxs rfl)
        (.refl ..)
  | pollRecv port =>
      obtain ⟨rx, hrx, rfl⟩ := Option.map_eq_some_iff.mp h
      obtain ⟨hcore, hticks⟩ := hok.1 core port rx hrx
      have hlooks := looks_pollRecv m.st rx
      obtain ⟨hfifo, haccum, htheirs, hmine⟩ := hlooks.takes
      rw [hcore] at htheirs hmine
      exact .of_takes ⟨hok.1.setPort rfl (hlooks.same.coreId.trans hcore)
        (hlooks.same.ticks.trans hticks), hok.2⟩
        (keepsPorts_setPort hrx rfl hlooks.same.localRole)
        ⟨hfifo, haccum, htheirs, hmine.imp .inl id⟩
  | requeue port =>
      obtain ⟨rx, hrx, rfl⟩ := Option.map_eq_some_iff.mp h
      obtain ⟨hcore, hticks⟩ := hok.1 core port rx hrx
      exact .of_takes ⟨hok.1.setPort rfl hcore hticks, hok.2⟩ (keepsPorts_setPort hrx rfl rfl)
        (.refl ..)

/-- A turn of `poll_send`: the core that reads hears of a word from the FIFO itself. -/
theorem sioDid_sendTurn {depth : ℕ} {core : Core} {m : Memory} {port : ℕ} {o : Outgoing}
    {d : Did Core Memory SioReply} (hok : MemoryOk m)
    (h : sioResume depth core m (.pollSend port o) = some d) : SioDid core m d := by
  obtain ⟨tx, htx, rfl⟩ := Option.map_eq_some_iff.mp h
  have hcore := hok.2 core port tx htx
  have hturn := sendTurn_cases m.st depth tx
  dsimp only
  generalize (sendTurn m.st depth tx).1 = st, (sendTurn m.st depth tx).2.1 = tx',
    (sendTurn m.st depth tx).2.2 = phase at hturn
  cases hturn with
  | idle hpending =>
      exact .of_takes ⟨hok.1, txs_setPort hok hcore⟩ (keepsPorts_of_rxs rfl) (.refl ..)
  | finished hpending hdone =>
      exact .of_takes ⟨hok.1, txs_setPort hok hcore⟩ (keepsPorts_of_rxs rfl) (.refl ..)
  | full hfull =>
      exact .of_takes ⟨hok.1, txs_setPort hok hcore⟩ (keepsPorts_of_rxs rfl) (.refl ..)
  | pushed hpending hmore hroom =>
      refine ⟨⟨hok.1, txs_setPort hok hcore⟩, keepsPorts_of_rxs rfl, fun role hnone => .inr ?_,
        fun role hnone => .inl (.inr ?_), rfl⟩
      · refine ⟨?_, hnone.accum, hnone.stash⟩
        dsimp only
        rw [hcore, Function.update_of_ne core.peer_ne]
        exact hnone.fifo
      · dsimp only
        rw [hcore, decide_eq_true rfl, decide_eq_true rfl]
        rfl

/-- A turn of `poll_recv`: it takes a word from the other core's FIFO. -/
theorem sioDid_recvTurn {depth : ℕ} {core : Core} {m : Memory} {port : ℕ}
    {d : Did Core Memory SioReply} (hok : MemoryOk m)
    (h : sioResume depth core m (.pollRecv port) = some d) : SioDid core m d := by
  obtain ⟨rx, hrx, rfl⟩ := Option.map_eq_some_iff.mp h
  obtain ⟨rfl, hticks⟩ := hok.1 core port rx hrx
  have hsame := sameRx_recvTurn m.st rx
  have hstash := recvTurn_stash m.st rx
  have hpeer : (recvTurn m.st rx).1.stash rx.coreId.peer = m.st.stash rx.coreId.peer := by
    rcases hstash with ⟨-, hpeer⟩ | hstash
    · exact hpeer
    · rw [hstash]
  refine ⟨⟨hok.1.setPort rfl hsame.coreId (hsame.ticks.trans hticks), hok.2⟩,
    keepsPorts_setPort hrx rfl hsame.localRole, fun role hnone => .inr ?_, fun role hnone =>
      .inr ?_, hpeer⟩
  · dsimp only
    rw [recvTurn_of_nil hnone.fifo hticks]
    exact hnone
  · rcases (recvFlow_recvTurn m.st rx).flow with ⟨hfifo, haccum⟩ | ⟨word, rest, -, hfifo, haccum⟩
    · exact ⟨hfifo ▸ hnone.fifo, haccum ▸ hnone.accum,
        fun slot hslot => by rw [hpeer, hnone.stash slot hslot]⟩
    · refine ⟨?_, ?_, fun slot hslot => by rw [hpeer, hnone.stash slot hslot]⟩
      · rw [Core.peer_peer, hfifo, Function.update_of_ne (Ne.symm rx.coreId.peer_ne)]
        exact (Core.peer_peer rx.coreId) ▸ hnone.fifo
      · rw [haccum, Function.update_of_ne rx.coreId.peer_ne]
        exact hnone.accum

theorem sioDid_resume {depth : ℕ} {core : Core} {m : Memory} {k : SioCall}
    {d : Did Core Memory SioReply} (hok : MemoryOk m) (h : sioResume depth core m k = some d) :
    SioDid core m d := by
  cases k with
  | pollSend port o => exact sioDid_sendTurn hok h
  | pollRecv port => exact sioDid_recvTurn hok h
  | «open» => cases h
  | cancelSend => cases h
  | requeue => cases h

/-- A task at a `poll_recv` that finds nothing. -/
def SioRests (core : Core) (m : Memory) (k : SioCall) : Prop :=
  AtRecv core m k (NothingFor m.st core)

/-- A task in the loop of a `poll_send`, or of a `poll_recv`. -/
def SioWithin (core : Core) (m : Memory) (k : SioCall) : Prop :=
  (∃ port o, k = .pollSend port o) ∨ AtRecv core m k (NothingStashed m.st core)

/-- Where a first part leaves a call. -/
theorem sioStart_cases {core : Core} {m : Memory} {k : SioCall} {d : Did Core Memory SioReply}
    (hok : MemoryOk m) (h : sioStart core m k = some d) :
    (∃ reply, d.part = .answered reply) ∨ d.part = .pending ∧ d.Heard ∨
      d.part = .goesOn ∧ SioWithin core d.memory k := by
  cases k with
  | «open» port as txSessionXor =>
      obtain ⟨-, h⟩ := Option.ite_none_right_eq_some.mp h
      cases h
      exact .inl ⟨_, rfl⟩
  | pollSend port o =>
      obtain ⟨tx, -, h⟩ := Option.bind_eq_some_iff.mp h
      obtain ⟨⟨st, tx', phase⟩, hsend, rfl⟩ := Option.map_eq_some_iff.mp h
      cases phase with
      | push => exact .inr (.inr ⟨rfl, .inl ⟨port, o, rfl⟩⟩)
      | answer answer =>
          cases answer with
          | ready answer => exact .inl ⟨_, rfl⟩
          | pending => exact absurd rfl (pollSend_goes_on hsend).2
  | cancelSend port =>
      obtain ⟨tx, -, rfl⟩ := Option.map_eq_some_iff.mp h
      exact .inl ⟨_, rfl⟩
  | pollRecv port =>
      obtain ⟨rx, hrx, rfl⟩ := Option.map_eq_some_iff.mp h
      have hlooks := looks_pollRecv m.st rx
      cases hpart : phasePart (pollRecv m.st rx).2.2 with
      | answered reply => exact .inl ⟨reply, hpart⟩
      | pending => exact .inr (.inl ⟨hpart, .inl (hlooks.pending hpart)⟩)
      | goesOn =>
          refine .inr (.inr ⟨hpart, .inr ⟨port, (pollRecv m.st rx).2.1, rfl, ?_, ?_⟩⟩)
          · exact (setPort_eq ..).trans (if_pos ⟨rfl, rfl⟩)
          · have hscan := hlooks.scan hpart
            rw [(hok.1 core port rx hrx).1] at hscan
            exact hlooks.same.localRole ▸ hscan
  | requeue port =>
      obtain ⟨rx, -, rfl⟩ := Option.map_eq_some_iff.mp h
      exact .inl ⟨_, rfl⟩

/-- Where a turn of a loop leaves a call: a full FIFO and half a frame call the waker. -/
theorem sioResume_cases {depth : ℕ} {core : Core} {m : Memory} {k : SioCall}
    {d : Did Core Memory SioReply} (hok : MemoryOk m) (hwithin : SioWithin core m k)
    (h : sioResume depth core m k = some d) :
    d.Heard ∨ (∃ reply, d.part = .answered reply) ∨ d.part = .pending ∧ SioRests core d.memory k ∨
      d.part = .goesOn ∧ SioWithin core d.memory k := by
  rcases hwithin with ⟨port, o, rfl⟩ | ⟨port, rx, rfl, hrx, hstash⟩
  · obtain ⟨tx, -, rfl⟩ := Option.map_eq_some_iff.mp h
    dsimp only
    generalize (sendTurn m.st depth tx).2.2 = phase
    cases phase with
    | push => exact .inr (.inr (.inr ⟨rfl, .inl ⟨port, o, rfl⟩⟩))
    | answer answer =>
        cases answer with
        | ready answer => exact .inr (.inl ⟨_, rfl⟩)
        | pending => exact .inl (.inl rfl)
  · obtain ⟨rx', hrx', rfl⟩ := Option.map_eq_some_iff.mp h
    obtain rfl := Option.some.inj (hrx.symm.trans hrx')
    obtain ⟨rfl, hticks⟩ := hok.1 core port rx hrx
    cases hfifo : m.st.fifo rx.coreId.peer with
    | nil =>
        rw [recvTurn_of_nil hfifo hticks]
        cases hpartial : (m.st.accum rx.coreId).isPartial with
        | true => exact .inl (.inl hpartial)
        | false =>
            refine .inr (.inr (.inl ⟨rfl, port, rx, rfl, ?_, ⟨hfifo, hpartial, hstash⟩⟩))
            exact (setPort_eq ..).trans (if_pos ⟨rfl, rfl⟩)
    | cons word rest =>
        rcases recvTurn_stash m.st rx with ⟨hwakes, -⟩ | hsame
        · exact .inl (.inl hwakes)
        have hmore : phasePart (recvTurn m.st rx).2.2 ≠ .pending := by
          unfold recvTurn SioStatics.tryPop
          rw [hfifo]
          exact recvWord_ne_pending _ _ _
        cases hpart : phasePart (recvTurn m.st rx).2.2 with
        | answered reply => exact .inr (.inl ⟨reply, hpart⟩)
        | pending => exact absurd hpart hmore
        | goesOn =>
            refine .inr (.inr (.inr ⟨hpart, .inr ⟨port, (recvTurn m.st rx).2.1, rfl, ?_, ?_⟩⟩))
            · exact (setPort_eq ..).trans (if_pos ⟨rfl, rfl⟩)
            · rw [(sameRx_recvTurn m.st rx).localRole]
              exact fun slot hslot => by rw [hsame, hstash slot hslot]

/-- **The carrier and its FIFOs say it** when a word comes or there is room for one. -/
theorem sio_heeds (depth : ℕ) : Heeds (sioCalls depth) MemoryOk SioWithin SioRests where
  ok core m k d hok h := (h.elim (sioDid_start hok) (sioDid_resume hok)).ok
  begun core m k d hok h hpart := by
    rcases sioStart_cases hok h with ⟨_, ha⟩ | ⟨hp, -⟩ | ⟨-, hwithin⟩
    · cases ha.symm.trans hpart
    · cases hp.symm.trans hpart
    · exact .inr hwithin
  goes_on core m k d hok hwithin h hpart := by
    rcases sioResume_cases hok hwithin h with hheard | ⟨_, ha⟩ | ⟨hp, -⟩ | ⟨-, hwithin⟩
    · exact .inl hheard
    · cases ha.symm.trans hpart
    · cases hp.symm.trans hpart
    · exact .inr hwithin
  started core m k d hok h hpart := by
    rcases sioStart_cases hok h with ⟨_, ha⟩ | ⟨-, hheard⟩ | ⟨hg, -⟩
    · cases ha.symm.trans hpart
    · exact .inl hheard
    · cases hg.symm.trans hpart
  resumed core m k d hok hwithin h hpart := by
    rcases sioResume_cases hok hwithin h with hheard | ⟨_, ha⟩ | ⟨-, hrest⟩ | ⟨hg, -⟩
    · exact .inl hheard
    · cases ha.symm.trans hpart
    · exact .inr hrest
    · cases hg.symm.trans hpart
  own core m k k' d hok h hrest := by
    have hdid := h.elim (sioDid_start hok) (sioDid_resume hok)
    obtain ⟨port, rx, rfl, hrx, hnone⟩ := hrest
    refine (hdid.mine _ hnone).imp id fun hnone => ?_
    obtain ⟨rx', hrx', hrole⟩ := hdid.ports core port rx hrx
    exact ⟨port, rx', rfl, hrx', hrole ▸ hnone⟩
  other core c m k k' d hok hne h hrest := by
    have hdid := h.elim (sioDid_start hok) (sioDid_resume hok)
    obtain rfl := Core.eq_peer_of_ne (Ne.symm hne)
    obtain ⟨port, rx, rfl, hrx, hnone⟩ := hrest
    refine (hdid.theirs _ hnone).imp id fun hnone => ?_
    obtain ⟨rx', hrx', hrole⟩ := hdid.ports core.peer port rx hrx
    exact ⟨port, rx', rfl, hrx', hrole ▸ hnone⟩
  other_within core c m k k' d hok hne h hwithin := by
    have hdid := h.elim (sioDid_start hok) (sioDid_resume hok)
    obtain rfl := Core.eq_peer_of_ne (Ne.symm hne)
    refine .inr (hwithin.imp id fun hrecv => hrecv.imp hdid.ports fun role hnone slot hslot => ?_)
    rw [hdid.stash, hnone slot hslot]

/-! ### The result -/

/-- **No wake-up is lost between the cores**, whatever they poll, at every moment of every run and
over FIFOs of any depth. -/
theorem sio_words_heard (depth : ℕ) (E : Core → Executive SioCall SioReply)
    (as : List (DozingAction Core)) (s : Dozing Core Memory SioReply)
    (h : (dozingMachine (sioCalls depth) E).exec (.init E (.init .init)) as = some s) (core : Core)
    (hasleep : (s.cpus core).stands = .asleep) : SleepsRight (sioCalls depth) E NothingFor s core :=
  sleepsRight_exec (sio_heeds depth) memoryOk_init h hasleep

/-- Core 1 has gone to sleep; core 0 has pushed the first word of a frame, and core 1 hears it. -/
theorem sio_words_heard_first :
    ∃ s, (dozingMachine (sioCalls 8) tellingCores).exec (.init tellingCores (.init .init))
        (List.replicate 5 (.run .core1) ++ List.replicate 3 (.run .core0)) = some s ∧
      (s.cpus .core1).stands = .asleep ∧ (s.cpus .core1).event = true ∧
      SleepsRight (sioCalls 8) tellingCores NothingFor s .core1 := by
  have hsome : ((dozingMachine (sioCalls 8) tellingCores).exec (.init tellingCores (.init .init))
      (List.replicate 5 (.run .core1) ++ List.replicate 3 (.run .core0))).map
        (fun s => ((s.cpus .core1).stands, (s.cpus .core1).event)) = some (.asleep, true) := by
    decide +kernel
  obtain ⟨s, hrun, hs⟩ := Option.map_eq_some_iff.mp hsome
  obtain ⟨hasleep, hevent⟩ := Prod.ext_iff.mp hs
  exact ⟨s, hrun, hasleep, hevent, sio_words_heard 8 tellingCores _ s hrun .core1 hasleep⟩

end HibanaPico.Rp2w
