import HibanaPico.Rp2040Sio.Device
import HibanaPico.Support.Lists
import HibanaPico.Support.Runs

/-!
# RP2040 SIO — Cores

The two cores read and write the registers of the SIO block in any order, and an observer notes
what each access to a FIFO register did.

* `SioRun.Exact`: what each core reads is a prefix of what its peer wrote, its sticky flags are
  about its own accesses, the irq lines show both, and a word sent signals the peer once.
* `sio_exact`: every run is exact.
-/

namespace HibanaPico.Rp2040Sio
open HibanaPico.Support
open HibanaPico.Sio (Core)
open HibanaPico.Transport

/-- What an access of a core to a FIFO register did. -/
inductive SioEvent where
  /-- A word was written while the mailbox was not full. -/
  | accepted (core : Core) (word : U32)
  /-- A word was written on full. -/
  | refused (core : Core) (word : U32)
  /-- A word was read while the mailbox was not empty. -/
  | taken (core : Core) (word : U32)
  | readOnEmpty (core : Core)
  /-- The status register was written. -/
  | cleared (core : Core) (value : U32)
  deriving DecidableEq, Repr

inductive SioAccess where
  | read (currentCpu : Core) (addr : ℕ)
  | write (currentCpu : Core) (addr : ℕ) (value : U32)
  deriving DecidableEq, Repr

/-- The device after an access. -/
def SioState.access (s : SioState) : SioAccess → SioState
  | .read currentCpu addr => (s.read currentCpu addr).2
  | .write currentCpu addr value => s.write currentCpu addr value

/-- What the observer notes of an access. -/
def SioState.note (s : SioState) : SioAccess → List SioEvent
  | .read currentCpu addr =>
      let core := s.currentCore currentCpu
      if addr = sioFifoRd then
        if (s.rxFifo core).empty then [.readOnEmpty core]
        else [.taken core (s.read currentCpu addr).1]
      else []
  | .write currentCpu addr value =>
      let core := s.currentCore currentCpu
      if addr = sioFifoSt then [.cleared core value]
      else if addr = sioFifoWr then
        if (s.txFifo core).full then [.refused core value] else [.accepted core value]
      else []

structure SioRun where
  dev : SioState
  log : List SioEvent

def SioRun.init (cpu : Core → Bool) : SioRun := ⟨.reset cpu, []⟩

def SioRun.next (r : SioRun) (a : SioAccess) : Option SioRun :=
  some ⟨r.dev.access a, r.log ++ r.dev.note a⟩

def sioMachine : Machine SioRun SioAccess := ⟨SioRun.next⟩

/-! ### What a run should be -/

/-- The words a core wrote while its mailbox was not full. -/
def wordsAccepted (core : Core) (log : List SioEvent) : List U32 :=
  log.filterMap fun
    | .accepted c word => if c = core then some word else none
    | _ => none

/-- The words a core read while the other's mailbox was not empty. -/
def wordsTaken (core : Core) (log : List SioEvent) : List U32 :=
  log.filterMap fun
    | .taken c word => if c = core then some word else none
    | _ => none

def isRefused (core : Core) : SioEvent → Bool
  | .refused c _ => c = core
  | _ => false

def isReadOnEmpty (core : Core) : SioEvent → Bool
  | .readOnEmpty c => c = core
  | _ => false

/-- A write of the status register by the core that clears `bit`. -/
def clears (core : Core) (bit : U32) : SioEvent → Bool
  | .cleared c value => c = core ∧ value &&& bit ≠ 0
  | _ => false

structure SioRun.Exact (r : SioRun) : Prop where
  /-- What a core has read is a prefix of what its peer has written, -/
  reads : ∀ core, wordsTaken core r.log <+: wordsAccepted core.peer r.log
  /-- and the rest of it, at most eight words, waits. -/
  waits : ∀ core, wordsAccepted core.peer r.log = wordsTaken core r.log ++
    (r.dev.rxFifo core).contents ∧ (r.dev.rxFifo core).contents.length ≤ rp2040SioFifoDepth
  /-- The core has written on full since it last cleared the bit. -/
  wof : ∀ core, r.dev.stickyWof core = true ↔
    OpenSince (isRefused core) (clears core sioFifoStWof) r.log
  /-- The core has read on empty since it last cleared the bit. -/
  roe : ∀ core, r.dev.stickyRoe core = true ↔
    OpenSince (isReadOnEmpty core) (clears core sioFifoStRoe) r.log
  irq : ∀ core, r.dev.irq core =
    r.dev.fifoStatus core &&& (sioFifoStVld ||| sioFifoStWof ||| sioFifoStRoe)
  level : ∀ core, r.dev.irq core ≠ 0 ↔ (r.dev.rxFifo core).contents ≠ [] ∨
    r.dev.stickyWof core = true ∨ r.dev.stickyRoe core = true
  /-- An attached core was signalled once for each word its peer wrote. -/
  events : ∀ core, r.dev.events core =
    if r.dev.cpu core then (wordsAccepted core.peer r.log).length else 0
  /-- The next write on full will change no word. -/
  refuses : ∀ currentCpu value, (r.dev.txFifo (r.dev.currentCore currentCpu)).full →
    (r.dev.write currentCpu sioFifoWr value).fifo = r.dev.fifo

/-! ### What an access does -/

/-- The device after an access, and what is noted of it. -/
inductive Effect (s : SioState) : SioState → List SioEvent → Prop
  | other {t : SioState} (hcpu : t.cpu = s.cpu) (hfifo : t.fifo = s.fifo)
      (hwof : t.stickyWof = s.stickyWof) (hroe : t.stickyRoe = s.stickyRoe)
      (hirq : t.irq = s.irq) (hevents : t.events = s.events) : Effect s t []
  | accepted (core : Core) (word : U32) (h : ¬ (s.txFifo core).full) :
      Effect s ({ s with
        fifo := Function.update s.fifo core ((s.txFifo core).push word h) }.signalPeer
          core.peer).updateIrqs [.accepted core word]
  | refused (core : Core) (word : U32) (h : (s.txFifo core).full) :
      Effect s { s with stickyWof := Function.update s.stickyWof core true }.updateIrqs
        [.refused core word]
  | taken (core : Core) (h : ¬ (s.rxFifo core).empty) :
      Effect s { s with
        fifo := Function.update s.fifo core.peer (s.rxFifo core).pop.2 }.updateIrqs
        [.taken core (s.rxFifo core).pop.1]
  | readOnEmpty (core : Core) (h : (s.rxFifo core).empty) :
      Effect s { s with stickyRoe := Function.update s.stickyRoe core true }.updateIrqs
        [.readOnEmpty core]
  | cleared (core : Core) (value : U32) :
      Effect s { s with
        stickyWof := if value &&& sioFifoStWof ≠ 0 then Function.update s.stickyWof core false
          else s.stickyWof
        stickyRoe := if value &&& sioFifoStRoe ≠ 0 then Function.update s.stickyRoe core false
          else s.stickyRoe }.updateIrqs [.cleared core value]

theorem effect_read (s : SioState) (currentCpu : Core) (addr : ℕ) :
    Effect s (s.access (.read currentCpu addr)) (s.note (.read currentCpu addr)) := by
  by_cases hrd : addr = sioFifoRd
  · subst hrd
    unfold SioState.access SioState.note SioState.read
    simp only [if_true]
    by_cases hempty : (s.rxFifo (s.currentCore currentCpu)).empty
    · simp only [if_pos hempty]
      exact .readOnEmpty _ hempty
    · simp only [if_neg hempty]
      exact .taken _ hempty
  · have hsame : (s.read currentCpu addr).2 = s := by
      unfold SioState.read
      simp only [if_neg hrd]
      split_ifs <;> rfl
    unfold SioState.access SioState.note
    simp only [if_neg hrd, hsame]
    exact .other rfl rfl rfl rfl rfl rfl

theorem effect_write (s : SioState) (currentCpu : Core) (addr : ℕ) (value : U32) :
    Effect s (s.access (.write currentCpu addr value))
      (s.note (.write currentCpu addr value)) := by
  by_cases hst : addr = sioFifoSt
  · subst hst
    have hcleared := @Effect.cleared s (s.currentCore currentCpu) value
    unfold SioState.access SioState.note SioState.write
    simp only [if_true]
    by_cases hwof : value &&& sioFifoStWof ≠ 0
    · by_cases hroe : value &&& sioFifoStRoe ≠ 0
      · simp only [if_pos hwof, if_pos hroe] at hcleared ⊢
        exact hcleared
      · simp only [if_pos hwof, if_neg hroe] at hcleared ⊢
        exact hcleared
    · by_cases hroe : value &&& sioFifoStRoe ≠ 0
      · simp only [if_neg hwof, if_pos hroe] at hcleared ⊢
        exact hcleared
      · simp only [if_neg hwof, if_neg hroe] at hcleared ⊢
        exact hcleared
  by_cases hwr : addr = sioFifoWr
  · subst hwr
    unfold SioState.access SioState.note SioState.write
    simp only [if_true]
    by_cases hfull : (s.txFifo (s.currentCore currentCpu)).full
    · simp only [if_pos hfull, dif_pos hfull]
      exact .refused _ value hfull
    · simp only [if_neg hfull, dif_neg hfull]
      exact .accepted _ value hfull
  · unfold SioState.access SioState.note SioState.write
    simp only [if_neg hst, if_neg hwr]
    split_ifs <;> exact .other rfl rfl rfl rfl rfl rfl

theorem effect (s : SioState) : ∀ a : SioAccess, Effect s (s.access a) (s.note a)
  | .read currentCpu addr => effect_read s currentCpu addr
  | .write currentCpu addr value => effect_write s currentCpu addr value

/-! ### The words -/

theorem wordsAccepted_append (core : Core) (log es : List SioEvent) :
    wordsAccepted core (log ++ es) = wordsAccepted core log ++ wordsAccepted core es :=
  List.filterMap_append

theorem wordsTaken_append (core : Core) (log es : List SioEvent) :
    wordsTaken core (log ++ es) = wordsTaken core log ++ wordsTaken core es :=
  List.filterMap_append

theorem wordsAccepted_accepted (c core : Core) (word : U32) :
    wordsAccepted c [.accepted core word] = if core = c then [word] else [] := by
  unfold wordsAccepted
  by_cases h : core = c
  · simp [h]
  · simp [h]

theorem wordsTaken_taken (c core : Core) (word : U32) :
    wordsTaken c [.taken core word] = if core = c then [word] else [] := by
  unfold wordsTaken
  by_cases h : core = c
  · simp [h]
  · simp [h]

variable {s t : SioState} {es : List SioEvent}

/-- The words a core writes go behind those that wait, and the words it reads come from before
them. -/
theorem Effect.words (h : Effect s t es) (c : Core) :
    (s.rxFifo c).contents ++ wordsAccepted c.peer es =
      wordsTaken c es ++ (t.rxFifo c).contents := by
  cases h with
  | other _ hfifo =>
      unfold SioState.rxFifo
      rw [hfifo]
      exact List.append_nil _
  | accepted core word h =>
      rw [wordsAccepted_accepted]
      simp only [SioState.rxFifo, SioState.updateIrqs_fifo, SioState.signalPeer_fifo]
      by_cases hcore : core = c.peer
      · subst hcore
        rw [if_pos rfl, Function.update_self, Mailbox.contents_push]
        rfl
      · rw [if_neg hcore, Function.update_of_ne (Ne.symm hcore), List.append_nil]
        rfl
  | refused core word h => exact List.append_nil _
  | taken core h =>
      rw [wordsTaken_taken]
      simp only [SioState.rxFifo, SioState.updateIrqs_fifo]
      by_cases hcore : core = c
      · subst hcore
        rw [if_pos rfl, Function.update_self]
        exact (List.append_nil _).trans (Mailbox.contents_pop h)
      · have hpeer : c.peer ≠ core.peer := fun heq => hcore <| by
          rw [← c.peer_peer, heq, core.peer_peer]
        rw [if_neg hcore, Function.update_of_ne hpeer]
        exact List.append_nil _
  | readOnEmpty core h => exact List.append_nil _
  | cleared core value => exact List.append_nil _

/-! ### The flags, the lines and the events -/

theorem Effect.cpu (h : Effect s t es) : t.cpu = s.cpu := by
  cases h with
  | other hcpu => exact hcpu
  | accepted core word h => exact SioState.signalPeer_cpu _ _
  | refused | taken | readOnEmpty | cleared => rfl

/-- The irq lines that showed the status still do. -/
theorem Effect.irq (h : Effect s t es) (hs : s.irq = s.updateIrqs.irq) :
    t.irq = t.updateIrqs.irq := by
  cases h with
  | other hcpu hfifo hwof hroe hirq hevents =>
      rw [hirq, hs]
      funext core
      exact congrArg (· &&& _) (SioState.fifoStatus_congr hfifo hwof hroe core).symm
  | accepted | refused | taken | readOnEmpty | cleared => rfl

/-- What `write` leaves of a sticky flag, for the status that a core has written. -/
theorem cleared_flag (flag : Core → Bool) (bit : U32) (c core : Core) (value : U32) :
    (if value &&& bit ≠ 0 then Function.update flag c false else flag) core = true ↔
      clears core bit (.cleared c value) = false ∧ flag core = true := by
  by_cases hbit : value &&& bit = 0#32
  · simp [clears, hbit]
  · by_cases hc : c = core
    · subst hc
      simp [clears, hbit]
    · simp [clears, hbit, hc, Function.update_of_ne (Ne.symm hc)]

/-- What a sticky flag is after the core `c` has set its own. -/
theorem set_flag (flag : Core → Bool) (c core : Core) :
    Function.update flag c true core = true ↔ c = core ∨ flag core = true := by
  by_cases hc : c = core
  · subst hc
    simp
  · simp [hc, Function.update_of_ne (Ne.symm hc)]

/-- A core's own write on full sets its flag, and its own write of the status clears it. -/
theorem Effect.wof (h : Effect s t es) {log : List SioEvent} (core : Core)
    (hs : s.stickyWof core = true ↔ OpenSince (isRefused core) (clears core sioFifoStWof) log) :
    t.stickyWof core = true ↔
      OpenSince (isRefused core) (clears core sioFifoStWof) (log ++ es) := by
  cases h with
  | other _ _ hwof =>
      rw [hwof, List.append_nil]
      exact hs
  | accepted c word h =>
      rw [openSince_snoc, ← hs]
      simp [SioState.updateIrqs, isRefused, clears]
  | refused c word h =>
      rw [openSince_snoc, ← hs]
      simp [SioState.updateIrqs, isRefused, clears, set_flag]
  | taken | readOnEmpty =>
      rw [openSince_snoc, ← hs]
      simp [SioState.updateIrqs, isRefused, clears]
  | cleared c value =>
      rw [openSince_snoc, ← hs]
      exact (cleared_flag _ _ c core value).trans (by simp [isRefused])

/-- A core's own read on empty sets its flag, and its own write of the status clears it. -/
theorem Effect.roe (h : Effect s t es) {log : List SioEvent} (core : Core)
    (hs : s.stickyRoe core = true ↔
      OpenSince (isReadOnEmpty core) (clears core sioFifoStRoe) log) :
    t.stickyRoe core = true ↔
      OpenSince (isReadOnEmpty core) (clears core sioFifoStRoe) (log ++ es) := by
  cases h with
  | other _ _ _ hroe =>
      rw [hroe, List.append_nil]
      exact hs
  | accepted c word h =>
      rw [openSince_snoc, ← hs]
      simp [SioState.updateIrqs, isReadOnEmpty, clears]
  | readOnEmpty c h =>
      rw [openSince_snoc, ← hs]
      simp [SioState.updateIrqs, isReadOnEmpty, clears, set_flag]
  | taken | refused =>
      rw [openSince_snoc, ← hs]
      simp [SioState.updateIrqs, isReadOnEmpty, clears]
  | cleared c value =>
      rw [openSince_snoc, ← hs]
      exact (cleared_flag _ _ c core value).trans (by simp [isReadOnEmpty])

theorem eq_peer_iff (c d : Core) : c.peer = d ↔ c = d.peer := by
  cases c <;> cases d <;> decide

/-- A core is signalled for a word its peer wrote, when it is attached, and for nothing else. -/
theorem Effect.events (h : Effect s t es) (core : Core) :
    t.events core =
      s.events core + if s.cpu core then (wordsAccepted core.peer es).length else 0 := by
  have hnone : s.events core = s.events core + if s.cpu core then 0 else 0 := by
    rw [ite_self, Nat.add_zero]
  cases h with
  | other _ _ _ _ _ hevents =>
      rw [hevents]
      exact hnone
  | accepted c word h =>
      rw [wordsAccepted_accepted]
      refine (SioState.signalPeer_events _ _ _).trans ?_
      by_cases hcpu : s.cpu core = true
      · by_cases hpeer : c.peer = core
        · have hcore : c = core.peer := (eq_peer_iff c core).mp hpeer
          rw [if_pos ⟨hcpu, hpeer⟩, if_pos hcpu, if_pos hcore]
          rfl
        · have hcore : c ≠ core.peer := fun h => hpeer ((eq_peer_iff c core).mpr h)
          rw [if_neg fun h => hpeer h.2, if_pos hcpu, if_neg hcore]
          rfl
      · rw [if_neg fun h => hcpu h.1, if_neg hcpu]
  | refused | taken | readOnEmpty | cleared => exact hnone

/-- A write on full changes no mailbox. -/
theorem SioState.write_full {s : SioState} {currentCpu : Core}
    (h : (s.txFifo (s.currentCore currentCpu)).full) (value : U32) :
    (s.write currentCpu sioFifoWr value).fifo = s.fifo := by
  have hwrite : s.write currentCpu sioFifoWr value = SioState.updateIrqs { s with
      stickyWof := Function.update s.stickyWof (s.currentCore currentCpu) true } := dif_pos h
  rw [hwrite]
  rfl

/-! ### Every run -/

/-- What every access keeps. -/
structure SioRun.Inv (r : SioRun) : Prop where
  waits : ∀ core, wordsAccepted core.peer r.log =
    wordsTaken core r.log ++ (r.dev.rxFifo core).contents
  wof : ∀ core, r.dev.stickyWof core = true ↔
    OpenSince (isRefused core) (clears core sioFifoStWof) r.log
  roe : ∀ core, r.dev.stickyRoe core = true ↔
    OpenSince (isReadOnEmpty core) (clears core sioFifoStRoe) r.log
  irq : r.dev.irq = r.dev.updateIrqs.irq
  events : ∀ core, r.dev.events core =
    if r.dev.cpu core then (wordsAccepted core.peer r.log).length else 0

theorem SioRun.inv_init (cpu : Core → Bool) : (SioRun.init cpu).Inv where
  waits _ := rfl
  wof _ := iff_of_false Bool.false_ne_true (not_openSince_nil _ _)
  roe _ := iff_of_false Bool.false_ne_true (not_openSince_nil _ _)
  irq := rfl
  events _ := (ite_self _).symm

theorem SioRun.Inv.step {r r' : SioRun} (I : r.Inv) {a : SioAccess} (h : r.next a = some r') :
    r'.Inv := by
  cases h
  have heffect := effect r.dev a
  refine ⟨fun core => ?_, fun core => heffect.wof core (I.wof core),
    fun core => heffect.roe core (I.roe core), heffect.irq I.irq, fun core => ?_⟩
  · rw [wordsAccepted_append, wordsTaken_append, I.waits, List.append_assoc, List.append_assoc,
      heffect.words core]
  · show (r.dev.access a).events core = if (r.dev.access a).cpu core then _ else 0
    rw [heffect.events core, I.events, heffect.cpu, wordsAccepted_append, List.length_append]
    split
    · rfl
    · rfl

theorem SioRun.Inv.exact {r : SioRun} (I : r.Inv) : r.Exact where
  reads core := ⟨_, (I.waits core).symm⟩
  waits core := ⟨I.waits core, by
    rw [Mailbox.length_contents]
    exact (r.dev.rxFifo core).len_le⟩
  wof := I.wof
  roe := I.roe
  irq core := congrFun I.irq core
  level core := by
    rw [I.irq]
    exact r.dev.updateIrqs_irq_ne_zero core
  events := I.events
  refuses _ value h := SioState.write_full h value

/-- **The two cores.**  After any reads and writes of the registers by the two cores, in any order
and whatever cores are attached, the run is exact. -/
theorem sio_exact (cpu : Core → Bool) (accesses : List SioAccess) :
    ∃ r, sioMachine.exec (.init cpu) accesses = some r ∧ r.Exact := by
  have htotal : ∀ r a, ∃ r', sioMachine.next r a = some r' := fun _ _ => ⟨_, rfl⟩
  obtain ⟨r, hr⟩ := Machine.exec_total htotal (SioRun.init cpu) accesses
  have I : r.Inv := Machine.exec_keeps (fun _ _ _ I hnext => I.step hnext) (SioRun.inv_init cpu) hr
  exact ⟨r, hr, I.exact⟩

end HibanaPico.Rp2040Sio
