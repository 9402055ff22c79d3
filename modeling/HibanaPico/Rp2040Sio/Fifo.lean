import HibanaPico.Rp2040Sio.Cores
import HibanaPico.Rp2w.Carrier

/-!
# RP2040 SIO — Fifo

The firmware's `fifo` over the SIO block.  A call reads the status, and writes or reads a word
where the status allows it; between these two accesses the other core may do anything.  An observer
notes the answers in the order in which they are given.

* `FifoRun`: the two cores, each in at most one call.
* `FifoCall.atomic`: a call answered at once, on two lists of words.
* `fifo_atomic`: the answers of every run are those of calls answered at once, in the same order.
* `tryPush_eq_atomic`, `tryPop_eq_atomic`: a call answered at once is what a turn of the RP2W
  carrier makes.
-/

namespace HibanaPico.Rp2040Sio
open HibanaPico.Support
open HibanaPico.Sio (Core)
open HibanaPico.Transport

/-- The functions of `fifo`. -/
inductive FifoCall where
  | tryPush (word : U32)
  | tryPop
  | status
  | clearErrors
  deriving DecidableEq, Repr

inductive FifoAnswer where
  | pushed (taken : Bool)
  | popped (word : Option U32)
  | status (bits : U32)
  | cleared
  deriving DecidableEq, Repr

/-- A call that was answered. -/
structure FifoEntry where
  core : Core
  call : FifoCall
  answer : FifoAnswer
  deriving DecidableEq, Repr

/-! ### The accesses -/

/-- The device, the call of each core whose status allowed its second access, and the observer's
notes. -/
structure FifoRun where
  dev : SioState
  pending : Core → Option FifoCall
  log : List FifoEntry

/-- Both cores are attached. -/
def FifoRun.init : FifoRun :=
  { dev := .reset fun _ => true, pending := fun _ => none, log := [] }

inductive FifoStep where
  /-- A call, up to its answer or its second access. -/
  | call (core : Core) (c : FifoCall)
  | access (core : Core)
  deriving DecidableEq, Repr

namespace FifoRun

def answered (r : FifoRun) (core : Core) (c : FifoCall) (dev : SioState) (a : FifoAnswer) :
    FifoRun :=
  { dev, pending := Function.update r.pending core none, log := r.log ++ [⟨core, c, a⟩] }

def waits (r : FifoRun) (core : Core) (c : FifoCall) (dev : SioState) : FifoRun :=
  { r with dev, pending := Function.update r.pending core (some c) }

@[simp] theorem answered_pending_self (r : FifoRun) (core : Core) (c : FifoCall) (dev : SioState)
    (a : FifoAnswer) : (r.answered core c dev a).pending core = none := Function.update_self _ _ _

theorem answered_pending_of_ne (r : FifoRun) {core d : Core} (h : d ≠ core) (c : FifoCall)
    (dev : SioState) (a : FifoAnswer) : (r.answered core c dev a).pending d = r.pending d :=
  Function.update_of_ne h _ _

@[simp] theorem waits_pending_self (r : FifoRun) (core : Core) (c : FifoCall) (dev : SioState) :
    (r.waits core c dev).pending core = some c := Function.update_self _ _ _

theorem waits_pending_of_ne (r : FifoRun) {core d : Core} (h : d ≠ core) (c : FifoCall)
    (dev : SioState) : (r.waits core c dev).pending d = r.pending d := Function.update_of_ne h _ _

/-- The first access of a call. -/
def begin (r : FifoRun) (core : Core) (c : FifoCall) : FifoRun :=
  let read := r.dev.read core sioFifoSt
  match c with
  | .tryPush _ =>
      if read.1 &&& sioFifoStRdy ≠ 0 then r.waits core c read.2
      else r.answered core c read.2 (.pushed false)
  | .tryPop =>
      if read.1 &&& sioFifoStVld ≠ 0 then r.waits core c read.2
      else r.answered core c read.2 (.popped none)
  | .status => r.answered core c read.2 (.status read.1)
  | .clearErrors =>
      r.answered core c (r.dev.write core sioFifoSt (sioFifoStWof ||| sioFifoStRoe)) .cleared

/-- The second access of a call. -/
def finish (r : FifoRun) (core : Core) : Option FifoRun :=
  match r.pending core with
  | some (.tryPush word) =>
      some (r.answered core (.tryPush word) (r.dev.write core sioFifoWr word) (.pushed true))
  | some .tryPop =>
      let read := r.dev.read core sioFifoRd
      some (r.answered core .tryPop read.2 (.popped (some read.1)))
  | _ => none

def next (r : FifoRun) : FifoStep → Option FifoRun
  | .call core c => if r.pending core = none then some (r.begin core c) else none
  | .access core => r.finish core

end FifoRun

/-- The two cores, whose accesses interleave in any way. -/
def fifoMachine : Machine FifoRun FifoStep := ⟨FifoRun.next⟩

/-! ### Calls answered at once -/

/-- A call on two lists of words, by the core that writes them. -/
def FifoCall.atomic (q : Core → List U32) (core : Core) : FifoCall → (Core → List U32) × FifoAnswer
  | .tryPush word =>
      if (q core).length < rp2040SioFifoDepth then
        (Function.update q core (q core ++ [word]), .pushed true)
      else (q, .pushed false)
  | .tryPop =>
      match q core.peer with
      | [] => (q, .popped none)
      | word :: rest => (Function.update q core.peer rest, .popped (some word))
  | .status =>
      (q, .status (SioState.statusOf (decide (q core.peer ≠ []))
        (decide ((q core).length < rp2040SioFifoDepth)) false false))
  | .clearErrors => (q, .cleared)

/-- The lists after an answered call, where the answer is the one given at once. -/
def FifoEntry.apply (q : Core → List U32) (e : FifoEntry) : Option (Core → List U32) :=
  if (e.call.atomic q e.core).2 = e.answer then some (e.call.atomic q e.core).1 else none

/-- The lists after these calls, each answered at once. -/
def replayCalls (log : List FifoEntry) : Option (Core → List U32) :=
  log.foldlM FifoEntry.apply fun _ => []

/-- A word pushed by the core. -/
def FifoEntry.isPush (core : Core) (e : FifoEntry) : Bool :=
  e.core = core ∧ e.answer = .pushed true

/-- A run whose answers are those of calls answered at once. -/
structure FifoRun.Atomic (r : FifoRun) : Prop where
  /-- The answers, in the order in which they were given, leave the words in the mailboxes. -/
  replays : replayCalls r.log = some fun core => (r.dev.fifo core).contents
  /-- No word is written on full, and none read on empty. -/
  flags : ∀ core, r.dev.stickyWof core = false ∧ r.dev.stickyRoe core = false
  /-- The irq line of a core is up as long as a word waits for it. -/
  level : ∀ core, r.dev.irq core ≠ 0 ↔ (r.dev.rxFifo core).contents ≠ []
  /-- A core was signalled once for each word pushed for it. -/
  events : ∀ core, r.dev.events core = r.log.countP (FifoEntry.isPush core.peer)

/-! ### What a call finds -/

variable {r r' : FifoRun} {core : Core}

/-- What every access keeps: what a core has found in the status stays so until it acts on it. -/
structure FifoRun.Inv (r : FifoRun) : Prop extends r.Atomic where
  cpu : ∀ core, r.dev.cpu core = true
  irq : r.dev.irq = r.dev.updateIrqs.irq
  room : ∀ core word, r.pending core = some (.tryPush word) → ¬ (r.dev.txFifo core).full
  word : ∀ core, r.pending core = some .tryPop → ¬ (r.dev.rxFifo core).empty

theorem FifoRun.Inv.currentCore (I : r.Inv) (core : Core) : r.dev.currentCore core = core := by
  unfold SioState.currentCore
  cases core with
  | core0 => simp
  | core1 => simp [I.cpu]

/-- The words in the mailboxes. -/
def SioState.words (s : SioState) : Core → List U32 := fun core => (s.fifo core).contents

theorem Mailbox.full_iff (fifo : Mailbox) :
    fifo.full ↔ ¬ fifo.contents.length < rp2040SioFifoDepth := by
  rw [Mailbox.length_contents, Nat.not_lt]
  exact ⟨Nat.le_of_eq ∘ Eq.symm, fun h => Nat.le_antisymm fifo.len_le h⟩

theorem FifoRun.Inv.fifoStatus (I : r.Inv) (core : Core) :
    r.dev.fifoStatus core = SioState.statusOf (decide (r.dev.words core.peer ≠ []))
      (decide ((r.dev.words core).length < rp2040SioFifoDepth)) false false := by
  have hvld : ¬ (r.dev.rxFifo core).empty ↔ r.dev.words core.peer ≠ [] :=
    not_congr (Mailbox.empty_iff _)
  have hrdy : ¬ (r.dev.txFifo core).full ↔ (r.dev.words core).length < rp2040SioFifoDepth := by
    rw [Mailbox.full_iff, not_not]
    exact Iff.rfl
  rw [SioState.fifoStatus_eq, (I.flags core).1, (I.flags core).2, decide_eq_decide.mpr hvld,
    decide_eq_decide.mpr hrdy]

theorem statusOf_rdy : ∀ vld rdy : Bool,
    SioState.statusOf vld rdy false false &&& sioFifoStRdy ≠ 0 ↔ rdy = true := by decide

theorem statusOf_vld : ∀ vld rdy : Bool,
    SioState.statusOf vld rdy false false &&& sioFifoStVld ≠ 0 ↔ vld = true := by decide

/-- The status a core reads. -/
theorem FifoRun.Inv.read_status (I : r.Inv) (core : Core) :
    r.dev.read core sioFifoSt = (r.dev.fifoStatus core, r.dev) := by
  unfold SioState.read
  rw [I.currentCore]
  rfl

/-- The level of the line is about the words alone. -/
theorem level_of_flags {s : SioState} (hirq : s.irq = s.updateIrqs.irq)
    (hflags : ∀ core, s.stickyWof core = false ∧ s.stickyRoe core = false) (core : Core) :
    s.irq core ≠ 0 ↔ (s.rxFifo core).contents ≠ [] := by
  rw [hirq, s.updateIrqs_irq_ne_zero, (hflags core).1, (hflags core).2]
  simp

theorem replayCalls_snoc (log : List FifoEntry) (e : FifoEntry) :
    replayCalls (log ++ [e]) = (replayCalls log).bind e.apply := by
  rw [replayCalls, List.foldlM_append]
  show (replayCalls log).bind _ = _
  congr 1
  funext q
  exact bind_pure _

/-- A call that is answered as it is at once. -/
theorem FifoRun.Inv.answered (I : r.Inv) {c : FifoCall} {dev : SioState} {a : FifoAnswer}
    (hatomic : c.atomic r.dev.words core = (dev.words, a)) (hcpu : dev.cpu = r.dev.cpu)
    (hirq : dev.irq = dev.updateIrqs.irq)
    (hflags : ∀ core, dev.stickyWof core = false ∧ dev.stickyRoe core = false)
    (hevents : ∀ d, dev.events d =
      r.dev.events d + if core = d.peer ∧ a = .pushed true then 1 else 0)
    (hroom : ∀ d word, d ≠ core → r.pending d = some (.tryPush word) → ¬ (dev.txFifo d).full)
    (hword : ∀ d, d ≠ core → r.pending d = some .tryPop → ¬ (dev.rxFifo d).empty) :
    (r.answered core c dev a).Inv where
  replays := by
    show replayCalls (r.log ++ [⟨core, c, a⟩]) = some dev.words
    rw [replayCalls_snoc, I.replays]
    show FifoEntry.apply r.dev.words _ = _
    rw [FifoEntry.apply, hatomic]
    exact if_pos rfl
  flags := hflags
  level := level_of_flags hirq hflags
  events d := by
    show dev.events d = (r.log ++ [FifoEntry.mk core c a]).countP (FifoEntry.isPush d.peer)
    rw [hevents, I.events, List.countP_append, List.countP_singleton]
    simp only [FifoEntry.isPush, decide_eq_true_eq]
  cpu d := (congrFun hcpu d).trans (I.cpu d)
  irq := hirq
  room d word h := by
    by_cases hd : d = core
    · subst hd
      rw [answered_pending_self] at h
      cases h
    · rw [answered_pending_of_ne r hd] at h
      exact hroom d word hd h
  word d h := by
    by_cases hd : d = core
    · subst hd
      rw [answered_pending_self] at h
      cases h
    · rw [answered_pending_of_ne r hd] at h
      exact hword d hd h

/-- A call that leaves the device as it is. -/
theorem FifoRun.Inv.answered_same (I : r.Inv) {c : FifoCall} {a : FifoAnswer}
    (hatomic : c.atomic r.dev.words core = (r.dev.words, a)) (ha : a ≠ .pushed true) :
    (r.answered core c r.dev a).Inv :=
  I.answered hatomic rfl I.irq I.flags
    (fun d => by rw [if_neg fun h => ha h.2]; rfl) (fun d word _ => I.room d word)
    fun d _ => I.word d

/-- A call whose status allows its second access. -/
theorem FifoRun.Inv.waits (I : r.Inv) {c : FifoCall}
    (hroom : ∀ word, c = .tryPush word → ¬ (r.dev.txFifo core).full)
    (hword : c = .tryPop → ¬ (r.dev.rxFifo core).empty) : (r.waits core c r.dev).Inv where
  replays := I.replays
  flags := I.flags
  level := I.level
  events := I.events
  cpu := I.cpu
  irq := I.irq
  room d word h := by
    by_cases hd : d = core
    · subst hd
      rw [waits_pending_self] at h
      exact hroom word (Option.some.inj h)
    · rw [waits_pending_of_ne r hd] at h
      exact I.room d word h
  word d h := by
    by_cases hd : d = core
    · subst hd
      rw [waits_pending_self] at h
      exact hword (Option.some.inj h)
    · rw [waits_pending_of_ne r hd] at h
      exact I.word d h

/-! ### One step -/

theorem FifoRun.Inv.begin (I : r.Inv) (core : Core) (c : FifoCall) : (r.begin core c).Inv := by
  unfold FifoRun.begin
  rw [I.read_status, I.fifoStatus]
  dsimp only
  cases c with
  | tryPush word =>
      dsimp only
      split
      · rename_i hready
        have hlt := of_decide_eq_true ((statusOf_rdy _ _).mp hready)
        refine I.waits (fun _ _ hfull => (Mailbox.full_iff _).mp hfull hlt) fun h => ?_
        cases h
      · rename_i hnot
        have hfull : ¬ (r.dev.words core).length < rp2040SioFifoDepth :=
          fun h => hnot ((statusOf_rdy _ _).mpr (decide_eq_true h))
        exact I.answered_same (by rw [FifoCall.atomic, if_neg hfull]) (by decide)
  | tryPop =>
      dsimp only
      split
      · rename_i hvalid
        have hne := of_decide_eq_true ((statusOf_vld _ _).mp hvalid)
        refine I.waits (fun _ h => ?_) fun _ hempty => hne ((Mailbox.empty_iff _).mp hempty)
        cases h
      · rename_i hnot
        have hnil : r.dev.words core.peer = [] := not_not.mp
          fun h => hnot ((statusOf_vld _ _).mpr (decide_eq_true h))
        refine I.answered_same ?_ (by decide)
        rw [FifoCall.atomic, hnil]
  | status => exact I.answered_same rfl FifoAnswer.noConfusion
  | clearErrors =>
      have hwrite : r.dev.write core sioFifoSt (sioFifoStWof ||| sioFifoStRoe) =
          { r.dev with
            stickyWof := Function.update r.dev.stickyWof core false
            stickyRoe := Function.update r.dev.stickyRoe core false }.updateIrqs := by
        unfold SioState.write
        rw [I.currentCore]
        rfl
      have hsame : ∀ {flag : Core → Bool}, flag core = false →
          Function.update flag core false = flag :=
        fun h => by rw [← h, Function.update_eq_self]
      rw [hwrite, hsame (I.flags core).1, hsame (I.flags core).2]
      have hdev : r.dev.updateIrqs = r.dev := by
        show ({ r.dev with irq := r.dev.updateIrqs.irq } : SioState) = r.dev
        rw [← I.irq]
      show (r.answered core .clearErrors r.dev.updateIrqs .cleared).Inv
      rw [hdev]
      exact I.answered_same rfl (by decide)

/-- The words in the mailboxes, one of which has changed. -/
theorem words_update {s : SioState} {fifo : Mailbox} {t : SioState}
    (h : t.fifo = Function.update s.fifo core fifo) :
    t.words = Function.update s.words core fifo.contents := by
  funext d
  unfold SioState.words
  rw [h]
  by_cases hd : d = core
  · subst hd
    rw [Function.update_self, Function.update_self]
  · rw [Function.update_of_ne hd, Function.update_of_ne hd]

/-- The second access of `try_push`. -/
theorem FifoRun.Inv.finish_push (I : r.Inv) {word : U32}
    (hpending : r.pending core = some (.tryPush word)) :
    (r.answered core (.tryPush word) (r.dev.write core sioFifoWr word) (.pushed true)).Inv := by
  have hroom : ¬ (r.dev.fifo core).full := I.room core word hpending
  let pushed : SioState :=
    { r.dev with fifo := Function.update r.dev.fifo core ((r.dev.fifo core).push word hroom) }
  have hwrite : r.dev.write core sioFifoWr word = (pushed.signalPeer core.peer).updateIrqs := by
    unfold SioState.write
    rw [I.currentCore]
    exact dif_neg hroom
  have hfifo : (pushed.signalPeer core.peer).updateIrqs.fifo =
      Function.update r.dev.fifo core ((r.dev.fifo core).push word hroom) := by
    rw [SioState.updateIrqs_fifo, SioState.signalPeer_fifo]
  rw [hwrite]
  refine I.answered ?_ (SioState.signalPeer_cpu _ _) rfl (fun d => ?_) (fun d => ?_)
    (fun d w hd h => ?_) (fun d hd h => ?_)
  · have hlt : (r.dev.words core).length < rp2040SioFifoDepth :=
      not_not.mp fun h => hroom ((Mailbox.full_iff _).mpr h)
    rw [FifoCall.atomic, if_pos hlt, words_update hfifo, Mailbox.contents_push]
    rfl
  · show (pushed.signalPeer core.peer).stickyWof d = false ∧ _
    rw [SioState.signalPeer_stickyWof]
    refine ⟨(I.flags d).1, ?_⟩
    show (pushed.signalPeer core.peer).stickyRoe d = false
    rw [SioState.signalPeer_stickyRoe]
    exact (I.flags d).2
  · show (pushed.signalPeer core.peer).events d = _
    rw [SioState.signalPeer_events]
    exact congrArg (r.dev.events d + ·) (if_congr
      ⟨fun h => ⟨(eq_peer_iff _ _).mp h.2, rfl⟩, fun h => ⟨I.cpu d, (eq_peer_iff _ _).mpr h.1⟩⟩
      rfl rfl)
  · show ¬ ((pushed.signalPeer core.peer).updateIrqs.fifo d).full
    rw [hfifo, Function.update_of_ne hd]
    exact I.room d w h
  · -- the peer reads the mailbox that has one word more
    have hpeer : d.peer = core := (Core.eq_peer_of_ne (Ne.symm hd)).symm
    show ¬ ((pushed.signalPeer core.peer).updateIrqs.fifo d.peer).empty
    rw [hfifo, hpeer, Function.update_self]
    exact Nat.succ_ne_zero _

/-- The second access of `try_pop`. -/
theorem FifoRun.Inv.finish_pop (I : r.Inv) (hpending : r.pending core = some .tryPop) :
    (r.answered core .tryPop (r.dev.read core sioFifoRd).2
      (.popped (some (r.dev.read core sioFifoRd).1))).Inv := by
  have hword : ¬ (r.dev.fifo core.peer).empty := I.word core hpending
  let popped : SioState :=
    { r.dev with fifo := Function.update r.dev.fifo core.peer (r.dev.fifo core.peer).pop.2 }
  have hread : r.dev.read core sioFifoRd = ((r.dev.fifo core.peer).pop.1, popped.updateIrqs) := by
    unfold SioState.read
    rw [I.currentCore]
    exact if_neg hword
  rw [hread]
  refine I.answered ?_ rfl rfl I.flags (fun d => ?_) (fun d w hd h => ?_) (fun d hd h => ?_)
  · have hsplit : r.dev.words core.peer = _ := Mailbox.contents_pop hword
    rw [FifoCall.atomic, hsplit, words_update (t := popped.updateIrqs) rfl]
  · rw [if_neg fun h => FifoAnswer.noConfusion h.2]
    rfl
  · -- the peer writes the mailbox that has one word fewer
    have hpeer : d = core.peer := Core.eq_peer_of_ne hd
    subst hpeer
    show ¬ (Function.update r.dev.fifo core.peer (r.dev.fifo core.peer).pop.2 core.peer).full
    rw [Function.update_self]
    have hle := (r.dev.fifo core.peer).len_le
    intro hfull
    have : (r.dev.fifo core.peer).len - 1 = rp2040SioFifoDepth := hfull
    have hpos : (r.dev.fifo core.peer).len ≠ 0 := hword
    omega
  · show ¬ (Function.update r.dev.fifo core.peer (r.dev.fifo core.peer).pop.2 d.peer).empty
    have hne : d.peer ≠ core.peer :=
      fun h => hd (((eq_peer_iff _ _).mp h).trans (Core.peer_peer core))
    rw [Function.update_of_ne hne]
    exact I.word d h

/-- **One access.** -/
theorem FifoRun.Inv.step (I : r.Inv) {a : FifoStep} (h : fifoMachine.next r a = some r') :
    r'.Inv := by
  cases a with
  | call core c =>
      change (if r.pending core = none then some (r.begin core c) else none) = _ at h
      split at h
      · cases h
        exact I.begin core c
      · cases h
  | access core =>
      have hfinish : r.finish core = some r' := h
      rw [FifoRun.finish] at hfinish
      cases hpending : r.pending core with
      | none =>
          rw [hpending] at hfinish
          cases hfinish
      | some c =>
          rw [hpending] at hfinish
          cases c with
          | tryPush word => exact Option.some.inj hfinish ▸ I.finish_push hpending
          | tryPop => exact Option.some.inj hfinish ▸ I.finish_pop hpending
          | status | clearErrors => cases hfinish

theorem FifoRun.inv_init : FifoRun.init.Inv where
  replays := rfl
  flags _ := ⟨rfl, rfl⟩
  level := level_of_flags rfl fun _ => ⟨rfl, rfl⟩
  events _ := rfl
  cpu _ := rfl
  irq := rfl
  room _ _ h := by cases h
  word _ h := by cases h

/-- **Calls are atomic.**  However the accesses of the two cores interleave: the answers, in the
order in which they are given, are those of calls answered at once on two first-in first-out lists
of eight words, no word is written on full or read on empty, the irq line of a core tells whether a
word waits, and each word pushed signals the other core once. -/
theorem fifo_atomic {steps : List FifoStep} {r : FifoRun}
    (h : fifoMachine.exec .init steps = some r) : r.Atomic :=
  (Machine.exec_keeps (fun _ _ _ I hnext => I.step hnext) FifoRun.inv_init h).toAtomic

/-- Both cores have found what they need in the status before either acts on it. -/
def crossedSteps : List FifoStep :=
  [.call .core0 (.tryPush 7), .access .core0, .call .core0 (.tryPush 8), .call .core1 .tryPop,
    .access .core1, .access .core0, .call .core1 .tryPop, .access .core1, .call .core1 .tryPop]

theorem fifo_atomic_crossed :
    ∃ r, r.log.map FifoEntry.answer = [.pushed true, .popped (some 7), .pushed true,
      .popped (some 8), .popped none] ∧ FifoRun.Atomic r := by
  have hrun : (fifoMachine.exec .init crossedSteps).map (fun r => r.log.map FifoEntry.answer) =
      some [.pushed true, .popped (some 7), .pushed true, .popped (some 8), .popped none] := by
    decide +kernel
  obtain ⟨r, hr, hlog⟩ := Option.map_eq_some_iff.mp hrun
  exact ⟨r, hlog, fifo_atomic hr⟩

/-! ### The carrier -/

/-- A turn of `poll_send` pushes by a call answered at once, -/
theorem tryPush_eq_atomic (st : Rp2w.SioStatics) (core : Core) (word : U32) :
    st.tryPush rp2040SioFifoDepth core word =
      if ((FifoCall.tryPush word).atomic st.fifo core).2 = .pushed true then
        some { st with fifo := ((FifoCall.tryPush word).atomic st.fifo core).1 }
      else none := by
  unfold Rp2w.SioStatics.tryPush FifoCall.atomic
  split
  · exact (if_pos rfl).symm
  · exact (if_neg fun h => by cases h).symm

/-- and a turn of `poll_recv` pops by one. -/
theorem tryPop_eq_atomic (st : Rp2w.SioStatics) (core : Core) :
    (st.tryPop core).map Prod.snd =
        (match (FifoCall.tryPop.atomic st.fifo core).2 with
          | .popped word => word
          | _ => none) ∧
      ∀ p ∈ st.tryPop core, p.1 = { st with fifo := (FifoCall.tryPop.atomic st.fifo core).1 } := by
  unfold Rp2w.SioStatics.tryPop FifoCall.atomic
  cases st.fifo core.peer with
  | nil => exact ⟨rfl, fun _ h => by cases h⟩
  | cons word rest =>
      refine ⟨rfl, fun p h => ?_⟩
      cases h
      rfl

end HibanaPico.Rp2040Sio
