import HibanaPico.Sio.Types
import HibanaPico.Support.Ring

/-!
# RP2040 SIO — Device

The SIO block of the emulated RP2040: its registers, and the two mailboxes between the cores.  Core
`c` writes into mailbox `c` and reads from the mailbox of the other core.

* `Mailbox.contents_push`, `Mailbox.contents_pop`: a mailbox is a first-in first-out queue.
* `SioState.updateIrqs_irq_ne_zero`: the level of a core's irq line.
-/

namespace HibanaPico.Rp2040Sio
open HibanaPico.Support
open HibanaPico.Sio (Core)
open HibanaPico.Transport

def rp2040SioFifoDepth : ℕ := 8

/-! ### The mailbox -/

/-- `RP2040Mailbox`: a ring of words. -/
structure Mailbox where
  words : Cells U32
  head : ℕ
  len : ℕ
  head_lt : head < rp2040SioFifoDepth
  len_le : len ≤ rp2040SioFifoDepth

namespace Mailbox

theorem head_zero : 0 < rp2040SioFifoDepth := by decide

def cleared : Mailbox := ⟨fun _ => 0, 0, 0, head_zero, Nat.zero_le _⟩

/-- `rp2040_mailbox_full`. -/
def full (fifo : Mailbox) : Prop := fifo.len = rp2040SioFifoDepth

/-- `rp2040_mailbox_empty`. -/
def empty (fifo : Mailbox) : Prop := fifo.len = 0

instance (fifo : Mailbox) : Decidable fifo.full := inferInstanceAs (Decidable (_ = _))

instance (fifo : Mailbox) : Decidable fifo.empty := inferInstanceAs (Decidable (_ = _))

theorem len_lt_of_not_full {fifo : Mailbox} (h : ¬ fifo.full) : fifo.len < rp2040SioFifoDepth :=
  Nat.lt_of_le_of_ne fifo.len_le h

theorem mod_lt (n : ℕ) : n % rp2040SioFifoDepth < rp2040SioFifoDepth := Nat.mod_lt _ head_zero

theorem pred_le (fifo : Mailbox) : fifo.len - 1 ≤ rp2040SioFifoDepth :=
  Nat.le_trans (Nat.sub_le _ _) fifo.len_le

/-- `rp2040_mailbox_push`, of a mailbox that is not full. -/
def push (fifo : Mailbox) (value : U32) (h : ¬ fifo.full) : Mailbox :=
  let slot := (fifo.head + fifo.len) % rp2040SioFifoDepth
  ⟨Function.update fifo.words slot value, fifo.head, fifo.len + 1, fifo.head_lt,
    len_lt_of_not_full h⟩

/-- `rp2040_mailbox_pop`, of a mailbox that is not empty. -/
def pop (fifo : Mailbox) : U32 × Mailbox :=
  (fifo.words fifo.head,
    ⟨fifo.words, (fifo.head + 1) % rp2040SioFifoDepth, fifo.len - 1, mod_lt _, fifo.pred_le⟩)

/-- The words in a mailbox, oldest first. -/
def contents (fifo : Mailbox) : List U32 :=
  Ring.window fifo.words rp2040SioFifoDepth fifo.head fifo.len

@[simp] theorem length_contents (fifo : Mailbox) : fifo.contents.length = fifo.len :=
  Ring.length_window _ _ _ _

theorem empty_iff (fifo : Mailbox) : fifo.empty ↔ fifo.contents = [] := by
  rw [← List.length_eq_zero_iff, length_contents]
  exact Iff.rfl

@[simp] theorem contents_cleared : cleared.contents = [] := rfl

/-- A word pushed comes last. -/
theorem contents_push (fifo : Mailbox) (value : U32) (h : ¬ fifo.full) :
    (fifo.push value h).contents = fifo.contents ++ [value] :=
  Ring.window_write_tail fifo.words value fifo.head_lt (len_lt_of_not_full h)

/-- The oldest word is popped. -/
theorem contents_pop {fifo : Mailbox} (h : ¬ fifo.empty) :
    fifo.contents = fifo.pop.1 :: fifo.pop.2.contents := by
  obtain ⟨n, hn⟩ := Nat.exists_eq_succ_of_ne_zero h
  unfold contents pop
  simp only [hn, Nat.succ_eq_add_one, Nat.add_sub_cancel]
  exact Ring.window_uncons fifo.words fifo.head_lt n

end Mailbox

/-! ### The registers -/

def sioCpuid : ℕ := 0x000
def sioGpioOut : ℕ := 0x010
def sioGpioOutSet : ℕ := 0x014
def sioGpioOutClr : ℕ := 0x018
def sioGpioOutXor : ℕ := 0x01c
def sioGpioOe : ℕ := 0x020
def sioGpioOeSet : ℕ := 0x024
def sioGpioOeClr : ℕ := 0x028
def sioGpioOeXor : ℕ := 0x02c
def sioFifoSt : ℕ := 0x050
def sioFifoWr : ℕ := 0x054
def sioFifoRd : ℕ := 0x058
def sioSpinlockSt : ℕ := 0x05c

def sioFifoStVld : U32 := 1
def sioFifoStRdy : U32 := 2
def sioFifoStWof : U32 := 4
def sioFifoStRoe : U32 := 8

/-- `RP2040SIOState`: which cores are attached, the level of each core's irq line, and how often
`armv7m_set_event` was called on each. -/
structure SioState where
  cpu : Core → Bool
  gpioOut : U32
  gpioOe : U32
  stickyWof : Core → Bool
  stickyRoe : Core → Bool
  fifo : Core → Mailbox
  irq : Core → U32
  events : Core → ℕ

namespace SioState

/-- `rp2040_sio_current_core`, of an access by `current_cpu`. -/
def currentCore (s : SioState) (currentCpu : Core) : Core :=
  if s.cpu .core1 = true ∧ currentCpu = .core1 then .core1 else .core0

/-- `rp2040_sio_rx_fifo`. -/
def rxFifo (s : SioState) (core : Core) : Mailbox := s.fifo core.peer

/-- `rp2040_sio_tx_fifo`. -/
def txFifo (s : SioState) (core : Core) : Mailbox := s.fifo core

/-- `rp2040_sio_fifo_status`. -/
def fifoStatus (s : SioState) (core : Core) : U32 :=
  let status : U32 := 0
  let status := if ¬ (s.rxFifo core).empty then status ||| sioFifoStVld else status
  let status := if ¬ (s.txFifo core).full then status ||| sioFifoStRdy else status
  let status := if s.stickyWof core then status ||| sioFifoStWof else status
  if s.stickyRoe core then status ||| sioFifoStRoe else status

/-- `rp2040_sio_update_irqs`. -/
def updateIrqs (s : SioState) : SioState :=
  { s with irq := fun core =>
      s.fifoStatus core &&& (sioFifoStVld ||| sioFifoStWof ||| sioFifoStRoe) }

/-- `rp2040_sio_signal_peer`. -/
def signalPeer (s : SioState) (peer : Core) : SioState :=
  if s.cpu peer then { s with events := Function.update s.events peer (s.events peer + 1) } else s

/-- `rp2040_sio_reset`, of a machine with these cores attached. -/
def reset (cpu : Core → Bool) : SioState :=
  updateIrqs
    { cpu := cpu
      gpioOut := 0
      gpioOe := 0
      stickyWof := fun _ => false
      stickyRoe := fun _ => false
      fifo := fun _ => .cleared
      irq := fun _ => 0
      events := fun _ => 0 }

/-- `rp2040_sio_read`. -/
def read (s : SioState) (currentCpu : Core) (addr : ℕ) : U32 × SioState :=
  let core := s.currentCore currentCpu
  let rx := s.rxFifo core
  if addr = sioCpuid then (match core with | .core0 => 0 | .core1 => 1, s)
  else if addr = sioGpioOut then (s.gpioOut, s)
  else if addr = sioGpioOe then (s.gpioOe, s)
  else if addr = sioFifoSt then (s.fifoStatus core, s)
  else if addr = sioFifoRd then
    if rx.empty then
      (0, updateIrqs { s with stickyRoe := Function.update s.stickyRoe core true })
    else
      (rx.pop.1, updateIrqs { s with fifo := Function.update s.fifo core.peer rx.pop.2 })
  else if addr = sioSpinlockSt then (0, s)
  else (0, s)

/-- `rp2040_sio_write`. -/
def write (s : SioState) (currentCpu : Core) (addr : ℕ) (value : U32) : SioState :=
  let core := s.currentCore currentCpu
  let peer := core.peer
  let tx := s.txFifo core
  if addr = sioGpioOut then { s with gpioOut := value }
  else if addr = sioGpioOutSet then { s with gpioOut := s.gpioOut ||| value }
  else if addr = sioGpioOutClr then { s with gpioOut := s.gpioOut &&& ~~~value }
  else if addr = sioGpioOutXor then { s with gpioOut := s.gpioOut ^^^ value }
  else if addr = sioGpioOe then { s with gpioOe := value }
  else if addr = sioGpioOeSet then { s with gpioOe := s.gpioOe ||| value }
  else if addr = sioGpioOeClr then { s with gpioOe := s.gpioOe &&& ~~~value }
  else if addr = sioGpioOeXor then { s with gpioOe := s.gpioOe ^^^ value }
  else if addr = sioFifoSt then
    let s := if value &&& sioFifoStWof ≠ 0 then
      { s with stickyWof := Function.update s.stickyWof core false } else s
    let s := if value &&& sioFifoStRoe ≠ 0 then
      { s with stickyRoe := Function.update s.stickyRoe core false } else s
    s.updateIrqs
  else if addr = sioFifoWr then
    if h : tx.full then
      updateIrqs { s with stickyWof := Function.update s.stickyWof core true }
    else
      ({ s with fifo := Function.update s.fifo core (tx.push value h) }.signalPeer peer).updateIrqs
  else s

@[simp] theorem updateIrqs_fifo (s : SioState) : s.updateIrqs.fifo = s.fifo := rfl

@[simp] theorem signalPeer_fifo (s : SioState) (peer : Core) :
    (s.signalPeer peer).fifo = s.fifo := by
  unfold signalPeer
  split <;> rfl

@[simp] theorem signalPeer_stickyWof (s : SioState) (peer : Core) :
    (s.signalPeer peer).stickyWof = s.stickyWof := by
  unfold signalPeer
  split <;> rfl

@[simp] theorem signalPeer_stickyRoe (s : SioState) (peer : Core) :
    (s.signalPeer peer).stickyRoe = s.stickyRoe := by
  unfold signalPeer
  split <;> rfl

@[simp] theorem signalPeer_cpu (s : SioState) (peer : Core) : (s.signalPeer peer).cpu = s.cpu := by
  unfold signalPeer
  split <;> rfl

/-- A core is signalled when it is the peer, and attached. -/
theorem signalPeer_events (s : SioState) (peer core : Core) :
    (s.signalPeer peer).events core =
      s.events core + if s.cpu core = true ∧ peer = core then 1 else 0 := by
  unfold signalPeer
  by_cases hcore : peer = core
  · subst hcore
    by_cases hcpu : s.cpu peer = true
    · rw [if_pos hcpu, if_pos ⟨hcpu, rfl⟩]
      exact Function.update_self _ _ _
    · rw [if_neg hcpu, if_neg fun h => hcpu h.1]
      rfl
  · have hother : ¬ (s.cpu core = true ∧ peer = core) := fun h => hcore h.2
    rw [if_neg hother]
    split
    · exact Function.update_of_ne (Ne.symm hcore) _ _
    · rfl

/-! ### The irq lines -/

/-- The status of a core that has these four bits. -/
def statusOf (vld rdy wof roe : Bool) : U32 :=
  let status : U32 := 0
  let status := if vld then status ||| sioFifoStVld else status
  let status := if rdy then status ||| sioFifoStRdy else status
  let status := if wof then status ||| sioFifoStWof else status
  if roe then status ||| sioFifoStRoe else status

theorem statusOf_masked : ∀ vld rdy wof roe : Bool,
    statusOf vld rdy wof roe &&& (sioFifoStVld ||| sioFifoStWof ||| sioFifoStRoe) ≠ 0 ↔
      vld = true ∨ wof = true ∨ roe = true := by decide

theorem fifoStatus_eq (s : SioState) (core : Core) :
    s.fifoStatus core = statusOf (decide ¬ (s.rxFifo core).empty)
      (decide ¬ (s.txFifo core).full) (s.stickyWof core) (s.stickyRoe core) := by
  simp only [fifoStatus, statusOf, decide_eq_true_eq]

/-- The status depends on the mailboxes and the flags alone. -/
theorem fifoStatus_congr {s t : SioState} (hfifo : t.fifo = s.fifo)
    (hwof : t.stickyWof = s.stickyWof) (hroe : t.stickyRoe = s.stickyRoe) (core : Core) :
    t.fifoStatus core = s.fifoStatus core := by
  cases s
  cases t
  cases hfifo
  cases hwof
  cases hroe
  rfl

/-- The level of a core's irq line: a word to read, or one of its two sticky flags. -/
theorem updateIrqs_irq_ne_zero (s : SioState) (core : Core) :
    s.updateIrqs.irq core ≠ 0 ↔ (s.rxFifo core).contents ≠ [] ∨ s.stickyWof core = true ∨
      s.stickyRoe core = true := by
  show s.fifoStatus core &&& _ ≠ 0 ↔ _
  rw [fifoStatus_eq, statusOf_masked, decide_eq_true_eq, Mailbox.empty_iff]

end SioState

end HibanaPico.Rp2040Sio
