import Mathlib.Algebra.Group.Nat.Defs
import HibanaPico.Transport.Types

/-!
# Rp2w — gSPI

`rp2w_cyw43_gspi_transfer`: a transfer over a state machine of `PIO0`, with the chip select as a pin
of its own.  Every wait for a FIFO can time out, and an error returns at once.

* `Bus`, `Bus.write`: what the writes to the registers do to the pins and the state machine.
* `PioEnv`: what the status registers read, and what comes in.
* `transfer`: the transfer, write by write.
* `LeavesIdle`: the bus is idle when the transfer returns, and what it has transferred.
* `gspi_idle_iff`: when it is.
-/

namespace HibanaPico.Rp2w.Gspi
open HibanaPico.Transport

def cyw43PinWlData : ℕ := 24
def cyw43PinWlCs : ℕ := 25
def cyw43PinWlClock : ℕ := 29
def spiTimeoutSpins : ℕ := 500000

def gpioFuncPio0 : U32 := 6
def gpioFuncSio : U32 := 5
def gpioPadDefault : U32 := 0x56
def pioFstatRxemptySm0 : U32 := (1 : U32) <<< 8
def pioFstatTxfullSm0 : U32 := (1 : U32) <<< 16
def pioFdebugTxstallSm0 : U32 := (1 : U32) <<< 24
def pioFdebugSm0Flags : U32 := 0x01010101
def pioSm0Enable : U32 := 1
def pioSm0Restart : U32 := (1 : U32) <<< 4
def pioSm0ClkdivRestart : U32 := (1 : U32) <<< 8
def resetsPio0 : U32 := (1 : U32) <<< 11

/-- `Rp2wCyw43SpiError`. -/
inductive SpiError where
  | timeout
  | unavailable
  deriving DecidableEq, Repr

/-- The registers that the transfer writes. -/
inductive Register where
  | resetsResetClr
  | gpioOutSet
  | gpioOutClr
  | gpioPad (pin : ℕ)
  | gpioCtrl (pin : ℕ)
  | pioCtrl
  | pioFdebug
  | pioTxf0
  | pioInputSyncBypass
  | pioInstrMem (index : ℕ)
  | pioSm0Clkdiv
  | pioSm0Execctrl
  | pioSm0Shiftctrl
  | pioSm0Addr
  | pioSm0Instr
  | pioSm0Pinctrl
  deriving DecidableEq, Repr

/-- What the registers make of the pins of the bus. -/
structure Bus where
  /-- The level of `WL_CS`, a pin of the `SIO`. -/
  csHigh : Bool
  /-- State machine 0 is enabled. -/
  enabled : Bool
  pinctrl : U32
  /-- The function of `WL_DATA`. -/
  dataFunc : U32
  /-- `WL_DATA` is an output of the `SIO`. -/
  dataOe : Bool
  /-- `WL_DATA` is an output of `PIO0`. -/
  dataDir : Bool
  /-- The words put into the transmit FIFO, an observer's notes. -/
  txWords : List U32
  deriving DecidableEq

/-- An instruction that is executed at once: `set pindirs`, on one pin, or one that turns no pin. -/
def Bus.exec (b : Bus) (instr : U32) : Bus :=
  if instr &&& 0xffe0 = 0xe080 ∧ (b.pinctrl >>> 5 &&& 0x1f).toNat = cyw43PinWlData then
    { b with dataDir := instr.getLsbD 0 }
  else b

/-- A write to a register. -/
def Bus.write (b : Bus) (value : U32) : Register → Bus
  | .gpioOutSet => { b with csHigh := b.csHigh || value.getLsbD cyw43PinWlCs }
  | .gpioOutClr => { b with csHigh := b.csHigh && !value.getLsbD cyw43PinWlCs }
  | .gpioCtrl pin => if pin = cyw43PinWlData then { b with dataFunc := value } else b
  | .pioCtrl => { b with enabled := value.getLsbD 0 }
  | .pioTxf0 => { b with txWords := b.txWords ++ [value] }
  | .pioSm0Instr => b.exec value
  | .pioSm0Pinctrl => { b with pinctrl := value }
  | .resetsResetClr | .gpioPad _ | .pioFdebug | .pioInputSyncBypass | .pioInstrMem _
  | .pioSm0Clkdiv | .pioSm0Execctrl | .pioSm0Shiftctrl | .pioSm0Addr => b

/-- `WL_DATA` is an input. -/
def Bus.dataInput (b : Bus) : Prop :=
  if b.dataFunc = gpioFuncPio0 then b.dataDir = false
  else b.dataFunc = gpioFuncSio → b.dataOe = false

/-- The chip select is high, the state machine disabled, and `WL_DATA` an input. -/
structure Bus.Idle (b : Bus) : Prop where
  cs : b.csHigh = true
  disabled : b.enabled = false
  input : b.dataInput

/-- What the registers read, wait by wait. -/
structure PioEnv where
  /-- The word that a read of `FSTAT` or `FDEBUG` finds: of which wait, and after how many spins. -/
  status : ℕ → ℕ → U32
  /-- The words that come out of the receive FIFO. -/
  rxWord : ℕ → U32
  inputSyncBypass : U32
  /-- In this wait the program of the state machine comes to its own `set pindirs`. -/
  turns : ℕ → Bool

/-- The bus, the receive slice, and how many waits and receive words there have been. -/
structure GspiState where
  bus : Bus
  rx : List U8
  waits : ℕ
  words : ℕ

abbrev Call := ExceptT SpiError (StateM GspiState)

/-- What a call returns, and the state it leaves. -/
def Call.after {α : Type} (x : Call α) (s : GspiState) : Except SpiError α × GspiState :=
  (ExceptT.run x).run s

/-- `write_volatile`. -/
def write (r : Register) (value : U32) : Call Unit :=
  modify fun s => { s with bus := s.bus.write value r }

/-! ### Waits -/

/-- The loop of a wait: whether it ends before `SPI_TIMEOUT_SPINS`. -/
def spins (status : ℕ → U32) (busy : U32 → Bool) (spin : ℕ) : Bool :=
  if busy (status spin) then
    if spin > spiTimeoutSpins then false
    else spins status busy (spin + 1)
  else true
termination_by spiTimeoutSpins + 1 - spin

/-- A wait, while the state machine goes on. -/
def wait (env : PioEnv) (busy : U32 → Bool) : Call Unit := do
  let s ← get
  set { s with
    waits := s.waits + 1
    bus := { s.bus with dataDir := s.bus.dataDir && !(s.bus.enabled && env.turns s.waits) } }
  if spins (env.status s.waits) busy 0 then pure ()
  else throw .timeout

def txFull (status : U32) : Bool := status &&& pioFstatTxfullSm0 != 0

def rxEmpty (status : U32) : Bool := status &&& pioFstatRxemptySm0 != 0

def notStalled (status : U32) : Bool := status &&& pioFdebugTxstallSm0 == 0

/-- `pio_sm0_put`. -/
def pioSm0Put (env : PioEnv) (value : U32) : Call Unit := do
  wait env txFull
  write .pioTxf0 value

/-- `pio_sm0_get`. -/
def pioSm0Get (env : PioEnv) : Call U32 := do
  wait env rxEmpty
  let s ← get
  set { s with words := s.words + 1 }
  pure (env.rxWord s.words)

/-- `pio_sm0_wait_tx_stalled`. -/
def pioSm0WaitTxStalled (env : PioEnv) : Call Unit := do
  write .pioFdebug pioFdebugTxstallSm0
  wait env notStalled

/-! ### The transfer -/

/-- `pio_sm0_pinctrl`. -/
def pioSm0Pinctrl (setBase : ℕ) : U32 :=
  BitVec.ofNat 32 cyw43PinWlData ||| BitVec.ofNat 32 setBase <<< 5 |||
    BitVec.ofNat 32 cyw43PinWlClock <<< 10 ||| BitVec.ofNat 32 cyw43PinWlData <<< 15 |||
    (1 : U32) <<< 20 ||| (1 : U32) <<< 26 ||| (1 : U32) <<< 29

/-- `pio_sm0_exec`. -/
def pioSm0Exec (instr : U32) : Call Unit := write .pioSm0Instr instr

/-- `pio_sm0_set_pindir`. -/
def pioSm0SetPindir (pin : ℕ) (output : Bool) : Call Unit := do
  write .pioSm0Pinctrl (pioSm0Pinctrl pin)
  pioSm0Exec (0xe080 ||| if output then 1 else 0)
  write .pioSm0Pinctrl (pioSm0Pinctrl cyw43PinWlData)

/-- `pio_sm0_clear_fifos`. -/
def pioSm0ClearFifos (shiftctrl : U32) : Call Unit := do
  write .pioSm0Shiftctrl (shiftctrl ||| (1 : U32) <<< 31)
  write .pioSm0Shiftctrl shiftctrl
  write .pioFdebug pioFdebugSm0Flags

/-- `rp2w_gpio_write`. -/
def rp2wGpioWrite (pin : ℕ) (high : Bool) : Call Unit :=
  if high then write .gpioOutSet ((1 : U32) <<< pin) else write .gpioOutClr ((1 : U32) <<< pin)

def shiftctrl : U32 := (1 : U32) <<< 16 ||| (1 : U32) <<< 17

/-- `rp2w_cyw43_gspi_pio_init`.  What `reset_deassert` returns is dropped. -/
def rp2wCyw43GspiPioInit (env : PioEnv) : Call Unit := do
  write .resetsResetClr resetsPio0
  write .pioCtrl 0
  write (.pioInstrMem 0) 0x6001
  write (.pioInstrMem 1) 0x1040
  write (.pioInstrMem 2) 0xe080
  write (.pioInstrMem 3) 0x5001
  write (.pioInstrMem 4) 0x0083
  write (.pioInstrMem 5) 0x0000
  write (.gpioPad cyw43PinWlData) gpioPadDefault
  write (.gpioPad cyw43PinWlClock) gpioPadDefault
  write (.gpioCtrl cyw43PinWlData) gpioFuncPio0
  write (.gpioCtrl cyw43PinWlClock) gpioFuncPio0
  write .pioInputSyncBypass (env.inputSyncBypass ||| (1 : U32) <<< cyw43PinWlData)
  write .pioSm0Clkdiv ((32 : U32) <<< 16)
  write .pioSm0Execctrl ((4 : U32) <<< 12)
  write .pioSm0Shiftctrl shiftctrl
  write .pioSm0Pinctrl (pioSm0Pinctrl cyw43PinWlData)
  write .pioSm0Addr 0
  write .pioCtrl (pioSm0Restart ||| pioSm0ClkdivRestart)
  pioSm0SetPindir cyw43PinWlClock true
  pioSm0SetPindir cyw43PinWlData true
  pioSm0Exec 0xa003

/-- `u32::from_be_bytes`. -/
def fromBeBytes (b₀ b₁ b₂ b₃ : U8) : U32 := b₀ ++ b₁ ++ b₂ ++ b₃

/-- `u32::to_be_bytes`. -/
def toBeBytes (word : U32) : List U8 :=
  [word.extractLsb' 24 8, word.extractLsb' 16 8, word.extractLsb' 8 8, word.extractLsb' 0 8]

/-- `bytes_to_pio_word`. -/
def bytesToPioWord (bytes : List U8) (index : ℕ) : U32 :=
  let start := index * 4
  fromBeBytes (bytes.getD start 0) (bytes.getD (start + 1) 0) (bytes.getD (start + 2) 0)
    (bytes.getD (start + 3) 0)

/-- The first loop of the transfer, with so many words to come. -/
def putWords (env : PioEnv) (tx : List U8) : ℕ → ℕ → Call Unit
  | _, 0 => pure ()
  | index, left + 1 => do
      pioSm0Put env (bytesToPioWord tx index)
      putWords env tx (index + 1) left

/-- `rx[start..start + 4]`, assigned byte by byte. -/
def storeWord (rx : List U8) (start : ℕ) (word : U32) : List U8 :=
  (((rx.set start (word.extractLsb' 24 8)).set (start + 1) (word.extractLsb' 16 8)).set (start + 2)
    (word.extractLsb' 8 8)).set (start + 3) (word.extractLsb' 0 8)

/-- The second loop of the transfer, with so many words to come. -/
def getWords (env : PioEnv) : ℕ → ℕ → Call Unit
  | _, 0 => pure ()
  | index, left + 1 => do
      let word ← pioSm0Get env
      modify fun s => { s with rx := storeWord s.rx (index * 4) word }
      getWords env (index + 1) left

/-- What the transfer does before the first wait. -/
def setUp (env : PioEnv) (rxLen : ℕ) : Call Unit := do
  rp2wCyw43GspiPioInit env
  write .pioCtrl 0
  write .pioSm0Execctrl ((if rxLen = 0 then (1 : U32) else 4) <<< 12)
  write .pioSm0Shiftctrl shiftctrl
  write .pioSm0Pinctrl (pioSm0Pinctrl cyw43PinWlData)
  write .pioSm0Addr 0
  pioSm0ClearFifos shiftctrl
  pioSm0SetPindir cyw43PinWlData true
  write .pioCtrl (pioSm0Restart ||| pioSm0ClkdivRestart)

/-- What it does after the last one. -/
def tearDown : Call Unit := do
  write .pioCtrl 0
  pioSm0SetPindir cyw43PinWlData false
  pioSm0Exec 0xa003
  rp2wGpioWrite cyw43PinWlCs true

/-- The lengths that the transfer refuses. -/
def refuses (tx rx : List U8) : Bool :=
  tx.isEmpty || tx.length &&& 3 != 0 || rx.length &&& 3 != 0

/-- The two numbers that the program is given: how many bits to send and to receive, less one. -/
def txBits (tx : List U8) : U32 := BitVec.ofNat 32 (tx.length * 8 - 1)

def rxBits (rx : List U8) : U32 :=
  if rx.length * 8 = 0 then 0 else BitVec.ofNat 32 (rx.length * 8 - 1)

/-- The two numbers are loaded, the chip selected, and the program started. -/
def select (env : PioEnv) (tx rx : List U8) : Call Unit := do
  pioSm0Put env (txBits tx)
  pioSm0Exec 0x6020
  pioSm0Put env (rxBits rx)
  pioSm0Exec 0x6040
  pioSm0Exec 0x0000
  rp2wGpioWrite cyw43PinWlCs false
  write .pioCtrl pioSm0Enable

/-- The words come in, or, when none are wanted, the program stalls. -/
def receive (env : PioEnv) (rx : List U8) : Call Unit :=
  if rx.isEmpty then pioSm0WaitTxStalled env else getWords env 0 (rx.length / 4)

/-- `rp2w_cyw43_gspi_transfer`. -/
def transfer (env : PioEnv) (tx : List U8) : Call Unit := do
  let rx := (← get).rx
  if refuses tx rx then throw .unavailable
  else do
    setUp env rx.length
    select env tx rx
    putWords env tx 0 (tx.length / 4)
    receive env rx
    tearDown

variable {env : PioEnv} {s t : GspiState} {α β : Type}

/-! ### Runs of the calls -/

theorem after_bind_ok {x : Call α} {f : α → Call β} {a : α} (h : x.after s = (.ok a, t)) :
    (x >>= f).after s = (f a).after t := by
  have hx : (ExceptT.run x) s = (.ok a, t) := h
  change ((ExceptT.run x) s |> fun p => (ExceptT.bindCont f p.1) p.2) = _
  rw [hx]
  rfl

theorem after_bind_error {x : Call α} {f : α → Call β} {e : SpiError}
    (h : x.after s = (.error e, t)) : (x >>= f).after s = (.error e, t) := by
  have hx : (ExceptT.run x) s = (.error e, t) := h
  change ((ExceptT.run x) s |> fun p => (ExceptT.bindCont f p.1) p.2) = _
  rw [hx]
  rfl

@[simp] theorem after_write (r : Register) (value : U32) :
    (write r value).after s = (.ok (), { s with bus := s.bus.write value r }) := rfl

theorem after_bind_write (r : Register) (value : U32) (f : Unit → Call β) :
    (write r value >>= f).after s = (f ()).after { s with bus := s.bus.write value r } :=
  after_bind_ok (after_write r value)

/-- An instruction other than a `set pindirs` turns no pin. -/
theorem exec_of_ne {b : Bus} {instr : U32} (h : instr &&& 0xffe0 ≠ 0xe080) : b.exec instr = b :=
  if_neg fun hboth => h hboth.1

/-- The base of `set` in what `pio_sm0_pinctrl` writes. -/
theorem setBase_pinctrl : ∀ pin < 32, (pioSm0Pinctrl pin >>> 5 &&& 0x1f).toNat = pin := by decide

/-- `pio_sm0_set_pindir` turns its pin, and leaves `WL_DATA` as the base. -/
theorem setPindir_after {pin : ℕ} (hpin : pin < 32) (output : Bool) :
    (pioSm0SetPindir pin output).after s = (.ok (), { s with
      bus := { s.bus with
        pinctrl := pioSm0Pinctrl cyw43PinWlData
        dataDir := if pin = cyw43PinWlData then output else s.bus.dataDir } }) := by
  have hopcode : (0xe080 ||| if output then 1 else 0 : U32) &&& 0xffe0 = 0xe080 := by
    cases output <;> decide
  have hoperand : (0xe080 ||| if output then 1 else 0 : U32).getLsbD 0 = output := by
    cases output <;> decide
  rw [pioSm0SetPindir, after_bind_write, pioSm0Exec, after_bind_write, after_write]
  simp only [Bus.write, Bus.exec, setBase_pinctrl pin hpin, hopcode, hoperand, true_and]
  split <;> rfl

/-- The bus once the transfer has set up the state machine. -/
def Bus.setUp (b : Bus) : Bus :=
  { b with
    enabled := false, pinctrl := pioSm0Pinctrl cyw43PinWlData, dataFunc := gpioFuncPio0
    dataDir := true }

theorem pioInit_after :
    (rp2wCyw43GspiPioInit env).after s = (.ok (), { s with bus := s.bus.setUp }) := by
  have hclock (f : Unit → Call Unit) (s : GspiState) :=
    after_bind_ok (f := f) (setPindir_after (s := s) (show cyw43PinWlClock < 32 by decide) true)
  have hdata (f : Unit → Call Unit) (s : GspiState) :=
    after_bind_ok (f := f) (setPindir_after (s := s) (show cyw43PinWlData < 32 by decide) true)
  have hneq : cyw43PinWlClock ≠ cyw43PinWlData := by decide
  simp only [rp2wCyw43GspiPioInit, pioSm0Exec, after_bind_write, after_write, Bus.write, hclock,
    hdata, if_neg hneq, if_true]
  rw [exec_of_ne (by decide)]
  rfl

theorem setUp_after (rxLen : ℕ) :
    (setUp env rxLen).after s = (.ok (), { s with bus := s.bus.setUp }) := by
  have hdata (f : Unit → Call Unit) (s : GspiState) :=
    after_bind_ok (f := f) (setPindir_after (s := s) (show cyw43PinWlData < 32 by decide) true)
  rw [setUp, after_bind_ok pioInit_after]
  simp only [pioSm0ClearFifos, bind_assoc, after_bind_write, after_write, Bus.write, hdata, if_true]
  rfl

/-- The bus once the transfer has put everything back. -/
def Bus.tearDown (b : Bus) : Bus :=
  { b with
    csHigh := true, enabled := false, pinctrl := pioSm0Pinctrl cyw43PinWlData, dataDir := false }

theorem tearDown_after : tearDown.after s = (.ok (), { s with bus := s.bus.tearDown }) := by
  have hdata (f : Unit → Call Unit) (s : GspiState) :=
    after_bind_ok (f := f) (setPindir_after (s := s) (show cyw43PinWlData < 32 by decide) false)
  have hcs : ((1 : U32) <<< cyw43PinWlCs).getLsbD cyw43PinWlCs = true := by decide
  simp only [tearDown, rp2wGpioWrite, pioSm0Exec, after_bind_write, after_write, Bus.write, hdata,
    if_true]
  rw [exec_of_ne (by decide), hcs, Bool.or_true]
  rfl

/-! ### Waits and loops -/

/-- A status word that is looked for comes before a wait times out. -/
def Ready (env : PioEnv) (i : ℕ) (busy : U32 → Bool) : Prop :=
  ∃ j ≤ spiTimeoutSpins + 1, busy (env.status i j) = false

/-- The loop ends exactly when the status word comes in time. -/
theorem spins_iff (status : ℕ → U32) (busy : U32 → Bool) {spin : ℕ}
    (hspin : spin ≤ spiTimeoutSpins + 1) :
    spins status busy spin = true ↔
      ∃ j, spin ≤ j ∧ j ≤ spiTimeoutSpins + 1 ∧ busy (status j) = false := by
  induction hleft : spiTimeoutSpins + 1 - spin generalizing spin with
  | zero =>
      obtain rfl : spin = spiTimeoutSpins + 1 := by omega
      rw [spins]
      cases hbusy : busy (status (spiTimeoutSpins + 1)) with
      | false => exact iff_of_true rfl ⟨_, Nat.le_refl _, Nat.le_refl _, hbusy⟩
      | true =>
          rw [if_pos rfl, if_pos (Nat.lt_succ_self _)]
          refine iff_of_false Bool.false_ne_true ?_
          rintro ⟨j, hge, hle, hj⟩
          rw [Nat.le_antisymm hle hge, hbusy] at hj
          cases hj
  | succ left ih =>
      rw [spins]
      cases hbusy : busy (status spin) with
      | false => exact iff_of_true rfl ⟨spin, Nat.le_refl _, hspin, hbusy⟩
      | true =>
          rw [if_pos rfl, if_neg (by omega), ih (by omega) (by omega)]
          constructor
          · rintro ⟨j, hge, hle, hj⟩
            exact ⟨j, by omega, hle, hj⟩
          · rintro ⟨j, hge, hle, hj⟩
            refine ⟨j, Nat.lt_of_le_of_ne hge ?_, hle, hj⟩
            rintro rfl
            rw [hbusy] at hj
            cases hj

/-- The state after a wait, whether or not it timed out. -/
def GspiState.waited (s : GspiState) (env : PioEnv) : GspiState :=
  { s with
    waits := s.waits + 1
    bus := { s.bus with dataDir := s.bus.dataDir && !(s.bus.enabled && env.turns s.waits) } }

theorem ready_iff (env : PioEnv) (i : ℕ) (busy : U32 → Bool) :
    spins (env.status i) busy 0 = true ↔ Ready env i busy := by
  rw [spins_iff _ _ (Nat.zero_le _)]
  simp [Ready]

theorem wait_ready {busy : U32 → Bool} (h : Ready env s.waits busy) :
    (wait env busy).after s = (.ok (), s.waited env) := by
  have hspins := (ready_iff env s.waits busy).mpr h
  change (if spins (env.status s.waits) busy 0 then (pure () : Call Unit) else throw .timeout).after
    (s.waited env) = _
  rw [if_pos hspins]
  rfl

theorem wait_timeout {busy : U32 → Bool} (h : ¬ Ready env s.waits busy) :
    (wait env busy).after s = (.error .timeout, s.waited env) := by
  have hspins := mt (ready_iff env s.waits busy).mp h
  change (if spins (env.status s.waits) busy 0 then (pure () : Call Unit) else throw .timeout).after
    (s.waited env) = _
  rw [if_neg hspins]
  rfl

/-- The state after a put. -/
def GspiState.put (s : GspiState) (env : PioEnv) (value : U32) : GspiState :=
  { s.waited env with bus := { (s.waited env).bus with txWords := s.bus.txWords ++ [value] } }

theorem put_ready (value : U32) (h : Ready env s.waits txFull) :
    (pioSm0Put env value).after s = (.ok (), s.put env value) := by
  rw [pioSm0Put, after_bind_ok (wait_ready h), after_write]
  rfl

theorem put_timeout (value : U32) (h : ¬ Ready env s.waits txFull) :
    (pioSm0Put env value).after s = (.error .timeout, s.waited env) :=
  after_bind_error (wait_timeout h)

theorem get_ready (h : Ready env s.waits rxEmpty) :
    (pioSm0Get env).after s =
      (.ok (env.rxWord s.words), { s.waited env with words := s.words + 1 }) := by
  rw [pioSm0Get, after_bind_ok (wait_ready h)]
  rfl

theorem get_timeout (h : ¬ Ready env s.waits rxEmpty) :
    (pioSm0Get env).after s = (.error .timeout, s.waited env) :=
  after_bind_error (wait_timeout h)

/-- What the loops leave as it is. -/
structure SameLines (s t : GspiState) : Prop where
  cs : t.bus.csHigh = s.bus.csHigh
  func : t.bus.dataFunc = s.bus.dataFunc

theorem sameLines_waited (s : GspiState) (env : PioEnv) : SameLines s (s.waited env) := ⟨rfl, rfl⟩

/-- The waits of a loop: its first, and those that are left from the next one on. -/
theorem forall_ready_succ {busy : U32 → Bool} {waits left : ℕ} :
    (∀ i < left + 1, Ready env (waits + i) busy) ↔
      Ready env waits busy ∧ ∀ i < left, Ready env (waits + 1 + i) busy := by
  rw [Nat.forall_lt_succ_left]
  simp only [Nat.add_zero, Nat.add_right_comm waits 1, Nat.add_assoc]

/-- **The words go out**, when every wait is in time. -/
theorem putWords_ready (tx : List U8) (index left : ℕ)
    (h : ∀ i < left, Ready env (s.waits + i) txFull) :
    ∃ t, (putWords env tx index left).after s = (.ok (), t) ∧ SameLines s t ∧
      t.waits = s.waits + left ∧ t.words = s.words ∧ t.rx = s.rx ∧
      t.bus.txWords = s.bus.txWords ++ (List.range' index left).map (bytesToPioWord tx) := by
  induction left generalizing s index with
  | zero => exact ⟨s, rfl, ⟨rfl, rfl⟩, rfl, rfl, rfl, (List.append_nil _).symm⟩
  | succ left ih =>
      obtain ⟨hfirst, hrest⟩ := forall_ready_succ.mp h
      have hput := put_ready (bytesToPioWord tx index) hfirst
      obtain ⟨t, ht, hlines, hwaits, hwords, hrx, htx⟩ := ih (index + 1)
        (s := s.put env (bytesToPioWord tx index)) hrest
      refine ⟨t, ?_, ⟨hlines.cs, hlines.func⟩, ?_, hwords, hrx, ?_⟩
      · rw [putWords, after_bind_ok hput, ht]
      · rw [hwaits, GspiState.put, GspiState.waited]
        dsimp only
        omega
      · rw [htx, List.range'_succ, List.map_cons, GspiState.put, List.append_assoc,
          List.singleton_append]

theorem putWords_timeout (tx : List U8) (index left : ℕ)
    (h : ¬ ∀ i < left, Ready env (s.waits + i) txFull) :
    ∃ t, (putWords env tx index left).after s = (.error .timeout, t) ∧ SameLines s t := by
  induction left generalizing s index with
  | zero => exact absurd (fun i hi => absurd hi (Nat.not_lt_zero i)) h
  | succ left ih =>
      by_cases hfirst : Ready env s.waits txFull
      · have hput := put_ready (bytesToPioWord tx index) hfirst
        obtain ⟨t, ht, hlines⟩ := ih (index + 1)
          (s := s.put env (bytesToPioWord tx index))
          fun hrest => h (forall_ready_succ.mpr ⟨hfirst, hrest⟩)
        refine ⟨t, ?_, ⟨hlines.cs, hlines.func⟩⟩
        rw [putWords, after_bind_ok hput, ht]
      · exact ⟨_, after_bind_error (put_timeout _ hfirst), sameLines_waited s env⟩

theorem storeWord_eq (done rest : List U8) (h : 4 ≤ rest.length) (word : U32) :
    storeWord (done ++ rest) done.length word = done ++ toBeBytes word ++ rest.drop 4 := by
  match rest, h with
  | a :: b :: c :: d :: rest, _ =>
      simp [storeWord, toBeBytes, List.set_append_right]

/-- **The words come in**, when every wait is in time. -/
theorem getWords_ready (index left : ℕ) (done rest : List U8)
    (h : ∀ i < left, Ready env (s.waits + i) rxEmpty) (hrx : s.rx = done ++ rest)
    (hdone : done.length = index * 4) (hrest : left * 4 ≤ rest.length) :
    ∃ t, (getWords env index left).after s = (.ok (), t) ∧ SameLines s t ∧
      t.bus.txWords = s.bus.txWords ∧
      t.rx = done ++ (List.range' s.words left).flatMap (fun i => toBeBytes (env.rxWord i)) ++
        rest.drop (left * 4) := by
  induction left generalizing s index done rest with
  | zero => exact ⟨s, rfl, ⟨rfl, rfl⟩, rfl, by simpa using hrx⟩
  | succ left ih =>
      obtain ⟨hfirst, hlater⟩ := forall_ready_succ.mp h
      have hget := get_ready hfirst
      have hstore := storeWord_eq done rest (by omega) (env.rxWord s.words)
      rw [← hrx, hdone] at hstore
      obtain ⟨t, ht, hlines, htx, hrx'⟩ := ih (index + 1)
        (done ++ toBeBytes (env.rxWord s.words)) (rest.drop 4)
        (s := { s.waited env with
          words := s.words + 1, rx := storeWord s.rx (index * 4) (env.rxWord s.words) })
        hlater hstore (by rw [List.length_append, hdone, toBeBytes]; simp; omega)
        (by rw [List.length_drop]; omega)
      refine ⟨t, ?_, ⟨hlines.cs, hlines.func⟩, htx, ?_⟩
      · rw [getWords, after_bind_ok hget]
        exact ht
      · rw [hrx', List.range'_succ, List.flatMap_cons, List.drop_drop, List.append_assoc,
          List.append_assoc, List.append_assoc, List.append_assoc,
          show 4 + left * 4 = (left + 1) * 4 by omega]

theorem getWords_timeout (index left : ℕ)
    (h : ¬ ∀ i < left, Ready env (s.waits + i) rxEmpty) :
    ∃ t, (getWords env index left).after s = (.error .timeout, t) ∧ SameLines s t := by
  induction left generalizing s index with
  | zero => exact absurd (fun i hi => absurd hi (Nat.not_lt_zero i)) h
  | succ left ih =>
      by_cases hfirst : Ready env s.waits rxEmpty
      · have hget := get_ready hfirst
        obtain ⟨t, ht, hlines⟩ := ih (index + 1)
          (s := { s.waited env with
            words := s.words + 1, rx := storeWord s.rx (index * 4) (env.rxWord s.words) })
          fun hrest => h (forall_ready_succ.mpr ⟨hfirst, hrest⟩)
        refine ⟨t, ?_, ⟨hlines.cs, hlines.func⟩⟩
        rw [getWords, after_bind_ok hget]
        exact ht
      · exact ⟨_, after_bind_error (get_timeout hfirst), sameLines_waited s env⟩

/-! ### The transfer -/

/-- A transfer that begins: nothing put, nothing received. -/
def GspiState.start (b : Bus) (rx : List U8) : GspiState :=
  { bus := { b with txWords := [] }, rx, waits := 0, words := 0 }

/-- No wait of the transfer times out. -/
structure InTime (env : PioEnv) (tx rx : List U8) : Prop where
  puts : ∀ i < 2 + tx.length / 4, Ready env i txFull
  gets : ∀ i < rx.length / 4, Ready env (2 + tx.length / 4 + i) rxEmpty
  stall : rx = [] → Ready env (2 + tx.length / 4) notStalled

/-- When the transfer returns the bus is idle; if it returns `Ok`, the words of `tx` were put after
the two bit counts, and `rx` is filled with the words received. -/
def LeavesIdle (env : PioEnv) (tx rx : List U8) (b : Bus) : Prop :=
  let out := (transfer env tx).after (.start b rx)
  out.2.bus.Idle ∧ (out.1 = .ok () →
    out.2.bus.txWords =
      txBits tx :: rxBits rx :: (List.range (tx.length / 4)).map (bytesToPioWord tx) ∧
    out.2.rx = (List.range (rx.length / 4)).flatMap (fun i => toBeBytes (env.rxWord i)) ∧
    out.2.rx.length = rx.length)

theorem exec_after {instr : U32} (h : instr &&& 0xffe0 ≠ 0xe080) :
    (pioSm0Exec instr).after s = (.ok (), s) := by
  rw [pioSm0Exec, after_write, Bus.write, exec_of_ne h]

theorem csLow_after : (rp2wGpioWrite cyw43PinWlCs false).after s =
    (.ok (), { s with bus := { s.bus with csHigh := false } }) := by
  have hbit : ((1 : U32) <<< cyw43PinWlCs).getLsbD cyw43PinWlCs = true := by decide
  change (write .gpioOutClr ((1 : U32) <<< cyw43PinWlCs)).after s = _
  rw [after_write, Bus.write, hbit, Bool.not_true, Bool.and_false]

/-- The chip is selected once the two numbers are loaded. -/
theorem select_ready (tx rx : List U8) (h₀ : Ready env s.waits txFull)
    (h₁ : Ready env (s.waits + 1) txFull) :
    ∃ t, (select env tx rx).after s = (.ok (), t) ∧ t.bus.csHigh = false ∧
      t.bus.dataFunc = s.bus.dataFunc ∧ t.waits = s.waits + 2 ∧ t.words = s.words ∧
      t.rx = s.rx ∧ t.bus.txWords = s.bus.txWords ++ [txBits tx, rxBits rx] := by
  have hput := put_ready (txBits tx) h₀
  have hput' := put_ready (s := s.put env (txBits tx)) (rxBits rx) h₁
  have hselect : (select env tx rx).after s = (.ok (),
      let u := (s.put env (txBits tx)).put env (rxBits rx)
      { u with bus := { u.bus with csHigh := false, enabled := pioSm0Enable.getLsbD 0 } }) := by
    rw [select, after_bind_ok hput, after_bind_ok (exec_after (by decide)), after_bind_ok hput',
      after_bind_ok (exec_after (by decide)), after_bind_ok (exec_after (by decide)),
      after_bind_ok csLow_after, after_write]
    rfl
  exact ⟨_, hselect, rfl, rfl, rfl, rfl, rfl, List.append_assoc _ _ _⟩

/-- A time-out before the chip is selected leaves `WL_DATA` as the transfer set it up. -/
theorem select_timeout (tx rx : List U8) (hdisabled : s.bus.enabled = false)
    (h : ¬ (Ready env s.waits txFull ∧ Ready env (s.waits + 1) txFull)) :
    ∃ t, (select env tx rx).after s = (.error .timeout, t) ∧
      t.bus.dataFunc = s.bus.dataFunc ∧ t.bus.dataDir = s.bus.dataDir := by
  by_cases h₀ : Ready env s.waits txFull
  · have hput := put_ready (txBits tx) h₀
    have hput' := put_timeout (s := s.put env (txBits tx)) (rxBits rx)
      fun h₁ => h ⟨h₀, h₁⟩
    refine ⟨(s.put env (txBits tx)).waited env, ?_, rfl, ?_⟩
    · rw [select, after_bind_ok hput, after_bind_ok (exec_after (by decide)),
        after_bind_error hput']
    · simp [GspiState.put, GspiState.waited, hdisabled]
  · refine ⟨s.waited env, after_bind_error (put_timeout _ h₀), rfl, ?_⟩
    simp [GspiState.waited, hdisabled]

theorem transfer_refused {tx rx : List U8} {b : Bus} (h : refuses tx rx = true) :
    (transfer env tx).after (.start b rx) = (.error .unavailable, .start b rx) := by
  change (if refuses tx rx then (throw .unavailable : Call Unit) else _).after (.start b rx) = _
  rw [if_pos h]
  rfl

/-- What an accepted transfer goes on with, from the bus as it was set up. -/
theorem transfer_begun {tx rx : List U8} {b : Bus} (h : refuses tx rx = false) :
    (transfer env tx).after (.start b rx) =
      (do
        select env tx rx
        putWords env tx 0 (tx.length / 4)
        receive env rx
        tearDown : Call Unit).after (.start b.setUp rx) := by
  change (if refuses tx rx then (throw .unavailable : Call Unit) else _).after (.start b rx) = _
  rw [if_neg (by rw [h]; exact Bool.false_ne_true), after_bind_ok (setUp_after _)]
  rfl

/-- A bus that is put back is idle, when `WL_DATA` is a pin of `PIO0`. -/
theorem Bus.idle_tearDown {b : Bus} (h : b.dataFunc = gpioFuncPio0) : b.tearDown.Idle where
  cs := rfl
  disabled := rfl
  input := by
    rw [Bus.dataInput, if_pos (show b.tearDown.dataFunc = _ from h)]
    rfl

/-- The receive slice is a number of words. -/
theorem words_of_accepted {tx rx : List U8} (h : refuses tx rx = false) :
    rx.length / 4 * 4 = rx.length := by
  have hrx : rx.length &&& 3 = 0 := by
    simp only [refuses, Bool.or_eq_false_iff, bne_eq_false_iff_eq] at h
    exact h.2
  rw [show (3 : ℕ) = 2 ^ 2 - 1 from rfl, Nat.and_two_pow_sub_one_eq_mod] at hrx
  exact Nat.div_mul_cancel (Nat.dvd_of_mod_eq_zero hrx)

theorem stalled_after :
    (pioSm0WaitTxStalled env).after s = (wait env notStalled).after s := by
  rw [pioSm0WaitTxStalled, after_bind_write]
  rfl

/-- The last waits: for the program to stall, or for the words that come in. -/
theorem receive_ready {tx rx : List U8} (h : InTime env tx rx)
    (hwords : rx.length / 4 * 4 = rx.length) (hs : s.waits = 2 + tx.length / 4)
    (hfirst : s.words = 0) (hrx : s.rx = rx) :
    ∃ t, (receive env rx).after s = (.ok (), t) ∧ SameLines s t ∧
      t.bus.txWords = s.bus.txWords ∧
      t.rx = (List.range (rx.length / 4)).flatMap (fun i => toBeBytes (env.rxWord i)) := by
  rw [receive]
  cases hempty : rx.isEmpty with
  | true =>
      obtain rfl : rx = [] := List.isEmpty_iff.mp hempty
      exact ⟨s.waited env, stalled_after.trans (wait_ready (hs ▸ h.stall rfl)),
        sameLines_waited s env, rfl, hrx⟩
  | false =>
      obtain ⟨t, ht, hlines, htx, hget⟩ := getWords_ready 0 (rx.length / 4) [] rx
        (fun i hi => hs ▸ h.gets i hi) hrx rfl (Nat.le_of_eq hwords)
      refine ⟨t, ht, hlines, htx, ?_⟩
      rw [hget, hfirst, List.nil_append, hwords, List.drop_length, List.append_nil,
        List.range_eq_range']

theorem receive_timeout {tx : List U8} (rx : List U8) (hs : s.waits = 2 + tx.length / 4)
    (h : ¬ ((∀ i < rx.length / 4, Ready env (2 + tx.length / 4 + i) rxEmpty) ∧
      (rx = [] → Ready env (2 + tx.length / 4) notStalled))) :
    ∃ t, (receive env rx).after s = (.error .timeout, t) ∧ SameLines s t := by
  rw [receive]
  cases hempty : rx.isEmpty with
  | true =>
      obtain rfl : rx = [] := List.isEmpty_iff.mp hempty
      have hnot : ¬ Ready env s.waits notStalled := fun hready =>
        h ⟨fun i hi => absurd hi (Nat.not_lt_zero i), fun _ => hs ▸ hready⟩
      exact ⟨s.waited env, stalled_after.trans (wait_timeout hnot), sameLines_waited s env⟩
  | false =>
      refine getWords_timeout 0 _ fun hgets => h ⟨fun i hi => hs ▸ hgets i hi, ?_⟩
      rintro rfl
      cases hempty

/-- **In time.**  A transfer whose waits are all in time puts its words, fills the slice, and leaves
the bus idle. -/
theorem transfer_inTime {tx rx : List U8} (b : Bus) (haccepted : refuses tx rx = false)
    (h : InTime env tx rx) :
    ∃ t, (transfer env tx).after (.start b rx) = (.ok (), t) ∧ t.bus.Idle ∧
      t.bus.txWords =
        txBits tx :: rxBits rx :: (List.range (tx.length / 4)).map (bytesToPioWord tx) ∧
      t.rx = (List.range (rx.length / 4)).flatMap (fun i => toBeBytes (env.rxWord i)) := by
  obtain ⟨t₁, hselect, -, hfunc₁, hwaits₁, hwords₁, hrx₁, htx₁⟩ :=
    select_ready (s := .start b.setUp rx) tx rx (h.puts 0 (by omega))
      (h.puts 1 (by omega))
  have hwaits₁' : t₁.waits = 2 := hwaits₁
  obtain ⟨t₂, hput, hlines₂, hwaits₂, hwords₂, hrx₂, htx₂⟩ :=
    putWords_ready tx 0 (tx.length / 4) (s := t₁) fun i hi => by
      rw [hwaits₁']
      exact h.puts _ (by omega)
  obtain ⟨t₃, hreceive, hlines₃, htx₃, hrx₃⟩ := receive_ready h (words_of_accepted haccepted)
    (hwaits₂.trans (by rw [hwaits₁'])) (hwords₂.trans hwords₁) (hrx₂.trans hrx₁)
  have hfunc : t₃.bus.dataFunc = gpioFuncPio0 :=
    (hlines₃.func.trans hlines₂.func).trans hfunc₁
  refine ⟨{ t₃ with bus := t₃.bus.tearDown }, ?_, Bus.idle_tearDown hfunc, ?_, hrx₃⟩
  · rw [transfer_begun haccepted, after_bind_ok hselect, after_bind_ok hput,
      after_bind_ok hreceive, tearDown_after]
  · change t₃.bus.txWords = _
    rw [htx₃, htx₂, htx₁, ← List.range_eq_range']
    rfl

/-- **Timed out.**  A transfer that times out leaves the chip selected, or `WL_DATA` an output. -/
theorem transfer_timeout {tx rx : List U8} (b : Bus) (haccepted : refuses tx rx = false)
    (h : ¬ InTime env tx rx) :
    ∃ t, (transfer env tx).after (.start b rx) = (.error .timeout, t) ∧
      (t.bus.csHigh = false ∨ ¬ t.bus.dataInput) := by
  rw [transfer_begun haccepted]
  by_cases hselected : Ready env 0 txFull ∧ Ready env 1 txFull
  · obtain ⟨t₁, hselect, hcs₁, -, hwaits₁, -⟩ :=
      select_ready (s := .start b.setUp rx) tx rx hselected.1
        hselected.2
    have hwaits₁' : t₁.waits = 2 := hwaits₁
    rw [after_bind_ok hselect]
    by_cases hputs : ∀ i < tx.length / 4, Ready env (t₁.waits + i) txFull
    · obtain ⟨t₂, hput, hlines₂, hwaits₂, -⟩ := putWords_ready tx 0 _ hputs
      have hlast := receive_timeout rx (hwaits₂.trans (by rw [hwaits₁'])) fun hlast =>
        h { puts := fun i hi => by
              match i with
              | 0 => exact hselected.1
              | 1 => exact hselected.2
              | i + 2 =>
                  have := hputs i (by omega)
                  rwa [hwaits₁', Nat.add_comm] at this
            gets := hlast.1
            stall := hlast.2 }
      obtain ⟨t₃, hreceive, hlines₃⟩ := hlast
      refine ⟨t₃, ?_, .inl ((hlines₃.cs.trans hlines₂.cs).trans hcs₁)⟩
      rw [after_bind_ok hput, after_bind_error hreceive]
    · obtain ⟨t₂, hput, hlines₂⟩ := putWords_timeout tx 0 _ hputs
      exact ⟨t₂, after_bind_error hput, .inl (hlines₂.cs.trans hcs₁)⟩
  · obtain ⟨t₁, hselect, hfunc, hdir⟩ :=
      select_timeout (s := .start b.setUp rx) tx rx rfl hselected
    refine ⟨t₁, after_bind_error hselect, .inr ?_⟩
    have hpio : t₁.bus.dataFunc = gpioFuncPio0 := hfunc
    rw [Bus.dataInput, if_pos hpio, hdir]
    exact Bool.noConfusion

/-- **When the bus is left idle.**  A transfer that is refused leaves the bus as it was; any other
one leaves it idle exactly when none of its waits times out. -/
theorem gspi_idle_iff (env : PioEnv) (tx rx : List U8) (b : Bus) :
    LeavesIdle env tx rx b ↔ if refuses tx rx then b.Idle else InTime env tx rx := by
  rw [LeavesIdle]
  cases haccepted : refuses tx rx with
  | true =>
      rw [transfer_refused haccepted, if_pos rfl]
      exact ⟨fun h => ⟨h.1.cs, h.1.disabled, h.1.input⟩,
        fun h => ⟨⟨h.cs, h.disabled, h.input⟩, fun hok => by cases hok⟩⟩
  | false =>
      rw [if_neg Bool.false_ne_true]
      by_cases hintime : InTime env tx rx
      · obtain ⟨t, ht, hidle, htx, hrx⟩ := transfer_inTime b haccepted hintime
        rw [ht]
        refine iff_of_true ⟨hidle, fun _ => ⟨htx, hrx, ?_⟩⟩ hintime
        rw [hrx, List.length_flatMap]
        simp [toBeBytes, words_of_accepted haccepted]
      · obtain ⟨t, ht, hnot⟩ := transfer_timeout b haccepted hintime
        rw [ht]
        refine iff_of_false (fun h => ?_) hintime
        rcases hnot with hcs | hinput
        · rw [h.1.cs] at hcs
          cases hcs
        · exact hinput h.1.input

/-- A bus at rest. -/
def restingBus : Bus :=
  { csHigh := true, enabled := false, pinctrl := 0, dataFunc := gpioFuncSio, dataOe := false
    dataDir := false, txWords := [] }

/-- A state machine that takes the two numbers, and then nothing: its FIFO stays full. -/
def stuckEnv : PioEnv :=
  { status := fun i _ => if i < 2 then 0 else pioFstatTxfullSm0, rxWord := fun _ => 0
    inputSyncBypass := 0, turns := fun _ => false }

/-- From a bus at rest, a transfer of one word to a state machine that is stuck times out, and does
not leave the bus idle. -/
theorem gspi_not_idle : restingBus.Idle ∧
    ((transfer stuckEnv [0, 0, 0, 0]).after (.start restingBus [])).1 = .error .timeout ∧
    ¬ LeavesIdle stuckEnv [0, 0, 0, 0] [] restingBus := by
  have hstuck : ¬ InTime stuckEnv [0, 0, 0, 0] [] := fun h => by
    obtain ⟨j, -, hj⟩ := h.puts 2 (by decide)
    change txFull pioFstatTxfullSm0 = false at hj
    exact absurd hj (by decide)
  obtain ⟨t, ht, hnot⟩ := transfer_timeout restingBus (by decide) hstuck
  refine ⟨⟨rfl, rfl, fun _ => rfl⟩, congrArg Prod.fst ht, fun h => ?_⟩
  rw [LeavesIdle, ht] at h
  exact hnot.elim (fun hcs => by rw [h.1.cs] at hcs; cases hcs) fun hinput => hinput h.1.input

end HibanaPico.Rp2w.Gspi
