import HibanaPico.Support.Runs
import HibanaPico.Transport.Types

/-!
# Baker — The traffic light

The driver of `choreofs-traffic-loop` answers a guest that writes the states of a traffic light in
turn and waits between them.  Three LEDs show a state, each written by itself.

* `TrafficLoop.next`: a step of the driver, one request of the guest.
* `showing_write`: the writes of a state show it, whatever was shown before.
* `overlaps_iff`: the states that light a second lamp on the way.
-/

namespace HibanaPico.Baker
open HibanaPico.Support
open HibanaPico.Transport

abbrev U16 := BitVec 16
abbrev U64 := BitVec 64

/-! ### The lamps -/

structure LedObject where
  pin : ℕ
  mask : U32
  deriving DecidableEq, Repr

/-- `GREEN_LED_MASK`, `YELLOW_LED_MASK` and `RED_LED_MASK`. -/
def greenLedMask : U32 := 1 <<< 0
def yellowLedMask : U32 := 1 <<< 1
def redLedMask : U32 := 1 <<< 2

def greenLed : LedObject := ⟨22, greenLedMask⟩
def yellowLed : LedObject := ⟨21, yellowLedMask⟩
def redLed : LedObject := ⟨20, redLedMask⟩

/-- `LED_OBJECTS`. -/
def ledObjects : List LedObject := [greenLed, yellowLed, redLed]

inductive TrafficState where
  | green
  | yellow
  | dark
  | red
  deriving DecidableEq, Repr

namespace TrafficState

def payload : TrafficState → List U8
  | green => [0x47]
  | yellow => [0x59]
  | dark => [0x30]
  | red => [0x52]

/-- `led_mask`. -/
def ledMask : TrafficState → U32
  | green => greenLedMask
  | yellow => yellowLedMask
  | dark => 0
  | red => redLedMask

/-- The lamps that are lit when the state is shown. -/
def lamps : TrafficState → List LedObject
  | green => [greenLed]
  | yellow => [yellowLed]
  | dark => []
  | red => [redLed]

end TrafficState

/-- A write to the registers of a pin, or to those of the `SIO`. -/
inductive GpioWrite where
  | pad (pin : ℕ)
  | ctrl (pin : ℕ)
  | oeSet (bits : U32)
  | outSet (bits : U32)
  | outClr (bits : U32)
  deriving DecidableEq, Repr

/-- The pins that are the `SIO`'s, and its output enables and levels. -/
structure Gpio where
  sio : U32
  oe : U32
  out : U32
  deriving DecidableEq, Repr

namespace Gpio

def reset : Gpio := ⟨0, 0, 0⟩

def write (g : Gpio) : GpioWrite → Gpio
  | .pad _ => g
  | .ctrl pin => { g with sio := g.sio ||| 1 <<< pin }
  | .oeSet bits => { g with oe := g.oe ||| bits }
  | .outSet bits => { g with out := g.out ||| bits }
  | .outClr bits => { g with out := g.out &&& ~~~bits }

/-- The lamps whose pins are driven high. -/
def lit (g : Gpio) : List LedObject :=
  ledObjects.filter fun led => (g.sio &&& g.oe &&& g.out).getLsbD led.pin

end Gpio

/-- `baker_gpio_init_output`. -/
def bakerGpioInitOutput (pin : ℕ) : List GpioWrite :=
  [.pad pin, .ctrl pin, .oeSet (1 <<< pin), .outClr (1 <<< pin)]

/-- `baker_gpio_write`. -/
def bakerGpioWrite (pin : ℕ) (high : Bool) : GpioWrite :=
  if high then .outSet (1 <<< pin) else .outClr (1 <<< pin)

/-- `init_led_outputs`. -/
def initLedOutputs : List GpioWrite := ledObjects.flatMap fun led => bakerGpioInitOutput led.pin

/-- Whether `write_traffic_state` drives an LED high. -/
def ledHigh (state : TrafficState) (led : LedObject) : Bool := state.ledMask &&& led.mask != 0

/-- The writes of `write_traffic_state`. -/
def stateWrites (state : TrafficState) : List GpioWrite :=
  ledObjects.map fun led => bakerGpioWrite led.pin (ledHigh state led)

/-! ### The requests and the replies -/

structure FdWrite where
  fd : U8
  bytes : List U8
  deriving DecidableEq, Repr

structure PathOpen where
  preopenFd : U8
  rightsBase : U64
  path : List U8
  deriving DecidableEq, Repr

/-- What the guest asks the driver for. -/
inductive TrafficRequest where
  | prestatGet (fd : U8)
  | prestatDirName (fd : U8)
  | fdstatGet (fd : U8)
  | pathOpen (request : PathOpen)
  | fdWrite (request : FdWrite)
  | pollOneoff (timeoutTick : U64)
  deriving DecidableEq, Repr

/-- What `choreofs.path_open` and `choreofs.fd_write` say of a request. -/
structure ChoreoFsOpen where
  fd : Option U8
  object : Option U8
  deriving DecidableEq, Repr

structure ChoreoFsWrite where
  isWritable : Bool
  object : Option U8
  deriving DecidableEq, Repr

/-- What the driver has from `hibana_wasip1_runtime`. -/
structure ChoreoFs where
  /-- `PathOpen::new`. -/
  pathOpenNew : U8 → U64 → List U8 → Option PathOpen
  pathOpen : PathOpen → ChoreoFsOpen
  fdWrite : FdWrite → ChoreoFsWrite

inductive MemRights where
  | read
  | write
  deriving DecidableEq, Repr

inductive TrafficReply where
  | prestat (fd nameLen : U8) (errno : U16)
  | prestatDirName (fd : U8) (name : List U8) (errno : U16)
  | fdstat (fd : U8) (rights : MemRights)
  /-- The reply of `choreofs.fd_fdstat_get`. -/
  | objectFdstat (fd : U8)
  | opened (answer : ChoreoFsOpen)
  | written (answer : ChoreoFsWrite)
  | ready (count : U8)
  deriving DecidableEq, Repr

def rootPreopenFd : U8 := 3
def trafficStateFd : U8 := 4
def rootPreopenName : List U8 := [0x2f]
def errnoBadf : U16 := 8
def trafficObject : U8 := 1

/-- `COLOR_STEP_MS` and `YELLOW_BLINK_STEP_MS`. -/
def colorStepMs : U64 := 40
def yellowBlinkStepMs : U64 := 20

/-- The states of `drive_traffic_cycle` and their timeouts. -/
def trafficCycle : List (TrafficState × U64) :=
  [(.green, colorStepMs), (.yellow, colorStepMs), (.dark, yellowBlinkStepMs),
    (.yellow, yellowBlinkStepMs), (.dark, yellowBlinkStepMs), (.yellow, yellowBlinkStepMs),
    (.red, colorStepMs)]

/-- The place in the cycle after so many steps. -/
def stepAt (n : ℕ) : Fin 7 := ⟨n % 7, Nat.mod_lt n (Nat.succ_pos 6)⟩

/-- A step of the cycle. -/
def trafficStep (step : Fin 7) : TrafficState × U64 := trafficCycle.get step

/-! ### The driver -/

inductive TrafficLoopError where
  | endpoint
  | runtimeViolation
  | panicked
  deriving DecidableEq, Repr

/-- The request that the driver waits for. -/
inductive Awaiting where
  | prestatGet
  | prestatDirName
  | prestatGetAgain
  | fdstatGet
  | pathOpen
  | fdWrite (step : Fin 7)
  | pollOneoff (step : Fin 7)
  | ended (error : TrafficLoopError)
  deriving DecidableEq, Repr

/-- What the driver does to the lamps and for the guest. -/
inductive TrafficEvent where
  | gpio (write : GpioWrite)
  /-- `record_choreofs_fd_write`, once the state is shown. -/
  | recorded
  /-- `baker_poll_delay`. -/
  | delay (timeoutMs : U64)
  | replied (reply : TrafficReply)
  deriving DecidableEq, Repr

/-- The markers that `assert_choreofs_markers` reads. -/
structure ChoreoFsMarkers where
  pathOpenCount : U32
  fdWriteCount : U32
  pollCount : U32
  ledMask : U32
  seenLedMask : U32
  deriving DecidableEq, Repr

/-- `u32::saturating_add(1)`. -/
def increment (n : U32) : U32 := if n = BitVec.allOnes 32 then n else n + 1

/-- `record_choreofs_led_mask`. -/
def ChoreoFsMarkers.recordLedMask (m : ChoreoFsMarkers) (mask : U32) (high : Bool) :
    ChoreoFsMarkers where
  pathOpenCount := m.pathOpenCount
  fdWriteCount := m.fdWriteCount
  pollCount := m.pollCount
  ledMask := if high then m.ledMask ||| mask else m.ledMask &&& ~~~mask
  seenLedMask := if high then m.seenLedMask ||| mask else m.seenLedMask

/-- What `assert_choreofs_markers` expects after the first cycle. -/
def expectedMarkers : ChoreoFsMarkers where
  pathOpenCount := 1
  fdWriteCount := 7
  pollCount := 7
  ledMask := redLedMask
  seenLedMask := greenLedMask ||| yellowLedMask ||| redLedMask

structure TrafficLoop where
  awaiting : Awaiting
  completedCycles : U32
  markers : ChoreoFsMarkers
  log : List TrafficEvent
  deriving DecidableEq

/-- The encoding of a reply, and its sending. -/
inductive ReplyDelivery where
  | sent
  | notEncoded
  | notSent
  deriving DecidableEq, Repr

/-- What the endpoint receives, where it receives a request, and what becomes of the reply. -/
structure TrafficAction where
  request : Option TrafficRequest
  delivery : ReplyDelivery
  deriving DecidableEq, Repr

namespace TrafficLoop

/-- The driver, once the LEDs are outputs. -/
def init : TrafficLoop := ⟨.prestatGet, 0, ⟨0, 0, 0, 0, 0⟩, initLedOutputs.map .gpio⟩

def fail (s : TrafficLoop) (error : TrafficLoopError) : TrafficLoop :=
  { s with awaiting := .ended error }

/-- A reply, and what the driver waits for after it. -/
def reply (s : TrafficLoop) (delivery : ReplyDelivery) (reply : TrafficReply) (next : Awaiting) :
    TrafficLoop :=
  match delivery with
  | .sent => { s with log := s.log ++ [.replied reply], awaiting := next }
  | .notEncoded => s.fail .runtimeViolation
  | .notSent => s.fail .endpoint

/-- `handle_fd_prestat_get`. -/
def handleFdPrestatGet (s : TrafficLoop) (fd : U8) (delivery : ReplyDelivery) (next : Awaiting) :
    TrafficLoop :=
  if fd = rootPreopenFd then
    s.reply delivery (.prestat fd (BitVec.ofNat 8 rootPreopenName.length) 0) next
  else s.reply delivery (.prestat fd 0 errnoBadf) next

/-- `handle_fd_prestat_dir_name`. -/
def handleFdPrestatDirName (s : TrafficLoop) (fd : U8) (delivery : ReplyDelivery)
    (next : Awaiting) : TrafficLoop :=
  if fd = rootPreopenFd then s.reply delivery (.prestatDirName fd rootPreopenName 0) next
  else s.reply delivery (.prestatDirName fd [] errnoBadf) next

/-- `fd_stat_response`. -/
def fdStatResponse (fd : U8) : Option TrafficReply :=
  if fd = 0 ∨ fd = rootPreopenFd then some (.fdstat fd .read)
  else if fd = 1 ∨ fd = 2 then some (.fdstat fd .write)
  else if fd = trafficStateFd then some (.objectFdstat fd)
  else none

/-- `handle_fd_fdstat_get`. -/
def handleFdFdstatGet (s : TrafficLoop) (fd : U8) (delivery : ReplyDelivery) (next : Awaiting) :
    TrafficLoop :=
  match fdStatResponse fd with
  | some response => s.reply delivery response next
  | none => s.fail .runtimeViolation

/-- `normalize_path`. -/
def normalizePath (path : List U8) : List U8 :=
  if path.head? = some 0x2f then path.tail else path

/-- `handle_path_open`. -/
def handlePathOpen (choreofs : ChoreoFs) (s : TrafficLoop) (request : PathOpen)
    (delivery : ReplyDelivery) (next : Awaiting) : TrafficLoop :=
  if request.preopenFd ≠ rootPreopenFd then s.fail .runtimeViolation
  else match choreofs.pathOpenNew request.preopenFd request.rightsBase
      (normalizePath request.path) with
    | none => s.fail .runtimeViolation
    | some normalized =>
        let answer := choreofs.pathOpen normalized
        if answer.fd ≠ some trafficStateFd ∨ answer.object ≠ some trafficObject then
          s.fail .runtimeViolation
        else
          let count := increment s.markers.pathOpenCount
          { s with markers := { s.markers with pathOpenCount := count } }.reply delivery
            (.opened answer) next

/-- The body of the loop of `write_traffic_state`. -/
def writeLed (state : TrafficState) (s : TrafficLoop) (led : LedObject) : TrafficLoop :=
  { s with
    log := s.log ++ [.gpio (bakerGpioWrite led.pin (ledHigh state led))]
    markers := s.markers.recordLedMask led.mask (ledHigh state led) }

/-- `write_traffic_state`. -/
def writeTrafficState (s : TrafficLoop) (state : TrafficState) : TrafficLoop :=
  ledObjects.foldl (writeLed state) s

/-- `record_choreofs_fd_write`. -/
def recordChoreofsFdWrite (s : TrafficLoop) : TrafficLoop :=
  { s with
    log := s.log ++ [.recorded]
    markers := { s.markers with fdWriteCount := increment s.markers.fdWriteCount } }

/-- `handle_fd_write`. -/
def handleFdWrite (choreofs : ChoreoFs) (s : TrafficLoop) (request : FdWrite)
    (delivery : ReplyDelivery) (state : TrafficState) (next : Awaiting) : TrafficLoop :=
  if request.fd ≠ trafficStateFd ∨ request.bytes ≠ state.payload then s.fail .runtimeViolation
  else
    let write := choreofs.fdWrite request
    if write.isWritable = false then s.fail .runtimeViolation
    else if write.object ≠ some trafficObject then s.fail .runtimeViolation
    else (s.writeTrafficState state).recordChoreofsFdWrite.reply delivery (.written write) next

/-- `baker_poll_delay` and `record_choreofs_poll`. -/
def pollDelay (s : TrafficLoop) (timeoutTick : U64) : TrafficLoop :=
  { s with
    log := s.log ++ [.delay timeoutTick]
    markers := { s.markers with pollCount := increment s.markers.pollCount } }

/-- `handle_poll_oneoff`. -/
def handlePollOneoff (s : TrafficLoop) (timeoutTick : U64) (delivery : ReplyDelivery)
    (expectedTimeoutMs : U64) (next : Awaiting) : TrafficLoop :=
  if timeoutTick ≠ expectedTimeoutMs then s.fail .runtimeViolation
  else (s.pollDelay timeoutTick).reply delivery (.ready 1) next

/-- The end of a cycle, in the loop of `driver`. -/
def finishCycle (s : TrafficLoop) : TrafficLoop :=
  let completed := increment s.completedCycles
  if completed = 1 then
    if s.markers = expectedMarkers then { s with completedCycles := increment completed }
    else s.fail .panicked
  else { s with completedCycles := completed }

/-- A poll that was answered may end the cycle. -/
def afterPoll (s : TrafficLoop) (step : Fin 7) : TrafficLoop :=
  if s.awaiting = .fdWrite (step + 1) ∧ step = 6 then s.finishCycle else s

/-- A step of the driver, which an error ends. -/
def next (choreofs : ChoreoFs) (s : TrafficLoop) (a : TrafficAction) : Option TrafficLoop :=
  match s.awaiting, a.request with
  | .ended _, _ => none
  | .prestatGet, some (.prestatGet fd) =>
      some (s.handleFdPrestatGet fd a.delivery .prestatDirName)
  | .prestatDirName, some (.prestatDirName fd) =>
      some (s.handleFdPrestatDirName fd a.delivery .prestatGetAgain)
  | .prestatGetAgain, some (.prestatGet fd) =>
      some (s.handleFdPrestatGet fd a.delivery .fdstatGet)
  | .fdstatGet, some (.fdstatGet fd) => some (s.handleFdFdstatGet fd a.delivery .pathOpen)
  | .pathOpen, some (.pathOpen request) =>
      some (s.handlePathOpen choreofs request a.delivery (.fdWrite (stepAt 0)))
  | .fdWrite step, some (.fdWrite request) =>
      some (s.handleFdWrite choreofs request a.delivery (trafficStep step).1 (.pollOneoff step))
  | .pollOneoff step, some (.pollOneoff timeoutTick) =>
      some ((s.handlePollOneoff timeoutTick a.delivery (trafficStep step).2
        (.fdWrite (step + 1))).afterPoll step)
  | _, _ => some (s.fail .endpoint)

end TrafficLoop

def trafficLoopMachine (choreofs : ChoreoFs) : Machine TrafficLoop TrafficAction :=
  ⟨TrafficLoop.next choreofs⟩

/-! ### The lamps of a state -/

/-- The pins of the LEDs, while a state is shown. -/
def showing (state : TrafficState) : Gpio :=
  ⟨0x700000, 0x700000, state.lamps.foldr (fun led out => out ||| 1 <<< led.pin) 0⟩

theorem lit_showing (state : TrafficState) : (showing state).lit = state.lamps := by
  cases state <;> decide

/-- **A state is shown**, whatever was shown before. -/
theorem showing_write (shown state : TrafficState) :
    (stateWrites state).foldl Gpio.write (showing shown) = showing state := by
  cases shown <;> cases state <;> decide

/-- The writes of a state light a second lamp on the way when its lamp comes before the one that
is lit. -/
def Overlaps (shown state : TrafficState) : Prop :=
  state = .green ∧ (shown = .yellow ∨ shown = .red) ∨ state = .yellow ∧ shown = .red

instance (shown state : TrafficState) : Decidable (Overlaps shown state) :=
  inferInstanceAs (Decidable (_ ∨ _))

/-- One lamp at most is lit after each of some writes. -/
def OneLitAlong : Gpio → List GpioWrite → Prop
  | _, [] => True
  | g, write :: writes => (g.write write).lit.length ≤ 1 ∧ OneLitAlong (g.write write) writes

instance OneLitAlong.decidable : ∀ g writes, Decidable (OneLitAlong g writes)
  | _, [] => isTrue trivial
  | g, write :: writes =>
      have := OneLitAlong.decidable (g.write write) writes
      inferInstanceAs (Decidable (_ ∧ _))

/-- **The overlaps.** -/
theorem overlaps_iff (shown state : TrafficState) :
    OneLitAlong (showing shown) (stateWrites state) ↔ ¬ Overlaps shown state := by
  cases shown <;> cases state <;> decide

theorem oneLitAlong_init : OneLitAlong .reset initLedOutputs := by decide

end HibanaPico.Baker
