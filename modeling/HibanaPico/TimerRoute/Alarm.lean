import HibanaPico.Sio.Types
import HibanaPico.Support.Runs

/-!
# Timer route — Alarm

`ALARM0`, its interrupt and the calls that use it, on either board.  A core runs one call at a time,
one access at a time; time passes, the alarm comes due and its interrupt is taken between any two.

* `timerRouteArm`, `timerRouteFinish`: the accesses of `timer_route_arm` and `timer_route_finish`.
* `poll`: a turn of the loop of a call.
* `timerMachine`: both cores, the clock and the interrupt.
-/

namespace HibanaPico.TimerRoute
open HibanaPico.Support
open HibanaPico.Transport
open HibanaPico.Sio

inductive Board where
  | rp2w
  | baker
  deriving DecidableEq, Repr

/-- `RP2W_TIMER_TICKS_PER_MS`, `BAKER_TIMER_TICKS_PER_MS`. -/
def timerTicksPerMs : ℕ := 1000

/-- `u32::MAX`. -/
def u32Max : ℕ := 4294967295

/-- A timeout in ticks: `min(timeout_ms * TICKS_PER_MS, u32::MAX)`. -/
def timeoutTicks (timeoutMs : ℕ) : ℕ := min (timeoutMs * timerTicksPerMs) u32Max

/-- The calls that use the alarm, or its flag, for more than one read. -/
inductive Call where
  /-- `poll_delay`. -/
  | pollDelay (timeoutMs : ℕ)
  /-- `try_pop_until_deadline` (RP2W), `take_mailbox_until_deadline` (Baker). -/
  | deadlineWait (timeoutMs : ℕ)
  /-- `timer_route_resolver_ready`. -/
  | resolverReady (timeoutMs : ℕ)
  /-- `wait_timer_route_irq_observed`. -/
  | waitIrqObserved (timeoutMs : ℕ)
  deriving DecidableEq, Repr

/-- A `poll_delay` or a deadline wait: not the route timer's. -/
def Call.foreign : Call → Bool
  | .pollDelay _ | .deadlineWait _ => true
  | .resolverReady _ | .waitIrqObserved _ => false

/-- An armed alarm: the call that armed it, and the tick it is due. -/
structure Alarm where
  owner : Call
  due : ℕ
  deriving DecidableEq, Repr

/-- One access of a call to the timer or to a static. -/
inductive Access where
  /-- Read `TIMERAWL`, for an alarm so many ticks later. -/
  | readTimer (ticks : ℕ)
  /-- `ALARM0_READY = 0`. -/
  | clearReady
  /-- `INTR = ALARM0_BIT`, which clears the bit. -/
  | clearIntr
  /-- `INTE |= ALARM0_BIT`. -/
  | enableInte
  /-- `INTE &= !ALARM0_BIT`. -/
  | disableInte
  /-- `ALARM0 = alarm`. -/
  | writeAlarm
  /-- `ROUTE_ARMED = value`. -/
  | writeRouteArmed (value : Bool)
  deriving DecidableEq, Repr

/-- `timer_route_arm`. -/
def timerRouteArm (timeoutMs : ℕ) : List Access :=
  [.readTimer (max (timeoutTicks timeoutMs) 1), .clearReady, .clearIntr, .enableInte, .writeAlarm]

/-- `timer_route_finish`. -/
def timerRouteFinish : List Access := [.disableInte, .clearIntr]

/-- What a core does once the accesses ahead of it are made. -/
inductive Next where
  /-- A turn of the loop, or the first read. -/
  | poll
  /-- The second read: `ALARM0_READY` in `resolver_ready`, `TIMERAWL` in a wait. -/
  | second
  /-- Return, with the answer of a call that has one. -/
  | ret (answer : Option Bool)
  deriving DecidableEq, Repr

/-- A call under way. -/
structure Running where
  call : Call
  todo : List Access
  next : Next
  /-- Its `alarm`, or its `start`. -/
  tick : ℕ
  /-- When it began, as an observer notes it. -/
  began : ℕ
  deriving DecidableEq, Repr

/-- The timer, the statics and the two cores. -/
structure TimerState where
  now : ℕ
  /-- `ALARM0_READY`. -/
  ready : Bool
  /-- `ROUTE_ARMED`. -/
  routeArmed : Bool
  /-- The bit of `ALARM0` in `INTE`. -/
  inte : Bool
  /-- The bit of `ALARM0` in `INTR`, with the alarm that set it. -/
  intr : Option Alarm
  /-- `ALARM0`, while it is armed. -/
  alarm0 : Option Alarm
  /-- The alarm whose interrupt set `ALARM0_READY`, as an observer notes it. -/
  expired : Option Alarm
  cores : Core → Option Running

namespace TimerState

def init : TimerState :=
  { now := 0, ready := false, routeArmed := false, inte := false, intr := none, alarm0 := none,
    expired := none, cores := fun _ => none }

/-- `TIMER_TIMERAWL`. -/
def timerawl (s : TimerState) : U32 := BitVec.ofNat 32 s.now

/-- `timer_route_irq_observed`, and `timer_route_ready`. -/
def timerRouteIrqObserved (s : TimerState) : Bool := s.ready

/-- What a core runs. -/
def run (s : TimerState) (core : Core) (r : Option Running) : TimerState :=
  { s with cores := Function.update s.cores core r }

/-- An access of call `r`, on what is shared. -/
def access (s : TimerState) (r : Running) : Access → TimerState
  | .readTimer _ => s
  | .clearReady => { s with ready := false, expired := none }
  | .clearIntr => { s with intr := none }
  | .enableInte => { s with inte := true }
  | .disableInte => { s with inte := false }
  | .writeAlarm => { s with alarm0 := some ⟨r.call, r.tick⟩ }
  | .writeRouteArmed value => { s with routeArmed := value }

end TimerState

/-- The call after an access. -/
def Running.accessed (r : Running) (now : ℕ) (rest : List Access) : Access → Running
  | .readTimer ticks => { r with todo := rest, tick := now + ticks }
  | _ => { r with todo := rest }

/-- What a deadline wait finds: a word or a frame, nothing, or an error of `take_mailbox_frame`. -/
inductive Found where
  | word
  | nothing
  | error
  deriving DecidableEq, Repr

/-- A turn of a call whose accesses are made: the call after it, or none when it returns. -/
def poll (board : Board) (s : TimerState) (r : Running) (found : Found) : Option (Option Running) :=
  let finish (last : List Access) (answer : Option Bool) : Option (Option Running) :=
    some (some { r with todo := timerRouteFinish ++ last, next := .ret answer })
  match r.next, r.call with
  | .ret _, _ => some none
  | _, .pollDelay _ => if s.ready then finish [] none else some (some r)
  | _, .deadlineWait _ =>
      match found with
      | .word => finish [] none
      -- The mailbox of Baker can answer with an error, and `?` returns it at once.
      | .error => if board = .baker then some none else none
      | .nothing => if s.ready then finish [] none else some (some r)
  | .poll, .resolverReady timeoutMs =>
      if s.routeArmed then some (some { r with next := .second })
      else some (some { r with
        todo := .writeRouteArmed true :: timerRouteArm timeoutMs, next := .ret (some false) })
  | .second, .resolverReady _ =>
      if s.ready then finish [.writeRouteArmed false] (some true)
      else some (some { r with next := .ret (some false) })
  | .poll, .waitIrqObserved _ =>
      if s.timerRouteIrqObserved then some (some { r with next := .ret (some true) })
      else some (some { r with next := .second })
  | .second, .waitIrqObserved timeoutMs =>
      if (s.timerawl - BitVec.ofNat 32 r.tick).toNat ≥ timeoutTicks timeoutMs then
        some (some { r with next := .ret (some false) })
      else some (some { r with next := .poll })

/-- A call begins. -/
def Call.start (call : Call) (now : ℕ) : Running where
  call := call
  todo :=
    match call with
    | .pollDelay timeoutMs | .deadlineWait timeoutMs => timerRouteArm timeoutMs
    | .resolverReady _ => []
    | .waitIrqObserved _ => [.readTimer 0]
  next := .poll
  tick := 0
  began := now

inductive TimerAction where
  /-- So many ticks pass. -/
  | pass (ticks : ℕ)
  /-- `ALARM0` matches. -/
  | due
  /-- `timer_alarm0_irq_handler`. -/
  | interrupt
  /-- A core begins a call. -/
  | call (core : Core) (call : Call)
  /-- A core goes on with its call. -/
  | turn (core : Core) (found : Found)
  deriving DecidableEq, Repr

namespace TimerState

/-- A core goes on with its call. -/
def turn (board : Board) (s : TimerState) (core : Core) (found : Found) (r : Running) :
    Option TimerState :=
  match r.todo with
  | a :: rest => some ((s.access r a).run core (some (r.accessed s.now rest a)))
  | [] => (poll board s r found).map fun r' => s.run core r'

def next (board : Board) (s : TimerState) : TimerAction → Option TimerState
  | .pass ticks => some { s with now := s.now + ticks }
  | .due =>
      match s.alarm0 with
      | some a => if a.due ≤ s.now then some { s with alarm0 := none, intr := some a } else none
      | none => none
  | .interrupt =>
      match s.intr with
      | some a =>
          if s.inte then some { s with intr := none, ready := true, expired := some a } else none
      | none => none
  | .call core call =>
      match s.cores core with
      | none => some (s.run core (some (call.start s.now)))
      | some _ => none
  | .turn core found =>
      match s.cores core with
      | some r => s.turn board core found r
      | none => none

end TimerState

/-- Both cores, the clock and the interrupt. -/
def timerMachine (board : Board) : Machine TimerState TimerAction where
  next := TimerState.next board

end HibanaPico.TimerRoute
