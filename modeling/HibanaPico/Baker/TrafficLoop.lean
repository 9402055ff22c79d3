import HibanaPico.Baker.Traffic
import HibanaPico.Support.Lists

/-!
# Baker — The traffic loop

The guest of the traffic light may ask for anything.  The driver lets it follow the cycle of seven
states, and lights one lamp at a time but where the cycle comes round.

* `TrafficLoop.next_cases`: what a step of the driver does.
* `TrafficLoop.inv_exec`: the driver has followed the cycle, and shows where it is.
* `traffic_loop_iff`: the driver admits only the cycle, with one lamp lit at most, exactly when it
  is never asked for green while the red lamp is lit.
-/

namespace HibanaPico.Baker
open HibanaPico.Support
open HibanaPico.Transport

/-! ### What the driver should do -/

/-- The step of the endless cycle at a place. -/
def cycleAt (n : ℕ) : TrafficState × U64 := trafficStep (stepAt n)

/-- The GPIO write of an event. -/
def TrafficEvent.write? : TrafficEvent → Option GpioWrite
  | .gpio write => some write
  | _ => none

/-- The pins after a log. -/
def gpioAfter (log : List TrafficEvent) : Gpio :=
  (log.filterMap TrafficEvent.write?).foldl Gpio.write .reset

/-- How many states were shown, and how many polls answered. -/
def shownCount (log : List TrafficEvent) : ℕ := log.count .recorded
def polledCount (log : List TrafficEvent) : ℕ := log.count (.replied (.ready 1))

/-- What an event may come after: the lamps of a state, before it counts as shown; that it was
shown, before its write is answered; a delay, before a poll is. -/
def Follows (before : List TrafficEvent) : TrafficEvent → Prop
  | .recorded => (gpioAfter before).lit = (cycleAt (shownCount before)).1.lamps
  | .replied (.written _) => before.getLast? = some .recorded
  | .delay timeoutMs =>
      timeoutMs = (cycleAt (polledCount before)).2 ∧ shownCount before = polledCount before + 1
  | .replied (.ready _) => before.getLast? = some (.delay (cycleAt (polledCount before)).2)
  | _ => True

/-- One lamp at most is lit after a GPIO write. -/
def OneLit (before : List TrafficEvent) : TrafficEvent → Prop
  | .gpio write => ((gpioAfter before).write write).lit.length ≤ 1
  | _ => True

/-- The request is not the one that the driver's place calls for. -/
def TrafficLoop.Deviates (s : TrafficLoop) (request : Option TrafficRequest) : Prop :=
  match s.awaiting with
  | .prestatGet | .prestatGetAgain => ∀ fd, request ≠ some (.prestatGet fd)
  | .prestatDirName => ∀ fd, request ≠ some (.prestatDirName fd)
  | .fdstatGet => ∀ fd, request = some (.fdstatGet fd) → fd.toNat > 4
  | .pathOpen => ∀ path, request = some (.pathOpen path) → path.preopenFd ≠ rootPreopenFd
  | .fdWrite _ =>
      request ≠ some (.fdWrite ⟨trafficStateFd, (cycleAt (shownCount s.log)).1.payload⟩)
  | .pollOneoff _ => request ≠ some (.pollOneoff (cycleAt (polledCount s.log)).2)
  | .ended _ => False

/-- The driver admits only the cycle: its GPIO writes are those of the cycle's states in turn, every
event follows what it may, a request that deviates ends it with an error and no event, and one
lamp is lit at most. -/
structure TrafficLoop.AdmitsCycle (choreofs : ChoreoFs) (s : TrafficLoop) : Prop where
  writes : s.log.filterMap TrafficEvent.write? = initLedOutputs ++
    (List.range (shownCount s.log)).flatMap fun n => stateWrites (cycleAt n).1
  follows : Obeys Follows s.log
  deviation : ∀ a t, s.next choreofs a = some t → s.Deviates a.request →
    (∃ error, t.awaiting = .ended error) ∧ t.log = s.log ∧ ∀ b, t.next choreofs b = none
  oneLit : Obeys OneLit s.log

/-- The guest asks for a state, and `choreofs` lets it. -/
def Grants (choreofs : ChoreoFs) (a : TrafficAction) (state : TrafficState) : Prop :=
  ∃ request, a.request = some (.fdWrite request) ∧ request.fd = trafficStateFd ∧
    request.bytes = state.payload ∧ (choreofs.fdWrite request).isWritable = true ∧
    (choreofs.fdWrite request).object = some trafficObject

/-- Green is asked for while the red lamp is lit. -/
def TrafficLoop.GreenOnRed (choreofs : ChoreoFs) (s : TrafficLoop) (a : TrafficAction) : Prop :=
  s.awaiting = .fdWrite (stepAt 0) ∧ redLed ∈ (gpioAfter s.log).lit ∧ Grants choreofs a .green

/-! ### The log -/

variable {choreofs : ChoreoFs} {log : List TrafficEvent}

theorem gpioAfter_append (log : List TrafficEvent) (writes : List GpioWrite) :
    gpioAfter (log ++ writes.map .gpio) = writes.foldl Gpio.write (gpioAfter log) := by
  have all : (writes.map TrafficEvent.gpio).filterMap TrafficEvent.write? = writes := by
    rw [List.filterMap_map]
    exact List.filterMap_some
  rw [gpioAfter, List.filterMap_append, all, List.foldl_append]
  rfl

/-- GPIO writes leave one lamp lit at most exactly when each of them does. -/
theorem obeys_oneLit_append (writes : List GpioWrite) :
    Obeys OneLit (log ++ writes.map .gpio) ↔
      Obeys OneLit log ∧ OneLitAlong (gpioAfter log) writes := by
  induction writes generalizing log with
  | nil => simp [OneLitAlong]
  | cons write writes ih =>
      have after : gpioAfter (log ++ [.gpio write]) = (gpioAfter log).write write :=
        gpioAfter_append log [write]
      rw [List.map_cons, List.append_cons, ih, obeys_snoc, after, and_assoc]
      rfl

/-- GPIO writes may come after anything. -/
theorem obeys_follows_append (h : Obeys Follows log) (writes : List GpioWrite) :
    Obeys Follows (log ++ writes.map .gpio) := by
  induction writes generalizing log with
  | nil => simpa using h
  | cons write writes ih =>
      rw [List.map_cons, List.append_cons]
      exact ih (obeys_snoc.mpr ⟨h, trivial⟩)

theorem shownCount_append (log : List TrafficEvent) (writes : List GpioWrite) :
    shownCount (log ++ writes.map .gpio) = shownCount log := by
  have none : (writes.map TrafficEvent.gpio).count .recorded = 0 :=
    List.count_eq_zero.mpr fun mem => by
      obtain ⟨write, -, same⟩ := List.mem_map.mp mem
      cases same
  rw [shownCount, List.count_append, none]
  rfl

theorem polledCount_append (log : List TrafficEvent) (writes : List GpioWrite) :
    polledCount (log ++ writes.map .gpio) = polledCount log := by
  have none : (writes.map TrafficEvent.gpio).count (.replied (.ready 1)) = 0 :=
    List.count_eq_zero.mpr fun mem => by
      obtain ⟨write, -, same⟩ := List.mem_map.mp mem
      cases same
  rw [polledCount, List.count_append, none]
  rfl

@[simp] theorem gpioAfter_snoc {event : TrafficEvent} (other : event.write? = none) :
    gpioAfter (log ++ [event]) = gpioAfter log := by
  rw [gpioAfter, List.filterMap_append, List.filterMap_cons_none other]
  simp [gpioAfter]

theorem shownCount_snoc (log : List TrafficEvent) (event : TrafficEvent) :
    shownCount (log ++ [event]) = shownCount log + if event = .recorded then 1 else 0 := by
  rw [shownCount, List.count_append, List.count_singleton]
  simp [shownCount]

theorem polledCount_snoc (log : List TrafficEvent) (event : TrafficEvent) :
    polledCount (log ++ [event]) =
      polledCount log + if event = .replied (.ready 1) then 1 else 0 := by
  rw [polledCount, List.count_append, List.count_singleton]
  simp [polledCount]

/-- The log has followed the cycle. -/
structure OnCycle (log : List TrafficEvent) : Prop where
  writes : log.filterMap TrafficEvent.write? = initLedOutputs ++
    (List.range (shownCount log)).flatMap fun n => stateWrites (cycleAt n).1
  follows : Obeys Follows log

/-- An event that shows nothing. -/
theorem OnCycle.snoc (C : OnCycle log) {event : TrafficEvent} (other : event.write? = none)
    (unshown : event ≠ .recorded) (law : Follows log event) : OnCycle (log ++ [event]) where
  writes := by
    rw [List.filterMap_append, List.filterMap_cons_none other, List.filterMap_nil, List.append_nil,
      shownCount_snoc, if_neg unshown, C.writes]
    rfl
  follows := obeys_snoc.mpr ⟨C.follows, law⟩

/-- The log once a state is shown. -/
def shownLog (log : List TrafficEvent) (state : TrafficState) : List TrafficEvent :=
  log ++ (stateWrites state).map .gpio ++ [.recorded]

theorem gpioAfter_shownLog {shown : TrafficState} (h : gpioAfter log = showing shown)
    (state : TrafficState) : gpioAfter (shownLog log state) = showing state := by
  rw [shownLog, gpioAfter_snoc rfl, gpioAfter_append, h, showing_write]

theorem shownCount_shownLog (log : List TrafficEvent) (state : TrafficState) :
    shownCount (shownLog log state) = shownCount log + 1 := by
  rw [shownLog, shownCount_snoc, if_pos rfl, shownCount_append]

theorem polledCount_shownLog (log : List TrafficEvent) (state : TrafficState) :
    polledCount (shownLog log state) = polledCount log := by
  rw [shownLog, polledCount_snoc, polledCount_append]
  rfl

/-- The next state of the cycle is shown. -/
theorem OnCycle.shown (C : OnCycle log) {shown : TrafficState}
    (h : gpioAfter log = showing shown) :
    OnCycle (shownLog log (cycleAt (shownCount log)).1) where
  writes := by
    have new : (shownLog log (cycleAt (shownCount log)).1).filterMap TrafficEvent.write? =
        log.filterMap TrafficEvent.write? ++ stateWrites (cycleAt (shownCount log)).1 := by
      rw [shownLog, List.filterMap_append, List.filterMap_append, List.filterMap_map]
      simp [Function.comp_def, TrafficEvent.write?]
    rw [new, C.writes, shownCount_shownLog, List.range_succ, List.flatMap_append,
      List.flatMap_singleton, List.append_assoc]
  follows := by
    refine obeys_snoc.mpr ⟨obeys_follows_append C.follows _, ?_⟩
    rw [Follows, gpioAfter_append, h, showing_write, lit_showing, shownCount_append]

/-! ### The steps -/

/-- A reply of the startup. -/
def TrafficReply.Plain : TrafficReply → Prop
  | .written _ | .ready _ => False
  | _ => True

namespace TrafficLoop

variable {s t : TrafficLoop} {a : TrafficAction}

def IsEnded (s : TrafficLoop) : Prop := ∃ error, s.awaiting = .ended error

/-- The driver still starts up. -/
def StartsUp (s : TrafficLoop) : Prop :=
  s.awaiting = .prestatGet ∨ s.awaiting = .prestatDirName ∨ s.awaiting = .prestatGetAgain ∨
    s.awaiting = .fdstatGet ∨ s.awaiting = .pathOpen

/-- After what the log was before it, a reply was given, or could not be. -/
def Answered (before : List TrafficEvent) (reply : TrafficReply) (next : Awaiting)
    (t : TrafficLoop) : Prop :=
  t.log = before ++ [.replied reply] ∧ (t.awaiting = next ∨ t.IsEnded) ∨
    t.log = before ∧ t.IsEnded

theorem reply_answered (s : TrafficLoop) (delivery : ReplyDelivery) (reply : TrafficReply)
    (next : Awaiting) : Answered s.log reply next (s.reply delivery reply next) := by
  cases delivery with
  | sent => exact .inl ⟨rfl, .inl rfl⟩
  | notEncoded => exact .inr ⟨rfl, _, rfl⟩
  | notSent => exact .inr ⟨rfl, _, rfl⟩

/-- Where a step of the startup leads to, from a request that does not deviate. -/
def Starts (s t : TrafficLoop) (next : Awaiting) : Prop :=
  ∃ reply, reply.Plain ∧ Answered s.log reply next t

theorem reply_starts {reply : TrafficReply} (plain : reply.Plain) (delivery : ReplyDelivery)
    (next : Awaiting) : s.Starts (s.reply delivery reply next) next :=
  ⟨reply, plain, reply_answered s delivery reply next⟩

theorem handleFdPrestatGet_starts (s : TrafficLoop) (fd : U8) (delivery : ReplyDelivery)
    (next : Awaiting) : s.Starts (s.handleFdPrestatGet fd delivery next) next := by
  rw [handleFdPrestatGet]
  split
  · exact reply_starts (by trivial) _ _
  · exact reply_starts (by trivial) _ _

theorem handleFdPrestatDirName_starts (s : TrafficLoop) (fd : U8) (delivery : ReplyDelivery)
    (next : Awaiting) : s.Starts (s.handleFdPrestatDirName fd delivery next) next := by
  rw [handleFdPrestatDirName]
  split
  · exact reply_starts (by trivial) _ _
  · exact reply_starts (by trivial) _ _

theorem fdStatResponse_eq_some {fd : U8} {reply : TrafficReply}
    (h : fdStatResponse fd = some reply) : reply.Plain ∧ fd.toNat ≤ 4 := by
  rw [fdStatResponse] at h
  split at h
  next is =>
    cases h
    exact ⟨trivial, by rcases is with rfl | rfl <;> decide⟩
  split at h
  next is =>
    cases h
    exact ⟨trivial, by rcases is with rfl | rfl <;> decide⟩
  split at h
  next is =>
    cases h
    exact ⟨trivial, by rw [is]; decide⟩
  cases h

theorem handleFdFdstatGet_starts (s : TrafficLoop) (fd : U8) (delivery : ReplyDelivery)
    (next : Awaiting) :
    fd.toNat ≤ 4 ∧ s.Starts (s.handleFdFdstatGet fd delivery next) next ∨
      s.handleFdFdstatGet fd delivery next = s.fail .runtimeViolation := by
  rw [handleFdFdstatGet]
  split
  next response found =>
    obtain ⟨plain, small⟩ := fdStatResponse_eq_some found
    exact .inl ⟨small, response, plain, reply_answered _ _ _ _⟩
  next => exact .inr rfl

theorem handlePathOpen_starts (choreofs : ChoreoFs) (s : TrafficLoop) (request : PathOpen)
    (delivery : ReplyDelivery) (next : Awaiting) :
    request.preopenFd = rootPreopenFd ∧
        s.Starts (s.handlePathOpen choreofs request delivery next) next ∨
      s.handlePathOpen choreofs request delivery next = s.fail .runtimeViolation := by
  rw [handlePathOpen]
  split
  · exact .inr rfl
  next root =>
    split
    · exact .inr rfl
    · simp only
      split
      · exact .inr rfl
      · exact .inl ⟨not_not.mp root, .opened _, trivial, reply_answered _ _ _ _⟩

/-- `write_traffic_state` writes the LEDs in turn, and touches nothing else that is waited for. -/
theorem log_writeTrafficState (s : TrafficLoop) (state : TrafficState) :
    (s.writeTrafficState state).recordChoreofsFdWrite.log = shownLog s.log state := by
  simp only [writeTrafficState, recordChoreofsFdWrite, ledObjects, List.foldl_cons, List.foldl_nil,
    writeLed, shownLog, stateWrites, List.map_cons, List.map_nil, List.append_assoc,
    List.cons_append, List.nil_append]

theorem handleFdWrite_cases (choreofs : ChoreoFs) (s : TrafficLoop) {request : FdWrite}
    (asked : a.request = some (.fdWrite request)) (delivery : ReplyDelivery) (state : TrafficState)
    (next : Awaiting) :
    (Grants choreofs a state ∧ ∃ answer, Answered (shownLog s.log state) (.written answer) next
        (s.handleFdWrite choreofs request delivery state next)) ∨
      ¬ Grants choreofs a state ∧
        s.handleFdWrite choreofs request delivery state next = s.fail .runtimeViolation := by
  have only {other : FdWrite} (h : a.request = some (.fdWrite other)) : other = request := by
    rw [asked] at h
    cases h
    rfl
  rw [handleFdWrite]
  split
  next deviates =>
    refine .inr ⟨?_, rfl⟩
    rintro ⟨other, hother, fd, bytes, -⟩
    obtain rfl := only hother
    exact deviates.elim (absurd fd) (absurd bytes)
  next expected =>
    obtain ⟨fd, bytes⟩ := not_or.mp expected
    simp only
    split
    next locked =>
      refine .inr ⟨?_, rfl⟩
      rintro ⟨other, hother, -, -, writable, -⟩
      obtain rfl := only hother
      exact Bool.false_ne_true (locked.symm.trans writable)
    next writable =>
      split
      next foreign =>
        refine .inr ⟨?_, rfl⟩
        rintro ⟨other, hother, -, -, -, object⟩
        obtain rfl := only hother
        exact foreign object
      next object =>
        refine .inl ⟨⟨request, asked, not_not.mp fd, not_not.mp bytes,
          eq_true_of_ne_false writable, not_not.mp object⟩, choreofs.fdWrite request, ?_⟩
        rw [← log_writeTrafficState]
        exact reply_answered _ _ _ _

theorem handlePollOneoff_cases (s : TrafficLoop) (timeoutTick : U64) (delivery : ReplyDelivery)
    (expected : U64) (next : Awaiting) :
    timeoutTick = expected ∧ Answered (s.log ++ [.delay expected]) (.ready 1) next
        (s.handlePollOneoff timeoutTick delivery expected next) ∨
      timeoutTick ≠ expected ∧
        s.handlePollOneoff timeoutTick delivery expected next = s.fail .runtimeViolation := by
  rw [handlePollOneoff]
  split
  next deviates => exact .inr ⟨deviates, rfl⟩
  next same =>
    obtain rfl := not_not.mp same
    exact .inl ⟨rfl, reply_answered _ _ _ _⟩

/-- What ends a cycle says nothing to the guest. -/
theorem Answered.afterPoll {before : List TrafficEvent} {reply : TrafficReply} {step : Fin 7}
    (h : Answered before reply (.fdWrite (step + 1)) t) :
    Answered before reply (.fdWrite (step + 1)) (t.afterPoll step) := by
  rw [TrafficLoop.afterPoll]
  split
  next ends =>
    rw [finishCycle]
    split
    next =>
      split
      · exact h
      · exact h.imp (fun H => ⟨H.1, .inr ⟨_, rfl⟩⟩) fun H => ⟨H.1, _, rfl⟩
    next => exact h
  next => exact h

/-- **A step.**  It ends the driver and does nothing, or answers a request of the startup, or shows
the state that the guest asks for, or waits as long as the guest asks. -/
theorem next_cases (h : s.next choreofs a = some t) :
    (t.log = s.log ∧ t.IsEnded ∧
        ∀ step, s.awaiting = .fdWrite step → ¬ Grants choreofs a (trafficStep step).1) ∨
      (s.StartsUp ∧ ¬ s.Deviates a.request ∧ ∃ next, s.Starts t next ∧
        ({ t with awaiting := next }.StartsUp ∨ next = .fdWrite (stepAt 0))) ∨
      (∃ step, s.awaiting = .fdWrite step ∧ Grants choreofs a (trafficStep step).1 ∧
        ∃ answer, Answered (shownLog s.log (trafficStep step).1) (.written answer)
          (.pollOneoff step) t) ∨
      ∃ step, s.awaiting = .pollOneoff step ∧
        a.request = some (.pollOneoff (trafficStep step).2) ∧
        Answered (s.log ++ [.delay (trafficStep step).2]) (.ready 1) (.fdWrite (step + 1)) t := by
  rw [next] at h
  split at h
  next => cases h
  next place asked =>
    cases h
    refine .inr (.inl ⟨.inl place, ?_, _, s.handleFdPrestatGet_starts _ _ _,
      .inl (.inr (.inl rfl))⟩)
    rw [Deviates, place, asked]
    exact fun h => h _ rfl
  next place asked =>
    cases h
    refine .inr (.inl ⟨.inr (.inl place), ?_, _, s.handleFdPrestatDirName_starts _ _ _,
      .inl (.inr (.inr (.inl rfl)))⟩)
    rw [Deviates, place, asked]
    exact fun h => h _ rfl
  next place asked =>
    cases h
    refine .inr (.inl ⟨.inr (.inr (.inl place)), ?_, _, s.handleFdPrestatGet_starts _ _ _,
      .inl (.inr (.inr (.inr (.inl rfl))))⟩)
    rw [Deviates, place, asked]
    exact fun h => h _ rfl
  next fd place asked =>
    cases h
    rcases s.handleFdFdstatGet_starts fd a.delivery .pathOpen with ⟨small, starts⟩ | failed
    · refine .inr (.inl ⟨.inr (.inr (.inr (.inl place))), ?_, _, starts,
        .inl (.inr (.inr (.inr (.inr rfl))))⟩)
      rw [Deviates, place, asked]
      exact fun h => absurd (h fd rfl) (Nat.not_lt.mpr small)
    · rw [failed]
      exact .inl ⟨rfl, ⟨_, rfl⟩, fun step here => by rw [place] at here; cases here⟩
  next request place asked =>
    cases h
    rcases s.handlePathOpen_starts choreofs request a.delivery (.fdWrite (stepAt 0)) with
      ⟨root, starts⟩ | failed
    · refine .inr (.inl ⟨.inr (.inr (.inr (.inr place))), ?_, _, starts, .inr rfl⟩)
      rw [Deviates, place, asked]
      exact fun h => h request rfl root
    · rw [failed]
      exact .inl ⟨rfl, ⟨_, rfl⟩, fun step here => by rw [place] at here; cases here⟩
  next step request place asked =>
    cases h
    rcases handleFdWrite_cases choreofs s asked a.delivery (trafficStep step).1
      (.pollOneoff step) with granted | ⟨refused, failed⟩
    · exact .inr (.inr (.inl ⟨step, place, granted⟩))
    · rw [failed]
      refine .inl ⟨rfl, ⟨_, rfl⟩, fun other here => ?_⟩
      rw [place] at here
      cases here
      exact refused
  next step timeoutTick place asked =>
    cases h
    rcases handlePollOneoff_cases s timeoutTick a.delivery (trafficStep step).2
      (.fdWrite (step + 1)) with ⟨rfl, answered⟩ | ⟨-, failed⟩
    · exact .inr (.inr (.inr ⟨step, place, asked, answered.afterPoll⟩))
    · rw [failed, afterPoll, if_neg (fun ends => by cases ends.1)]
      exact .inl ⟨rfl, ⟨_, rfl⟩, fun other here => by rw [place] at here; cases here⟩
  next unended _ _ _ _ _ other _ =>
    cases h
    refine .inl ⟨rfl, ⟨_, rfl⟩, fun step here => ?_⟩
    rintro ⟨request, asked, -⟩
    exact other step request here asked

end TrafficLoop

/-! ### The runs -/

/-- The state that is shown before a place of the cycle. -/
def shownBefore : ℕ → TrafficState
  | 0 => .dark
  | n + 1 => (cycleAt n).1

/-- What the driver has counted and shows, where it waits. -/
def AtPlace (awaiting : Awaiting) (shown polled : ℕ) (g : Gpio) : Prop :=
  match awaiting with
  | .ended _ => True
  | .fdWrite step =>
      step = stepAt polled ∧ shown = polled ∧ g = showing (shownBefore polled)
  | .pollOneoff step =>
      step = stepAt polled ∧ shown = polled + 1 ∧ g = showing (cycleAt polled).1
  | _ => shown = 0 ∧ polled = 0 ∧ g = showing .dark

/-- The driver has followed the cycle, and shows where it is. -/
structure TrafficLoop.Inv (s : TrafficLoop) : Prop where
  onCycle : OnCycle s.log
  place : AtPlace s.awaiting (shownCount s.log) (polledCount s.log) (gpioAfter s.log)

/-- The steps of the cycle come round. -/
theorem stepAt_succ (n : ℕ) : stepAt (n + 1) = stepAt n + 1 :=
  Fin.ext (Nat.mod_add_mod n 7 1).symm

theorem overlaps_step : ∀ step : Fin 7, Overlaps (trafficStep step).1 (trafficStep (step + 1)).1 ↔
    step + 1 = stepAt 0 ∧ redLed ∈ (showing (trafficStep step).1).lit := by
  decide

/-- **Where a second lamp is lit**: at green, over a red lamp. -/
theorem overlaps_before (n : ℕ) :
    Overlaps (shownBefore n) (cycleAt n).1 ↔
      stepAt n = stepAt 0 ∧ redLed ∈ (showing (shownBefore n)).lit := by
  cases n with
  | zero => decide
  | succ n =>
      rw [shownBefore, cycleAt, cycleAt, stepAt_succ]
      exact overlaps_step _

namespace TrafficLoop

variable {s t : TrafficLoop} {a : TrafficAction}

theorem inv_init : init.Inv where
  onCycle := {
    writes := by decide
    follows := by
      have h := obeys_follows_append (obeys_nil Follows) initLedOutputs
      rwa [List.nil_append] at h }
  place := ⟨by decide, by decide, by decide⟩

theorem startsUp_place (h : s.StartsUp) {shown polled : ℕ} {g : Gpio} :
    AtPlace s.awaiting shown polled g ↔ shown = 0 ∧ polled = 0 ∧ g = showing .dark := by
  rcases h with h | h | h | h | h <;> rw [h] <;> exact Iff.rfl

theorem StartsUp.ne_fdWrite (h : s.StartsUp) (step : Fin 7) : s.awaiting ≠ .fdWrite step := by
  rcases h with h | h | h | h | h <;> rw [h] <;> exact fun same => by cases same

theorem IsEnded.atPlace (h : s.IsEnded) (shown polled : ℕ) (g : Gpio) :
    AtPlace s.awaiting shown polled g := by
  obtain ⟨error, h⟩ := h
  rw [h]
  trivial

/-- A reply that follows, or none. -/
theorem Inv.answered {before : List TrafficEvent} {reply : TrafficReply} {next : Awaiting}
    (C : OnCycle before) (law : Follows before (.replied reply))
    (place : AtPlace next (shownCount before)
      (polledCount before + if reply = .ready 1 then 1 else 0) (gpioAfter before))
    (h : Answered before reply next t) : t.Inv := by
  rcases h with ⟨log, awaiting⟩ | ⟨log, ended⟩
  · have C' := C.snoc rfl (by simp) law
    rw [← log] at C'
    refine ⟨C', ?_⟩
    rcases awaiting with awaiting | ended
    · rw [awaiting, log, gpioAfter_snoc rfl, shownCount_snoc, polledCount_snoc]
      simpa using place
    · exact ended.atPlace _ _ _
  · exact ⟨log ▸ C, ended.atPlace _ _ _⟩

/-- What the guest may ask for is where the driver is. -/
theorem Inv.next (I : s.Inv) (h : s.next choreofs a = some t) : t.Inv := by
  rcases next_cases h with ⟨log, ended, -⟩ |
    ⟨starting, -, following, ⟨reply, plain, answered⟩, led⟩ |
    ⟨step, place, -, answer, answered⟩ | ⟨step, place, -, answered⟩
  · exact ⟨log ▸ I.onCycle, ended.atPlace _ _ _⟩
  · obtain ⟨shown, polled, dark⟩ := (startsUp_place starting).mp I.place
    have silent : reply ≠ .ready 1 := by
      rintro rfl
      exact plain
    refine Inv.answered I.onCycle ?_ ?_ answered
    · cases reply <;> trivial
    · rw [if_neg silent, shown, polled, dark]
      rcases led with starting | rfl
      · exact (startsUp_place starting).mpr ⟨rfl, rfl, rfl⟩
      · exact ⟨rfl, rfl, rfl⟩
  · have here := I.place
    rw [place] at here
    obtain ⟨rfl, shown, pins⟩ := here
    have next : cycleAt (polledCount s.log) = trafficStep (stepAt (polledCount s.log)) := rfl
    rw [← next] at answered
    have C := I.onCycle.shown pins
    rw [shown] at C
    refine Inv.answered C ?_ ?_ answered
    · rw [Follows, shownLog, List.getLast?_concat]
    · rw [if_neg (by simp), shownCount_shownLog, polledCount_shownLog, gpioAfter_shownLog pins,
        shown]
      exact ⟨rfl, rfl, rfl⟩
  · have here := I.place
    rw [place] at here
    obtain ⟨rfl, shown, pins⟩ := here
    have delay : OnCycle (s.log ++ [.delay (cycleAt (polledCount s.log)).2]) :=
      I.onCycle.snoc rfl (by simp) ⟨rfl, shown⟩
    refine Inv.answered delay ?_ ?_ answered
    · rw [Follows, List.getLast?_concat, polledCount_snoc]
      rfl
    · rw [if_pos rfl, shownCount_snoc, polledCount_snoc, gpioAfter_snoc rfl, pins, shown]
      exact ⟨(stepAt_succ _).symm, rfl, rfl⟩

theorem inv_exec {actions : List TrafficAction}
    (h : (trafficLoopMachine choreofs).exec init actions = some s) : s.Inv :=
  Machine.exec_keeps (fun _ _ _ I next => I.next next) inv_init h

/-- A request that deviates ends the driver, and nothing else happens. -/
theorem Inv.deviates (I : s.Inv) (h : s.next choreofs a = some t)
    (deviates : s.Deviates a.request) : t.IsEnded ∧ t.log = s.log := by
  rcases next_cases h with ⟨log, ended, -⟩ | ⟨-, expected, -⟩ | ⟨step, place, granted, -⟩ |
    ⟨step, place, asked, -⟩
  · exact ⟨ended, log⟩
  · exact absurd deviates expected
  · have here := I.place
    rw [place] at here
    obtain ⟨rfl, shown, -⟩ := here
    obtain ⟨⟨fd, bytes⟩, asked, hfd, hbytes, -⟩ := granted
    rw [Deviates, place, asked, shown] at deviates
    subst hfd hbytes
    exact absurd rfl deviates
  · have here := I.place
    rw [place] at here
    obtain ⟨rfl, -, -⟩ := here
    rw [Deviates, place, asked] at deviates
    exact absurd rfl deviates

theorem oneLit_answered {before : List TrafficEvent} {reply : TrafficReply} {next : Awaiting}
    (h : Answered before reply next t) : Obeys OneLit t.log ↔ Obeys OneLit before := by
  rcases h with ⟨log, -⟩ | ⟨log, -⟩
  · rw [log, obeys_snoc]
    exact and_iff_left trivial
  · rw [log]

/-- **A step, and the lamps.**  It lights a second lamp exactly when it shows green while the red
lamp is lit. -/
theorem Inv.oneLit_iff (I : s.Inv) (h : s.next choreofs a = some t) :
    Obeys OneLit t.log ↔ Obeys OneLit s.log ∧ ¬ s.GreenOnRed choreofs a := by
  rcases next_cases h with ⟨log, -, refused⟩ | ⟨starting, -, following, ⟨reply, -, answered⟩, -⟩ |
    ⟨step, place, granted, answer, answered⟩ | ⟨step, place, -, answered⟩
  · rw [log]
    exact (and_iff_left fun bad => refused (stepAt 0) bad.1 bad.2.2).symm
  · rw [oneLit_answered answered]
    exact (and_iff_left fun bad => starting.ne_fdWrite (stepAt 0) bad.1).symm
  · have here := I.place
    rw [place] at here
    obtain ⟨rfl, shown, pins⟩ := here
    rw [oneLit_answered answered, shownLog, obeys_snoc, obeys_oneLit_append, pins]
    have law := overlaps_iff (shownBefore (polledCount s.log)) (cycleAt (polledCount s.log)).1
    rw [show trafficStep (stepAt (polledCount s.log)) = cycleAt (polledCount s.log) from rfl,
      law, and_iff_left (show OneLit _ .recorded from trivial), overlaps_before]
    refine and_congr_right fun _ => not_congr ?_
    constructor
    · rintro ⟨zero, red⟩
      refine ⟨by rw [place, zero], pins ▸ red, ?_⟩
      rw [zero] at granted
      exact granted
    · rintro ⟨green, red, -⟩
      rw [place] at green
      exact ⟨Awaiting.fdWrite.inj green, pins ▸ red⟩
  · rw [oneLit_answered answered, obeys_snoc, and_iff_left (show OneLit _ (.delay _) from trivial)]
    refine (and_iff_left fun bad => ?_).symm
    rw [GreenOnRed, place] at bad
    cases bad.1

theorem oneLit_init : Obeys OneLit init.log := by
  have law := @obeys_oneLit_append [] initLedOutputs
  rw [List.nil_append] at law
  exact law.mpr ⟨obeys_nil OneLit, oneLitAlong_init⟩

end TrafficLoop

/-- **The traffic light.**  The driver admits only the cycle, with one lamp lit at most after every
GPIO write, exactly when it is never asked for green while the red lamp is lit. -/
theorem traffic_loop_iff {actions : List TrafficAction} {s : TrafficLoop}
    (h : (trafficLoopMachine choreofs).exec .init actions = some s) :
    s.AdmitsCycle choreofs ↔ (trafficLoopMachine choreofs).Along
      (fun s a => ¬ s.GreenOnRed choreofs a) .init actions := by
  have I := TrafficLoop.inv_exec h
  have lamps : Obeys OneLit s.log ↔ Obeys OneLit TrafficLoop.init.log ∧
      (trafficLoopMachine choreofs).Along (fun s a => ¬ s.GreenOnRed choreofs a) .init actions :=
    Machine.exec_iff_along_of_invariant (fun _ _ _ I next => I.next next)
      (fun _ _ _ I next => I.oneLit_iff next) TrafficLoop.inv_init h
  rw [← lamps.trans (and_iff_right TrafficLoop.oneLit_init)]
  refine ⟨fun admits => admits.oneLit, fun oneLit => ⟨I.onCycle.writes, I.onCycle.follows,
    fun a t next deviates => ?_, oneLit⟩⟩
  obtain ⟨⟨error, ended⟩, log⟩ := I.deviates next deviates
  exact ⟨⟨error, ended⟩, log, fun b => by rw [TrafficLoop.next, ended]⟩

/-- The path of `TRAFFIC_STATE`. -/
def trafficPath : List U8 :=
  ['d', 'e', 'v', 'i', 'c', 'e', '/', 't', 'r', 'a', 'f', 'f', 'i', 'c', '/', 's', 't', 'a', 't',
    'e'].map fun c => BitVec.ofNat 8 c.toNat

/-- The `choreofs` of `OBJECT_FACTS`. -/
def objectFacts : ChoreoFs where
  pathOpenNew preopenFd rightsBase path := some ⟨preopenFd, rightsBase, path⟩
  pathOpen request :=
    if request.path = trafficPath then ⟨some trafficStateFd, some trafficObject⟩
    else ⟨none, none⟩
  fdWrite request :=
    if request.fd = trafficStateFd then ⟨true, some trafficObject⟩ else ⟨false, none⟩

/-- What the guest asks for when it starts, and in a cycle. -/
def guestStartup : List TrafficAction :=
  [⟨some (.prestatGet 3), .sent⟩, ⟨some (.prestatDirName 3), .sent⟩, ⟨some (.prestatGet 4), .sent⟩,
    ⟨some (.fdstatGet 3), .sent⟩,
    ⟨some (.pathOpen ⟨3, 64, 0x2f :: trafficPath⟩), .sent⟩]

def guestCycle : List TrafficAction := trafficCycle.flatMap fun step =>
  [⟨some (.fdWrite ⟨trafficStateFd, step.1.payload⟩), .sent⟩, ⟨some (.pollOneoff step.2), .sent⟩]

/-- In one cycle no place calls for green while the red lamp is lit. -/
theorem dark_before_green : (trafficLoopMachine objectFacts).Along
    (fun s _ => ¬ (s.awaiting = .fdWrite (stepAt 0) ∧ redLed ∈ (gpioAfter s.log).lit)) .init
      (guestStartup ++ guestCycle) := by
  decide +kernel

/-- The guest of one cycle shows its seven states, one lamp at a time. -/
theorem traffic_loop_cycle :
    ∃ s, (trafficLoopMachine objectFacts).exec .init (guestStartup ++ guestCycle) = some s ∧
      shownCount s.log = 7 ∧ polledCount s.log = 7 ∧ s.AdmitsCycle objectFacts :=
  ⟨_, rfl, by decide +kernel, by decide +kernel, (traffic_loop_iff rfl).mpr <|
    dark_before_green.mono fun _ _ apart bad => apart ⟨bad.1, bad.2.1⟩⟩

/-- The driver, asked for green again. -/
def greenAgain : TrafficLoop :=
  ((trafficLoopMachine objectFacts).exec .init
    (guestStartup ++ guestCycle ++ guestCycle.take 1)).getD .init

/-- Around the cycle again, the first write of green lights its lamp beside the red one. -/
theorem traffic_loop_wraps : ¬ ∀ choreofs actions s,
    (trafficLoopMachine choreofs).exec .init actions = some s → s.AdmitsCycle choreofs := by
  intro admits
  have admitted := admits objectFacts (guestStartup ++ guestCycle ++ guestCycle.take 1) greenAgain
    (by decide +kernel)
  have oneLit := admitted.oneLit (greenAgain.log.take 66) (.gpio (.outSet 0x400000))
    (by decide +kernel)
  have both : ((gpioAfter (greenAgain.log.take 66)).write (.outSet 0x400000)).lit =
      [greenLed, redLed] := by decide +kernel
  rw [OneLit, both] at oneLit
  exact absurd oneLit (by decide)

end HibanaPico.Baker
