import HibanaPico.UnoQ.Scheduler

/-!
# Uno Q — Wakeups

One flag stands for the wakers of all tasks, and no task is marked ready; still no frame is left
behind a task that waits for it.  In a pass that calls no waker every task is found blocked at a
`poll_recv`, and no queue changes.

* `Paced`: what the passes look like, and when there is another one.
* `Blocked`, `WakeInv`: which lanes the tasks wait on, and that these are empty while no waker was
  called.
* `scheduler_exact`: the two at every moment of `poll_until_quiescent`, and what follows when it
  returns.
-/

namespace HibanaPico.UnoQ
open HibanaPico.Support
open HibanaPico.Transport
open HibanaPico.Appkit (HostOver)

/-! ### What happened -/

namespace HostEvent

def outcome : HostEvent → Option CallOutcome
  | .called _ outcome => some outcome
  | .polled _ | .failed _ | .observed => none

def task : HostEvent → Option ℕ
  | .polled task | .called task _ | .failed task => some task
  | .observed => none

/-- A turn of the loop: a task is polled, or `observe` is called. -/
def isTurn : HostEvent → Bool
  | .polled _ | .observed => true
  | .called .. | .failed _ => false

def wakes : HostEvent → Bool
  | .called _ outcome => outcome.wakes
  | .polled _ | .failed _ | .observed => false

/-- The later event is not of an earlier task. -/
def InOrder (e e' : HostEvent) : Prop := ∀ i j, e.task = some i → e'.task = some j → i ≤ j

end HostEvent

/-- The turns of the loop. -/
def turns (events : List HostEvent) : List HostEvent := events.filter HostEvent.isTurn

/-- The turns of a pass over `n` tasks. -/
def round (n : ℕ) : List HostEvent := (List.range n).map .polled ++ [.observed]

/-- The frames that the lane's accepted sends put there. -/
def sendsOn (role lane : U8) (events : List HostEvent) : List LaneFrame :=
  events.filterMap fun e => e.outcome.bind (CallOutcome.sentOn role lane)

/-- The frames that the lane's receives took. -/
def deliveriesOn (role lane : U8) (events : List HostEvent) : List LaneFrame :=
  events.filterMap fun e => e.outcome.bind (CallOutcome.deliveredOn role lane)

/-- The answer of the most recent `poll_recv` of the lane. -/
def lastReceive (role lane : U8) (events : List HostEvent) :
    Option (Poll (Except TransportError ReceivedFrame)) :=
  (events.filterMap fun e => e.outcome.bind (CallOutcome.receivedOn role lane)).getLast?

theorem turns_append (events later : List HostEvent) :
    turns (events ++ later) = turns events ++ turns later := List.filter_append ..

theorem sendsOn_append (role lane : U8) (events later : List HostEvent) :
    sendsOn role lane (events ++ later) = sendsOn role lane events ++ sendsOn role lane later :=
  List.filterMap_append ..

theorem deliveriesOn_append (role lane : U8) (events later : List HostEvent) :
    deliveriesOn role lane (events ++ later) =
      deliveriesOn role lane events ++ deliveriesOn role lane later :=
  List.filterMap_append ..

theorem lastReceive_concat (role lane : U8) (events : List HostEvent) (e : HostEvent) :
    lastReceive role lane (events ++ [e]) =
      (e.outcome.bind (CallOutcome.receivedOn role lane)).or (lastReceive role lane events) := by
  unfold lastReceive
  rw [List.filterMap_append, List.filterMap_cons, List.filterMap_nil]
  cases e.outcome.bind (CallOutcome.receivedOn role lane) with
  | none => rw [List.append_nil]; rfl
  | some answer => rw [List.getLast?_concat]; rfl

theorem pairwise_concat {events : List HostEvent} (h : events.Pairwise HostEvent.InOrder) {n : ℕ}
    (hle : ∀ e ∈ events, ∀ i, e.task = some i → i ≤ n) {e : HostEvent}
    (he : ∀ i, e.task = some i → i = n) : (events ++ [e]).Pairwise HostEvent.InOrder := by
  refine List.pairwise_append.mpr ⟨h, List.pairwise_singleton .., ?_⟩
  rintro x hx y hy i j hi hj
  obtain rfl := List.mem_singleton.mp hy
  rw [he j hj]
  exact hle x hx i hi

theorem le_concat {events : List HostEvent} {n m : ℕ} (hnm : n ≤ m)
    (hle : ∀ e ∈ events, ∀ i, e.task = some i → i ≤ n) {e : HostEvent}
    (he : ∀ i, e.task = some i → i = n) :
    ∀ x ∈ events ++ [e], ∀ i, x.task = some i → i ≤ m := by
  intro x hx i hi
  rcases List.mem_append.mp hx with hx | hx
  · exact (hle x hx i hi).trans hnm
  · obtain rfl := List.mem_singleton.mp hx
    exact (he i hi).trans_le hnm

theorem CallOutcome.wakes_of_isPending {outcome : CallOutcome} (h : outcome.isPending) :
    outcome.wakes = false := by
  unfold CallOutcome.isPending at h
  split at h
  · rfl
  · rfl
  all_goals cases h

theorem CallOutcome.isPending_of_receivedOn {outcome : CallOutcome} {role lane : U8}
    (h : outcome.receivedOn role lane = some .pending) : outcome.isPending = true := by
  cases outcome with
  | received r l answer =>
      obtain ⟨-, h⟩ := Option.ite_none_right_eq_some.mp h
      obtain rfl := Option.some.inj h
      rfl
  | opened => cases h
  | sent => cases h
  | cancelled => cases h
  | requeued => cases h

/-! ### The passes -/

/-- What the passes over `n` tasks look like. -/
structure Paced (n : ℕ) (s : ScheduledTasks) : Prop where
  idx_le : s.taskIdx ≤ n
  idx_lt : s.polling = true → s.taskIdx < n
  whole : ∀ pass ∈ s.passes, turns pass = round n ∧ pass.Pairwise HostEvent.InOrder ∧
    ∀ i, .failed i ∉ pass
  order : s.pass.Pairwise HostEvent.InOrder
  reached : ∀ e ∈ s.pass, ∀ i, e.task = some i → i ≤ s.taskIdx
  /-- In the middle of it. -/
  running : s.halted = none →
    turns s.pass = (List.range (s.taskIdx + s.polling.toNat)).map .polled ∧
      s.woke = s.pass.any HostEvent.wakes ∧ (∀ i, .failed i ∉ s.pass) ∧
      ∀ pass ∈ s.passes, pass.any HostEvent.wakes
  /-- Stopped at a task's error. -/
  failed : ∀ i, s.halted = some (.failed i) → i < n ∧
    (∃ before, s.pass = before ++ [.failed i, .observed] ∧
      turns before = (List.range (i + 1)).map .polled ∧ ∀ j, .failed j ∉ before) ∧
    ∀ pass ∈ s.passes, pass.any HostEvent.wakes
  /-- Returned. -/
  quiescent : s.halted = some .quiescent → s.pass = [] ∧ s.woke = false ∧ s.taskIdx = n ∧
    ∃ before last, s.passes = before ++ [last] ∧
      (∀ pass ∈ before, pass.any HostEvent.wakes) ∧ last.any HostEvent.wakes = false

theorem paced_init (n : ℕ) : Paced n .init where
  idx_le := Nat.zero_le _
  idx_lt h := by cases h
  whole _ h := by cases h
  order := .nil
  reached _ h := by cases h
  running _ := ⟨rfl, rfl, (fun _ h => by cases h), fun _ h => by cases h⟩
  failed _ h := by cases h
  quiescent h := by cases h

theorem not_failed_concat {pass : List HostEvent} {e : HostEvent} (h : ∀ i, .failed i ∉ pass)
    (he : ∀ i, .failed i ≠ e) : ∀ i, .failed i ∉ pass ++ [e] := by
  intro i hi
  rcases List.mem_append.mp hi with hi | hi
  · exact h i hi
  · exact he i (List.mem_singleton.mp hi)

theorem any_wakes_concat (pass : List HostEvent) (e : HostEvent) :
    (pass ++ [e]).any HostEvent.wakes = (pass.any HostEvent.wakes || e.wakes) := by
  rw [List.any_append, List.any_cons, List.any_nil, Bool.or_false]

namespace Paced

variable {n : ℕ} {s : ScheduledTasks}

/-- An event of the task that is polled is in order. -/
theorem task_eq {i : ℕ} (h : some s.taskIdx = some i) : i = s.taskIdx := (Option.some.inj h).symm

theorem begun (h : Paced n s) (hhalted : s.halted = none) (hlt : s.taskIdx < n)
    (hpolling : s.polling = false) : Paced n s.begin := by
  obtain ⟨hturns, hwoke, hnot, hwakes⟩ := h.running hhalted
  rw [hpolling] at hturns
  refine ⟨h.idx_le, fun _ => hlt, h.whole, pairwise_concat h.order h.reached fun _ => task_eq,
    le_concat (Nat.le_refl _) h.reached fun _ => task_eq, fun _ => ⟨?_, ?_, ?_, hwakes⟩,
    fun i hi => ?_, fun hq => ?_⟩
  · rw [ScheduledTasks.begin, turns_append, hturns]
    exact (congrArg (List.map _) List.range_succ).trans (List.map_append ..) |>.symm
  · rw [ScheduledTasks.begin, any_wakes_concat, ← hwoke]
    exact (Bool.or_false _).symm
  · exact not_failed_concat hnot fun _ e => by cases e
  · cases hhalted.symm.trans hi
  · cases hhalted.symm.trans hq

theorem called (h : Paced n s) (hhalted : s.halted = none) (hpolling : s.polling = true)
    (carrier : ProofState) (outcome : CallOutcome) : Paced n (s.called carrier outcome) := by
  obtain ⟨hturns, hwoke, hnot, hwakes⟩ := h.running hhalted
  have hlt := h.idx_lt hpolling
  rw [hpolling] at hturns
  have hturns' : turns (s.pass ++ [.called s.taskIdx outcome]) =
      (List.range (s.taskIdx + 1)).map .polled := by
    rw [turns_append, hturns]
    exact List.append_nil _
  have hnot' := not_failed_concat (e := .called s.taskIdx outcome) hnot fun _ e => by cases e
  have hany : (s.pass ++ [HostEvent.called s.taskIdx outcome]).any HostEvent.wakes =
      (s.woke || outcome.wakes) := by
    rw [any_wakes_concat, ← hwoke]
    rfl
  have horder := pairwise_concat h.order h.reached (e := .called s.taskIdx outcome)
    fun _ => task_eq
  unfold ScheduledTasks.called
  dsimp only
  split
  · rename_i hpending
    rw [CallOutcome.wakes_of_isPending hpending, Bool.or_false] at hany
    refine ⟨hlt, (fun e => by cases e), h.whole, horder,
      le_concat (Nat.le_succ _) h.reached fun _ => task_eq,
      fun _ => ⟨hturns', hany.symm, hnot', hwakes⟩, fun i hi => ?_, fun hq => ?_⟩
    · cases hhalted.symm.trans hi
    · cases hhalted.symm.trans hq
  · refine ⟨h.idx_le, fun _ => hlt, h.whole, horder,
      le_concat (Nat.le_refl _) h.reached fun _ => task_eq,
      fun _ => ⟨?_, hany.symm, hnot', hwakes⟩, fun i hi => ?_, fun hq => ?_⟩
    · rw [hturns', hpolling]
      rfl
    · cases hhalted.symm.trans hi
    · cases hhalted.symm.trans hq

theorem fail (h : Paced n s) (hhalted : s.halted = none) (hpolling : s.polling = true) :
    Paced n s.fail := by
  obtain ⟨hturns, hwoke, hnot, hwakes⟩ := h.running hhalted
  have hlt := h.idx_lt hpolling
  rw [hpolling] at hturns
  have horder := pairwise_concat h.order h.reached (e := .failed s.taskIdx) fun _ => task_eq
  have hreached := le_concat (Nat.le_refl _) h.reached (e := .failed s.taskIdx) fun _ => task_eq
  refine ⟨h.idx_le, fun _ => hlt, h.whole, pairwise_concat horder hreached ?_,
    le_concat (Nat.le_refl _) hreached ?_, fun hnone => ?_, ?_, fun hq => ?_⟩
  · exact fun i hi => by cases hi
  · exact fun i hi => by cases hi
  · cases hnone
  · rintro i ⟨⟩
    exact ⟨hlt, ⟨s.pass, List.append_assoc .., hturns, hnot⟩, hwakes⟩
  · cases hq

theorem endPass (h : Paced n s) (hhalted : s.halted = none) (hidx : s.taskIdx = n) :
    Paced n s.endPass := by
  obtain ⟨hturns, hwoke, hnot, hwakes⟩ := h.running hhalted
  have hpolling : s.polling = false := by
    cases hp : s.polling with
    | false => rfl
    | true => exact absurd (h.idx_lt hp) (hidx ▸ Nat.lt_irrefl _)
  rw [hpolling, hidx] at hturns
  have hnew : turns (s.pass ++ [HostEvent.observed]) = round n ∧
      (s.pass ++ [HostEvent.observed]).Pairwise HostEvent.InOrder ∧
      ∀ i, HostEvent.failed i ∉ s.pass ++ [HostEvent.observed] := by
    refine ⟨?_, pairwise_concat h.order h.reached (fun i hi => by cases hi),
      not_failed_concat hnot fun _ e => by cases e⟩
    rw [turns_append, hturns]
    rfl
  have hany : (s.pass ++ [HostEvent.observed]).any HostEvent.wakes = s.woke := by
    rw [any_wakes_concat, ← hwoke]
    exact Bool.or_false _
  have hwhole : ∀ pass ∈ s.passes ++ [s.pass ++ [HostEvent.observed]],
      turns pass = round n ∧ pass.Pairwise HostEvent.InOrder ∧ ∀ i, .failed i ∉ pass := by
    intro pass hpass
    rcases List.mem_append.mp hpass with hpass | hpass
    · exact h.whole pass hpass
    · exact List.mem_singleton.mp hpass ▸ hnew
  unfold ScheduledTasks.endPass
  dsimp only
  split
  · rename_i hwoke'
    refine ⟨Nat.zero_le _, fun e => ?_, hwhole, .nil, (fun _ e => by cases e), fun _ => ?_,
      fun i hi => ?_, fun hq => ?_⟩
    · cases hpolling.symm.trans e
    · refine ⟨by rw [hpolling]; rfl, rfl, (fun _ e => by cases e), fun pass hpass => ?_⟩
      rcases List.mem_append.mp hpass with hpass | hpass
      · exact hwakes pass hpass
      · rw [List.mem_singleton.mp hpass, hany, hwoke']
    · cases hhalted.symm.trans hi
    · cases hhalted.symm.trans hq
  · rename_i hwoke'
    have hquiet : s.woke = false := Bool.not_eq_true _ ▸ hwoke'
    refine ⟨h.idx_le, fun e => ?_, hwhole, .nil, (fun _ e => by cases e), fun hnone => ?_,
      fun i hi => ?_, fun _ => ?_⟩
    · cases hpolling.symm.trans e
    · cases hnone
    · cases hi
    · exact ⟨rfl, hquiet, hidx, s.passes, _, rfl, hwakes, hany.trans hquiet⟩

end Paced

theorem paced_step {tasks : List RoleTask} {s t : ScheduledTasks} (h : Paced tasks.length s)
    (hhalted : s.halted = none) (hstep : ScheduledStep tasks s t) : Paced tasks.length t := by
  cases hstep with
  | begun htask hpolling =>
      exact h.begun hhalted (List.getElem?_eq_some_iff.mp htask).1 hpolling
  | called _ hpolling _ _ _ => exact h.called hhalted hpolling _ _
  | failed _ hpolling _ => exact h.fail hhalted hpolling
  | passed hidx => exact h.endPass hhalted (Nat.le_antisymm h.idx_le hidx)

/-! ### What the tasks wait for -/

/-- A task is about to make a `poll_recv` of this lane. -/
def Blocked (tasks : List RoleTask) (s : ScheduledTasks) (i : ℕ) (role lane : U8) : Prop :=
  ∃ task port rx, tasks[i]? = some task ∧ task (s.answers i) = some (.pollRecv port) ∧
    s.carrier.rxs port = some rx ∧ rx.Reaches ∧ rx.localRole = role ∧ rx.lane = lane

variable {tasks : List RoleTask} {s t : ScheduledTasks}

/-- A task waits for one lane. -/
theorem Blocked.unique {i : ℕ} {role role' lane lane' : U8} (h : Blocked tasks s i role lane)
    (h' : Blocked tasks s i role' lane') : role = role' ∧ lane = lane' := by
  obtain ⟨task, port, rx, htask, hcall, hrx, -, rfl, rfl⟩ := h
  obtain ⟨task', port', rx', htask', hcall', hrx', -, rfl, rfl⟩ := h'
  obtain rfl := Option.some.inj (htask.symm.trans htask')
  cases hcall.symm.trans hcall'
  obtain rfl := Option.some.inj (hrx.symm.trans hrx')
  exact ⟨rfl, rfl⟩

theorem Blocked.lt {i : ℕ} {role lane : U8} (h : Blocked tasks s i role lane) :
    i < tasks.length := by
  obtain ⟨_, _, _, htask, -⟩ := h
  exact (List.getElem?_eq_some_iff.mp htask).1

/-- A task that is answered nothing waits for the lane that it did. -/
theorem Blocked.keep {i : ℕ} {role lane : U8} (h : Blocked tasks s i role lane)
    (hanswers : t.answers i = s.answers i)
    (hports : ∀ p rx, s.carrier.rxs p = some rx →
      ∃ rx', t.carrier.rxs p = some rx' ∧ SamePort rx rx') : Blocked tasks t i role lane := by
  obtain ⟨task, port, rx, htask, hcall, hrx, hreaches, hrole, hlane⟩ := h
  obtain ⟨rx', hrx', hsame⟩ := hports port rx hrx
  exact ⟨task, port, rx', htask, hanswers ▸ hcall, hrx', hsame.reaches hreaches,
    hsame.1.trans hrole, hsame.2.2.trans hlane⟩

theorem samePort_refl {rxs : ℕ → Option ProofRx} (p : ℕ) (rx : ProofRx) (hrx : rxs p = some rx) :
    ∃ rx', rxs p = some rx' ∧ SamePort rx rx' :=
  ⟨rx, hrx, rfl, rfl, rfl⟩

/-- What the tasks wait for, and what waits for them. -/
structure WakeInv (tasks : List RoleTask) (s : ScheduledTasks) : Prop where
  wellFormed : ∀ r, (s.carrier.queues r).WellFormed
  /-- The tasks that this pass has polled are blocked; no frame waits for them while no waker was
  called. -/
  blocked : ∀ i < s.taskIdx, ∃ role lane, Blocked tasks s i role lane ∧
    (s.woke = false → waiting s.carrier.queues role lane = [])
  /-- A task stays at a `poll_recv` that was pending. -/
  asked : ∀ role lane, lastReceive role lane s.events = some .pending →
    ∃ i, Blocked tasks s i role lane
  /-- While no waker was called, nothing can be put back: it is the first pass, or the tasks that
  are still to be polled are blocked too. -/
  quiet : s.woke = false → EmptyHanded s.carrier ∨
    ∀ i < tasks.length, ∃ role lane, Blocked tasks s i role lane
  /-- What was sent is delivered or waits. -/
  delivered : ∀ role lane f after, after <:+ s.events →
    (sendsOn role lane after).count f ≤
      (deliveriesOn role lane after).count f + (waiting s.carrier.queues role lane).count f

theorem wakeInv_init (tasks : List RoleTask) : WakeInv tasks .init where
  wellFormed _ := ProofQueue.wellFormed_empty
  blocked _ h := absurd h (Nat.not_lt_zero _)
  asked _ _ h := by cases h
  quiet _ := .inl fun _ _ h => by cases h
  delivered _ _ _ after h := by
    obtain rfl := List.suffix_nil.mp h
    exact Nat.zero_le _

/-- An event that is no call leaves the sends, the deliveries and the answers as they were. -/
theorem delivered_concat {events : List HostEvent} {queues : ProofQueues} {e : HostEvent}
    (he : e.outcome = none) {role lane : U8} {f : LaneFrame}
    (h : ∀ after, after <:+ events → (sendsOn role lane after).count f ≤
      (deliveriesOn role lane after).count f + (waiting queues role lane).count f) :
    ∀ after, after <:+ events ++ [e] → (sendsOn role lane after).count f ≤
      (deliveriesOn role lane after).count f + (waiting queues role lane).count f := by
  intro after hafter
  have hnone (g : CallOutcome → Option LaneFrame) :
      [e].filterMap (fun e => e.outcome.bind g) = [] := by
    rw [List.filterMap_cons, he]
    rfl
  obtain rfl | ⟨before, rfl, hbefore⟩ := List.suffix_concat_iff.mp hafter
  · exact Nat.zero_le _
  · rw [sendsOn_append, deliveriesOn_append, sendsOn, deliveriesOn, sendsOn, deliveriesOn, hnone,
      hnone, List.append_nil, List.append_nil]
    exact h before hbefore

theorem lastReceive_concat_of_none {events : List HostEvent} {e : HostEvent}
    (he : e.outcome = none) (role lane : U8) :
    lastReceive role lane (events ++ [e]) = lastReceive role lane events := by
  rw [lastReceive_concat, he]
  rfl

/-- A turn that makes no call. -/
theorem WakeInv.note (h : WakeInv tasks s) (hcarrier : t.carrier = s.carrier)
    (hanswers : t.answers = s.answers) (hidx : t.taskIdx = s.taskIdx) (hwoke : t.woke = s.woke)
    {e : HostEvent} (he : e.outcome = none) (hevents : t.events = s.events ++ [e]) :
    WakeInv tasks t := by
  have hkeep {i : ℕ} {role lane : U8} (hi : Blocked tasks s i role lane) :
      Blocked tasks t i role lane := hi.keep (hanswers ▸ rfl) (hcarrier ▸ samePort_refl)
  refine ⟨hcarrier ▸ h.wellFormed, fun i hi => ?_, fun role lane hlast => ?_, fun hfalse => ?_,
    fun role lane f => ?_⟩
  · obtain ⟨role, lane, hblocked, hnil⟩ := h.blocked i (hidx ▸ hi)
    exact ⟨role, lane, hkeep hblocked, hwoke ▸ hcarrier ▸ hnil⟩
  · rw [hevents, lastReceive_concat_of_none he] at hlast
    obtain ⟨i, hi⟩ := h.asked role lane hlast
    exact ⟨i, hkeep hi⟩
  · rcases h.quiet (hwoke ▸ hfalse) with hempty | hall
    · exact .inl (hcarrier ▸ hempty)
    · refine .inr fun i hi => ?_
      obtain ⟨role, lane, hblocked⟩ := hall i hi
      exact ⟨role, lane, hkeep hblocked⟩
  · rw [hevents, hcarrier]
    exact delivered_concat he (h.delivered role lane f)

/-- The end of a pass in which a waker was called: every task is blocked. -/
theorem WakeInv.passed (h : WakeInv tasks s) (hcarrier : t.carrier = s.carrier)
    (hanswers : t.answers = s.answers) (hidx : s.taskIdx = tasks.length) (hidx' : t.taskIdx = 0)
    (hevents : t.events = s.events ++ [.observed]) : WakeInv tasks t := by
  have hkeep {i : ℕ} {role lane : U8} (hi : Blocked tasks s i role lane) :
      Blocked tasks t i role lane := hi.keep (hanswers ▸ rfl) (hcarrier ▸ samePort_refl)
  refine ⟨hcarrier ▸ h.wellFormed, fun i hi => ?_, fun role lane hlast => ?_, fun _ => .inr ?_,
    fun role lane f => ?_⟩
  · rw [hidx'] at hi
    exact absurd hi (Nat.not_lt_zero i)
  · rw [hevents, lastReceive_concat_of_none rfl] at hlast
    obtain ⟨i, hi⟩ := h.asked role lane hlast
    exact ⟨i, hkeep hi⟩
  · intro i hi
    obtain ⟨role, lane, hblocked, -⟩ := h.blocked i (hidx ▸ hi)
    exact ⟨role, lane, hkeep hblocked⟩
  · rw [hevents, hcarrier]
    exact delivered_concat rfl (h.delivered role lane f)

theorem events_concat {e : HostEvent} (hpasses : t.passes = s.passes)
    (hpass : t.pass = s.pass ++ [e]) : t.events = s.events ++ [e] := by
  rw [ScheduledTasks.events, ScheduledTasks.events, hpasses, hpass, List.append_assoc]

/-- The frames sent and delivered so far, after one more call. -/
theorem WakeInv.delivered_called (h : WakeInv tasks s) {call : ProofAction} {carrier : ProofState}
    {outcome : CallOutcome} (hcall : CallStep s.carrier carrier call outcome) {i : ℕ}
    (role lane : U8) (f : LaneFrame) (after : List HostEvent)
    (hafter : after <:+ s.events ++ [.called i outcome]) :
    (sendsOn role lane after).count f ≤
      (deliveriesOn role lane after).count f + (waiting carrier.queues role lane).count f := by
  have hcount := hcall.count role lane f
  have hone (g : CallOutcome → Option LaneFrame) :
      [HostEvent.called i outcome].filterMap (fun e => e.outcome.bind g) = (g outcome).toList := by
    rw [List.filterMap_cons]
    dsimp only [HostEvent.outcome, Option.bind_some]
    cases g outcome with
    | none => rfl
    | some _ => rfl
  obtain rfl | ⟨before, rfl, hbefore⟩ := List.suffix_concat_iff.mp hafter
  · exact Nat.zero_le _
  · have hold := h.delivered role lane f before hbefore
    rw [sendsOn_append, deliveriesOn_append, List.count_append, List.count_append]
    rw [sendsOn, deliveriesOn] at hold
    rw [sendsOn, deliveriesOn, sendsOn, deliveriesOn, hone, hone]
    omega

/-- **A call that blocks** its task. -/
theorem WakeInv.called_pending (h : WakeInv tasks s) {task : RoleTask} {call : ProofAction}
    {carrier : ProofState} {outcome : CallOutcome} (htask : tasks[s.taskIdx]? = some task)
    (hcall : task (s.answers s.taskIdx) = some call)
    (hstep : CallStep s.carrier carrier call outcome) (hpending : outcome.isPending) :
    WakeInv tasks (s.called carrier outcome) := by
  obtain ⟨port, rx, rfl, hrx, hreaches, rfl, hnil, hqueues, hrxs⟩ := hstep.of_isPending hpending
  have hkeep {i : ℕ} {role lane : U8} (hi : Blocked tasks s i role lane) : Blocked tasks
      (s.called carrier (.received rx.localRole rx.lane .pending)) i role lane :=
    hi.keep rfl fun p rx hp => hstep.samePort hp
  have here : Blocked tasks s s.taskIdx rx.localRole rx.lane :=
    ⟨task, port, rx, htask, hcall, hrx, hreaches, rfl, rfl⟩
  refine ⟨hstep.wellFormed h.wellFormed, fun i hi => ?_, fun role lane hlast => ?_,
    fun hfalse => ?_, ?_⟩
  · rcases Nat.lt_or_eq_of_le (Nat.le_of_lt_succ hi) with hlt | rfl
    · obtain ⟨role, lane, hblocked, hnone⟩ := h.blocked i hlt
      exact ⟨role, lane, hkeep hblocked, fun hfalse => hqueues ▸ hnone hfalse⟩
    · exact ⟨_, _, hkeep here, fun _ => hqueues ▸ hnil⟩
  · rw [events_concat (t := s.called carrier _) (s := s) rfl rfl, lastReceive_concat] at hlast
    by_cases hlane : rx.localRole = role ∧ rx.lane = lane
    · exact ⟨s.taskIdx, hlane.1 ▸ hlane.2 ▸ hkeep here⟩
    · dsimp only [HostEvent.outcome, Option.bind_some, CallOutcome.receivedOn] at hlast
      rw [if_neg hlane, Option.none_or] at hlast
      obtain ⟨i, hi⟩ := h.asked role lane hlast
      exact ⟨i, hkeep hi⟩
  · rcases h.quiet hfalse with hempty | hall
    · exact .inl (hstep.quiet rfl hempty).2
    · refine .inr fun i hi => ?_
      obtain ⟨role, lane, hblocked⟩ := hall i hi
      exact ⟨role, lane, hkeep hblocked⟩
  · intro role lane f
    rw [events_concat (t := s.called carrier _) (s := s) rfl rfl]
    exact h.delivered_called hstep role lane f

/-- **A call that is answered**, and its task goes on. -/
theorem WakeInv.called_ready (h : WakeInv tasks s) {task : RoleTask} {call : ProofAction}
    {carrier : ProofState} {outcome : CallOutcome} (htask : tasks[s.taskIdx]? = some task)
    (hcall : task (s.answers s.taskIdx) = some call)
    (hstep : CallStep s.carrier carrier call outcome) (hready : outcome.isPending = false) :
    WakeInv tasks (s.called carrier outcome) := by
  have hcalled : s.called carrier outcome =
      { s with
        carrier
        pass := s.pass ++ [.called s.taskIdx outcome]
        answers := Function.update s.answers s.taskIdx (s.answers s.taskIdx ++ [outcome])
        woke := s.woke || outcome.wakes } := by
    rw [ScheduledTasks.called, hready]
    rfl
  have hkeep {i : ℕ} (hne : i ≠ s.taskIdx) {role lane : U8} (hi : Blocked tasks s i role lane) :
      Blocked tasks (s.called carrier outcome) i role lane := by
    rw [hcalled]
    exact hi.keep (Function.update_of_ne hne _ _) fun p rx hp => hstep.samePort hp
  -- a task that was blocked takes a frame
  have hdelivered {role lane : U8} (hi : Blocked tasks s s.taskIdx role lane) :
      ∃ frame, outcome = .received role lane (.ready (.ok frame)) := by
    obtain ⟨task', port, rx, htask', hcall', hrx, hreaches, rfl, rfl⟩ := hi
    obtain rfl := Option.some.inj (htask.symm.trans htask')
    cases hcall.symm.trans hcall'
    rcases hstep.of_reaches hrx hreaches with rfl | hframe
    · cases hready
    · exact hframe
  have hevents : (s.called carrier outcome).events = s.events ++ [.called s.taskIdx outcome] :=
    events_concat (by rw [hcalled]) (by rw [hcalled])
  -- while nobody is woken it is the first pass, with nothing to put back
  have hquiet (hfalse : (s.woke || outcome.wakes) = false) :
      s.woke = false ∧ EmptyHanded carrier ∧ carrier.queues = s.carrier.queues := by
    obtain ⟨hwoke, hwakes⟩ := Bool.or_eq_false_iff.mp hfalse
    rcases h.quiet hwoke with hempty | hall
    · obtain ⟨hqueues, hempty'⟩ := hstep.quiet hwakes hempty
      exact ⟨hwoke, hempty', hqueues⟩
    · obtain ⟨role, lane, hblocked⟩ := hall s.taskIdx (List.getElem?_eq_some_iff.mp htask).1
      obtain ⟨frame, rfl⟩ := hdelivered hblocked
      cases hwakes
  refine ⟨?_, fun i hi => ?_, fun role lane hlast => ?_, fun hfalse => .inl ?_, ?_⟩
  · rw [hcalled]
    exact hstep.wellFormed h.wellFormed
  · have hlt : i < s.taskIdx := by rwa [hcalled] at hi
    obtain ⟨role, lane, hblocked, hnil⟩ := h.blocked i hlt
    refine ⟨role, lane, hkeep (Nat.ne_of_lt hlt) hblocked, ?_⟩
    rw [hcalled]
    intro hfalse
    obtain ⟨hwoke, -, hqueues⟩ := hquiet hfalse
    exact hqueues ▸ hnil hwoke
  · rw [hevents, lastReceive_concat] at hlast
    dsimp only [HostEvent.outcome, Option.bind_some] at hlast
    cases hreceived : outcome.receivedOn role lane with
    | some answer =>
        rw [hreceived] at hlast
        obtain rfl := Option.some.inj hlast
        rw [CallOutcome.isPending_of_receivedOn hreceived] at hready
        cases hready
    | none =>
        rw [hreceived, Option.none_or] at hlast
        obtain ⟨i, hi⟩ := h.asked role lane hlast
        refine ⟨i, hkeep ?_ hi⟩
        rintro rfl
        obtain ⟨frame, rfl⟩ := hdelivered hi
        dsimp only [CallOutcome.receivedOn] at hreceived
        rw [if_pos ⟨rfl, rfl⟩] at hreceived
        cases hreceived
  · rw [hcalled] at hfalse ⊢
    exact (hquiet hfalse).2.1
  · intro role lane f
    rw [hevents, hcalled]
    exact h.delivered_called hstep role lane f

/-- **The step lemma.** -/
theorem wakeInv_step (hpaced : Paced tasks.length s) (h : WakeInv tasks s)
    (hstep : ScheduledStep tasks s t) : WakeInv tasks t := by
  cases hstep with
  | begun _ _ => exact h.note rfl rfl rfl rfl rfl (events_concat rfl rfl)
  | @called task call carrier outcome htask _ hcall hnext hseen =>
      have hstep := callStep_of_next h.wellFormed hnext hseen
      cases hpending : outcome.isPending with
      | true => exact h.called_pending htask hcall hstep hpending
      | false => exact h.called_ready htask hcall hstep hpending
  | failed _ _ _ =>
      have hfailed : WakeInv tasks { s with pass := s.pass ++ [.failed s.taskIdx] } :=
        h.note rfl rfl rfl rfl rfl (events_concat rfl rfl)
      exact hfailed.note rfl rfl rfl rfl rfl (events_concat rfl rfl)
  | passed hidx =>
      have hevents : (s.passes ++ [s.pass ++ [HostEvent.observed]]).flatten ++ [] =
          s.events ++ [.observed] := by
        rw [List.append_nil, List.flatten_append, List.flatten_singleton, ← List.append_assoc]
        rfl
      unfold ScheduledTasks.endPass
      dsimp only
      split
      · exact h.passed rfl rfl (Nat.le_antisymm hpaced.idx_le hidx) rfl hevents
      · exact h.note rfl rfl rfl rfl rfl hevents

/-! ### The result -/

/-- What `poll_until_quiescent` does with its tasks, at any moment of it. -/
structure PollsRight (tasks : List RoleTask) (s : ScheduledTasks) : Prop where
  /-- A pass polls each task once, in the order of the slots, and then observes. -/
  whole : ∀ pass ∈ s.passes, turns pass = round tasks.length
  /-- The pass under way has polled the first of them. -/
  part : s.halted = none → ∃ m ≤ tasks.length, turns s.pass = (List.range m).map .polled
  /-- It goes on as long as the carrier can be called. -/
  goes_on : s.halted = none → (pollNext tasks s).isSome ∨ ∃ task call,
    tasks[s.taskIdx]? = some task ∧ task (s.answers s.taskIdx) = some call ∧
      proofNext s.carrier call = none
  /-- It is over after a pass in which no waker was called, and after no other. -/
  again : ∀ before pass after, s.passes = before ++ pass :: after →
    (pass.any HostEvent.wakes ↔ ¬ (after = [] ∧ s.halted = some .quiescent))
  returned : s.halted = some .quiescent → s.passes ≠ [] ∧ s.pass = []
  /-- The first error of a task is the end, after one more observe. -/
  failed : ∀ i, .failed i ∈ s.events → s.halted = some (.failed i)
  stopped : ∀ i, s.halted = some (.failed i) → i < tasks.length ∧ ∃ before,
    s.pass = before ++ [.failed i, .observed] ∧ turns before = (List.range (i + 1)).map .polled
  halted : s.halted ≠ none → pollNext tasks s = none
  /-- No frame is left on a lane whose most recent `poll_recv` was pending. -/
  quiet : s.halted = some .quiescent → ∀ role lane,
    lastReceive role lane s.events = some .pending → waiting s.carrier.queues role lane = []
  /-- What a task sends to tasks that this pass has polled before is delivered in later passes. -/
  later : s.halted = some .quiescent → ∀ role lane,
    lastReceive role lane s.events = some .pending →
    ∀ before pass after, s.passes = before ++ pass :: after →
    ∀ earlier j frame rest,
      pass = earlier ++ .called j (.sent role lane frame (.ready (.ok ()))) :: rest →
      (∀ i answer, .called i (.received role lane answer) ∈ s.events → i < j) →
      ∀ f, (sendsOn role lane
          (.called j (.sent role lane frame (.ready (.ok ()))) :: rest)).count f ≤
        (deliveriesOn role lane after.flatten).count f

theorem pollNext_goes_on (tasks : List RoleTask) (s : ScheduledTasks) (hhalted : s.halted = none) :
    (pollNext tasks s).isSome ∨ ∃ task call, tasks[s.taskIdx]? = some task ∧
      task (s.answers s.taskIdx) = some call ∧ proofNext s.carrier call = none := by
  unfold pollNext
  rw [hhalted, if_neg (by simp)]
  cases htask : tasks[s.taskIdx]? with
  | none => exact .inl rfl
  | some task =>
      dsimp only
      split
      · unfold ScheduledTasks.goOn
        cases hcall : task (s.answers s.taskIdx) with
        | none => exact .inl rfl
        | some call =>
            cases hnext : proofNext s.carrier call with
            | none => exact .inr ⟨task, call, rfl, hcall, hnext⟩
            | some carrier =>
                refine .inl ?_
                dsimp only
                rw [hnext, Option.bind_some, Option.isSome_map]
                cases call with
                | «open» => rfl
                | cancelSend => rfl
                | pollSend =>
                    obtain ⟨tx, htx, -⟩ := Option.map_eq_some_iff.mp hnext
                    rw [proofSeen, htx]
                    rfl
                | pollRecv =>
                    obtain ⟨rx, hrx, -⟩ := Option.map_eq_some_iff.mp hnext
                    rw [proofSeen, hrx]
                    rfl
                | requeue =>
                    obtain ⟨rx, hrx, -⟩ := Option.map_eq_some_iff.mp hnext
                    rw [proofSeen, hrx]
                    rfl
      · exact .inl rfl

/-- **Another pass** follows exactly the passes in which a waker was called. -/
theorem Paced.again {n : ℕ} {s : ScheduledTasks} (h : Paced n s)
    {before after : List (List HostEvent)} {pass : List HostEvent}
    (hpasses : s.passes = before ++ pass :: after) :
    pass.any HostEvent.wakes ↔ ¬ (after = [] ∧ s.halted = some .quiescent) := by
  have hmem : pass ∈ s.passes := hpasses ▸ List.mem_append_right _ (List.mem_cons_self ..)
  cases hhalted : s.halted with
  | none => exact iff_of_true ((h.running hhalted).2.2.2 pass hmem) fun e => by cases e.2
  | some ending =>
      cases ending with
      | failed i => exact iff_of_true ((h.failed i hhalted).2.2 pass hmem) fun e => by cases e.2
      | quiescent =>
          obtain ⟨-, -, -, ps, last, hlast, hwakes, hquiet⟩ := h.quiescent hhalted
          rw [hpasses] at hlast
          rcases List.eq_nil_or_concat after with rfl | ⟨qs, q, rfl⟩
          · obtain ⟨-, hpass⟩ := List.append_inj' hlast rfl
            cases hpass
            rw [hquiet]
            exact iff_of_false Bool.false_ne_true fun e => e ⟨rfl, rfl⟩
          · rw [List.concat_eq_append, ← List.cons_append, ← List.append_assoc] at hlast
            obtain ⟨rfl, -⟩ := List.append_inj' hlast rfl
            refine iff_of_true (hwakes pass ?_) fun e => ?_
            · exact List.mem_append_right _ (List.mem_cons_self ..)
            · rw [List.concat_eq_append] at e
              exact absurd e.1 (List.append_ne_nil_of_right_ne_nil _ (List.cons_ne_nil _ _))

/-- **A task's error is the end.** -/
theorem Paced.failed_mem {n : ℕ} {s : ScheduledTasks} (h : Paced n s) {i : ℕ}
    (hmem : .failed i ∈ s.events) : s.halted = some (.failed i) := by
  rcases List.mem_append.mp hmem with hmem | hmem
  · obtain ⟨pass, hpass, hmem⟩ := List.mem_flatten.mp hmem
    exact absurd hmem ((h.whole pass hpass).2.2 i)
  · cases hhalted : s.halted with
    | none => exact absurd hmem ((h.running hhalted).2.2.1 i)
    | some ending =>
        cases ending with
        | failed j =>
            obtain ⟨-, ⟨before, hpass, -, hnot⟩, -⟩ := h.failed j hhalted
            rw [hpass] at hmem
            rcases List.mem_append.mp hmem with hmem | hmem
            · exact absurd hmem (hnot i)
            · rcases List.mem_cons.mp hmem with hmem | hmem
              · cases hmem
                rfl
              · cases List.mem_singleton.mp hmem
        | quiescent =>
            rw [(h.quiescent hhalted).1] at hmem
            cases hmem

/-- **No frame is left behind.** -/
theorem WakeInv.quiescent (hpaced : Paced tasks.length s) (h : WakeInv tasks s)
    (hhalted : s.halted = some .quiescent) {role lane : U8}
    (hlast : lastReceive role lane s.events = some .pending) :
    waiting s.carrier.queues role lane = [] := by
  obtain ⟨-, hwoke, hidx, -⟩ := hpaced.quiescent hhalted
  obtain ⟨i, hi⟩ := h.asked role lane hlast
  obtain ⟨role', lane', hi', hnil⟩ := h.blocked i (hidx ▸ hi.lt)
  obtain ⟨rfl, rfl⟩ := hi.unique hi'
  exact hnil hwoke

/-- The later events of a pass are of later tasks, and none of these receives on the lane. -/
theorem deliveriesOn_eq_nil {rest : List HostEvent} {e : HostEvent} {j : ℕ} {role lane : U8}
    (he : e.task = some j) (horder : (e :: rest).Pairwise HostEvent.InOrder)
    (hlower : ∀ i answer, .called i (.received role lane answer) ∈ rest → i < j) :
    deliveriesOn role lane rest = [] := by
  refine List.filterMap_eq_nil_iff.mpr fun x hx => ?_
  cases x with
  | polled i => rfl
  | failed i => rfl
  | observed => rfl
  | called i outcome =>
      cases outcome with
      | received r l answer =>
          cases answer with
          | pending => rfl
          | ready answer =>
              cases answer with
              | error _ => rfl
              | ok frame =>
                  refine if_neg ?_
                  rintro ⟨rfl, rfl⟩
                  have hle : j ≤ i := List.rel_of_pairwise_cons horder hx j i he rfl
                  exact absurd (hlower i _ hx) (Nat.not_lt.mpr hle)
      | opened => rfl
      | sent => rfl
      | cancelled => rfl
      | requeued => rfl

theorem WakeInv.later (hpaced : Paced tasks.length s) (h : WakeInv tasks s)
    (hhalted : s.halted = some .quiescent) {role lane : U8}
    (hlast : lastReceive role lane s.events = some .pending)
    {before after : List (List HostEvent)} {pass earlier rest : List HostEvent} {j : ℕ}
    {frame : LaneFrame} (hpasses : s.passes = before ++ pass :: after)
    (hpass : pass = earlier ++ .called j (.sent role lane frame (.ready (.ok ()))) :: rest)
    (hlower : ∀ i answer, .called i (.received role lane answer) ∈ s.events → i < j)
    (f : LaneFrame) :
    (sendsOn role lane (.called j (.sent role lane frame (.ready (.ok ()))) :: rest)).count f ≤
      (deliveriesOn role lane after.flatten).count f := by
  have hevents : s.events = (before.flatten ++ earlier) ++
      ((.called j (.sent role lane frame (.ready (.ok ()))) :: rest) ++ after.flatten) := by
    rw [ScheduledTasks.events, (hpaced.quiescent hhalted).1, List.append_nil, hpasses,
      List.flatten_append, List.flatten_cons, hpass]
    simp only [List.append_assoc, List.cons_append]
  have hcount := h.delivered role lane f _ (hevents ▸ List.suffix_append ..)
  have hmem : pass ∈ s.passes := hpasses ▸ List.mem_append_right _ (List.mem_cons_self ..)
  have horder := (hpaced.whole pass hmem).2.1
  rw [hpass] at horder
  have hnone : deliveriesOn role lane rest = [] := by
    refine deliveriesOn_eq_nil rfl (List.pairwise_append.mp horder).2.1 fun i answer hi => ?_
    refine hlower i answer (hevents ▸ ?_)
    exact List.mem_append_right _ (List.mem_append_left _ (List.mem_cons_of_mem _ hi))
  have hnone' : deliveriesOn role lane
      (.called j (.sent role lane frame (.ready (.ok ()))) :: rest) = [] := by
    rw [← List.singleton_append, deliveriesOn_append, hnone]
    rfl
  rw [sendsOn_append, deliveriesOn_append, hnone', List.nil_append, List.count_append,
    h.quiescent hpaced hhalted hlast, List.count_nil, Nat.add_zero] at hcount
  exact (Nat.le_add_right ..).trans hcount

/-- **The host's scheduler loses no wake-up**: at every moment of `poll_until_quiescent`, over any
tasks. -/
theorem scheduler_exact (tasks : List RoleTask) (as : List Unit) (s : ScheduledTasks)
    (h : (pollUntilQuiescent tasks).exec .init as = some s) : PollsRight tasks s := by
  have hinv : Paced tasks.length s ∧ WakeInv tasks s :=
    Machine.exec_keeps (I := fun s => Paced tasks.length s ∧ WakeInv tasks s)
      (fun s _ t hs hnext => by
        obtain ⟨hhalted, hstep⟩ := scheduledStep_of_next hnext
        exact ⟨paced_step hs.1 hhalted hstep, wakeInv_step hs.1 hs.2 hstep⟩)
      ⟨paced_init _, wakeInv_init _⟩ h
  obtain ⟨hpaced, hwake⟩ := hinv
  refine ⟨fun pass hpass => (hpaced.whole pass hpass).1, fun hrun => ?_,
    pollNext_goes_on tasks s, fun _ _ _ => hpaced.again, fun hq => ?_,
    fun _ => hpaced.failed_mem, fun i hi => ?_, fun hne => ?_,
    fun hq _ _ => hwake.quiescent hpaced hq, fun hq _ _ hlast _ _ _ hpasses _ _ _ _ hpass =>
      hwake.later hpaced hq hlast hpasses hpass⟩
  · have hle : s.taskIdx + s.polling.toNat ≤ tasks.length := by
      cases hpolling : s.polling with
      | false => exact hpaced.idx_le
      | true => exact hpaced.idx_lt hpolling
    exact ⟨_, hle, (hpaced.running hrun).1⟩
  · obtain ⟨hpass, -, -, before, last, hpasses, -⟩ := hpaced.quiescent hq
    refine ⟨?_, hpass⟩
    rw [hpasses]
    exact List.append_ne_nil_of_right_ne_nil _ (List.cons_ne_nil _ _)
  · obtain ⟨hlt, ⟨before, hpass, hturns, -⟩, -⟩ := hpaced.failed i hi
    exact ⟨hlt, before, hpass, hturns⟩
  · rw [pollNext, if_pos (Option.isSome_iff_ne_none.mpr hne)]

/-- Role 1 receives on lane 0, for ever. -/
def listens : RoleTask
  | [] => some (.open 0 { localRole := 1, sessionId := 7, lane := 0 })
  | _ :: _ => some (.pollRecv 0)

/-- Role 2 sends to role 1, and receives. -/
def sendsOnce : RoleTask
  | [] => some (.open 1 { localRole := 2, sessionId := 7, lane := 0 })
  | [_] => some (.pollSend 1 { targetRole := 1, frameLabel := 5, lane := 0, payload := [9] })
  | _ :: _ :: _ => some (.pollRecv 1)

/-- The frame is sent after the receiver's poll of the first pass, and received in the second; the
scheduler returns after the third. -/
theorem scheduler_exact_three :
    ∃ s, (pollUntilQuiescent [listens, sendsOnce]).exec .init (List.replicate 19 ()) = some s ∧
      s.halted = some .quiescent ∧ s.passes.length = 3 ∧
      deliveriesOn 1 0 s.events = [⟨2, 5, [9]⟩] ∧ PollsRight [listens, sendsOnce] s := by
  have hsome : ((pollUntilQuiescent [listens, sendsOnce]).exec .init (List.replicate 19 ())).map
      (fun s => (s.halted, s.passes.length, deliveriesOn 1 0 s.events)) =
        some (some .quiescent, 3, [⟨2, 5, [9]⟩]) := by decide +kernel
  obtain ⟨s, hrun, hs⟩ := Option.map_eq_some_iff.mp hsome
  obtain ⟨hhalted, hlength, hdeliveries⟩ : s.halted = some .quiescent ∧ s.passes.length = 3 ∧
      deliveriesOn 1 0 s.events = [⟨2, 5, [9]⟩] := by simpa using hs
  exact ⟨s, hrun, hhalted, hlength, hdeliveries, scheduler_exact _ _ s hrun⟩

end HibanaPico.UnoQ
