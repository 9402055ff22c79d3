import HibanaPico.TimerRoute.Alarm
import Mathlib.Order.Nat

/-!
# Timer route — Shared

What each user of the one alarm may rely on, over every interleaving of both cores.

* `Step`: what an action does.
* `OnRoute`, `NotForeign`: the flag tells of the route timer, as long as no other alarm goes off.
* `KeepsRoute`, `Exclusive`: a pending route timer is left alone by calls that do not overlap it.
* `InFull`, `NoEarlier`: a `poll_delay` lasts the timeout it is asked for, as long as no earlier
  alarm goes off and the timeout is one the alarm can hold (`Fits`).
-/

namespace HibanaPico.TimerRoute
open HibanaPico.Support
open HibanaPico.Transport
open HibanaPico.Sio

/-- An alarm `timer_route_resolver_ready` armed. -/
def Alarm.OfRoute (a : Alarm) : Prop := ∃ timeoutMs, a.owner = .resolverReady timeoutMs

/-- `timer_route_irq_observed` tells that an alarm of the route timer has come due. -/
def TimerState.OnRoute (s : TimerState) : Prop :=
  s.timerRouteIrqObserved = true → ∃ a, s.expired = some a ∧ a.OfRoute ∧ a.due ≤ s.now

/-- No interrupt of an alarm that a `poll_delay` or a deadline wait armed. -/
def NotForeign (s : TimerState) (action : TimerAction) : Prop :=
  action = .interrupt → s.inte = true → ∀ a, s.intr = some a → a.owner.foreign = false

/-- No `poll_delay` or deadline wait begins while the route timer is armed or being asked for, and
it is not asked for while one is under way. -/
def Exclusive (s : TimerState) : TimerAction → Prop
  | .call _ call =>
      (call.foreign = true → s.routeArmed = false ∧
        ∀ core r, s.cores core = some r → ∀ timeoutMs, r.call ≠ .resolverReady timeoutMs) ∧
      (call.foreign = false → ∀ core r, s.cores core = some r → r.call.foreign = false)
  | _ => True

/-- The alarm can hold what a `poll_delay` asks for: its ticks fit a `u32`. -/
def Fits (_ : TimerState) : TimerAction → Prop
  | .call _ (.pollDelay timeoutMs) => timeoutMs * timerTicksPerMs ≤ u32Max
  | _ => True

/-- A `poll_delay` that has cleared the flag, and looks for it. -/
def Running.Delaying (r : Running) : Prop :=
  (∃ timeoutMs, r.call = .pollDelay timeoutMs) ∧ r.next = .poll ∧ .clearReady ∉ r.todo

/-- No interrupt of an alarm that is due before a `poll_delay` under way. -/
def NoEarlier (s : TimerState) (action : TimerAction) : Prop :=
  action = .interrupt → s.inte = true → ∀ a, s.intr = some a → ∀ core r, s.cores core = some r →
    r.Delaying → r.tick ≤ a.due

/-! ### Steps -/

/-- What an action does. -/
inductive Step (board : Board) (s : TimerState) : TimerAction → TimerState → Prop where
  | pass (ticks : ℕ) : Step board s (.pass ticks) { s with now := s.now + ticks }
  | due (a : Alarm) (ha : s.alarm0 = some a) (hdue : a.due ≤ s.now) :
      Step board s .due { s with alarm0 := none, intr := some a }
  | interrupt (a : Alarm) (ha : s.intr = some a) (hinte : s.inte = true) :
      Step board s .interrupt { s with intr := none, ready := true, expired := some a }
  | call (core : Core) (call : Call) (hcore : s.cores core = none) :
      Step board s (.call core call) (s.run core (some (call.start s.now)))
  | access (core : Core) (found : Found) (r : Running) (a : Access) (rest : List Access)
      (hcore : s.cores core = some r) (htodo : r.todo = a :: rest) :
      Step board s (.turn core found)
        ((s.access r a).run core (some (r.accessed s.now rest a)))
  | poll (core : Core) (found : Found) (r : Running) (r' : Option Running)
      (hcore : s.cores core = some r) (htodo : r.todo = [])
      (hpoll : poll board s r found = some r') :
      Step board s (.turn core found) (s.run core r')

variable {board : Board} {s t : TimerState} {action : TimerAction}

theorem next_cases (h : (timerMachine board).next s action = some t) : Step board s action t := by
  cases action with
  | pass ticks =>
      cases h
      exact .pass ticks
  | due =>
      simp only [timerMachine, TimerState.next] at h
      split at h
      · rename_i a ha
        split at h
        · cases h
          exact .due a ha ‹_›
        · cases h
      · cases h
  | interrupt =>
      simp only [timerMachine, TimerState.next] at h
      split at h
      · rename_i a ha
        split at h
        · cases h
          exact .interrupt a ha ‹_›
        · cases h
      · cases h
  | call core call =>
      simp only [timerMachine, TimerState.next] at h
      split at h
      · cases h
        exact .call core call ‹_›
      · cases h
  | turn core found =>
      simp only [timerMachine, TimerState.next] at h
      split at h
      · rename_i r hcore
        simp only [TimerState.turn] at h
        split at h
        · rename_i a rest htodo
          cases h
          exact .access core found r a rest hcore htodo
        · rename_i htodo
          obtain ⟨r', hpoll, rfl⟩ := Option.map_eq_some_iff.mp h
          exact .poll core found r r' hcore htodo hpoll
      · cases h

/-! ### What is always so -/

/-- The accesses a call may make. -/
def Call.mayMake : Call → Access → Bool
  | .waitIrqObserved _, .writeAlarm => false
  | .resolverReady _, .writeRouteArmed _ => true
  | _, .writeRouteArmed _ => false
  | _, _ => true

/-- What every state keeps: where its alarms come from, and what its calls are about to do. -/
structure Sound (s : TimerState) : Prop where
  armed : ∀ a, s.alarm0 = some a ∨ s.intr = some a → a.owner.mayMake .writeAlarm = true
  due : ∀ a, s.intr = some a → a.due ≤ s.now
  makes : ∀ core r, s.cores core = some r → ∀ a ∈ r.todo, r.call.mayMake a = true

theorem Sound.init : Sound .init where
  armed := fun a h => by rcases h with h | h <;> cases h
  due := fun a h => by cases h
  makes := fun core r h => by cases h

theorem start_makes (call : Call) (now : ℕ) :
    ∀ a ∈ (call.start now).todo, (call.start now).call.mayMake a = true := by
  cases call <;> simp [Call.start, timerRouteArm, Call.mayMake]

theorem accessed_call (r : Running) (now : ℕ) (rest : List Access) (a : Access) :
    (r.accessed now rest a).call = r.call ∧ (r.accessed now rest a).todo = rest ∧
      (r.accessed now rest a).next = r.next ∧ (r.accessed now rest a).began = r.began := by
  cases a <;> exact ⟨rfl, rfl, rfl, rfl⟩

/-- A turn of a loop stays in its call, and makes only accesses of it. -/
theorem poll_makes {r r' : Running} {found : Found} (htodo : r.todo = [])
    (h : poll board s r found = some (some r')) :
    r'.call = r.call ∧ ∀ a ∈ r'.todo, r'.call.mayMake a = true := by
  have hnone : ∀ a ∈ r.todo, r.call.mayMake a = true := by
    intro a ha
    rw [htodo] at ha
    cases ha
  unfold poll at h
  dsimp only at h
  split at h
  · cases h
  · split at h <;> cases h
    · simp [timerRouteFinish, Call.mayMake]
    · exact ⟨rfl, hnone⟩
  · split at h
    · cases h
      simp [timerRouteFinish, Call.mayMake]
    · split at h <;> cases h
    · split at h <;> cases h
      · simp [timerRouteFinish, Call.mayMake]
      · exact ⟨rfl, hnone⟩
  · rename_i hcall
    split at h <;> cases h
    · exact ⟨rfl, hnone⟩
    · simp [timerRouteArm, hcall, Call.mayMake]
  · rename_i hcall
    split at h <;> cases h
    · simp [timerRouteFinish, hcall, Call.mayMake]
    · exact ⟨rfl, hnone⟩
  · split at h <;> cases h
    · exact ⟨rfl, hnone⟩
    · exact ⟨rfl, hnone⟩
  · split at h <;> cases h
    · exact ⟨rfl, hnone⟩
    · exact ⟨rfl, hnone⟩

/-- A core that runs something after `core` was set to `r` ran it before, or runs `r`. -/
theorem run_cores {core c : Core} {r : Option Running} {r' : Running}
    (h : (s.run core r).cores c = some r') : c = core ∧ r = some r' ∨ s.cores c = some r' := by
  by_cases hc : c = core
  · subst hc
    exact .inl ⟨rfl, by simpa [TimerState.run] using h⟩
  · exact .inr (by simpa [TimerState.run, Function.update_of_ne hc] using h)

theorem access_cores (r : Running) (a : Access) : (s.access r a).cores = s.cores := by
  cases a <;> rfl

theorem access_now (r : Running) (a : Access) : (s.access r a).now = s.now := by
  cases a <;> rfl

theorem Sound.step (hs : Sound s) (h : Step board s action t) : Sound t := by
  cases h with
  | pass ticks =>
      exact ⟨hs.armed, fun a ha => Nat.le_add_right_of_le (hs.due a ha), hs.makes⟩
  | due a ha hdue =>
      refine ⟨?_, ?_, hs.makes⟩
      · rintro b (hb | hb)
        · cases hb
        · cases hb
          exact hs.armed a (.inl ha)
      · intro b hb
        cases hb
        exact hdue
  | interrupt a ha hinte =>
      exact ⟨fun b hb => hs.armed b (.inl (hb.resolve_right (by simp))),
        fun b hb => (by cases hb), hs.makes⟩
  | call core call hcore =>
      refine ⟨hs.armed, hs.due, fun c r hr => ?_⟩
      rcases run_cores hr with ⟨-, hr⟩ | hr
      · cases hr
        exact start_makes call s.now
      · exact hs.makes c r hr
  | access core found r a rest hcore htodo =>
      have hmakes : ∀ b ∈ a :: rest, r.call.mayMake b = true := htodo ▸ hs.makes core r hcore
      refine ⟨?_, ?_, fun c r' hr' => ?_⟩
      · intro b hb
        cases a with
        | writeAlarm =>
            rcases hb with hb | hb
            · cases hb
              exact hmakes _ List.mem_cons_self
            · exact hs.armed b (.inr hb)
        | clearIntr =>
            rcases hb with hb | hb
            · exact hs.armed b (.inl hb)
            · cases hb
        | readTimer | clearReady | enableInte | disableInte | writeRouteArmed => exact hs.armed b hb
      · intro b hb
        cases a with
        | clearIntr => cases hb
        | readTimer | clearReady | enableInte | disableInte | writeAlarm | writeRouteArmed =>
            exact hs.due b hb
      · obtain ⟨hcall, htodo', -, -⟩ := accessed_call r s.now rest a
        rcases run_cores hr' with ⟨-, hr'⟩ | hr'
        · cases hr'
          rw [hcall, htodo']
          exact fun b hb => hmakes b (List.mem_cons_of_mem a hb)
        · rw [access_cores] at hr'
          exact hs.makes c r' hr'
  | poll core found r r' hcore htodo hpoll =>
      refine ⟨hs.armed, hs.due, fun c r'' hr => ?_⟩
      rcases run_cores hr with ⟨-, rfl⟩ | hr
      · exact (poll_makes htodo hpoll).2
      · exact hs.makes c r'' hr

/-! ### The flag -/

theorem Alarm.ofRoute_of_armed {a : Alarm} (harmed : a.owner.mayMake .writeAlarm = true)
    (hforeign : a.owner.foreign = false) : a.OfRoute := by
  cases howner : a.owner with
  | resolverReady timeoutMs => exact ⟨timeoutMs, howner⟩
  | pollDelay | deadlineWait =>
      rw [howner] at hforeign
      cases hforeign
  | waitIrqObserved =>
      rw [howner] at harmed
      cases harmed

theorem OnRoute.step (hs : Sound s) (hr : s.OnRoute) (hn : NotForeign s action)
    (h : Step board s action t) : t.OnRoute := by
  cases h with
  | pass ticks =>
      intro hready
      obtain ⟨a, ha, hroute, hdue⟩ := hr hready
      exact ⟨a, ha, hroute, Nat.le_add_right_of_le hdue⟩
  | due | call | poll => exact hr
  | interrupt a ha hinte =>
      exact fun _ => ⟨a, rfl, Alarm.ofRoute_of_armed (hs.armed a (.inr ha)) (hn rfl hinte a ha),
        hs.due a ha⟩
  | access core found r a rest hcore htodo =>
      cases a with
      | clearReady => exact fun hready => by cases hready
      | readTimer | clearIntr | enableInte | disableInte | writeAlarm | writeRouteArmed => exact hr

/-- While a `poll_delay` or a deadline wait is under way, the route timer is not armed and not being
asked for. -/
structure Apart (s : TimerState) : Prop where
  armed : ∀ core r, s.cores core = some r → r.call.foreign = true → s.routeArmed = false
  asked : ∀ core r core' r', s.cores core = some r → s.cores core' = some r' →
    r.call.foreign = true → ∀ timeoutMs, r'.call ≠ .resolverReady timeoutMs

theorem Apart.init : Apart .init where
  armed := fun core r h => by cases h
  asked := fun core r core' r' h => by cases h

theorem Call.start_call (call : Call) (now : ℕ) : (call.start now).call = call := rfl

/-- Only the calls in `calls` are under way after a step that runs no new one. -/
theorem Apart.of_calls (ha : Apart s) (harmed : ∀ core r, s.cores core = some r →
      r.call.foreign = true → t.routeArmed = s.routeArmed)
    (hcalls : ∀ core r, t.cores core = some r → ∃ r', s.cores core = some r' ∧ r'.call = r.call) :
    Apart t where
  armed := by
    intro core r hr hforeign
    obtain ⟨r', hr', hcall⟩ := hcalls core r hr
    rw [← hcall] at hforeign
    rw [harmed core r' hr' hforeign]
    exact ha.armed core r' hr' hforeign
  asked := by
    intro core r core' q hr hq hforeign timeoutMs
    obtain ⟨r', hr', hcall⟩ := hcalls core r hr
    obtain ⟨q', hq', hcall'⟩ := hcalls core' q hq
    rw [← hcall] at hforeign
    rw [← hcall']
    exact ha.asked core r' core' q' hr' hq' hforeign timeoutMs

theorem Apart.step (hs : Sound s) (ha : Apart s) (he : Exclusive s action)
    (h : Step board s action t) : Apart t := by
  cases h with
  | pass | due | interrupt => exact ⟨ha.armed, ha.asked⟩
  | call core call hcore =>
      constructor
      · intro c r hr hforeign
        rcases run_cores hr with ⟨-, hr⟩ | hr
        · cases hr
          exact (he.1 hforeign).1
        · exact ha.armed c r hr hforeign
      · intro c r c' q hr hq hforeign timeoutMs
        rcases run_cores hr with ⟨-, hr'⟩ | hr' <;> rcases run_cores hq with ⟨-, hq'⟩ | hq'
        · cases hr'
          cases hq'
          rintro rfl
          cases hforeign
        · cases hr'
          exact (he.1 hforeign).2 c' q hq' timeoutMs
        · cases hq'
          rintro rfl
          have hnot := he.2 rfl c r hr'
          rw [hforeign] at hnot
          cases hnot
        · exact ha.asked c r c' q hr' hq' hforeign timeoutMs
  | access core found r a rest hcore htodo =>
      have hmakes : r.call.mayMake a = true := hs.makes core r hcore a (htodo ▸ List.mem_cons_self)
      refine ha.of_calls ?_ ?_
      · intro c q hq hforeign
        cases a with
        | writeRouteArmed value =>
            cases hcall : r.call with
            | resolverReady timeoutMs =>
                exact absurd hcall (ha.asked c q core r hq hcore hforeign _)
            | pollDelay | deadlineWait | waitIrqObserved =>
                rw [hcall] at hmakes
                cases hmakes
        | readTimer | clearReady | clearIntr | enableInte | disableInte | writeAlarm => rfl
      · intro c q hq
        rcases run_cores hq with ⟨rfl, hq'⟩ | hq'
        · cases hq'
          exact ⟨r, hcore, (accessed_call r s.now rest a).1.symm⟩
        · rw [access_cores] at hq'
          exact ⟨q, hq', rfl⟩
  | poll core found r r' hcore htodo hpoll =>
      refine ha.of_calls (fun _ _ _ _ => rfl) ?_
      intro c q hq
      rcases run_cores hq with ⟨rfl, rfl⟩ | hq
      · exact ⟨r, hcore, (poll_makes htodo hpoll).1.symm⟩
      · exact ⟨q, hq, rfl⟩

theorem timeoutTicks_of_fits {timeoutMs : ℕ} (h : timeoutMs * timerTicksPerMs ≤ u32Max) :
    timeoutTicks timeoutMs = timeoutMs * timerTicksPerMs := Nat.min_eq_left h

/-- How far a `poll_delay` has come. -/
inductive DelayAt (s : TimerState) (r : Running) (timeoutMs : ℕ) : Prop where
  | arming (hnext : r.next = .poll) (htodo : r.todo = timerRouteArm timeoutMs)
      (hbegan : r.began ≤ s.now) (hfits : timeoutMs * timerTicksPerMs ≤ u32Max)
  | armed (hnext : r.next = .poll)
      (htodo : r.todo = [.clearReady, .clearIntr, .enableInte, .writeAlarm])
      (htick : r.began + timeoutMs * timerTicksPerMs ≤ r.tick)
  | waiting (hnext : r.next = .poll)
      (htodo : r.todo <:+ [.clearIntr, .enableInte, .writeAlarm])
      (htick : r.began + timeoutMs * timerTicksPerMs ≤ r.tick)
      (hready : s.ready = true → r.tick ≤ s.now)
  | returning (answer : Option Bool) (hnext : r.next = .ret answer)
      (hdone : r.began + timeoutMs * timerTicksPerMs ≤ s.now)

namespace DelayAt

variable {r : Running} {timeoutMs : ℕ}

/-- Time passes, and the flag is not set. -/
theorem mono (h : DelayAt s r timeoutMs) (hnow : s.now ≤ t.now)
    (hready : t.ready = true → s.ready = true) : DelayAt t r timeoutMs := by
  cases h with
  | arming hnext htodo hbegan hfits => exact .arming hnext htodo (hbegan.trans hnow) hfits
  | armed hnext htodo htick => exact .armed hnext htodo htick
  | waiting hnext htodo htick hr =>
      exact .waiting hnext htodo htick fun ht => (hr (hready ht)).trans hnow
  | returning answer hnext hdone => exact .returning answer hnext (hdone.trans hnow)

/-- The flag is set, by an alarm that is not due before the delay. -/
theorem interrupted (h : DelayAt s r timeoutMs) (hcall : r.call = .pollDelay timeoutMs)
    (hnow : t.now = s.now) {a : Alarm} (hdue : a.due ≤ s.now)
    (hlater : r.Delaying → r.tick ≤ a.due) :
    DelayAt t r timeoutMs := by
  cases h with
  | arming hnext htodo hbegan hfits => exact .arming hnext htodo (hnow ▸ hbegan) hfits
  | armed hnext htodo htick => exact .armed hnext htodo htick
  | waiting hnext htodo htick hr =>
      refine .waiting hnext htodo htick fun _ => ?_
      have hclear : .clearReady ∉ r.todo := fun hmem => by
        have hlist := htodo.subset hmem
        simp at hlist
      exact hnow ▸ (hlater ⟨⟨timeoutMs, hcall⟩, hnext, hclear⟩).trans hdue
  | returning answer hnext hdone => exact .returning answer hnext (hnow ▸ hdone)

/-- One access of the delay itself. -/
theorem access {a : Access} {rest : List Access} (h : DelayAt s r timeoutMs)
    (htodo : r.todo = a :: rest) (core : Core) :
    DelayAt ((s.access r a).run core (some (r.accessed s.now rest a))) (r.accessed s.now rest a)
      timeoutMs := by
  have hnow : ((s.access r a).run core (some (r.accessed s.now rest a))).now = s.now :=
    access_now r a
  cases h with
  | arming hnext htodo' hbegan hfits =>
      rw [htodo'] at htodo
      cases htodo
      refine .armed hnext rfl ?_
      -- the alarm is not clamped
      rw [← timeoutTicks_of_fits hfits]
      exact Nat.add_le_add hbegan (Nat.le_max_left _ _)
  | armed hnext htodo' htick =>
      rw [htodo'] at htodo
      cases htodo
      exact .waiting hnext (List.suffix_refl _) htick fun hready => by cases hready
  | waiting hnext htodo' htick hr =>
      rw [htodo] at htodo'
      have hrest : rest <:+ [.clearIntr, .enableInte, .writeAlarm] :=
        (List.suffix_cons a rest).trans htodo'
      have ha : a ∈ [Access.clearIntr, .enableInte, .writeAlarm] :=
        htodo'.subset List.mem_cons_self
      simp only [List.mem_cons, List.not_mem_nil, or_false] at ha
      rcases ha with rfl | rfl | rfl <;> exact .waiting hnext hrest htick hr
  | returning answer hnext hdone =>
      obtain ⟨-, -, hnext', hbegan⟩ := accessed_call r s.now rest a
      refine .returning answer (hnext'.trans hnext) ?_
      rw [hbegan, hnow]
      exact hdone

/-- A turn of the loop of the delay itself. -/
theorem polled {r' : Running} {found : Found} (h : DelayAt s r timeoutMs)
    (hcall : r.call = .pollDelay timeoutMs) (htodo : r.todo = [])
    (hpoll : poll board s r found = some (some r')) : DelayAt s r' timeoutMs := by
  cases h with
  | arming _ htodo' => simp [htodo', timerRouteArm] at htodo
  | armed _ htodo' => simp [htodo'] at htodo
  | waiting hnext hsuffix htick hr =>
      simp only [poll, hnext, hcall] at hpoll
      split at hpoll
      · rename_i hready
        cases hpoll
        exact .returning none rfl (htick.trans (hr hready))
      · cases hpoll
        exact .waiting hnext hsuffix htick hr
  | returning answer hnext hdone =>
      simp only [poll, hnext] at hpoll
      cases hpoll

end DelayAt

/-- Every `poll_delay` under way has come some way. -/
def Delays (s : TimerState) : Prop :=
  ∀ core r timeoutMs, s.cores core = some r → r.call = .pollDelay timeoutMs → DelayAt s r timeoutMs

theorem Delays.step (hs : Sound s) (hd : Delays s) (he : NoEarlier s action) (hf : Fits s action)
    (h : Step board s action t) : Delays t := by
  intro c q timeoutMs hq hcall
  cases h with
  | pass ticks => exact (hd c q timeoutMs hq hcall).mono (Nat.le_add_right _ _) id
  | due => exact (hd c q timeoutMs hq hcall).mono le_rfl id
  | interrupt a ha hinte =>
      exact (hd c q timeoutMs hq hcall).interrupted hcall rfl (hs.due a ha)
        (he rfl hinte a ha c q hq)
  | call core call hcore =>
      rcases run_cores hq with ⟨-, hq'⟩ | hq'
      · cases hq'
        rw [Call.start_call] at hcall
        subst hcall
        exact .arming rfl rfl le_rfl hf
      · exact (hd c q timeoutMs hq' hcall).mono le_rfl id
  | access core found r a rest hcore htodo =>
      rcases run_cores hq with ⟨-, hq'⟩ | hq'
      · cases hq'
        rw [(accessed_call r s.now rest a).1] at hcall
        exact (hd core r timeoutMs hcore hcall).access htodo core
      · rw [access_cores] at hq'
        refine (hd c q timeoutMs hq' hcall).mono (access_now r a).ge fun hready => ?_
        cases a with
        | clearReady => cases hready
        | readTimer | clearIntr | enableInte | disableInte | writeAlarm | writeRouteArmed =>
            exact hready
  | poll core found r r' hcore htodo hpoll =>
      rcases run_cores hq with ⟨-, rfl⟩ | hq'
      · rw [(poll_makes htodo hpoll).1] at hcall
        exact ((hd core r timeoutMs hcore hcall).polled hcall htodo hpoll).mono le_rfl id
      · exact (hd c q timeoutMs hq' hcall).mono le_rfl id

/-- So many turns of a core that finds nothing. -/
def turns (core : Core) (n : ℕ) : List TimerAction := List.replicate n (.turn core .nothing)

end HibanaPico.TimerRoute
