import HibanaPico.Appkit.Arena
import HibanaPico.Appkit.Conversation
import HibanaPico.Appkit.Embedded
import HibanaPico.Appkit.Imports
import HibanaPico.Support.Lockstep

/-!
# Appkit — Agree

The host's scheduler and the embedded loop drive one guest through one conversation.

* `host_follows`, `embedded_follows`: each takes the conversation's turns and no others.
* `host_serves`: on the host the other tasks outlive the guest's exit.
* `host_fails`: an error of the engine's endpoint is a failure of the whole image.
* `images_agree`: the three together.
-/

namespace HibanaPico.Appkit
open HibanaPico.Support

variable {γ σ α : Type*} {rt : WasiRuntime γ α} {ep : Endpoint σ α} {len engineIdx : ℕ}

/-! ### One conversation -/

def EngineTask.talk (rt : WasiRuntime γ α) (e : CanonicalWasiEngine γ σ α) :
    EngineTask γ α → Talk γ α
  | .call => e.talk rt
  | .drive stands => stands.talk
  | .pending | .failed | .panicked => .ended

def EmbeddedAt.talk (rt : WasiRuntime γ α) (e : CanonicalWasiEngine γ σ α) :
    EmbeddedAt γ α → Talk γ α
  | .first _ | .call | .expired => e.talk rt
  | .drive stands | .tasks stands _ => stands.talk
  | .observing | .failed | .panicked => .ended

def HostImage.conversation (rt : WasiRuntime γ α) (s : HostImage γ σ α) : Conversation γ σ α :=
  s.engine.conversation (s.task.talk rt s.engine)

def EmbeddedImage.conversation (rt : WasiRuntime γ α) (s : EmbeddedImage γ σ α) :
    Conversation γ σ α :=
  s.engine.conversation (s.stands.talk rt s.engine)

theorem conversation_afterDrive (driven : Driven γ σ α WasiGuestStatus) :
    (afterDrive driven).1.conversation ((afterDrive driven).2.talk rt (afterDrive driven).1) =
      driven.conversation rt WasiGuestStatus.expired := by
  cases driven with
  | stands e drive => rfl
  | panicked e => rfl
  | returned e result =>
      cases result with
      | error _ => rfl
      | ok status => cases status <;> rfl

theorem conversation_afterDriveBlocking (driven : Driven γ σ α EmbeddedWasiGuestStatus) :
    (afterDriveBlocking driven).1.conversation
        ((afterDriveBlocking driven).2.talk rt (afterDriveBlocking driven).1) =
      driven.conversation rt EmbeddedWasiGuestStatus.expired := by
  cases driven with
  | stands e drive => rfl
  | panicked e => rfl
  | returned e result =>
      cases result with
      | error _ => rfl
      | ok status => cases status <;> rfl

/-- The host takes the conversation's turns. -/
theorem host_follows (rt : WasiRuntime γ α) (ep : Endpoint σ α) (len engineIdx : ℕ) :
    (hostMachine rt ep len engineIdx).Follows (HostImage.conversation rt)
      (Conversation.next rt ep) := by
  intro s a t h
  obtain ⟨-, hstep⟩ := hostNext_cases h
  cases hstep with
  | went hlt hidx hgoes =>
      obtain ⟨engine, task, taskIdx, woke, halted, watch⟩ := s
      cases task with
      | call =>
          have hbegin := conversation_beginDrive rt ep engine WasiGuestStatus.expired
          rw [← conversation_afterDrive] at hbegin
          exact hbegin
      | drive stands =>
          exact .inr ((conversation_afterDrive _).trans
            (conversation_driveWasiGuest rt ep engine stands))
      | pending => cases hgoes
      | failed => cases hgoes
      | panicked => cases hgoes
  | _ => exact .inl rfl

/-- And so does the embedded loop. -/
theorem embedded_follows (rt : WasiRuntime γ α) (ep : Endpoint σ α) (len : ℕ) :
    (embeddedMachine rt ep len).Follows (EmbeddedImage.conversation rt)
      (Conversation.next rt ep) := by
  intro s a t h
  obtain ⟨-, hstep⟩ := embeddedNext_cases h
  obtain ⟨engine, stands, halted, watch⟩ := s
  cases hstep with
  | called hstands =>
      obtain rfl : stands = .call := hstands
      have hbegin := conversation_beginDrive rt ep engine EmbeddedWasiGuestStatus.expired
      rw [← conversation_afterDriveBlocking] at hbegin
      exact hbegin
  | @drove drive hstands =>
      obtain rfl : stands = .drive drive := hstands
      exact .inr ((conversation_afterDriveBlocking _).trans
        (conversation_driveWasiGuestBlocking rt ep engine drive))
  | firstPolled hstands => obtain rfl := hstands; exact .inl rfl
  | firstDone hstands => obtain rfl := hstands; exact .inl rfl
  | waited hstands => obtain rfl := hstands; exact .inl rfl
  | polled hstands => obtain rfl := hstands; exact .inl rfl
  | polledAll hstands => obtain rfl := hstands; exact .inl rfl
  | expired hstands => obtain rfl := hstands; exact .inl rfl
  | taskFailed => exact .inl rfl
  | observed => exact .inl rfl
  | failed => exact .inl rfl

/-- The guest has exited, or an error has ended it. -/
def HostImage.guestEnded (s : HostImage γ σ α) : Bool := !s.task.goes

def EmbeddedImage.guestEnded (s : EmbeddedImage γ σ α) : Bool :=
  match s.stands with
  | .observing | .failed | .panicked => true
  | .first _ | .call | .drive _ | .tasks .. | .expired => false

theorem HostImage.next_conversation {s : HostImage γ σ α} (h : s.guestEnded) :
    (s.conversation rt).next rt ep = s.conversation rt := by
  refine next_ended rt ep ?_
  obtain ⟨engine, task, taskIdx, woke, halted, watch⟩ := s
  cases task with
  | call => cases h
  | drive _ => cases h
  | pending => rfl
  | failed => rfl
  | panicked => rfl

theorem EmbeddedImage.next_conversation {s : EmbeddedImage γ σ α} (h : s.guestEnded) :
    (s.conversation rt).next rt ep = s.conversation rt := by
  refine next_ended rt ep ?_
  obtain ⟨engine, stands, halted, watch⟩ := s
  cases stands with
  | observing => rfl
  | failed => rfl
  | panicked => rfl
  | _ => cases h

/-! ### The host's other tasks -/

/-- Each woken task is still to be polled, in this pass or in another. -/
def WillPoll (len : ℕ) (s : HostImage γ σ α) : Prop :=
  ∀ task < len, s.watch.woken task → s.taskIdx ≤ task ∨ s.woke

theorem WillPoll.pended {s : HostImage γ σ α} (h : WillPoll len s) (wakes : List ℕ)
    (events : List ImageEvent) : WillPoll len (s.pended wakes events) := by
  intro task hlt hwoken
  have hwoke : (s.pended wakes events).woke = (s.woke || !wakes.isEmpty) := rfl
  rcases Watch.woken_poll hwoken with hwakes | ⟨hne, hbefore⟩
  · exact .inr (by rw [hwoke]; simp [hwakes])
  · rcases h task hlt hbefore with hle | hs
    · exact .inl (Nat.lt_of_le_of_ne hle (Ne.symm hne))
    · exact .inr (by rw [hwoke, hs]; rfl)

theorem willPoll_step (s : HostImage γ σ α) (a : ImageAction) (t : HostImage γ σ α)
    (h : s.halted = none → WillPoll len s)
    (hstep : (hostMachine rt ep len engineIdx).next s a = some t) :
    t.halted = none → WillPoll len t := by
  obtain ⟨hover, hstep⟩ := hostNext_cases hstep
  have h := h hover
  intro hover'
  cases hstep with
  | went => exact h
  | polled => exact h.pended _ _
  | waited => exact h.pended _ _
  | rested => exact h.pended _ _
  | passed => exact fun _ _ _ => .inl (Nat.zero_le _)
  | otherFailed => cases hover'
  | engineFailed => cases hover'
  | enginePanicked => cases hover'
  | quiesced => cases hover'

/-- The turns left until a task is polled, once the engine's slot only rests. -/
def turnsUntil (len task : ℕ) (s : HostImage γ σ α) : ℕ :=
  if s.taskIdx ≤ task then task - s.taskIdx + 1 else (len - s.taskIdx) + task + 2

/-- The scheduler is on its way to a woken task. -/
structure OnItsWay (len engineIdx task : ℕ) (log : List ImageEvent) (s : HostImage γ σ α) :
    Prop where
  lt : task < len
  ne : task ≠ engineIdx
  rests : s.task = .pending
  halted : s.halted = none
  woken : s.watch.woken task
  willPoll : WillPoll len s
  grown : log <+: s.watch.log

/-- The task has been polled since the log was `log`, or a task has failed. -/
def Served (task : ℕ) (log : List ImageEvent) (s : HostImage γ σ α) : Prop :=
  (∃ events, s.watch.log = log ++ events ∧ .polled task ∈ events) ∨ ∃ i, s.halted = some (.failed i)

section Serves
variable {task : ℕ} {log : List ImageEvent} {s : HostImage γ σ α}

/-- Another slot is polled. -/
theorem OnItsWay.pended (h : OnItsWay len engineIdx task log s) (hlt : s.taskIdx < len)
    (hne : s.taskIdx ≠ task) (wakes : List ℕ) (events : List ImageEvent) :
    OnItsWay len engineIdx task log (s.pended wakes events) ∧
      turnsUntil len task (s.pended wakes events) < turnsUntil len task s := by
  refine ⟨⟨h.lt, h.ne, h.rests, h.halted, ?_, h.willPoll.pended wakes events, ?_⟩, ?_⟩
  · exact Watch.woken_poll_of_ne (Ne.symm hne) wakes h.woken
  · exact h.grown.trans (List.prefix_append _ _)
  · have hlt' := h.lt
    have hidx : (s.pended wakes events).taskIdx = s.taskIdx + 1 := rfl
    unfold turnsUntil
    rw [hidx]
    split <;> split <;> omega

/-- A turn serves the task, or brings the scheduler closer to it. -/
theorem OnItsWay.step {t : HostImage γ σ α} (h : OnItsWay len engineIdx task log s)
    (hstep : HostStep rt ep len engineIdx s t) :
    Served task log t ∨
      OnItsWay len engineIdx task log t ∧ turnsUntil len task t < turnsUntil len task s := by
  obtain ⟨events, hlog⟩ := h.grown
  cases hstep with
  | went _ _ hgoes => rw [h.rests] at hgoes; cases hgoes
  | waited _ _ htask => rw [h.rests] at htask; cases htask
  | engineFailed _ _ htask => rw [h.rests] at htask; cases htask
  | enginePanicked _ _ htask => rw [h.rests] at htask; cases htask
  | otherFailed => exact .inl (.inr ⟨_, rfl⟩)
  | rested hlt hidx =>
      -- the engine's slot is not the task's
      exact .inr (h.pended hlt (fun heq => h.ne (heq ▸ hidx)) _ _)
  | @polled wakes hlt =>
      by_cases htask : s.taskIdx = task
      · refine .inl (.inl ⟨events ++ [.polled task], ?_, by simp⟩)
        simp [HostImage.pended, ← hlog, htask]
      · exact .inr (h.pended hlt htask _ _)
  | passed hidx =>
      refine .inr ⟨⟨h.lt, h.ne, h.rests, h.halted, Watch.woken_wake _ h.woken,
        fun _ _ _ => .inl (Nat.zero_le _), h.grown.trans (List.prefix_append _ _)⟩, ?_⟩
      have hlt := h.lt
      unfold turnsUntil
      rw [if_pos (Nat.zero_le _), if_neg (by omega)]
      omega
  | quiesced hidx hwoke =>
      -- a woken task left behind keeps the flag up
      rcases h.willPoll task h.lt h.woken with hle | hflag
      · exact absurd (Nat.lt_of_le_of_lt hle h.lt) hidx
      · rw [hwoke] at hflag; cases hflag

theorem served_step {t : HostImage γ σ α} {a : ImageAction} (h : Served task log s)
    (hstep : (hostMachine rt ep len engineIdx).next s a = some t) : Served task log t := by
  obtain ⟨hover, hstep⟩ := hostNext_cases hstep
  rcases h with ⟨events, hlog, hmem⟩ | ⟨i, hfailed⟩
  · obtain ⟨more, hmore⟩ : ∃ more, t.watch.log = s.watch.log ++ more := by
      cases hstep with
      | otherFailed => exact ⟨_, List.append_assoc _ _ _⟩
      | engineFailed => exact ⟨_, List.append_assoc _ _ _⟩
      | enginePanicked => exact ⟨[], (List.append_nil _).symm⟩
      | _ => exact ⟨_, rfl⟩
    exact .inl ⟨events ++ more, by rw [hmore, hlog, List.append_assoc],
      List.mem_append_left _ hmem⟩
  · rw [hover] at hfailed; cases hfailed

/-- **Served.**  Once the guest has exited, the scheduler does not stop while a task is woken, and
polls it within two passes, unless a task fails. -/
theorem host_serves {endpoint : σ} {as : List ImageAction} {s : HostImage γ σ α}
    (hrun : (hostMachine rt ep len engineIdx).exec (.init endpoint) as = some s)
    (hrests : s.task = .pending) (hover : s.halted = none) (hlt : task < len)
    (hne : task ≠ engineIdx) (hwoken : s.watch.woken task) {bs : List ImageAction}
    {t : HostImage γ σ α} (h : (hostMachine rt ep len engineIdx).exec s bs = some t) :
    Served task s.watch.log t ∨ t.halted = none ∧ bs.length < 2 * (len + 1) := by
  have hwill : s.halted = none → WillPoll len s :=
    Machine.exec_keeps willPoll_step (fun _ _ _ _ => .inl (Nat.zero_le _)) hrun
  -- the rank is the turns left until the scheduler comes by the task
  have hway : OnItsWay len engineIdx task s.watch.log s :=
    ⟨hlt, hne, hrests, hover, hwoken, hwill hover, List.prefix_refl _⟩
  have hrank := @Machine.exec_rank _ _ _ _ _ (turnsUntil len task)
    (fun _ _ _ hI hstep => OnItsWay.step hI (hostNext_cases hstep).2)
    (fun _ _ _ hQ hstep => served_step hQ hstep) _ _ _ hway h
  refine hrank.imp_right ?_
  rintro ⟨hway, hle⟩
  refine ⟨hway.halted, ?_⟩
  have hmost : turnsUntil len task s ≤ 2 * len + 1 := by
    unfold turnsUntil
    split <;> omega
  omega

end Serves

/-- The scheduler has a turn to take until it is over. -/
theorem host_turn (rt : WasiRuntime γ α) (ep : Endpoint σ α) (len engineIdx : ℕ)
    {s : HostImage γ σ α} (hover : s.halted = none) :
    ∃ a t, (hostMachine rt ep len engineIdx).next s a = some t := by
  obtain ⟨engine, task, taskIdx, woke, halted, watch⟩ := s
  obtain rfl : halted = none := hover
  simp only [hostMachine, hostNext, Option.isSome_none, Bool.false_eq_true, if_false]
  by_cases hlt : taskIdx < len
  · by_cases hidx : taskIdx = engineIdx
    · simp only [if_pos hlt, if_pos hidx]
      cases task with
      | call => exact ⟨.go, _, rfl⟩
      | drive _ => exact ⟨.go, _, rfl⟩
      | pending => exact ⟨.pending [], _, rfl⟩
      | failed => exact ⟨.failed, _, rfl⟩
      | panicked => exact ⟨.failed, _, rfl⟩
    · simp only [if_pos hlt, if_neg hidx]
      exact ⟨.pending [], _, rfl⟩
  · simp only [if_neg hlt]
    cases woke with
    | true => exact ⟨.observe [], _, rfl⟩
    | false => exact ⟨.observe [], _, rfl⟩

/-! ### An error of the endpoint -/

/-- The last thing that was tried is a `send` or a `recv` that failed. -/
def EndpointFailed (trace : List (DriveEvent α)) : Prop :=
  (∃ message value, trace.getLast? = some (.sent message value false)) ∨
    ∃ message, trace.getLast? = some (.received message none)

theorem endpointFailed_drive (rt : WasiRuntime γ α) (ep : Endpoint σ α)
    (e : CanonicalWasiEngine γ σ α) (drive : DriveAt γ α)
    (h : EndpointFailed (afterDrive (driveWasiGuest rt ep e drive)).1.trace) :
    (afterDrive (driveWasiGuest rt ep e drive)).2 = .failed := by
  obtain ⟨init, resume, completeImport, completeMemoryGrow⟩ := rt
  obtain ⟨send, recv⟩ := ep
  revert h
  cases drive with
  | resume slot =>
      unfold driveWasiGuest
      dsimp only
      rcases resume slot.guest with ⟨guest, none | step⟩
      · exact fun _ => rfl
      · cases step <;> intro h <;>
          simp [EndpointFailed, afterDrive, endDrive, CanonicalWasiEngine.callGuest,
            CanonicalWasiEngine.storeWasiGuestSlot, CanonicalWasiEngine.setGuestSlot,
            CanonicalWasiEngine.setGuestStorage] at h
  | sendImport slot pending =>
      unfold driveWasiGuest CanonicalWasiEngine.send
      dsimp only
      rcases send e.endpoint _ _ with ⟨endpoint, _ | _⟩
      · exact fun _ => rfl
      · intro h
        simp [EndpointFailed, afterDrive] at h
  | sendMemoryGrow slot request =>
      unfold driveWasiGuest CanonicalWasiEngine.send
      dsimp only
      rcases send e.endpoint _ _ with ⟨endpoint, _ | _⟩
      · exact fun _ => rfl
      · intro h
        simp [EndpointFailed, afterDrive] at h
  | recvImport slot pending =>
      unfold driveWasiGuest CanonicalWasiEngine.recv
      dsimp only
      rcases recv e.endpoint _ with ⟨endpoint, none | value⟩
      · exact fun _ => rfl
      · dsimp only
        rcases completeImport pending slot.guest _ with ⟨guest, _ | _⟩
        · exact fun _ => rfl
        · intro h
          simp [EndpointFailed, afterDrive, CanonicalWasiEngine.callGuest] at h
  | recvMemoryGrow slot request =>
      unfold driveWasiGuest CanonicalWasiEngine.recv
      dsimp only
      rcases recv e.endpoint _ with ⟨endpoint, none | value⟩
      · exact fun _ => rfl
      · dsimp only
        rcases completeMemoryGrow request slot.guest _ with ⟨guest, _ | _⟩
        · exact fun _ => rfl
        · intro h
          simp [EndpointFailed, afterDrive, CanonicalWasiEngine.callGuest] at h

theorem trace_beginDrive (rt : WasiRuntime γ α) (e : CanonicalWasiEngine γ σ α) :
    (afterDrive (beginDrive rt e)).1.trace = e.trace := by
  have htrace := trace_takeWasiGuestSlot rt e
  unfold beginDrive
  split <;> rename_i htake <;> rw [htake] at htrace <;> exact htrace

/-- An error of the endpoint is an error of the engine's task, in the poll of its slot. -/
structure FailsInPoll (len engineIdx : ℕ) (s : HostImage γ σ α) : Prop where
  failed : EndpointFailed s.engine.trace → s.task = .failed
  inPoll : s.task = .failed → s.halted = none → s.taskIdx < len ∧ s.taskIdx = engineIdx

theorem failsInPoll_step (s : HostImage γ σ α) (a : ImageAction) (t : HostImage γ σ α)
    (h : FailsInPoll len engineIdx s)
    (hstep : (hostMachine rt ep len engineIdx).next s a = some t) :
    FailsInPoll len engineIdx t := by
  obtain ⟨hover, hstep⟩ := hostNext_cases hstep
  obtain ⟨hfailed, hpoll⟩ := h
  cases hstep with
  | went hlt hidx hgoes =>
      refine ⟨fun htrace => ?_, fun _ _ => ⟨hlt, hidx⟩⟩
      obtain ⟨engine, task, taskIdx, woke, halted, watch⟩ := s
      cases task with
      | call =>
          have hbefore : EndpointFailed engine.trace := trace_beginDrive rt engine ▸ htrace
          cases hfailed hbefore
      | drive stands => exact endpointFailed_drive rt ep engine stands htrace
      | pending => cases hgoes
      | failed => cases hgoes
      | panicked => cases hgoes
  | polled _ hidx =>
      exact ⟨hfailed, fun htask _ => absurd (hpoll htask hover).2 hidx⟩
  | waited _ _ htask =>
      exact ⟨hfailed, fun hfail _ => by cases htask.symm.trans hfail⟩
  | rested _ _ htask =>
      exact ⟨hfailed, fun hfail _ => by cases htask.symm.trans hfail⟩
  | passed hidx =>
      exact ⟨hfailed, fun htask _ => absurd (hpoll htask hover).1 hidx⟩
  | otherFailed => exact ⟨hfailed, fun _ h => by cases h⟩
  | engineFailed => exact ⟨hfailed, fun _ h => by cases h⟩
  | enginePanicked => exact ⟨hfailed, fun _ h => by cases h⟩
  | quiesced => exact ⟨hfailed, fun _ h => by cases h⟩

/-- **An image failure.**  Once the endpoint has failed, the scheduler's next turn is its last: it
observes, and panics. -/
theorem host_fails {endpoint : σ} {as : List ImageAction} {s : HostImage γ σ α}
    (hrun : (hostMachine rt ep len engineIdx).exec (.init endpoint) as = some s)
    (hfailed : EndpointFailed s.engine.trace) {a : ImageAction} {t : HostImage γ σ α}
    (h : (hostMachine rt ep len engineIdx).next s a = some t) :
    t.halted = some (.failed engineIdx) ∧ t.watch.log = s.watch.log ++ [.observed] := by
  have hinit : FailsInPoll len engineIdx (.init endpoint : HostImage γ σ α) :=
    ⟨fun h => absurd h (by simp [EndpointFailed, HostImage.init, CanonicalWasiEngine.new]),
      fun h _ => by cases h⟩
  obtain ⟨hfails, hpoll⟩ := Machine.exec_keeps failsInPoll_step hinit hrun
  have htask := hfails hfailed
  obtain ⟨hover, hstep⟩ := hostNext_cases h
  obtain ⟨hlt, hidx⟩ := hpoll htask hover
  cases hstep with
  | went _ _ hgoes => rw [htask] at hgoes; cases hgoes
  | polled _ hne => exact absurd hidx hne
  | waited _ _ hdrive => rw [htask] at hdrive; cases hdrive
  | rested _ _ hpending => rw [htask] at hpending; cases hpending
  | otherFailed _ hne => exact absurd hidx hne
  | engineFailed =>
      exact ⟨congrArg (fun i => some (HostOver.failed i)) hidx, by simp [HostImage.fail]⟩
  | enginePanicked _ _ hpanicked => rw [htask] at hpanicked; cases hpanicked
  | passed hge => exact absurd hlt hge
  | quiesced hge => exact absurd hlt hge

/-! ### The two images -/

/-- **Host and embedded images.**  For every guest and endpoint the two traces are a part the one of
the other, and neither is longer than that of a guest that has ended.  On the host, after the
guest's exit, a woken task is polled before the scheduler stops and within two passes, unless a task
fails; and after an error of the engine's endpoint the scheduler observes once and panics. -/
theorem images_agree (rt : WasiRuntime γ α) (ep : Endpoint σ α) (endpoint : σ)
    (len engineIdx stored : ℕ) :
    (∀ as bs s t, (hostMachine rt ep len engineIdx).exec (.init endpoint) as = some s →
      (embeddedMachine rt ep stored).exec (.init endpoint) bs = some t →
      (s.engine.trace <+: t.engine.trace ∨ t.engine.trace <+: s.engine.trace) ∧
        (t.guestEnded → s.engine.trace <+: t.engine.trace) ∧
        (s.guestEnded → t.engine.trace <+: s.engine.trace)) ∧
    (∀ as s, (hostMachine rt ep len engineIdx).exec (.init endpoint) as = some s →
      s.halted = none →
      (∃ a t, (hostMachine rt ep len engineIdx).next s a = some t) ∧
      (s.task = .pending → ∀ task < len, task ≠ engineIdx → s.watch.woken task →
        ∀ bs t, (hostMachine rt ep len engineIdx).exec s bs = some t →
          Served task s.watch.log t ∨ t.halted = none ∧ bs.length < 2 * (len + 1)) ∧
      (EndpointFailed s.engine.trace →
        ∀ a t, (hostMachine rt ep len engineIdx).next s a = some t →
          t.halted = some (.failed engineIdx) ∧ t.watch.log = s.watch.log ++ [.observed])) := by
  refine ⟨fun as bs s t hs ht => ?_, fun as s hs hover => ⟨host_turn rt ep len engineIdx hover,
    fun hrests task hlt hne hwoken bs t ht => host_serves hs hrests hover hlt hne hwoken ht,
    fun hfailed a t ht => host_fails hs hfailed ht⟩⟩
  have hhost := host_follows rt ep len engineIdx
  have hembedded := embedded_follows rt ep stored
  have hgrows := trace_next rt ep
  exact ⟨comparable hhost hembedded rfl hs ht hgrows,
    fun hended => behind_end hhost hembedded rfl hs ht hgrows (t.next_conversation hended),
    fun hended => behind_end hembedded hhost rfl ht hs hgrows (s.next_conversation hended)⟩

/-- A guest that asks for memory twice, the second time after its budget has expired, and exits. -/
def briefGuest : WasiRuntime ℕ ℕ where
  init _ := some 0
  resume guest := (guest + 1, some (match guest with
    | 0 | 2 => .memoryGrowPending guest
    | 1 => .budgetExpired
    | _ => .exit))
  completeImport _ guest _ := (guest, true)
  completeMemoryGrow _ guest _ := (guest, true)

/-- Slot 0 holds another task, and slot 1 the engine.  The other task is woken while the engine
waits, and again once the guest has exited. -/
def briefHost : List ImageAction :=
  [.pending [], .go, .go, .pending [0], .observe [], .pending [], .go, .go, .go, .go, .go, .go, .go,
    .go, .pending [0]]

/-- The embedded loop waits for its endpoint, and then sends to it. -/
def briefEmbedded : List ImageAction :=
  [.pending [], .go, .go, .go, .pending [0], .pending [], .go, .go]

theorem images_agree_brief :
    ∃ s t, (hostMachine briefGuest zeroEndpoint 2 1).exec (.init ()) briefHost = some s ∧
      (embeddedMachine briefGuest zeroEndpoint 1).exec (.init ()) briefEmbedded = some t ∧
      s.task = .pending ∧ s.watch.woken 0 ∧ t.engine.trace <+: s.engine.trace ∧
      ∀ ds u, (hostMachine briefGuest zeroEndpoint 2 1).exec s ds = some u →
        Served 0 s.watch.log u ∨ u.halted = none ∧ ds.length < 6 := by
  have hagree := images_agree briefGuest zeroEndpoint () 2 1 1
  refine ⟨_, _, rfl, rfl, rfl, rfl, ?_, ?_⟩
  · exact (hagree.1 briefHost briefEmbedded _ _ rfl rfl).2.2 rfl
  · exact (hagree.2 briefHost _ rfl rfl).2.1 rfl 0 (by decide) (by decide) rfl

/-! ### After the end -/

/-- In `embedded_observe_forever` no task is polled. -/
theorem polled_observing {rt : WasiRuntime γ α} {ep : Endpoint σ α} {stored : ℕ} (task : ℕ)
    {s t : EmbeddedImage γ σ α} {as : List ImageAction} (hobserving : s.stands = .observing)
    (h : (embeddedMachine rt ep stored).exec s as = some t) :
    t.watch.log.count (.polled task) = s.watch.log.count (.polled task) := by
  have hkeeps := Machine.exec_keeps (M := embeddedMachine rt ep stored)
    (I := fun u => u.stands = .observing ∧
      u.watch.log.count (.polled task) = s.watch.log.count (.polled task))
    ?_ ⟨hobserving, rfl⟩ h
  · exact hkeeps.2
  · rintro u a v ⟨hstands, hcount⟩ hstep
    obtain ⟨-, hstep⟩ := embeddedNext_cases hstep
    cases hstep with
    | observed =>
        refine ⟨hstands, ?_⟩
        rw [Watch.log_note, List.count_append, Watch.log_wake, hcount]
        rfl
    | firstPolled h => cases hstands.symm.trans h
    | firstDone h => cases hstands.symm.trans h
    | called h => cases hstands.symm.trans h
    | drove h => cases hstands.symm.trans h
    | waited h => cases hstands.symm.trans h
    | polled h => cases hstands.symm.trans h
    | polledAll h => cases hstands.symm.trans h
    | expired h => cases hstands.symm.trans h
    | failed h => cases hstands.symm.trans h
    | taskFailed _ h =>
        rcases h with h | ⟨_, h⟩
        · cases hstands.symm.trans h
        · cases hstands.symm.trans h

/-- An endpoint that takes nothing. -/
def deafEndpoint : Endpoint Unit ℕ where
  send endpoint _ _ := (endpoint, false)
  recv endpoint _ := (endpoint, none)

/-- **After an endpoint error no task is polled.**  Task 0 has been polled once and woken since when
the engine's endpoint fails, and is not polled again, on the host or on the embedded target. -/
theorem images_stop :
    (∃ s, (hostMachine briefGuest deafEndpoint 2 1).exec (.init ())
        [.pending [0], .go, .go, .go] = some s ∧ EndpointFailed s.engine.trace ∧
      s.watch.woken 0 ∧ ∀ as t, (hostMachine briefGuest deafEndpoint 2 1).exec s as = some t →
        t.watch.log.count (.polled 0) = 1) ∧
    ∃ s, (embeddedMachine briefGuest deafEndpoint 1).exec (.init ())
        [.pending [0], .go, .go, .go, .go] = some s ∧ EndpointFailed s.engine.trace ∧
      s.watch.woken 0 ∧ ∀ as t, (embeddedMachine briefGuest deafEndpoint 1).exec s as = some t →
        t.watch.log.count (.polled 0) = 1 := by
  constructor
  · refine ⟨_, rfl, .inl ⟨_, _, rfl⟩, rfl, fun as t h => ?_⟩
    cases as with
    | nil => cases h; rfl
    | cons a as =>
        obtain ⟨u, hu, ht⟩ := Machine.exec_cons.mp h
        obtain ⟨hover, hlog⟩ := @host_fails _ _ _ _ _ _ _ _
          [.pending [0], .go, .go, .go] _ rfl (.inl ⟨_, _, rfl⟩) _ _ hu
        cases as with
        | nil => cases ht; rw [hlog]; rfl
        | cons b as =>
            obtain ⟨v, hv, -⟩ := Machine.exec_cons.mp ht
            obtain ⟨hnone, -⟩ := hostNext_cases hv
            cases hover.symm.trans hnone
  · exact ⟨_, rfl, .inl ⟨_, _, rfl⟩, rfl, fun as t h => polled_observing 0 rfl h⟩

end HibanaPico.Appkit
