import HibanaPico.Appkit.Agree
import HibanaPico.Support.Lists

/-!
# Appkit — Budget

What an expired budget does for the other tasks of an image, and what a wait of the engine does.

* `sinceExpired`, `sinceWaited`: what has happened since the last activation that ran out of budget,
  and since the endpoint was last found not ready.
* `hostExpired_step`, `embeddedExpired_step`: an expired budget leads straight to the next
  activation.
* `hostWaited_step`, `embeddedWaited_step`: after a wait every other task is polled.
* `budget_expiry`: both, for every run.
-/

namespace HibanaPico.Appkit
open HibanaPico.Support

/-- What has happened since the guest was last activated, if its budget expired then. -/
def sinceExpired (log : List ImageEvent) : Option (List ImageEvent) :=
  since (fun event => event = .resumed true) (fun event => event = .resumed false) log

/-- What has happened since the engine's endpoint was last found not ready, if the guest has not
been activated since. -/
def sinceWaited (log : List ImageEvent) : Option (List ImageEvent) :=
  since (fun event => event = .waited)
    (fun event => event = .resumed true ∨ event = .resumed false) log

variable {γ σ α : Type*} {rt : WasiRuntime γ α} {ep : Endpoint σ α} {len engineIdx stored : ℕ}

/-! ### What an event adds -/

@[simp] theorem sinceExpired_resumed (log : List ImageEvent) (expired : Bool) :
    sinceExpired (log ++ [.resumed expired]) = if expired then some [] else none := by
  cases expired <;> simp [sinceExpired, since_snoc]

@[simp] theorem sinceExpired_polled (log : List ImageEvent) (task : ℕ) :
    sinceExpired (log ++ [.polled task]) = (sinceExpired log).map (· ++ [.polled task]) := by
  simp [sinceExpired, since_snoc]

@[simp] theorem sinceExpired_observed (log : List ImageEvent) :
    sinceExpired (log ++ [.observed]) = (sinceExpired log).map (· ++ [.observed]) := by
  simp [sinceExpired, since_snoc]

@[simp] theorem sinceExpired_waited (log : List ImageEvent) :
    sinceExpired (log ++ [.waited]) = (sinceExpired log).map (· ++ [.waited]) := by
  simp [sinceExpired, since_snoc]

@[simp] theorem sinceWaited_resumed (log : List ImageEvent) (expired : Bool) :
    sinceWaited (log ++ [.resumed expired]) = none := by
  cases expired <;> simp [sinceWaited, since_snoc]

@[simp] theorem sinceWaited_polled (log : List ImageEvent) (task : ℕ) :
    sinceWaited (log ++ [.polled task]) = (sinceWaited log).map (· ++ [.polled task]) := by
  simp [sinceWaited, since_snoc]

@[simp] theorem sinceWaited_observed (log : List ImageEvent) :
    sinceWaited (log ++ [.observed]) = (sinceWaited log).map (· ++ [.observed]) := by
  simp [sinceWaited, since_snoc]

@[simp] theorem sinceWaited_waited (log : List ImageEvent) :
    sinceWaited (log ++ [.waited]) = some [] := by
  simp [sinceWaited, since_snoc]

/-! ### An expired budget -/

/-- The host's engine is between two activations of its guest. -/
structure HostSpins (len engineIdx : ℕ) (s : HostImage γ σ α) : Prop where
  lt : s.taskIdx < len
  idx : s.taskIdx = engineIdx
  halted : s.halted = none
  task : (s.task = .call ∧ s.engine.guestSlot.isSome) ∨ ∃ slot, s.task = .drive (.resume slot)

/-- The embedded loop is between two activations, before or after its `C::observe`. -/
inductive EmbeddedSpins : EmbeddedImage γ σ α → List ImageEvent → Prop
  | expired {e w} (hslot : e.guestSlot.isSome) : EmbeddedSpins ⟨e, .expired, false, w⟩ []
  | call {e w} (hslot : e.guestSlot.isSome) : EmbeddedSpins ⟨e, .call, false, w⟩ [.observed]
  | resume {e w slot} : EmbeddedSpins ⟨e, .drive (.resume slot), false, w⟩ [.observed]

theorem driveTurn_expires (rt : WasiRuntime γ α) (ep : Endpoint σ α)
    (e : CanonicalWasiEngine γ σ α) {slot : WasiGuestSlot γ}
    (h : expires (rt.resume slot.guest).2) :
    ∃ e' slot', driveTurn rt ep e (.resume slot) = (e', .inr (slot', .budgetExpired)) := by
  obtain ⟨init, resume, completeImport, completeMemoryGrow⟩ := rt
  revert h
  unfold driveTurn
  dsimp only
  rcases resume slot.guest with ⟨guest, none | step⟩
  · intro h; cases h
  · cases step <;> intro h
    case budgetExpired => exact ⟨_, _, rfl⟩
    all_goals cases h

/-- An activation that runs out of budget leaves its guest for the next. -/
theorem afterDrive_expires (rt : WasiRuntime γ α) (ep : Endpoint σ α)
    (e : CanonicalWasiEngine γ σ α) {slot : WasiGuestSlot γ}
    (h : expires (rt.resume slot.guest).2) :
    (afterDrive (driveWasiGuest rt ep e (.resume slot))).2 = .call ∧
      (afterDrive (driveWasiGuest rt ep e (.resume slot))).1.guestSlot.isSome := by
  obtain ⟨e', slot', hturn⟩ := driveTurn_expires rt ep e h
  rw [driveWasiGuest_eq, hturn]
  exact ⟨rfl, rfl⟩

theorem afterDriveBlocking_expires (rt : WasiRuntime γ α) (ep : Endpoint σ α)
    (e : CanonicalWasiEngine γ σ α) {slot : WasiGuestSlot γ}
    (h : expires (rt.resume slot.guest).2) :
    (afterDriveBlocking (driveWasiGuestBlocking rt ep e (.resume slot))).2 = .expired ∧
      (afterDriveBlocking (driveWasiGuestBlocking rt ep e (.resume slot))).1.guestSlot.isSome := by
  obtain ⟨e', slot', hturn⟩ := driveTurn_expires rt ep e h
  rw [driveWasiGuestBlocking_eq, hturn]
  exact ⟨rfl, rfl⟩

/-- And the next drive takes it up. -/
theorem beginDrive_kept {S : Type*} (rt : WasiRuntime γ α) {e : CanonicalWasiEngine γ σ α}
    (h : e.guestSlot.isSome) :
    ∃ slot, beginDrive (S := S) rt e = .stands { e with guestSlot := none } (.resume slot) := by
  obtain ⟨slot, hslot⟩ := Option.isSome_iff_exists.mp h
  refine ⟨slot, ?_⟩
  rw [beginDrive, CanonicalWasiEngine.takeWasiGuestSlot, hslot]

/-- Between two activations the host's engine does nothing but begin the next. -/
theorem HostSpins.step {s t : HostImage γ σ α} (h : HostSpins len engineIdx s)
    (hstep : HostStep rt ep len engineIdx s t) :
    (t.watch.log = s.watch.log ∧ HostSpins len engineIdx t) ∨
      ∃ slot, s.task = .drive (.resume slot) ∧
        t.watch.log = s.watch.log ++ [.resumed (expires (rt.resume slot.guest).2)] ∧
        (expires (rt.resume slot.guest).2 → HostSpins len engineIdx t) := by
  have hnot : ∀ drive, s.task = .drive drive → drive.awaits → False := by
    intro drive hdrive hawaits
    rcases h.task with ⟨hcall, -⟩ | ⟨slot, hresume⟩
    · cases hcall.symm.trans hdrive
    · cases hresume.symm.trans hdrive; cases hawaits
  have hgoes : s.task.goes := by
    rcases h.task with ⟨hcall, -⟩ | ⟨slot, hresume⟩
    · rw [hcall]; rfl
    · rw [hresume]; rfl
  cases hstep with
  | went hlt hidx =>
      rcases h.task with ⟨hcall, hslot⟩ | ⟨slot, hresume⟩
      · obtain ⟨slot, hbegin⟩ := beginDrive_kept (S := WasiGuestStatus) rt hslot
        refine .inl ⟨?_, hlt, hidx, h.halted, .inr ⟨slot, ?_⟩⟩
        · rw [hcall]
          exact List.append_nil _
        · rw [hcall, driveCanonicalWasiEngine, hbegin]
          rfl
      · refine .inr ⟨slot, hresume, by rw [hresume]; rfl, fun hexpires => ?_⟩
        have hafter := afterDrive_expires rt ep s.engine hexpires
        refine ⟨hlt, hidx, h.halted, .inl ?_⟩
        rw [hresume]
        exact hafter
  | polled _ hne => exact absurd h.idx hne
  | waited _ _ htask hawaits => exact (hnot _ htask hawaits).elim
  | rested _ _ htask => rw [htask] at hgoes; cases hgoes
  | otherFailed _ hne => exact absurd h.idx hne
  | engineFailed _ _ htask => rw [htask] at hgoes; cases hgoes
  | enginePanicked _ _ htask => rw [htask] at hgoes; cases hgoes
  | passed hge => exact absurd h.lt hge
  | quiesced hge => exact absurd h.lt hge

/-- Since an activation that ran out of budget, nothing has happened. -/
def HostExpired (len engineIdx : ℕ) (s : HostImage γ σ α) : Prop :=
  ∀ events, sinceExpired s.watch.log = some events → events = [] ∧ HostSpins len engineIdx s

theorem hostExpired_step (s : HostImage γ σ α) (a : ImageAction) (t : HostImage γ σ α)
    (h : HostExpired len engineIdx s)
    (hstep : (hostMachine rt ep len engineIdx).next s a = some t) :
    HostExpired len engineIdx t := by
  obtain ⟨hover, hstep⟩ := hostNext_cases hstep
  intro events hevents
  -- an activation opens the wait for the next, when its budget expires
  have hresumed : ∀ expired : Bool, t.watch.log = s.watch.log ++ [.resumed expired] →
      events = [] ∧ expired := by
    intro expired hlog
    rw [hlog, sinceExpired_resumed] at hevents
    cases expired
    · cases hevents
    · cases hevents; exact ⟨rfl, rfl⟩
  cases hsince : sinceExpired s.watch.log with
  | some before =>
      obtain ⟨hbefore, hspins⟩ := h before hsince
      rcases hspins.step hstep with ⟨hlog, hspins'⟩ | ⟨slot, -, hlog, hspins'⟩
      · rw [hlog, hsince] at hevents
        cases hevents
        exact ⟨hbefore, hspins'⟩
      · obtain ⟨hnil, hexpires⟩ := hresumed _ hlog
        exact ⟨hnil, hspins' hexpires⟩
  | none =>
      -- only an activation makes a difference
      cases hstep with
      | went hlt hidx hgoes =>
          obtain ⟨engine, task, taskIdx, woke, halted, watch⟩ := s
          cases task with
          | call =>
              rw [Watch.log_note, EngineTask.resumes, List.append_nil, hsince] at hevents
              cases hevents
          | drive stands =>
              cases stands with
              | resume slot =>
                  obtain ⟨hnil, hexpires⟩ := hresumed _ rfl
                  have hafter := afterDrive_expires rt ep engine hexpires
                  exact ⟨hnil, hlt, hidx, hover, .inl hafter⟩
              | _ =>
                  rw [Watch.log_note, EngineTask.resumes, DriveAt.resumes, List.append_nil,
                    hsince] at hevents
                  cases hevents
          | pending => cases hgoes
          | failed => cases hgoes
          | panicked => cases hgoes
      | polled => simp [HostImage.pended, hsince] at hevents
      | waited => simp [HostImage.pended, hsince] at hevents
      | rested => simp [HostImage.pended, hsince] at hevents
      | otherFailed =>
          rw [HostImage.fail, Watch.log_note, Watch.log_note, sinceExpired_observed,
            sinceExpired_polled, hsince] at hevents
          cases hevents
      | engineFailed => simp [HostImage.fail, hsince] at hevents
      | enginePanicked => rw [hsince] at hevents; cases hevents
      | passed => simp [hsince] at hevents
      | quiesced => simp [hsince] at hevents

/-- Since an activation that ran out of budget, the embedded loop has observed, if anything. -/
def EmbeddedExpired (s : EmbeddedImage γ σ α) : Prop :=
  ∀ events, sinceExpired s.watch.log = some events → EmbeddedSpins s events

/-- Between two activations the embedded loop observes and begins the next. -/
theorem EmbeddedSpins.step {s t : EmbeddedImage γ σ α} {a : ImageAction}
    {events : List ImageEvent} (h : EmbeddedSpins s events)
    (hstep : (embeddedMachine rt ep stored).next s a = some t) :
    (∃ more, t.watch.log = s.watch.log ++ more ∧ (more = [] ∨ more = [.observed]) ∧
        EmbeddedSpins t (events ++ more)) ∨
      ∃ slot, s.stands = .drive (.resume slot) ∧
        t.watch.log = s.watch.log ++ [.resumed (expires (rt.resume slot.guest).2)] ∧
        (expires (rt.resume slot.guest).2 → EmbeddedSpins t []) := by
  cases h with
  | @expired e w hslot =>
      cases a with
      | observe wakes => cases hstep; exact .inl ⟨[.observed], rfl, .inr rfl, .call hslot⟩
      | go => cases hstep
      | pending _ => cases hstep
      | failed => cases hstep
  | @call e w hslot =>
      obtain ⟨-, hstep⟩ := Option.ite_none_right_eq_some.mp hstep
      cases hstep
      obtain ⟨slot, hbegin⟩ := beginDrive_kept (S := EmbeddedWasiGuestStatus) rt hslot
      refine .inl ⟨[], rfl, .inl rfl, ?_⟩
      rw [EmbeddedImage.went, hbegin]
      exact .resume
  | @resume e w slot =>
      cases a with
      | go =>
          cases hstep
          refine .inr ⟨slot, rfl, rfl, fun hexpires => ?_⟩
          obtain ⟨hat, hslot⟩ := afterDriveBlocking_expires rt ep e hexpires
          rw [EmbeddedImage.went, hat]
          exact .expired hslot
      | pending _ => cases hstep
      | failed => cases hstep
      | observe _ => cases hstep

theorem embeddedExpired_step (s : EmbeddedImage γ σ α) (a : ImageAction) (t : EmbeddedImage γ σ α)
    (h : EmbeddedExpired s) (hstep : (embeddedMachine rt ep stored).next s a = some t) :
    EmbeddedExpired t := by
  intro events hevents
  cases hsince : sinceExpired s.watch.log with
  | some before =>
      rcases (h before hsince).step hstep with ⟨more, hlog, hmore, hspins⟩ | ⟨slot, -, hlog, hspins⟩
      · rcases hmore with rfl | rfl
        · rw [hlog, List.append_nil, hsince] at hevents
          cases hevents
          rwa [List.append_nil] at hspins
        · rw [hlog, sinceExpired_observed, hsince] at hevents
          cases hevents
          exact hspins
      · rw [hlog, sinceExpired_resumed] at hevents
        obtain ⟨hexpires, hnil⟩ := Option.ite_none_right_eq_some.mp hevents
        cases hnil
        exact hspins hexpires
  | none =>
      obtain ⟨hover, hstep⟩ := embeddedNext_cases hstep
      obtain ⟨engine, stands, halted, watch⟩ := s
      obtain rfl : halted = false := hover
      cases hstep with
      | @drove drive hstands =>
          obtain rfl : stands = .drive drive := hstands
          cases drive with
          | resume slot =>
              rw [EmbeddedImage.went, Watch.log_note, DriveAt.resumes, sinceExpired_resumed]
                at hevents
              obtain ⟨hexpires, hnil⟩ := Option.ite_none_right_eq_some.mp hevents
              cases hnil
              obtain ⟨hat, hslot⟩ := afterDriveBlocking_expires rt ep engine hexpires
              rw [EmbeddedImage.went, hat]
              exact .expired hslot
          | _ => simp [EmbeddedImage.went, DriveAt.resumes, hsince] at hevents
      | called => simp [EmbeddedImage.went, hsince] at hevents
      | firstPolled => simp [hsince] at hevents
      | firstDone => simp [hsince] at hevents
      | waited => simp [hsince] at hevents
      | polled => simp [hsince] at hevents
      | polledAll => simp [hsince] at hevents
      | taskFailed => simp [hsince] at hevents
      | expired => simp [hsince] at hevents
      | observed => simp [hsince] at hevents
      | failed => simp [hsince] at hevents

/-! ### A guest that computes forever -/

/-- The tasks polled, in order. -/
def polls (log : List ImageEvent) : List ℕ :=
  log.filterMap fun
    | .polled task => some task
    | .waited | .resumed _ | .observed => none

@[simp] theorem polls_append (log events : List ImageEvent) :
    polls (log ++ events) = polls log ++ polls events := List.filterMap_append

section Computes
variable (hcomputes : ∀ guest, expires (rt.resume guest).2)
include hcomputes

/-- On the host no task is polled once the guest's first budget has expired. -/
theorem host_computes {s t : HostImage γ σ α} {as : List ImageAction}
    (hspins : HostSpins len engineIdx s)
    (h : (hostMachine rt ep len engineIdx).exec s as = some t) :
    polls t.watch.log = polls s.watch.log := by
  have hkeeps := Machine.exec_keeps (M := hostMachine rt ep len engineIdx)
    (I := fun u => HostSpins len engineIdx u ∧ polls u.watch.log = polls s.watch.log)
    ?_ ⟨hspins, rfl⟩ h
  · exact hkeeps.2
  · rintro u a v ⟨hspins, hpolls⟩ hstep
    obtain ⟨-, hstep⟩ := hostNext_cases hstep
    rcases hspins.step hstep with ⟨hlog, hspins'⟩ | ⟨slot, -, hlog, hspins'⟩
    · exact ⟨hspins', by rw [hlog, hpolls]⟩
    · refine ⟨hspins' (hcomputes _), ?_⟩
      rw [hlog, polls_append, hpolls]
      exact List.append_nil _

theorem embedded_computes {s t : EmbeddedImage γ σ α} {as : List ImageAction}
    {events : List ImageEvent} (hspins : EmbeddedSpins s events)
    (h : (embeddedMachine rt ep stored).exec s as = some t) :
    polls t.watch.log = polls s.watch.log := by
  have hkeeps := Machine.exec_keeps (M := embeddedMachine rt ep stored)
    (I := fun u => (∃ events, EmbeddedSpins u events) ∧ polls u.watch.log = polls s.watch.log)
    ?_ ⟨⟨events, hspins⟩, rfl⟩ h
  · exact hkeeps.2
  · rintro u a v ⟨⟨events, hspins⟩, hpolls⟩ hstep
    rcases hspins.step hstep with ⟨more, hlog, hmore, hspins'⟩ | ⟨slot, -, hlog, hspins'⟩
    · refine ⟨⟨_, hspins'⟩, ?_⟩
      rw [hlog, polls_append, hpolls]
      rcases hmore with rfl | rfl <;> exact List.append_nil _
    · refine ⟨⟨_, hspins' (hcomputes _)⟩, ?_⟩
      rw [hlog, polls_append, hpolls]
      exact List.append_nil _

end Computes

/-! ### A wait for the endpoint -/

/-- A slot that has been polled since the engine's was: the rest of that pass, and then the pass
begun since. -/
def PolledSince (engineIdx taskIdx task : ℕ) : Prop :=
  if taskIdx ≤ engineIdx then task < taskIdx ∨ engineIdx < task
  else engineIdx < task ∧ task < taskIdx

theorem polledSince_succ {taskIdx task : ℕ}
    (h : PolledSince engineIdx (taskIdx + 1) task) :
    PolledSince engineIdx taskIdx task ∨ task = taskIdx := by
  unfold PolledSince at *
  split at h <;> split <;> omega

theorem not_polledSince_engine (engineIdx task : ℕ) :
    ¬ PolledSince engineIdx (engineIdx + 1) task := by
  unfold PolledSince
  split <;> omega

/-- Since the engine last waited, the slots up to where the pass is have been polled. -/
def HostWaited (len engineIdx : ℕ) (s : HostImage γ σ α) : Prop :=
  ∀ events, sinceWaited s.watch.log = some events → s.halted = none →
    engineIdx < len ∧ ∀ task < len, PolledSince engineIdx s.taskIdx task → .polled task ∈ events

theorem hostWaited_step (s : HostImage γ σ α) (a : ImageAction) (t : HostImage γ σ α)
    (h : HostWaited len engineIdx s)
    (hstep : (hostMachine rt ep len engineIdx).next s a = some t) :
    HostWaited len engineIdx t := by
  obtain ⟨hover, hstep⟩ := hostNext_cases hstep
  intro events hevents hover'
  cases hstep with
  | went hlt hidx hgoes =>
      have hsame : sinceWaited s.watch.log = some events := by
        rw [Watch.log_note] at hevents
        revert hevents
        cases s.task with
        | drive stands => cases stands <;> simp [EngineTask.resumes, DriveAt.resumes]
        | _ => simp [EngineTask.resumes]
      exact h events hsame hover
  | @polled wakes hlt hidx =>
      rw [HostImage.pended, Watch.log_note, sinceWaited_polled, Watch.log_poll] at hevents
      obtain ⟨before, hbefore, rfl⟩ := Option.map_eq_some_iff.mp hevents
      obtain ⟨hengine, hpolled⟩ := h before hbefore hover
      refine ⟨hengine, fun task htask hsince => ?_⟩
      rcases polledSince_succ hsince with hsince | rfl
      · exact List.mem_append_left _ (hpolled task htask hsince)
      · exact List.mem_append_right _ (List.mem_singleton_self _)
  | waited hlt hidx =>
      refine ⟨hidx ▸ hlt, fun task _ hsince => ?_⟩
      exact absurd (hidx ▸ hsince) (not_polledSince_engine engineIdx task)
  | rested hlt hidx =>
      refine ⟨hidx ▸ hlt, fun task _ hsince => ?_⟩
      exact absurd (hidx ▸ hsince) (not_polledSince_engine engineIdx task)
  | passed hge =>
      rw [Watch.log_note, sinceWaited_observed, Watch.log_wake] at hevents
      obtain ⟨before, hbefore, rfl⟩ := Option.map_eq_some_iff.mp hevents
      obtain ⟨hengine, hpolled⟩ := h before hbefore hover
      refine ⟨hengine, fun task htask hsince => List.mem_append_left _ (hpolled task htask ?_)⟩
      -- the whole of the pass is over
      have hsince : PolledSince engineIdx 0 task := hsince
      unfold PolledSince at *
      rw [if_pos (Nat.zero_le _)] at hsince
      rw [if_neg (by omega)]
      omega
  | otherFailed => cases hover'
  | engineFailed => cases hover'
  | enginePanicked => cases hover'
  | quiesced => cases hover'

/-- Since the engine last waited, the stored tasks up to where `poll_once` is have been polled. -/
def WaitedAt (stored : ℕ) (events : List ImageEvent) : EmbeddedAt γ α → Prop
  | .first _ => False
  | .call | .expired | .drive _ => ∀ task < stored, .polled task ∈ events
  | .tasks _ taskIdx => ∀ task < taskIdx, .polled task ∈ events
  | .observing | .failed | .panicked => True

def EmbeddedWaited (stored : ℕ) (s : EmbeddedImage γ σ α) : Prop :=
  ∀ events, sinceWaited s.watch.log = some events → WaitedAt stored events s.stands

theorem waitedAt_afterDriveBlocking {events : List ImageEvent}
    (h : ∀ task < stored, .polled task ∈ events)
    (driven : Driven γ σ α EmbeddedWasiGuestStatus) :
    WaitedAt stored events (afterDriveBlocking driven).2 := by
  cases driven with
  | stands e drive => exact h
  | panicked e => trivial
  | returned e result =>
      cases result with
      | error _ => trivial
      | ok status =>
          cases status with
          | budgetExpired => exact h
          | exit => trivial
          | terminalEndpoint => trivial

theorem embeddedWaited_step (s : EmbeddedImage γ σ α) (a : ImageAction) (t : EmbeddedImage γ σ α)
    (h : EmbeddedWaited stored s)
    (hstep : (embeddedMachine rt ep stored).next s a = some t) : EmbeddedWaited stored t := by
  obtain ⟨hover, hstep⟩ := embeddedNext_cases hstep
  intro events hevents
  cases hstep with
  | firstPolled hstands =>
      rw [Watch.log_note, sinceWaited_polled, Watch.log_poll] at hevents
      obtain ⟨before, hbefore, -⟩ := Option.map_eq_some_iff.mp hevents
      have hfalse := h before hbefore
      rw [hstands] at hfalse
      exact hfalse.elim
  | firstDone hstands =>
      have hfalse := h events hevents
      rw [hstands] at hfalse
      exact hfalse.elim
  | called hstands =>
      rw [EmbeddedImage.went, Watch.log_note, List.append_nil] at hevents
      have hpolled := h events hevents
      rw [hstands] at hpolled
      exact waitedAt_afterDriveBlocking hpolled _
  | @drove drive hstands =>
      rw [EmbeddedImage.went, Watch.log_note] at hevents
      have hsame : sinceWaited s.watch.log = some events := by
        revert hevents
        cases drive <;> simp [DriveAt.resumes]
      have hpolled := h events hsame
      rw [hstands] at hpolled
      exact waitedAt_afterDriveBlocking hpolled _
  | waited hstands hawaits => exact fun task hlt => absurd hlt (Nat.not_lt_zero task)
  | @polled drive taskIdx wakes hstands hlt =>
      rw [Watch.log_note, sinceWaited_polled, Watch.log_poll] at hevents
      obtain ⟨before, hbefore, rfl⟩ := Option.map_eq_some_iff.mp hevents
      have hpolled := h before hbefore
      rw [hstands] at hpolled
      intro task htask
      rcases Nat.lt_succ_iff_lt_or_eq.mp htask with hlt | rfl
      · exact List.mem_append_left _ (hpolled task hlt)
      · exact List.mem_append_right _ (List.mem_singleton_self _)
  | @polledAll drive taskIdx hstands hge =>
      have hpolled := h events hevents
      rw [hstands] at hpolled
      exact fun task hlt => hpolled task (Nat.lt_of_lt_of_le hlt (Nat.not_lt.mp hge))
  | @taskFailed taskIdx hlt hstands =>
      rw [Watch.log_note, sinceWaited_polled] at hevents
      obtain ⟨before, hbefore, rfl⟩ := Option.map_eq_some_iff.mp hevents
      have hpolled := h before hbefore
      rcases hstands with hstands | ⟨drive, hstands⟩
      · rw [hstands] at hpolled
        exact hpolled.elim
      · rw [hstands] at hpolled
        dsimp only
        rw [hstands]
        exact fun task hlt => List.mem_append_left _ (hpolled task hlt)
  | expired hstands =>
      rw [Watch.log_note, sinceWaited_observed, Watch.log_wake] at hevents
      obtain ⟨before, hbefore, rfl⟩ := Option.map_eq_some_iff.mp hevents
      have hpolled := h before hbefore
      rw [hstands] at hpolled
      exact fun task hlt => List.mem_append_left _ (hpolled task hlt)
  | observed hstands => dsimp only; rw [hstands]; trivial
  | failed hstands => dsimp only; rw [hstands]; trivial

/-! ### The two images -/

/-- **An expired budget.**  Between an activation that runs out of budget and the next one no task
is polled: the host's engine goes straight on, and the embedded loop only observes.  A guest that
computes forever so keeps every other task from being polled.  It is when the engine waits that the
others run: before the engine goes on from a wait, each of them has been polled. -/
theorem budget_expiry (rt : WasiRuntime γ α) (ep : Endpoint σ α) (endpoint : σ)
    (len engineIdx stored : ℕ) :
    (∀ as s, (hostMachine rt ep len engineIdx).exec (.init endpoint) as = some s →
      (∀ events, sinceExpired s.watch.log = some events → events = [] ∧
        ((∀ guest, expires (rt.resume guest).2) →
          ∀ bs t, (hostMachine rt ep len engineIdx).exec s bs = some t →
            polls t.watch.log = polls s.watch.log)) ∧
      (∀ drive events, s.task = .drive drive → s.taskIdx = engineIdx → s.halted = none →
        sinceWaited s.watch.log = some events →
          ∀ task < len, task ≠ engineIdx → .polled task ∈ events)) ∧
    (∀ as s, (embeddedMachine rt ep stored).exec (.init endpoint) as = some s →
      (∀ events, sinceExpired s.watch.log = some events →
        (events = [] ∨ events = [.observed]) ∧
        ((∀ guest, expires (rt.resume guest).2) →
          ∀ bs t, (embeddedMachine rt ep stored).exec s bs = some t →
            polls t.watch.log = polls s.watch.log)) ∧
      (∀ drive events, s.stands = .drive drive → sinceWaited s.watch.log = some events →
        ∀ task < stored, .polled task ∈ events)) := by
  constructor
  · intro as s hrun
    have hexpired : HostExpired len engineIdx s :=
      Machine.exec_keeps hostExpired_step (fun _ h => by cases h) hrun
    have hwaited : HostWaited len engineIdx s :=
      Machine.exec_keeps hostWaited_step (fun _ h => by cases h) hrun
    constructor
    · intro events hevents
      obtain ⟨hnil, hspins⟩ := hexpired events hevents
      exact ⟨hnil, fun hcomputes bs t ht => host_computes hcomputes hspins ht⟩
    · intro drive events hdrive hidx hover hevents task hlt hne
      refine (hwaited events hevents hover).2 task hlt ?_
      rw [hidx, PolledSince, if_pos (Nat.le_refl _)]
      exact Nat.lt_or_gt_of_ne hne
  · intro as s hrun
    have hexpired : EmbeddedExpired s :=
      Machine.exec_keeps embeddedExpired_step (fun _ h => by cases h) hrun
    have hwaited : EmbeddedWaited stored s :=
      Machine.exec_keeps embeddedWaited_step (fun _ h => by cases h) hrun
    constructor
    · intro events hevents
      have hspins := hexpired events hevents
      refine ⟨?_, fun hcomputes bs t ht => embedded_computes hcomputes hspins ht⟩
      cases hspins with
      | expired => exact .inl rfl
      | call => exact .inr rfl
      | resume => exact .inr rfl
    · intro drive events hstands hevents
      have hpolled := hwaited events hevents
      rw [hstands] at hpolled
      exact hpolled

/-- A guest that computes forever. -/
def computingGuest : WasiRuntime ℕ ℕ where
  init _ := some 0
  resume guest := (guest + 1, some .budgetExpired)
  completeImport _ guest _ := (guest, true)
  completeMemoryGrow _ guest _ := (guest, true)

/-- The engine is in slot 0: the task in slot 1 is never polled. -/
theorem budget_expiry_computing :
    ∃ s, (hostMachine computingGuest zeroEndpoint 2 0).exec (.init ()) [.go, .go] = some s ∧
      ∀ as t, (hostMachine computingGuest zeroEndpoint 2 0).exec s as = some t →
        polls t.watch.log = [] := by
  have hexpiry := (budget_expiry computingGuest zeroEndpoint () 2 0 1).1 [.go, .go] _ rfl
  exact ⟨_, rfl, (hexpiry.1 [] rfl).2 fun _ => rfl⟩

/-- **No yield.**  Two activations that both run out of budget, with another task attached that is
not polled between them, on the host and on the embedded target. -/
theorem budget_does_not_yield :
    (∃ s, (hostMachine computingGuest zeroEndpoint 2 0).exec (.init ()) [.go, .go, .go, .go] =
        some s ∧ s.watch.woken 1 ∧ s.watch.log = [.resumed true, .resumed true]) ∧
    ∃ s, (embeddedMachine computingGuest zeroEndpoint 1).exec (.init ())
        [.pending [0], .go, .go, .go, .observe [], .go, .go] = some s ∧ s.watch.woken 0 ∧
      s.watch.log = [.polled 0, .resumed true, .observed, .resumed true] :=
  ⟨⟨_, rfl, rfl, rfl⟩, _, rfl, rfl, rfl⟩

end HibanaPico.Appkit
