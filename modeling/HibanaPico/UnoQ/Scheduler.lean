import HibanaPico.Appkit.Host
import HibanaPico.UnoQ.ProofCarrier

/-!
# Uno Q — Scheduler

The host's `ScheduledTasks` over the in-process carrier.  A role's task makes one carrier call after
another; a `poll_recv` that is pending blocks it there, and its next poll makes that call again.
The waker of every task sets the one flag `woke`, and the carrier calls it before each `Ready(Ok)`
of its polls.

* `CallStep`: what a call on the carrier does, and what it answers; `callStep_of_next`.
* `ScheduledTasks`, `pollNext`: `poll_until_quiescent`, one call of a task or one turn of the loop
  at a time, and what happened in each pass.
* `ScheduledStep`: what a step does; `scheduledStep_of_next`.
-/

namespace HibanaPico.UnoQ
open HibanaPico.Support
open HibanaPico.Transport
open HibanaPico.Appkit (HostOver)

/-! ### Calls on the carrier -/

/-- A call on the carrier and its answer, as its caller and an observer see it. -/
inductive CallOutcome where
  | opened
  | sent (role lane : U8) (frame : LaneFrame) (answer : Poll (Except TransportError Unit))
  | cancelled
  | received (role lane : U8) (answer : Poll (Except TransportError ReceivedFrame))
  | requeued (answer : Except TransportError Unit)

namespace CallOutcome

def isPending : CallOutcome → Bool
  | .sent _ _ _ .pending | .received _ _ .pending => true
  | .sent _ _ _ (.ready _) | .received _ _ (.ready _) => false
  | .opened | .cancelled | .requeued _ => false

/-- `wake_by_ref` was called: right before `Ready(Ok)`, and nowhere else. -/
def wakes : CallOutcome → Bool
  | .sent _ _ _ (.ready (.ok _)) | .received _ _ (.ready (.ok _)) => true
  | .sent _ _ _ (.ready (.error _)) | .received _ _ (.ready (.error _)) => false
  | .sent _ _ _ .pending | .received _ _ .pending => false
  | .opened | .cancelled | .requeued _ => false

/-- The frame an accepted `poll_send` put on the lane. -/
def sentOn (role lane : U8) : CallOutcome → Option LaneFrame
  | .sent r l frame (.ready (.ok _)) => if r = role ∧ l = lane then some frame else none
  | .sent _ _ _ (.ready (.error _)) | .sent _ _ _ .pending => none
  | .opened | .cancelled | .requeued _ | .received .. => none

/-- The answer of a `poll_recv` of the lane. -/
def receivedOn (role lane : U8) : CallOutcome → Option (Poll (Except TransportError ReceivedFrame))
  | .received r l answer => if r = role ∧ l = lane then some answer else none
  | .opened | .cancelled | .requeued _ | .sent .. => none

/-- The frame a `poll_recv` of the lane took. -/
def deliveredOn (role lane : U8) : CallOutcome → Option LaneFrame
  | .received r l (.ready (.ok frame)) =>
      if r = role ∧ l = lane then some (.ofReceived frame) else none
  | .received _ _ (.ready (.error _)) | .received _ _ .pending => none
  | .opened | .cancelled | .requeued _ | .sent .. => none

end CallOutcome

/-- What a call answers. -/
def proofSeen (s : ProofState) : ProofAction → Option CallOutcome
  | .open _ _ => some .opened
  | .pollSend port outgoing => (s.txs port).map fun tx =>
      .sent outgoing.targetRole outgoing.lane
        ⟨tx.localRole, outgoing.frameLabel, outgoing.payload⟩
        (proofPollSend s.queues tx outgoing).2
  | .cancelSend _ => some .cancelled
  | .pollRecv port => (s.rxs port).map fun rx =>
      .received rx.localRole rx.lane (proofPollRecv s.queues rx).2.2
  | .requeue port => (s.rxs port).map fun rx => .requeued (proofRequeue s.queues rx).2.2

/-- The port can receive: its `poll_recv` reaches the queue. -/
def ProofRx.Reaches (rx : ProofRx) : Prop :=
  rx.sessionId ≠ 0 ∧ rx.localRole.toNat < proofCarrierRoles

/-- What a port is opened with stays. -/
def SamePort (rx rx' : ProofRx) : Prop :=
  rx'.localRole = rx.localRole ∧ rx'.sessionId = rx.sessionId ∧ rx'.lane = rx.lane

theorem SamePort.reaches {rx rx' : ProofRx} (h : SamePort rx rx') (hrx : rx.Reaches) :
    rx'.Reaches :=
  ⟨h.2.1 ▸ hrx.1, h.1 ▸ hrx.2⟩

/-- What a call does to the carrier, and what it answers. -/
inductive CallStep (s t : ProofState) : ProofAction → CallOutcome → Prop where
  | opened {port as} (hrx : s.rxs port = none) (hqueues : t.queues = s.queues)
      (hrxs : t.rxs = Function.update s.rxs port (some (proofOpen as).2)) :
      CallStep s t (.open port as) .opened
  | refused {port o role lane frame e} (hqueues : t.queues = s.queues) (hrxs : t.rxs = s.rxs) :
      CallStep s t (.pollSend port o) (.sent role lane frame (.ready (.error e)))
  | sent {port o role lane frame}
      (hw : Rewrites s.queues t.queues role lane (waiting s.queues role lane ++ [frame]))
      (hrxs : t.rxs = s.rxs) :
      CallStep s t (.pollSend port o) (.sent role lane frame (.ready (.ok ())))
  | cancelled {port} (hqueues : t.queues = s.queues) (hrxs : t.rxs = s.rxs) :
      CallStep s t (.cancelSend port) .cancelled
  | noPort {port rx} (hrx : s.rxs port = some rx) (hnot : ¬ rx.Reaches)
      (hqueues : t.queues = s.queues) (hrxs : t.rxs = s.rxs) :
      CallStep s t (.pollRecv port) (.received rx.localRole rx.lane (.ready (.error .failed)))
  /-- `poll_recv` finds no frame of the lane, and calls no waker. -/
  | pending {port rx} (hrx : s.rxs port = some rx) (hreaches : rx.Reaches)
      (hnil : waiting s.queues rx.localRole rx.lane = []) (hqueues : t.queues = s.queues)
      (hrxs : t.rxs = s.rxs) :
      CallStep s t (.pollRecv port) (.received rx.localRole rx.lane .pending)
  | delivered {port rx rx' frame f w} (hrx : s.rxs port = some rx)
      (hrxs : t.rxs = Function.update s.rxs port (some rx')) (hsame : SamePort rx rx')
      (hfront : waiting s.queues rx.localRole rx.lane = f :: w)
      (hframe : LaneFrame.ofReceived frame = f)
      (hw : Rewrites s.queues t.queues rx.localRole rx.lane w) :
      CallStep s t (.pollRecv port) (.received rx.localRole rx.lane (.ready (.ok frame)))
  /-- `requeue` puts a frame back, if it finds room, and calls no waker. -/
  | requeued {port rx rx' answer} (hrx : s.rxs port = some rx)
      (hrxs : t.rxs = Function.update s.rxs port (some rx')) (hsame : SamePort rx rx')
      (hlabel : rx.frameLabel ≠ none) (hlabel' : rx'.frameLabel = none)
      (hwf : ∀ r, (t.queues r).WellFormed)
      (hkeep : ∀ role lane, waiting s.queues role lane <:+ waiting t.queues role lane) :
      CallStep s t (.requeue port) (.requeued answer)
  | nothingToRequeue {port rx rx' answer} (hrx : s.rxs port = some rx)
      (hrxs : t.rxs = Function.update s.rxs port (some rx')) (hsame : SamePort rx rx')
      (hlabel : rx.frameLabel = none) (hlabel' : rx'.frameLabel = none)
      (hqueues : t.queues = s.queues) :
      CallStep s t (.requeue port) (.requeued answer)

/-- A `poll_recv` that is pending, or a frame it takes, came out of the queue. -/
theorem reaches_of_pending {queues : ProofQueues} {rx : ProofRx}
    (h : (proofPollRecv queues rx).2.2 = .pending) : rx.Reaches := by
  unfold proofPollRecv at h
  split at h
  · cases h
  rename_i hsession
  dsimp only at h
  split at h
  · cases h
  rename_i hrole
  exact ⟨hsession, Nat.not_le.mp hrole⟩

/-- `requeue` leaves what waits, with the frame before it or without. -/
theorem proofRequeue_keeps {queues : ProofQueues} (hq : ∀ r, (queues r).WellFormed) {rx : ProofRx}
    {label : U8} (hlabel : rx.frameLabel = some label) :
    (∀ r, ((proofRequeue queues rx).1 r).WellFormed) ∧
      (∀ role lane, waiting queues role lane <:+ waiting (proofRequeue queues rx).1 role lane) ∧
      (proofRequeue queues rx).2 =
        ({ rx with frameLabel := none, hintFrameLabel := none }, .ok ()) := by
  have hsame (h : (proofRequeue queues rx).1 = queues) :
      (∀ r, ((proofRequeue queues rx).1 r).WellFormed) ∧
        ∀ role lane, waiting queues role lane <:+ waiting (proofRequeue queues rx).1 role lane := by
    rw [h]
    exact ⟨hq, fun _ _ => List.suffix_rfl⟩
  refine (and_assoc.mp ⟨?_, by rw [proofRequeue, hlabel]⟩)
  by_cases hrole : rx.localRole.toNat < proofCarrierRoles
  · by_cases hfits : (queues rx.localRole.toNat).len < proofCarrierQueueDepth
    · obtain ⟨queues', hreq, hw⟩ := proofRequeue_fits hq hlabel hrole hfits
      rw [hreq]
      refine ⟨hw.wellFormed, fun role lane => ?_⟩
      by_cases h : role = rx.localRole ∧ lane = rx.lane
      · rw [h.1, h.2, hw.here]
        exact List.suffix_cons _ _
      · exact (hw.elsewhere _ _ h) ▸ List.suffix_rfl
    · refine hsame ?_
      have hfull : (queues rx.localRole.toNat).len = proofCarrierQueueDepth :=
        Nat.le_antisymm (hq _).len_le (Nat.not_lt.mp hfits)
      rw [proofRequeue, hlabel]
      dsimp only
      rw [if_pos hrole, ProofQueue.pushFront_refused (.inr hfull), Function.update_eq_self]
  · refine hsame ?_
    rw [proofRequeue, hlabel]
    exact if_neg hrole

/-- **What a call does.** -/
theorem callStep_of_next {s t : ProofState} (hq : ∀ r, (s.queues r).WellFormed) {call : ProofAction}
    {outcome : CallOutcome} (hnext : proofNext s call = some t)
    (hseen : proofSeen s call = some outcome) : CallStep s t call outcome := by
  cases call with
  | «open» port as =>
      cases hseen
      simp only [proofNext] at hnext
      split at hnext
      · cases hnext
      rename_i hnone
      simp only [not_or, Option.not_isSome_iff_eq_none] at hnone
      cases hnext
      exact .opened hnone.2 rfl rfl
  | pollSend port o =>
      obtain ⟨tx, htx, rfl⟩ := Option.map_eq_some_iff.mp hnext
      simp only [proofSeen, htx, Option.map_some, Option.some.injEq] at hseen
      subst hseen
      obtain ⟨e, hsend⟩ | ⟨queues', hsend, hw⟩ := proofPollSend_cases hq tx o
      · rw [hsend]
        dsimp only
        exact .refused rfl rfl
      · rw [hsend]
        dsimp only
        exact .sent hw rfl
  | cancelSend port =>
      obtain ⟨tx, -, rfl⟩ := Option.map_eq_some_iff.mp hnext
      cases hseen
      exact .cancelled rfl rfl
  | pollRecv port =>
      obtain ⟨rx, hrx, rfl⟩ := Option.map_eq_some_iff.mp hnext
      simp only [proofSeen, hrx, Option.map_some, Option.some.injEq] at hseen
      subst hseen
      have hsame : Function.update s.rxs port (some rx) = s.rxs := by
        rw [← hrx, Function.update_eq_self]
      obtain ⟨hno, hrecv⟩ | ⟨hrole, hnil, hrecv⟩ |
        ⟨queues', bytes, f, w, hrole, hfront, -, hrecv, hw⟩ := proofPollRecv_cases hq rx
      · rw [hrecv]
        dsimp only
        exact .noPort hrx (fun h => hno.elim h.1 (Nat.not_le.mpr h.2)) rfl hsame
      · have hreaches : rx.Reaches :=
          @reaches_of_pending s.queues rx (by rw [hrecv])
        rw [hrecv]
        dsimp only
        exact .pending hrx hreaches hnil rfl hsame
      · rw [hrecv]
        dsimp only [expectedAnswer]
        exact .delivered hrx rfl ⟨rfl, rfl, rfl⟩ hfront rfl hw
  | requeue port =>
      obtain ⟨rx, hrx, rfl⟩ := Option.map_eq_some_iff.mp hnext
      simp only [proofSeen, hrx, Option.map_some, Option.some.injEq] at hseen
      subst hseen
      cases hlabel : rx.frameLabel with
      | none =>
          have hreq : proofRequeue s.queues rx =
              (s.queues, { rx with hintFrameLabel := none }, .ok ()) := by
            rw [proofRequeue, hlabel]
          rw [hreq]
          cases s.handed port with
          | none =>
              dsimp only
              exact .nothingToRequeue hrx rfl ⟨rfl, rfl, rfl⟩ hlabel hlabel rfl
          | some _ =>
              dsimp only
              exact .nothingToRequeue hrx rfl ⟨rfl, rfl, rfl⟩ hlabel hlabel rfl
      | some label =>
          obtain ⟨hwf, hkeep, hreq⟩ := proofRequeue_keeps hq hlabel
          have hlabel' : rx.frameLabel ≠ none := by rw [hlabel]; exact Option.some_ne_none _
          cases hcall : proofRequeue s.queues rx with
          | mk queues' rest =>
              rw [hcall] at hwf hkeep hreq
              cases hreq
              cases s.handed port with
              | none =>
                  dsimp only
                  exact .requeued hrx rfl ⟨rfl, rfl, rfl⟩ hlabel' rfl hwf hkeep
              | some _ =>
                  dsimp only
                  exact .requeued hrx rfl ⟨rfl, rfl, rfl⟩ hlabel' rfl hwf hkeep

/-! ### What is left by a call -/

section Calls

variable {s t : ProofState} {call : ProofAction} {outcome : CallOutcome}

theorem CallStep.wellFormed (h : CallStep s t call outcome) (hq : ∀ r, (s.queues r).WellFormed) :
    ∀ r, (t.queues r).WellFormed := by
  cases h with
  | opened _ hqueues _ => exact hqueues ▸ hq
  | refused hqueues _ => exact hqueues ▸ hq
  | sent hw _ => exact hw.wellFormed
  | cancelled hqueues _ => exact hqueues ▸ hq
  | noPort _ _ hqueues _ => exact hqueues ▸ hq
  | pending _ _ _ hqueues _ => exact hqueues ▸ hq
  | delivered _ _ _ _ _ hw => exact hw.wellFormed
  | requeued _ _ _ _ _ hwf _ => exact hwf
  | nothingToRequeue _ _ _ _ _ hqueues => exact hqueues ▸ hq

theorem samePort_update {rxs : ℕ → Option ProofRx} {port : ℕ} {old new : ProofRx}
    (hold : rxs port = some old) (hsame : SamePort old new) {p : ℕ} {rx : ProofRx}
    (hrx : rxs p = some rx) :
    ∃ rx', Function.update rxs port (some new) p = some rx' ∧ SamePort rx rx' := by
  by_cases hp : p = port
  · subst hp
    obtain rfl := Option.some.inj (hold.symm.trans hrx)
    exact ⟨new, Function.update_self .., hsame⟩
  · exact ⟨rx, by rw [Function.update_of_ne hp, hrx], rfl, rfl, rfl⟩

/-- **A port stays what it was opened as.** -/
theorem CallStep.samePort (h : CallStep s t call outcome) {p : ℕ} {rx : ProofRx}
    (hrx : s.rxs p = some rx) : ∃ rx', t.rxs p = some rx' ∧ SamePort rx rx' := by
  have hkept (hrxs : t.rxs = s.rxs) : ∃ rx', t.rxs p = some rx' ∧ SamePort rx rx' :=
    ⟨rx, by rw [hrxs, hrx], rfl, rfl, rfl⟩
  cases h with
  | @opened port _ hnone _ hrxs =>
      have hp : p ≠ port := fun e => by rw [e, hnone] at hrx; cases hrx
      exact ⟨rx, by rw [hrxs, Function.update_of_ne hp, hrx], rfl, rfl, rfl⟩
  | refused _ hrxs => exact hkept hrxs
  | sent _ hrxs => exact hkept hrxs
  | cancelled _ hrxs => exact hkept hrxs
  | noPort _ _ _ hrxs => exact hkept hrxs
  | pending _ _ _ _ hrxs => exact hkept hrxs
  | delivered hport hrxs hsame _ _ _ => exact hrxs ▸ samePort_update hport hsame hrx
  | requeued hport hrxs hsame _ _ _ _ => exact hrxs ▸ samePort_update hport hsame hrx
  | nothingToRequeue hport hrxs hsame _ _ _ => exact hrxs ▸ samePort_update hport hsame hrx

/-- No port holds a frame it was handed. -/
def EmptyHanded (s : ProofState) : Prop := ∀ p rx, s.rxs p = some rx → rx.frameLabel = none

theorem emptyHanded_update {rxs : ℕ → Option ProofRx} (h : ∀ p rx, rxs p = some rx →
    rx.frameLabel = none) {port : ℕ} {new : ProofRx} (hnew : new.frameLabel = none) (p : ℕ)
    (rx : ProofRx) (hrx : Function.update rxs port (some new) p = some rx) :
    rx.frameLabel = none := by
  by_cases hp : p = port
  · subst hp
    rw [Function.update_self] at hrx
    cases hrx
    exact hnew
  · rw [Function.update_of_ne hp] at hrx
    exact h p rx hrx

/-- **A call that wakes nobody** changes no queue, where no port holds a frame to put back. -/
theorem CallStep.quiet (h : CallStep s t call outcome) (hwakes : outcome.wakes = false)
    (hempty : EmptyHanded s) : t.queues = s.queues ∧ EmptyHanded t := by
  cases h with
  | opened _ hqueues hrxs =>
      refine ⟨hqueues, fun p rx hrx => ?_⟩
      rw [hrxs] at hrx
      exact emptyHanded_update hempty rfl p rx hrx
  | refused hqueues hrxs => exact ⟨hqueues, fun p rx hrx => hempty p rx (hrxs ▸ hrx)⟩
  | sent _ _ => cases hwakes
  | cancelled hqueues hrxs => exact ⟨hqueues, fun p rx hrx => hempty p rx (hrxs ▸ hrx)⟩
  | noPort _ _ hqueues hrxs => exact ⟨hqueues, fun p rx hrx => hempty p rx (hrxs ▸ hrx)⟩
  | pending _ _ _ hqueues hrxs => exact ⟨hqueues, fun p rx hrx => hempty p rx (hrxs ▸ hrx)⟩
  | delivered _ _ _ _ _ _ => cases hwakes
  | requeued hrx _ _ hlabel _ _ _ => exact absurd (hempty _ _ hrx) hlabel
  | nothingToRequeue _ hrxs _ _ hlabel' hqueues =>
      refine ⟨hqueues, fun p rx hrx => ?_⟩
      rw [hrxs] at hrx
      exact emptyHanded_update hempty hlabel' p rx hrx

/-- **A frame leaves a queue by being delivered**, and an accepted send is in its queue. -/
theorem CallStep.count (h : CallStep s t call outcome) (role lane : U8) (f : LaneFrame) :
    (waiting s.queues role lane).count f + (outcome.sentOn role lane).toList.count f ≤
      (outcome.deliveredOn role lane).toList.count f + (waiting t.queues role lane).count f := by
  have hkept (hqueues : t.queues = s.queues) : (waiting s.queues role lane).count f + 0 ≤
      0 + (waiting t.queues role lane).count f := by
    rw [hqueues, Nat.zero_add, Nat.add_zero]
  cases h with
  | opened _ hqueues _ => exact hkept hqueues
  | refused hqueues _ => exact hkept hqueues
  | @sent _ _ r l frame hw _ =>
      dsimp only [CallOutcome.sentOn, CallOutcome.deliveredOn]
      by_cases hrl : r = role ∧ l = lane
      · obtain ⟨rfl, rfl⟩ := hrl
        rw [if_pos ⟨rfl, rfl⟩, hw.here, List.count_append, Option.toList_some]
        exact Nat.le_add_left ..
      · have hrl' : ¬ (role = r ∧ lane = l) := fun e => hrl ⟨e.1.symm, e.2.symm⟩
        rw [if_neg hrl, hw.elsewhere _ _ hrl']
        exact Nat.le_add_left ..
  | cancelled hqueues _ => exact hkept hqueues
  | noPort _ _ hqueues _ => exact hkept hqueues
  | pending _ _ _ hqueues _ => exact hkept hqueues
  | @delivered _ rx _ frame g w _ _ _ hfront hframe hw =>
      dsimp only [CallOutcome.sentOn, CallOutcome.deliveredOn]
      by_cases hrl : rx.localRole = role ∧ rx.lane = lane
      · obtain ⟨rfl, rfl⟩ := hrl
        rw [if_pos ⟨rfl, rfl⟩, hw.here, hfront, hframe, Option.toList_some, Option.toList_none,
          List.count_nil, Nat.add_zero, List.count_singleton, List.count_cons, Nat.add_comm]
      · have hrl' : ¬ (role = rx.localRole ∧ lane = rx.lane) :=
          fun e => hrl ⟨e.1.symm, e.2.symm⟩
        rw [if_neg hrl, hw.elsewhere _ _ hrl']
        exact Nat.le_add_left ..
  | requeued _ _ _ _ _ _ hkeep =>
      exact (hkeep role lane).sublist.count_le f |>.trans (Nat.le_add_left ..)
  | nothingToRequeue _ _ _ _ _ hqueues => exact hkept hqueues

/-- **A call that blocks** is a `poll_recv` of a lane where nothing waits; it changes nothing. -/
theorem CallStep.of_isPending (h : CallStep s t call outcome) (hpending : outcome.isPending) :
    ∃ p rx, call = .pollRecv p ∧ s.rxs p = some rx ∧ rx.Reaches ∧
      outcome = .received rx.localRole rx.lane .pending ∧
      waiting s.queues rx.localRole rx.lane = [] ∧ t.queues = s.queues ∧ t.rxs = s.rxs := by
  cases h with
  | pending hrx hreaches hnil hqueues hrxs =>
      exact ⟨_, _, rfl, hrx, hreaches, rfl, hnil, hqueues, hrxs⟩
  | opened => cases hpending
  | refused => cases hpending
  | sent => cases hpending
  | cancelled => cases hpending
  | noPort => cases hpending
  | delivered => cases hpending
  | requeued => cases hpending
  | nothingToRequeue => cases hpending

/-- A `poll_recv` that reaches the queue either blocks or takes a frame. -/
theorem CallStep.of_reaches {p : ℕ} {rx : ProofRx} (h : CallStep s t (.pollRecv p) outcome)
    (hrx : s.rxs p = some rx) (hreaches : rx.Reaches) :
    outcome = .received rx.localRole rx.lane .pending ∨
      ∃ frame, outcome = .received rx.localRole rx.lane (.ready (.ok frame)) := by
  cases h with
  | noPort hport hnot _ _ =>
      obtain rfl := Option.some.inj (hport.symm.trans hrx)
      exact absurd hreaches hnot
  | pending hport _ _ _ _ =>
      obtain rfl := Option.some.inj (hport.symm.trans hrx)
      exact .inl rfl
  | delivered hport _ _ _ _ _ =>
      obtain rfl := Option.some.inj (hport.symm.trans hrx)
      exact .inr ⟨_, rfl⟩

end Calls

/-! ### `poll_until_quiescent` -/

/-- A role's task: the call it makes next after these outcomes of its calls, or its error.  A call
that is pending is no outcome yet: the task's next poll makes it again. -/
abbrev RoleTask := List CallOutcome → Option ProofAction

/-- What happens in a pass. -/
inductive HostEvent where
  | polled (task : ℕ)
  | called (task : ℕ) (outcome : CallOutcome)
  | failed (task : ℕ)
  /-- `observe()`. -/
  | observed

/-- `ScheduledTasks` in the middle of `poll_until_quiescent`, the answers that the tasks have had,
and what happened in the passes so far. -/
structure ScheduledTasks where
  carrier : ProofState
  answers : ℕ → List CallOutcome
  taskIdx : ℕ
  /-- The poll of the task has begun. -/
  polling : Bool
  woke : Bool
  halted : Option HostOver
  passes : List (List HostEvent)
  pass : List HostEvent

namespace ScheduledTasks

def init : ScheduledTasks :=
  { carrier := .init, answers := fun _ => [], taskIdx := 0, polling := false, woke := false
    halted := none, passes := [], pass := [] }

variable (s : ScheduledTasks)

/-- Everything that happened. -/
def events : List HostEvent := s.passes.flatten ++ s.pass

def begin : ScheduledTasks :=
  { s with polling := true, pass := s.pass ++ [.polled s.taskIdx] }

/-- The polled task has made a call: a pending one ends its poll. -/
def called (carrier : ProofState) (outcome : CallOutcome) : ScheduledTasks :=
  let pass := s.pass ++ [.called s.taskIdx outcome]
  if outcome.isPending then
    { s with carrier, pass, taskIdx := s.taskIdx + 1, polling := false }
  else
    { s with
      carrier, pass
      answers := Function.update s.answers s.taskIdx (s.answers s.taskIdx ++ [outcome])
      woke := s.woke || outcome.wakes }

/-- `Poll::Ready(Err(error))`: `observe`, and panic. -/
def fail : ScheduledTasks :=
  { s with
    halted := some (.failed s.taskIdx)
    pass := s.pass ++ [.failed s.taskIdx] ++ [.observed] }

/-- The end of a pass, and of the scheduler where no waker was called. -/
def endPass : ScheduledTasks :=
  let passes := s.passes ++ [s.pass ++ [.observed]]
  if s.woke then { s with passes, pass := [], taskIdx := 0, woke := false }
  else { s with passes, pass := [], halted := some .quiescent }

/-- The polled task goes on. -/
def goOn (task : RoleTask) : Option ScheduledTasks :=
  match task (s.answers s.taskIdx) with
  | none => some s.fail
  | some call => (proofNext s.carrier call).bind fun carrier =>
      (proofSeen s.carrier call).map (s.called carrier)

end ScheduledTasks

/-- A step of `poll_until_quiescent`. -/
def pollNext (tasks : List RoleTask) (s : ScheduledTasks) : Option ScheduledTasks :=
  if s.halted.isSome then none
  else
    match tasks[s.taskIdx]? with
    | none => some s.endPass
    | some task => if s.polling then s.goOn task else some s.begin

/-- `poll_until_quiescent` over these tasks. -/
def pollUntilQuiescent (tasks : List RoleTask) : Machine ScheduledTasks Unit :=
  ⟨fun s _ => pollNext tasks s⟩

/-- What a step does. -/
inductive ScheduledStep (tasks : List RoleTask) (s : ScheduledTasks) : ScheduledTasks → Prop where
  | begun {task} (htask : tasks[s.taskIdx]? = some task) (hpolling : s.polling = false) :
      ScheduledStep tasks s s.begin
  | called {task call carrier outcome} (htask : tasks[s.taskIdx]? = some task)
      (hpolling : s.polling = true) (hcall : task (s.answers s.taskIdx) = some call)
      (hnext : proofNext s.carrier call = some carrier)
      (hseen : proofSeen s.carrier call = some outcome) :
      ScheduledStep tasks s (s.called carrier outcome)
  | failed {task} (htask : tasks[s.taskIdx]? = some task) (hpolling : s.polling = true)
      (herror : task (s.answers s.taskIdx) = none) : ScheduledStep tasks s s.fail
  | passed (hidx : tasks.length ≤ s.taskIdx) : ScheduledStep tasks s s.endPass

theorem scheduledStep_of_next {tasks : List RoleTask} {s t : ScheduledTasks}
    (h : pollNext tasks s = some t) : s.halted = none ∧ ScheduledStep tasks s t := by
  unfold pollNext at h
  split at h
  · cases h
  rename_i hhalted
  refine ⟨Option.not_isSome_iff_eq_none.mp hhalted, ?_⟩
  split at h
  · rename_i hnone
    cases h
    exact .passed (List.getElem?_eq_none_iff.mp hnone)
  rename_i task htask
  split at h
  · rename_i hpolling
    unfold ScheduledTasks.goOn at h
    split at h
    · rename_i herror
      cases h
      exact .failed htask hpolling herror
    · rename_i call hcall
      obtain ⟨carrier, hnext, h⟩ := Option.bind_eq_some_iff.mp h
      obtain ⟨outcome, hseen, rfl⟩ := Option.map_eq_some_iff.mp h
      exact .called htask hpolling hcall hnext hseen
  · rename_i hpolling
    cases h
    exact .begun htask (Bool.not_eq_true _ ▸ hpolling)

end HibanaPico.UnoQ
