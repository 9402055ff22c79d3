import HibanaPico.Support.Lists
import HibanaPico.Baker.EpfLoaded

/-!
# Baker — Tap spool

How the tap events of a core reach its EPF machine.  `poll_epf_diagnostic` loads what is to be
loaded, runs what waits in the core's spool, and then drains the tap port: each event is put in the
spool, while it has room, and run.  An event that is run at once is not taken out of the spool.

* `pollEpfDiagnostic`: the poll, with the events it gave to a machine that has an image.
* `EachOnce`: every drained event was run once, in order, or waits in the spool.
* `pollEpfDiagnostic_ran`: the three things a poll can do.
* `tap_events_once`: each event is run once exactly when no poll runs one it has put in the spool.
-/

namespace HibanaPico.Baker
open HibanaPico.Support
open HibanaPico.Transport
open HibanaPico.Sio

variable {V ε : Type}

/-- A core's `TAP_SPOOL`: the slots up to `TAP_SPOOL_LEN`, and `TAP_SPOOL_READ`. -/
structure TapSpool (ε : Type) where
  events : { events : List ε // events.length ≤ epfTapSpoolEvents }
  read : ℕ

def TapSpool.empty : TapSpool ε := { events := ⟨[], Nat.zero_le _⟩, read := 0 }

theorem TapSpool.length_snoc {events : List ε} (h : ¬ events.length ≥ epfTapSpoolEvents)
    (event : ε) : (events ++ [event]).length ≤ epfTapSpoolEvents := by
  rw [List.length_append]
  exact Nat.not_le.mp h

def epfSpoolTapEvent (spool : TapSpool ε) (event : ε) : TapSpool ε :=
  if h : spool.events.1.length ≥ epfTapSpoolEvents then spool
  else { spool with events := ⟨spool.events.1 ++ [event], TapSpool.length_snoc h event⟩ }

/-- `run_epf_tap_event`, and whether the machine emitted. -/
def runEpfTapEvent (E : HibanaEpf V ε) (m : EpfStatics V) (core : Core) (event : ε) :
    EpfStatics V × Bool :=
  if !epfLoadedForCore m core then (m, false)
  else
    match E.run (m.vm core) event with
    | (vm, out) =>
        let m := m.setVm core vm
        if out.emitted then
          (if out.trapped then { m with loadReason := epfLoadReasonVmTrap } else m, true)
        else (m, false)

/-- What `run_epf_tap_event` gives to a machine that has an image. -/
def givenTo (m : EpfStatics V) (core : Core) (event : ε) : List ε :=
  if epfLoadedForCore m core then [event] else []

/-- The loop of `poll_epf_spool_diagnostic`, with `left` turns left: where it stops reading, the
events given to the machine, and whether it emitted. -/
def epfSpoolLoop (E : HibanaEpf V ε) (core : Core) (events : List ε) :
    ℕ → EpfStatics V → ℕ → EpfStatics V × ℕ × List ε × Bool
  | 0, m, read => (m, read, [], false)
  | left + 1, m, read =>
      match events[read]? with
      | none => (m, read, [], false)
      | some event =>
          if read ≥ epfTapSpoolEvents then (m, read, [], false)
          else
            match runEpfTapEvent E m core event with
            | (m', true) => (m', read + 1, givenTo m core event, true)
            | (m', false) =>
                match epfSpoolLoop E core events left m' (read + 1) with
                | (m', read, given, emitted) => (m', read, givenTo m core event ++ given, emitted)

def pollEpfSpoolDiagnostic (E : HibanaEpf V ε) (m : EpfStatics V) (core : Core)
    (spool : TapSpool ε) : EpfStatics V × TapSpool ε × List ε × Bool :=
  if !epfLoadedForCore m core then (m, spool, [], false)
  else
    match epfSpoolLoop E core spool.events.1 epfTapSpoolEvents m spool.read with
    | (m, read, given, emitted) => (m, { spool with read }, given, emitted)

/-- The loop of `poll_epf_diagnostic`, with `left` turns left, on the events in the tap port: the
events it drained, and those given to the machine. -/
def epfTapLoop (E : HibanaEpf V ε) (core : Core) :
    ℕ → EpfStatics V → TapSpool ε → List ε → EpfStatics V × TapSpool ε × List ε × List ε
  | 0, m, spool, _ => (m, spool, [], [])
  | _ + 1, m, spool, [] => (m, spool, [], [])
  | left + 1, m, spool, event :: tap =>
      let spool := epfSpoolTapEvent spool event
      match runEpfTapEvent E m core event with
      | (m', true) => (m', spool, [event], givenTo m core event)
      | (m', false) =>
          match epfTapLoop E core left m' spool tap with
          | (m', spool, drained, given) =>
              (m', spool, event :: drained, givenTo m core event ++ given)

/-- What a poll leaves: the events it ran from the spool, those it drained from the tap port, and
those of them it ran. -/
structure DiagnosticPoll (V ε : Type) where
  statics : EpfStatics V
  spool : TapSpool ε
  replayed : List ε
  drained : List ε
  ran : List ε

def pollEpfDiagnostic (E : HibanaEpf V ε) (m : EpfStatics V) (core : Core) (spool : TapSpool ε)
    (tap : List ε) : DiagnosticPoll V ε :=
  match pollEpfSpoolDiagnostic E (epfTryLoadCommittedImage E m core) core spool with
  | (m, spool, replayed, true) => ⟨m, spool, replayed, [], []⟩
  | (m, spool, replayed, false) =>
      match epfTapLoop E core epfTapSpoolEvents m spool tap with
      | (m, spool, drained, ran) => ⟨m, spool, replayed, drained, ran⟩

/-! ### Runs -/

/-- The statics and spools of the cores, and what an observer has noted of each: the events drained
from its tap port, and those given to its machine, each with its place among the drained. -/
structure SpoolState (V ε : Type) where
  statics : EpfStatics V
  spool : Core → TapSpool ε
  drained : Core → List ε
  ran : Core → List (ε × ℕ)

def SpoolState.init (E : HibanaEpf V ε) : SpoolState V ε :=
  { statics := .init E, spool := fun _ => .empty, drained := fun _ => [], ran := fun _ => [] }

inductive SpoolAction (ε : Type) where
  /-- A load function, or the host. -/
  | load (a : EpfAction)
  /-- `poll_epf_diagnostic`, with the events in the tap port. -/
  | pollDiagnostic (core : Core) (tap : List ε)

def SpoolState.polled (s : SpoolState V ε) (core : Core) (r : DiagnosticPoll V ε) :
    SpoolState V ε :=
  { statics := r.statics
    spool := Function.update s.spool core r.spool
    drained := Function.update s.drained core (s.drained core ++ r.drained)
    ran := Function.update s.ran core (s.ran core ++ r.replayed.zipIdx (s.spool core).read ++
      r.ran.zipIdx (s.drained core).length) }

/-- The cores' polls and loads, in any order. -/
def spoolMachine (E : HibanaEpf V ε) : Machine (SpoolState V ε) (SpoolAction ε) :=
  ⟨fun s a => match a with
    | .load a => some { s with statics := epfStep E s.statics a }
    | .pollDiagnostic core tap =>
        some (s.polled core (pollEpfDiagnostic E s.statics core (s.spool core) tap))⟩

/-- The events in the spool that have not been read. -/
def TapSpool.waiting (spool : TapSpool ε) : List ε := spool.events.1.drop spool.read

/-- **Each event once**: the events run, with their places, and then those that wait are the events
drained, in order. -/
def EachOnce (s : SpoolState V ε) (core : Core) : Prop :=
  s.ran core ++ (s.spool core).waiting.zipIdx (s.spool core).read = (s.drained core).zipIdx

/-- A machine emits for none of the events, run in turn. -/
def Silent (E : HibanaEpf V ε) : V → List ε → Prop
  | _, [] => True
  | vm, event :: events => (E.run vm event).2.emitted = false ∧ Silent E (E.run vm event).1 events

/-- **The spool has room** for the events that a poll drains with no image loaded. -/
def SpoolFits (E : HibanaEpf V ε) (s : SpoolState V ε) : SpoolAction ε → Prop
  | .pollDiagnostic core tap =>
      epfLoadedForCore (epfTryLoadCommittedImage E s.statics core) core = false →
        (s.spool core).events.1.length + (tap.take epfTapSpoolEvents).length ≤ epfTapSpoolEvents
  | .load _ => True

/-- **No event is run that was put in the spool**: a poll with an image loaded that gets past what
waits finds the tap port empty, or the spool full. -/
def SpoolsOrRuns (E : HibanaEpf V ε) (s : SpoolState V ε) : SpoolAction ε → Prop
  | .pollDiagnostic core tap =>
      let m := epfTryLoadCommittedImage E s.statics core
      epfLoadedForCore m core = true → Silent E (m.vm core) (s.spool core).waiting →
        tap = [] ∨ (s.spool core).events.1.length = epfTapSpoolEvents
  | .load _ => True

/-! ### The loops -/

variable {E : HibanaEpf V ε} {m : EpfStatics V} {core : Core}

theorem runEpfTapEvent_of_loaded (hloaded : epfLoadedForCore m core = true) (event : ε) :
    ∃ m', runEpfTapEvent E m core event = (m', (E.run (m.vm core) event).2.emitted) ∧
      m'.vm core = (E.run (m.vm core) event).1 ∧ epfLoadedForCore m' core = true := by
  have hvm : ∀ vm, (m.setVm core vm).vm core = vm := fun vm => Function.update_self _ _ _
  unfold runEpfTapEvent
  rw [hloaded]
  rcases E.run (m.vm core) event with ⟨vm, ⟨emitted, trapped⟩⟩
  cases emitted with
  | false => exact ⟨_, rfl, hvm vm, hloaded⟩
  | true =>
      cases trapped with
      | false => exact ⟨_, rfl, hvm vm, hloaded⟩
      | true => exact ⟨_, rfl, hvm vm, hloaded⟩

theorem runEpfTapEvent_of_not_loaded (hloaded : epfLoadedForCore m core = false) (event : ε) :
    runEpfTapEvent E m core event = (m, false) := by
  rw [runEpfTapEvent, hloaded]
  rfl

/-- **The spool, with an image loaded**: the events that wait are run in order, all of them if the
machine is silent, and else up to one it emits for. -/
theorem epfSpoolLoop_cases {events : List ε} (hlen : events.length ≤ epfTapSpoolEvents) :
    ∀ (left : ℕ) (m : EpfStatics V) (read : ℕ), epfLoadedForCore m core = true →
      (events.drop read).length ≤ left →
      (Silent E (m.vm core) (events.drop read) ∧ ∃ m', epfLoadedForCore m' core = true ∧
          epfSpoolLoop E core events left m read =
            (m', read + (events.drop read).length, events.drop read, false)) ∨
        ¬ Silent E (m.vm core) (events.drop read) ∧ ∃ m' k, k ≤ (events.drop read).length ∧
          epfSpoolLoop E core events left m read =
            (m', read + k, (events.drop read).take k, true) := by
  intro left
  induction left with
  | zero =>
      intro m read hloaded hleft
      have hnil := List.length_eq_zero_iff.mp (Nat.le_zero.mp hleft)
      rw [hnil]
      exact .inl ⟨trivial, m, hloaded, rfl⟩
  | succ left ih =>
      intro m read hloaded hleft
      cases hread : events[read]? with
      | none =>
          have hnil := List.drop_eq_nil_of_le (List.getElem?_eq_none_iff.mp hread)
          rw [hnil, epfSpoolLoop, hread]
          exact .inl ⟨trivial, m, hloaded, rfl⟩
      | some event =>
          obtain ⟨hlt, rfl⟩ := List.getElem?_eq_some_iff.mp hread
          have hdrop := List.drop_eq_getElem_cons hlt
          have hfull : ¬ read ≥ epfTapSpoolEvents := by omega
          have hgiven : givenTo m core events[read] = [events[read]] := if_pos hloaded
          obtain ⟨m', hrun, hvm, hloaded'⟩ :=
            @runEpfTapEvent_of_loaded _ _ E _ _ hloaded events[read]
          rw [hdrop, List.length_cons] at hleft
          rw [epfSpoolLoop, hread, hdrop]
          dsimp only
          rw [if_neg hfull, hrun, hgiven]
          -- the loop stops at the first event the machine emits for
          cases hemitted : (E.run (m.vm core) events[read]).2.emitted with
          | true =>
              refine .inr ⟨fun h => ?_, m', 1, Nat.succ_le_succ (Nat.zero_le _), rfl⟩
              rw [Silent, hemitted] at h
              cases h.1
          | false =>
              have hsilent : Silent E (m.vm core) (events[read] :: events.drop (read + 1)) ↔
                  Silent E (m'.vm core) (events.drop (read + 1)) := by
                rw [Silent, hvm]
                exact and_iff_right hemitted
              rw [hsilent]
              obtain ⟨hquiet, m'', hloaded'', hloop⟩ | ⟨hloud, m'', k, hk, hloop⟩ :=
                ih m' (read + 1) hloaded' (by omega)
              · refine .inl ⟨hquiet, m'', hloaded'', ?_⟩
                dsimp only
                rw [hloop, List.length_cons, Nat.add_assoc, Nat.add_comm 1]
                rfl
              · refine .inr ⟨hloud, m'', k + 1, Nat.succ_le_succ hk, ?_⟩
                dsimp only
                rw [hloop, Nat.add_assoc, Nat.add_comm 1]
                rfl

theorem events_epfSpoolTapEvent (spool : TapSpool ε) (event : ε) :
    (epfSpoolTapEvent spool event).events.1 =
        (spool.events.1 ++ [event]).take epfTapSpoolEvents ∧
      (epfSpoolTapEvent spool event).read = spool.read := by
  unfold epfSpoolTapEvent
  have hle := spool.events.2
  split
  · rename_i hfull
    refine ⟨?_, rfl⟩
    rw [List.take_append_of_le_length hfull, List.take_of_length_le hle]
  · rename_i hroom
    exact ⟨(List.take_of_length_le (TapSpool.length_snoc hroom event)).symm, rfl⟩

/-- **The tap port**: a first part of its events is drained and spooled as long as there is room,
and run if an image is loaded; without one, as many are drained as the loop has turns. -/
theorem epfTapLoop_spec : ∀ (left : ℕ) (m : EpfStatics V) (spool : TapSpool ε) (tap : List ε),
    ∃ m' spool' drained, epfTapLoop E core left m spool tap = (m', spool', drained,
        if epfLoadedForCore m core then drained else []) ∧
      spool'.events.1 = (spool.events.1 ++ drained).take epfTapSpoolEvents ∧
      spool'.read = spool.read ∧
      drained <+: tap ∧ (epfLoadedForCore m core = false → drained = tap.take left) ∧
      (left ≠ 0 → tap ≠ [] → drained ≠ []) := by
  intro left
  induction left with
  | zero =>
      intro m spool tap
      refine ⟨m, spool, [], ?_, ?_, rfl, List.nil_prefix, fun _ => rfl, fun h => absurd rfl h⟩
      · cases epfLoadedForCore m core <;> rfl
      · rw [List.append_nil, List.take_of_length_le spool.events.2]
  | succ left ih =>
      intro m spool tap
      cases tap with
      | nil =>
          refine ⟨m, spool, [], ?_, ?_, rfl, List.nil_prefix, fun _ => rfl, fun _ h => absurd rfl h⟩
          · cases epfLoadedForCore m core <;> rfl
          · rw [List.append_nil, List.take_of_length_le spool.events.2]
      | cons event tap =>
          obtain ⟨hevents, hread⟩ := events_epfSpoolTapEvent spool event
          rw [epfTapLoop, givenTo]
          -- the loop does not load anything, so this does not change on the way
          cases hloaded : epfLoadedForCore m core with
          | false =>
              obtain ⟨m', spool', drained, hloop, hspool, hread', hprefix, hdrained, -⟩ :=
                ih m (epfSpoolTapEvent spool event) tap
              refine ⟨m', spool', event :: drained, ?_, ?_, hread'.trans hread,
                List.cons_prefix_cons.mpr ⟨rfl, hprefix⟩, fun _ => ?_,
                fun _ _ => List.cons_ne_nil _ _⟩
              · rw [runEpfTapEvent_of_not_loaded hloaded]
                dsimp only
                rw [hloop, hloaded]
                rfl
              · rw [hspool, hevents, take_append_take, List.append_assoc]
                rfl
              · rw [hdrained hloaded, List.take_succ_cons]
          | true =>
              obtain ⟨m₁, hrun, -, hloaded₁⟩ := @runEpfTapEvent_of_loaded _ _ E _ _ hloaded event
              rw [hrun]
              cases (E.run (m.vm core) event).2.emitted with
              | true =>
                  exact ⟨m₁, epfSpoolTapEvent spool event, [event], rfl, hevents, hread,
                    List.cons_prefix_cons.mpr ⟨rfl, List.nil_prefix⟩, nofun,
                    fun _ _ => List.cons_ne_nil _ _⟩
              | false =>
                  obtain ⟨m', spool', drained, hloop, hspool, hread', hprefix, -, -⟩ :=
                    ih m₁ (epfSpoolTapEvent spool event) tap
                  refine ⟨m', spool', event :: drained, ?_, ?_, hread'.trans hread,
                    List.cons_prefix_cons.mpr ⟨rfl, hprefix⟩, nofun,
                    fun _ _ => List.cons_ne_nil _ _⟩
                  · dsimp only
                    rw [hloop, hloaded₁]
                    rfl
                  · rw [hspool, hevents, take_append_take, List.append_assoc]
                    rfl

/-- What a poll can do, after its load: with no image it only drains and spools; with one, it runs
what waits, and then, if the machine was silent, drains, spools and runs. -/
inductive PollRan (E : HibanaEpf V ε) (m : EpfStatics V) (core : Core) (spool : TapSpool ε)
    (tap : List ε) (r : DiagnosticPoll V ε) : Prop
  | spooled (hloaded : epfLoadedForCore m core = false) (replayed : r.replayed = [])
      (ran : r.ran = []) (drained : r.drained = tap.take epfTapSpoolEvents)
      (events : r.spool.events.1 = (spool.events.1 ++ r.drained).take epfTapSpoolEvents)
      (read : r.spool.read = spool.read)
  | both (hloaded : epfLoadedForCore m core = true) (silent : Silent E (m.vm core) spool.waiting)
      (replayed : r.replayed = spool.waiting) (ran : r.ran = r.drained)
      (drained : r.drained <+: tap) (takes : tap ≠ [] → r.drained ≠ [])
      (events : r.spool.events.1 = (spool.events.1 ++ r.drained).take epfTapSpoolEvents)
      (read : r.spool.read = spool.read + spool.waiting.length)
  | emitted (hloaded : epfLoadedForCore m core = true)
      (loud : ¬ Silent E (m.vm core) spool.waiting) (k : ℕ) (le : k ≤ spool.waiting.length)
      (replayed : r.replayed = spool.waiting.take k) (ran : r.ran = []) (drained : r.drained = [])
      (events : r.spool.events.1 = spool.events.1) (read : r.spool.read = spool.read + k)

/-- **`poll_epf_diagnostic`.** -/
theorem pollEpfDiagnostic_ran (E : HibanaEpf V ε) (m : EpfStatics V) (core : Core)
    (spool : TapSpool ε) (tap : List ε) :
    PollRan E (epfTryLoadCommittedImage E m core) core spool tap
      (pollEpfDiagnostic E m core spool tap) := by
  unfold pollEpfDiagnostic pollEpfSpoolDiagnostic
  -- the load comes first, and everything after it sees its outcome
  generalize epfTryLoadCommittedImage E m core = m
  cases hloaded : epfLoadedForCore m core with
  | false =>
      obtain ⟨m', spool', drained, hloop, hevents, hread, -, hdrained, -⟩ :=
        @epfTapLoop_spec _ _ E core epfTapSpoolEvents m spool tap
      simp only [Bool.not_false, if_true]
      rw [hloop, hloaded]
      exact .spooled hloaded rfl rfl (hdrained hloaded) hevents hread
  | true =>
      simp only [Bool.not_true, Bool.false_eq_true, if_false]
      have hwaiting : spool.waiting.length ≤ epfTapSpoolEvents := by
        have := spool.events.2
        rw [TapSpool.waiting, List.length_drop]
        omega
      obtain ⟨hsilent, m', hloaded', hspool⟩ | ⟨hloud, m', k, hk, hspool⟩ :=
        @epfSpoolLoop_cases _ _ E core _ spool.events.2 epfTapSpoolEvents m spool.read hloaded
          hwaiting
      · rw [hspool]
        obtain ⟨m'', spool', drained, hloop, hevents, hread, hprefix, -, htakes⟩ :=
          @epfTapLoop_spec _ _ E core epfTapSpoolEvents m'
            { spool with read := spool.read + (spool.events.1.drop spool.read).length } tap
        dsimp only
        rw [hloop, hloaded']
        exact .both hloaded hsilent rfl rfl hprefix (htakes (by decide)) hevents hread
      · rw [hspool]
        exact .emitted hloaded hloud k hk rfl rfl rfl rfl rfl

/-! ### The invariant -/

/-- The spool holds the first events drained, and is read up to a place in it. -/
structure SpoolInv (s : SpoolState V ε) : Prop where
  events : ∀ core, (s.spool core).events.1 = (s.drained core).take epfTapSpoolEvents
  read : ∀ core, (s.spool core).read ≤ (s.spool core).events.1.length

theorem spoolInv_init : SpoolInv (.init E) where
  events _ := rfl
  read _ := Nat.le_refl _

variable {s : SpoolState V ε} {tap : List ε} {r : DiagnosticPoll V ε}

theorem TapSpool.read_add_waiting {spool : TapSpool ε} (h : spool.read ≤ spool.events.1.length) :
    spool.read + spool.waiting.length = spool.events.1.length := by
  rw [TapSpool.waiting, List.length_drop]
  omega

theorem PollRan.events_eq {spool : TapSpool ε} (h : PollRan E m core spool tap r) :
    r.spool.events.1 = (spool.events.1 ++ r.drained).take epfTapSpoolEvents := by
  cases h with
  | spooled _ _ _ _ events _ | both _ _ _ _ _ _ events _ => exact events
  | emitted _ _ _ _ _ _ drained events _ =>
      rw [events, drained, List.append_nil, List.take_of_length_le spool.events.2]

theorem PollRan.read_le {spool : TapSpool ε} (hread : spool.read ≤ spool.events.1.length)
    (h : PollRan E m core spool tap r) : r.spool.read ≤ r.spool.events.1.length := by
  have hle : spool.events.1.length ≤ r.spool.events.1.length := by
    have := spool.events.2
    rw [h.events_eq, List.length_take, List.length_append]
    omega
  have hwaiting := TapSpool.read_add_waiting hread
  cases h with
  | spooled _ _ _ _ _ read => omega
  | both _ _ _ _ _ _ _ read => omega
  | emitted _ _ k le _ _ _ _ read => omega

theorem SpoolInv.polled (h : SpoolInv s) (hran : PollRan E m core (s.spool core) tap r) :
    SpoolInv (s.polled core r) := by
  refine ⟨fun c => ?_, fun c => ?_⟩ <;> dsimp only [SpoolState.polled] <;> by_cases hc : c = core
  · subst hc
    rw [Function.update_self, Function.update_self, hran.events_eq, h.events, take_append_take]
  · rw [Function.update_of_ne hc, Function.update_of_ne hc]
    exact h.events c
  · subst hc
    rw [Function.update_self]
    exact hran.read_le (h.read c)
  · rw [Function.update_of_ne hc]
    exact h.read c

/-- **One poll**: where each event was run once, it still is, exactly when the poll does not run an
event it has put in the spool. -/
theorem eachOnce_polled (h : SpoolInv s) (hran : PollRan E m core (s.spool core) tap r)
    (hfits : epfLoadedForCore m core = false →
      (s.spool core).events.1.length + (tap.take epfTapSpoolEvents).length ≤ epfTapSpoolEvents) :
    EachOnce (s.polled core r) core ↔ EachOnce s core ∧
      (epfLoadedForCore m core = true → Silent E (m.vm core) (s.spool core).waiting →
        tap = [] ∨ (s.spool core).events.1.length = epfTapSpoolEvents) := by
  have hread := h.read core
  have hwaiting := TapSpool.read_add_waiting hread
  have hevents := hran.events_eq
  -- before the spool is full, a place in it is a place among the drained
  have hplace : (s.spool core).events.1.length < epfTapSpoolEvents →
      (s.spool core).events.1.length = (s.drained core).length := by
    rw [h.events core, List.length_take]
    omega
  unfold EachOnce
  dsimp only [SpoolState.polled]
  simp only [Function.update_self]
  cases hran with
  | spooled hloaded replayed ran drained events read =>
      have hfits := hfits hloaded
      rw [replayed, ran, List.zipIdx_nil, List.zipIdx_nil, List.append_nil, List.append_nil]
      rw [← drained] at hfits
      -- nothing is run, and what is drained waits behind what waited
      have hdrop : r.spool.waiting = (s.spool core).waiting ++ r.drained := by
        have hroom : ((s.spool core).events.1 ++ r.drained).length ≤ epfTapSpoolEvents := by
          rw [List.length_append]
          exact hfits
        rw [TapSpool.waiting, hevents, read, List.take_of_length_le hroom,
          List.drop_append_of_le_length hread]
        rfl
      rw [hdrop, read, and_iff_left fun h => absurd (hloaded.symm.trans h) Bool.false_ne_true]
      rcases eq_or_ne r.drained [] with hnone | hsome
      · rw [hnone, List.append_nil, List.append_nil]
      · have hn := hplace (by
          have := List.length_pos_iff.mpr hsome
          omega)
        rw [List.zipIdx_append, List.zipIdx_append, hwaiting, hn, Nat.zero_add,
          ← List.append_assoc, List.append_left_inj]
  | both hloaded silent replayed ran drained takes events read =>
      -- what waited is run, and what is drained is run and spooled
      have hdrop : r.spool.waiting =
          r.drained.take (epfTapSpoolEvents - (s.spool core).events.1.length) := by
        rw [TapSpool.waiting, hevents, read, hwaiting, List.take_append,
          List.take_of_length_le (s.spool core).events.2, List.drop_left]
      rw [replayed, ran, hdrop, read, hwaiting]
      simp only [hloaded, silent, true_implies]
      rcases eq_or_ne tap [] with rfl | hsome
      · rw [List.prefix_nil.mp drained, List.take_nil]
        simp
      by_cases hfull : (s.spool core).events.1.length = epfTapSpoolEvents
      · rw [hfull, Nat.sub_self, List.take_zero, List.zipIdx_nil, List.append_nil,
          List.zipIdx_append, Nat.zero_add, List.append_left_inj]
        exact (and_iff_left (.inr rfl)).symm
      · -- the first event drained is run, and waits in the spool
        have hlt : (s.spool core).events.1.length < epfTapSpoolEvents :=
          Nat.lt_of_le_of_ne (s.spool core).events.2 hfull
        have hwaits : r.drained.take (epfTapSpoolEvents - (s.spool core).events.1.length) ≠ [] := by
          rw [Ne, List.take_eq_nil_iff]
          exact not_or.mpr ⟨by omega, takes hsome⟩
        rw [hplace hlt] at hwaits ⊢
        rw [hplace hlt] at hfull
        exact iff_of_false (not_zipIdx_of_twice (takes hsome) hwaits)
          fun h => h.2.elim hsome hfull
  | emitted hloaded loud k le replayed ran drained events read =>
      -- the first `k` of what waited are run, and the port is not looked at
      have hdrop : r.spool.waiting = (s.spool core).waiting.drop k := by
        rw [TapSpool.waiting, events, read, TapSpool.waiting, List.drop_drop]
      rw [replayed, ran, drained, hdrop, read, List.zipIdx_nil, List.append_nil, List.append_nil,
        List.append_assoc, zipIdx_take_drop _ _ le]
      exact (and_iff_left fun _ hsilent => absurd hsilent loud).symm

theorem spoolInv_step (s : SpoolState V ε) (a : SpoolAction ε) (t : SpoolState V ε)
    (h : SpoolInv s) (hnext : (spoolMachine E).next s a = some t) : SpoolInv t := by
  cases a with
  | load a =>
      obtain rfl := Option.some.inj hnext
      exact ⟨h.events, h.read⟩
  | pollDiagnostic core tap =>
      obtain rfl := Option.some.inj hnext
      exact h.polled (pollEpfDiagnostic_ran E s.statics core (s.spool core) tap)

/-- One step, on both cores. -/
theorem eachOnce_step (s : SpoolState V ε) (a : SpoolAction ε) (t : SpoolState V ε)
    (h : SpoolInv s) (hfits : SpoolFits E s a) (hnext : (spoolMachine E).next s a = some t) :
    (∀ core, EachOnce t core) ↔ (∀ core, EachOnce s core) ∧ SpoolsOrRuns E s a := by
  cases a with
  | load a =>
      obtain rfl := Option.some.inj hnext
      exact (and_iff_left trivial).symm
  | pollDiagnostic core tap =>
      obtain rfl := Option.some.inj hnext
      have hran := pollEpfDiagnostic_ran E s.statics core (s.spool core) tap
      have hhere := eachOnce_polled h hran hfits
      -- the other core's tap is not touched
      have helse : ∀ c, c ≠ core →
          (EachOnce (s.polled core (pollEpfDiagnostic E s.statics core (s.spool core) tap)) c ↔
            EachOnce s c) := by
        intro c hc
        unfold EachOnce
        dsimp only [SpoolState.polled]
        rw [Function.update_of_ne hc, Function.update_of_ne hc, Function.update_of_ne hc]
      constructor
      · intro hall
        refine ⟨fun c => ?_, (hhere.mp (hall core)).2⟩
        by_cases hc : c = core
        · exact hc ▸ (hhere.mp (hall core)).1
        · exact (helse c hc).mp (hall c)
      · rintro ⟨hall, hruns⟩ c
        by_cases hc : c = core
        · exact hc ▸ hhere.mpr ⟨hall core, hruns⟩
        · exact (helse c hc).mpr (hall c)

/-! ### The result -/

/-- **Each tap event is run once**, in the order drained, exactly when no poll runs an event that
it has put in the spool: in every run of the cores' polls and loads in which what is drained before
an image is loaded fits the spool. -/
theorem tap_events_once (E : HibanaEpf V ε) (as : List (SpoolAction ε)) (s : SpoolState V ε)
    (hrun : (spoolMachine E).exec (.init E) as = some s)
    (hfits : (spoolMachine E).Along (SpoolFits E) (.init E) as) :
    (∀ core, EachOnce s core) ↔ (spoolMachine E).Along (SpoolsOrRuns E) (.init E) as := by
  have hiff := Machine.exec_iff_along_of_along
    (fun s a t h (_ : SpoolFits E s a) => spoolInv_step s a t h) eachOnce_step spoolInv_init hfits
    hrun
  exact hiff.trans (and_iff_right fun _ => rfl)

instance [DecidableEq ε] (s : SpoolState V ε) (core : Core) : Decidable (EachOnce s core) :=
  inferInstanceAs (Decidable (_ = _))

instance Silent.decidable (E : HibanaEpf V ε) :
    ∀ (vm : V) (events : List ε), Decidable (Silent E vm events)
  | _, [] => isTrue trivial
  | vm, event :: events =>
      have := Silent.decidable E (E.run vm event).1 events
      inferInstanceAs (Decidable (_ ∧ _))

instance (E : HibanaEpf V ε) (s : SpoolState V ε) : ∀ a, Decidable (SpoolFits E s a)
  | .pollDiagnostic _ _ => inferInstanceAs (Decidable (_ → _))
  | .load _ => isTrue trivial

instance (E : HibanaEpf V ε) [DecidableEq ε] (s : SpoolState V ε) :
    ∀ a, Decidable (SpoolsOrRuns E s a)
  | .pollDiagnostic _ _ => inferInstanceAs (Decidable (_ → _ → _ ∨ _))
  | .load _ => isTrue trivial

/-- Core 0 fills its spool, loads an image, and then drains one more event. -/
def fillThenLoad : List (SpoolAction Bool) :=
  [.pollDiagnostic .core0 (List.replicate 16 false),
    .load (.choreography .core0 (headerImage 0 0)), .pollDiagnostic .core0 [true]]

/-- Its 17 events are run once each. -/
theorem tap_events_once_filled :
    ∃ s, (spoolMachine headerEpf).exec (.init headerEpf) fillThenLoad = some s ∧
      (s.ran .core0).length = 17 ∧ EachOnce s .core0 := by
  have hrun : ((spoolMachine headerEpf).exec (.init headerEpf) fillThenLoad).map
      (fun s => (s.ran .core0).length) = some 17 := by decide +kernel
  obtain ⟨s, hs, hlength⟩ := Option.map_eq_some_iff.mp hrun
  exact ⟨s, hs, hlength,
    (tap_events_once headerEpf _ s hs (by decide +kernel)).mpr (by decide +kernel) .core0⟩

/-- **An event is run twice.**  With an image loaded, core 0 drains one event and runs it; the next
poll runs it from the spool. -/
theorem tap_event_twice :
    ∃ s, (spoolMachine headerEpf).exec (.init headerEpf)
        [.load (.choreography .core0 (headerImage 0 0)), .pollDiagnostic .core0 [false],
          .pollDiagnostic .core0 []] = some s ∧
      (spoolMachine headerEpf).Along (SpoolFits headerEpf) (.init headerEpf)
        [.load (.choreography .core0 (headerImage 0 0)), .pollDiagnostic .core0 [false],
          .pollDiagnostic .core0 []] ∧
      s.drained .core0 = [false] ∧ s.ran .core0 = [(false, 0), (false, 0)] ∧
      ¬ EachOnce s .core0 := by
  have hrun : ((spoolMachine headerEpf).exec (.init headerEpf)
      [.load (.choreography .core0 (headerImage 0 0)), .pollDiagnostic .core0 [false],
        .pollDiagnostic .core0 []]).map (fun s => decide (s.drained .core0 = [false] ∧
          s.ran .core0 = [(false, 0), (false, 0)] ∧ ¬ EachOnce s .core0)) = some true := by
    decide +kernel
  obtain ⟨s, hs, h⟩ := Option.map_eq_some_iff.mp hrun
  exact ⟨s, hs, by decide +kernel, of_decide_eq_true h⟩

end HibanaPico.Baker
