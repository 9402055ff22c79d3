import HibanaPico.Support.Runs

/-!
# Support — Doze

Processors over one memory that sleep while there is nothing to do.  Each polls its parties in
turn; a party makes one call after another until one is pending.  After a pass in which no waker was
called the processor waits for an event: `wfe` clears its event if it is set, and else sleeps until
it is.  `sev` sets the events of all.

* `Calls`: what a call does, part by part; between two parts the other processors may run.
* `Dozing`, `dozingMachine`: the processors and their steps; an interrupt may set an event at any
  time.
* `Heeds`: what a memory has to say when its calls let somebody go on.
* `Vigil`: a party that the pass has polled rests, or a flag is up; `vigil_exec`.
* `asleep_rests`, `wakes_up`: nobody sleeps over a call that could go on.
-/

namespace HibanaPico.Support

/-- How far a part of a call has come. -/
inductive CallPart (α : Type*) where
  | answered (answer : α)
  | pending
  | goesOn

/-- What a part of a call does. -/
structure Did (ι σ α : Type*) where
  memory : σ
  part : CallPart α
  /-- A waker of the pass is called. -/
  wakes : Bool
  /-- `sev` is the next instruction. -/
  signals : Bool
  /-- The memory itself sets the events of these. -/
  sets : ι → Bool

/-- The calls on a memory: their first parts, and the later ones; `none` is a panic. -/
structure Calls (ι σ κ α : Type*) where
  start : ι → σ → κ → Option (Did ι σ α)
  resume : ι → σ → κ → Option (Did ι σ α)

/-- What a processor polls.  A party is the call it makes after its answers so far.  If there is an
engine it is the first party, which the processor drives from one of its futures to the next;
`engine` tells whether the last answer ended one. -/
structure Executive (κ α : Type*) where
  parties : List (List α → Option κ)
  engine : Option (List α → Bool)

/-- The answers end a future of the engine, if it is the party with this index. -/
def Executive.ends {κ α : Type*} (e : Executive κ α) (idx : ℕ) (answers : List α) : Bool :=
  idx == 0 && e.engine.any fun ends => ends answers

inductive Stands where
  /-- Between two calls, or two parties. -/
  | polling
  /-- Between two parts of a call. -/
  | calling
  | asleep
  /-- A party has ended, or a call panicked. -/
  | stopped
  deriving DecidableEq

structure Processor (α : Type*) where
  stands : Stands
  /-- The party that is polled. -/
  idx : ℕ
  /-- `wfe` comes after the pass; not so after the one before an engine is driven. -/
  dozes : Bool
  woke : Bool
  /-- A `sev` to do. -/
  due : Bool
  event : Bool
  answers : ℕ → List α

namespace Processor

variable {ι σ κ α : Type*}

def init (e : Executive κ α) : Processor α :=
  { stands := .polling, idx := if e.engine.isSome then 1 else 0, dozes := e.engine.isNone,
    woke := false, due := false, event := false, answers := fun _ => [] }

variable (p : Processor α)

/-- A part of a call is done. -/
def did (e : Executive κ α) (d : Did ι σ α) : Processor α :=
  match d.part with
  | .answered answer =>
      let answers := p.answers p.idx ++ [answer]
      { p with
        stands := .polling
        woke := (p.woke || d.wakes) && !e.ends p.idx answers
        due := d.signals
        answers := Function.update p.answers p.idx answers }
  | .pending =>
      { p with stands := .polling, idx := p.idx + 1, woke := p.woke || d.wakes, due := d.signals }
  | .goesOn => { p with stands := .calling, woke := p.woke || d.wakes, due := d.signals }

/-- The end of a pass. -/
def passed : Processor α :=
  if p.dozes && !p.woke then { p with stands := .asleep }
  else { p with idx := 0, dozes := true, woke := false }

/-- The end of a `wfe`. -/
def woken : Processor α :=
  { p with stands := .polling, idx := 0, woke := false, event := false }

end Processor

/-- The processors and what they share. -/
structure Dozing (ι σ α : Type*) where
  memory : σ
  cpus : ι → Processor α

namespace Dozing

variable {ι σ κ α : Type*} [DecidableEq ι]

def init (E : ι → Executive κ α) (memory : σ) : Dozing ι σ α :=
  ⟨memory, fun i => .init (E i)⟩

variable (s : Dozing ι σ α)

/-- A step of one processor alone. -/
def set (i : ι) (p : Processor α) : Dozing ι σ α := { s with cpus := Function.update s.cpus i p }

/-- `sev`. -/
def signalled (i : ι) : Dozing ι σ α :=
  { s with
    cpus := fun j => { s.cpus j with event := true, due := (s.cpus j).due && decide (j ≠ i) } }

/-- A part of a call is done. -/
def did (e : Executive κ α) (i : ι) (d : Did ι σ α) : Dozing ι σ α :=
  { memory := d.memory
    cpus := fun j =>
      let p := if j = i then (s.cpus i).did e d else s.cpus j
      { p with event := p.event || d.sets j } }

/-- A part of a call, or its panic. -/
def called (e : Executive κ α) (i : ι) : Option (Did ι σ α) → Dozing ι σ α
  | some d => s.did e i d
  | none => s.set i { s.cpus i with stands := .stopped }

end Dozing

inductive DozingAction (ι : Type*) where
  /-- A step of the processor. -/
  | run (i : ι)
  /-- An interrupt sets the processor's event. -/
  | interrupt (i : ι)
  deriving DecidableEq

variable {ι σ κ α : Type*} [DecidableEq ι]

def dozingNext (C : Calls ι σ κ α) (E : ι → Executive κ α) (s : Dozing ι σ α) :
    DozingAction ι → Option (Dozing ι σ α)
  | .interrupt i => some (s.set i { s.cpus i with event := true })
  | .run i =>
      let p := s.cpus i
      if p.due then some (s.signalled i)
      else match p.stands with
        | .stopped => none
        | .asleep => if p.event then some (s.set i p.woken) else none
        | .polling =>
            match (E i).parties[p.idx]? with
            | none => some (s.set i p.passed)
            | some party =>
                match party (p.answers p.idx) with
                | none => some (s.set i { p with stands := .stopped })
                | some call => some (s.called (E i) i (C.start i s.memory call))
        | .calling =>
            ((E i).parties[p.idx]?.bind fun party => party (p.answers p.idx)).map fun call =>
              s.called (E i) i (C.resume i s.memory call)

def dozingMachine (C : Calls ι σ κ α) (E : ι → Executive κ α) :
    Machine (Dozing ι σ α) (DozingAction ι) := ⟨dozingNext C E⟩

/-- The call that a party makes next. -/
def Dozing.Next (E : ι → Executive κ α) (s : Dozing ι σ α) (i : ι) (j : ℕ) (call : κ) : Prop :=
  ∃ party, (E i).parties[j]? = some party ∧ party ((s.cpus i).answers j) = some call

/-- What a step does. -/
inductive DozingStep (C : Calls ι σ κ α) (E : ι → Executive κ α) (s : Dozing ι σ α) :
    Dozing ι σ α → Prop where
  | interrupted (i : ι) : DozingStep C E s (s.set i { s.cpus i with event := true })
  | signalled {i : ι} (hdue : (s.cpus i).due = true) : DozingStep C E s (s.signalled i)
  | woken {i : ι} (hdue : (s.cpus i).due = false) (hstands : (s.cpus i).stands = .asleep) :
      DozingStep C E s (s.set i (s.cpus i).woken)
  | passed {i : ι} (hdue : (s.cpus i).due = false) (hstands : (s.cpus i).stands = .polling)
      (hlen : (E i).parties.length ≤ (s.cpus i).idx) :
      DozingStep C E s (s.set i (s.cpus i).passed)
  | stopped (i : ι) : DozingStep C E s (s.set i { s.cpus i with stands := .stopped })
  | started {i : ι} {call : κ} {d : Did ι σ α} (hdue : (s.cpus i).due = false)
      (hcall : s.Next E i (s.cpus i).idx call) (hdid : C.start i s.memory call = some d) :
      DozingStep C E s (s.did (E i) i d)
  | resumed {i : ι} {call : κ} {d : Did ι σ α} (hdue : (s.cpus i).due = false)
      (hstands : (s.cpus i).stands = .calling) (hcall : s.Next E i (s.cpus i).idx call)
      (hdid : C.resume i s.memory call = some d) : DozingStep C E s (s.did (E i) i d)

theorem dozingNext_cases {C : Calls ι σ κ α} {E : ι → Executive κ α} {s t : Dozing ι σ α}
    {a : DozingAction ι} (h : dozingNext C E s a = some t) : DozingStep C E s t := by
  cases a with
  | interrupt i => cases h; exact .interrupted i
  | run i =>
      simp only [dozingNext] at h
      split at h
      · rename_i hdue
        cases h
        exact .signalled hdue
      rename_i hdue
      rw [Bool.not_eq_true] at hdue
      split at h
      · cases h
      · rename_i hstands
        obtain ⟨-, h⟩ := Option.ite_none_right_eq_some.mp h
        cases h
        exact .woken hdue hstands
      · rename_i hstands
        split at h
        · rename_i hnone
          cases h
          exact .passed hdue hstands (List.getElem?_eq_none_iff.mp hnone)
        · rename_i party hparty
          split at h
          · cases h
            exact .stopped i
          · rename_i call hcall
            cases h
            cases hdid : C.start i s.memory call with
            | none => exact .stopped i
            | some d => exact .started hdue ⟨party, hparty, hcall⟩ hdid
      · rename_i hstands
        obtain ⟨call, hcall, rfl⟩ := Option.map_eq_some_iff.mp h
        obtain ⟨party, hparty, hcall⟩ := Option.bind_eq_some_iff.mp hcall
        cases hdid : C.resume i s.memory call with
        | none => exact .stopped i
        | some d => exact .resumed hdue hstands ⟨party, hparty, hcall⟩ hdid

/-! ### The laws -/

/-- The processor hears of it itself: it does not sleep after this pass, or not at once. -/
def Did.Heard (d : Did ι σ α) : Prop := d.wakes = true ∨ d.signals = true

/-- Another processor hears of it. -/
def Did.HeardBy (d : Did ι σ α) (i : ι) : Prop := d.signals = true ∨ d.sets i = true

/-- What the memory says.  `Rests` is a call that would be pending, `Within` one that would be
after the part that is done; `Ok` is what the memory always is. -/
structure Heeds (C : Calls ι σ κ α) (Ok : σ → Prop) (Within Rests : ι → σ → κ → Prop) : Prop where
  ok : ∀ i s k d, Ok s → C.start i s k = some d ∨ C.resume i s k = some d → Ok d.memory
  begun : ∀ i s k d, Ok s → C.start i s k = some d → d.part = .goesOn →
    d.Heard ∨ Within i d.memory k
  goes_on : ∀ i s k d, Ok s → Within i s k → C.resume i s k = some d → d.part = .goesOn →
    d.Heard ∨ Within i d.memory k
  started : ∀ i s k d, Ok s → C.start i s k = some d → d.part = .pending →
    d.Heard ∨ Rests i d.memory k
  resumed : ∀ i s k d, Ok s → Within i s k → C.resume i s k = some d → d.part = .pending →
    d.Heard ∨ Rests i d.memory k
  own : ∀ i s k k' d, Ok s → C.start i s k = some d ∨ C.resume i s k = some d → Rests i s k' →
    d.Heard ∨ Rests i d.memory k'
  other : ∀ i j s k k' d, Ok s → i ≠ j → C.start i s k = some d ∨ C.resume i s k = some d →
    Rests j s k' → d.HeardBy j ∨ Rests j d.memory k'
  other_within : ∀ i j s k k' d, Ok s → i ≠ j →
    C.start i s k = some d ∨ C.resume i s k = some d → Within j s k' →
      d.HeardBy j ∨ Within j d.memory k'

/-- The processor polls again, or will hear an event. -/
def Dozing.Flagged (s : Dozing ι σ α) (i : ι) : Prop :=
  (s.cpus i).woke = true ∨ (s.cpus i).event = true ∨ ∃ j, (s.cpus j).due = true

/-- What is known of a processor. -/
structure Vigil (E : ι → Executive κ α) (Within Rests : ι → σ → κ → Prop) (s : Dozing ι σ α)
    (i : ι) : Prop where
  /-- The parties that this pass has polled rest. -/
  polled : (s.cpus i).dozes = true → ∀ j < (s.cpus i).idx,
    ∃ call, s.Next E i j call ∧ (s.Flagged i ∨ Rests i s.memory call)
  calling : (s.cpus i).stands = .calling → ∀ call, s.Next E i (s.cpus i).idx call →
    s.Flagged i ∨ Within i s.memory call
  asleep : (s.cpus i).stands = .asleep → (E i).parties.length ≤ (s.cpus i).idx ∧
    (s.cpus i).dozes = true ∧ (s.cpus i).woke = false ∧ (s.cpus i).due = false

section Vigil

variable {C : Calls ι σ κ α} {E : ι → Executive κ α} {Ok : σ → Prop}
  {Within Rests : ι → σ → κ → Prop} {s t : Dozing ι σ α} {i j : ι}

omit [DecidableEq ι] in
theorem vigil_init (memory : σ) (i : ι) : Vigil E Within Rests (.init E memory) i where
  polled hdozes j hj := by
    have hnone : (E i).engine.isSome = false := by
      rw [← Option.not_isNone, show (E i).engine.isNone = true from hdozes]
      rfl
    simp [Dozing.init, Processor.init, hnone] at hj
  calling h := by cases h
  asleep h := by cases h

theorem set_self (s : Dozing ι σ α) (i : ι) (p : Processor α) : (s.set i p).cpus i = p :=
  Function.update_self ..

theorem set_of_ne (s : Dozing ι σ α) (h : j ≠ i) (p : Processor α) :
    (s.set i p).cpus j = s.cpus j :=
  Function.update_of_ne h ..

/-- A step that takes down no flag of its own processor. -/
theorem Dozing.Flagged.set {p : Processor α} (hwoke : (s.cpus i).woke = true → p.woke = true)
    (hevent : (s.cpus i).event = true → p.event = true)
    (hdue : (s.cpus i).due = true → p.due = true) (h : s.Flagged i) : (s.set i p).Flagged i := by
  have hi := set_self s i p
  rcases h with hw | he | ⟨k, hk⟩
  · exact .inl (by rw [hi]; exact hwoke hw)
  · exact .inr (.inl (by rw [hi]; exact hevent he))
  · by_cases hki : k = i
    · subst hki
      exact .inr (.inr ⟨k, hi.symm ▸ hdue hk⟩)
    · exact .inr (.inr ⟨k, (set_of_ne s hki p).symm ▸ hk⟩)

omit [DecidableEq ι] in
/-- Nothing that the vigil of a processor is about has changed, and no flag went down. -/
theorem Vigil.congr (h : Vigil E Within Rests s i) (hmemory : t.memory = s.memory)
    (hstands : (t.cpus i).stands = (s.cpus i).stands) (hidx : (t.cpus i).idx = (s.cpus i).idx)
    (hdozes : (t.cpus i).dozes = (s.cpus i).dozes) (hwoke : (t.cpus i).woke = (s.cpus i).woke)
    (hdue : (s.cpus i).due = false → (t.cpus i).due = false)
    (hanswers : (t.cpus i).answers = (s.cpus i).answers) (hflag : s.Flagged i → t.Flagged i) :
    Vigil E Within Rests t i := by
  have hnext (j : ℕ) (call : κ) : t.Next E i j call ↔ s.Next E i j call := by
    unfold Dozing.Next
    rw [hanswers]
  refine ⟨fun hd j hj => ?_, fun hc call hcall => ?_, fun ha => ?_⟩
  · obtain ⟨call, hcall, hrest⟩ := h.polled (hdozes ▸ hd) j (hidx ▸ hj)
    exact ⟨call, (hnext j call).mpr hcall, hrest.imp hflag fun hr => hmemory ▸ hr⟩
  · rw [hidx, hnext] at hcall
    exact (h.calling (hstands ▸ hc) call hcall).imp hflag fun hw => hmemory ▸ hw
  · rw [hidx, hdozes, hwoke]
    obtain ⟨hlen, hd, hw, hq⟩ := h.asleep (hstands ▸ ha)
    exact ⟨hlen, hd, hw, hdue hq⟩

/-- Another processor's step that only that processor sees. -/
theorem Vigil.set_of_ne (h : Vigil E Within Rests s j) (hne : j ≠ i) {p : Processor α}
    (hdue : (s.cpus i).due = true → p.due = true) : Vigil E Within Rests (s.set i p) j := by
  have hj := Support.set_of_ne s hne p
  refine h.congr rfl (by rw [hj]) (by rw [hj]) (by rw [hj]) (by rw [hj]) (by rw [hj]; exact id)
    (by rw [hj]) ?_
  rintro (hw | he | ⟨k, hk⟩)
  · exact .inl (hj ▸ hw)
  · exact .inr (.inl (hj ▸ he))
  · by_cases hki : k = i
    · subst hki
      exact .inr (.inr ⟨k, (set_self s k p).symm ▸ hdue hk⟩)
    · exact .inr (.inr ⟨k, (Support.set_of_ne s hki p).symm ▸ hk⟩)

theorem vigil_interrupted (h : ∀ i, Vigil E Within Rests s i) (i j : ι) :
    Vigil E Within Rests (s.set i { s.cpus i with event := true }) j := by
  by_cases hji : j = i
  · subst hji
    have hj := set_self s j { s.cpus j with event := true }
    refine (h j).congr rfl (by rw [hj]) (by rw [hj]) (by rw [hj]) (by rw [hj]) ?_ (by rw [hj])
      fun _ => .inr (.inl (by rw [hj]))
    rw [hj]
    exact id
  · exact (h j).set_of_ne hji id

theorem vigil_signalled (h : ∀ i, Vigil E Within Rests s i) (i j : ι) :
    Vigil E Within Rests (s.signalled i) j := by
  refine (h j).congr rfl rfl rfl rfl rfl (fun hdue => ?_) rfl fun _ => .inr (.inl rfl)
  exact Bool.and_eq_false_iff.mpr (.inl hdue)

omit [DecidableEq ι] in
/-- A new pass has polled nobody. -/
theorem Vigil.fresh (hidx : (t.cpus i).idx = 0) (hstands : (t.cpus i).stands = .polling) :
    Vigil E Within Rests t i where
  polled _ j hj := absurd (hidx ▸ hj) (Nat.not_lt_zero j)
  calling h := by cases hstands.symm.trans h
  asleep h := by cases hstands.symm.trans h

theorem vigil_woken (h : ∀ i, Vigil E Within Rests s i) {i : ι} (hdue : (s.cpus i).due = false)
    (j : ι) : Vigil E Within Rests (s.set i (s.cpus i).woken) j := by
  by_cases hji : j = i
  · subst hji
    have hj := set_self s j (s.cpus j).woken
    exact .fresh (by rw [hj]; rfl) (by rw [hj]; rfl)
  · exact (h j).set_of_ne hji fun hd => by cases hdue.symm.trans hd

theorem vigil_passed (h : ∀ i, Vigil E Within Rests s i) {i : ι} (hdue : (s.cpus i).due = false)
    (hstands : (s.cpus i).stands = .polling) (hlen : (E i).parties.length ≤ (s.cpus i).idx)
    (j : ι) : Vigil E Within Rests (s.set i (s.cpus i).passed) j := by
  by_cases hji : j = i
  swap
  · exact (h j).set_of_ne hji fun hd => by cases hdue.symm.trans hd
  subst hji
  have hj := set_self s j (s.cpus j).passed
  unfold Processor.passed at hj ⊢
  split at hj
  · rename_i hdoze
    rw [if_pos hdoze]
    obtain ⟨hdozes, hwoke⟩ := Bool.and_eq_true_iff.mp hdoze
    rw [Bool.not_eq_true'] at hwoke
    refine ⟨fun _ k hk => ?_, fun hc => ?_, fun _ => ?_⟩
    · rw [hj] at hk
      obtain ⟨call, ⟨party, hparty, hcall⟩, hrest⟩ := (h j).polled hdozes k hk
      exact ⟨call, ⟨party, hparty, by rw [hj]; exact hcall⟩, hrest.imp (.set id id id) id⟩
    · rw [hj] at hc
      cases hc
    · rw [hj]
      exact ⟨hlen, hdozes, hwoke, hdue⟩
  · rename_i hdoze
    rw [if_neg hdoze]
    exact .fresh (by rw [hj]) (by rw [hj]; exact hstands)

theorem vigil_stopped (h : ∀ i, Vigil E Within Rests s i) (i j : ι) :
    Vigil E Within Rests (s.set i { s.cpus i with stands := .stopped }) j := by
  by_cases hji : j = i
  swap
  · exact (h j).set_of_ne hji id
  subst hji
  have hj := set_self s j { s.cpus j with stands := .stopped }
  refine ⟨fun hd m hm => ?_, fun hc => ?_, fun ha => ?_⟩
  · rw [hj] at hd hm
    obtain ⟨call, ⟨party, hparty, hcall⟩, hrest⟩ := (h j).polled hd m hm
    exact ⟨call, ⟨party, hparty, by rw [hj]; exact hcall⟩, hrest.imp (.set id id id) id⟩
  · rw [hj] at hc
    cases hc
  · rw [hj] at ha
    cases ha

/-! ### A part of a call -/

omit [DecidableEq ι] in
theorem due_did (e : Executive κ α) (p : Processor α) (d : Did ι σ α) :
    (p.did e d).due = d.signals := by
  unfold Processor.did
  split <;> rfl

omit [DecidableEq ι] in
theorem dozes_did (e : Executive κ α) (p : Processor α) (d : Did ι σ α) :
    (p.did e d).dozes = p.dozes := by
  unfold Processor.did
  split <;> rfl

omit [DecidableEq ι] in
theorem event_did (e : Executive κ α) (p : Processor α) (d : Did ι σ α) :
    (p.did e d).event = p.event := by
  unfold Processor.did
  split <;> rfl

omit [DecidableEq ι] in
/-- A waker that was called is forgotten only where the engine begins another future. -/
theorem woke_did (e : Executive κ α) {p : Processor α} {d : Did ι σ α}
    (h : p.idx ≠ 0 ∨ ∀ answer, d.part ≠ .answered answer) :
    (p.did e d).woke = (p.woke || d.wakes) := by
  unfold Processor.did
  split
  · rename_i answer hpart
    have hidx := h.resolve_right fun h => h answer hpart
    dsimp only
    rw [Executive.ends, beq_eq_false_iff_ne.mpr hidx, Bool.false_and, Bool.not_false,
      Bool.and_true]
  · rfl
  · rfl

theorem did_self (e : Executive κ α) (i : ι) (d : Did ι σ α) :
    (s.did e i d).cpus i =
      { (s.cpus i).did e d with event := (s.cpus i).event || d.sets i } := by
  simp only [Dozing.did, if_pos, event_did]

theorem did_of_ne (e : Executive κ α) (d : Did ι σ α) (h : j ≠ i) :
    (s.did e i d).cpus j = { s.cpus j with event := (s.cpus j).event || d.sets j } := by
  simp only [Dozing.did, if_neg h]

theorem due_did_self (e : Executive κ α) (i : ι) (d : Did ι σ α) :
    ((s.did e i d).cpus i).due = d.signals := by
  rw [did_self]
  exact due_did ..

/-- A `sev` that another processor has to do stays to be done. -/
theorem due_of_did (e : Executive κ α) {d : Did ι σ α} (hdue : (s.cpus i).due = false)
    (h : ∃ k, (s.cpus k).due = true) : ∃ k, ((s.did e i d).cpus k).due = true := by
  obtain ⟨k, hk⟩ := h
  have hki : k ≠ i := by
    rintro rfl
    cases hdue.symm.trans hk
  exact ⟨k, (did_of_ne e d hki).symm ▸ hk⟩

theorem Dozing.Flagged.did_of_ne (e : Executive κ α) {d : Did ι σ α}
    (hdue : (s.cpus i).due = false) (hne : j ≠ i) (h : s.Flagged j ∨ d.HeardBy j) :
    (s.did e i d).Flagged j := by
  have hj := Support.did_of_ne (s := s) e d hne
  rcases h with (hw | he | hk) | hs | hset
  · exact .inl (hj ▸ hw)
  · exact .inr (.inl (by rw [hj]; exact Bool.or_eq_true_iff.mpr (.inl he)))
  · exact .inr (.inr (due_of_did e hdue hk))
  · exact .inr (.inr ⟨i, (due_did_self e i d).trans hs⟩)
  · exact .inr (.inl (by rw [hj]; exact Bool.or_eq_true_iff.mpr (.inr hset)))

theorem Dozing.Flagged.did (e : Executive κ α) {d : Did ι σ α} (hdue : (s.cpus i).due = false)
    (hkeep : (s.cpus i).idx ≠ 0 ∨ ∀ answer, d.part ≠ .answered answer)
    (h : s.Flagged i ∨ d.Heard) : (s.did e i d).Flagged i := by
  have hwoke : ((s.did e i d).cpus i).woke = ((s.cpus i).woke || d.wakes) := by
    rw [did_self]
    exact woke_did e hkeep
  rcases h with (hw | he | hk) | hw | hs
  · exact .inl (hwoke.trans (Bool.or_eq_true_iff.mpr (.inl hw)))
  · exact .inr (.inl (by rw [did_self]; exact Bool.or_eq_true_iff.mpr (.inl he)))
  · exact .inr (.inr (due_of_did e hdue hk))
  · exact .inl (hwoke.trans (Bool.or_eq_true_iff.mpr (.inr hw)))
  · exact .inr (.inr ⟨i, (due_did_self e i d).trans hs⟩)

/-- What the others know after a part of a call. -/
theorem Vigil.did_of_ne (heeds : Heeds C Ok Within Rests) (h : Vigil E Within Rests s j)
    (hok : Ok s.memory) (hdue : (s.cpus i).due = false) (hne : j ≠ i) {e : Executive κ α} {k : κ}
    {d : Did ι σ α} (hdid : C.start i s.memory k = some d ∨ C.resume i s.memory k = some d) :
    Vigil E Within Rests (s.did e i d) j := by
  have hj := Support.did_of_ne (s := s) e d hne
  have hflag (hf : s.Flagged j ∨ d.HeardBy j) : (s.did e i d).Flagged j :=
    Dozing.Flagged.did_of_ne e hdue hne hf
  have hnext (m : ℕ) (call : κ) : (s.did e i d).Next E j m call ↔ s.Next E j m call := by
    unfold Dozing.Next
    rw [hj]
  refine ⟨fun hd m hm => ?_, fun hc call hcall => ?_, fun ha => ?_⟩
  · rw [hj] at hd hm
    obtain ⟨call, hcall, hrest⟩ := h.polled hd m hm
    refine ⟨call, (hnext m call).mpr hcall, ?_⟩
    rcases hrest with hf | hr
    · exact .inl (hflag (.inl hf))
    · exact (heeds.other i j _ _ _ _ hok (Ne.symm hne) hdid hr).imp (fun hb => hflag (.inr hb)) id
  · rw [hnext, hj] at hcall
    rw [hj] at hc
    rcases h.calling hc call hcall with hf | hw
    · exact .inl (hflag (.inl hf))
    · exact (heeds.other_within i j _ _ _ _ hok (Ne.symm hne) hdid hw).imp
        (fun hb => hflag (.inr hb)) id
  · rw [hj] at ha ⊢
    exact h.asleep ha

/-- What a processor knows after a part of a call: what the call itself has come to is left. -/
theorem Vigil.did (heeds : Heeds C Ok Within Rests) (h : Vigil E Within Rests s i)
    (hok : Ok s.memory) (hdue : (s.cpus i).due = false) {e : Executive κ α} {k : κ}
    {d : Did ι σ α} (hdid : C.start i s.memory k = some d ∨ C.resume i s.memory k = some d)
    (hcall : s.Next E i (s.cpus i).idx k)
    (hpending : d.part = .pending → s.Flagged i ∨ d.Heard ∨ Rests i d.memory k)
    (hgoesOn : d.part = .goesOn → s.Flagged i ∨ d.Heard ∨ Within i d.memory k) :
    Vigil E Within Rests (s.did e i d) i := by
  have hself := did_self (s := s) e i d
  obtain ⟨party, hparty, hmakes⟩ := hcall
  -- a party polled before this one
  have hbefore (hd : (s.cpus i).dozes = true) (m : ℕ) (hm : m < (s.cpus i).idx) :
      ∃ call, (∃ party, (E i).parties[m]? = some party ∧
        party ((s.cpus i).answers m) = some call) ∧
          ((s.did e i d).Flagged i ∨ Rests i d.memory call) := by
    have hidx : (s.cpus i).idx ≠ 0 := Nat.ne_of_gt (Nat.lt_of_le_of_lt (Nat.zero_le m) hm)
    obtain ⟨call, hcall, hrest⟩ := h.polled hd m hm
    refine ⟨call, hcall, ?_⟩
    rcases hrest with hf | hr
    · exact .inl (.did e hdue (.inl hidx) (.inl hf))
    · exact (heeds.own i _ _ _ _ hok hdid hr).imp (fun hb => .did e hdue (.inl hidx) (.inr hb)) id
  have hdozes : ((s.did e i d).cpus i).dozes = (s.cpus i).dozes := by
    rw [hself]
    exact dozes_did ..
  cases hpart : d.part with
  | answered answer =>
      have hp : (s.cpus i).did e d = { s.cpus i with
          stands := .polling
          woke := ((s.cpus i).woke || d.wakes) &&
            !e.ends (s.cpus i).idx ((s.cpus i).answers (s.cpus i).idx ++ [answer])
          due := d.signals
          answers := Function.update (s.cpus i).answers (s.cpus i).idx
            ((s.cpus i).answers (s.cpus i).idx ++ [answer]) } := by
        rw [Processor.did, hpart]
      refine ⟨fun hd m hm => ?_, fun hc => ?_, fun ha => ?_⟩
      · rw [hself, hp] at hm
        obtain ⟨call, ⟨party', hparty', hcall⟩, hrest⟩ := hbefore (hdozes ▸ hd) m hm
        refine ⟨call, ⟨party', hparty', ?_⟩, hrest⟩
        rw [hself, hp]
        dsimp only
        rw [Function.update_of_ne (Nat.ne_of_lt hm)]
        exact hcall
      · rw [hself, hp] at hc
        cases hc
      · rw [hself, hp] at ha
        cases ha
  | pending =>
      have hp : (s.cpus i).did e d = { s.cpus i with
          stands := .polling
          idx := (s.cpus i).idx + 1
          woke := (s.cpus i).woke || d.wakes
          due := d.signals } := by
        rw [Processor.did, hpart]
      have hanswers : ((s.did e i d).cpus i).answers = (s.cpus i).answers := by rw [hself, hp]
      refine ⟨fun hd m hm => ?_, fun hc => ?_, fun ha => ?_⟩
      · rw [hself, hp] at hm
        unfold Dozing.Next
        rw [hanswers]
        rcases Nat.lt_or_eq_of_le (Nat.le_of_lt_succ hm) with hlt | rfl
        · exact hbefore (hdozes ▸ hd) m hlt
        · refine ⟨k, ⟨party, hparty, hmakes⟩, ?_⟩
          have hkeep : ∀ answer, d.part ≠ .answered answer := fun answer ha => by
            cases hpart.symm.trans ha
          rcases hpending hpart with hf | hb | hr
          · exact .inl (.did e hdue (.inr hkeep) (.inl hf))
          · exact .inl (.did e hdue (.inr hkeep) (.inr hb))
          · exact .inr hr
      · rw [hself, hp] at hc
        cases hc
      · rw [hself, hp] at ha
        cases ha
  | goesOn =>
      have hp : (s.cpus i).did e d = { s.cpus i with
          stands := .calling, woke := (s.cpus i).woke || d.wakes, due := d.signals } := by
        rw [Processor.did, hpart]
      have hanswers : ((s.did e i d).cpus i).answers = (s.cpus i).answers := by rw [hself, hp]
      have hidx : ((s.did e i d).cpus i).idx = (s.cpus i).idx := by rw [hself, hp]
      refine ⟨fun hd m hm => ?_, fun _ call hcall => ?_, fun ha => ?_⟩
      · unfold Dozing.Next
        rw [hanswers]
        exact hbefore (hdozes ▸ hd) m (hidx ▸ hm)
      · obtain ⟨party', hparty', hcall⟩ := hcall
        rw [hidx] at hparty' hcall
        rw [hanswers] at hcall
        obtain rfl := Option.some.inj (hparty.symm.trans hparty')
        obtain rfl := Option.some.inj (hmakes.symm.trans hcall)
        have hkeep : ∀ answer, d.part ≠ .answered answer := fun answer ha => by
          cases hpart.symm.trans ha
        rcases hgoesOn hpart with hf | hb | hw
        · exact .inl (.did e hdue (.inr hkeep) (.inl hf))
        · exact .inl (.did e hdue (.inr hkeep) (.inr hb))
        · exact .inr hw
      · rw [hself, hp] at ha
        cases ha

/-- **The step lemma.** -/
theorem vigil_step (heeds : Heeds C Ok Within Rests) (hok : Ok s.memory)
    (h : ∀ i, Vigil E Within Rests s i) (hstep : DozingStep C E s t) :
    Ok t.memory ∧ ∀ i, Vigil E Within Rests t i := by
  cases hstep with
  | interrupted i => exact ⟨hok, vigil_interrupted h i⟩
  | signalled _ => exact ⟨hok, vigil_signalled h _⟩
  | woken hdue _ => exact ⟨hok, vigil_woken h hdue⟩
  | passed hdue hstands hlen => exact ⟨hok, vigil_passed h hdue hstands hlen⟩
  | stopped i => exact ⟨hok, vigil_stopped h i⟩
  | @started i call d hdue hcall hdid =>
      refine ⟨heeds.ok i _ _ _ hok (.inl hdid), fun j => ?_⟩
      by_cases hji : j = i
      · subst hji
        exact (h j).did heeds hok hdue (.inl hdid) hcall
          (fun hp => .inr (heeds.started j _ _ _ hok hdid hp))
          (fun hp => .inr (heeds.begun j _ _ _ hok hdid hp))
      · exact (h j).did_of_ne heeds hok hdue hji (.inl hdid)
  | @resumed i call d hdue hstands hcall hdid =>
      refine ⟨heeds.ok i _ _ _ hok (.inr hdid), fun j => ?_⟩
      by_cases hji : j = i
      · subst hji
        have hwithin := (h j).calling hstands call hcall
        exact (h j).did heeds hok hdue (.inr hdid) hcall
          (fun hp => hwithin.imp id fun hw => heeds.resumed j _ _ _ hok hw hdid hp)
          (fun hp => hwithin.imp id fun hw => heeds.goes_on j _ _ _ hok hw hdid hp)
      · exact (h j).did_of_ne heeds hok hdue hji (.inr hdid)

/-- **The run lemma.** -/
theorem vigil_exec (heeds : Heeds C Ok Within Rests) (memory : σ) (hok : Ok memory)
    {as : List (DozingAction ι)} (h : (dozingMachine C E).exec (.init E memory) as = some s) :
    Ok s.memory ∧ ∀ i, Vigil E Within Rests s i :=
  Machine.exec_keeps (I := fun s => Ok s.memory ∧ ∀ i, Vigil E Within Rests s i)
    (fun _ _ _ hI hnext => vigil_step heeds hI.1 hI.2 (dozingNext_cases hnext))
    ⟨hok, vigil_init memory⟩ h

omit [DecidableEq ι] in
/-- **Nobody sleeps over a call that could go on**: unless an event is set or about to be, every
party of a processor that sleeps rests. -/
theorem Vigil.asleep_rests (h : Vigil E Within Rests s i) (hasleep : (s.cpus i).stands = .asleep)
    {m : ℕ} (hm : m < (E i).parties.length) :
    ∃ call, s.Next E i m call ∧ ((s.cpus i).event = true ∨ (∃ k ≠ i, (s.cpus k).due = true) ∨
      Rests i s.memory call) := by
  obtain ⟨hlen, hdozes, hwoke, hdue⟩ := h.asleep hasleep
  obtain ⟨call, hcall, hrest⟩ := h.polled hdozes m (Nat.lt_of_lt_of_le hm hlen)
  refine ⟨call, hcall, ?_⟩
  rcases hrest with (hw | he | ⟨k, hk⟩) | hr
  · cases hwoke.symm.trans hw
  · exact .inl he
  · refine .inr (.inl ⟨k, ?_, hk⟩)
    rintro rfl
    cases hdue.symm.trans hk
  · exact .inr (.inr hr)

/-- An event that is set or about to be wakes it. -/
theorem Vigil.wakes_up (h : Vigil E Within Rests s i) (hasleep : (s.cpus i).stands = .asleep)
    (hflag : (s.cpus i).event = true ∨ ∃ k ≠ i, (s.cpus k).due = true) :
    ∃ as t, as.length ≤ 2 ∧ (dozingMachine C E).exec s as = some t ∧ t.memory = s.memory ∧
      (t.cpus i).stands = .polling ∧ (t.cpus i).idx = 0 := by
  obtain ⟨-, -, -, hdue⟩ := h.asleep hasleep
  have hwoken (u : Dozing ι σ α) (hu : (u.cpus i).stands = .asleep)
      (hq : (u.cpus i).due = false) (he : (u.cpus i).event = true) :
      (dozingMachine C E).next u (.run i) = some (u.set i (u.cpus i).woken) := by
    simp only [dozingMachine, dozingNext, hq, hu, he, Bool.false_eq_true, if_false, if_true]
  have hself (u : Dozing ι σ α) : ((u.set i (u.cpus i).woken).cpus i).stands = .polling ∧
      ((u.set i (u.cpus i).woken).cpus i).idx = 0 := by
    rw [set_self]
    exact ⟨rfl, rfl⟩
  rcases hflag with he | ⟨k, hki, hk⟩
  · exact ⟨[.run i], _, Nat.le_succ 1,
      Machine.exec_cons.mpr ⟨_, hwoken s hasleep hdue he, rfl⟩, rfl, hself s⟩
  · have hsev : (dozingMachine C E).next s (.run k) = some (s.signalled k) := by
      simp only [dozingMachine, dozingNext, hk, if_true]
    have hq : ((s.signalled k).cpus i).due = false := Bool.and_eq_false_iff.mpr (.inl hdue)
    exact ⟨[.run k, .run i], _, Nat.le_refl 2,
      Machine.exec_cons.mpr ⟨_, hsev, Machine.exec_cons.mpr ⟨_,
        hwoken (s.signalled k) hasleep hq rfl, rfl⟩⟩, rfl, hself _⟩

end Vigil

end HibanaPico.Support
