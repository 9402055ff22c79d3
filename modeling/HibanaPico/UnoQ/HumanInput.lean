import HibanaPico.Support.Runs
import HibanaPico.UnoQ.Protocol

/-!
# Uno Q — Human input

A reader thread sends the lines of the prompt, or of the voice command, through a channel to the
human-input role, whose `next_input` takes the last of them; the LLM role observes it.

* `HumanInputSource.nextInput_of_readable`: `next_input` answers with the last of the lines that
  wait, when all of them can be read.
* `observeHumanInput_isOk`: the LLM role observes whatever the human-input role answers.
* `human_input_iff`: no line takes a role down, and every answer is the last acceptable line typed,
  exactly when every line taken out of the channel is UTF-8.
-/

namespace HibanaPico.UnoQ
open HibanaPico.Support
open HibanaPico.Transport
open HibanaPico.SensorPanel (ProtocolError)

/-! ### The reader -/

inductive HumanInputMode where
  | prompt
  | voice
  | off
  deriving DecidableEq, Repr

/-- `strip_terminal_line_delimiter`. -/
def stripTerminalLineDelimiter (bytes : List U8) : List U8 :=
  let bytes := if bytes.getLast? = some 0x0a then bytes.dropLast else bytes
  if bytes.getLast? = some 0x0d then bytes.dropLast else bytes

/-! ### The source -/

/-- The source of the human-input role: the lines in the channel of its stream, where there is one,
and the latest input. -/
structure HumanInputSource where
  stream : Option (List (List U8))
  latest : HumanInputText

namespace HumanInputSource

/-- `from_env`, with the text of the environment. -/
def fromEnv (mode : HumanInputMode) (text : HumanInputText) : HumanInputSource where
  stream := match mode with
    | .prompt | .voice => some []
    | .off => none
  latest := text

/-- The loop of `next_input` over the lines in the channel: the result, the lines left and the
latest input. -/
def receive (latest : HumanInputText) :
    List (List U8) → Except UnoQRuntimeError Unit × List (List U8) × HumanInputText
  | [] => (.ok (), [], latest)
  | bytes :: rest =>
      match HumanInputText.fromBytes bytes with
      | .ok text => receive text rest
      | .error e => (.error (.localProtocol e), rest, latest)

/-- `next_input`. -/
def nextInput (self : HumanInputSource) :
    Except UnoQRuntimeError HumanInputText × HumanInputSource :=
  match self.stream with
  | none => (.ok self.latest, self)
  | some lines =>
      match receive self.latest lines with
      | (.ok (), rest, latest) => (.ok latest, ⟨some rest, latest⟩)
      | (.error e, rest, latest) => (.error e, ⟨some rest, latest⟩)

/-- The lines that wait in the channel. -/
def waiting (self : HumanInputSource) : List (List U8) := self.stream.getD []

/-- A line sent through the channel. -/
def send (self : HumanInputSource) (line : List U8) : HumanInputSource :=
  { self with stream := self.stream.map (· ++ [line]) }

end HumanInputSource

/-- `observe_human_input`: what the LLM role keeps as the human's request. -/
def observeHumanInput (input : HumanInputText) :
    Except UnoQRuntimeError (Option (List U8)) :=
  if input.len = 0 then .ok none
  else match input.asStr with
    | .ok text => .ok (some text)
    | .error e => .error (.localProtocol e)

/-! ### The machine -/

structure HumanInput where
  mode : HumanInputMode
  source : HumanInputSource
  /-- The reader thread is in its loop. -/
  reading : Bool
  /-- The human-input role, and the LLM role, have met no error. -/
  running : Bool
  observing : Bool
  humanRequest : Option (List U8)
  /-- The lines read so far, without their delimiters. -/
  typed : List (List U8)
  /-- The answers of `next_input`, each with the lines read before it. -/
  answers : List (Except UnoQRuntimeError HumanInputText × List (List U8))

inductive HumanInputAction where
  /-- The reader reads a line. -/
  | line (bytes : List U8)
  /-- The reader meets the end of its input, or an error. -/
  | close
  | nextInput
  | observe (input : HumanInputText)
  deriving DecidableEq

namespace HumanInput

def init (mode : HumanInputMode) (text : HumanInputText) : HumanInput where
  mode := mode
  source := .fromEnv mode text
  reading := mode != .off
  running := true
  observing := true
  humanRequest := none
  typed := []
  answers := []

/-- The body of the reader's loop in `spawn_prompt_human_input` and `spawn_voice_human_input`. -/
def readLine (s : HumanInput) (bytes : List U8) : HumanInput :=
  let line := stripTerminalLineDelimiter bytes
  let s := { s with typed := s.typed ++ [line] }
  if humanInputTextBytes < line.length then s
  -- the channel is closed once its receiver is gone with the role
  else if s.running then { s with source := s.source.send line }
  else { s with reading := false }

/-- `next_input`, whose error ends the role. -/
def takeInput (s : HumanInput) : HumanInput :=
  let (answer, source) := s.source.nextInput
  { s with
    source := source
    running := answer.isOk
    answers := s.answers ++ [(answer, s.typed)] }

/-- `observe_human_input`, whose error ends the role. -/
def observeInput (s : HumanInput) (input : HumanInputText) : HumanInput :=
  match observeHumanInput input with
  | .ok request => { s with humanRequest := request }
  | .error _ => { s with observing := false }

def next (s : HumanInput) : HumanInputAction → Option HumanInput
  | .line bytes =>
      -- at the prompt, nothing read is the end of the input
      if s.reading ∧ ¬ (s.mode = .prompt ∧ bytes = []) then some (s.readLine bytes) else none
  | .close => if s.reading then some { s with reading := false } else none
  | .nextInput => if s.running then some s.takeInput else none
  | .observe input => if s.observing then some (s.observeInput input) else none

end HumanInput

def humanInputMachine : Machine HumanInput HumanInputAction := ⟨HumanInput.next⟩

/-! ### What the role should answer -/

/-- The input after a line: the line, where it is acceptable, and else what it was. -/
def acceptLine (latest : HumanInputText) (line : List U8) : HumanInputText :=
  match HumanInputText.fromBytes line with
  | .ok text => text
  | .error _ => latest

/-- The last acceptable line. -/
def lastInput (initial : HumanInputText) (lines : List (List U8)) : HumanInputText :=
  lines.foldl acceptLine initial

/-- No role is down, the latest input is the last acceptable line of those that do not wait any
more, and so was every answer of all lines typed before it. -/
structure HumanInput.Unharmed (s : HumanInput) (initial : HumanInputText) : Prop where
  running : s.running = true
  observing : s.observing = true
  latest_eq : ∃ taken, s.typed.filter (·.length ≤ humanInputTextBytes) = taken ++ s.source.waiting ∧
    s.source.latest = lastInput initial taken
  answers_eq : ∀ answer ∈ s.answers, answer.1 = .ok (lastInput initial answer.2)

/-- A `next_input` finds only UTF-8 in the channel. -/
def HumanInput.Readable (s : HumanInput) (a : HumanInputAction) : Prop :=
  a = .nextInput → ∀ line ∈ s.source.waiting, fromUtf8 line = true

instance (s : HumanInput) (a : HumanInputAction) : Decidable (s.Readable a) :=
  inferInstanceAs (Decidable (_ → _))

/-! ### What is accepted -/

theorem HumanInputText.fromBytes_isOk_iff (bytes : List U8) :
    (HumanInputText.fromBytes bytes).isOk = true ↔
      bytes.length ≤ humanInputTextBytes ∧ fromUtf8 bytes = true := by
  unfold HumanInputText.fromBytes
  split
  · rename_i hlong
    split
    · rename_i hutf8
      exact iff_of_true rfl ⟨hlong, hutf8⟩
    · rename_i hutf8
      exact iff_of_false Bool.false_ne_true fun h => hutf8 h.2
  · rename_i hlong
    exact iff_of_false Bool.false_ne_true fun h => hlong h.1

/-- A line too long leaves the latest input unchanged. -/
theorem acceptLine_long (latest : HumanInputText) {line : List U8}
    (h : humanInputTextBytes < line.length) : acceptLine latest line = latest := by
  unfold acceptLine
  split
  · rename_i text htext
    have hok := (HumanInputText.fromBytes_isOk_iff line).mp (by rw [htext]; rfl)
    exact absurd hok.1 (Nat.not_le.mpr h)
  · rfl

/-- The lines too long make no difference. -/
theorem lastInput_filter (initial : HumanInputText) (lines : List (List U8)) :
    lastInput initial (lines.filter (·.length ≤ humanInputTextBytes)) =
      lastInput initial lines := by
  induction lines generalizing initial with
  | nil => rfl
  | cons line lines ih =>
      by_cases hshort : line.length ≤ humanInputTextBytes
      · rw [List.filter_cons_of_pos (by simpa using hshort)]
        exact ih _
      · rw [List.filter_cons_of_neg (by simpa using hshort), ih]
        show _ = lastInput (acceptLine initial line) lines
        rw [acceptLine_long initial (Nat.not_le.mp hshort)]

theorem lastInput_append (initial : HumanInputText) (before after : List (List U8)) :
    lastInput initial (before ++ after) = lastInput (lastInput initial before) after :=
  List.foldl_append

/-- The human's text is always observed. -/
theorem observeHumanInput_isOk (input : HumanInputText) :
    (observeHumanInput input).isOk = true := by
  unfold observeHumanInput
  split
  · rfl
  · rw [input.asStr_eq]
    rfl

namespace HumanInputSource

theorem receive_of_readable {latest : HumanInputText} {lines : List (List U8)}
    (h : ∀ line ∈ lines, (HumanInputText.fromBytes line).isOk = true) :
    receive latest lines = (.ok (), [], lastInput latest lines) := by
  induction lines generalizing latest with
  | nil => rfl
  | cons line lines ih =>
      obtain ⟨hline, hrest⟩ := List.forall_mem_cons.mp h
      cases htext : HumanInputText.fromBytes line with
      | error e =>
          rw [htext] at hline
          cases hline
      | ok text =>
          simp only [receive, htext, ih hrest, lastInput, List.foldl_cons, acceptLine]

/-- A line that is not readable ends the loop. -/
theorem receive_of_not_readable (latest : HumanInputText) {lines : List (List U8)}
    (h : ¬ ∀ line ∈ lines, (HumanInputText.fromBytes line).isOk = true) :
    ∃ e rest, receive latest lines = (.error e, rest) := by
  induction lines generalizing latest with
  | nil => simp at h
  | cons line lines ih =>
      cases htext : HumanInputText.fromBytes line with
      | error e => exact ⟨.localProtocol e, (lines, latest), by simp only [receive, htext]⟩
      | ok text =>
          simp only [receive, htext]
          refine ih text fun hrest => h (List.forall_mem_cons.mpr ⟨?_, hrest⟩)
          rw [htext]
          rfl

/-- Every line that waits is readable: the answer is the last of them. -/
theorem nextInput_of_readable {self : HumanInputSource}
    (h : ∀ line ∈ self.waiting, (HumanInputText.fromBytes line).isOk = true) :
    self.nextInput = (.ok (lastInput self.latest self.waiting),
      { stream := self.stream.map fun _ => [], latest := lastInput self.latest self.waiting }) := by
  cases self with
  | mk stream latest =>
      cases stream with
      | none => rfl
      | some lines =>
          have hreceive : receive latest lines = (.ok (), [], lastInput latest lines) :=
            receive_of_readable h
          simp only [nextInput, hreceive, waiting, Option.getD_some, Option.map_some]

/-- A line that waits is not readable: the answer is an error. -/
theorem nextInput_of_not_readable {self : HumanInputSource}
    (h : ¬ ∀ line ∈ self.waiting, (HumanInputText.fromBytes line).isOk = true) :
    ∃ e rest latest, self.nextInput = (.error e, ⟨some rest, latest⟩) := by
  cases self with
  | mk stream latest =>
      cases stream with
      | none => simp [waiting] at h
      | some lines =>
          obtain ⟨e, rest, hreceive⟩ := receive_of_not_readable latest h
          change receive latest lines = _ at hreceive
          exact ⟨e, rest.1, rest.2, by simp only [nextInput, hreceive]⟩

end HumanInputSource

/-! ### The runs -/

/-- While the role runs: the lines typed that are not too long were taken or wait, and the latest
input is the last of those taken.  Without a stream nothing is read. -/
structure HumanInput.Inv (s : HumanInput) (initial : HumanInputText) : Prop where
  reading : s.source.stream = none → s.reading = false
  latest_eq : s.running = true → ∃ taken,
    s.typed.filter (·.length ≤ humanInputTextBytes) = taken ++ s.source.waiting ∧
      s.source.latest = lastInput initial taken

namespace HumanInput

variable {s t : HumanInput} {initial : HumanInputText}

theorem inv_init (mode : HumanInputMode) (text : HumanInputText) :
    (init mode text).Inv text where
  reading h := by
    cases mode with
    | prompt => cases h
    | voice => cases h
    | off => rfl
  latest_eq _ := ⟨[], by cases mode <;> rfl, rfl⟩

theorem Inv.readLine (I : s.Inv initial) (hreading : s.reading = true) (bytes : List U8) :
    (s.readLine bytes).Inv initial := by
  unfold HumanInput.readLine
  by_cases hlong : humanInputTextBytes < (stripTerminalLineDelimiter bytes).length
  · simp only [if_pos hlong]
    refine ⟨I.reading, fun hrunning => ?_⟩
    obtain ⟨taken, htyped, hlatest⟩ := I.latest_eq hrunning
    refine ⟨taken, ?_, hlatest⟩
    show (s.typed ++ [_]).filter _ = _
    rw [List.filter_append, List.filter_singleton, htyped]
    simp [Nat.not_le.mpr hlong]
  · simp only [if_neg hlong]
    by_cases hrunning : s.running = true
    · simp only [if_pos hrunning]
      obtain ⟨taken, htyped, hlatest⟩ := I.latest_eq hrunning
      cases hstream : s.source.stream with
      | none =>
          rw [I.reading hstream] at hreading
          cases hreading
      | some lines =>
          refine ⟨fun h => ?_, fun _ => ⟨taken, ?_, hlatest⟩⟩
          · simp [HumanInputSource.send, hstream] at h
          · show (s.typed ++ [_]).filter _ = _
            rw [List.filter_append, List.filter_singleton, htyped]
            simp [Nat.not_lt.mp hlong, HumanInputSource.send, HumanInputSource.waiting, hstream]
    · simp only [if_neg hrunning]
      exact ⟨fun _ => rfl, fun h => absurd h hrunning⟩

/-- While the role runs, no line that waits is too long. -/
theorem Inv.readable_iff (I : s.Inv initial) (hrunning : s.running = true) :
    (∀ line ∈ s.source.waiting, (HumanInputText.fromBytes line).isOk = true) ↔
      ∀ line ∈ s.source.waiting, fromUtf8 line = true := by
  obtain ⟨taken, htyped, -⟩ := I.latest_eq hrunning
  refine forall₂_congr fun line hline => ?_
  have hmem : line ∈ s.typed.filter (·.length ≤ humanInputTextBytes) := by
    rw [htyped]
    exact List.mem_append_right _ hline
  have hshort : line.length ≤ humanInputTextBytes := by simpa using (List.mem_filter.mp hmem).2
  rw [HumanInputText.fromBytes_isOk_iff]
  exact and_iff_right hshort

/-- The last of the lines that wait is the last of all lines typed. -/
theorem Inv.lastInput_waiting (I : s.Inv initial) (hrunning : s.running = true) :
    lastInput s.source.latest s.source.waiting = lastInput initial s.typed := by
  obtain ⟨taken, htyped, hlatest⟩ := I.latest_eq hrunning
  rw [hlatest, ← lastInput_append, ← htyped, lastInput_filter]

theorem Inv.takeInput (I : s.Inv initial) (hrunning : s.running = true) :
    s.takeInput.Inv initial := by
  by_cases hreadable : ∀ line ∈ s.source.waiting, (HumanInputText.fromBytes line).isOk = true
  · have hnext := HumanInputSource.nextInput_of_readable hreadable
    unfold HumanInput.takeInput
    simp only [hnext]
    refine ⟨fun h => I.reading (by simpa using h),
      fun _ => ⟨s.typed.filter (·.length ≤ humanInputTextBytes), ?_, ?_⟩⟩
    · cases s.source.stream <;> simp [HumanInputSource.waiting]
    · show lastInput s.source.latest s.source.waiting = _
      rw [I.lastInput_waiting hrunning, lastInput_filter]
  · obtain ⟨e, rest, latest, hnext⟩ := HumanInputSource.nextInput_of_not_readable hreadable
    unfold HumanInput.takeInput
    simp only [hnext]
    refine ⟨fun hnone => ?_, fun hrunning => ?_⟩
    · cases hnone
    · cases hrunning

theorem observeInput_eq (s : HumanInput) (input : HumanInputText) :
    ∃ request, s.observeInput input = { s with humanRequest := request } := by
  have hok := observeHumanInput_isOk input
  unfold observeInput
  cases hrequest : observeHumanInput input with
  | ok request => exact ⟨request, rfl⟩
  | error e =>
      rw [hrequest] at hok
      cases hok

/-- What a step does, and when it can be taken. -/
theorem next_cases {a : HumanInputAction} (h : s.next a = some t) :
    (∃ bytes, a = .line bytes ∧ s.reading = true ∧ t = s.readLine bytes) ∨
    (a = .close ∧ t = { s with reading := false }) ∨
    (a = .nextInput ∧ s.running = true ∧ t = s.takeInput) ∨
    ∃ input request, a = .observe input ∧ t = { s with humanRequest := request } := by
  cases a with
  | line bytes =>
      obtain ⟨hreading, ht⟩ := Option.ite_none_right_eq_some.mp h
      exact .inl ⟨bytes, rfl, hreading.1, (Option.some.inj ht).symm⟩
  | close =>
      obtain ⟨-, ht⟩ := Option.ite_none_right_eq_some.mp h
      exact .inr (.inl ⟨rfl, (Option.some.inj ht).symm⟩)
  | nextInput =>
      obtain ⟨hrunning, ht⟩ := Option.ite_none_right_eq_some.mp h
      exact .inr (.inr (.inl ⟨rfl, hrunning, (Option.some.inj ht).symm⟩))
  | observe input =>
      obtain ⟨-, ht⟩ := Option.ite_none_right_eq_some.mp h
      obtain ⟨request, hrequest⟩ := s.observeInput_eq input
      exact .inr (.inr (.inr ⟨input, request, rfl, by rw [← hrequest, Option.some.inj ht]⟩))

theorem Inv.step (I : s.Inv initial) {a : HumanInputAction} (h : s.next a = some t) :
    t.Inv initial := by
  obtain ⟨bytes, rfl, hreading, rfl⟩ | ⟨rfl, rfl⟩ | ⟨rfl, hrunning, rfl⟩ |
    ⟨input, request, rfl, rfl⟩ := next_cases h
  · exact I.readLine hreading bytes
  · exact ⟨fun _ => rfl, I.latest_eq⟩
  · exact I.takeInput hrunning
  · exact ⟨I.reading, I.latest_eq⟩

/-- No role is down, and every answer was the last acceptable line typed before it. -/
structure Up (s : HumanInput) (initial : HumanInputText) : Prop where
  running : s.running = true
  observing : s.observing = true
  answers_eq : ∀ answer ∈ s.answers, answer.1 = .ok (lastInput initial answer.2)

/-- A line read takes no role down. -/
theorem readLine_eq (s : HumanInput) (bytes : List U8) :
    (s.readLine bytes).running = s.running ∧ (s.readLine bytes).observing = s.observing ∧
      (s.readLine bytes).answers = s.answers := by
  unfold readLine
  by_cases hlong : humanInputTextBytes < (stripTerminalLineDelimiter bytes).length
  · simp only [if_pos hlong, and_self]
  · by_cases hrunning : s.running = true
    · simp only [if_neg hlong, if_pos hrunning, and_self]
    · simp only [if_neg hlong, if_neg hrunning, and_self]

theorem up_readLine_iff (bytes : List U8) : (s.readLine bytes).Up initial ↔ s.Up initial := by
  obtain ⟨hrunning, hobserving, hanswers⟩ := s.readLine_eq bytes
  constructor
  · rintro ⟨h₁, h₂, h₃⟩
    exact ⟨hrunning ▸ h₁, hobserving ▸ h₂, hanswers ▸ h₃⟩
  · rintro ⟨h₁, h₂, h₃⟩
    exact ⟨hrunning.trans h₁, hobserving.trans h₂, by rw [hanswers]; exact h₃⟩

/-- **One answer.**  `next_input` keeps the role up exactly when it finds only UTF-8. -/
theorem up_takeInput_iff (I : s.Inv initial) (hrunning : s.running = true) :
    s.takeInput.Up initial ↔
      s.Up initial ∧ ∀ line ∈ s.source.waiting, fromUtf8 line = true := by
  rw [← I.readable_iff hrunning]
  by_cases hreadable : ∀ line ∈ s.source.waiting, (HumanInputText.fromBytes line).isOk = true
  · have hnext := HumanInputSource.nextInput_of_readable hreadable
    rw [I.lastInput_waiting hrunning] at hnext
    unfold takeInput
    simp only [hnext]
    constructor
    · rintro ⟨-, hobserving, hanswers⟩
      exact ⟨⟨hrunning, hobserving, fun answer h => hanswers answer (List.mem_append_left _ h)⟩,
        hreadable⟩
    · rintro ⟨⟨-, hobserving, hanswers⟩, -⟩
      refine ⟨rfl, hobserving, fun answer h => ?_⟩
      rcases List.mem_append.mp h with hold | hnew
      · exact hanswers answer hold
      · rw [List.mem_singleton.mp hnew]
  · obtain ⟨e, rest, latest, hnext⟩ := HumanInputSource.nextInput_of_not_readable hreadable
    refine iff_of_false (fun hup => ?_) fun h => hreadable h.2
    have hdown := hup.running
    unfold takeInput at hdown
    simp only [hnext] at hdown
    cases hdown

theorem up_step_iff (I : s.Inv initial) {a : HumanInputAction} (h : s.next a = some t) :
    t.Up initial ↔ s.Up initial ∧ s.Readable a := by
  obtain ⟨bytes, rfl, -, rfl⟩ | ⟨rfl, rfl⟩ | ⟨rfl, hrunning, rfl⟩ | ⟨input, request, rfl, rfl⟩ :=
    next_cases h
  · rw [up_readLine_iff]
    exact (and_iff_left fun h => by cases h).symm
  · exact ⟨fun hup => ⟨⟨hup.running, hup.observing, hup.answers_eq⟩, fun h => by cases h⟩,
      fun ⟨hup, _⟩ => ⟨hup.running, hup.observing, hup.answers_eq⟩⟩
  · rw [up_takeInput_iff I hrunning]
    exact and_congr_right fun _ => ⟨fun h _ => h, fun h => h rfl⟩
  · exact ⟨fun hup => ⟨⟨hup.running, hup.observing, hup.answers_eq⟩, fun h => by cases h⟩,
      fun ⟨hup, _⟩ => ⟨hup.running, hup.observing, hup.answers_eq⟩⟩

theorem Inv.unharmed_iff (I : s.Inv initial) : s.Unharmed initial ↔ s.Up initial :=
  ⟨fun h => ⟨h.running, h.observing, h.answers_eq⟩,
    fun h => ⟨h.running, h.observing, I.latest_eq h.running, h.answers_eq⟩⟩

theorem up_init (mode : HumanInputMode) (text : HumanInputText) : (init mode text).Up text :=
  ⟨rfl, rfl, fun _ h => by cases h⟩

end HumanInput

/-- **Human input.**  After any lines, answers and observations in any order, at the prompt or from
the voice command: no line has taken a role down and every answer was the last acceptable line,
exactly when every `next_input` found only UTF-8 in the channel. -/
theorem human_input_iff {mode : HumanInputMode} {text : HumanInputText}
    {actions : List HumanInputAction} {s : HumanInput}
    (h : humanInputMachine.exec (.init mode text) actions = some s) :
    s.Unharmed text ↔ humanInputMachine.Along HumanInput.Readable (.init mode text) actions := by
  have hkeeps : ∀ (s : HumanInput) (a : HumanInputAction) (t : HumanInput), s.Inv text →
      humanInputMachine.next s a = some t → t.Inv text := fun _ _ _ I hnext => I.step hnext
  have I : s.Inv text := Machine.exec_keeps hkeeps (HumanInput.inv_init mode text) h
  rw [I.unharmed_iff, Machine.exec_iff_along_of_invariant hkeeps
    (fun _ _ _ I hnext => HumanInput.up_step_iff I hnext) (HumanInput.inv_init mode text) h]
  exact and_iff_right (HumanInput.up_init mode text)

/-! ### Two runs -/

/-- Lines in UTF-8, one of them too long, each followed by an answer that is observed. -/
def greeting : List HumanInputAction :=
  [.line [0x68, 0x69, 0x0d, 0x0a], .nextInput, .observe .empty,
    .line (List.replicate 97 0x78), .nextInput, .line [0xc3, 0xa9, 0x0a], .close, .nextInput]

/-- A line that is not UTF-8. -/
def garbled : List HumanInputAction := [.line [0xff, 0x0a], .nextInput]

theorem human_input_iff_greeting :
    ∃ s, humanInputMachine.exec (.init .prompt .empty) greeting = some s ∧ s.Unharmed .empty := by
  have hrun : (humanInputMachine.exec (.init .prompt .empty) greeting).isSome = true := by
    decide +kernel
  obtain ⟨s, hs⟩ := Option.isSome_iff_exists.mp hrun
  exact ⟨s, hs, (human_input_iff hs).mpr (by decide +kernel)⟩

/-- A line that is not UTF-8 ends the role. -/
theorem human_input_garbled : ¬ ∀ mode text actions s,
    humanInputMachine.exec (.init mode text) actions = some s → s.Unharmed text := by
  intro H
  have hrun : ((humanInputMachine.exec (.init .prompt .empty) garbled).map (·.running)) =
      some false := by decide +kernel
  obtain ⟨s, hs, hdown⟩ := Option.map_eq_some_iff.mp hrun
  have hup := (H _ _ _ _ hs).running
  rw [hdown] at hup
  cases hup

end HibanaPico.UnoQ
