import HibanaPico.UnoQ.LlmCommand

/-!
# Uno Q — Whole lines

What a server or an external command puts in the shell's standard input is to be a line.  The buffer
of 96 bytes takes the start of a line that it does not hold together with its newline.

* `terminalInput_eq_some_iff`: the line that is copied is the first that is not blank.
* `attempts_result_iff`: a command is passed on by the first attempt whose copy the phase admits.
* `whole_line_iff`: what is passed on is the whole line and its newline exactly when no line that is
  passed on has 96 bytes or more.
-/

namespace HibanaPico.UnoQ
open HibanaPico.Transport
open HibanaPico.Trimming

/-! ### An external command -/

/-- How many bytes a sequence has that starts with the byte, and zero where none does. -/
def utf8CharWidth (b : U8) : ℕ :=
  if b < 0x80#8 then 1
  else if b < 0xc2#8 then 0
  else if b < 0xe0#8 then 2
  else if b < 0xf0#8 then 3
  else if b < 0xf5#8 then 4
  else 0

/-- A byte that goes on with a sequence. -/
def isContinuation (b : U8) : Bool := decide (0x80#8 ≤ b ∧ b ≤ 0xbf#8)

/-- The second byte of a sequence that starts with `first`. -/
def isSecond (first b : U8) : Bool :=
  isContinuation b && decide ((first = 0xe0#8 → 0xa0#8 ≤ b) ∧ (first = 0xed#8 → b ≤ 0x9f#8) ∧
    (first = 0xf0#8 → 0x90#8 ≤ b) ∧ (first = 0xf4#8 → b ≤ 0x8f#8))

/-- The bytes that go on with the sequence of `first`, as far as they do. -/
def sequenceTail (first : U8) : List U8 → List U8
  | [] => []
  | b :: rest =>
      if 2 ≤ utf8CharWidth first ∧ isSecond first b then
        b :: (rest.take (utf8CharWidth first - 2)).takeWhile isContinuation
      else []

/-- The values that the first byte of a sequence of so many others can have. -/
def leadValues : ℕ → ℕ
  | 0 => 128
  | 1 => 32
  | 2 => 16
  | _ => 8

/-- The character of a sequence. -/
def sequenceChar (first : U8) (tail : List U8) : Char :=
  Char.ofNat (tail.foldl (fun value b => value * 64 + b.toNat % 64)
    (first.toNat % leadValues tail.length))

/-- `String::from_utf8_lossy`: U+FFFD stands for bytes that are no sequence, as many of them at a
time as start one. -/
def fromUtf8Lossy : List U8 → List Char
  | [] => []
  | first :: rest =>
      let tail := sequenceTail first rest
      let ch := if tail.length + 1 = utf8CharWidth first then sequenceChar first tail else '\ufffd'
      ch :: fromUtf8Lossy (rest.drop tail.length)
  termination_by bytes => bytes.length
  decreasing_by
    rw [List.length_cons, List.length_drop]
    omega

/-- `LocalLlmExternalCommand::next_command`, where `run` is what its `run` returns. -/
def externalNextCommand (run : Except UnoQRuntimeError (List U8)) :
    Except UnoQRuntimeError (List U8) :=
  match run with
  | .error e => .error e
  | .ok output =>
      match copyLlmTerminalInputFromOutput (fromUtf8Lossy output) with
      | some command => .ok command
      | none => .error .runtimeViolation

/-! ### The line of a response -/

/-- A line that is skipped. -/
def Skipped (line : List Char) : Prop :=
  trimBy isWhitespace line = [] ∨ trimBy isWhitespace line = endOfText

/-- The first line of the response that is not skipped is `input`, but for blanks around it. -/
def FirstLine (response input : List Char) : Prop :=
  ∃ before line after, lines response = before ++ line :: after ∧
    (∀ other ∈ before, Skipped other) ∧ ¬ Skipped line ∧ trimBy isWhitespace line = input

/-- The command is the first line of the response, with its newline. -/
def IsWholeLine (response : List Char) (command : List U8) : Prop :=
  ∃ input, FirstLine response input ∧ command = asBytes input ++ [newline]

theorem terminalInput_eq_some_iff {response input : List Char} :
    terminalInput response = some input ↔ FirstLine response input := by
  rw [terminalInput, List.find?_map, Option.map_eq_some_iff]
  constructor
  · rintro ⟨line, found, rfl⟩
    obtain ⟨kept, before, after, split, skipped⟩ := List.find?_eq_some_iff_append.mp found
    refine ⟨before, line, after, split, fun other mem => ?_, ?_, rfl⟩
    · have := skipped other mem
      simp only [Function.comp_apply, Bool.not_eq_true', decide_eq_false_iff_not, not_and_or,
        not_not] at this
      exact this
    · simpa [Skipped] using kept
  · rintro ⟨before, line, after, split, skipped, kept, rfl⟩
    refine ⟨line, List.find?_eq_some_iff_append.mpr ⟨?_, before, after, split, fun other mem => ?_⟩,
      rfl⟩
    · simpa [Skipped] using kept
    · have := skipped other mem
      simp only [Function.comp_apply, Bool.not_eq_true', decide_eq_false_iff_not, not_and_or,
        not_not]
      exact this

/-- A response has one first line. -/
theorem FirstLine.eq {response input other : List Char} (h : FirstLine response input)
    (h' : FirstLine response other) : input = other :=
  Option.some.inj ((terminalInput_eq_some_iff.mpr h).symm.trans (terminalInput_eq_some_iff.mpr h'))

/-- What is copied of a response is its first line, whole or cut. -/
theorem copy_eq_some_iff {response : List Char} {command : List U8} :
    copyLlmTerminalInputFromOutput response = some command ↔ ∃ input, FirstLine response input ∧
      ((asBytes input).length < localLlmCommandBytes ∧ command = asBytes input ++ [newline] ∨
        localLlmCommandBytes ≤ (asBytes input).length ∧
          command = (asBytes input).take localLlmCommandBytes) := by
  rw [copyLlmTerminalInputFromOutput, Option.bind_eq_some_iff]
  refine exists_congr fun input => ?_
  rw [terminalInput_eq_some_iff]
  refine and_congr_right fun first => ?_
  rw [copyTerminalInput_eq_some_iff]
  refine and_iff_right fun empty => ?_
  obtain ⟨before, line, after, -, -, kept, rfl⟩ := first
  refine kept (.inl ?_)
  rw [asBytes, List.flatMap_eq_nil_iff] at empty
  refine List.eq_nil_iff_forall_not_mem.mpr fun c mem => ?_
  have := congrArg List.length (empty c mem)
  rw [List.length_map, String.length_utf8EncodeChar] at this
  exact absurd this c.utf8Size_pos.ne'

/-- A line that is cut is no whole line. -/
theorem not_isWholeLine_of_long {response input : List Char} (first : FirstLine response input)
    (long : localLlmCommandBytes ≤ (asBytes input).length) :
    ¬ IsWholeLine response ((asBytes input).take localLlmCommandBytes) := by
  rintro ⟨other, first', same⟩
  obtain rfl := first.eq first'
  have length := congrArg List.length same
  rw [List.length_take, List.length_append, List.length_singleton, min_eq_left long] at length
  omega

/-! ### The attempts of the server -/

namespace LocalLlmServer

variable {server : LocalLlmServer} {phase : U8} {attempt last left : ℕ}
  {transcript retried : List U8}

/-- The attempt that follows attempts whose commands the phase does not admit, and the transcript
that it is made with. -/
inductive Retries (server : LocalLlmServer) (phase : U8) : ℕ → List U8 → ℕ → List U8 → Prop
  | refl (attempt : ℕ) (transcript : List U8) :
      Retries server phase attempt transcript attempt transcript
  | more {attempt last : ℕ} {transcript retried : List U8} {response : List Char}
      {command : List U8} (answer : server.respond attempt transcript = .ok response)
      (copied : copyLlmTerminalInputFromOutput response = some command)
      (rejected : ¬ admittedForPhase phase command)
      (rest : Retries server phase (attempt + 1) (appendLocalLlmShellError transcript command)
        last retried) : Retries server phase attempt transcript last retried

/-- The command is copied out of the answer to this attempt, and the phase admits it. -/
structure Accepts (server : LocalLlmServer) (phase : U8) (attempt : ℕ) (transcript : List U8)
    (response : List Char) (command : List U8) : Prop where
  answer : server.respond attempt transcript = .ok response
  copied : copyLlmTerminalInputFromOutput response = some command
  admitted : admittedForPhase phase command

theorem Retries.le (h : Retries server phase attempt transcript last retried) : attempt ≤ last := by
  induction h with
  | refl => exact le_rfl
  | more _ _ _ _ ih => omega

theorem attempts_of_accepts {response : List Char} {command : List U8}
    (h : server.Accepts phase attempt transcript response command) :
    server.attempts phase (left + 1) attempt transcript = ⟨[(response, command)], .ok command⟩ := by
  rw [attempts, h.answer]
  dsimp only
  rw [h.copied]
  exact if_pos h.admitted

theorem attempts_of_rejected {response : List Char} {command : List U8}
    (answer : server.respond attempt transcript = .ok response)
    (copied : copyLlmTerminalInputFromOutput response = some command)
    (rejected : ¬ admittedForPhase phase command) :
    server.attempts phase (left + 1) attempt transcript =
      ⟨(response, command) :: (server.attempts phase left (attempt + 1)
        (appendLocalLlmShellError transcript command)).puts,
      (server.attempts phase left (attempt + 1)
        (appendLocalLlmShellError transcript command)).result⟩ := by
  rw [attempts, answer]
  dsimp only
  rw [copied]
  exact if_neg rejected

/-- **The attempts.**  A command is passed on by the attempt that accepts it, if it is among those
that are left, and the last of what the call put in the buffer is that attempt's. -/
theorem attempts_result_iff {command : List U8} :
    (server.attempts phase left attempt transcript).result = .ok command ↔
      ∃ last retried response, Retries server phase attempt transcript last retried ∧
        last < attempt + left ∧ server.Accepts phase last retried response command := by
  induction left generalizing attempt transcript with
  | zero =>
      refine iff_of_false (fun h => by cases h) ?_
      rintro ⟨last, retried, response, retries, room, -⟩
      exact absurd retries.le (by omega)
  | succ left ih =>
      constructor
      · intro h
        rw [attempts] at h
        split at h
        next => cases h
        next response answer =>
          split at h
          next => cases h
          next put copied =>
            split at h
            next admitted =>
              cases h
              exact ⟨attempt, transcript, response, .refl _ _, by omega, answer, copied, admitted⟩
            next rejected =>
              obtain ⟨last, retried, response', retries, room, accepts⟩ := ih.mp h
              exact ⟨last, retried, response', .more answer copied rejected retries, by omega,
                accepts⟩
      · rintro ⟨last, retried, response, retries, room, accepts⟩
        cases retries with
        | refl => rw [attempts_of_accepts accepts]
        | more answer copied rejected rest =>
            rw [attempts_of_rejected answer copied rejected]
            exact ih.mpr ⟨last, retried, response, rest, by omega, accepts⟩

theorem attempts_getLast {response : List Char} {command : List U8}
    (retries : Retries server phase attempt transcript last retried) (room : last < attempt + left)
    (accepts : server.Accepts phase last retried response command) :
    (server.attempts phase left attempt transcript).puts.getLast? = some (response, command) := by
  induction retries generalizing left with
  | refl attempt transcript =>
      obtain ⟨left, rfl⟩ : ∃ k, left = k + 1 := ⟨left - 1, by omega⟩
      rw [attempts_of_accepts accepts]
      rfl
  | more answer copied rejected rest ih =>
      have := rest.le
      obtain ⟨left, rfl⟩ : ∃ k, left = k + 1 := ⟨left - 1, by omega⟩
      rw [attempts_of_rejected answer copied rejected, List.getLast?_cons, ih (by omega) accepts]
      rfl

/-- What the server passes on is the whole line of the response that it is from. -/
def PassesWholeLine (server : LocalLlmServer) (transcript : List U8) (phase : U8) : Prop :=
  ∀ command, (server.nextCommand transcript phase).result = .ok command →
    ∃ response, (server.nextCommand transcript phase).puts.getLast? = some (response, command) ∧
      IsWholeLine response command

/-- No attempt is answered with a line of 96 bytes or more whose first 96 the phase admits. -/
def AnswersShort (server : LocalLlmServer) (transcript : List U8) (phase : U8) : Prop :=
  ∀ attempt retried response input, Retries server phase 0 transcript attempt retried →
    attempt < 3 → server.respond attempt retried = .ok response → FirstLine response input →
      admittedForPhase phase ((asBytes input).take localLlmCommandBytes) →
        (asBytes input).length < localLlmCommandBytes

theorem passesWholeLine_iff (server : LocalLlmServer) (transcript : List U8) (phase : U8) :
    server.PassesWholeLine transcript phase ↔ server.AnswersShort transcript phase := by
  constructor
  · intro passes attempt retried response input retries room answer first admitted
    by_contra long
    have long := Nat.not_lt.mp long
    have accepts : server.Accepts phase attempt retried response _ :=
      ⟨answer, copy_eq_some_iff.mpr ⟨input, first, .inr ⟨long, rfl⟩⟩, admitted⟩
    obtain ⟨response', put, whole⟩ := passes _
      (attempts_result_iff.mpr ⟨attempt, retried, response, retries, by omega, accepts⟩)
    rw [nextCommand, attempts_getLast retries (by omega) accepts] at put
    cases put
    exact not_isWholeLine_of_long first long whole
  · intro short command result
    obtain ⟨attempt, retried, response, retries, room, accepts⟩ := attempts_result_iff.mp result
    refine ⟨response, attempts_getLast retries room accepts, ?_⟩
    obtain ⟨input, first, ⟨fits, rfl⟩ | ⟨long, rfl⟩⟩ := copy_eq_some_iff.mp accepts.copied
    · exact ⟨input, first, rfl⟩
    · have := short attempt retried response input retries (by omega) accepts.answer first
        accepts.admitted
      omega

end LocalLlmServer

/-! ### The external command -/

/-- What an external command passes on is the whole line of what it wrote. -/
def ExternalPassesWholeLine (run : Except UnoQRuntimeError (List U8)) : Prop :=
  ∀ command, externalNextCommand run = .ok command →
    ∃ output, run = .ok output ∧ IsWholeLine (fromUtf8Lossy output) command

theorem externalNextCommand_eq_ok_iff {run : Except UnoQRuntimeError (List U8)}
    {command : List U8} : externalNextCommand run = .ok command ↔
      ∃ output, run = .ok output ∧
        copyLlmTerminalInputFromOutput (fromUtf8Lossy output) = some command := by
  cases run with
  | error e => exact iff_of_false (fun h => by cases h) fun ⟨_, h, _⟩ => by cases h
  | ok output =>
      rw [externalNextCommand]
      constructor
      · intro h
        refine ⟨output, rfl, ?_⟩
        cases copied : copyLlmTerminalInputFromOutput (fromUtf8Lossy output) with
        | none => rw [copied] at h; cases h
        | some put => rw [copied] at h; cases h; rfl
      · rintro ⟨output', same, copied⟩
        cases same
        rw [copied]

theorem externalPassesWholeLine_iff (run : Except UnoQRuntimeError (List U8)) :
    ExternalPassesWholeLine run ↔ ∀ output input, run = .ok output →
      FirstLine (fromUtf8Lossy output) input →
        (asBytes input).length < localLlmCommandBytes := by
  constructor
  · intro passes output input ran first
    by_contra long
    have long := Nat.not_lt.mp long
    obtain ⟨output', ran', whole⟩ := passes _ (externalNextCommand_eq_ok_iff.mpr
      ⟨output, ran, copy_eq_some_iff.mpr ⟨input, first, .inr ⟨long, rfl⟩⟩⟩)
    cases ran.symm.trans ran'
    exact not_isWholeLine_of_long first long whole
  · intro short command result
    obtain ⟨output, ran, copied⟩ := externalNextCommand_eq_ok_iff.mp result
    refine ⟨output, ran, ?_⟩
    obtain ⟨input, first, ⟨fits, rfl⟩ | ⟨long, rfl⟩⟩ := copy_eq_some_iff.mp copied
    · exact ⟨input, first, rfl⟩
    · have := short output input ran first
      omega

/-- **Whole lines.**  A server passes on whole lines exactly when no attempt is answered with a line
of 96 bytes or more whose start the phase admits, and an external command exactly when the line that
it writes is shorter than that. -/
theorem whole_line_iff (server : LocalLlmServer) (transcript : List U8) (phase : U8)
    (run : Except UnoQRuntimeError (List U8)) :
    (server.PassesWholeLine transcript phase ↔ server.AnswersShort transcript phase) ∧
      (ExternalPassesWholeLine run ↔ ∀ output input, run = .ok output →
        FirstLine (fromUtf8Lossy output) input →
          (asBytes input).length < localLlmCommandBytes) :=
  ⟨server.passesWholeLine_iff transcript phase, externalPassesWholeLine_iff run⟩

/-- 95 characters of one byte, and one of two. -/
def cutResponse : List Char := List.replicate 95 'a' ++ ['é']

/-- A server that answers so, whatever it is sent. -/
def cutServer : LocalLlmServer where
  chatComplete _ _ := .ok cutResponse
  complete _ _ := .error .runtimeViolation

/-- In the phase of discovery 96 of the 97 bytes are passed on, with no newline and half of the last
character. -/
theorem whole_line_cut :
    (cutServer.nextCommand [] 0).result = .ok (List.replicate 95 (byte 'a') ++ [0xc3#8]) ∧
      ¬ ∀ (server : LocalLlmServer) transcript phase, server.PassesWholeLine transcript phase := by
  have passed : (cutServer.nextCommand [] 0).result =
      .ok (List.replicate 95 (byte 'a') ++ [0xc3#8]) := by decide +kernel
  refine ⟨passed, fun passes => ?_⟩
  obtain ⟨response, -, input, -, same⟩ := passes cutServer [] 0 _ passed
  have last := congrArg List.getLast? same
  rw [List.getLast?_concat, List.getLast?_concat] at last
  exact absurd last (by decide)

end HibanaPico.UnoQ
