import HibanaPico.Support.Trimming
import HibanaPico.UnoQ.Shell

/-!
# Uno Q — The commands of the language model

The host asks a server for the next command of the language model, copies the first line of the
response that is not blank into its buffer of 96 bytes, and admits it or has the model try again.

* `copyTerminalInput_eq_some_iff`: what the buffer holds of a line, whole or cut.
* `classify_whole_iff`, `classify_cut_iff`: the lines that the host takes for a face.
* `shell_admission_iff`: host and guest agree about a command exactly in the phase of discovery and
  for every line other than the echo of `v` and a face command cut out of a line that goes on.
-/

namespace HibanaPico.UnoQ
open HibanaPico.Transport
open HibanaPico.Trimming

/-! ### Text -/

/-- `char::is_whitespace`: the characters with the property White_Space. -/
def isWhitespace (c : Char) : Bool :=
  decide ((0x09 ≤ c.toNat ∧ c.toNat ≤ 0x0d) ∨ (0x2000 ≤ c.toNat ∧ c.toNat ≤ 0x200a) ∨
    c.toNat ∈ [0x20, 0x85, 0xa0, 0x1680, 0x2028, 0x2029, 0x202f, 0x205f, 0x3000])

/-- `u8::is_ascii_whitespace`. -/
def isAsciiWhitespace (b : U8) : Bool :=
  b == 0x20#8 || b == 0x09#8 || b == 0x0a#8 || b == 0x0c#8 || b == 0x0d#8

/-- `str::lines`. -/
def lines : List Char → List (List Char)
  | [] => []
  | '\n' :: rest => [] :: lines rest
  | '\r' :: '\n' :: rest => [] :: lines rest
  | c :: rest =>
      match lines rest with
      | [] => [[c]]
      | line :: more => (c :: line) :: more

/-- `str::as_bytes`. -/
def asBytes (text : List Char) : List U8 :=
  text.flatMap fun c => (String.utf8EncodeChar c).map UInt8.toBitVec

/-- An ASCII byte in the encoding of a character is that character. -/
theorem toNat_of_mem_utf8EncodeChar {c : Char} {b : UInt8} (mem : b ∈ String.utf8EncodeChar c)
    (small : b.toNat < 128) : c.toNat = b.toNat := by
  have value : c.val.toNat = c.toNat := rfl
  rw [String.utf8EncodeChar] at mem
  split at mem
  · obtain rfl := List.mem_singleton.mp mem
    rw [UInt8.toNat_ofNat']
    omega
  -- every other encoding is of bytes from 128 on
  all_goals
    repeat' split at mem
    all_goals
      simp only [List.mem_cons, List.not_mem_nil, or_false] at mem
      rcases mem with rfl | rfl | rfl | rfl
      all_goals
        rw [UInt8.toNat_ofNat'] at small
        omega

theorem isWhitespace_of_mem_encode {c : Char} {b : U8}
    (mem : b ∈ (String.utf8EncodeChar c).map UInt8.toBitVec) (space : isAsciiWhitespace b) :
    isWhitespace c := by
  obtain ⟨byte, encoded, rfl⟩ := List.mem_map.mp mem
  simp only [isAsciiWhitespace, Bool.or_eq_true, beq_iff_eq, or_assoc] at space
  have value : byte.toNat = 0x20 ∨ byte.toNat = 0x09 ∨ byte.toNat = 0x0a ∨ byte.toNat = 0x0c ∨
      byte.toNat = 0x0d :=
    space.imp (congrArg BitVec.toNat) <| Or.imp (congrArg BitVec.toNat) <|
      Or.imp (congrArg BitVec.toNat) <| Or.imp (congrArg BitVec.toNat) (congrArg BitVec.toNat)
  have char : c.toNat = byte.toNat := toNat_of_mem_utf8EncodeChar encoded (by omega)
  simp only [isWhitespace, decide_eq_true_eq, char, List.mem_cons, List.not_mem_nil, or_false]
  omega

theorem trimmed_asBytes {text : List Char} (h : Trimmed isWhitespace text) :
    Trimmed isAsciiWhitespace (asBytes text) := by
  refine h.flatMap (fun c none => ?_) fun c b => isWhitespace_of_mem_encode
  have := congrArg List.length none
  rw [List.length_map, String.length_utf8EncodeChar] at this
  exact absurd this c.utf8Size_pos.ne'

/-! ### The terminal input of a response -/

/-- `LOCAL_LLM_COMMAND_BYTES`. -/
def localLlmCommandBytes : ℕ := 96

/-- `LOCAL_LLM_TRANSCRIPT_BYTES`. -/
def localLlmTranscriptBytes : ℕ := 768

/-- `"[end of text]"`. -/
def endOfText : List Char := ['[', 'e', 'n', 'd', ' ', 'o', 'f', ' ', 't', 'e', 'x', 't', ']']

/-- The line that the loop of `copy_llm_terminal_input_from_output` stops at. -/
def terminalInput (output : List Char) : Option (List Char) :=
  ((lines output).map (trimBy isWhitespace)).find? fun input =>
    decide (input ≠ [] ∧ input ≠ endOfText)

/-- The body of that loop past its guard: the bytes that it leaves in `out`, up to its result. -/
def copyTerminalInput (bytes : List U8) : Option (List U8) :=
  let copyLen := min bytes.length localLlmCommandBytes
  if copyLen = 0 then none
  else if copyLen = localLlmCommandBytes then some (bytes.take copyLen)
  else some (bytes.take copyLen ++ [newline])

/-- `copy_llm_terminal_input_from_output`. -/
def copyLlmTerminalInputFromOutput (output : List Char) : Option (List U8) :=
  (terminalInput output).bind fun input => copyTerminalInput (asBytes input)

/-! ### Admission -/

inductive LocalLlmTerminalCommand where
  | catalog
  | face
  | other
  deriving DecidableEq, Repr

/-- The codes of `decode_local_face_echo_command`. -/
def localFaceCodes : List (List U8) :=
  [ascii ['h'], ascii ['s'], ascii ['a'], ascii ['u'], ascii ['v'],
    ascii ['m', 'c'], ascii ['m', 's'], ascii ['m', 'w'], ascii ['m', 'r']]

def decodeLocalFaceEchoCommand (command : List U8) : Bool :=
  match echoedCode command with
  | some code => decide (code ∈ localFaceCodes)
  | none => false

/-- `trim_terminal_command`. -/
def trimTerminalCommand (command : List U8) : List U8 := trimBy isAsciiWhitespace command

def classifyLocalLlmTerminalCommand (command : List U8) : LocalLlmTerminalCommand :=
  let command := trimTerminalCommand command
  if command = ascii ['l', 's'] then .catalog
  else if decodeLocalFaceEchoCommand command then .face
  else .other

/-- `local_llm_terminal_command_admitted_for_phase`. -/
def admittedForPhase (phase : U8) (command : List U8) : Bool :=
  match classifyLocalLlmTerminalCommand command with
  | .face => decide (phase ≠ 0)
  | .catalog | .other => decide (phase = 0)

/-! ### The server -/

/-- A server, by what it answers at each attempt to each transcript: to a chat completion, and to
the plain completion that is tried where that fails. -/
structure LocalLlmServer where
  chatComplete : ℕ → List U8 → Except UnoQRuntimeError (List Char)
  complete : ℕ → List U8 → Except UnoQRuntimeError (List Char)

/-- `append_local_llm_shell_error`. -/
def appendLocalLlmShellError (transcript command : List U8) : List U8 :=
  let ended := if command.getLast? = some newline then command else command ++ [newline]
  let transcript := transcript ++ ended ++ shellInvalidCommand
  transcript.drop (transcript.length - localLlmTranscriptBytes)

namespace LocalLlmServer

/-- One call of `next_command`: the responses out of which it put a command in `out`, each with that
command, and its result. -/
structure Call where
  puts : List (List Char × List U8)
  result : Except UnoQRuntimeError (List U8)

/-- `chat_complete(..).or_else(|_| complete(..))`. -/
def respond (server : LocalLlmServer) (attempt : ℕ) (transcript : List U8) :
    Except UnoQRuntimeError (List Char) :=
  match server.chatComplete attempt transcript with
  | .ok response => .ok response
  | .error _ => server.complete attempt transcript

/-- The loop of `next_command`, from `attempt` on with so many attempts left. -/
def attempts (server : LocalLlmServer) (phase : U8) : ℕ → ℕ → List U8 → Call
  | 0, _, _ => ⟨[], .error .runtimeViolation⟩
  | left + 1, attempt, retryTranscript =>
      match server.respond attempt retryTranscript with
      | .error e => ⟨[], .error e⟩
      | .ok response =>
          match copyLlmTerminalInputFromOutput response with
          | none => ⟨[], .error .runtimeViolation⟩
          | some command =>
              if admittedForPhase phase command then ⟨[(response, command)], .ok command⟩
              else
                let rest := server.attempts phase left (attempt + 1)
                  (appendLocalLlmShellError retryTranscript command)
                ⟨(response, command) :: rest.puts, rest.result⟩

/-- `LocalLlmServer::next_command`. -/
def nextCommand (server : LocalLlmServer) (transcript : List U8) (phase : U8) : Call :=
  server.attempts phase 3 0 transcript

end LocalLlmServer

theorem LocalLlmServer.copy_of_mem_puts (server : LocalLlmServer) (phase : U8)
    {response : List Char} {command : List U8} :
    ∀ left attempt transcript,
      (response, command) ∈ (server.attempts phase left attempt transcript).puts →
        copyLlmTerminalInputFromOutput response = some command
  | 0, _, _, mem => by cases mem
  | left + 1, attempt, transcript, mem => by
      rw [attempts] at mem
      split at mem
      next => cases mem
      next answer _ =>
        split at mem
        next => cases mem
        next put copied =>
          split at mem
          next =>
            cases List.mem_singleton.mp mem
            exact copied
          next =>
            rcases List.mem_cons.mp mem with same | mem
            · cases same
              exact copied
            · exact server.copy_of_mem_puts phase left _ _ mem

/-! ### What the buffer holds of a line -/

theorem copyTerminalInput_eq_some_iff {line command : List U8} :
    copyTerminalInput line = some command ↔ line ≠ [] ∧
      (line.length < 96 ∧ command = line ++ [newline] ∨
        96 ≤ line.length ∧ command = line.take 96) := by
  have empty : line.length = 0 ↔ line = [] := List.length_eq_zero_iff
  rw [copyTerminalInput, Option.ite_none_left_eq_some]
  refine and_congr (by rw [localLlmCommandBytes, ne_eq, ← empty]; omega) ?_
  rw [localLlmCommandBytes]
  by_cases short : line.length < 96
  · rw [if_neg (by omega), List.take_of_length_le (by omega), Option.some.injEq]
    simp only [short, not_le.mpr short, true_and, false_and, or_false, eq_comm]
  · rw [if_pos (by omega), min_eq_right (by omega), Option.some.injEq]
    simp only [short, not_lt.mp short, true_and, false_and, false_or, eq_comm]

theorem trimmed_of_terminalInput {response input : List Char}
    (h : terminalInput response = some input) : Trimmed isAsciiWhitespace (asBytes input) := by
  obtain ⟨line, -, rfl⟩ := List.mem_map.mp (List.mem_of_find?_eq_some h)
  exact trimmed_asBytes (trimmed_trimBy isWhitespace line)

/-! ### The lines that the two ends take for a face -/

theorem trimmed_echoCommand (code : List U8) : Trimmed isAsciiWhitespace (echoCommand code) where
  head _ := by
    change ¬ isAsciiWhitespace (byte 'e')
    decide
  last h := by
    have last := getLast?_echoCommand code
    rw [List.getLast?_eq_some_getLast h, Option.some.injEq] at last
    rw [last]
    decide

theorem classify_eq_face_iff {command : List U8} :
    classifyLocalLlmTerminalCommand command = .face ↔
      ∃ code ∈ localFaceCodes, trimTerminalCommand command = echoCommand code := by
  have codes : ∀ code ∈ localFaceCodes, code ≠ [] := by decide
  have decoded : decodeLocalFaceEchoCommand (trimTerminalCommand command) = true ↔
      ∃ code ∈ localFaceCodes, trimTerminalCommand command = echoCommand code := by
    rw [decodeLocalFaceEchoCommand]
    constructor
    · intro h
      split at h
      next code sliced =>
        exact ⟨code, of_decide_eq_true h, (echoedCode_eq_some_iff.mp sliced).1⟩
      next => exact absurd h Bool.false_ne_true
    · rintro ⟨code, mem, same⟩
      rw [echoedCode_eq_some_iff.mpr ⟨same, codes code mem⟩]
      exact decide_eq_true mem
  rw [← decoded, classifyLocalLlmTerminalCommand]
  split
  next ls => rw [ls]; decide
  next => split <;> simp_all

/-- Of a line that the buffer holds, the host takes the echo of one of its codes for a face. -/
theorem classify_whole_iff {line : List U8} (h : Trimmed isAsciiWhitespace line) (ne : line ≠ []) :
    classifyLocalLlmTerminalCommand (line ++ [newline]) = .face ↔
      ∃ code ∈ localFaceCodes, line = echoCommand code := by
  have trimmed : trimTerminalCommand (line ++ [newline]) = line := by
    refine (trimBy_eq_iff (fun hl => ?_) h).mpr ⟨[newline], by decide, rfl⟩
    rw [List.head_append_of_ne_nil ne]
    exact h.head ne
  rw [classify_eq_face_iff, trimmed]

/-- Of a line that the buffer cuts, it takes such an echo and the blanks up to the cut for a
face. -/
theorem classify_cut_iff {line : List U8} (h : Trimmed isAsciiWhitespace line) (ne : line ≠ []) :
    classifyLocalLlmTerminalCommand (line.take 96) = .face ↔ ∃ code ∈ localFaceCodes,
      ∃ blanks, (∀ b ∈ blanks, isAsciiWhitespace b) ∧
        line.take 96 = echoCommand code ++ blanks := by
  rw [classify_eq_face_iff]
  refine exists_congr fun code => and_congr_right fun _ => ?_
  refine trimBy_eq_iff (fun hl => ?_) (trimmed_echoCommand code)
  rw [List.head_take]
  exact h.head ne

theorem readCommand_whole_iff {line : List U8} :
    (∃ kind, readCommand (line ++ [newline]) = .face kind) ↔
      ∃ code ∈ shellFaceCodes, line = echoCommand code := by
  have ends : ∀ code, line ++ [newline] ≠ echoCommand code := by
    intro code same
    have last := getLast?_echoCommand code
    rw [← same, List.getLast?_concat] at last
    exact absurd last (by decide)
  constructor
  · rintro ⟨kind, h⟩
    obtain ⟨code, decoded, same | same⟩ := readCommand_eq_face_iff.mp h
    · exact absurd same (ends code)
    · exact ⟨code, (decodeFaceCode_eq_some decoded).1, List.append_cancel_right same⟩
  · rintro ⟨code, mem, rfl⟩
    obtain ⟨kind, decoded⟩ := isSome_decodeFaceCode_iff.mpr mem
    exact ⟨kind, readCommand_eq_face_iff.mpr ⟨code, decoded, .inr rfl⟩⟩

/-- A command that fills the buffer of the host is no face to the guest. -/
theorem readCommand_ne_face {command : List U8} (h : 22 < command.length) (kind : U8) :
    readCommand command ≠ .face kind := by
  intro face
  obtain ⟨code, decoded, same⟩ := readCommand_eq_face_iff.mp face
  have short := (shellFaceCodes_short code (decodeFaceCode_eq_some decoded).1).2
  rcases same with rfl | rfl <;>
    simp only [List.length_append, length_echoCommand, List.length_singleton] at h <;> omega

/-! ### Agreement -/

/-- What host and guest owe each other about a command read in a phase: outside of discovery the
host admits what the guest reads as a face, in discovery nothing that it does, and what it admits
makes the guest do the writes of that phase. -/
structure Agrees (phase : U8) (command : List U8) : Prop where
  face : phase ≠ 0 →
    (admittedForPhase phase command ↔ ∃ kind, readCommand command = .face kind)
  discovery : phase = 0 → admittedForPhase phase command → ∀ kind, readCommand command ≠ .face kind
  writes : admittedForPhase phase command →
    ∀ ordinal, PhaseWrites phase (turn ordinal (readCommand command)).1

/-- The lines that the host takes for a face and the guest does not: the echo of `v`, and a line
that goes on behind a face command and the blanks which fill the buffer. -/
inductive Misread (line : List U8) : Prop where
  | surprised (same : line = echoCommand (ascii ['v']))
  | cut (code blanks : List U8) (long : 96 ≤ line.length) (mem : code ∈ localFaceCodes)
      (blank : ∀ b ∈ blanks, isAsciiWhitespace b) (same : line.take 96 = echoCommand code ++ blanks)

theorem admittedForPhase_iff {phase : U8} {command : List U8} :
    admittedForPhase phase command ↔
      (phase ≠ 0 ↔ classifyLocalLlmTerminalCommand command = .face) := by
  rw [admittedForPhase]
  cases classifyLocalLlmTerminalCommand command <;> simp

/-- Where the guest's faces are faces to the host, they agree outside of discovery exactly when the
host's are faces to the guest. -/
theorem agrees_iff {phase : U8} {command : List U8}
    (face : (∃ kind, readCommand command = .face kind) →
      classifyLocalLlmTerminalCommand command = .face) :
    Agrees phase command ↔ phase = 0 ∨
      (classifyLocalLlmTerminalCommand command = .face →
        ∃ kind, readCommand command = .face kind) := by
  constructor
  · intro agrees
    refine or_iff_not_imp_left.mpr fun ne host => ?_
    exact (agrees.face ne).mp (admittedForPhase_iff.mpr (iff_of_true ne host))
  · intro same
    constructor
    · intro ne
      rw [admittedForPhase_iff, iff_true_left ne]
      exact ⟨same.resolve_left ne, face⟩
    · intro discovery admitted kind guest
      exact (admittedForPhase_iff.mp admitted).mpr (face ⟨kind, guest⟩) discovery
    · intro admitted ordinal
      rw [phaseWrites_turn_iff, admittedForPhase_iff.mp admitted]
      refine ⟨fun host => ?_, face⟩
      exact same.resolve_left ((admittedForPhase_iff.mp admitted).mpr host) host

theorem localFaceCodes_iff {code : List U8} :
    code ∈ localFaceCodes ↔ code ∈ shellFaceCodes ∨ code = ascii ['v'] := by
  simp only [localFaceCodes, shellFaceCodes, List.mem_cons, List.not_mem_nil, or_false]
  tauto

/-- The host's faces are the guest's, and the lines that the guest misreads. -/
theorem classify_of_copy {line command : List U8} (h : Trimmed isAsciiWhitespace line)
    (copied : copyTerminalInput line = some command) :
    classifyLocalLlmTerminalCommand command = .face ↔
      (∃ kind, readCommand command = .face kind) ∨ Misread line := by
  obtain ⟨ne, ⟨short, rfl⟩ | ⟨long, rfl⟩⟩ := copyTerminalInput_eq_some_iff.mp copied
  · rw [classify_whole_iff h ne, readCommand_whole_iff]
    constructor
    · rintro ⟨code, mem, same⟩
      rcases localFaceCodes_iff.mp mem with mem | rfl
      · exact .inl ⟨code, mem, same⟩
      · exact .inr (.surprised same)
    · rintro (⟨code, mem, same⟩ | same | ⟨code, blanks, long, mem, blank, same⟩)
      · exact ⟨code, localFaceCodes_iff.mpr (.inl mem), same⟩
      · exact ⟨_, localFaceCodes_iff.mpr (.inr rfl), same⟩
      · omega
  · have filled : (line.take 96).length = 96 := by rw [List.length_take]; omega
    have guest : ¬ ∃ kind, readCommand (line.take 96) = .face kind := fun ⟨kind, face⟩ =>
      readCommand_ne_face (by omega) kind face
    rw [classify_cut_iff h ne, or_iff_right guest]
    constructor
    · rintro ⟨code, mem, blanks, blank, same⟩
      exact .cut code blanks long mem blank same
    · rintro (same | ⟨code, blanks, long, mem, blank, same⟩)
      · rw [same, length_echoCommand] at long
        exact absurd long (by decide)
      · exact ⟨code, mem, blanks, blank, same⟩

theorem not_face_of_misread {line command : List U8} (misread : Misread line)
    (copied : copyTerminalInput line = some command) :
    ¬ ∃ kind, readCommand command = .face kind := by
  obtain ⟨ne, ⟨short, rfl⟩ | ⟨long, rfl⟩⟩ := copyTerminalInput_eq_some_iff.mp copied
  · rw [readCommand_whole_iff]
    rintro ⟨code, mem, rfl⟩
    rcases misread with same | ⟨_, _, long, _, _, _⟩
    · rw [echoCommand_injective same] at mem
      exact absurd mem (by decide)
    · omega
  · have filled : (line.take 96).length = 96 := by rw [List.length_take]; omega
    exact fun ⟨kind, face⟩ => readCommand_ne_face (by omega) kind face

/-- **Admission.** Host and guest agree about a command out of a response exactly in the phase of
discovery, and when the line it was copied from is none that the guest misreads. -/
theorem shell_admission_iff (server : LocalLlmServer) (transcript : List U8) (phase : U8)
    {response : List Char} {command : List U8}
    (put : (response, command) ∈ (server.nextCommand transcript phase).puts) :
    Agrees phase command ↔
      phase = 0 ∨ ∀ input, terminalInput response = some input → ¬ Misread (asBytes input) := by
  obtain ⟨input, found, copied⟩ :=
    Option.bind_eq_some_iff.mp (server.copy_of_mem_puts phase 3 0 transcript put)
  have host := classify_of_copy (trimmed_of_terminalInput found) copied
  rw [agrees_iff fun guest => host.mpr (.inl guest)]
  refine or_congr_right ⟨fun same other found' misread => ?_, fun same face => ?_⟩
  · obtain rfl := Option.some.inj (found.symm.trans found')
    exact not_face_of_misread misread copied (same (host.mpr (.inr misread)))
  · exact (host.mp face).resolve_right (same input found)

/-- A response of the face that only the host has a code for. -/
def surprisedResponse : List Char :=
  ['e', 'c', 'h', 'o', ' ', 'v', ' ', '>', ' ',
    '/', 'f', 'a', 'c', 'e', '/', 'f', 'r', 'a', 'm', 'e']

/-- A server that answers so, whatever it is sent. -/
def surprisedServer : LocalLlmServer where
  chatComplete _ _ := .ok surprisedResponse
  complete _ _ := .error .runtimeViolation

/-- The host hands the guest the echo of `v` as a face, and the guest reads an error. -/
theorem shell_misreads_surprised : ¬ ∀ (server : LocalLlmServer) transcript phase response command,
    (response, command) ∈ (server.nextCommand transcript phase).puts → Agrees phase command := by
  intro H
  have agrees := H surprisedServer [] 1 surprisedResponse (echoCommand (ascii ['v']) ++ [newline])
    (by decide +kernel)
  have read : readCommand (echoCommand (ascii ['v']) ++ [newline]) = .invalid := by decide +kernel
  obtain ⟨kind, face⟩ := (agrees.face (by decide)).mp (by decide +kernel)
  rw [read] at face
  cases face

theorem shell_admission_iff_surprised :
    Agrees 1 (echoCommand (ascii ['v']) ++ [newline]) ↔
      (1 : U8) = 0 ∨ ∀ input, terminalInput surprisedResponse = some input →
        ¬ Misread (asBytes input) :=
  shell_admission_iff surprisedServer [] 1 (by decide +kernel)

end HibanaPico.UnoQ
