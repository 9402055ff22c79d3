import HibanaPico.UnoQ.Protocol

/-!
# Uno Q — The guest shell

The loop of `uno-q-llm-face-shell-loop`: it reads a command of the language model from its standard
input through a buffer of 30 bytes, and answers with its catalogue, with an error, or with a frame
for the LED matrix.

* `echoedCode_eq_some_iff`: the code that both ends slice out of an `echo` command.
* `readCommand_eq_face_iff`: the commands that the guest reads as a face.
* `isSome_decodeFaceCode_iff`: the codes it has a face for.
* `phaseWrites_turn_iff`: a turn makes the writes of its phase exactly when the command is a face in
  the phase of faces, and no face in the phase of discovery.
-/

namespace HibanaPico.UnoQ
open HibanaPico.Transport

/-- The byte of an ASCII character. -/
def byte (c : Char) : U8 := BitVec.ofNat 8 c.toNat

/-- The bytes of an ASCII text. -/
def ascii (text : List Char) : List U8 := text.map byte

def newline : U8 := byte '\n'

/-! ### The `echo` command -/

/-- `b"echo "`. -/
def echoPrefix : List U8 := ascii ['e', 'c', 'h', 'o', ' ']

/-- `b" > /face/frame"`. -/
def faceRedirect : List U8 :=
  ascii [' ', '>', ' ', '/', 'f', 'a', 'c', 'e', '/', 'f', 'r', 'a', 'm', 'e']

/-- The slice between the prefix and the redirect: the body that `decode_echo_face_command` and the
host's `decode_local_face_echo_command` share. -/
def echoedCode (command : List U8) : Option (List U8) :=
  if command.length ≤ echoPrefix.length + faceRedirect.length ∨
      command.take echoPrefix.length ≠ echoPrefix ∨
      command.drop (command.length - faceRedirect.length) ≠ faceRedirect then none
  else some ((command.take (command.length - faceRedirect.length)).drop echoPrefix.length)

/-- The command that echoes `code`. -/
def echoCommand (code : List U8) : List U8 := echoPrefix ++ code ++ faceRedirect

@[simp] theorem length_echoPrefix : echoPrefix.length = 5 := rfl

@[simp] theorem length_faceRedirect : faceRedirect.length = 14 := rfl

@[simp] theorem length_echoCommand (code : List U8) :
    (echoCommand code).length = code.length + 19 := by
  simp only [echoCommand, List.length_append, length_echoPrefix, length_faceRedirect]
  omega

theorem echoedCode_eq_some_iff {command code : List U8} :
    echoedCode command = some code ↔ command = echoCommand code ∧ code ≠ [] := by
  rw [echoedCode, Option.ite_none_left_eq_some, not_or, not_or, not_not, not_not, not_le]
  constructor
  · rintro ⟨⟨long, starts, ends⟩, sliced⟩
    simp only [length_echoPrefix, length_faceRedirect, Option.some.injEq] at long starts ends sliced
    have start : (command.take (command.length - 14)).take 5 = echoPrefix := by
      rw [List.take_take, min_eq_left (by omega), starts]
    refine ⟨?_, fun none => ?_⟩
    · calc command
          _ = command.take (command.length - 14) ++ command.drop (command.length - 14) :=
            (List.take_append_drop _ _).symm
          _ = (echoPrefix ++ code) ++ faceRedirect := by
            rw [ends, ← start, ← sliced, List.take_append_drop]
    · have := congrArg List.length sliced
      simp only [none, List.length_drop, List.length_take, List.length_nil] at this
      omega
  · rintro ⟨rfl, ne⟩
    have pos : 0 < code.length := List.length_pos_iff.mpr ne
    have slice : (echoCommand code).length - faceRedirect.length =
        (echoPrefix ++ code).length := by
      simp only [length_echoCommand, length_faceRedirect, List.length_append, length_echoPrefix]
      omega
    refine ⟨⟨by simp; omega, ?_, ?_⟩, ?_⟩
    · rw [echoCommand, List.append_assoc, List.take_left]
    · rw [slice, echoCommand, List.drop_left]
    · rw [slice, echoCommand, List.take_left, List.drop_left]

theorem echoCommand_injective : Function.Injective echoCommand := fun _ _ same =>
  List.append_cancel_left (List.append_cancel_right same)

/-- An `echo` command ends in the last byte of the redirect. -/
theorem getLast?_echoCommand (code : List U8) : (echoCommand code).getLast? = some (byte 'e') := by
  rw [echoCommand, List.getLast?_append_of_ne_nil _ (by decide)]
  rfl

/-! ### The guest's commands -/

inductive ShellCommand where
  | catalog
  | face (kind : U8)
  | invalid
  deriving DecidableEq, Repr

/-- The command has the pattern's length, and each of its bytes is one of those the pattern has at
its place. -/
def follows : List (List Char) → List U8 → Bool
  | [], [] => true
  | allowed :: pattern, byte :: command => decide (byte ∈ ascii allowed) && follows pattern command
  | _, _ => false

/-- The patterns of `is_catalog_discovery_command!`. -/
def catalogPatterns : List (List (List Char)) :=
  [[['l'], ['s']],
    [['f'], ['i'], ['n'], ['d'], [' '], ['C', 'c'], ['h'], ['o'], ['r'], ['e'], ['o'], ['F', 'f'],
      ['S', 's'], [' '], ['-'], ['t'], ['y'], ['p'], ['e'], [' '], ['f']],
    [['f'], ['i'], ['n'], ['d'], [' '], ['.', '/'], [' '], ['-'], ['t'], ['y'], ['p'], ['e'], [' '],
      ['f']]]

def isCatalogDiscoveryCommand (command : List U8) : Bool :=
  catalogPatterns.any fun pattern => follows pattern command

/-- `decode_face_code`. -/
def decodeFaceCode : List U8 → Option U8
  | [first] =>
      if first = byte 'h' then some 1
      else if first = byte 's' then some 2
      else if first = byte 'a' then some 3
      else if first = byte 'u' then some 4
      else none
  | [first, second] =>
      if first = byte 'm' then
        if second = byte 'c' then some 16
        else if second = byte 's' then some 17
        else if second = byte 'w' then some 18
        else if second = byte 'r' then some 19
        else none
      else none
  | _ => none

/-- `decode_echo_face_command`. -/
def decodeEchoFaceCommand (command : List U8) : Option U8 :=
  (echoedCode command).bind decodeFaceCode

/-- The buffer without a newline at its end. -/
def stripNewline (buffer : List U8) : List U8 :=
  if buffer.getLast? = some newline then buffer.dropLast else buffer

/-- `read_command`, with what its standard input has for it to read. -/
def readCommand (stdin : List U8) : ShellCommand :=
  let command := stripNewline (stdin.take 30)
  if isCatalogDiscoveryCommand command then .catalog
  else ((decodeEchoFaceCommand command).map .face).getD .invalid

/-- The codes of `decode_face_code`. -/
def shellFaceCodes : List (List U8) :=
  [ascii ['h'], ascii ['s'], ascii ['a'], ascii ['u'],
    ascii ['m', 'c'], ascii ['m', 's'], ascii ['m', 'w'], ascii ['m', 'r']]

theorem decodeFaceCode_eq_some {code : List U8} {kind : U8} (h : decodeFaceCode code = some kind) :
    code ∈ shellFaceCodes ∧ validateDisplayFace kind = .ok () := by
  revert h
  fun_cases decodeFaceCode code <;> intro h <;> cases h <;> exact ⟨by decide, by decide⟩

theorem isSome_decodeFaceCode_iff {code : List U8} :
    (∃ kind, decodeFaceCode code = some kind) ↔ code ∈ shellFaceCodes := by
  refine ⟨fun ⟨_, h⟩ => (decodeFaceCode_eq_some h).1, fun mem => ?_⟩
  have all : ∀ code ∈ shellFaceCodes, (decodeFaceCode code).isSome := by decide
  exact Option.isSome_iff_exists.mp (all code mem)

theorem shellFaceCodes_short : ∀ code ∈ shellFaceCodes, code ≠ [] ∧ code.length ≤ 2 := by decide

theorem decodeEchoFaceCommand_eq_some_iff {command : List U8} {kind : U8} :
    decodeEchoFaceCommand command = some kind ↔
      ∃ code, command = echoCommand code ∧ decodeFaceCode code = some kind := by
  rw [decodeEchoFaceCommand, Option.bind_eq_some_iff]
  refine exists_congr fun code => ?_
  rw [echoedCode_eq_some_iff, and_assoc]
  exact and_congr_right fun _ => and_iff_right_of_imp fun h =>
    (shellFaceCodes_short code (decodeFaceCode_eq_some h).1).1

/-- No `echo` command is a catalogue discovery: each of those starts with another letter. -/
theorem not_isCatalogDiscoveryCommand_echoCommand (code : List U8) :
    isCatalogDiscoveryCommand (echoCommand code) = false := rfl

theorem stripNewline_eq_iff {buffer command : List U8} (h : command.getLast? ≠ some newline) :
    stripNewline buffer = command ↔ buffer = command ∨ buffer = command ++ [newline] := by
  rw [stripNewline]
  constructor
  · rintro rfl
    split
    next ends => exact .inr (List.dropLast_append_getLast? _ ends).symm
    next => exact .inl rfl
  · rintro (rfl | rfl)
    · exact if_neg h
    · rw [if_pos List.getLast?_concat, List.dropLast_concat]

/-- What falls short of the buffer has been read as a whole. -/
theorem take_eq_iff_of_length_lt {α : Type} {n : ℕ} {l m : List α} (h : m.length < n) :
    l.take n = m ↔ l = m := by
  constructor
  · rintro rfl
    rw [List.length_take] at h
    exact (List.take_of_length_le (by omega)).symm
  · rintro rfl
    exact List.take_of_length_le h.le

/-- The guest reads a face exactly from an `echo` of a code it has a face for, with or without a
newline: its buffer holds the longest of these. -/
theorem readCommand_eq_face_iff {stdin : List U8} {kind : U8} :
    readCommand stdin = .face kind ↔ ∃ code, decodeFaceCode code = some kind ∧
      (stdin = echoCommand code ∨ stdin = echoCommand code ++ [newline]) := by
  have read : ∀ code, decodeFaceCode code = some kind →
      (stripNewline (stdin.take 30) = echoCommand code ↔
        stdin = echoCommand code ∨ stdin = echoCommand code ++ [newline]) := by
    intro code decoded
    have short := (shellFaceCodes_short code (decodeFaceCode_eq_some decoded).1).2
    have ends : (echoCommand code).getLast? ≠ some newline := by
      rw [getLast?_echoCommand]
      decide
    rw [stripNewline_eq_iff ends, take_eq_iff_of_length_lt, take_eq_iff_of_length_lt]
    all_goals simp only [List.length_append, length_echoCommand, List.length_singleton]; omega
  constructor
  · intro h
    rw [readCommand] at h
    split at h
    next => exact absurd h ShellCommand.noConfusion
    next =>
      obtain ⟨kind', decoded, face⟩ : ∃ kind', decodeEchoFaceCommand
          (stripNewline (stdin.take 30)) = some kind' ∧ ShellCommand.face kind' = .face kind := by
        cases e : decodeEchoFaceCommand (stripNewline (stdin.take 30)) with
        | none => rw [e] at h; exact absurd h ShellCommand.noConfusion
        | some kind' => rw [e] at h; exact ⟨kind', rfl, h⟩
      obtain rfl := ShellCommand.face.inj face
      obtain ⟨code, same, decoded⟩ := decodeEchoFaceCommand_eq_some_iff.mp decoded
      exact ⟨code, decoded, (read code decoded).mp same⟩
  · rintro ⟨code, decoded, h⟩
    have same := (read code decoded).mpr h
    rw [readCommand, same, not_isCatalogDiscoveryCommand_echoCommand,
      decodeEchoFaceCommand_eq_some_iff.mpr ⟨code, rfl, decoded⟩]
    rfl

/-! ### A turn of the loop -/

/-- The files that the shell writes to. -/
inductive ShellFile where
  | llmStdout
  | face
  deriving DecidableEq, Repr

structure ShellWrite where
  file : ShellFile
  bytes : List U8
  deriving DecidableEq, Repr

/-- `SHELL_PROMPT`. -/
def shellPrompt : List U8 := ascii ['$', ' ']

/-- `SHELL_CATALOG`. -/
def shellCatalog : List U8 :=
  ascii ['w', ' '] ++ ascii ['/', 'f', 'a', 'c', 'e', '/', 'f', 'r', 'a', 'm', 'e', ' '] ++
    ascii ['F', 'a', 'c', 'e', 'F', 'r', 'a', 'm', 'e', '\n'] ++ shellPrompt

/-- `SHELL_INVALID_COMMAND`. -/
def shellInvalidCommand : List U8 :=
  ascii ['e', 'r', 'r', ' '] ++
    ascii ['/', 'f', 'a', 'c', 'e', '/', 'f', 'r', 'a', 'm', 'e', ' '] ++
    ascii ['h', ',', 'a', ',', 's', ',', 'u', ',', 'm', 'w', '\n'] ++ shellPrompt

/-- What the loop of `run` does with a command: its writes, and the ordinal of its next frame. -/
def turn (ordinal : U8) : ShellCommand → List ShellWrite × U8
  | .catalog => ([⟨.llmStdout, shellCatalog⟩], ordinal)
  | .invalid => ([⟨.llmStdout, shellInvalidCommand⟩], ordinal)
  | .face kind => ([⟨.face, [kind, ordinal]⟩, ⟨.llmStdout, shellPrompt⟩], ordinal + 1)

/-- The writes that a phase of the choreography has branches for: one of text to the language model
after the discovery, and after the other read a frame for the driver before it. -/
def PhaseWrites (phase : U8) (writes : List ShellWrite) : Prop :=
  if phase = 0 then ∃ text, writes = [⟨.llmStdout, text⟩]
  else ∃ frame text, FaceFrame.validatePayload frame = some (.ok ()) ∧
    writes = [⟨.face, frame⟩, ⟨.llmStdout, text⟩]

/-- A turn makes the writes of a phase exactly when the command is a face in the phase of faces. -/
theorem phaseWrites_turn_iff (phase ordinal : U8) (stdin : List U8) :
    PhaseWrites phase (turn ordinal (readCommand stdin)).1 ↔
      (phase ≠ 0 ↔ ∃ kind, readCommand stdin = .face kind) := by
  rw [PhaseWrites]
  cases e : readCommand stdin with
  | catalog => split <;> simp_all [turn]
  | invalid => split <;> simp_all [turn]
  | face kind =>
      obtain ⟨code, decoded, -⟩ := readCommand_eq_face_iff.mp e
      have valid : FaceFrame.validatePayload [kind, ordinal] = some (.ok ()) :=
        FaceFrame.codec_lawful.accepts_image ⟨kind, ordinal, (decodeFaceCode_eq_some decoded).2⟩
      split <;> simp_all [turn]

end HibanaPico.UnoQ
