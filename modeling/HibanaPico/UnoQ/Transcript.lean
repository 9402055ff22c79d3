import HibanaPico.Support.Cells
import HibanaPico.Support.Lists
import HibanaPico.UnoQ.LlmCommand

/-!
# Uno Q — The transcript of the shell

The host keeps the last 768 bytes that went through the shell, in a buffer that it shifts byte by
byte, and puts a rejected command with its error behind a copy of them in one go.

* `Transcript.bytes_observeShellOutput`: an output moves the window of the buffer on.
* `transcript_window`: both ways keep the window on all that went through.
-/

namespace HibanaPico.UnoQ
open HibanaPico.Support
open HibanaPico.Transport

/-! ### The buffer -/

/-- `transcript` and `transcript_len` of a `LocalLlmShellSource`. -/
structure Transcript where
  cells : Cells U8
  len : ℕ

namespace Transcript

variable {t : Transcript}

def empty : Transcript := ⟨fun _ => 0, 0⟩

/-- `&self.transcript[..self.transcript_len]`. -/
def bytes (t : Transcript) : List U8 := t.cells.slice 0 t.len

/-- `self.transcript.copy_within(1.., 0)`, and a length less by one. -/
def shift (t : Transcript) : Transcript where
  cells i := if i + 1 < localLlmTranscriptBytes then t.cells (i + 1) else t.cells i
  len := t.len - 1

/-- The byte behind what is there. -/
def put (t : Transcript) (byte : U8) : Transcript :=
  ⟨Function.update t.cells t.len byte, t.len + 1⟩

/-- The body of the loop of `observe_shell_output`. -/
def observeByte (t : Transcript) (byte : U8) : Transcript :=
  if t.len = localLlmTranscriptBytes then t.shift.put byte else t.put byte

/-- `observe_shell_output`. -/
def observeShellOutput (t : Transcript) (bytes : List U8) : Transcript := bytes.foldl observeByte t

@[simp] theorem length_bytes (t : Transcript) : t.bytes.length = t.len := Cells.length_slice _ _ _

theorem bytes_put (t : Transcript) (byte : U8) : (t.put byte).bytes = t.bytes ++ [byte] := by
  have old : Cells.slice (Function.update t.cells t.len byte) 0 t.len = t.bytes :=
    Cells.slice_update_of_outside byte (.inr (by omega))
  calc (t.put byte).bytes
      _ = Cells.slice (Function.update t.cells t.len byte) 0 (t.len + 1) := rfl
      _ = t.bytes ++ [byte] := by
        rw [Cells.slice_snoc, old, Nat.zero_add, Function.update_self]

theorem bytes_shift (full : t.len = localLlmTranscriptBytes) : t.shift.bytes = t.bytes.tail := by
  have step : t.bytes = t.cells 0 :: t.cells.slice 1 (localLlmTranscriptBytes - 1) := by
    rw [bytes, full]
    rfl
  rw [step, List.tail_cons, bytes, shift, full]
  refine List.ext_getElem? fun i => ?_
  rcases lt_or_ge i (localLlmTranscriptBytes - 1) with inside | outside
  · rw [Cells.getElem?_slice _ _ inside, Cells.getElem?_slice _ _ inside]
    refine congrArg some ((if_pos (by omega)).trans ?_)
    rw [Nat.zero_add, Nat.add_comm]
  · rw [List.getElem?_eq_none (by simpa using outside),
      List.getElem?_eq_none (by simpa using outside)]

/-- A byte moves the window on. -/
theorem bytes_observeByte (h : t.len ≤ localLlmTranscriptBytes) (byte : U8) :
    (t.observeByte byte).bytes = (t.bytes ++ [byte]).rtake localLlmTranscriptBytes := by
  rw [observeByte]
  split
  next full =>
    have ne : t.bytes ≠ [] := by
      rw [← List.length_pos_iff, length_bytes, full]
      decide
    have excess : (t.bytes ++ [byte]).length - localLlmTranscriptBytes = 1 := by
      rw [List.length_append, length_bytes, full, List.length_singleton]
      omega
    rw [bytes_put, bytes_shift full, List.rtake, excess, List.drop_one,
      List.tail_append_of_ne_nil ne]
  next room =>
    rw [bytes_put, rtake_of_length_le]
    rw [List.length_append, length_bytes, List.length_singleton]
    omega

/-- **An output moves the window on.** -/
theorem bytes_observeShellOutput (h : t.len ≤ localLlmTranscriptBytes) (bytes : List U8) :
    (t.observeShellOutput bytes).bytes = (t.bytes ++ bytes).rtake localLlmTranscriptBytes := by
  induction bytes generalizing t with
  | nil =>
      rw [List.append_nil, rtake_of_length_le (by rwa [length_bytes])]
      rfl
  | cons byte bytes ih =>
      have first := bytes_observeByte h byte
      have fits : (t.observeByte byte).len ≤ localLlmTranscriptBytes := by
        rw [← length_bytes, first, length_rtake]
        exact min_le_right _ _
      calc ((t.observeByte byte).observeShellOutput bytes).bytes
          _ = ((t.observeByte byte).bytes ++ bytes).rtake localLlmTranscriptBytes := ih fits
          _ = (t.bytes ++ [byte] ++ bytes).rtake localLlmTranscriptBytes := by
            rw [first, rtake_rtake_append]
          _ = (t.bytes ++ byte :: bytes).rtake localLlmTranscriptBytes := by
            rw [List.append_assoc, List.singleton_append]

/-- The outputs of any number of calls are seen as one. -/
theorem bytes_foldl (h : t.len ≤ localLlmTranscriptBytes) (outputs : List (List U8)) :
    (outputs.foldl observeShellOutput t).bytes =
      (t.bytes ++ outputs.flatten).rtake localLlmTranscriptBytes := by
  have flat : outputs.foldl observeShellOutput t = t.observeShellOutput outputs.flatten := by
    rw [observeShellOutput, List.foldl_flatten]
    rfl
  rw [flat, bytes_observeShellOutput h]

end Transcript

/-! ### The rejected command -/

/-- The command with the newline that `append_local_llm_shell_error` ends it with. -/
def ended (command : List U8) : List U8 :=
  if command.getLast? = some newline then command else command ++ [newline]

theorem appendLocalLlmShellError_eq (transcript command : List U8) :
    appendLocalLlmShellError transcript command =
      (transcript ++ ended command ++ shellInvalidCommand).rtake localLlmTranscriptBytes := rfl

/-- **The window.**  Of all that was observed the transcript is the last 768 bytes, of a transcript,
a rejected command and its error what is appended are the last 768, and to append them to the
transcript is to observe them. -/
theorem transcript_window (outputs : List (List U8)) (transcript command : List U8) :
    let source := outputs.foldl Transcript.observeShellOutput .empty
    source.bytes = outputs.flatten.rtake localLlmTranscriptBytes ∧
      source.bytes.length = min outputs.flatten.length localLlmTranscriptBytes ∧
      appendLocalLlmShellError transcript command =
        (transcript ++ ended command ++ shellInvalidCommand).rtake localLlmTranscriptBytes ∧
      appendLocalLlmShellError source.bytes command =
        (source.observeShellOutput (ended command ++ shellInvalidCommand)).bytes ∧
      appendLocalLlmShellError source.bytes command =
        (outputs.flatten ++ ended command ++ shellInvalidCommand).rtake
          localLlmTranscriptBytes := by
  intro source
  have empty : Transcript.empty.len ≤ localLlmTranscriptBytes := Nat.zero_le _
  have window : source.bytes = outputs.flatten.rtake localLlmTranscriptBytes :=
    Transcript.bytes_foldl empty outputs
  have fits : source.len ≤ localLlmTranscriptBytes := by
    rw [← Transcript.length_bytes, window, length_rtake]
    exact min_le_right _ _
  refine ⟨window, by rw [window, length_rtake], rfl, ?_, ?_⟩
  · rw [Transcript.bytes_observeShellOutput fits, appendLocalLlmShellError_eq, List.append_assoc]
  · rw [appendLocalLlmShellError_eq, window, List.append_assoc, rtake_rtake_append,
      List.append_assoc]

end HibanaPico.UnoQ
