import HibanaPico.Support.Runs
import HibanaPico.UnoQ.HumanInput
import HibanaPico.UnoQ.Transcript
import Mathlib.Data.List.Infix

/-!
# Uno Q — The scripted face cycle

Without a language model the host answers the guest's reads from a script: `ls`, then the face of
the turn's ordinal, which it holds until the next turn.  The ordinal is a `u8`, and the cycle has
twenty frames.

* `cycleFrame_eq_iff`: which ordinals show the same frame.
* `FaceLoop.Inv.served`: what every read of a run was answered.
* `exists_run`: the script answers any number of reads.
* `face_cycle_iff`: the turns that show the frame of the cycle, after the hold of the last one.
-/

namespace HibanaPico.UnoQ
open HibanaPico.Support
open HibanaPico.Transport
open HibanaPico.SensorPanel (Pico2wSensorSample pico2wSensorStatusPending pico2wSensorStatusStale
  pico2wSensorStatusFresh U16)

/-! ### The frames -/

/-- `UNO_Q_FACE_EMOTION_FRAMES`. -/
def faceEmotionFrames : List U8 :=
  [faceHappy, faceAngry, faceSad, faceSurprised, faceHappy, faceAngry, faceSad, faceSurprised,
    faceHappy, faceAngry, faceSad, faceSurprised]

/-- `UNO_Q_FACE_MOUTH_FRAMES`. -/
def faceMouthFrames : List U8 :=
  [faceMouthClosed, faceMouthSmall, faceMouthWide, faceMouthRound, faceMouthClosed, faceMouthSmall,
    faceMouthWide, faceMouthRound]

/-- `UNO_Q_FACE_CYCLE_FRAME_COUNT`. -/
def faceCycleFrameCount : ℕ := faceEmotionFrames.length + faceMouthFrames.length

/-- `UNO_Q_FACE_EMOTION_HOLD_US` and `UNO_Q_FACE_MOUTH_HOLD_US`. -/
def faceEmotionHoldUs : ℕ := 500000
def faceMouthHoldUs : ℕ := 250000

/-- The frame at an index of the cycle: the lookup that `face_hold_us_for_ordinal` and
`local_llm_face_label_for_ordinal` each have. -/
def frameAt (index : ℕ) (h : index < faceCycleFrameCount) : U8 :=
  if emotion : index < faceEmotionFrames.length then faceEmotionFrames[index]
  else
    have : index - faceEmotionFrames.length < faceMouthFrames.length := by
      rw [faceCycleFrameCount] at h
      omega
    faceMouthFrames[index - faceEmotionFrames.length]

/-- The frame of a turn. -/
def cycleFrame (n : ℕ) : U8 :=
  frameAt (n % faceCycleFrameCount) (Nat.mod_lt _ (by decide))

/-- `face_hold_us`. -/
def faceHoldUs (face : U8) : ℕ :=
  if face = faceMouthClosed ∨ face = faceMouthSmall ∨ face = faceMouthWide ∨
      face = faceMouthRound then faceMouthHoldUs
  else faceEmotionHoldUs

/-- `face_hold_us_for_ordinal`. -/
def faceHoldUsForOrdinal (ordinal : U8) : ℕ := faceHoldUs (cycleFrame ordinal.toNat)

/-- `face_shell_label`. -/
def faceShellLabel (face : U8) : Except UnoQRuntimeError (List U8) :=
  if face = faceHappy then .ok (ascii ['h'])
  else if face = faceAngry then .ok (ascii ['a'])
  else if face = faceSad then .ok (ascii ['s'])
  else if face = faceSurprised then .ok (ascii ['u'])
  else if face = faceMouthClosed then .ok (ascii ['m', 'c'])
  else if face = faceMouthSmall then .ok (ascii ['m', 's'])
  else if face = faceMouthWide then .ok (ascii ['m', 'w'])
  else if face = faceMouthRound then .ok (ascii ['m', 'r'])
  else .error .runtimeViolation

/-- `local_llm_face_label_for_ordinal`. -/
def localLlmFaceLabelForOrdinal (ordinal : U8) : Except UnoQRuntimeError (List U8) :=
  faceShellLabel (cycleFrame ordinal.toNat)

/-! ### The script -/

/-- `b"ls\n"`. -/
def lsCommand : List U8 := ascii ['l', 's'] ++ [newline]

/-- `copy_command_bytes`. -/
def copyCommandBytes (bytes : List U8) : Except UnoQRuntimeError (List U8) :=
  if bytes = [] ∨ bytes.length > localLlmCommandBytes then .error .runtimeViolation else .ok bytes

/-- The loop of `copy_face_echo_command`, over what it has copied. -/
def copyParts (out : List U8) : List (List U8) → Except UnoQRuntimeError (List U8)
  | [] => .ok out
  | bytes :: rest =>
      if out.length + bytes.length > localLlmCommandBytes then .error .runtimeViolation
      else copyParts (out ++ bytes) rest

/-- `copy_face_echo_command`. -/
def copyFaceEchoCommand (label : List U8) : Except UnoQRuntimeError (List U8) :=
  copyParts [] [echoPrefix, label, faceRedirect ++ [newline]]

/-- `scripted_local_llm_shell_command`. -/
def scriptedLocalLlmShellCommand (phase ordinal : U8) : Except UnoQRuntimeError (List U8) :=
  if phase = 0 then copyCommandBytes lsCommand
  else (localLlmFaceLabelForOrdinal ordinal).bind copyFaceEchoCommand

/-- The needles of `scripted_human_request_shell_command` are the commands of these labels. -/
def requestLabels : List (List U8) :=
  [ascii ['h'], ascii ['a'], ascii ['s'], ascii ['u'], ascii ['m', 'c'], ascii ['m', 's'],
    ascii ['m', 'w'], ascii ['m', 'r']]

/-- `scripted_human_request_shell_command`. -/
def scriptedHumanRequestShellCommand (request : List U8) :
    Except UnoQRuntimeError (Option (List U8)) :=
  match requestLabels.find? fun label => decide (echoCommand label <:+: request) with
  | some label => (copyFaceEchoCommand label).map some
  | none => .ok none

/-- `PICO2W_LIGHT_WEAK_RAW` and `PICO2W_LIGHT_STRONG_RAW`. -/
def pico2wLightWeakRaw : U16 := 400
def pico2wLightStrongRaw : U16 := 3000

/-- `pico2w_light_face_label`. -/
def pico2wLightFaceLabel (lightRaw : U16) : List U8 :=
  if lightRaw ≤ pico2wLightWeakRaw then ascii ['s']
  else if lightRaw ≥ pico2wLightStrongRaw then ascii ['u']
  else ascii ['h']

/-- `scripted_pico2w_sensor_shell_command`. -/
def scriptedPico2wSensorShellCommand (sample : Pico2wSensorSample) (humanInputPresent : Bool) :
    Except UnoQRuntimeError (Option (List U8)) :=
  if sample.status = pico2wSensorStatusPending then .ok none
  else if sample.status = pico2wSensorStatusStale ∧ humanInputPresent = false then
    (copyFaceEchoCommand (ascii ['s'])).map some
  else if sample.status ≠ pico2wSensorStatusFresh then .ok none
  else (copyFaceEchoCommand (pico2wLightFaceLabel sample.lightRaw)).map some

/-! ### The source of the commands -/

/-- What the role is built for: the host, which paces the loop or does not, or the bare target,
whose script knows neither the human nor the sensor. -/
inductive LlmBuild where
  | host (paced : Bool)
  | bare
  deriving DecidableEq, Repr

/-- `face_loop_pacing_enabled`. -/
def LlmBuild.faceLoopPacingEnabled : LlmBuild → Bool
  | .host paced => paced
  | .bare => false

structure LocalLlmPromptContext where
  humanRequest : Option (List U8)
  sensorSample : Pico2wSensorSample

/-- The command that the human or the sensor has in place of the script's face. -/
def LocalLlmPromptContext.override (context : LocalLlmPromptContext) :
    Except UnoQRuntimeError (Option (List U8)) := do
  if let some request := context.humanRequest then
    if let some command ← scriptedHumanRequestShellCommand request then
      return some command
  scriptedPico2wSensorShellCommand context.sensorSample context.humanRequest.isSome

/-- `LocalLlmCommandSource::next_command` of a `Scripted` one. -/
def scriptedNextCommand (phase ordinal : U8) (context : LocalLlmPromptContext) :
    Except UnoQRuntimeError (List U8) := do
  if phase ≠ 0 then
    if let some command ← context.override then
      return command
  scriptedLocalLlmShellCommand phase ordinal

/-- A `LocalLlmShellSource`, whose command source is the script. -/
structure LocalLlmShellSource where
  transcript : Transcript
  readPhase : U8
  ordinal : U8
  context : LocalLlmPromptContext

namespace LocalLlmShellSource

def new : LocalLlmShellSource := ⟨.empty, 0, 0, ⟨none, .pending 0⟩⟩

/-- `wait_before_cycle`: how long it sleeps, where it does. -/
def waitBeforeCycle (build : LlmBuild) (self : LocalLlmShellSource) : Option ℕ :=
  if self.ordinal = 0 then none
  else if build.faceLoopPacingEnabled then some (faceHoldUsForOrdinal (self.ordinal - 1))
  else none

/-- How long `next_command` sleeps first. -/
def holdBeforeRead (build : LlmBuild) (self : LocalLlmShellSource) : Option ℕ :=
  if self.readPhase = 0 then self.waitBeforeCycle build else none

/-- The command that `next_command` asks its source for. -/
def command (build : LlmBuild) (self : LocalLlmShellSource) :
    Except UnoQRuntimeError (List U8) :=
  match build with
  | .host _ => scriptedNextCommand self.readPhase self.ordinal self.context
  | .bare => scriptedLocalLlmShellCommand self.readPhase self.ordinal

/-- The phase and the ordinal after a command. -/
def advance (self : LocalLlmShellSource) : LocalLlmShellSource :=
  if self.readPhase = 0 then { self with readPhase := 1 }
  else { self with readPhase := 0, ordinal := self.ordinal + 1 }

/-- `next_command`: the sleep before it, and the command. -/
def nextCommand (build : LlmBuild) (self : LocalLlmShellSource) (maxLen : ℕ) :
    Except UnoQRuntimeError ((Option ℕ × List U8) × LocalLlmShellSource) := do
  let command ← self.command build
  if command.length = 0 ∨ command.length > maxLen then
    throw .runtimeViolation
  let later := { self with transcript := self.transcript.observeShellOutput command }
  return ((self.holdBeforeRead build, command), later.advance)

end LocalLlmShellSource

/-! ### The machine -/

/-- A read that was answered: the sleep before it, what the human and the sensor had said, and the
command. -/
structure Served where
  hold : Option ℕ
  context : LocalLlmPromptContext
  command : List U8

/-- The role: its source, and the reads that it answered. -/
structure FaceLoop where
  source : LocalLlmShellSource
  served : List Served

inductive FaceLoopAction where
  /-- The guest reads a command of at most so many bytes. -/
  | read (maxLen : ℕ)
  /-- The guest writes to its standard output. -/
  | write (bytes : List U8)
  | humanInput (input : HumanInputText)
  | sensorSample (sample : Pico2wSensorSample)

namespace FaceLoop

def init : FaceLoop := ⟨.new, []⟩

/-- The context after `observe_human_input` and `observe_pico2w_sensor_sample`, of which the bare
target has neither. -/
def observe (build : LlmBuild) (s : FaceLoop) (context : LocalLlmPromptContext) : FaceLoop :=
  match build with
  | .host _ => { s with source := { s.source with context := context } }
  | .bare => s

/-- A step of the role, which an error ends. -/
def next (build : LlmBuild) (s : FaceLoop) : FaceLoopAction → Option FaceLoop
  | .read maxLen =>
      match s.source.nextCommand build maxLen with
      | .ok ((hold, command), source) =>
          some ⟨source, s.served ++ [⟨hold, s.source.context, command⟩]⟩
      | .error _ => none
  | .write bytes =>
      let transcript := s.source.transcript.observeShellOutput bytes
      some { s with source := { s.source with transcript := transcript } }
  | .humanInput input =>
      match observeHumanInput input with
      | .ok request => some (s.observe build { s.source.context with humanRequest := request })
      | .error _ => none
  | .sensorSample sample => some (s.observe build { s.source.context with sensorSample := sample })

end FaceLoop

def faceLoopMachine (build : LlmBuild) : Machine FaceLoop FaceLoopAction := ⟨FaceLoop.next build⟩

/-! ### What a turn should be -/

/-- The script answered the read: neither the human nor the sensor had a command in its place. -/
def Served.Scripted (build : LlmBuild) (served : Served) : Prop :=
  build = .bare ∨ served.context.override = .ok none

/-- The command puts a frame on the matrix. -/
def Shows (command : List U8) (face : U8) : Prop :=
  ∃ label, faceShellLabel face = .ok label ∧ command = echoCommand label ++ [newline]

/-- The turn reads `ls` and then the frame of the cycle, after a paced loop has held the frame that
the turn before it showed. -/
structure TurnRight (build : LlmBuild) (served : List Served) (n : ℕ) : Prop where
  discovery : (served[2 * n]?).map Served.command = some lsCommand
  face : ∀ face, served[2 * n + 1]? = some face → face.Scripted build →
    Shows face.command (cycleFrame n)
  hold : build.faceLoopPacingEnabled = true → ∀ m shown, n = m + 1 →
    served[2 * m + 1]? = some shown → shown.Scripted build → ∃ face, Shows shown.command face ∧
      (served[2 * n]?).map Served.hold = some (some (faceHoldUs face))

/-- The ordinal of a turn has its frame: it lies in the same part of the cycle. -/
def SameFrame (n : ℕ) : Prop :=
  n % 256 % faceCycleFrameCount < faceEmotionFrames.length ↔
    n % faceCycleFrameCount < faceEmotionFrames.length

instance (n : ℕ) : Decidable (SameFrame n) := inferInstanceAs (Decidable (_ ↔ _))

/-! ### The frames, read back -/

theorem label_frameAt : ∀ i : Fin faceCycleFrameCount,
    ∃ label ∈ requestLabels, faceShellLabel (frameAt i i.isLt) = .ok label := by
  decide +kernel

/-- Every frame of the cycle has a label. -/
theorem faceShellLabel_cycleFrame (n : ℕ) :
    ∃ label ∈ requestLabels, faceShellLabel (cycleFrame n) = .ok label :=
  label_frameAt ⟨n % faceCycleFrameCount, Nat.mod_lt _ (by decide)⟩

theorem frameAt_eq_iff : ∀ i j : Fin faceCycleFrameCount,
    frameAt i i.isLt = frameAt j j.isLt ↔
      i.val % 4 = j.val % 4 ∧
        (i.val < faceEmotionFrames.length ↔ j.val < faceEmotionFrames.length) := by
  decide +kernel

/-- Two turns show the same frame when they agree modulo four and both show an emotion, or both a
mouth. -/
theorem cycleFrame_eq_iff (m n : ℕ) :
    cycleFrame m = cycleFrame n ↔ m % 4 = n % 4 ∧
      (m % faceCycleFrameCount < faceEmotionFrames.length ↔
        n % faceCycleFrameCount < faceEmotionFrames.length) := by
  have four (k : ℕ) : k % faceCycleFrameCount % 4 = k % 4 :=
    Nat.mod_mod_of_dvd k (by decide)
  have := frameAt_eq_iff ⟨m % faceCycleFrameCount, Nat.mod_lt _ (by decide)⟩
    ⟨n % faceCycleFrameCount, Nat.mod_lt _ (by decide)⟩
  rwa [four, four] at this

/-- The ordinal of a turn, a `u8`, has its frame exactly when it lies in the same part. -/
theorem cycleFrame_mod_eq_iff (n : ℕ) : cycleFrame (n % 256) = cycleFrame n ↔ SameFrame n := by
  rw [cycleFrame_eq_iff, Nat.mod_mod_of_dvd n (by decide)]
  exact and_iff_right rfl

/-- The guest reads the label of a face as that face. -/
theorem decodeFaceCode_of_faceShellLabel {face : U8} {label : List U8}
    (h : faceShellLabel face = .ok label) : decodeFaceCode label = some face := by
  rw [faceShellLabel] at h
  split at h
  next is => cases h; rw [is]; rfl
  split at h
  next is => cases h; rw [is]; rfl
  split at h
  next is => cases h; rw [is]; rfl
  split at h
  next is => cases h; rw [is]; rfl
  split at h
  next is => cases h; rw [is]; rfl
  split at h
  next is => cases h; rw [is]; rfl
  split at h
  next is => cases h; rw [is]; rfl
  split at h
  next is => cases h; rw [is]; rfl
  cases h

/-- A command shows one frame at most. -/
theorem Shows.unique {command : List U8} {f g : U8} (hf : Shows command f)
    (hg : Shows command g) : f = g := by
  obtain ⟨label, named, rfl⟩ := hf
  obtain ⟨other, hother, same⟩ := hg
  obtain rfl : label = other := echoCommand_injective (List.append_cancel_right same)
  exact Option.some.inj ((decodeFaceCode_of_faceShellLabel named).symm.trans
    (decodeFaceCode_of_faceShellLabel hother))

/-! ### The commands of the script -/

theorem copyFaceEchoCommand_eq {label : List U8} (mem : label ∈ requestLabels) :
    copyFaceEchoCommand label = .ok (echoCommand label ++ [newline]) := by
  revert label
  decide +kernel

theorem length_requestLabels {label : List U8} (mem : label ∈ requestLabels) :
    label.length ≤ 2 := by
  revert label
  decide

/-- The script has a command for every phase and ordinal, and room for it. -/
theorem scripted_of_phase (phase ordinal : U8) :
    ∃ command, scriptedLocalLlmShellCommand phase ordinal = .ok command ∧
      0 < command.length ∧ command.length ≤ localLlmCommandBytes ∧
      (phase = 0 → command = lsCommand) ∧
      (phase ≠ 0 → Shows command (cycleFrame ordinal.toNat)) := by
  by_cases first : phase = 0
  · exact ⟨lsCommand, by rw [first]; rfl, by decide, by decide, fun _ => rfl, absurd first⟩
  · obtain ⟨label, mem, named⟩ := faceShellLabel_cycleFrame ordinal.toNat
    have short := length_requestLabels mem
    refine ⟨echoCommand label ++ [newline], ?_, ?_, ?_, fun h => absurd h first,
      fun _ => ⟨label, named, rfl⟩⟩
    · rw [scriptedLocalLlmShellCommand, if_neg first, localLlmFaceLabelForOrdinal, named]
      exact copyFaceEchoCommand_eq mem
    · rw [List.length_append]
      exact Nat.add_pos_right _ Nat.one_pos
    · rw [List.length_append, length_echoCommand, localLlmCommandBytes, List.length_singleton]
      omega

namespace LocalLlmShellSource

variable {build : LlmBuild} {self self' : LocalLlmShellSource} {maxLen : ℕ} {hold : Option ℕ}
  {command : List U8}

/-- In the phase of discovery neither the human nor the sensor is asked. -/
theorem command_of_phase_zero (first : self.readPhase = 0) :
    self.command build = .ok lsCommand := by
  cases build with
  | host paced =>
      show scriptedNextCommand self.readPhase self.ordinal self.context = _
      rw [first]
      rfl
  | bare =>
      show scriptedLocalLlmShellCommand self.readPhase self.ordinal = _
      rw [first]
      rfl

/-- What neither the human nor the sensor has a command for is left to the script. -/
theorem command_of_scripted (free : build = .bare ∨ self.context.override = .ok none) :
    self.command build = scriptedLocalLlmShellCommand self.readPhase self.ordinal := by
  cases build with
  | bare => rfl
  | host paced =>
      obtain bare | free := free
      · cases bare
      · show scriptedNextCommand self.readPhase self.ordinal self.context = _
        rw [scriptedNextCommand, free]
        split <;> rfl

/-- **`next_command`.**  It answers with its source's command, where there is room for it. -/
theorem nextCommand_eq (asked : self.command build = .ok command) (maxLen : ℕ) :
    self.nextCommand build maxLen =
      if command.length = 0 ∨ command.length > maxLen then .error .runtimeViolation
      else .ok ((self.holdBeforeRead build, command),
        { self with transcript := self.transcript.observeShellOutput command }.advance) := by
  rw [nextCommand, asked]
  by_cases bad : command.length = 0 ∨ command.length > maxLen
  · simp only [bind, Except.bind, if_pos bad]
    rfl
  · simp only [bind, Except.bind, if_neg bad]
    rfl

theorem nextCommand_ok (h : self.nextCommand build maxLen = .ok ((hold, command), self')) :
    self.command build = .ok command ∧ hold = self.holdBeforeRead build ∧
      self' = { self with transcript := self.transcript.observeShellOutput command }.advance := by
  cases asked : self.command build with
  | error e =>
      rw [nextCommand, asked] at h
      cases h
  | ok found =>
      rw [nextCommand_eq asked] at h
      split at h
      · cases h
      · cases h
        exact ⟨rfl, rfl, rfl⟩

end LocalLlmShellSource

/-! ### The runs -/

/-- The sleep before a turn. -/
def holdBefore (build : LlmBuild) (n : ℕ) : Option ℕ :=
  if n % 256 = 0 then none
  else if build.faceLoopPacingEnabled then some (faceHoldUs (cycleFrame (n % 256 - 1)))
  else none

/-- The phase and the ordinal count the reads, and every read was answered by its turn. -/
structure FaceLoop.Inv (build : LlmBuild) (s : FaceLoop) : Prop where
  phase : s.source.readPhase = BitVec.ofNat 8 (s.served.length % 2)
  ordinal : s.source.ordinal = BitVec.ofNat 8 (s.served.length / 2)
  discovery : ∀ n served, s.served[2 * n]? = some served →
    served.command = lsCommand ∧ served.hold = holdBefore build n
  face : ∀ n served, s.served[2 * n + 1]? = some served → served.Scripted build →
    Shows served.command (cycleFrame (n % 256))

theorem waitBeforeCycle_eq (build : LlmBuild) {self : LocalLlmShellSource} {n : ℕ}
    (h : self.ordinal = BitVec.ofNat 8 n) : self.waitBeforeCycle build = holdBefore build n := by
  have value : self.ordinal.toNat = n % 256 := by rw [h, BitVec.toNat_ofNat]
  have zero : self.ordinal = 0 ↔ n % 256 = 0 := by
    rw [← value]
    exact BitVec.toNat_eq
  rw [LocalLlmShellSource.waitBeforeCycle, holdBefore]
  refine if_ctx_congr zero (fun _ => rfl) fun ne => ?_
  have before : (self.ordinal - 1).toNat = n % 256 - 1 := by
    have : (self.ordinal - 1).toNat = self.ordinal.toNat - 1 :=
      BitVec.toNat_sub_of_le (by rw [BitVec.le_def, value]; exact Nat.one_le_iff_ne_zero.mpr ne)
    rw [this, value]
  rw [faceHoldUsForOrdinal, before]

namespace FaceLoop

variable {build : LlmBuild} {s t : FaceLoop}

theorem inv_init : init.Inv build where
  phase := rfl
  ordinal := rfl
  discovery n served h := by cases h
  face n served h := by cases h

/-- The phase and the ordinal after one more read. -/
theorem advance_counts (source : LocalLlmShellSource) {k : ℕ}
    (phase : source.readPhase = BitVec.ofNat 8 (k % 2))
    (ordinal : source.ordinal = BitVec.ofNat 8 (k / 2)) :
    source.advance.readPhase = BitVec.ofNat 8 ((k + 1) % 2) ∧
      source.advance.ordinal = BitVec.ofNat 8 ((k + 1) / 2) := by
  rw [LocalLlmShellSource.advance]
  rcases Nat.mod_two_eq_zero_or_one k with even | odd
  · rw [if_pos (by rw [phase, even]; rfl), ordinal]
    have one : (k + 1) % 2 = 1 := by omega
    have half : (k + 1) / 2 = k / 2 := by omega
    rw [one, half]
    exact ⟨rfl, rfl⟩
  · rw [if_neg (by rw [phase, odd]; decide), ordinal]
    have zero : (k + 1) % 2 = 0 := by omega
    have half : (k + 1) / 2 = k / 2 + 1 := by omega
    rw [zero, half, BitVec.ofNat_add]
    exact ⟨rfl, rfl⟩

/-- A read is answered by its turn. -/
theorem Inv.read (I : s.Inv build) {hold : Option ℕ} {command : List U8}
    {source : LocalLlmShellSource} {maxLen : ℕ}
    (h : s.source.nextCommand build maxLen = .ok ((hold, command), source)) :
    Inv build ⟨source, s.served ++ [⟨hold, s.source.context, command⟩]⟩ := by
  obtain ⟨asked, rfl, rfl⟩ := LocalLlmShellSource.nextCommand_ok h
  let later := { s.source with transcript := s.source.transcript.observeShellOutput command }
  have counts := advance_counts later I.phase I.ordinal
  refine ⟨?_, ?_, fun n served at_n => ?_, fun n served at_n free => ?_⟩
  · rw [List.length_append, List.length_singleton]
    exact counts.1
  · rw [List.length_append, List.length_singleton]
    exact counts.2
  · rcases getElem?_concat_cases at_n with earlier | ⟨now, rfl⟩
    · exact I.discovery n served earlier
    have first : s.source.readPhase = 0 := by
      rw [I.phase, ← now, Nat.mul_mod_right]
      rfl
    have turn : s.source.ordinal = BitVec.ofNat 8 n := by
      rw [I.ordinal, ← now, Nat.mul_div_cancel_left n Nat.two_pos]
    constructor
    · exact Except.ok.inj (asked.symm.trans (s.source.command_of_phase_zero first))
    · exact (if_pos first).trans (waitBeforeCycle_eq build turn)
  · rcases getElem?_concat_cases at_n with earlier | ⟨now, rfl⟩
    · exact I.face n served earlier free
    have second : s.source.readPhase ≠ 0 := by
      have odd : s.served.length % 2 = 1 := by omega
      rw [I.phase, odd]
      decide
    have turn : s.source.ordinal.toNat = n % 256 := by
      have half : s.served.length / 2 = n := by omega
      rw [I.ordinal, half, BitVec.toNat_ofNat]
    obtain ⟨found, scripted, -, -, -, shows⟩ :=
      scripted_of_phase s.source.readPhase s.source.ordinal
    obtain rfl : found = command := Except.ok.inj <|
      scripted.symm.trans ((s.source.command_of_scripted free).symm.trans asked)
    rw [← turn]
    exact shows second

/-- What is observed changes neither the reads nor their count. -/
theorem Inv.of_source (I : s.Inv build) {source : LocalLlmShellSource}
    (phase : source.readPhase = s.source.readPhase) (ordinal : source.ordinal = s.source.ordinal) :
    Inv build { s with source := source } :=
  ⟨phase.trans I.phase, ordinal.trans I.ordinal, I.discovery, I.face⟩

theorem Inv.observe (I : s.Inv build) (context : LocalLlmPromptContext) :
    (s.observe build context).Inv build := by
  cases build with
  | host paced => exact I.of_source rfl rfl
  | bare => exact I

theorem Inv.next {a : FaceLoopAction} (I : s.Inv build) (h : s.next build a = some t) :
    t.Inv build := by
  cases a with
  | read maxLen =>
      simp only [FaceLoop.next] at h
      split at h
      next answered =>
        cases h
        exact I.read answered
      next => cases h
  | write bytes =>
      cases h
      exact I.of_source rfl rfl
  | humanInput input =>
      simp only [FaceLoop.next] at h
      split at h
      next =>
        cases h
        exact I.observe _
      next => cases h
  | sensorSample sample =>
      cases h
      exact I.observe _

theorem inv_exec {actions : List FaceLoopAction}
    (h : (faceLoopMachine build).exec init actions = some s) : s.Inv build :=
  Machine.exec_keeps (fun _ _ _ I next => I.next next) inv_init h

/-- The script answers every read that has room, and nothing else changes what was said. -/
theorem next_read (free : build = .bare ∨ s.source.context.override = .ok none) :
    ∃ answer source, s.next build (.read localLlmCommandBytes) =
      some ⟨source, s.served ++ [answer]⟩ ∧ source.context = s.source.context ∧
        answer.context = s.source.context := by
  obtain ⟨command, scripted, pos, fits, -, -⟩ :=
    scripted_of_phase s.source.readPhase s.source.ordinal
  have room : ¬ (command.length = 0 ∨ command.length > localLlmCommandBytes) := by omega
  have asked := (s.source.command_of_scripted free).trans scripted
  have answered := (LocalLlmShellSource.nextCommand_eq asked localLlmCommandBytes).trans
    (if_neg room)
  let later := { s.source with transcript := s.source.transcript.observeShellOutput command }
  refine ⟨⟨s.source.holdBeforeRead build, s.source.context, command⟩, later.advance, ?_, ?_, rfl⟩
  · simp only [next, answered, later]
  · rw [LocalLlmShellSource.advance]
    split <;> rfl

/-- **Any number of reads.**  While nobody has a command in its place, the script answers. -/
theorem exists_run (build : LlmBuild) (k : ℕ) :
    ∃ s, (faceLoopMachine build).exec init (List.replicate k (.read localLlmCommandBytes)) =
        some s ∧ s.served.length = k ∧ s.source.context = LocalLlmShellSource.new.context ∧
      ∀ served ∈ s.served, served.Scripted build := by
  have silent : LocalLlmShellSource.new.context.override = .ok none := rfl
  induction k with
  | zero => exact ⟨init, rfl, rfl, rfl, fun served mem => by cases mem⟩
  | succ k ih =>
      obtain ⟨s, ran, length, context, scripted⟩ := ih
      obtain ⟨answer, source, read, kept, heard⟩ :=
        @next_read build s (.inr (by rw [context, silent]))
      refine ⟨⟨source, s.served ++ [answer]⟩, ?_, ?_, kept.trans context, fun served mem => ?_⟩
      · rw [List.replicate_succ', Machine.exec_append]
        exact ⟨s, ran, Machine.exec_cons.mpr ⟨_, read, rfl⟩⟩
      · rw [List.length_append, length, List.length_singleton]
      · rcases List.mem_append.mp mem with earlier | now
        · exact scripted served earlier
        · rw [List.mem_singleton.mp now]
          exact .inr (by rw [heard, context, silent])

end FaceLoop

/-! ### The cycle -/

/-- **The face cycle.**  A turn reads `ls`, and shows its frame of the cycle after the hold of the
frame before it, exactly when its ordinal lies in the same part of the cycle as the turn and, in a
paced loop, has not come round to zero. -/
theorem face_cycle_iff {build : LlmBuild} {actions : List FaceLoopAction} {s : FaceLoop}
    (h : (faceLoopMachine build).exec .init actions = some s) {n : ℕ}
    (complete : 2 * n + 1 < s.served.length) :
    TurnRight build s.served n ↔
      (∀ face, s.served[2 * n + 1]? = some face → face.Scripted build → SameFrame n) ∧
        (build.faceLoopPacingEnabled = true → ∀ m shown, n = m + 1 →
          s.served[2 * m + 1]? = some shown → shown.Scripted build → n % 256 ≠ 0) := by
  have I := FaceLoop.inv_exec h
  obtain ⟨discovery, found⟩ : ∃ discovery, s.served[2 * n]? = some discovery :=
    ⟨_, List.getElem?_eq_getElem (by omega)⟩
  obtain ⟨ls, hold⟩ := I.discovery n discovery found
  constructor
  · rintro ⟨-, right, held⟩
    refine ⟨fun face hface free => ?_, fun paced m shown after hshown free wrapped => ?_⟩
    · have same := (I.face n face hface free).unique (right face hface free)
      exact (cycleFrame_mod_eq_iff n).mp same
    · obtain ⟨face, -, slept⟩ := held paced m shown after hshown free
      rw [found, Option.map_some, hold, holdBefore, if_pos wrapped] at slept
      cases Option.some.inj slept
  · rintro ⟨same, unwrapped⟩
    refine ⟨by rw [found, Option.map_some, ls], fun face hface free => ?_,
      fun paced m shown after hshown free => ?_⟩
    · rw [← (cycleFrame_mod_eq_iff n).mpr (same face hface free)]
      exact I.face n face hface free
    · have ne := unwrapped paced m shown after hshown free
      have before : n % 256 - 1 = m % 256 := by omega
      refine ⟨cycleFrame (m % 256), I.face m shown hshown free, ?_⟩
      rw [found, Option.map_some, hold, holdBefore, if_neg ne, if_pos paced, before]

/-- The second turn of a paced loop, which holds the frame that the script showed in the first. -/
theorem face_cycle_second :
    ∃ s, (faceLoopMachine (.host true)).exec .init (List.replicate 4 (.read 30)) = some s ∧
      (∃ shown, s.served[1]? = some shown ∧ shown.Scripted (.host true)) ∧
      (s.served[2]?).map Served.hold = some (some faceEmotionHoldUs) ∧
      TurnRight (.host true) s.served 1 :=
  ⟨_, rfl, ⟨_, rfl, .inr rfl⟩, rfl,
    (@face_cycle_iff (.host true) (List.replicate 4 (.read 30)) _ rfl 1 (by decide)).mpr
      ⟨fun _ _ _ => (by decide), fun _ _ _ _ _ _ => (by decide)⟩⟩

/-- After 256 turns the script begins the cycle again, at the frame after the sixteenth. -/
theorem face_cycle_wraps : ¬ ∀ build actions s n,
    (faceLoopMachine build).exec .init actions = some s → 2 * n + 1 < s.served.length →
      TurnRight build s.served n := by
  intro right
  obtain ⟨s, ran, length, -, scripted⟩ := FaceLoop.exists_run (.host true) 514
  have last : 2 * 256 + 1 < s.served.length := by omega
  have shown := List.getElem?_eq_getElem last
  have turn := right _ _ s 256 ran last
  have same := ((face_cycle_iff ran last).mp turn).1 _ shown (scripted _ (List.getElem_mem last))
  exact absurd same (by decide)

end HibanaPico.UnoQ
