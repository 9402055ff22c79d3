import HibanaPico.UnoQ.Session

/-!
# Uno Q — The session's talk

What the five roles say to one another when each message is taken as soon as it is sent, and with
it what they do in any order of their calls.

* `Outside.Lawful`, `Inputs.Fits`: what the driver's facts, the runtime and the source of commands
  answer.
* `sourceAt`, `commandAt`: the source and its command at the n-th read.
* `open_talk`, `read_talk`, `stdout_talk`, `face_talk`: the parts of the talk.
* `session_conforms`: every run conforms to the choreography, no role gives up, and every run can go
  on to any number of faces.
-/

namespace HibanaPico.UnoQ
open Computability
open HibanaPico.Support
open HibanaPico.Support.Network (Talks)
open HibanaPico.Transport
open HibanaPico.SensorPanel (PathOpen FdRead FdWrite LedgerFdFact findLedgerFd Pico2wSensorSample
  U16 U64)

/-- The facts of the one object of `UNO_Q_DRIVER_FACTS`, the runtime's requests for the files of the
shell, and replies that carry what fits the shell's buffer. -/
structure Outside.Lawful (E : Outside) : Prop where
  pathOpen : ∀ file, E.pathOpen file = ⟨preopenFd, file.rights, file.path⟩
  resolve : E.fs.resolve faceFramePath = some faceFrameObject
  fds : E.fs.fds = [⟨faceFrameFd.toNat, faceFrameObject, fdWriteRight⟩]
  ledgerFd : E.fs.ledgerFd faceFrameFd.toNat =
    some ⟨faceFrameFd.toNat, faceFrameObject, fdWriteRight⟩
  carries : ∀ bytes, bytes.length ≤ 30 → E.fdReadDone bytes = true

/-- The command is of 1 to 30 bytes, as many as the shell has room for, and a face exactly in the
phase of faces. -/
structure FitsPhase (phase : U8) (command : List U8) : Prop where
  pos : 0 < command.length
  short : command.length ≤ 30
  face : phase ≠ 0 ↔ ∃ kind, readCommand command = .face kind

/-- The source has a command for every call that fits the phase of the call. -/
def Inputs.Fits (E : Inputs) : Prop :=
  ∀ n source, ∃ command, E.command n source = .ok command ∧ FitsPhase source.readPhase command

/-! ### The course of the language model -/

/-- What the model's context has of a text of the human's. -/
def requestOf (text : HumanInputText) : Option (List U8) :=
  if text.len = 0 then none else some text.asBytes

theorem observeHumanInput_eq (text : HumanInputText) :
    observeHumanInput text = .ok (requestOf text) := by
  rw [observeHumanInput, requestOf]
  split
  · rfl
  · rw [text.asStr_eq]

/-- The inputs of the n-th read. -/
def contextAt (E : Inputs) (n : ℕ) : LocalLlmPromptContext := ⟨requestOf (E.texts n), E.samples n⟩

/-- The source with the inputs of the n-th read. -/
def heard (E : Inputs) (n : ℕ) (source : LocalLlmShellSource) : LocalLlmShellSource :=
  { source with context := contextAt E n }

/-- The command of the n-th read. -/
def commandOf (E : Inputs) (n : ℕ) (source : LocalLlmShellSource) : List U8 :=
  match E.command n (heard E n source) with
  | .ok command => command
  | .error _ => []

/-- What the shell has for the model behind a command. -/
def stdoutText (command : List U8) : List U8 :=
  match readCommand command with
  | .catalog => shellCatalog
  | .invalid => shellInvalidCommand
  | .face _ => shellPrompt

/-- The source has seen the text. -/
def LocalLlmShellSource.saw (self : LocalLlmShellSource) (text : List U8) : LocalLlmShellSource :=
  { self with transcript := self.transcript.observeShellOutput text }

/-- The source behind the n-th read. -/
def served (E : Inputs) (n : ℕ) (source : LocalLlmShellSource) : LocalLlmShellSource :=
  ((heard E n source).saw (commandOf E n source)).advance

/-- The source before the n-th read. -/
def sourceAt (E : Inputs) : ℕ → LocalLlmShellSource
  | 0 => LocalLlmShellSource.new.saw shellPrompt
  | n + 1 => (served E n (sourceAt E n)).saw (stdoutText (commandOf E n (sourceAt E n)))

/-- The n-th command. -/
def commandAt (E : Inputs) (n : ℕ) : List U8 := commandOf E n (sourceAt E n)

theorem commandOf_fits {E : Inputs} (fits : E.Fits) (n : ℕ) (source : LocalLlmShellSource) :
    E.command n (heard E n source) = .ok (commandOf E n source) ∧
      FitsPhase source.readPhase (commandOf E n source) := by
  obtain ⟨command, answers, fit⟩ := fits n (heard E n source)
  have same : commandOf E n source = command := by
    rw [commandOf, answers]
  rw [same]
  exact ⟨answers, fit⟩

theorem serve_eq {E : Inputs} (fits : E.Fits) (n : ℕ) (source : LocalLlmShellSource) :
    (heard E n source).serve (E.command n (heard E n source)) 30 =
      some (commandOf E n source, served E n source) := by
  obtain ⟨answers, fit⟩ := commandOf_fits fits n source
  have room : ¬ ((commandOf E n source).length = 0 ∨ (commandOf E n source).length > 30) := by
    have := fit.pos
    have := fit.short
    omega
  simp only [LocalLlmShellSource.serve, answers]
  exact if_neg room

/-! ### One message -/

section
variable {E : Outside} {m33 : M33} {cell : Cell} {llm : LocalLlm} {human sensor : InputBoundary}
  {m : Msg} {w : List (Message Role Msg)} {later : ∀ role, Local role}

theorem cell_llm {next : Cell} {take : Msg → LocalLlm} {taken : LocalLlm}
    (sends : cell.call E.pathOpen = .send .localLlm m next)
    (takes : llm.call E.toInputs = .receive .wasiLlmCell take) (makes : take m = taken)
    (rest : (session E).Talks (locals m33 next taken human sensor) w later) :
    (session E).Talks (locals m33 cell llm human sensor)
      (⟨.wasiLlmCell, .localLlm, m⟩ :: w) later :=
  (Talks.one (p := Role.wasiLlmCell) (q := Role.localLlm) (by decide) sends takes
    (by subst makes; funext role; cases role <;> rfl)).append rest

theorem llm_cell {next : LocalLlm} {take : Msg → Cell} {taken : Cell}
    (sends : llm.call E.toInputs = .send .wasiLlmCell m next)
    (takes : cell.call E.pathOpen = .receive .localLlm take) (makes : take m = taken)
    (rest : (session E).Talks (locals m33 taken next human sensor) w later) :
    (session E).Talks (locals m33 cell llm human sensor)
      (⟨.localLlm, .wasiLlmCell, m⟩ :: w) later :=
  (Talks.one (p := Role.localLlm) (q := Role.wasiLlmCell) (by decide) sends takes
    (by subst makes; funext role; cases role <;> rfl)).append rest

theorem cell_m33 {next : Cell} {take : Msg → M33} {taken : M33}
    (sends : cell.call E.pathOpen = .send .m33LedKernel m next)
    (takes : m33.call E.fs = .receive .wasiLlmCell take) (makes : take m = taken)
    (rest : (session E).Talks (locals taken next llm human sensor) w later) :
    (session E).Talks (locals m33 cell llm human sensor)
      (⟨.wasiLlmCell, .m33LedKernel, m⟩ :: w) later :=
  (Talks.one (p := Role.wasiLlmCell) (q := Role.m33LedKernel) (by decide) sends takes
    (by subst makes; funext role; cases role <;> rfl)).append rest

theorem m33_cell {next : M33} {take : Msg → Cell} {taken : Cell}
    (sends : m33.call E.fs = .send .wasiLlmCell m next)
    (takes : cell.call E.pathOpen = .receive .m33LedKernel take) (makes : take m = taken)
    (rest : (session E).Talks (locals next taken llm human sensor) w later) :
    (session E).Talks (locals m33 cell llm human sensor)
      (⟨.m33LedKernel, .wasiLlmCell, m⟩ :: w) later :=
  (Talks.one (p := Role.m33LedKernel) (q := Role.wasiLlmCell) (by decide) sends takes
    (by subst makes; funext role; cases role <;> rfl)).append rest

theorem llm_human {next : LocalLlm} {take : Msg → InputBoundary} {taken : InputBoundary}
    (sends : llm.call E.toInputs = .send .humanInput m next)
    (takes : human.humanCall E.toInputs = .receive .localLlm take) (makes : take m = taken)
    (rest : (session E).Talks (locals m33 cell next taken sensor) w later) :
    (session E).Talks (locals m33 cell llm human sensor)
      (⟨.localLlm, .humanInput, m⟩ :: w) later :=
  (Talks.one (p := Role.localLlm) (q := Role.humanInput) (by decide) sends takes
    (by subst makes; funext role; cases role <;> rfl)).append rest

theorem human_llm {next : InputBoundary} {take : Msg → LocalLlm} {taken : LocalLlm}
    (sends : human.humanCall E.toInputs = .send .localLlm m next)
    (takes : llm.call E.toInputs = .receive .humanInput take) (makes : take m = taken)
    (rest : (session E).Talks (locals m33 cell taken next sensor) w later) :
    (session E).Talks (locals m33 cell llm human sensor)
      (⟨.humanInput, .localLlm, m⟩ :: w) later :=
  (Talks.one (p := Role.humanInput) (q := Role.localLlm) (by decide) sends takes
    (by subst makes; funext role; cases role <;> rfl)).append rest

theorem llm_sensor {next : LocalLlm} {take : Msg → InputBoundary} {taken : InputBoundary}
    (sends : llm.call E.toInputs = .send .pico2wSensor m next)
    (takes : sensor.sensorCall E.toInputs = .receive .localLlm take) (makes : take m = taken)
    (rest : (session E).Talks (locals m33 cell next human taken) w later) :
    (session E).Talks (locals m33 cell llm human sensor)
      (⟨.localLlm, .pico2wSensor, m⟩ :: w) later :=
  (Talks.one (p := Role.localLlm) (q := Role.pico2wSensor) (by decide) sends takes
    (by subst makes; funext role; cases role <;> rfl)).append rest

theorem sensor_llm {next : InputBoundary} {take : Msg → LocalLlm} {taken : LocalLlm}
    (sends : sensor.sensorCall E.toInputs = .send .localLlm m next)
    (takes : llm.call E.toInputs = .receive .pico2wSensor take) (makes : take m = taken)
    (rest : (session E).Talks (locals m33 cell taken human next) w later) :
    (session E).Talks (locals m33 cell llm human sensor)
      (⟨.pico2wSensor, .localLlm, m⟩ :: w) later :=
  (Talks.one (p := Role.pico2wSensor) (q := Role.localLlm) (by decide) sends takes
    (by subst makes; funext role; cases role <;> rfl)).append rest

end

/-! ### A read -/

/-- The messages of a read, which the language model answers with the command. -/
def readWord (E : Inputs) (n : ℕ) (command : List U8) : List (Message Role Msg) :=
  [⟨.wasiLlmCell, .localLlm, .fdReadReq ⟨llmStdinFd, 30⟩⟩,
    ⟨.localLlm, .humanInput, .humanInputReq 0⟩,
    ⟨.localLlm, .pico2wSensor, .pico2wSensorReq 0⟩,
    ⟨.humanInput, .localLlm, .humanInputText (E.texts n)⟩,
    ⟨.pico2wSensor, .localLlm, .pico2wSensorSample (E.samples n)⟩,
    ⟨.localLlm, .humanInput, .humanInputAck 0⟩,
    ⟨.localLlm, .pico2wSensor, .pico2wSensorAck 0⟩,
    ⟨.localLlm, .wasiLlmCell, .fdReadRet llmStdinFd command⟩]

/-- The place of a read, of the first of a cycle or of the second. -/
def readAt (second : Bool) : Import := if second then .secondRead else .firstRead

/-- The guest with its three files open. -/
def ready (position : Import) (stage : GuestStage) (ordinal : U8) : Cell :=
  ⟨position, false, stage, llmStdinFd, llmStdoutFd, faceFrameFd, ordinal⟩

variable {E : Outside} {m33 : M33} {human sensor : InputBoundary}

/-- The model has heard the sensor, and observes what it has. -/
theorem takeSample_eq (n : ℕ) (source : LocalLlmShellSource) (second : Bool) (read : FdRead) :
    (⟨.hearSensor second read (E.texts n), source, n⟩ : LocalLlm).takeSample second read
      (E.texts n) (.pico2wSensorSample (E.samples n)) =
      ⟨.ackHuman second read, heard E.toInputs n source, n⟩ := by
  simp only [LocalLlm.takeSample, observeHumanInput_eq]
  rfl

/-- The model has its inputs, and asks for the command. -/
theorem completeStdinRead_eq (lawful : E.Lawful) (fits : E.Fits) (n : ℕ)
    (source : LocalLlmShellSource) (second : Bool) :
    (⟨.ackSensor second ⟨llmStdinFd, 30⟩, heard E.toInputs n source, n⟩ :
      LocalLlm).completeStdinRead E.toInputs second ⟨llmStdinFd, 30⟩ =
      ⟨.reply second (.fdReadRet llmStdinFd (commandOf E.toInputs n source)),
        served E.toInputs n source, n + 1⟩ := by
  have carries := lawful.carries _ (commandOf_fits fits n source).2.short
  simp only [LocalLlm.completeStdinRead, serve_eq fits, carries, if_true]
  rfl

/-- **A read**: the model asks the human and the sensor, and answers with its command. -/
theorem read_talk (lawful : E.Lawful) (fits : E.Fits) (m33 : M33) (n : ℕ)
    (source : LocalLlmShellSource) (second : Bool) (ordinal : U8) :
    (session E).Talks
      (locals m33 (ready (readAt second) .reading ordinal) ⟨.read second, source, n⟩
        ⟨.request, second, n⟩ ⟨.request, second, n⟩)
      (readWord E.toInputs n (commandOf E.toInputs n source))
      (locals m33
        (ready (readAt second).next
          (.writes (turn ordinal (readCommand (commandOf E.toInputs n source))).1)
          (turn ordinal (readCommand (commandOf E.toInputs n source))).2)
        ⟨.write (some second), served E.toInputs n source, n + 1⟩
        ⟨.request, !second, n + 1⟩ ⟨.request, !second, n + 1⟩) := by
  have asks : (ready (readAt second) .reading ordinal).call E.pathOpen =
      .send .localLlm (.fdReadReq ⟨llmStdinFd, 30⟩)
        { ready (readAt second) .reading ordinal with waiting := true } := by
    cases second <;> rfl
  have waits : ({ ready (readAt second) .reading ordinal with waiting := true } : Cell).call
      E.pathOpen = .receive .localLlm
        { ready (readAt second) .reading ordinal with waiting := true : Cell }.returned := by
    cases second <;> rfl
  refine cell_llm asks rfl rfl ?_
  refine llm_human rfl rfl rfl ?_
  refine llm_sensor rfl rfl rfl ?_
  refine human_llm rfl rfl rfl ?_
  refine sensor_llm rfl rfl (takeSample_eq n source second _) ?_
  refine llm_human rfl rfl rfl ?_
  refine llm_sensor (congrArg (Call.send _ _)
    (completeStdinRead_eq lawful fits n source second)) rfl rfl ?_
  refine llm_cell rfl waits ?_ (.nil _)
  cases second <;> rfl

/-! ### A write -/

/-- The messages of a write. -/
def writeWord (server : Role) (write : FdWrite) : List (Message Role Msg) :=
  [⟨.wasiLlmCell, server, .fdWriteReq write⟩, ⟨server, .wasiLlmCell, fdWriteDone write⟩]

theorem toNat_ofNat_length {bytes : List U8} (short : bytes.length < 256) :
    (BitVec.ofNat 8 bytes.length).toNat = bytes.length := by
  rw [BitVec.toNat_ofNat]
  exact Nat.mod_eq_of_lt short

/-- A write whose bytes have all gone is done. -/
theorem completed_write {cell : Cell} {write : ShellWrite} {later : List ShellWrite} {fd : U8}
    (stage : cell.stage = .writing write later) (some : 0 < write.bytes.length)
    (short : write.bytes.length < 256) :
    cell.completed (fdWriteDone ⟨fd, write.bytes⟩) = { cell with stage := .writes later } := by
  have count := toNat_ofNat_length short
  have wrote : BitVec.ofNat 8 write.bytes.length ≠ 0 := by
    intro zero
    rw [zero] at count
    exact absurd count some.ne
  have done : restOf write (BitVec.ofNat 8 write.bytes.length).toNat later = later := by
    rw [restOf, count]
    exact if_neg (lt_irrefl _)
  simp only [fdWriteDone, Cell.completed, stage, wrote, if_false, done]

/-- **A write of text**, to the language model. -/
theorem stdout_talk {position : Import} (server : position.server = .localLlm)
    (req : position.req = .fdWriteReq) (ret : position.ret = .fdWriteRet) (n : ℕ)
    (source : LocalLlmShellSource) (second : Option Bool) (ordinal : U8) {text : List U8}
    (later : List ShellWrite) (some : 0 < text.length) (short : text.length < 256) :
    (session E).Talks
      (locals m33 (ready position (.writing ⟨.llmStdout, text⟩ later) ordinal)
        ⟨.write second, source, n⟩ human sensor)
      (writeWord .localLlm ⟨llmStdoutFd, text⟩)
      (locals m33 (ready position.next (.writes later) ordinal)
        ⟨LocalLlm.afterWrite second, source.saw text, n⟩ human sensor) := by
  let cell := ready position (.writing ⟨.llmStdout, text⟩ later) ordinal
  have asks : cell.call E.pathOpen = .send .localLlm (.fdWriteReq ⟨llmStdoutFd, text⟩)
      { cell with waiting := true } := by
    simp only [cell, ready, Cell.call, Cell.request, Cell.fdOf, Msg.label, req, server, if_true]
    rfl
  have waits : ({ cell with waiting := true } : Cell).call E.pathOpen =
      .receive .localLlm { cell with waiting := true : Cell }.returned := by
    simp only [cell, ready, Cell.call, server, if_true]
  have returns : { cell with waiting := true : Cell }.returned (fdWriteDone ⟨llmStdoutFd, text⟩) =
      ready position.next (.writes later) ordinal := by
    have label : (fdWriteDone ⟨llmStdoutFd, text⟩).label = position.ret := ret.symm
    simp only [Cell.returned, cell, ready, label, if_true]
    exact @completed_write _ ⟨.llmStdout, text⟩ later llmStdoutFd rfl some short
  refine cell_llm asks rfl rfl ?_
  exact llm_cell rfl waits returns (.nil _)

/-- **A face**, to the driver. -/
theorem face_talk (lawful : E.Lawful) {llm : LocalLlm} {kind : U8} (ordinal next : U8)
    (faces : List U8) (later : List ShellWrite) (valid : validateDisplayFace kind = .ok ()) :
    (session E).Talks
      (locals ⟨.offer, ordinal, faces⟩
        (ready .face (.writing ⟨.face, [kind, ordinal]⟩ later) next) llm human sensor)
      (writeWord .m33LedKernel ⟨faceFrameFd, [kind, ordinal]⟩)
      (locals ⟨.offer, ordinal + 1, faces ++ [kind]⟩
        (ready .secondWrite (.writes later) next) llm human sensor) := by
  let frame : FaceFrame := ⟨kind, ordinal, valid⟩
  have decodes : FaceFrame.decodePayload [kind, ordinal] = some frame := by
    have accepts : FaceFrame.validatePayload [kind, ordinal] = some (.ok ()) :=
      FaceFrame.codec_lawful.accepts_image frame
    simp only [FaceFrame.decodePayload, accepts]
    exact FaceFrame.codec_lawful.decode_image frame
  have object : expectFdObject E.fs faceFrameFd faceFrameObject fdWriteRight = true := by
    rw [expectFdObject, lawful.ledgerFd]
    rfl
  have shows : (⟨.offer, ordinal, faces⟩ : M33).takeFrame E.fs
      (.fdWriteReq ⟨faceFrameFd, [kind, ordinal]⟩) =
      ⟨.shown ⟨faceFrameFd, [kind, ordinal]⟩, ordinal, faces ++ [kind]⟩ := by
    simp only [M33.takeFrame, object, decodes, if_true]
    exact if_neg (not_not.mpr rfl)
  refine cell_m33 rfl rfl shows ?_
  exact m33_cell rfl rfl rfl (.nil _)

/-! ### The opening -/

/-- The messages of an `open` that is given this descriptor. -/
def openWord (server : Role) (file : GuestFile) (fd : U8) (binding : FdBinding) :
    List (Message Role Msg) :=
  [⟨.wasiLlmCell, server, .pathOpenReq ⟨preopenFd, file.rights, file.path⟩⟩,
    ⟨server, .wasiLlmCell, .pathOpenRet fd 0 binding⟩]

/-- The messages before the first cycle. -/
def openingWord : List (Message Role Msg) :=
  openWord .localLlm .llmStdin llmStdinFd .read ++
    (openWord .localLlm .llmStdout llmStdoutFd .write ++
      (openWord .m33LedKernel .face faceFrameFd .write ++
        writeWord .localLlm ⟨llmStdoutFd, shellPrompt⟩))

/-- **The opening**: the guest opens its files and writes the prompt. -/
theorem opening_talk (lawful : E.Lawful) :
    (session E).Talks (locals .init .init .init .init .init) openingWord
      (locals ⟨.offer, 0, []⟩ (ready .firstRead .reading 0)
        ⟨.read false, sourceAt E.toInputs 0, 0⟩ .init .init) := by
  have asks {cell : Cell} {file : GuestFile} (idle : cell.waiting = false)
      (stage : cell.stage = .opening file) (req : cell.position.req = .pathOpenReq) :
      cell.call E.pathOpen = .send cell.position.server
        (.pathOpenReq ⟨preopenFd, file.rights, file.path⟩) { cell with waiting := true } := by
    simp only [Cell.call, Cell.request, idle, stage, lawful.pathOpen, Msg.label, req, if_true]
    rfl
  have face : (M33.init).takePathOpen E.fs
      (.pathOpenReq ⟨preopenFd, fdWriteRight, faceFramePath⟩) =
      ⟨.pathOpened (.pathOpenRet faceFrameFd 0 .write), 0, []⟩ := by
    have opened : completePathOpen E.fs ⟨preopenFd, fdWriteRight, faceFramePath⟩ faceFramePath
        fdWriteRight = some (.pathOpenRet faceFrameFd 0 .write) := by
      have admits : admitsPathOpen ⟨preopenFd, fdWriteRight, faceFramePath⟩ faceFramePath
          fdWriteRight = true := by decide
      rw [completePathOpen, if_pos admits, lawful.resolve, lawful.fds]
      rfl
    simp only [M33.takePathOpen, opened]
    rfl
  refine cell_llm (asks rfl rfl rfl) rfl rfl ?_
  refine llm_cell rfl rfl rfl ?_
  refine cell_llm (asks rfl rfl rfl) rfl rfl ?_
  refine llm_cell rfl rfl rfl ?_
  refine cell_m33 (asks rfl rfl rfl) rfl face ?_
  refine m33_cell rfl rfl rfl ?_
  exact stdout_talk rfl rfl rfl 0 .new none 0 [] (by decide) (by decide)

/-! ### A cycle -/

/-- The face that a command shows. -/
def faceOf (command : List U8) : U8 :=
  match readCommand command with
  | .face kind => kind
  | _ => faceNeutral

/-- The faces of the first `k` cycles. -/
def facesUpTo (E : Inputs) (k : ℕ) : List U8 :=
  (List.range k).map fun i => faceOf (commandAt E (2 * i + 1))

theorem facesUpTo_succ (E : Inputs) (k : ℕ) :
    facesUpTo E (k + 1) = facesUpTo E k ++ [faceOf (commandAt E (2 * k + 1))] := by
  rw [facesUpTo, List.range_succ, List.map_append]
  rfl

/-- The phase alternates, and the ordinal counts the cycles. -/
theorem sourceAt_phase (E : Inputs) (k : ℕ) :
    ((sourceAt E (2 * k)).readPhase = 0 ∧ (sourceAt E (2 * k)).ordinal = .ofNat 8 k) ∧
      (sourceAt E (2 * k + 1)).readPhase = 1 ∧ (sourceAt E (2 * k + 1)).ordinal = .ofNat 8 k := by
  have first (n : ℕ) (phase : (sourceAt E n).readPhase = 0) :
      (sourceAt E (n + 1)).readPhase = 1 ∧
        (sourceAt E (n + 1)).ordinal = (sourceAt E n).ordinal := by
    simp only [sourceAt, served, LocalLlmShellSource.saw, LocalLlmShellSource.advance, heard,
      phase, if_true, and_self]
  have second (n : ℕ) (phase : (sourceAt E n).readPhase = 1) :
      (sourceAt E (n + 1)).readPhase = 0 ∧
        (sourceAt E (n + 1)).ordinal = (sourceAt E n).ordinal + 1 := by
    have ne : (1 : U8) ≠ 0 := by decide
    simp only [sourceAt, served, LocalLlmShellSource.saw, LocalLlmShellSource.advance, heard,
      phase, ne, if_false, and_self]
  induction k with
  | zero =>
      obtain ⟨phase, ordinal⟩ := first 0 rfl
      exact ⟨⟨rfl, rfl⟩, phase, ordinal⟩
  | succ k ih =>
      obtain ⟨-, phase, ordinal⟩ := ih
      obtain ⟨again, counted⟩ := second (2 * k + 1) phase
      have here : (sourceAt E (2 * (k + 1))).ordinal = .ofNat 8 (k + 1) := by
        rw [show 2 * (k + 1) = 2 * k + 1 + 1 from rfl, counted, ordinal, BitVec.ofNat_add]
        rfl
      obtain ⟨phase, ordinal⟩ := first (2 * (k + 1)) again
      exact ⟨⟨again, here⟩, phase, ordinal.trans here⟩

theorem commandAt_first {E : Inputs} (fits : E.Fits) (k : ℕ) (kind : U8) :
    readCommand (commandAt E (2 * k)) ≠ .face kind := by
  intro face
  have fit := (commandOf_fits fits (2 * k) (sourceAt E (2 * k))).2
  exact fit.face.mpr ⟨kind, face⟩ (sourceAt_phase E k).1.1

theorem commandAt_second {E : Inputs} (fits : E.Fits) (k : ℕ) :
    readCommand (commandAt E (2 * k + 1)) = .face (faceOf (commandAt E (2 * k + 1))) := by
  have fit := (commandOf_fits fits (2 * k + 1) (sourceAt E (2 * k + 1))).2
  have phase : (sourceAt E (2 * k + 1)).readPhase ≠ 0 := by
    rw [(sourceAt_phase E k).2.1]
    decide
  obtain ⟨kind, face⟩ := fit.face.mp phase
  rw [commandAt, faceOf, face]

theorem turn_of_not_face (ordinal : U8) {command : List U8}
    (other : ∀ kind, readCommand command ≠ .face kind) :
    turn ordinal (readCommand command) = ([⟨.llmStdout, stdoutText command⟩], ordinal) := by
  rw [stdoutText]
  cases read : readCommand command with
  | catalog => rfl
  | invalid => rfl
  | face kind => exact absurd read (other kind)

theorem turn_of_face (ordinal : U8) {command : List U8} {kind : U8}
    (face : readCommand command = .face kind) :
    turn ordinal (readCommand command) =
      ([⟨.face, [kind, ordinal]⟩, ⟨.llmStdout, stdoutText command⟩], ordinal + 1) := by
  rw [stdoutText, face]
  rfl

theorem length_stdoutText (command : List U8) :
    0 < (stdoutText command).length ∧ (stdoutText command).length < 256 := by
  rw [stdoutText]
  split <;> decide

/-- The messages of the k-th cycle. -/
def cycleWord (E : Inputs) (k : ℕ) : List (Message Role Msg) :=
  readWord E (2 * k) (commandAt E (2 * k)) ++
    (writeWord .localLlm ⟨llmStdoutFd, stdoutText (commandAt E (2 * k))⟩ ++
      (readWord E (2 * k + 1) (commandAt E (2 * k + 1)) ++
        (writeWord .m33LedKernel ⟨faceFrameFd, [faceOf (commandAt E (2 * k + 1)), .ofNat 8 k]⟩ ++
          writeWord .localLlm ⟨llmStdoutFd, stdoutText (commandAt E (2 * k + 1))⟩)))

/-- The roles before the k-th cycle. -/
def cycleStart (E : Inputs) (k : ℕ) : ∀ role, Local role :=
  locals ⟨.offer, .ofNat 8 k, facesUpTo E k⟩ (ready .firstRead .reading (.ofNat 8 k))
    ⟨.read false, sourceAt E (2 * k), 2 * k⟩ ⟨.request, false, 2 * k⟩ ⟨.request, false, 2 * k⟩

/-- **A cycle.** -/
theorem cycle_talk (lawful : E.Lawful) (fits : E.Fits) (k : ℕ) :
    (session E).Talks (cycleStart E.toInputs k) (cycleWord E.toInputs k)
      (cycleStart E.toInputs (k + 1)) := by
  have face := commandAt_second fits k
  have valid : validateDisplayFace (faceOf (commandAt E.toInputs (2 * k + 1))) = .ok () := by
    obtain ⟨code, decoded, -⟩ := readCommand_eq_face_iff.mp face
    exact (decodeFaceCode_eq_some decoded).2
  have discovers := turn_of_not_face (.ofNat 8 k) (commandAt_first fits k)
  have commands := turn_of_face (.ofNat 8 k) face
  have texts := length_stdoutText (commandAt E.toInputs (2 * k))
  have texts' := length_stdoutText (commandAt E.toInputs (2 * k + 1))
  let m33 : M33 := ⟨.offer, .ofNat 8 k, facesUpTo E.toInputs k⟩
  have first := read_talk lawful fits m33 (2 * k) (sourceAt E.toInputs (2 * k)) false (.ofNat 8 k)
  have second := read_talk lawful fits m33 (2 * k + 1) (sourceAt E.toInputs (2 * k + 1)) true
    (.ofNat 8 k)
  rw [← commandAt] at first second
  rw [discovers] at first
  rw [commands] at second
  refine first.append (.append (stdout_talk rfl rfl rfl _ _ _ _ [] texts.1 texts.2)
    (second.append (.append (face_talk lawful _ _ _ _ valid) ?_)))
  rw [cycleStart, facesUpTo_succ, BitVec.ofNat_add]
  exact stdout_talk rfl rfl rfl _ _ _ _ [] texts'.1 texts'.2

/-! ### The session -/

/-- The messages of the first `k` cycles. -/
def cyclesWord (E : Inputs) (k : ℕ) : List (Message Role Msg) :=
  (List.range k).flatMap (cycleWord E)

theorem cyclesWord_succ (E : Inputs) (k : ℕ) :
    cyclesWord E (k + 1) = cyclesWord E k ++ cycleWord E k := by
  rw [cyclesWord, List.range_succ, List.flatMap_append, List.flatMap_singleton]
  rfl

/-- The messages up to the k-th cycle. -/
def sessionWord (E : Inputs) (k : ℕ) : List (Message Role Msg) := openingWord ++ cyclesWord E k

/-- **The talk.**  The opening and any number of cycles. -/
theorem session_talk (lawful : E.Lawful) (fits : E.Fits) (k : ℕ) :
    (session E).Talks (locals .init .init .init .init .init) (sessionWord E.toInputs k)
      (cycleStart E.toInputs k) := by
  induction k with
  | zero => exact (opening_talk lawful).append (.nil _)
  | succ k ih =>
      rw [sessionWord, cyclesWord_succ, ← List.append_assoc]
      exact ih.append (cycle_talk lawful fits k)

/-- Every role has its part in a cycle. -/
theorem mem_calls_cycleWord (E : Inputs) (k : ℕ) (role : Role) :
    role ∈ Network.calls (cycleWord E k) := by
  cases role <;> simp [Network.calls, cycleWord, readWord, writeWord]

theorem le_count_calls (E : Inputs) (k : ℕ) (role : Role) :
    k ≤ (Network.calls (sessionWord E k)).count role := by
  induction k with
  | zero => exact Nat.zero_le _
  | succ k ih =>
      have once := List.count_pos_iff.mpr (mem_calls_cycleWord E k role)
      rw [sessionWord, cyclesWord_succ, ← List.append_assoc, Network.calls_append,
        List.count_append]
      exact Nat.add_le_add ih once

/-- The messages of a read, by their labels, are those of the choreography, the two turns in
parallel. -/
theorem readWord_mem (E : Inputs) (n : ℕ) (command : List U8) :
    (readWord E n command).map (Message.map Msg.label) ∈ stdinRead := by
  have human : [⟨.localLlm, .humanInput, .humanInputReq⟩,
      ⟨.humanInput, .localLlm, .humanInputText⟩,
      ⟨.localLlm, .humanInput, .humanInputAck⟩] ∈ humanInputTurn :=
    Language.append_mem_mul (a := [_]) rfl
      (Language.append_mem_mul (a := [_]) (b := [_]) rfl rfl)
  have sensor : [⟨.localLlm, .pico2wSensor, .pico2wSensorReq⟩,
      ⟨.pico2wSensor, .localLlm, .pico2wSensorSample⟩,
      ⟨.localLlm, .pico2wSensor, .pico2wSensorAck⟩] ∈ pico2wSensorTurn :=
    Language.append_mem_mul (a := [_]) rfl
      (Language.append_mem_mul (a := [_]) (b := [_]) rfl rfl)
  have both := mem_par human sensor
    (.left _ (.right _ (.left _ (.right _ (.left _ (.right _ .nil))))))
  have reply : [⟨.localLlm, .wasiLlmCell, .fdReadRet⟩] ∈
      send .localLlm .wasiLlmCell .fdReadRet := rfl
  exact Language.append_mem_mul (a := [_]) rfl (Language.append_mem_mul both reply)

theorem stdout_mem (text : List U8) :
    (writeWord .localLlm ⟨llmStdoutFd, text⟩).map (Message.map Msg.label) ∈ stdoutWrite :=
  Language.append_mem_mul (a := [_]) (b := [_]) rfl rfl

theorem face_mem (bytes : List U8) :
    (writeWord .m33LedKernel ⟨faceFrameFd, bytes⟩).map (Message.map Msg.label) ∈
      faceFrameCommit :=
  Language.append_mem_mul (a := [_]) (b := [_]) rfl rfl

theorem cycleWord_mem (E : Inputs) (k : ℕ) :
    (cycleWord E k).map (Message.map Msg.label) ∈ frameCycle := by
  simp only [cycleWord, List.map_append]
  exact Language.append_mem_mul (readWord_mem E _ _) (Language.append_mem_mul (stdout_mem _)
    (Language.append_mem_mul (readWord_mem E _ _)
      (Language.append_mem_mul (face_mem _) (stdout_mem _))))

theorem cyclesWord_mem (E : Inputs) (k : ℕ) :
    (cyclesWord E k).map (Message.map Msg.label) ∈ frameCycle∗ := by
  refine Language.mem_kstar.mpr ⟨(List.range k).map fun i =>
    (cycleWord E i).map (Message.map Msg.label), ?_, ?_⟩
  · rw [cyclesWord, List.map_flatMap, List.flatMap_def]
  · intro word mem
    obtain ⟨i, -, rfl⟩ := List.mem_map.mp mem
    exact cycleWord_mem E i

theorem open_mem (role : Role) (file : GuestFile) (fd : U8) (binding : FdBinding) :
    (openWord role file fd binding).map (Message.map Msg.label) ∈ pathOpened role :=
  Language.append_mem_mul (a := [_]) (b := [_]) rfl rfl

/-- **The talk follows the choreography.** -/
theorem sessionWord_mem (E : Inputs) (k : ℕ) :
    (sessionWord E k).map (Message.map Msg.label) ∈ choreography := by
  simp only [sessionWord, openingWord, List.map_append, List.append_assoc]
  exact Language.append_mem_mul (open_mem _ _ _ _) (Language.append_mem_mul (open_mem _ _ _ _)
    (Language.append_mem_mul (open_mem _ _ _ _)
      (Language.append_mem_mul (stdout_mem _) (cyclesWord_mem E k))))

/-! ### Runs -/

theorem takePathOpen_faces (fs : ChoreoFs) (self : M33) (m : Msg) :
    self.faces <+: (self.takePathOpen fs m).faces := by
  cases m with
  | pathOpenReq request =>
      simp only [M33.takePathOpen]
      split <;> exact List.prefix_refl _
  | _ => exact List.prefix_refl _

theorem takeFrame_faces (fs : ChoreoFs) (self : M33) (m : Msg) :
    self.faces <+: (self.takeFrame fs m).faces := by
  cases m with
  | fdWriteReq write =>
      simp only [M33.takeFrame]
      split
      · split
        · split
          · exact List.prefix_refl _
          · exact List.prefix_append _ _
        · exact List.prefix_refl _
      · exact List.prefix_refl _
  | _ => exact List.prefix_refl _

/-- The driver takes no face back. -/
theorem faces_grow (E : Outside) : (session E).Grows .m33LedKernel M33.faces where
  sends {x target m next} call := by
    have call : M33.call E.fs x = .send target m next := call
    simp only [M33.call] at call
    split at call <;> cases call <;> exact List.prefix_refl _
  takes {x source take} m call := by
    have call : M33.call E.fs x = .receive source take := call
    simp only [M33.call] at call
    split at call <;> cases call
    · exact takePathOpen_faces E.fs x m
    · exact takeFrame_faces E.fs x m

/-- What the driver has put on the board. -/
def shownFaces (s : Network.State Role Msg Local) : List U8 := M33.faces (s.locals .m33LedKernel)

variable {as : List Role} {t : Network.State Role Msg Local}

/-- **The session.**  As long as the source of commands has one of 1 to 30 bytes for every call, and
a face exactly where one is due, every run of the five roles conforms to the choreography, none of
them gives up, and the run can go on to any number of faces. -/
theorem session_conforms (lawful : E.Lawful) (fits : E.Fits)
    (run : (session E).machine.exec start as = some t) :
    (∀ role, Conforms (viewOf choreography role)
      ((t.traces role).map (LocalEvent.map Msg.label))) ∧
    (∀ role, (session E).call role (t.locals role) ≠ .ended) ∧
    ∀ k, ∃ later u, (session E).machine.exec t later = some u ∧ k ≤ (shownFaces u).length := by
  have behind (k : ℕ) (h : as.length ≤ k) :
      as.Subperm (Network.calls (sessionWord E.toInputs k)) :=
    Network.behind_of_length_le fun role => h.trans (le_count_calls E.toInputs k role)
  refine ⟨fun role => ?_, fun role => ?_, fun k => ?_⟩
  · exact conforms_viewOf Msg.label (sessionWord_mem E.toInputs as.length)
      ((session_talk lawful fits as.length).traces_behind run (behind _ le_rfl) role)
  · refine (session_talk lawful fits (as.length + 1)).not_ended run
      (behind _ (Nat.le_succ _)) ?_
    exact List.count_le_length.trans_lt (le_count_calls E.toInputs (as.length + 1) role)
  · obtain ⟨later, -, rest⟩ := (session_talk lawful fits (max as.length k)).catches_up run
      (behind _ (le_max_left _ _))
    refine ⟨later, _, rest, ?_⟩
    have all : (facesUpTo E.toInputs (max as.length k)).length = max as.length k := by
      rw [facesUpTo, List.length_map, List.length_range]
    exact (le_max_right _ _).trans all.ge

/-- What is outside of the programs, but for the inputs. -/
def outsideOf (texts : ℕ → HumanInputText) (samples : ℕ → Pico2wSensorSample)
    (command : ℕ → LocalLlmShellSource → Except UnoQRuntimeError (List U8)) : Outside where
  texts := texts
  samples := samples
  command := command
  fdReadDone bytes := decide (bytes.length ≤ 30)
  fs :=
    { resolve := fun path => if path = faceFramePath then some faceFrameObject else none
      fds := [⟨faceFrameFd.toNat, faceFrameObject, fdWriteRight⟩]
      ledgerFd := fun fd => if fd = faceFrameFd.toNat then
        some ⟨faceFrameFd.toNat, faceFrameObject, fdWriteRight⟩ else none }
  pathOpen file := ⟨preopenFd, file.rights, file.path⟩

theorem outsideOf_lawful (texts : ℕ → HumanInputText) (samples : ℕ → Pico2wSensorSample)
    (command : ℕ → LocalLlmShellSource → Except UnoQRuntimeError (List U8)) :
    (outsideOf texts samples command).Lawful where
  pathOpen _ := rfl
  resolve := rfl
  fds := rfl
  ledgerFd := rfl
  carries _ short := decide_eq_true short

/-- A model that lists the files and then smiles, whatever it hears. -/
def smilingOutside : Outside :=
  outsideOf (fun _ => .empty) (fun _ => .pending 0) fun _ source =>
    .ok (if source.readPhase = 0 then lsCommand else echoCommand (ascii ['h']))

theorem smilingOutside_fits : smilingOutside.toInputs.Fits := by
  intro n source
  by_cases first : source.readPhase = 0
  · refine ⟨lsCommand, congrArg Except.ok (if_pos first), by decide, by decide, ?_⟩
    refine iff_of_false (not_not.mpr first) ?_
    rintro ⟨kind, face⟩
    have catalog : readCommand lsCommand = .catalog := by decide
    cases catalog.symm.trans face
  · exact ⟨_, congrArg Except.ok (if_neg first), by decide, by decide,
      iff_of_true first ⟨faceHappy, by decide⟩⟩

theorem session_conforms_smiling :
    ∃ t, (session smilingOutside).machine.exec start (Network.calls openingWord) = some t ∧
      (∀ role, (session smilingOutside).call role (t.locals role) ≠ .ended) ∧
      ∃ later u, (session smilingOutside).machine.exec t later = some u ∧
        3 ≤ (shownFaces u).length := by
  have lawful : smilingOutside.Lawful := outsideOf_lawful _ _ _
  have run := (opening_talk lawful).exec fun _ => []
  obtain ⟨-, live, goes⟩ := session_conforms lawful smilingOutside_fits run
  exact ⟨_, run, live, goes 3⟩

/-- What the driver has shown in a run are the faces of the second reads, in their order. -/
theorem faces_of_exec (lawful : E.Lawful) (fits : E.Fits)
    (run : (session E).machine.exec start as = some t) {k : ℕ} (h : k < (shownFaces t).length) :
    readCommand (commandAt E.toInputs (2 * k + 1)) = .face (shownFaces t)[k] := by
  have behind : as.Subperm (Network.calls (sessionWord E.toInputs as.length)) :=
    Network.behind_of_length_le (le_count_calls E.toInputs as.length)
  have shown : shownFaces t <+: facesUpTo E.toInputs as.length :=
    Talks.observed_behind (faces_grow E) (session_talk lawful fits as.length) run behind
  have here : (shownFaces t)[k] = faceOf (commandAt E.toInputs (2 * k + 1)) := by
    rw [shown.getElem h]
    simp [facesUpTo]
  rw [here]
  exact commandAt_second fits k

end HibanaPico.UnoQ
