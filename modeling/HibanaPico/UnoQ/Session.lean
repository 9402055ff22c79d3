import HibanaPico.SensorPanel.Session
import HibanaPico.Support.Network
import HibanaPico.UnoQ.FaceCycle

/-!
# Uno Q — Session

The five programs that meet in the Uno Q's session, each as the call of its endpoint that comes
next: `run_m33_driver`, the shell loop of the WASI guest behind its engine, and `run_boundary` of
the language model, of the human and of the Pico 2 W's sensor.  How the transports carry a message
is left out: each pair of roles has a queue each way.

* `choreography`: `UnoQCapsule::choreography`, by its words.
* `M33.call`, `Cell.call`, `LocalLlm.call`, `InputBoundary.call`: the programs.
* `session`: the network of the five.
-/

namespace HibanaPico.UnoQ
open Computability
open HibanaPico.Support
open HibanaPico.Transport
open HibanaPico.SensorPanel (PathOpen FdRead FdWrite LedgerFdFact findLedgerFd Pico2wSensorSample
  U16 U64)

/-! ### The choreography -/

inductive Role where
  /-- `ROLE_M33_LED_KERNEL`, role 0. -/
  | m33LedKernel
  /-- `ROLE_WASI_LLM_CELL`, role 1. -/
  | wasiLlmCell
  /-- `ROLE_LOCAL_LLM`, role 2. -/
  | localLlm
  /-- `ROLE_HUMAN_INPUT`, role 3. -/
  | humanInput
  /-- `ROLE_PICO2W_SENSOR`, role 4. -/
  | pico2wSensor
  deriving DecidableEq, Repr

/-- The labels of the messages, by the names of their types. -/
inductive Label where
  | pathOpenReq | pathOpenRet
  | fdReadReq | fdReadRet
  | fdWriteReq | fdWriteRet
  | humanInputReq | humanInputText | humanInputAck
  | pico2wSensorReq | pico2wSensorSample | pico2wSensorAck
  deriving DecidableEq, Repr

/-- `g::send`. -/
def send (source target : Role) (label : Label) : Language (Message Role Label) :=
  {[⟨source, target, label⟩]}

def stdoutWrite : Language (Message Role Label) :=
  send .wasiLlmCell .localLlm .fdWriteReq * send .localLlm .wasiLlmCell .fdWriteRet

def humanInputTurn : Language (Message Role Label) :=
  send .localLlm .humanInput .humanInputReq *
    (send .humanInput .localLlm .humanInputText * send .localLlm .humanInput .humanInputAck)

def pico2wSensorTurn : Language (Message Role Label) :=
  send .localLlm .pico2wSensor .pico2wSensorReq *
    (send .pico2wSensor .localLlm .pico2wSensorSample *
      send .localLlm .pico2wSensor .pico2wSensorAck)

def inputContextTurn : Language (Message Role Label) := par humanInputTurn pico2wSensorTurn

def stdinRead : Language (Message Role Label) :=
  send .wasiLlmCell .localLlm .fdReadReq *
    (inputContextTurn * send .localLlm .wasiLlmCell .fdReadRet)

def faceFrameCommit : Language (Message Role Label) :=
  send .wasiLlmCell .m33LedKernel .fdWriteReq * send .m33LedKernel .wasiLlmCell .fdWriteRet

def frameCycle : Language (Message Role Label) :=
  stdinRead * (stdoutWrite * (stdinRead * (faceFrameCommit * stdoutWrite)))

/-- A `path_open` of the guest's, which `role` answers. -/
def pathOpened (role : Role) : Language (Message Role Label) :=
  send .wasiLlmCell role .pathOpenReq * send role .wasiLlmCell .pathOpenRet

/-- `UnoQCapsule::choreography`. -/
def choreography : Language (Message Role Label) :=
  pathOpened .localLlm *
    (pathOpened .localLlm * (pathOpened .m33LedKernel * (stdoutWrite * frameCycle∗)))

/-! ### The messages -/

/-- The rows of a descriptor, of its base. -/
inductive FdBinding where
  | read
  | write
  deriving DecidableEq, Repr

/-- The messages, with what their receivers read of them. -/
inductive Msg where
  | pathOpenReq (request : PathOpen)
  | pathOpenRet (fd : U8) (errno : U16) (binding : FdBinding)
  | fdReadReq (request : FdRead)
  | fdReadRet (fd : U8) (bytes : List U8)
  | fdWriteReq (request : FdWrite)
  | fdWriteRet (fd written : U8)
  | humanInputReq (request : U8)
  | humanInputText (text : HumanInputText)
  | humanInputAck (ack : U8)
  | pico2wSensorReq (request : U8)
  | pico2wSensorSample (sample : Pico2wSensorSample)
  | pico2wSensorAck (ack : U8)
  deriving DecidableEq

def Msg.label : Msg → Label
  | .pathOpenReq _ => .pathOpenReq
  | .pathOpenRet _ _ _ => .pathOpenRet
  | .fdReadReq _ => .fdReadReq
  | .fdReadRet _ _ => .fdReadRet
  | .fdWriteReq _ => .fdWriteReq
  | .fdWriteRet _ _ => .fdWriteRet
  | .humanInputReq _ => .humanInputReq
  | .humanInputText _ => .humanInputText
  | .humanInputAck _ => .humanInputAck
  | .pico2wSensorReq _ => .pico2wSensorReq
  | .pico2wSensorSample _ => .pico2wSensorSample
  | .pico2wSensorAck _ => .pico2wSensorAck

/-! ### Descriptors -/

def preopenFd : U8 := 9
def llmStdinFd : U8 := 12
def llmStdoutFd : U8 := 13
def faceFrameFd : U8 := 15
def fdReadRight : U64 := 1 <<< 1
def fdWriteRight : U64 := 1 <<< 6

/-- `b"llm/stdin"`, `b"llm/stdout"` and `b"face/frame"`. -/
def llmStdinPath : List U8 := ascii ['l', 'l', 'm', '/', 's', 't', 'd', 'i', 'n']
def llmStdoutPath : List U8 := ascii ['l', 'l', 'm', '/', 's', 't', 'd', 'o', 'u', 't']
def faceFramePath : List U8 := ascii ['f', 'a', 'c', 'e', '/', 'f', 'r', 'a', 'm', 'e']

/-- `FACE_FRAME_OBJECT.object()`. -/
def faceFrameObject : ℕ := 71005

/-- The answers of `UNO_Q_DRIVER_FACTS.choreofs()`. -/
structure ChoreoFs where
  resolve : List U8 → Option ℕ
  fds : List LedgerFdFact
  ledgerFd : ℕ → Option LedgerFdFact

/-- `fd_binding_for_rights`. -/
def fdBindingForRights (rights : U64) : Option FdBinding :=
  if rights = fdReadRight then some .read
  else if rights = fdWriteRight then some .write
  else none

/-- What both `path_open` handlers ask of a request. -/
def admitsPathOpen (request : PathOpen) (expectedPath : List U8) (expectedRights : U64) : Bool :=
  request.preopenFd = preopenFd ∧ request.rightsBase = expectedRights ∧
    request.path = expectedPath

/-- `complete_path_open`, up to its reply. -/
def completePathOpen (fs : ChoreoFs) (request : PathOpen) (expectedPath : List U8)
    (expectedRights : U64) : Option Msg :=
  if admitsPathOpen request expectedPath expectedRights then do
    let object ← fs.resolve expectedPath
    let fact ← findLedgerFd fs.fds object expectedRights
    let binding ← fdBindingForRights expectedRights
    some (.pathOpenRet (.ofNat 8 fact.fd) 0 binding)
  else none

/-- `complete_boundary_path_open`, up to its reply. -/
def completeBoundaryPathOpen (request : PathOpen) (expectedPath : List U8) (expectedRights : U64)
    (returnedFd : U8) : Option Msg :=
  if admitsPathOpen request expectedPath expectedRights then
    (fdBindingForRights expectedRights).map fun binding => .pathOpenRet returnedFd 0 binding
  else none

/-- `expect_fd_object`. -/
def expectFdObject (fs : ChoreoFs) (fd : U8) (object : ℕ) (rights : U64) : Bool :=
  (fs.ledgerFd fd.toNat).any fun fact => fact.object = object ∧ fact.rights = rights

/-- `FdWriteDone::new(write.fd(), write.len() as u8)`. -/
def fdWriteDone (write : FdWrite) : Msg := .fdWriteRet write.fd (.ofNat 8 write.bytes.length)

/-! ### The driver of the M33 -/

/-- `FaceFrame::decode_payload`. -/
def FaceFrame.decodePayload (bytes : List U8) : Option FaceFrame :=
  match FaceFrame.validatePayload bytes with
  | some (.ok ()) => FaceFrame.decodeValidatedPayload bytes
  | _ => none

inductive M33Phase where
  | pathOpen
  /-- It sends this reply. -/
  | pathOpened (m : Msg)
  /-- It is at the head of `drive_face_frame_loop`, -/
  | offer
  /-- and has the face of this write on the board. -/
  | shown (write : FdWrite)
  | ended
  deriving DecidableEq

/-- `run_m33_driver`, with the faces that `m33_board_show_face` has been called with. -/
structure M33 where
  phase : M33Phase
  ordinal : U8
  faces : List U8
  deriving DecidableEq

namespace M33

def init : M33 := ⟨.pathOpen, 0, []⟩

/-- What the driver makes of its `path_open`. -/
def takePathOpen (fs : ChoreoFs) (self : M33) : Msg → M33
  | .pathOpenReq request =>
      match completePathOpen fs request faceFramePath fdWriteRight with
      | some m => { self with phase := .pathOpened m }
      | none => { self with phase := .ended }
  | _ => { self with phase := .ended }

/-- What a turn of `drive_face_frame_loop` makes of what it is offered, up to its reply. -/
def takeFrame (fs : ChoreoFs) (self : M33) : Msg → M33
  | .fdWriteReq write =>
      if expectFdObject fs write.fd faceFrameObject fdWriteRight then
        match FaceFrame.decodePayload write.bytes with
        | some frame =>
            if frame.ordinal ≠ self.ordinal then { self with phase := .ended }
            else { self with phase := .shown write, faces := self.faces ++ [frame.face] }
        | none => { self with phase := .ended }
      else { self with phase := .ended }
  | _ => { self with phase := .ended }

def call (fs : ChoreoFs) (self : M33) : Call Role Msg M33 :=
  match self.phase with
  | .pathOpen => .receive .wasiLlmCell (self.takePathOpen fs)
  | .pathOpened m => .send .wasiLlmCell m { self with phase := .offer }
  | .offer => .receive .wasiLlmCell (self.takeFrame fs)
  | .shown write =>
      .send .wasiLlmCell (fdWriteDone write)
        { self with phase := .offer, ordinal := self.ordinal + 1 }
  | .ended => .ended

end M33

/-! ### The guest and its engine -/

/-- The files that the shell opens. -/
inductive GuestFile where
  | llmStdin
  | llmStdout
  | face
  deriving DecidableEq, Repr

def GuestFile.path : GuestFile → List U8
  | .llmStdin => llmStdinPath
  | .llmStdout => llmStdoutPath
  | .face => faceFramePath

def GuestFile.rights : GuestFile → U64
  | .llmStdin => fdReadRight
  | .llmStdout | .face => fdWriteRight

/-- The imports of the guest that the choreography has a place for, by these places. -/
inductive Import where
  | openStdin | openStdout | openFace
  | prompt
  | firstRead | firstWrite
  | secondRead | face | secondWrite
  deriving DecidableEq, Repr

namespace Import

/-- The role that serves it. -/
def server : Import → Role
  | .openFace | .face => .m33LedKernel
  | _ => .localLlm

def req : Import → Label
  | .openStdin | .openStdout | .openFace => .pathOpenReq
  | .firstRead | .secondRead => .fdReadReq
  | .prompt | .firstWrite | .face | .secondWrite => .fdWriteReq

def ret : Import → Label
  | .openStdin | .openStdout | .openFace => .pathOpenRet
  | .firstRead | .secondRead => .fdReadRet
  | .prompt | .firstWrite | .face | .secondWrite => .fdWriteRet

def next : Import → Import
  | .openStdin => .openStdout
  | .openStdout => .openFace
  | .openFace => .prompt
  | .prompt => .firstRead
  | .firstRead => .firstWrite
  | .firstWrite => .secondRead
  | .secondRead => .face
  | .face => .secondWrite
  | .secondWrite => .firstRead

end Import

/-- What the guest is at: an `open`, a `read`, or a `write_all` with others to follow. -/
inductive GuestStage where
  | opening (file : GuestFile)
  | reading
  | writing (write : ShellWrite) (later : List ShellWrite)
  | ended
  deriving DecidableEq

/-- The guest with these writes to do. -/
def GuestStage.writes : List ShellWrite → GuestStage
  | [] => .reading
  | write :: later => .writing write later

/-- What is left to write after `n` bytes of a `write_all`. -/
def restOf (write : ShellWrite) (n : ℕ) (later : List ShellWrite) : List ShellWrite :=
  if n < write.bytes.length then { write with bytes := write.bytes.drop n } :: later else later

/-- The WASI guest and its engine: where the engine's endpoint is in the choreography, whether it
waits for a reply, what the shell is at, the descriptors that it has, and its ordinal. -/
structure Cell where
  position : Import
  waiting : Bool
  stage : GuestStage
  stdinFd : U8
  stdoutFd : U8
  faceFd : U8
  ordinal : U8
  deriving DecidableEq

namespace Cell

def init : Cell := ⟨.openStdin, false, .opening .llmStdin, 0, 0, 0, 0⟩

def fdOf (self : Cell) : ShellFile → U8
  | .llmStdout => self.stdoutFd
  | .face => self.faceFd

/-- The import that the guest makes; `pathOpen` is the request that its runtime makes of an
`open`. -/
def request (pathOpen : GuestFile → PathOpen) (self : Cell) : Option Msg :=
  match self.stage with
  | .opening file => some (.pathOpenReq (pathOpen file))
  | .reading => some (.fdReadReq ⟨self.stdinFd, 30⟩)
  | .writing write _ => some (.fdWriteReq ⟨self.fdOf write.file, write.bytes⟩)
  | .ended => none

/-- What the guest makes of a completion. -/
def completed (self : Cell) : Msg → Cell
  | .pathOpenRet fd _ _ =>
      match self.stage with
      | .opening .llmStdin => { self with stdinFd := fd, stage := .opening .llmStdout }
      | .opening .llmStdout => { self with stdoutFd := fd, stage := .opening .face }
      | .opening .face => { self with
          faceFd := fd, stage := .writes [⟨.llmStdout, shellPrompt⟩] }
      | _ => { self with stage := .ended }
  | .fdReadRet _ bytes =>
      match self.stage with
      | .reading => { self with
          stage := .writes (turn self.ordinal (readCommand bytes)).1
          ordinal := (turn self.ordinal (readCommand bytes)).2 }
      | _ => { self with stage := .ended }
  | .fdWriteRet _ written =>
      match self.stage with
      | .writing write later =>
          -- `write_all` gives up on a write of nothing
          if written = 0 then { self with stage := .ended }
          else { self with stage := .writes (restOf write written.toNat later) }
      | _ => { self with stage := .ended }
  | _ => { self with stage := .ended }

/-- What the engine's endpoint makes of a message. -/
def returned (self : Cell) (m : Msg) : Cell :=
  if m.label = self.position.ret then
    { self with waiting := false, position := self.position.next }.completed m
  else { self with waiting := false, stage := .ended }

/-- The engine sends an import to the role that the choreography has here, if it has this import
here, and waits for its completion. -/
def call (pathOpen : GuestFile → PathOpen) (self : Cell) : Call Role Msg Cell :=
  if self.waiting then .receive self.position.server self.returned
  else match self.request pathOpen with
    | some m =>
        if m.label = self.position.req then
          .send self.position.server m { self with waiting := true }
        else .ended
    | none => .ended

end Cell

/-! ### The language model's boundary -/

/-- What comes from outside: what `next_input` and `next_sample` return when they are called, by
turns, the command that the source of commands has for a call of `next_command`, and the bytes that
a reply to a read can carry. -/
structure Inputs where
  texts : ℕ → HumanInputText
  samples : ℕ → Pico2wSensorSample
  command : ℕ → LocalLlmShellSource → Except UnoQRuntimeError (List U8)
  fdReadDone : List U8 → Bool

/-- `LocalLlmShellSource::next_command`, with the command that its source has. -/
def LocalLlmShellSource.serve (self : LocalLlmShellSource)
    (answer : Except UnoQRuntimeError (List U8)) (maxLen : ℕ) :
    Option (List U8 × LocalLlmShellSource) :=
  match answer with
  | .ok command =>
      if command.length = 0 ∨ command.length > maxLen then none
      else some (command, ({ self with
        transcript := self.transcript.observeShellOutput command } : LocalLlmShellSource).advance)
  | .error _ => none

inductive LlmPhase where
  | openStdin
  | openedStdin (m : Msg)
  | openStdout
  | openedStdout (m : Msg)
  /-- It waits for the guest's prompt, or for its write after a read, -/
  | write (second : Option Bool)
  /-- and has this write. -/
  | wrote (second : Option Bool) (write : FdWrite)
  /-- It waits for the first read of its loop or for the second, -/
  | read (second : Bool)
  | askHuman (second : Bool) (read : FdRead)
  | askSensor (second : Bool) (read : FdRead)
  | hearHuman (second : Bool) (read : FdRead)
  | hearSensor (second : Bool) (read : FdRead) (text : HumanInputText)
  | ackHuman (second : Bool) (read : FdRead)
  | ackSensor (second : Bool) (read : FdRead)
  /-- and has this reply. -/
  | reply (second : Bool) (m : Msg)
  | ended
  deriving DecidableEq

/-- The boundary of `ROLE_LOCAL_LLM`; `asked` counts the calls of `next_command`. -/
structure LocalLlm where
  phase : LlmPhase
  source : LocalLlmShellSource
  asked : ℕ

namespace LocalLlm

def init : LocalLlm := ⟨.openStdin, .new, 0⟩

/-- What follows a write: `none` is the prompt. -/
def afterWrite : Option Bool → LlmPhase
  | none => .read false
  | some second => .read !second

def goto (self : LocalLlm) (phase : LlmPhase) : LocalLlm := { self with phase := phase }

/-- What a handler of `path_open` has come to. -/
def opened (self : LocalLlm) (phase : Msg → LlmPhase) : Option Msg → LocalLlm
  | some m => self.goto (phase m)
  | none => self.goto .ended

def takeOpenStdin (self : LocalLlm) : Msg → LocalLlm
  | .pathOpenReq request => self.opened .openedStdin
      (completeBoundaryPathOpen request llmStdinPath fdReadRight llmStdinFd)
  | _ => self.goto .ended

def takeOpenStdout (self : LocalLlm) : Msg → LocalLlm
  | .pathOpenReq request => self.opened .openedStdout
      (completeBoundaryPathOpen request llmStdoutPath fdWriteRight llmStdoutFd)
  | _ => self.goto .ended

/-- `complete_local_llm_stdout_write`, up to its reply. -/
def takeWrite (self : LocalLlm) (second : Option Bool) : Msg → LocalLlm
  | .fdWriteReq write =>
      if write.fd ≠ llmStdoutFd then self.goto .ended
      else { self with
        phase := .wrote second write
        source := { self.source with
          transcript := self.source.transcript.observeShellOutput write.bytes } }
  | _ => self.goto .ended

def takeRead (self : LocalLlm) (second : Bool) : Msg → LocalLlm
  | .fdReadReq read => self.goto (.askHuman second read)
  | _ => self.goto .ended

def takeText (self : LocalLlm) (second : Bool) (read : FdRead) : Msg → LocalLlm
  | .humanInputText text => self.goto (.hearSensor second read text)
  | _ => self.goto .ended

/-- It has both inputs, and observes them. -/
def takeSample (self : LocalLlm) (second : Bool) (read : FdRead) (text : HumanInputText) :
    Msg → LocalLlm
  | .pico2wSensorSample sample =>
      match observeHumanInput text with
      | .ok request => { self with
          phase := .ackHuman second read
          source := { self.source with context := ⟨request, sample⟩ } }
      | .error _ => self.goto .ended
  | _ => self.goto .ended

/-- `complete_local_llm_stdin_read`, up to its reply. -/
def completeStdinRead (E : Inputs) (self : LocalLlm) (second : Bool) (read : FdRead) : LocalLlm :=
  if read.fd ≠ llmStdinFd ∨ read.maxLen = 0 then self.goto .ended
  else match self.source.serve (E.command self.asked self.source) read.maxLen with
    | some (command, source) =>
        if E.fdReadDone command then
          ⟨.reply second (.fdReadRet read.fd command), source, self.asked + 1⟩
        else self.goto .ended
    | none => self.goto .ended

def call (E : Inputs) (self : LocalLlm) : Call Role Msg LocalLlm :=
  match self.phase with
  | .openStdin => .receive .wasiLlmCell self.takeOpenStdin
  | .openedStdin m => .send .wasiLlmCell m (self.goto .openStdout)
  | .openStdout => .receive .wasiLlmCell self.takeOpenStdout
  | .openedStdout m => .send .wasiLlmCell m (self.goto (.write none))
  | .write second => .receive .wasiLlmCell (self.takeWrite second)
  | .wrote second write =>
      .send .wasiLlmCell (fdWriteDone write) (self.goto (afterWrite second))
  | .read second => .receive .wasiLlmCell (self.takeRead second)
  | .askHuman second read =>
      .send .humanInput (.humanInputReq 0) (self.goto (.askSensor second read))
  | .askSensor second read =>
      .send .pico2wSensor (.pico2wSensorReq 0) (self.goto (.hearHuman second read))
  | .hearHuman second read => .receive .humanInput (self.takeText second read)
  | .hearSensor second read text => .receive .pico2wSensor (self.takeSample second read text)
  | .ackHuman second read =>
      .send .humanInput (.humanInputAck 0) (self.goto (.ackSensor second read))
  | .ackSensor second read =>
      .send .pico2wSensor (.pico2wSensorAck 0) (self.completeStdinRead E second read)
  | .reply second m => .send .wasiLlmCell m (self.goto (.write (some second)))
  | .ended => .ended

end LocalLlm

/-! ### The boundaries of the human and of the sensor -/

inductive InputPhase where
  | request
  | answer
  | ack
  | ended
  deriving DecidableEq, Repr

/-- A boundary whose loop takes two turns, each a request, an answer and an ack; `given` counts the
answers. -/
structure InputBoundary where
  phase : InputPhase
  second : Bool
  given : ℕ
  deriving DecidableEq, Repr

namespace InputBoundary

def init : InputBoundary := ⟨.request, false, 0⟩

/-- It goes on if the message is the one that it waits for, with nothing but a zero in it. -/
def expect (self later : InputBoundary) (awaited m : Msg) : InputBoundary :=
  if m = awaited then later else { self with phase := .ended }

/-- The loop of `complete_human_input_turn_after_request` and `complete_human_input_turn_recv`, and
that of `complete_pico2w_sensor_turn_after_request` and `complete_pico2w_sensor_turn_recv`. -/
def call (req ack : Msg) (answer : ℕ → Msg) (self : InputBoundary) :
    Call Role Msg InputBoundary :=
  match self.phase with
  | .request => .receive .localLlm (self.expect { self with phase := .answer } req)
  | .answer => .send .localLlm (answer self.given) { self with
      phase := .ack, given := self.given + 1 }
  | .ack => .receive .localLlm
      (self.expect { self with phase := .request, second := !self.second } ack)
  | .ended => .ended

/-- The boundary of `ROLE_HUMAN_INPUT`. -/
def humanCall (E : Inputs) : InputBoundary → Call Role Msg InputBoundary :=
  call (.humanInputReq 0) (.humanInputAck 0) fun n => .humanInputText (E.texts n)

/-- The boundary of `ROLE_PICO2W_SENSOR`. -/
def sensorCall (E : Inputs) : InputBoundary → Call Role Msg InputBoundary :=
  call (.pico2wSensorReq 0) (.pico2wSensorAck 0) fun n => .pico2wSensorSample (E.samples n)

end InputBoundary

/-! ### The session -/

/-- What a role knows. -/
def Local : Role → Type
  | .m33LedKernel => M33
  | .wasiLlmCell => Cell
  | .localLlm => LocalLlm
  | .humanInput => InputBoundary
  | .pico2wSensor => InputBoundary

/-- What is outside of the five programs: the driver's facts, the runtime's `path_open` requests and
the inputs. -/
structure Outside extends Inputs where
  fs : ChoreoFs
  pathOpen : GuestFile → PathOpen

def session (E : Outside) : Network Role Msg Local where
  call
    | .m33LedKernel => M33.call E.fs
    | .wasiLlmCell => Cell.call E.pathOpen
    | .localLlm => LocalLlm.call E.toInputs
    | .humanInput => InputBoundary.humanCall E.toInputs
    | .pico2wSensor => InputBoundary.sensorCall E.toInputs

/-- The five roles, each with what it knows. -/
def locals (m33 : M33) (cell : Cell) (llm : LocalLlm) (human sensor : InputBoundary) :
    ∀ role, Local role
  | .m33LedKernel => m33
  | .wasiLlmCell => cell
  | .localLlm => llm
  | .humanInput => human
  | .pico2wSensor => sensor

/-- The session before any call. -/
def start : Network.State Role Msg Local :=
  .quiet (locals .init .init .init .init .init) fun _ => []

end HibanaPico.UnoQ
