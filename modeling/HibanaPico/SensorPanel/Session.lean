import HibanaPico.SensorPanel.Choreography
import HibanaPico.Support.Runs

/-!
# Sensor panel — Session

The three programs that meet in the sensor panel's session, each with its own control: a WASI guest
that performs its imports in turn, `SensorPanelLocal::driver` and `SensorPanelLocal::boundary`, with
the messages on their way between them, the radio and the Uno Q.

* `DriverPhase`, `BoundaryPhase`: where the driver and the boundary are between two calls of their
  endpoints.
* `driverHandle`, `UnoQWifiSender.recvTurn`: what the driver makes of a message, and a turn of the
  loop of `recv_packet`.
* `sessionMachine`: all of it, with what an observer notes of the calls and of the polls.
-/

namespace HibanaPico.SensorPanel
open HibanaPico.Support
open HibanaPico.Transport

/-! ### The messages -/

abbrev U64 := BitVec 64

structure PathOpen where
  preopenFd : U8
  rightsBase : U64
  path : List U8
  deriving DecidableEq, Repr

structure FdRead where
  fd : U8
  maxLen : ℕ
  deriving DecidableEq, Repr

structure FdWrite where
  fd : U8
  bytes : List U8
  deriving DecidableEq, Repr

/-- The messages, with what their receivers read of them. -/
inductive Msg where
  | pathOpenReq (request : PathOpen)
  | pathOpenRet (fd : U8)
  | fdReadReq (request : FdRead)
  | fdReadRet (fd : U8) (bytes : List U8)
  | fdWriteReq (request : FdWrite)
  | fdWriteRet (fd : U8) (written : U8) (errno : U16)
  | pollOneoffReq (timeoutTick : U64)
  | pollOneoffRet
  /-- A request or an answer of the bring-up. -/
  | bringup (label : Label)
  | wifiTxUdp (datagram : SensorWifiDatagram)
  | wifiTxDone (result : U32)
  | wifiTxErr
  | wifiRxPoll (localPort : U16)
  | wifiRxPacket (packet : SensorWifiPacket)
  | wifiRxPending
  deriving DecidableEq

def Msg.label : Msg → Label
  | .pathOpenReq _ => .pathOpenReq
  | .pathOpenRet _ => .pathOpenRet
  | .fdReadReq _ => .fdReadReq
  | .fdReadRet _ _ => .fdReadRet
  | .fdWriteReq _ => .fdWriteReq
  | .fdWriteRet _ _ _ => .fdWriteRet
  | .pollOneoffReq _ => .pollOneoffReq
  | .pollOneoffRet => .pollOneoffRet
  | .bringup label => label
  | .wifiTxUdp _ => .wifiTxUdp
  | .wifiTxDone _ => .wifiTxDone
  | .wifiTxErr => .wifiTxErr
  | .wifiRxPoll _ => .wifiRxPoll
  | .wifiRxPacket _ => .wifiRxPacket
  | .wifiRxPending => .wifiRxPending

/-- The errno of a reply to a write. -/
def Msg.errno : Msg → Option U16
  | .fdWriteRet _ _ errno => some errno
  | _ => none

/-! ### The driver -/

def devicePreopenFd : U8 := 9
def sensorSampleFd : U8 := 3
def displayFd : U8 := 4
def unoQUdpFd : U8 := 5
def fdReadRight : U64 := 1 <<< 1
def fdWriteRight : U64 := 1 <<< 6
def expectedPollTimeoutMs : U64 := 1000
def wasiErrnoIo : U16 := 5
def wifiRxEmptyPollBudget : ℕ := 16
def wifiRxFrameBudget : ℕ := 4

/-- `OBJECT_FACTS`: the object of each of the three descriptors. -/
def sensorSampleObject : ℕ := 1
def displayObject : ℕ := 2
def unoQUdpObject : ℕ := 3

structure LedgerFdFact where
  fd : ℕ
  object : ℕ
  rights : U64
  deriving DecidableEq, Repr

/-- What the session is built with: the answers of `OBJECT_FACTS.choreofs()`, the radio's artifacts
or none, the Uno Q's address and the ports. -/
structure Panel where
  resolve : List U8 → Option ℕ
  fds : List LedgerFdFact
  ledgerFd : ℕ → Option LedgerFdFact
  embedCyw43Artifacts : Bool
  unoQWifiIp : Ipv4Addr
  srcPort : U16
  dstPort : U16

/-- `find_ledger_fd`. -/
def findLedgerFd (ledger : List LedgerFdFact) (object : ℕ) (rights : U64) :
    Option LedgerFdFact :=
  ledger.find? fun fact => fact.object = object ∧ fact.rights = rights

/-- `handle_path_open`, up to its reply. -/
def handlePathOpen (P : Panel) (request : PathOpen) (expectedFd : U8) (expectedObject : ℕ)
    (expectedRights : U64) : Option Msg :=
  if request.preopenFd ≠ devicePreopenFd ∨ request.rightsBase ≠ expectedRights then none
  else do
    let object ← P.resolve request.path
    let fact ← findLedgerFd P.fds object request.rightsBase
    if fact.fd ≠ expectedFd.toNat ∨ fact.object ≠ expectedObject then none
    else some (.pathOpenRet (.ofNat 8 fact.fd))

/-- What `handle_fd_read` and `validate_fd_write` ask of the ledger. -/
def ledgerAllows (P : Panel) (fd expectedFd : U8) (expectedObject : ℕ) (right : U64) : Bool :=
  fd = expectedFd ∧ (P.ledgerFd fd.toNat).any fun fact =>
    fact.object = expectedObject ∧ fact.rights = right

/-- `handle_fd_read`, up to its reply, and `SENSOR_UDP_SEQ` after it. -/
def handleFdRead (P : Panel) (lightRaw : U16) (bus : Dht20Bus) (sensorUdpSeq : U16)
    (request : FdRead) : Option Msg × U16 :=
  if ledgerAllows P request.fd sensorSampleFd sensorSampleObject fdReadRight then
    match sampledPayload lightRaw bus sensorUdpSeq with
    | none => (none, sensorUdpSeq + 1)
    | some bytes =>
        if request.maxLen < bytes.length then (none, sensorUdpSeq + 1)
        else (some (.fdReadRet request.fd bytes), sensorUdpSeq + 1)
  else (none, sensorUdpSeq)

/-- The reply of a write that went through: `FdWriteDone::new(request.fd(), request.len())`. -/
def fdWriteDone (request : FdWrite) : Msg :=
  .fdWriteRet request.fd (.ofNat 8 request.bytes.length) 0

/-- `handle_fd_write_display`, up to its reply. -/
def handleFdWriteDisplay (P : Panel) (request : FdWrite) : Option Msg :=
  if ledgerAllows P request.fd displayFd displayObject fdWriteRight then
    (pico2wSampleFromPayload request.bytes).map fun _ => fdWriteDone request
  else none

/-- `handle_fd_write_uno_q`, up to its first message to the radio: the datagram and the sample. -/
def handleFdWriteUnoQ (P : Panel) (request : FdWrite) :
    Option (SensorWifiDatagram × Pico2wSensorSample) :=
  if ledgerAllows P request.fd unoQUdpFd unoQUdpObject fdWriteRight then do
    let sample ← pico2wSampleFromPayload request.bytes
    match SensorWifiDatagram.new P.unoQWifiIp P.srcPort P.dstPort request.bytes with
    | .ok datagram => some (datagram, sample)
    | .error _ => none
  else none

/-- The reply of `handle_fd_write_uno_q`. -/
def unoQReply (request : FdWrite) (ackOk : Bool) : Msg :=
  if ackOk then fdWriteDone request else .fdWriteRet request.fd 0 wasiErrnoIo

/-- The imports of a guest of the choreography, in their order. -/
inductive Import where
  | openSample | openDisplay | openUnoQ
  | read | display | unoQ | poll
  deriving DecidableEq, Repr

namespace Import

def req : Import → Label
  | .openSample | .openDisplay | .openUnoQ => .pathOpenReq
  | .read => .fdReadReq
  | .display | .unoQ => .fdWriteReq
  | .poll => .pollOneoffReq

def ret : Import → Label
  | .openSample | .openDisplay | .openUnoQ => .pathOpenRet
  | .read => .fdReadRet
  | .display | .unoQ => .fdWriteRet
  | .poll => .pollOneoffRet

/-- The import behind it: after a `poll_oneoff`, the next cycle's `fd_read`. -/
def next : Import → Import
  | .openSample => .openDisplay
  | .openDisplay => .openUnoQ
  | .openUnoQ => .read
  | .read => .display
  | .display => .unoQ
  | .unoQ => .poll
  | .poll => .read

end Import

/-- `driver_cyw43_bootstrap`: the requests and the answers it waits for. -/
def driverCyw43Bootstrap : List (Label × Label) :=
  [(.wifiPowerOn, .wifiPowerReady), (.wifiGspiProbe, .wifiGspiReady),
    (.wifiBackplaneInit, .wifiBackplaneReady), (.wifiFirmwareLoad, .wifiFirmwareLoaded),
    (.wifiNvramLoad, .wifiNvramLoaded), (.wifiFirmwareStart, .wifiFirmwareStarted),
    (.wifiClmLoad, .wifiClmDone), (.wifiCdcUp, .wifiCdcUpDone), (.wifiJoin, .wifiJoinDone),
    (.wifiLinkPoll, .wifiLinkUp)]

/-- Where the driver is: which call of its endpoint comes next. -/
inductive DriverPhase where
  /-- It sends the first of these requests, -/
  | bootSend (steps : List (Label × Label))
  /-- and waits for this answer, with these to follow. -/
  | bootRecv (ret : Label) (steps : List (Label × Label))
  /-- It waits for the request of an import, -/
  | serve (i : Import)
  /-- and sends the reply. -/
  | reply (i : Import) (m : Msg)
  | txSend (request : FdWrite) (datagram : SensorWifiDatagram) (seq : U16)
  | txOffer (request : FdWrite) (seq : U16)
  | rxSend (request : FdWrite) (seq : U16)
  | rxOffer (request : FdWrite) (seq : U16)
  /-- It sends the reply of the Uno Q write; `txOk`, as the source has it. -/
  | commit (txOk : Bool) (m : Msg)
  deriving DecidableEq

namespace DriverPhase

/-- What follows the bring-up. -/
def booted : List (Label × Label) → DriverPhase
  | [] => .serve .openSample
  | steps => .bootSend steps

/-- The message it sends, to whom, and where it is then; `none` where it waits. -/
def sends (srcPort : U16) : DriverPhase → Option (Role × Msg × DriverPhase)
  | .bootSend ((req, ret) :: steps) => some (.cyw43Driver, .bringup req, .bootRecv ret steps)
  | .bootSend [] => none
  | .bootRecv _ _ => none
  | .serve _ => none
  | .reply i m => some (.engine, m, .serve i.next)
  | .txSend request datagram seq => some (.cyw43Driver, .wifiTxUdp datagram, .txOffer request seq)
  | .txOffer _ _ => none
  | .rxSend request seq => some (.cyw43Driver, .wifiRxPoll srcPort, .rxOffer request seq)
  | .rxOffer _ _ => none
  | .commit _ m => some (.engine, m, .serve .poll)

/-- Whom it waits for. -/
def source : DriverPhase → Role
  | .serve _ => .engine
  | _ => .cyw43Driver

/-- The labels that it takes. -/
def awaits : DriverPhase → Label → Bool
  | .bootRecv ret _, label => label == ret
  | .serve i, label => label == i.req
  | .txOffer _ _, label => label == .wifiTxDone || label == .wifiTxErr
  | .rxOffer _ _, label => label == .wifiRxPacket || label == .wifiRxPending
  | _, _ => false

end DriverPhase

/-- What the driver makes of a message: the next call of its endpoint, or `RuntimeViolation`; and
`SENSOR_UDP_SEQ` after it. -/
def driverHandle (P : Panel) (lightRaw : U16) (bus : Dht20Bus) (sensorUdpSeq : U16) :
    DriverPhase → Msg → Option DriverPhase × U16
  | .bootRecv _ steps, _ => (some (.booted steps), sensorUdpSeq)
  | .serve .openSample, .pathOpenReq request =>
      ((handlePathOpen P request sensorSampleFd sensorSampleObject fdReadRight).map
        (.reply .openSample), sensorUdpSeq)
  | .serve .openDisplay, .pathOpenReq request =>
      ((handlePathOpen P request displayFd displayObject fdWriteRight).map (.reply .openDisplay),
        sensorUdpSeq)
  | .serve .openUnoQ, .pathOpenReq request =>
      ((handlePathOpen P request unoQUdpFd unoQUdpObject fdWriteRight).map (.reply .openUnoQ),
        sensorUdpSeq)
  | .serve .read, .fdReadReq request =>
      ((handleFdRead P lightRaw bus sensorUdpSeq request).1.map (.reply .read),
        (handleFdRead P lightRaw bus sensorUdpSeq request).2)
  | .serve .display, .fdWriteReq request =>
      ((handleFdWriteDisplay P request).map (.reply .display), sensorUdpSeq)
  | .serve .unoQ, .fdWriteReq request =>
      ((handleFdWriteUnoQ P request).map fun p => .txSend request p.1 p.2.seq, sensorUdpSeq)
  | .serve .poll, .pollOneoffReq timeoutTick =>
      (if timeoutTick = expectedPollTimeoutMs then some (.reply .poll .pollOneoffRet) else none,
        sensorUdpSeq)
  | .txOffer request seq, .wifiTxDone result =>
      (if result.toNat = request.bytes.length then some (.rxSend request seq) else none,
        sensorUdpSeq)
  | .txOffer request _, .wifiTxErr =>
      -- `tx_ok && poll_wifi_udp_ack(..)` does not poll
      (some (.commit false (unoQReply request false)), sensorUdpSeq)
  | .rxOffer request seq, .wifiRxPacket packet =>
      (some (.commit true (unoQReply request
        (decodePico2wSensorUdpAck packet.slice == some seq))), sensorUdpSeq)
  | .rxOffer request _, .wifiRxPending =>
      (some (.commit true (unoQReply request false)), sensorUdpSeq)
  | _, _ => (none, sensorUdpSeq)

/-! ### The boundary -/

/-- `cyw43_boundary_bootstrap`: the requests it waits for and its answers. -/
def cyw43BoundaryBootstrap : List (Label × Label) :=
  [(.wifiPowerOn, .wifiPowerReady), (.wifiGspiProbe, .wifiGspiReady),
    (.wifiBackplaneInit, .wifiBackplaneReady), (.wifiFirmwareLoad, .wifiFirmwareLoaded),
    (.wifiNvramLoad, .wifiNvramLoaded), (.wifiFirmwareStart, .wifiFirmwareStarted),
    (.wifiClmLoad, .wifiClmDone), (.wifiCdcUp, .wifiCdcUpDone), (.wifiJoin, .wifiJoinDone),
    (.wifiLinkPoll, .wifiLinkUp)]

/-- A frame in the radio, by the packet for the local port that `parse_udp_ipv4_packet` finds in
it. -/
abbrev RadioFrame := Option SensorWifiPacket

/-- How an access to the radio goes. -/
inductive GspiOutcome where
  | ok
  /-- The frame cannot be sent, or `recv_ethernet_frame` fails. -/
  | fails
  /-- `service_arp_ipv4_request` fails for the frame that was read. -/
  | replyFails
  deriving DecidableEq, Repr

/-- `UnoQWifiSender`: its driver, there or not, and its sequence. -/
structure UnoQWifiSender where
  driver : Bool
  sequence : U8
  deriving DecidableEq, Repr

inductive BoundaryPhase where
  | bootRecv (steps : List (Label × Label))
  /-- It sends this answer, with these to follow. -/
  | bootReady (ret : Label) (steps : List (Label × Label))
  | txOffer
  /-- It sends what `send_datagram` has returned. -/
  | txSend (result : Option U32)
  | rxOffer
  /-- `recv_packet` is in its loop. -/
  | receiving (emptyPolls frames : ℕ)
  /-- It sends the packet, if `recv_packet` has returned one. -/
  | rxSend (packet : Option SensorWifiPacket)
  deriving DecidableEq

namespace BoundaryPhase

/-- What follows the bring-up. -/
def booted : List (Label × Label) → BoundaryPhase
  | [] => .txOffer
  | steps => .bootRecv steps

/-- The message it sends, and where it is then. -/
def sends : BoundaryPhase → Option (Msg × BoundaryPhase)
  | .bootReady ret steps => some (.bringup ret, .booted steps)
  | .txSend (some written) => some (.wifiTxDone written, .rxOffer)
  | .txSend none => some (.wifiTxErr, .rxOffer)
  | .rxSend (some packet) => some (.wifiRxPacket packet, .txOffer)
  | .rxSend none => some (.wifiRxPending, .txOffer)
  | .bootRecv _ | .txOffer | .rxOffer | .receiving _ _ => none

/-- The label that it takes. -/
def awaits : BoundaryPhase → Label → Bool
  | .bootRecv ((req, _) :: _), label => label == req
  | .txOffer, label => label == .wifiTxUdp
  | .rxOffer, label => label == .wifiRxPoll
  | _, _ => false

end BoundaryPhase

namespace UnoQWifiSender

/-- `send_datagram`. -/
def sendDatagram (wifi : UnoQWifiSender) (gspi : GspiOutcome) (datagram : SensorWifiDatagram) :
    Option U32 × UnoQWifiSender :=
  if wifi.driver then
    match gspi with
    | .ok => (some (.ofNat 32 datagram.slice.length),
        { wifi with sequence := wifi.sequence + 1 })
    | _ => (none, { wifi with driver := false })
  else (none, wifi)

/-- The head of the loop of `recv_packet`. -/
def recvHead (emptyPolls frames : ℕ) : BoundaryPhase :=
  if emptyPolls < wifiRxEmptyPollBudget ∧ frames < wifiRxFrameBudget then
    .receiving emptyPolls frames
  else .rxSend none

/-- `recv_packet`, up to its loop. -/
def recvPacket (wifi : UnoQWifiSender) : BoundaryPhase :=
  if wifi.driver then recvHead 0 0 else .rxSend none

/-- A turn of the loop of `recv_packet`, and the frames left in the radio. -/
def recvTurn (gspi : GspiOutcome) (emptyPolls frames : ℕ) (radio : List RadioFrame) :
    BoundaryPhase × List RadioFrame :=
  match gspi, radio with
  | .fails, radio => (.rxSend none, radio)
  | _, [] => (recvHead (emptyPolls + 1) frames, [])
  | _, some packet :: radio => (.rxSend (some packet), radio)
  | .ok, none :: radio => (recvHead 0 (frames + 1), radio)
  | .replyFails, none :: radio => (.rxSend none, radio)

end UnoQWifiSender

/-! ### The session -/

inductive GuestPhase where
  /-- The guest is about to perform this import, -/
  | calling (i : Import)
  /-- and waits for its reply. -/
  | waiting (i : Import)
  | ended
  deriving DecidableEq, Repr

/-- What an observer notes of a cycle that has polled for its ack: the sample's sequence number, the
frames in the radio when the poll began, whether the radio failed in it, and the errno of the
reply. -/
structure CycleNote where
  seq : U16
  queued : List RadioFrame
  failed : Bool
  errno : Option U16
  deriving DecidableEq

structure SessionState where
  guest : GuestPhase
  /-- The replies the guest has received. -/
  replies : List Msg
  /-- The messages on their way between the engine and the driver, oldest first, -/
  toKernel : List Msg
  toEngine : List Msg
  /-- and between the driver and the boundary. -/
  toBoundary : List Msg
  fromBoundary : List Msg
  driver : DriverPhase
  driverEnded : Bool
  /-- What the driver has asked its endpoint to send, and what it has received. -/
  driverCalls : List Event
  sensorUdpSeq : U16
  boundary : BoundaryPhase
  boundaryEnded : Bool
  boundaryCalls : List Event
  wifi : UnoQWifiSender
  /-- The frames in the radio, oldest first. -/
  radio : List RadioFrame
  /-- A role has found a message with another label than it takes. -/
  mismatched : Bool
  /-- The datagrams that the radio has sent, -/
  sent : List SensorWifiDatagram
  /-- and how many of them the Uno Q has acked or will not ack any more. -/
  heard : ℕ
  /-- The frames in the radio when the last poll began, and whether the radio has failed in it. -/
  queued : List RadioFrame
  failed : Bool
  cycles : List CycleNote
  deriving DecidableEq

namespace SessionState

def init : SessionState where
  guest := .calling .openSample
  replies := []
  toKernel := []
  toEngine := []
  toBoundary := []
  fromBoundary := []
  driver := .booted driverCyw43Bootstrap
  driverEnded := false
  driverCalls := []
  sensorUdpSeq := 0
  boundary := .booted cyw43BoundaryBootstrap
  boundaryEnded := false
  boundaryCalls := []
  wifi := ⟨false, 0⟩
  radio := []
  mismatched := false
  sent := []
  heard := 0
  queued := []
  failed := false
  cycles := []

/-- The driver's endpoint has sent the message. -/
def driverSent (s : SessionState) (target : Role) (m : Msg) (phase : DriverPhase) : SessionState :=
  { s with
    driver := phase
    driverCalls := s.driverCalls ++ [.sent target m.label]
    toEngine := if target = .engine then s.toEngine ++ [m] else s.toEngine
    toBoundary := if target = .engine then s.toBoundary else s.toBoundary ++ [m] }

/-- What is noted when the driver, in its first phase, goes over to its second. -/
def noteCycle (s : SessionState) : DriverPhase → DriverPhase → List CycleNote
  | .rxOffer _ seq, .commit _ m => [⟨seq, s.queued, s.failed, m.errno⟩]
  | _, _ => []

/-- The driver's endpoint has received the message. -/
def driverReceived (P : Panel) (lightRaw : U16) (bus : Dht20Bus) (s : SessionState) (m : Msg) :
    SessionState :=
  let handled := driverHandle P lightRaw bus s.sensorUdpSeq s.driver m
  match handled.1 with
  | some phase => { s with
      driver := phase
      driverCalls := s.driverCalls ++ [.received s.driver.source m.label]
      sensorUdpSeq := handled.2
      cycles := s.cycles ++ s.noteCycle s.driver phase }
  | none => { s with
      driverEnded := true
      driverCalls := s.driverCalls ++ [.received s.driver.source m.label]
      sensorUdpSeq := handled.2 }

/-- The driver finds the message at the front of its channel; `taken` is the session without it. -/
def driverFinds (P : Panel) (lightRaw : U16) (bus : Dht20Bus) (s taken : SessionState) (m : Msg) :
    SessionState :=
  if s.driver.awaits m.label then taken.driverReceived P lightRaw bus m
  else { s with driverEnded := true, mismatched := true }

/-- The driver's next call of its endpoint returns. -/
def driverNext (P : Panel) (lightRaw : U16) (bus : Dht20Bus) (s : SessionState) :
    Option SessionState :=
  if s.driverEnded then none
  else match s.driver.sends P.srcPort with
    | some (target, m, phase) => some (s.driverSent target m phase)
    | none =>
        if s.driver.source = .engine then
          match s.toKernel with
          | [] => none
          | m :: rest => some (s.driverFinds P lightRaw bus { s with toKernel := rest } m)
        else
          match s.fromBoundary with
          | [] => none
          | m :: rest => some (s.driverFinds P lightRaw bus { s with fromBoundary := rest } m)

/-- The driver's next call of its endpoint returns an error. -/
def driverFails (P : Panel) (s : SessionState) : Option SessionState :=
  if s.driverEnded then none
  else some { s with
    driverEnded := true
    driverCalls := s.driverCalls ++ match s.driver.sends P.srcPort with
      | some (target, m, _) => [.sent target m.label]
      | none => [] }

/-- The boundary's endpoint has sent the message. -/
def boundarySent (P : Panel) (s : SessionState) (m : Msg) (phase : BoundaryPhase) :
    SessionState :=
  { s with
    boundary := phase
    boundaryCalls := s.boundaryCalls ++ [.sent .kernel m.label]
    fromBoundary := s.fromBoundary ++ [m]
    wifi := match s.boundary with
      | .bootReady _ [] => ⟨P.embedCyw43Artifacts, 0⟩
      | _ => s.wifi }

/-- What the boundary, in this phase, makes of a message. -/
def boundaryHandle (gspi : GspiOutcome) (s : SessionState) : BoundaryPhase → Msg → SessionState
  | .bootRecv ((_, ret) :: steps), _ => { s with boundary := .bootReady ret steps }
  | .txOffer, .wifiTxUdp datagram => { s with
      boundary := .txSend (s.wifi.sendDatagram gspi datagram).1
      wifi := (s.wifi.sendDatagram gspi datagram).2
      sent := if (s.wifi.sendDatagram gspi datagram).1.isSome then s.sent ++ [datagram]
        else s.sent }
  | .rxOffer, .wifiRxPoll _ => { s with
      boundary := s.wifi.recvPacket, queued := s.radio, failed := !s.wifi.driver }
  | _, _ => { s with boundaryEnded := true }

/-- The boundary's endpoint has received the message. -/
def boundaryReceived (gspi : GspiOutcome) (s : SessionState) (m : Msg) : SessionState :=
  boundaryHandle gspi { s with boundaryCalls := s.boundaryCalls ++ [.received .kernel m.label] }
    s.boundary m

/-- The radio fails in this turn of the loop of `recv_packet`. -/
def recvFails : GspiOutcome → List RadioFrame → Bool
  | .fails, _ => true
  | .replyFails, none :: _ => true
  | _, _ => false

/-- The boundary's next call of its endpoint, or of the radio in `recv_packet`, returns. -/
def boundaryNext (P : Panel) (gspi : GspiOutcome) (s : SessionState) : Option SessionState :=
  if s.boundaryEnded then none
  else match s.boundary with
    | .receiving emptyPolls frames => some { s with
        boundary := (UnoQWifiSender.recvTurn gspi emptyPolls frames s.radio).1
        radio := (UnoQWifiSender.recvTurn gspi emptyPolls frames s.radio).2
        failed := s.failed || recvFails gspi s.radio }
    | .bootReady ret steps =>
        -- what stands between the request and the answer may fail where there is a radio
        if P.embedCyw43Artifacts && gspi != .ok then some { s with boundaryEnded := true }
        else some (s.boundarySent P (.bringup ret) (.booted steps))
    | phase =>
        match phase.sends with
        | some (m, phase) => some (s.boundarySent P m phase)
        | none =>
            match s.toBoundary with
            | [] => none
            | m :: rest =>
                if phase.awaits m.label then
                  some ({ s with toBoundary := rest }.boundaryReceived gspi m)
                else some { s with boundaryEnded := true, mismatched := true }

/-- The boundary's next call of its endpoint returns an error. -/
def boundaryFails (s : SessionState) : Option SessionState :=
  if s.boundaryEnded then none
  else some { s with
    boundaryEnded := true
    boundaryCalls := s.boundaryCalls ++ match s.boundary.sends with
      | some (m, _) => [.sent .kernel m.label]
      | none => [] }

/-- The guest performs its next import. -/
def guestCalls (s : SessionState) (m : Msg) : Option SessionState :=
  match s.guest with
  | .calling i =>
      if m.label = i.req then
        some { s with guest := .waiting i, toKernel := s.toKernel ++ [m] }
      else none
  | _ => none

/-- The guest receives a reply. -/
def guestReturns (s : SessionState) : Option SessionState :=
  match s.guest, s.toEngine with
  | .waiting i, m :: rest =>
      if m.label = i.ret then
        some { s with guest := .calling i.next, replies := s.replies ++ [m], toEngine := rest }
      else some { s with guest := .ended, mismatched := true }
  | _, _ => none

end SessionState

inductive SessionAction where
  | call (m : Msg)
  | ret
  /-- `lightRaw` and `bus` are what the sampler finds, if it is asked. -/
  | driver (lightRaw : U16) (bus : Dht20Bus)
  | driverFails
  | boundary (gspi : GspiOutcome)
  | boundaryFails
  /-- A frame comes in: the ack of a datagram, or none. -/
  | arrive (frame : RadioFrame) (answers : Option ℕ)
  deriving DecidableEq

def SessionState.next (P : Panel) (s : SessionState) : SessionAction → Option SessionState
  | .call m => s.guestCalls m
  | .ret => s.guestReturns
  | .driver lightRaw bus => s.driverNext P lightRaw bus
  | .driverFails => s.driverFails P
  | .boundary gspi => s.boundaryNext P gspi
  | .boundaryFails => s.boundaryFails
  | .arrive frame answers => some { s with
      radio := s.radio ++ [frame], heard := answers.elim s.heard (· + 1) }

/-- Guest, driver, boundary and radio, in any order of steps. -/
def sessionMachine (P : Panel) : Machine SessionState SessionAction := ⟨SessionState.next P⟩

end HibanaPico.SensorPanel
