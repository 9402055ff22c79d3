import HibanaPico.SensorPanel.Fresh
import HibanaPico.SensorPanel.Payloads
import HibanaPico.Support.Choreography

/-!
# Sensor panel — Choreography

The messages of the sensor panel's session and `SensorPanel::choreography`, as its three roles read
it: the kernel (role 0, the driver), the WASI engine (role 1) and the CYW43 boundary.

* `choreography`: the bring-up of the radio, the guest's three `path_open`s, and the cycles.
* `driverWords`, `boundaryWords`: what its projections on the driver and on the boundary come to.
-/

namespace HibanaPico.SensorPanel
open Computability
open HibanaPico.Support
open HibanaPico.Support.Choreography
open HibanaPico.Transport

inductive Role where
  /-- `CHOREOGRAPHIC_KERNEL`, role 0. -/
  | kernel
  /-- Role 1. -/
  | engine
  /-- `CYW43_DRIVER`. -/
  | cyw43Driver
  deriving DecidableEq, Repr

/-- The labels of the messages, by the names of their types. -/
inductive Label where
  | pathOpenReq | pathOpenRet
  | fdReadReq | fdReadRet
  | fdWriteReq | fdWriteRet
  | pollOneoffReq | pollOneoffRet
  | wifiPowerOn | wifiPowerReady
  | wifiGspiProbe | wifiGspiReady
  | wifiBackplaneInit | wifiBackplaneReady
  | wifiFirmwareLoad | wifiFirmwareLoaded
  | wifiNvramLoad | wifiNvramLoaded
  | wifiFirmwareStart | wifiFirmwareStarted
  | wifiClmLoad | wifiClmDone
  | wifiCdcUp | wifiCdcUpDone
  | wifiJoin | wifiJoinDone
  | wifiLinkPoll | wifiLinkUp
  | wifiTxUdp | wifiTxDone | wifiTxErr
  | wifiRxPoll | wifiRxPacket | wifiRxPending
  deriving DecidableEq, Repr

abbrev Event := LocalEvent Role Label

/-! ### The choreography -/

/-- A request of the engine's, and the kernel's reply. -/
def imported (req ret : Label) : Choreography Role Label :=
  seq (send .engine .kernel req) (send .kernel .engine ret)

/-- A request of the kernel's, and the boundary's answer. -/
def asked (req ret : Label) : Choreography Role Label :=
  seq (send .kernel .cyw43Driver req) (send .cyw43Driver .kernel ret)

def pathOpen : Choreography Role Label := imported .pathOpenReq .pathOpenRet

def fdRead : Choreography Role Label := imported .fdReadReq .fdReadRet

def fdWriteReq : Choreography Role Label := send .engine .kernel .fdWriteReq

def fdWriteRet : Choreography Role Label := send .kernel .engine .fdWriteRet

def fdWrite : Choreography Role Label := seq fdWriteReq fdWriteRet

def cyw43Bringup : Choreography Role Label :=
  let power := asked .wifiPowerOn .wifiPowerReady
  let gspi := asked .wifiGspiProbe .wifiGspiReady
  let backplane := asked .wifiBackplaneInit .wifiBackplaneReady
  let firmware := asked .wifiFirmwareLoad .wifiFirmwareLoaded
  let nvram := asked .wifiNvramLoad .wifiNvramLoaded
  let start := asked .wifiFirmwareStart .wifiFirmwareStarted
  seq power (seq gspi (seq backplane (seq firmware (seq nvram start))))

def cyw43Join : Choreography Role Label :=
  let clm := asked .wifiClmLoad .wifiClmDone
  let up := asked .wifiCdcUp .wifiCdcUpDone
  let join := asked .wifiJoin .wifiJoinDone
  let link := asked .wifiLinkPoll .wifiLinkUp
  seq clm (seq up (seq join link))

def wifiUdpTx : Choreography Role Label :=
  seq (send .kernel .cyw43Driver .wifiTxUdp)
    (route (send .cyw43Driver .kernel .wifiTxDone) (send .cyw43Driver .kernel .wifiTxErr))

def wifiUdpRx : Choreography Role Label :=
  seq (send .kernel .cyw43Driver .wifiRxPoll)
    (route (send .cyw43Driver .kernel .wifiRxPacket) (send .cyw43Driver .kernel .wifiRxPending))

def fdWriteAfterWifiAck : Choreography Role Label :=
  seq fdWriteReq (seq wifiUdpTx (seq wifiUdpRx fdWriteRet))

def poll : Choreography Role Label := imported .pollOneoffReq .pollOneoffRet

def sampleCycle : Choreography Role Label :=
  seq fdRead (seq fdWrite (seq fdWriteAfterWifiAck poll))

def admittedCycle : Choreography Role Label := roll sampleCycle

/-- `SensorPanel::choreography`. -/
def choreography : Choreography Role Label :=
  seq cyw43Bringup (seq cyw43Join (seq pathOpen (seq pathOpen (seq pathOpen admittedCycle))))

/-! ### Its projections -/

abbrev toBoundary (label : Label) : Event := .sent .cyw43Driver label
abbrev fromBoundary (label : Label) : Event := .received .cyw43Driver label
abbrev toEngine (label : Label) : Event := .sent .engine label
abbrev fromEngine (label : Label) : Event := .received .engine label
abbrev toKernel (label : Label) : Event := .sent .kernel label
abbrev fromKernel (label : Label) : Event := .received .kernel label

/-- The requests of the bring-up and their answers. -/
def bringupSteps : List (Label × Label) :=
  [(.wifiPowerOn, .wifiPowerReady), (.wifiGspiProbe, .wifiGspiReady),
    (.wifiBackplaneInit, .wifiBackplaneReady), (.wifiFirmwareLoad, .wifiFirmwareLoaded),
    (.wifiNvramLoad, .wifiNvramLoaded), (.wifiFirmwareStart, .wifiFirmwareStarted),
    (.wifiClmLoad, .wifiClmDone), (.wifiCdcUp, .wifiCdcUpDone), (.wifiJoin, .wifiJoinDone),
    (.wifiLinkPoll, .wifiLinkUp)]

/-- One event for each request and one for each answer, and then the words of `K`. -/
def handshakes (request answer : Label → Event) (K : Language Event) :
    List (Label × Label) → Language Event
  | [] => K
  | (req, ret) :: rest =>
      followedBy (request req) (followedBy (answer ret) (handshakes request answer K rest))

/-- The driver serves an import, and then the words of `K`. -/
def served (req ret : Label) (K : Language Event) : Language Event :=
  followedBy (fromEngine req) (followedBy (toEngine ret) K)

section
variable (K : Language Event)

def pollWords : Language Event := served .pollOneoffReq .pollOneoffRet K

def commitWords : Language Event := followedBy (toEngine .fdWriteRet) (pollWords K)

def rxOfferWords : Language Event :=
  followedBy (fromBoundary .wifiRxPacket) (commitWords K) +
    followedBy (fromBoundary .wifiRxPending) (commitWords K)

def rxSendWords : Language Event := followedBy (toBoundary .wifiRxPoll) (rxOfferWords K)

def txOfferWords : Language Event :=
  followedBy (fromBoundary .wifiTxDone) (rxSendWords K) +
    followedBy (fromBoundary .wifiTxErr) (rxSendWords K)

def txSendWords : Language Event := followedBy (toBoundary .wifiTxUdp) (txOfferWords K)

def unoQWords : Language Event := followedBy (fromEngine .fdWriteReq) (txSendWords K)

def displayWords : Language Event := served .fdWriteReq .fdWriteRet (unoQWords K)

/-- A cycle behind its `fd_read` request. -/
def readWords : Language Event := followedBy (toEngine .fdReadRet) (displayWords K)

end

def cycleWords : Language Event := (followedBy (fromEngine .fdReadReq) (readWords 1))∗

def openUnoQWords : Language Event := served .pathOpenReq .pathOpenRet cycleWords

def openDisplayWords : Language Event := served .pathOpenReq .pathOpenRet openUnoQWords

def openSampleWords : Language Event := served .pathOpenReq .pathOpenRet openDisplayWords

def driverWords : Language Event :=
  handshakes toBoundary fromBoundary openSampleWords bringupSteps

section
variable (K : Language Event)

def rxAnsweredWords : Language Event :=
  followedBy (toKernel .wifiRxPacket) K + followedBy (toKernel .wifiRxPending) K

def rxPolledWords : Language Event := followedBy (fromKernel .wifiRxPoll) (rxAnsweredWords K)

/-- A cycle behind its datagram. -/
def txAnsweredWords : Language Event :=
  followedBy (toKernel .wifiTxDone) (rxPolledWords K) +
    followedBy (toKernel .wifiTxErr) (rxPolledWords K)

end

def boundaryCycleWords : Language Event :=
  (followedBy (fromKernel .wifiTxUdp) (txAnsweredWords 1))∗

def boundaryWords : Language Event :=
  handshakes fromKernel toKernel boundaryCycleWords bringupSteps

theorem readWords_mul (K L : Language Event) : readWords K * L = readWords (K * L) := by
  simp only [readWords, displayWords, served, unoQWords, txSendWords, txOfferWords, rxSendWords,
    rxOfferWords, commitWords, pollWords, followedBy_mul, add_mul]

theorem txAnsweredWords_mul (K L : Language Event) :
    txAnsweredWords K * L = txAnsweredWords (K * L) := by
  simp only [txAnsweredWords, rxPolledWords, rxAnsweredWords, followedBy_mul, add_mul]

theorem project_asked_kernel (req ret : Label) (K : Language Event) :
    ((asked req ret).project .kernel).matches' * K =
      followedBy (toBoundary req) (followedBy (fromBoundary ret) K) := by
  rw [asked, matches'_project_seq, matches'_project_send, matches'_project_send, mul_assoc]
  rfl

theorem project_imported_kernel (req ret : Label) (K : Language Event) :
    ((imported req ret).project .kernel).matches' * K = served req ret K := by
  rw [imported, matches'_project_seq, matches'_project_send, matches'_project_send, mul_assoc]
  rfl

theorem project_asked_cyw43Driver (req ret : Label) (K : Language Event) :
    ((asked req ret).project .cyw43Driver).matches' * K =
      followedBy (fromKernel req) (followedBy (toKernel ret) K) := by
  rw [asked, matches'_project_seq, matches'_project_send, matches'_project_send, mul_assoc]
  rfl

/-- The boundary has nothing to do with the imports. -/
theorem project_imported_cyw43Driver (req ret : Label) :
    ((imported req ret).project .cyw43Driver).matches' = 1 := by
  rw [imported, matches'_project_seq, matches'_project_send, matches'_project_send]
  exact one_mul 1

theorem project_wifiUdpTx_kernel (K : Language Event) :
    (wifiUdpTx.project .kernel).matches' * ((wifiUdpRx.project .kernel).matches' *
      ((fdWriteRet.project .kernel).matches' * pollWords K)) = txSendWords K := by
  simp only [wifiUdpTx, wifiUdpRx, fdWriteRet, matches'_project_seq, matches'_project_route,
    matches'_project_send, mul_assoc, add_mul]
  rfl

theorem project_wifiUdpTx_cyw43Driver :
    (wifiUdpTx.project .cyw43Driver).matches' * (wifiUdpRx.project .cyw43Driver).matches' =
      followedBy (fromKernel .wifiTxUdp) (txAnsweredWords 1) := by
  simp only [wifiUdpTx, wifiUdpRx, matches'_project_seq, matches'_project_route,
    matches'_project_send, txAnsweredWords, rxPolledWords, rxAnsweredWords, followedBy, mul_assoc,
    add_mul, mul_one]
  rfl

/-- A cycle, as the driver reads it. -/
theorem project_sampleCycle_kernel :
    (sampleCycle.project .kernel).matches' = followedBy (fromEngine .fdReadReq) (readWords 1) := by
  have fdWrite_kernel (K : Language Event) : (fdWrite.project .kernel).matches' * K =
      served .fdWriteReq .fdWriteRet K := project_imported_kernel _ _ K
  have poll_kernel : (poll.project .kernel).matches' = pollWords 1 := by
    rw [← mul_one (poll.project .kernel).matches', poll, project_imported_kernel, pollWords]
  rw [sampleCycle, matches'_project_seq, matches'_project_seq, matches'_project_seq,
    fdWriteAfterWifiAck, matches'_project_seq, matches'_project_seq, matches'_project_seq, fdRead,
    project_imported_kernel, fdWrite_kernel, poll_kernel, mul_assoc, mul_assoc, mul_assoc,
    project_wifiUdpTx_kernel]
  rfl

/-- A cycle, as the boundary reads it. -/
theorem project_sampleCycle_cyw43Driver : (sampleCycle.project .cyw43Driver).matches' =
    followedBy (fromKernel .wifiTxUdp) (txAnsweredWords 1) := by
  have fdWrite_boundary : (fdWrite.project .cyw43Driver).matches' = 1 :=
    project_imported_cyw43Driver _ _
  have req : (fdWriteReq.project .cyw43Driver).matches' = 1 := rfl
  have ret : (fdWriteRet.project .cyw43Driver).matches' = 1 := rfl
  rw [sampleCycle, matches'_project_seq, matches'_project_seq, matches'_project_seq,
    fdWriteAfterWifiAck, matches'_project_seq, matches'_project_seq, matches'_project_seq, fdRead,
    poll, project_imported_cyw43Driver, project_imported_cyw43Driver, fdWrite_boundary, req, ret,
    one_mul, one_mul, one_mul, mul_one, mul_one, project_wifiUdpTx_cyw43Driver]

/-- **The driver's part of the choreography.** -/
theorem matches'_project_kernel : (choreography.project .kernel).matches' = driverWords := by
  have cycles : (admittedCycle.project .kernel).matches' = cycleWords := by
    rw [admittedCycle, matches'_project_roll, project_sampleCycle_kernel]
    rfl
  simp only [choreography, cyw43Bringup, cyw43Join, pathOpen, matches'_project_seq,
    project_asked_kernel, project_imported_kernel, followedBy_mul, cycles]
  rfl

/-- **The boundary's part of the choreography.** -/
theorem matches'_project_cyw43Driver :
    (choreography.project .cyw43Driver).matches' = boundaryWords := by
  have cycles : (admittedCycle.project .cyw43Driver).matches' = boundaryCycleWords := by
    rw [admittedCycle, matches'_project_roll, project_sampleCycle_cyw43Driver]
    rfl
  simp only [choreography, cyw43Bringup, cyw43Join, pathOpen, matches'_project_seq,
    project_asked_cyw43Driver, project_imported_cyw43Driver, followedBy_mul, one_mul, cycles]
  rfl

end HibanaPico.SensorPanel
