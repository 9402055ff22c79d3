import HibanaPico.Support.Keyed
import HibanaPico.Support.Ring
import HibanaPico.Transport.Types
import Mathlib.Algebra.Group.Nat.Defs

/-!
# CYW43439 — Types

The state of the CYW43439 device model: what the SPI side keeps of the transaction it is in, the
two images the host loads, and the receive queue.  Counters are numbers, and the increments of
`Device.lean` are defined only below the end of their C type; bytes and hashes are bit vectors.

* `Config`: the properties that `cyw43439_realize` has checked.
* `Load`: the four values and two flags kept of an image, of either kind.
* `RadioEvent`: what an observer notes of the receive queue.
* `WifiState`, `WifiState.resetState`: the state, and what a reset makes of it.
-/

namespace HibanaPico.Cyw43439
open HibanaPico.Support
open HibanaPico.Transport

abbrev U16 := BitVec 16

def wifiFrameSize : ℕ := 128
def wifiQueueDepth : ℕ := 8
def wifiLoadHeaderSize : ℕ := 8
def wifiLoadChunkHeaderSize : ℕ := 5

def statusRxReady : U8 := 0x01
def statusTxReady : U8 := 0x02
def statusJoined : U8 := 0x04
def statusOverflow : U8 := 0x10

def fnv1a32Offset : U32 := 0x811c9dc5
def fnv1a32Prime : U32 := 0x01000193

/-- `CYW_MODE_*`. -/
inductive Mode where
  | command
  | selectNode
  | txDst
  | txLen
  | txPayload
  | rxPayload
  | loadBegin
  | loadChunkHeader
  | loadChunkPayload
  | nvramApply
  deriving DecidableEq, Repr

/-- `CYW_LOAD_*`. -/
inductive LoadKind where
  | none
  | fw
  | clm
  deriving DecidableEq, Repr

/-- `CYW_CMD_*`. -/
inductive Command where
  | selectNode
  | status
  | txFrame
  | rxFrame
  | reset
  | clearStatus
  | powerOn
  | resetAssert
  | resetRelease
  | peekLabel
  | nodeRole
  | nodeId
  | radioMode
  | nodeCount
  | fwBegin
  | fwChunk
  | fwCommit
  | clmBegin
  | clmChunk
  | clmCommit
  | nvramApply
  | boot
  | fwState
  | ident
  deriving DecidableEq, Repr

def Command.code : Command → U8
  | .selectNode => 0x10
  | .status => 0x20
  | .txFrame => 0x30
  | .rxFrame => 0x40
  | .reset => 0x50
  | .clearStatus => 0x51
  | .powerOn => 0x52
  | .resetAssert => 0x53
  | .resetRelease => 0x54
  | .peekLabel => 0x60
  | .nodeRole => 0x70
  | .nodeId => 0x71
  | .radioMode => 0x72
  | .nodeCount => 0x73
  | .fwBegin => 0x80
  | .fwChunk => 0x81
  | .fwCommit => 0x82
  | .clmBegin => 0x83
  | .clmChunk => 0x84
  | .clmCommit => 0x85
  | .nvramApply => 0x86
  | .boot => 0x87
  | .fwState => 0x88
  | .ident => 0x9f

def Command.all : List Command :=
  [.selectNode, .status, .txFrame, .rxFrame, .reset, .clearStatus, .powerOn, .resetAssert,
    .resetRelease, .peekLabel, .nodeRole, .nodeId, .radioMode, .nodeCount, .fwBegin, .fwChunk,
    .fwCommit, .clmBegin, .clmChunk, .clmCommit, .nvramApply, .boot, .fwState, .ident]

/-- The command a byte stands for, if any. -/
def Command.ofByte (byte : U8) : Option Command := Command.all.find? fun c => c.code == byte

/-- The properties of a device, and whether `cyw43439_realize` has opened a socket. -/
structure Config where
  nodeRole : U8
  nodeId : U8
  nodeCount : U8
  radioPeerPort : U16
  radioPortBase : U16
  /-- `radio_fd >= 0`. -/
  radioEnabled : Bool
  deriving DecidableEq

def Config.radioMeshEnabled (cfg : Config) : Bool := cfg.radioPortBase != 0

/-- The source address `recvfrom` reports. -/
structure SourceAddr where
  /-- `source_len` covers the address, and `sin_family` is `AF_INET`. -/
  inet : Bool
  /-- `sin_addr` is `INADDR_LOOPBACK`. -/
  loopback : Bool
  port : U16
  deriving DecidableEq, Repr

/-- What a `recvfrom` that does not block takes from the socket: a datagram of any length, or an
error other than `EAGAIN`. -/
inductive Arrival where
  | datagram (packet : List U8) (source : SourceAddr)
  | failed
  deriving DecidableEq, Repr

/-- `CYW43439WifiFrame`. -/
structure WifiFrame where
  dstNode : U8
  len : ℕ
  bytes : Cells U8

/-- The node and the bytes of a frame. -/
def WifiFrame.content (f : WifiFrame) : U8 × List U8 := (f.dstNode, f.bytes.slice 0 f.len)

@[simp] theorem WifiFrame.content_fst (f : WifiFrame) : f.content.1 = f.dstNode := rfl

@[simp] theorem WifiFrame.length_content (f : WifiFrame) : f.content.2.length = f.len :=
  Cells.length_slice _ _ _

/-- Where a frame that reaches the receive queue comes from. -/
inductive Origin where
  | transmitted
  | radio (source : SourceAddr)
  deriving DecidableEq, Repr

/-- What an observer notes of the receive queue: a frame queued, a frame dropped, a frame popped,
each with its node and its bytes, and the overflow flag cleared. -/
abbrev RadioEvent := KeyedEvent Origin (U8 × List U8)

/-- `fw_*` or `clm_*`: what is kept of an image. -/
structure Load where
  expectedLen : ℕ
  expectedHash : U32
  receivedLen : ℕ
  hash : U32
  started : Bool
  committed : Bool
  deriving DecidableEq, Repr

def Load.cleared : Load :=
  { expectedLen := 0, expectedHash := 0, receivedLen := 0, hash := fnv1a32Offset,
    started := false, committed := false }

/-- `CYW43439WifiState`, the socket's receive and send sides, and the observer's notes. -/
structure WifiState where
  selectedNode : U8
  mode : Mode
  txDstNode : U8
  txLen : ℕ
  txPos : ℕ
  txBuf : Cells U8
  rxLen : ℕ
  rxPos : ℕ
  rxBuf : Cells U8
  queueHead : ℕ
  queueLen : ℕ
  loadKind : LoadKind
  loadHeaderPos : ℕ
  loadChunkHeaderPos : ℕ
  loadChunkLen : ℕ
  loadChunkPos : ℕ
  loadHeader : Cells U8
  loadChunkHeader : Cells U8
  fw : Load
  clm : Load
  nvramLen : U32
  nvramHash : U32
  overflow : Bool
  powered : Bool
  resetAsserted : Bool
  probed : Bool
  nvramApplied : Bool
  fwReady : Bool
  fwError : Bool
  queue : Cells WifiFrame
  /-- What waits in the socket. -/
  inbox : List Arrival
  /-- The packets handed to `sendto`, each with its port. -/
  sent : List (ℕ × List U8)
  /-- The observer's notes since the last reset. -/
  events : List RadioEvent

/-- Every field as `cyw43439_reset_state` sets it; the socket is not the device's. -/
def WifiState.cleared (inbox : List Arrival) (sent : List (ℕ × List U8)) : WifiState :=
  { selectedNode := 0, mode := .command
    txDstNode := 0, txLen := 0, txPos := 0, txBuf := fun _ => 0
    rxLen := 0, rxPos := 0, rxBuf := fun _ => 0
    queueHead := 0, queueLen := 0, queue := fun _ => { dstNode := 0, len := 0, bytes := fun _ => 0 }
    loadKind := .none, loadHeaderPos := 0, loadChunkHeaderPos := 0
    loadChunkLen := 0, loadChunkPos := 0, loadHeader := fun _ => 0, loadChunkHeader := fun _ => 0
    fw := .cleared, clm := .cleared, nvramLen := 0, nvramHash := 0
    overflow := false, powered := false, resetAsserted := true, probed := false
    nvramApplied := false, fwReady := false, fwError := false
    inbox, sent, events := [] }

/-- A device nothing has been done to yet. -/
def WifiState.init : WifiState := .cleared [] []

/-- `cyw43439_reset_state`. -/
def WifiState.resetState (s : WifiState) : WifiState := .cleared s.inbox s.sent

/-- The load that `cyw43439_load_expected_len`, `cyw43439_load_received_len`, `cyw43439_load_hash`,
`cyw43439_load_started` and `cyw43439_load_committed` choose. -/
def WifiState.load (s : WifiState) : Load := if s.loadKind = .fw then s.fw else s.clm

/-- The load that is chosen, changed. -/
def WifiState.withLoad (s : WifiState) (l : Load) : WifiState :=
  { s with
    fw := if s.loadKind = .fw then l else s.fw
    clm := if s.loadKind = .fw then s.clm else l }

@[simp] theorem WifiState.load_withLoad (s : WifiState) (l : Load) : (s.withLoad l).load = l := by
  unfold load withLoad
  split <;> rfl

/-- The frames queued, oldest first. -/
def WifiState.frames (s : WifiState) : List WifiFrame :=
  Ring.window s.queue wifiQueueDepth s.queueHead s.queueLen

end HibanaPico.Cyw43439
