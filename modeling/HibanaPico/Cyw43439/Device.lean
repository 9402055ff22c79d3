import HibanaPico.Cyw43439.Types
import HibanaPico.Support.Runs

/-!
# CYW43439 — Device

The CYW43439 device model, byte by byte.  A function answers nothing where the C code would read or
write outside an array, or where a counter would wrap.

* `loadBegin`, `loadChunkReady`, `loadChunkByte`, `loadCommit`: the two images.
* `queuePush`, `queuePopFor`: the receive queue, a ring with removal from the middle.
* `acceptsFrame`, `radioPoll`, `radioSend`: the radio.
* `transfer`: one byte on the SPI bus.
* `wifiMachine`: bytes, datagrams and resets, in any order.
-/

namespace HibanaPico.Cyw43439
open HibanaPico.Support
open HibanaPico.Transport

/-- `counter++`, where the counter has `w` bits. -/
def bump (w n : ℕ) : Option ℕ := if n + 1 < 2 ^ w then some (n + 1) else none

/-- `array[i] = x`, where the array has `n` entries. -/
def poke {α : Type} (n : ℕ) (array : Cells α) (i : ℕ) (x : α) : Option (Cells α) :=
  if i < n then some (Function.update array i x) else none

/-- `array[i]`, where the array has `n` entries. -/
def peek {α : Type} (n : ℕ) (array : Cells α) (i : ℕ) : Option α :=
  if i < n then some (array i) else none

/-- `memcpy(dst, src, len)`, where `dst` has `n` entries and `src` those of the list. -/
def memcpy (n : ℕ) (dst : Cells U8) (src : List U8) (len : ℕ) : Option (Cells U8) :=
  if len ≤ n ∧ len ≤ src.length then some (dst.store 0 (src.take len)) else none

def readLe32 (bytes : Cells U8) (off : ℕ) : U32 :=
  (bytes off).setWidth 32 ||| (bytes (off + 1)).setWidth 32 <<< 8 |||
    (bytes (off + 2)).setWidth 32 <<< 16 ||| (bytes (off + 3)).setWidth 32 <<< 24

def readBe16 (hi lo : U8) : U16 := hi.setWidth 16 <<< 8 ||| lo.setWidth 16

def fnv1a32Update (hash : U32) (byte : U8) : U32 := (hash ^^^ byte.setWidth 32) * fnv1a32Prime

/-! ### Loading -/

def loadError (s : WifiState) : WifiState :=
  { s with fwError := true, fwReady := false, mode := .command }

/-- A load that a `BEGIN` opens. -/
def Load.begun (len hash : U32) : Load :=
  { expectedLen := len.toNat, expectedHash := hash, receivedLen := 0, hash := fnv1a32Offset,
    started := true, committed := false }

/-- `cyw43439_load_begin`. -/
def loadBegin (s : WifiState) : WifiState :=
  let len := readLe32 s.loadHeader 0
  let hash := readLe32 s.loadHeader 4
  match s.loadKind with
  | .fw =>
      if !s.powered || s.resetAsserted then loadError s
      else if !s.probed then loadError s
      else { s with fw := .begun len hash, fwReady := false, fwError := false, mode := .command }
  | .clm =>
      if !s.fw.committed then loadError s
      else { s with clm := .begun len hash, mode := .command }
  | .none => loadError s

/-- What `cyw43439_load_chunk_ready` checks. -/
def chunkFits (s : WifiState) : Bool :=
  let offset := (readLe32 s.loadChunkHeader 0).toNat
  let len := (s.loadChunkHeader 4).toNat
  s.loadKind ≠ .none && s.load.started && !s.load.committed && offset == s.load.receivedLen
    && s.load.receivedLen ≤ s.load.expectedLen && len ≤ s.load.expectedLen - s.load.receivedLen

/-- `cyw43439_load_chunk_ready`.  Its caller drops what it returns. -/
def loadChunkReady (s : WifiState) : WifiState :=
  let len := (s.loadChunkHeader 4).toNat
  if !chunkFits s then loadError s
  else
    { s with
      loadChunkLen := len, loadChunkPos := 0
      mode := if len = 0 then .command else .loadChunkPayload }

/-- `cyw43439_load_chunk_byte`. -/
def loadChunkByte (s : WifiState) (byte : U8) : Option WifiState := do
  let receivedLen ← bump 32 s.load.receivedLen
  let pos ← bump 8 s.loadChunkPos
  let s := s.withLoad { s.load with hash := fnv1a32Update s.load.hash byte, receivedLen }
  some { s with loadChunkPos := pos, mode := if pos = s.loadChunkLen then .command else s.mode }

/-- The bytes of a load are those announced, as far as their number and their hash tell. -/
def Load.complete (l : Load) : Bool := l.receivedLen == l.expectedLen && l.hash == l.expectedHash

/-- `cyw43439_load_commit` of the firmware. -/
def loadCommitFw (s : WifiState) : WifiState × U8 :=
  if !s.fw.started then (loadError s, 0xee)
  else if !s.fw.complete then (loadError s, 0xee)
  else ({ s with fw := { s.fw with committed := true } }, 0xac)

/-- `cyw43439_load_commit` of the CLM. -/
def loadCommitClm (s : WifiState) : WifiState × U8 :=
  if !s.fw.committed || !s.clm.started then (loadError s, 0xee)
  else if !s.clm.complete then (loadError s, 0xee)
  else ({ s with clm := { s.clm with committed := true } }, 0xac)

/-- `cyw43439_fw_state`. -/
def fwState (s : WifiState) : U8 :=
  (if s.fw.started then 0x01 else 0) ||| (if s.fw.committed then 0x02 else 0) |||
    (if s.clm.started then 0x04 else 0) ||| (if s.clm.committed then 0x08 else 0) |||
    (if s.nvramApplied then 0x10 else 0) ||| (if s.fwReady then 0x20 else 0) |||
    (if s.fwError then 0x80 else 0)

/-! ### The receive queue -/

/-- The first offset of the queue at which there is a frame like this. -/
def firstOffset (s : WifiState) (p : WifiFrame → Bool) : Option ℕ :=
  (List.range s.queueLen).find? fun offset =>
    p (s.queue (Ring.slot wifiQueueDepth s.queueHead offset))

/-- `cyw43439_has_frame_for`. -/
def hasFrameFor (s : WifiState) (node : U8) : Bool :=
  (firstOffset s fun f => f.dstNode == node).isSome

/-- `cyw43439_peek_label_for`. -/
def peekLabelFor (s : WifiState) (node : U8) : Option U8 :=
  if !s.fwReady then some 0xff
  else
    match firstOffset s fun f => f.dstNode == node && 17 < f.len with
    | some offset =>
        peek wifiFrameSize (s.queue (Ring.slot wifiQueueDepth s.queueHead offset)).bytes 17
    | none => some 0xff

/-- `cyw43439_queue_push`. -/
def queuePush (s : WifiState) (origin : Origin) (dstNode : U8) (bytes : List U8) (len : ℕ) :
    Option WifiState :=
  if s.queueLen = wifiQueueDepth then
    some { s with
      overflow := true, events := s.events ++ [.lost origin (dstNode, bytes.take len)] }
  else do
    let index := Ring.slot wifiQueueDepth s.queueHead s.queueLen
    let copied ← memcpy wifiFrameSize (s.queue index).bytes bytes len
    let queueLen ← bump 8 s.queueLen
    some { s with
      queue := Function.update s.queue index { dstNode, len, bytes := copied }
      queueLen
      events := s.events ++ [.queued origin (dstNode, bytes.take len)] }

/-- `cyw43439_queue_pop_for`, into `rx_buf` and `rx_len`; whether a frame was popped. -/
def queuePopFor (s : WifiState) (node : U8) : Option (WifiState × Bool) :=
  match firstOffset s fun f => f.dstNode == node with
  | some offset => do
      let frame := s.queue (Ring.slot wifiQueueDepth s.queueHead offset)
      let rxBuf ← memcpy wifiFrameSize s.rxBuf (frame.bytes.slice 0 wifiFrameSize) frame.len
      some ({ s with
        rxLen := frame.len, rxBuf
        queue := Ring.shiftDown wifiQueueDepth s.queueHead (s.queueLen - 1 - offset) offset s.queue
        queueLen := s.queueLen - 1
        queueHead := if s.queueLen - 1 = 0 then 0 else s.queueHead
        events := s.events ++ [.popped frame.content] }, true)
  | none => some (s, false)

/-! ### The radio -/

/-- The checks of `cyw43439_radio_poll` in mesh mode. -/
def meshAdmits (cfg : Config) (packet : List U8) (frameLen : ℕ) (source : SourceAddr) : Bool :=
  let sourceNode := source.port - cfg.radioPortBase
  source.inet && source.loopback && cfg.radioPortBase.toNat < source.port.toNat
    && sourceNode ≠ 0 && sourceNode.toNat ≤ cfg.nodeCount.toNat
    && packet.getD 0 0 = cfg.nodeId && 6 ≤ frameLen
    && readBe16 (packet.getD 4 0) (packet.getD 5 0) = sourceNode
    && (readBe16 (packet.getD 6 0) (packet.getD 7 0)).toNat = cfg.nodeId.toNat

/-- The checks of `cyw43439_radio_poll` on a datagram cut to the size of `packet`: the node and the
length of the frame in it, when they pass. -/
def acceptsFrame (cfg : Config) (packet : List U8) (source : SourceAddr) : Option (U8 × ℕ) :=
  if packet.length < 2 then none
  else
    let frameLen := (packet.getD 1 0).toNat
    if frameLen > wifiFrameSize || packet.length ≠ 2 + frameLen then none
    else if cfg.radioMeshEnabled && !meshAdmits cfg packet frameLen source then none
    else some (packet.getD 0 0, frameLen)

/-- The loop of `cyw43439_radio_poll`, on what waits in the socket. -/
def radioDrain (cfg : Config) : List Arrival → WifiState → Option WifiState
  | [], s => some { s with inbox := [] }
  | .failed :: rest, s => some { s with inbox := rest }
  | .datagram datagram source :: rest, s =>
      let packet := datagram.take (2 + wifiFrameSize)
      match acceptsFrame cfg packet source with
      | none => radioDrain cfg rest s
      | some (dstNode, frameLen) =>
          (queuePush s (.radio source) dstNode (packet.drop 2) frameLen).bind
            (radioDrain cfg rest)

/-- `cyw43439_radio_poll`. -/
def radioPoll (cfg : Config) (s : WifiState) : Option WifiState :=
  if !s.fwReady || !cfg.radioEnabled then some s else radioDrain cfg s.inbox s

/-- `cyw43439_radio_send` of `tx_buf`, where `sendOk` tells whether `sendto` takes it all. -/
def radioSend (cfg : Config) (s : WifiState) (sendOk : Bool) : Option WifiState :=
  let bytes := s.txBuf.slice 0 wifiFrameSize
  let transmit (port : ℕ) : Option WifiState :=
    if s.txLen ≤ wifiFrameSize then
      some { s with
        sent := s.sent ++
          [(port, s.txDstNode :: BitVec.ofNat 8 s.txLen :: bytes.take s.txLen)]
        overflow := s.overflow || !sendOk }
    else none
  if !s.fwReady then some { s with overflow := true }
  else if !cfg.radioEnabled then queuePush s .transmitted s.txDstNode bytes s.txLen
  else if cfg.radioMeshEnabled then
    if s.txDstNode = cfg.nodeId then queuePush s .transmitted s.txDstNode bytes s.txLen
    else if s.txDstNode = 0 || s.txDstNode.toNat > cfg.nodeCount.toNat then
      some { s with overflow := true }
    else
      let peerPort := cfg.radioPortBase.toNat + s.txDstNode.toNat
      if peerPort > 65535 then some { s with overflow := true }
      else transmit peerPort
  else transmit cfg.radioPeerPort.toNat

/-! ### The bus -/

/-- `cyw43439_status`. -/
def status (cfg : Config) (s : WifiState) : Option (WifiState × U8) :=
  if !s.powered || s.resetAsserted || !s.fwReady then
    some (s, if s.overflow then statusOverflow else 0)
  else do
    let s ← radioPoll cfg s
    some (s, statusTxReady ||| statusJoined |||
      (if hasFrameFor s s.selectedNode then statusRxReady else 0) |||
      (if s.overflow then statusOverflow else 0))

/-- `cyw43439_start_rx`. -/
def startRx (cfg : Config) (s : WifiState) : Option (WifiState × U8) :=
  if !s.fwReady then some (s, 0)
  else do
    let s ← radioPoll cfg s
    let (s, popped) ← queuePopFor { s with rxLen := 0, rxPos := 0, rxBuf := fun _ => 0 }
      s.selectedNode
    if popped then some ({ s with mode := .rxPayload }, BitVec.ofNat 8 s.rxLen)
    else some (s, 0)

/-- `cyw43439_transfer` of a command byte. -/
def execute (cfg : Config) (s : WifiState) : Command → Option (WifiState × U8)
  | .ident =>
      if !s.powered || s.resetAsserted then some (s, 0)
      else some ({ s with probed := true }, 0x43)
  | .selectNode => some ({ s with mode := .selectNode }, 0xac)
  | .status => status cfg s
  | .txFrame =>
      some ({ s with mode := .txDst, txLen := 0, txPos := 0, txBuf := fun _ => 0 }, 0xac)
  | .rxFrame => startRx cfg s
  | .reset => some (s.resetState, 0xac)
  | .clearStatus => some ({ s with overflow := false, events := s.events ++ [.cleared] }, 0xac)
  | .powerOn => some ({ s.resetState with powered := true, resetAsserted := true }, 0xac)
  | .resetAssert =>
      if !s.powered then some (loadError s, 0xee)
      else some ({ s.resetState with powered := true, resetAsserted := true }, 0xac)
  | .resetRelease =>
      if !s.powered || !s.resetAsserted then some (loadError s, 0xee)
      else some ({ s with resetAsserted := false, fwError := false }, 0xac)
  | .peekLabel => do
      let s ← radioPoll cfg s
      let label ← peekLabelFor s s.selectedNode
      some (s, label)
  | .nodeRole => some (s, cfg.nodeRole)
  | .nodeId => some (s, cfg.nodeId)
  | .radioMode => some (s, if cfg.radioEnabled then 1 else 0)
  | .nodeCount => some (s, cfg.nodeCount)
  | .fwBegin =>
      some ({ s with
        loadKind := .fw, loadHeaderPos := 0, loadHeader := fun _ => 0, mode := .loadBegin }, 0xac)
  | .fwChunk =>
      some ({ s with
        loadKind := .fw, loadChunkHeaderPos := 0, loadChunkHeader := fun _ => 0
        mode := .loadChunkHeader }, 0xac)
  | .fwCommit => some (loadCommitFw s)
  | .clmBegin =>
      some ({ s with
        loadKind := .clm, loadHeaderPos := 0, loadHeader := fun _ => 0, mode := .loadBegin }, 0xac)
  | .clmChunk =>
      some ({ s with
        loadKind := .clm, loadChunkHeaderPos := 0, loadChunkHeader := fun _ => 0
        mode := .loadChunkHeader }, 0xac)
  | .clmCommit => some (loadCommitClm s)
  | .nvramApply =>
      some ({ s with loadHeaderPos := 0, loadHeader := fun _ => 0, mode := .nvramApply }, 0xac)
  | .boot =>
      if !s.fw.committed || !s.clm.committed || !s.nvramApplied then some (loadError s, 0xee)
      else some ({ s with fwReady := true, fwError := false }, 0xac)
  | .fwState => some (s, fwState s)

/-- The `TX_LEN` byte. -/
def transferTxLen (cfg : Config) (s : WifiState) (byte : U8) (sendOk : Bool) :
    Option (WifiState × U8) :=
  if byte.toNat > wifiFrameSize then some ({ s with overflow := true, mode := .command }, 0xee)
  else if byte = 0 then do
    let s ← radioSend cfg { s with txLen := 0, txPos := 0 } sendOk
    some ({ s with mode := .command }, 0xac)
  else some ({ s with txLen := byte.toNat, txPos := 0, mode := .txPayload }, 0xac)

/-- A byte of a `TX_FRAME` payload. -/
def transferTxPayload (cfg : Config) (s : WifiState) (byte : U8) (sendOk : Bool) :
    Option (WifiState × U8) := do
  let txBuf ← poke wifiFrameSize s.txBuf s.txPos byte
  let txPos ← bump 8 s.txPos
  let s := { s with txBuf, txPos }
  if txPos = s.txLen then do
    let s ← radioSend cfg s sendOk
    some ({ s with mode := .command }, 0xac)
  else some (s, 0xac)

/-- A byte of an `RX_FRAME` payload. -/
def transferRxPayload (s : WifiState) : Option (WifiState × U8) :=
  if s.rxPos < s.rxLen then do
    let ret ← peek wifiFrameSize s.rxBuf s.rxPos
    let rxPos ← bump 8 s.rxPos
    some ({ s with rxPos, mode := if rxPos ≥ s.rxLen then .command else s.mode }, ret)
  else some ({ s with mode := .command }, 0xff)

/-- A header byte of a `BEGIN`. -/
def transferLoadBegin (s : WifiState) (byte : U8) : Option (WifiState × U8) := do
  let loadHeader ← poke wifiLoadHeaderSize s.loadHeader s.loadHeaderPos byte
  let loadHeaderPos ← bump 8 s.loadHeaderPos
  let s := { s with loadHeader, loadHeaderPos }
  some (if loadHeaderPos = wifiLoadHeaderSize then loadBegin s else s, 0xac)

/-- A header byte of a `CHUNK`. -/
def transferChunkHeader (s : WifiState) (byte : U8) : Option (WifiState × U8) := do
  let loadChunkHeader ← poke wifiLoadChunkHeaderSize s.loadChunkHeader s.loadChunkHeaderPos byte
  let loadChunkHeaderPos ← bump 8 s.loadChunkHeaderPos
  let s := { s with loadChunkHeader, loadChunkHeaderPos }
  let s := if loadChunkHeaderPos = wifiLoadChunkHeaderSize then loadChunkReady s else s
  some (s, if s.fwError then 0xee else 0xac)

/-- A byte of an `NVRAM_APPLY`. -/
def transferNvram (s : WifiState) (byte : U8) : Option (WifiState × U8) := do
  let loadHeader ← poke wifiLoadHeaderSize s.loadHeader s.loadHeaderPos byte
  let loadHeaderPos ← bump 8 s.loadHeaderPos
  let s := { s with loadHeader, loadHeaderPos }
  if loadHeaderPos = wifiLoadHeaderSize then
    if !s.fw.committed || !s.clm.committed then some (loadError s, 0xee)
    else
      some ({ s with
        nvramLen := readLe32 loadHeader 0, nvramHash := readLe32 loadHeader 4
        nvramApplied := true, mode := .command }, 0xac)
  else some (s, 0xac)

/-- `cyw43439_transfer`. -/
def transfer (cfg : Config) (s : WifiState) (byte : U8) (sendOk : Bool) :
    Option (WifiState × U8) :=
  match s.mode with
  | .selectNode => some ({ s with selectedNode := byte, mode := .command }, 0xac)
  | .txDst => some ({ s with txDstNode := byte, mode := .txLen }, 0xac)
  | .txLen => transferTxLen cfg s byte sendOk
  | .txPayload => transferTxPayload cfg s byte sendOk
  | .rxPayload => transferRxPayload s
  | .loadBegin => transferLoadBegin s byte
  | .loadChunkHeader => transferChunkHeader s byte
  | .loadChunkPayload => do
      let s ← loadChunkByte s byte
      some (s, 0xac)
  | .nvramApply => transferNvram s byte
  | .command =>
      match Command.ofByte byte with
      | some c => execute cfg s c
      | none => some (s, 0xee)

inductive WifiAction where
  /-- One byte on the bus; `sendOk` is for the `sendto` it may lead to. -/
  | byte (byte : U8) (sendOk : Bool)
  | arrive (arrival : Arrival)
  /-- `cyw43439_radio_fd_ready`. -/
  | fdReady
  /-- `cyw43439_reset`. -/
  | reset
  deriving DecidableEq

def WifiState.next (cfg : Config) (s : WifiState) : WifiAction → Option WifiState
  | .byte byte sendOk => (transfer cfg s byte sendOk).map Prod.fst
  | .arrive arrival => some { s with inbox := s.inbox ++ [arrival] }
  | .fdReady => radioPoll cfg s
  | .reset => some s.resetState

/-- The device under the bus, the radio and the reset line. -/
def wifiMachine (cfg : Config) : Machine WifiState WifiAction := ⟨WifiState.next cfg⟩

/-- Bytes on the bus, every `sendto` taking all. -/
def spi (bytes : List U8) : List WifiAction := bytes.map fun byte => .byte byte true

/-- The header of a `BEGIN` or an `NVRAM_APPLY` for an image with no bytes. -/
def emptyImage : List U8 := [0, 0, 0, 0, 0xc5, 0x9d, 0x1c, 0x81]

/-- A host that powers the device on and boots it with empty images. -/
def bootSession : List WifiAction :=
  spi ([0x52, 0x54, 0x9f, 0x80] ++ emptyImage ++ [0x82, 0x83] ++ emptyImage ++ [0x85, 0x86] ++
    emptyImage ++ [0x87])

/-- Node 1 of a mesh of three. -/
def meshConfig : Config :=
  { nodeRole := 0, nodeId := 1, nodeCount := 3, radioPeerPort := 0, radioPortBase := 9000,
    radioEnabled := true }

end HibanaPico.Cyw43439
