import HibanaPico.Cyw43439.ReceiveQueue

/-!
# CYW43439 — Mesh

Devices in mesh mode, one for each node, and the UDP of the host machine between them.  A datagram
handed to `sendto` may arrive any number of times, at any time and in any order, or never; and any
other process of the machine may send to the port of a node, from any address that is not bound by
a node.

* `realize`: the checks on the properties, and the port a device binds.
* `Mesh`: the nodes of one port base.
* `Mesh.machine`: the devices, and the datagrams between them.
* `transfer_sends`: what one byte hands to `sendto`.
* `mesh_authentic`: a frame in a node's receive queue was transmitted by the node it names.
-/

namespace HibanaPico.Cyw43439
open HibanaPico.Support
open HibanaPico.Transport

/-! ### Realizing a device -/

/-- `cyw43439_properties`, but for the links to the cores. -/
structure Properties where
  radioLocalPort : U16
  radioPeerPort : U16
  radioPortBase : U16
  nodeRole : U8
  nodeId : U8
  nodeCount : U8
  deriving DecidableEq

/-- The socket calls of `cyw43439_realize`: for each, what is wrong when it fails. -/
structure SocketCalls where
  socket : Option String
  bind : Option String
  setBlocking : Option String

/-- Every call succeeds. -/
def SocketCalls.fine : SocketCalls := ⟨none, none, none⟩

namespace Properties

/-- The properties, and whether a socket is open. -/
def config (p : Properties) (radioEnabled : Bool) : Config :=
  { nodeRole := p.nodeRole, nodeId := p.nodeId, nodeCount := p.nodeCount
    radioPeerPort := p.radioPeerPort, radioPortBase := p.radioPortBase, radioEnabled }

/-- The first check of `cyw43439_realize` that fails. -/
def check (p : Properties) : Option String :=
  let nodeId := p.nodeId.toNat
  let nodeCount := p.nodeCount.toNat
  let base := p.radioPortBase.toNat
  if (p.radioLocalPort == 0) != (p.radioPeerPort == 0) then
    some "cyw43439: radio-local-port and radio-peer-port must be set together"
  else if p.radioPortBase ≠ 0 ∧ (p.radioLocalPort ≠ 0 ∨ p.radioPeerPort ≠ 0) then
    some "cyw43439: radio-port-base cannot be combined with explicit peer ports"
  else if p.radioPortBase ≠ 0 ∧ p.nodeId = 0 then
    some "cyw43439: radio-port-base requires node-id"
  else if p.radioPortBase ≠ 0 ∧ (nodeCount < 2 ∨ nodeId > nodeCount) then
    some s!"cyw43439: node-id {nodeId} outside mesh node-count {nodeCount}"
  else if p.radioPortBase ≠ 0 ∧ base > 65535 - nodeCount then
    some s!"cyw43439: radio-port-base {base} exceeds mesh port range for node-count {nodeCount}"
  else none

/-- The port `cyw43439_realize` binds. -/
def localPort (p : Properties) : U16 :=
  if p.radioPortBase ≠ 0 then p.radioPortBase + p.nodeId.setWidth 16 else p.radioLocalPort

/-- What the checks come to when a port base is set. -/
theorem check_eq_none {p : Properties} (hbase : p.radioPortBase ≠ 0) :
    p.check = none ↔ (p.radioLocalPort = 0 ∧ p.radioPeerPort = 0) ∧
      (1 ≤ p.nodeId.toNat ∧ p.nodeId.toNat ≤ p.nodeCount.toNat) ∧ 2 ≤ p.nodeCount.toNat ∧
      p.radioPortBase.toNat + p.nodeCount.toNat ≤ 65535 := by
  have hcount := p.nodeCount.isLt
  have hid : p.nodeId = 0 ↔ p.nodeId.toNat = 0 := BitVec.toNat_eq
  simp only [check, hid, ne_eq, hbase, not_false_eq_true, true_and]
  constructor
  · intro h
    split at h
    · cases h
    split at h
    · cases h
    rename_i hexplicit
    split at h
    · cases h
    split at h
    · cases h
    split at h
    · cases h
    exact ⟨by simpa using hexplicit, by omega, by omega, by omega⟩
  · rintro ⟨⟨hlocal, hpeer⟩, hnode, htwo, hports⟩
    rw [hlocal, hpeer, if_neg (by simp), if_neg (by simp), if_neg (by omega), if_neg (by omega),
      if_neg (by omega)]

end Properties

/-- The socket of `cyw43439_realize`, bound and not blocking. -/
def openRadio (p : Properties) (calls : SocketCalls) : Except String (Config × Option U16) :=
  match calls.socket with
  | some error => .error s!"cyw43439: cannot create UDP socket: {error}"
  | none =>
      match calls.bind with
      | some error =>
          let port := p.localPort.toNat
          .error s!"cyw43439: cannot bind UDP port {port}: {error}"
      | none =>
          match calls.setBlocking with
          | some error => .error error
          | none => .ok (p.config true, some p.localPort)

/-- `cyw43439_realize`: the properties with the socket, and the port the socket is bound to. -/
def realize (p : Properties) (calls : SocketCalls) : Except String (Config × Option U16) :=
  match p.check with
  | some error => .error error
  | none =>
      if p.radioLocalPort = 0 ∧ p.radioPortBase = 0 then .ok (p.config false, none)
      else openRadio p calls

theorem openRadio_eq_ok {p : Properties} {calls : SocketCalls} {r : Config × Option U16}
    (h : openRadio p calls = .ok r) : r = (p.config true, some p.localPort) := by
  unfold openRadio at h
  split at h
  · cases h
  split at h
  · cases h
  split at h
  · cases h
  · cases h
    rfl

/-- A device realized with a port base has passed the checks, and is bound. -/
theorem realize_eq_ok {p : Properties} {calls : SocketCalls} {r : Config × Option U16}
    (hbase : p.radioPortBase ≠ 0) (h : realize p calls = .ok r) :
    p.check = none ∧ r = (p.config true, some p.localPort) := by
  unfold realize at h
  split at h
  · cases h
  · rename_i hcheck
    rw [if_neg fun hnone => hbase hnone.2] at h
    exact ⟨hcheck, openRadio_eq_ok h⟩

/-! ### The nodes -/

/-- The nodes of one port base: their number, and the role each is given. -/
structure Mesh where
  base : U16
  nodeCount : U8
  nodeRole : U8 → U8
  base_ne : base ≠ 0
  two_le : 2 ≤ nodeCount.toNat
  ports : base.toNat + nodeCount.toNat ≤ 65535

namespace Mesh

/-- The nodes are numbered from one. -/
abbrev Node (M : Mesh) : Type := { i : U8 // 1 ≤ i.toNat ∧ i.toNat ≤ M.nodeCount.toNat }

variable {M : Mesh}

/-- The port of a node. -/
def port (M : Mesh) (i : M.Node) : ℕ := M.base.toNat + i.1.toNat

/-- The properties a node's device is created with. -/
def properties (M : Mesh) (i : M.Node) : Properties :=
  { radioLocalPort := 0, radioPeerPort := 0, radioPortBase := M.base, nodeRole := M.nodeRole i.1
    nodeId := i.1, nodeCount := M.nodeCount }

def config (M : Mesh) (i : M.Node) : Config :=
  { nodeRole := M.nodeRole i.1, nodeId := i.1, nodeCount := M.nodeCount, radioPeerPort := 0
    radioPortBase := M.base, radioEnabled := true }

/-- The address a node sends from. -/
def addr (M : Mesh) (i : M.Node) : SourceAddr := ⟨true, true, BitVec.ofNat 16 (M.port i)⟩

theorem port_lt (i : M.Node) : M.port i < 2 ^ 16 := by
  have hports := M.ports
  have hi := i.2.2
  unfold port
  omega

@[simp] theorem toNat_addr_port (i : M.Node) : (M.addr i).port.toNat = M.port i :=
  Nat.mod_eq_of_lt (port_lt i)

theorem port_inj {i j : M.Node} (h : M.port i = M.port j) : i = j :=
  Subtype.ext (BitVec.eq_of_toNat_eq (Nat.add_left_cancel h))

theorem addr_inj {i j : M.Node} (h : M.addr i = M.addr j) : i = j := by
  refine port_inj ?_
  rw [← toNat_addr_port, ← toNat_addr_port, h]

theorem radioMeshEnabled_config (i : M.Node) : (M.config i).radioMeshEnabled = true := by
  simpa [Config.radioMeshEnabled, config] using M.base_ne

theorem localPort_properties (i : M.Node) : (M.properties i).localPort = (M.addr i).port := by
  have hports := M.ports
  have hhigh := i.2.2
  have hmesh : (M.properties i).localPort = M.base + i.1.setWidth 16 := if_pos M.base_ne
  refine BitVec.eq_of_toNat_eq ?_
  rw [hmesh, toNat_addr_port, BitVec.toNat_add, BitVec.toNat_setWidth,
    Nat.mod_eq_of_lt (by omega : i.1.toNat < 2 ^ 16),
    Nat.mod_eq_of_lt (by omega : M.base.toNat + i.1.toNat < 2 ^ 16)]
  rfl

/-- The device of every node is realized, and bound to the node's port. -/
theorem realize_properties (i : M.Node) :
    realize (M.properties i) .fine = .ok (M.config i, some (M.addr i).port) := by
  have hcheck : (M.properties i).check = none :=
    (Properties.check_eq_none M.base_ne).mpr ⟨⟨rfl, rfl⟩, i.2, M.two_le, M.ports⟩
  have hradio : ¬ ((M.properties i).radioLocalPort = 0 ∧ (M.properties i).radioPortBase = 0) :=
    fun h => M.base_ne h.2
  rw [realize, hcheck, ← localPort_properties]
  exact if_neg hradio

/-- And a device that is realized with a port base is the device of a node. -/
theorem exists_of_realize {p : Properties} {calls : SocketCalls} {cfg : Config}
    {bound : Option U16} (h : realize p calls = .ok (cfg, bound)) (hbase : p.radioPortBase ≠ 0) :
    ∃ (M : Mesh) (i : M.Node), M.properties i = p ∧ cfg = M.config i ∧
      bound = some (M.addr i).port := by
  obtain ⟨hcheck, hr⟩ := realize_eq_ok hbase h
  obtain ⟨⟨hlocal, hpeer⟩, hnode, htwo, hports⟩ := (Properties.check_eq_none hbase).mp hcheck
  let M : Mesh :=
    { base := p.radioPortBase, nodeCount := p.nodeCount, nodeRole := fun _ => p.nodeRole
      base_ne := hbase, two_le := htwo, ports := hports }
  let i : M.Node := ⟨p.nodeId, hnode⟩
  have hp : M.properties i = p := by
    obtain ⟨localPort, peerPort, base, role, id, count⟩ := p
    cases hlocal
    cases hpeer
    rfl
  have hcfg : p.config true = M.config i := by rw [← hp]; rfl
  have hport : p.localPort = (M.addr i).port := by rw [← localPort_properties, hp]
  cases hr
  exact ⟨M, i, hp, hcfg, by rw [hport]⟩

end Mesh

/-! ### What a device hands to `sendto` -/

section
variable {cfg : Config} {s t u : WifiState}

/-- A packet for a node of the mesh, with its port: another node than the sender's. -/
structure Config.Addressed (cfg : Config) (port : ℕ) (dst : U8) : Prop where
  other : dst ≠ cfg.nodeId
  within : 1 ≤ dst.toNat ∧ dst.toNat ≤ cfg.nodeCount.toNat
  port_eq : port = cfg.radioPortBase.toNat + dst.toNat

/-- Nothing is handed to `sendto` between the two states, or one packet. -/
inductive Sends (cfg : Config) (s t : WifiState) : Prop where
  | nothing (h : t.sent = s.sent)
  | packet (port : ℕ) (dst : U8) (bytes : List U8) (hlen : bytes.length ≤ wifiFrameSize)
      (hmesh : cfg.radioMeshEnabled = true → cfg.Addressed port dst)
      (h : t.sent = s.sent ++ [(port, dst :: BitVec.ofNat 8 bytes.length :: bytes)])

/-- Only what was sent counts. -/
theorem Sends.congr {s' t' : WifiState} (h : Sends cfg s t) (hs : s'.sent = s.sent)
    (ht : t'.sent = t.sent) : Sends cfg s' t' := by
  cases h with
  | nothing h => exact .nothing (by rw [ht, hs, h])
  | packet port dst bytes hlen hmesh h =>
      exact .packet port dst bytes hlen hmesh (by rw [ht, hs, h])

theorem queuePush_sent {origin : Origin} {dstNode : U8} {bytes : List U8} {len : ℕ}
    (h : queuePush s origin dstNode bytes len = some t) : t.sent = s.sent := by
  unfold queuePush at h
  split at h
  · cases h
    rfl
  · obtain ⟨copied, -, h⟩ := Option.bind_eq_some_iff.mp h
    obtain ⟨queueLen, -, h⟩ := Option.bind_eq_some_iff.mp h
    cases h
    rfl

theorem radioDrain_sent : ∀ (inbox : List Arrival) {s t : WifiState},
    radioDrain cfg inbox s = some t → t.sent = s.sent
  | [], s, t, h => by cases h; rfl
  | .failed :: rest, s, t, h => by cases h; rfl
  | .datagram datagram source :: rest, s, t, h => by
      rw [radioDrain] at h
      split at h
      · exact radioDrain_sent rest h
      · obtain ⟨u, hu, h⟩ := Option.bind_eq_some_iff.mp h
        rw [radioDrain_sent rest h, queuePush_sent hu]

theorem radioPoll_sent (h : radioPoll cfg s = some t) : t.sent = s.sent := by
  unfold radioPoll at h
  split at h
  · cases h
    rfl
  · exact radioDrain_sent _ h

theorem queuePopFor_sent {node : U8} {popped : Bool} (h : queuePopFor s node = some (t, popped)) :
    t.sent = s.sent := by
  unfold queuePopFor at h
  split at h
  · obtain ⟨rxBuf, -, h⟩ := Option.bind_eq_some_iff.mp h
    cases h
    rfl
  · cases h
    rfl

/-- The bytes of `tx_buf` that are sent. -/
theorem length_txBytes (hlen : s.txLen ≤ wifiFrameSize) :
    ((s.txBuf.slice 0 wifiFrameSize).take s.txLen).length = s.txLen := by
  rw [List.length_take, Cells.length_slice, Nat.min_eq_left hlen]

theorem radioSend_sends {sendOk : Bool} (h : radioSend cfg s sendOk = some t) :
    Sends cfg s t := by
  unfold radioSend at h
  dsimp only at h
  split at h
  · cases h
    exact .nothing rfl
  split at h
  · exact .nothing (queuePush_sent h)
  split at h
  · split at h
    · exact .nothing (queuePush_sent h)
    rename_i hother
    split at h
    · cases h
      exact .nothing rfl
    rename_i hwithin
    split at h
    · cases h
      exact .nothing rfl
    split at h
    · rename_i hlen
      cases h
      have hbytes := length_txBytes hlen
      refine .packet _ s.txDstNode _ (by rw [hbytes]; exact hlen) (fun _ => ⟨hother, ?_, rfl⟩)
        (by rw [hbytes])
      simp only [Bool.or_eq_true, decide_eq_true_eq, not_or, not_lt] at hwithin
      refine ⟨Nat.one_le_iff_ne_zero.mpr fun hzero => hwithin.1 ?_, hwithin.2⟩
      exact BitVec.eq_of_toNat_eq hzero
    · cases h
  · rename_i hmesh
    split at h
    · rename_i hlen
      cases h
      have hbytes := length_txBytes hlen
      exact .packet _ s.txDstNode _ (by rw [hbytes]; exact hlen) (fun h => absurd h hmesh)
        (by rw [hbytes])
    · cases h

theorem loadBegin_sent (s : WifiState) : (loadBegin s).sent = s.sent := by
  unfold loadBegin
  dsimp only
  split
  · split
    · rfl
    split
    · rfl
    · rfl
  · split
    · rfl
    · rfl
  · rfl

theorem loadChunkReady_sent (s : WifiState) : (loadChunkReady s).sent = s.sent := by
  unfold loadChunkReady
  dsimp only
  split
  · rfl
  · rfl

/-- A command hands nothing to `sendto`. -/
theorem execute_sent {c : Command} {r : U8} (h : execute cfg s c = some (t, r)) :
    t.sent = s.sent := by
  cases c with
  | status =>
      simp only [execute, status] at h
      split at h
      · cases h
        rfl
      · obtain ⟨u, hu, h⟩ := Option.bind_eq_some_iff.mp h
        cases h
        exact radioPoll_sent hu
  | peekLabel =>
      obtain ⟨u, hu, h⟩ := Option.bind_eq_some_iff.mp h
      obtain ⟨label, -, h⟩ := Option.bind_eq_some_iff.mp h
      cases h
      exact radioPoll_sent hu
  | rxFrame =>
      simp only [execute, startRx] at h
      split at h
      · cases h
        rfl
      · obtain ⟨u, hu, h⟩ := Option.bind_eq_some_iff.mp h
        obtain ⟨⟨v, popped⟩, hv, h⟩ := Option.bind_eq_some_iff.mp h
        have hpoll : u.sent = s.sent := radioPoll_sent hu
        have hsent : v.sent = s.sent := (queuePopFor_sent hv).trans hpoll
        dsimp only at h
        split at h
        · cases h
          exact hsent
        · cases h
          exact hsent
  | ident | resetAssert | resetRelease | boot =>
      simp only [execute] at h
      split at h
      · cases h
        rfl
      · cases h
        rfl
  | fwCommit | clmCommit =>
      simp only [execute, loadCommitFw, loadCommitClm] at h
      split at h
      · cases h
        rfl
      split at h
      · cases h
        rfl
      · cases h
        rfl
  | selectNode | txFrame | reset | clearStatus | powerOn | nodeRole | nodeId | radioMode
  | nodeCount | fwBegin | fwChunk | clmBegin | clmChunk | nvramApply | fwState =>
      cases h
      rfl

/-- **What one byte hands to `sendto`.** -/
theorem transfer_sends {byte r : U8} {sendOk : Bool}
    (h : transfer cfg s byte sendOk = some (t, r)) : Sends cfg s t := by
  cases transfer_cases h with
  | selectNode | txDst | txTooLong | txLen | txByte | rxByte | rxNone | beginByte
  | chunkHeaderByte | chunkByte | nvramByte | nvramRefused | nvramApplied | unknown =>
      exact .nothing rfl
  | beginLast => exact .nothing (loadBegin_sent _)
  | chunkHeaderLast => exact .nothing (loadChunkReady_sent _)
  | txEmpty h hlen u hu => exact (radioSend_sends hu).congr rfl rfl
  | txLast h hpos u hu => exact (radioSend_sends hu).congr rfl rfl
  | command h c hc t r ht => exact .nothing (execute_sent ht)

/-- What one action hands to `sendto`. -/
theorem next_sends {a : WifiAction} (h : (wifiMachine cfg).next s a = some t) : Sends cfg s t := by
  cases a with
  | byte byte sendOk =>
      obtain ⟨⟨t', r⟩, ht, hfst⟩ := Option.map_eq_some_iff.mp h
      cases hfst
      exact transfer_sends ht
  | arrive arrival => cases h; exact .nothing rfl
  | fdReady => exact .nothing (radioPoll_sent h)
  | reset => cases h; exact .nothing rfl

/-- What was sent stays sent. -/
theorem Sends.mono (h : Sends cfg s t) : s.sent ⊆ t.sent := by
  cases h with
  | nothing h => rw [h]; exact List.Subset.refl _
  | packet port dst bytes hlen hmesh h => rw [h]; exact List.subset_append_left _ _

end

/-! ### The mesh -/

namespace Mesh
variable (M : Mesh)

/-- The devices. -/
abbrev State : Type := M.Node → WifiState

def init : M.State := fun _ => .init

/-- The address of a node.  Ports are bound exclusively, so no other process has one of these. -/
def isNodeAddr (source : SourceAddr) : Bool :=
  source.inet && source.loopback && M.base.toNat < source.port.toNat &&
    source.port.toNat ≤ M.base.toNat + M.nodeCount.toNat

/-- What comes to a socket from elsewhere. -/
def isStray : Arrival → Bool
  | .failed => true
  | .datagram _ source => !M.isNodeAddr source

inductive Action where
  /-- What the host, the event loop or a reset does to a node. -/
  | device (i : M.Node) (a : WifiAction)
  /-- The `k`-th datagram of node `i` arrives at node `j`. -/
  | deliver (i j : M.Node) (k : ℕ)
  /-- Something else arrives at node `j`. -/
  | stray (j : M.Node) (arrival : Arrival)

/-- An arrival at node `j`. -/
def arrive (s : M.State) (j : M.Node) (arrival : Arrival) : M.State :=
  Function.update s j { s j with inbox := (s j).inbox ++ [arrival] }

def next (s : M.State) : M.Action → Option M.State
  | .device i a =>
      if a.arrived = [] then ((s i).next (M.config i) a).map (Function.update s i) else none
  | .deliver i j k =>
      (s i).sent[k]?.bind fun (port, packet) =>
        if port = M.port j then some (M.arrive s j (.datagram packet (M.addr i))) else none
  | .stray j arrival => if M.isStray arrival then some (M.arrive s j arrival) else none

/-- The devices of a mesh, and the datagrams between them. -/
def machine : Machine M.State M.Action := ⟨M.next⟩

variable {M} {s t : M.State} {i j : M.Node}

theorem isNodeAddr_addr (i : M.Node) : M.isNodeAddr (M.addr i) = true := by
  have hi := i.2
  have hport : (M.addr i).port.toNat = M.base.toNat + i.1.toNat := toNat_addr_port i
  simp only [isNodeAddr, hport, Bool.and_eq_true, decide_eq_true_eq]
  exact ⟨⟨⟨rfl, rfl⟩, by omega⟩, by omega⟩

/-- What each node has handed to `sendto`. -/
abbrev Sent (M : Mesh) : Type := M.Node → List (ℕ × List U8)

def sent (s : M.State) : M.Sent := fun i => (s i).sent

/-- A packet whose source is a node was sent by that node to node `j`. -/
def Genuine (sent : M.Sent) (j : M.Node) : Arrival → Prop
  | .failed => True
  | .datagram packet source => ∀ i, source = M.addr i → (M.port j, packet) ∈ sent i

/-- A packet for another node, with that node's port. -/
def Addressed (i : M.Node) (d : ℕ × List U8) : Prop :=
  ∃ (dst : M.Node) (bytes : List U8), dst ≠ i ∧ bytes.length ≤ wifiFrameSize ∧
    d = (M.port dst, dst.1 :: BitVec.ofNat 8 bytes.length :: bytes)

/-- What every step keeps of node `j`, whose device is `v`. -/
structure NodeInv (sent : M.Sent) (j : M.Node) (v : WifiState) : Prop where
  bounded : Bounded v
  inbox : ∀ a ∈ v.inbox, Genuine sent j a
  handed : ∀ e ∈ radioHanded v.events, ∃ a, Genuine sent j a ∧ accepted (M.config j) a = some e
  looped : ∀ f ∈ localHanded v.events, f.1 = j.1
  exact : KeyedQueue.Exact Prod.fst wifiQueueDepth v.received
  addressed : ∀ d ∈ v.sent, Addressed j d

variable {sent sent' : M.Sent} {v w : WifiState}

theorem Genuine.mono (h : ∀ i, sent i ⊆ sent' i) {a : Arrival} (ha : Genuine sent j a) :
    Genuine sent' j a := by
  cases a with
  | failed => trivial
  | datagram packet source => exact fun i hi => h i (ha i hi)

theorem NodeInv.mono (I : NodeInv sent j v) (h : ∀ i, sent i ⊆ sent' i) : NodeInv sent' j v where
  bounded := I.bounded
  inbox a ha := (I.inbox a ha).mono h
  handed e he := by
    obtain ⟨a, ha, htaken⟩ := I.handed e he
    exact ⟨a, ha.mono h, htaken⟩
  looped := I.looped
  exact := I.exact
  addressed := I.addressed

theorem nodeInv_init (sent : M.Sent) (j : M.Node) : NodeInv sent j .init where
  bounded := .resetState .init
  inbox _ ha := absurd ha List.not_mem_nil
  handed _ he := absurd he List.not_mem_nil
  looped _ hf := absurd hf List.not_mem_nil
  exact := KeyedQueue.exact_empty false
  addressed _ hd := absurd hd List.not_mem_nil

/-! ### One step -/

/-- A frame that a node hands to its own queue is for that node. -/
theorem completed_node {a : WifiAction} {f : U8 × List U8}
    (hf : f ∈ completed (M.config j) v a) : f.1 = j.1 := by
  have hloop (u : WifiState) (hu : f ∈ loopedFrame (M.config j) u) : f.1 = j.1 := by
    unfold loopedFrame at hu
    split at hu
    · rename_i hself
      rw [radioMeshEnabled_config] at hself
      rw [List.mem_singleton.mp hu]
      simp only [config, Bool.not_true, Bool.false_or, Bool.true_and, Bool.and_eq_true,
        beq_iff_eq] at hself
      exact hself.2
    · cases hu
  cases a with
  | byte last sendOk =>
      simp only [completed] at hf
      split at hf
      · exact hloop _ hf
      split at hf
      · exact hloop _ hf
      · cases hf
  | arrive | fdReady | reset => cases hf

/-- What a device hands to `sendto` is for another node. -/
theorem addressed_of_sends (h : Sends (M.config i) v w) (hv : ∀ d ∈ v.sent, Addressed i d) :
    ∀ d ∈ w.sent, Addressed i d := by
  intro d hd
  cases h with
  | nothing h => exact hv d (h ▸ hd)
  | packet port dst bytes hlen hmesh h =>
      rw [h, List.mem_append] at hd
      rcases hd with hd | hd
      · exact hv d hd
      · obtain ⟨hother, hwithin, hport⟩ := hmesh (radioMeshEnabled_config i)
        refine ⟨⟨dst, hwithin⟩, bytes, fun heq => hother (congrArg Subtype.val heq), hlen, ?_⟩
        rw [List.mem_singleton.mp hd, hport]
        rfl

/-- A reset leaves the socket as it is. -/
theorem inbox_of_resets {cfg : Config} {a : WifiAction} (hr : a.Resets v)
    (h : (wifiMachine cfg).next v a = some w) : w.inbox = v.inbox := by
  cases a with
  | arrive arrival => cases hr
  | fdReady => cases hr
  | reset => cases h; rfl
  | byte byte sendOk =>
      obtain ⟨hmode, c, hc, hres⟩ := hr
      obtain ⟨⟨u, r⟩, hu, hfst⟩ := Option.map_eq_some_iff.mp h
      cases hfst
      rw [transfer, hmode, Option.mem_def.mp hc] at hu
      cases c with
      | reset | powerOn => cases hu; rfl
      | resetAssert =>
          have hpowered : v.powered = true := hres
          simp only [execute, hpowered] at hu
          cases hu
          rfl
      | selectNode | status | txFrame | rxFrame | clearStatus | resetRelease | peekLabel | nodeRole
      | nodeId | radioMode | nodeCount | fwBegin | fwChunk | fwCommit | clmBegin | clmChunk
      | clmCommit | nvramApply | boot | fwState | ident => cases hres

/-- **The node that acts.** -/
theorem NodeInv.device {a : WifiAction} (I : NodeInv sent j v) (harrived : a.arrived = [])
    (h : (wifiMachine (M.config j)).next v a = some w) : NodeInv sent j w := by
  have hb := next_bounded_of I.bounded h
  have haddressed := addressed_of_sends (next_sends h) I.addressed
  by_cases hr : a.Resets v
  · have hreceived := (next_of_resets hr h).1
    have hevents : w.events = [] := congrArg KeyedQueue.log hreceived
    refine ⟨hb, ?_, ?_, ?_, ?_, haddressed⟩
    · rw [inbox_of_resets hr h]
      exact I.inbox
    · rw [hevents]
      exact fun e he => absurd he List.not_mem_nil
    · rw [hevents]
      exact fun f hf => absurd hf List.not_mem_nil
    · rw [hreceived]
      exact KeyedQueue.exact_empty false
  · obtain ⟨popped, hreceives⟩ := next_receives I.bounded hr h
    obtain ⟨taken, hbox, hradio⟩ := hreceives.took
    rw [harrived, List.append_nil] at hbox
    refine ⟨hb, fun a ha => I.inbox a (hbox ▸ List.mem_append_right _ ha), fun e he => ?_,
      fun f hf => ?_, I.exact.steps hreceives.steps, haddressed⟩
    · rw [hradio, List.mem_append] at he
      rcases he with he | he
      · exact I.handed e he
      · obtain ⟨a, ha, htaken⟩ := List.mem_filterMap.mp he
        exact ⟨a, I.inbox a (hbox ▸ List.mem_append_left _ ha), htaken⟩
    · rw [hreceives.looped, List.mem_append] at hf
      rcases hf with hf | hf
      · exact I.looped f hf
      · exact completed_node hf

/-- **The node to which something comes.** -/
theorem NodeInv.arrive {a : Arrival} (I : NodeInv sent j v) (ha : Genuine sent j a) :
    NodeInv sent j { v with inbox := v.inbox ++ [a] } where
  bounded := I.bounded.receiveOnly ⟨_, _, _, _, _, _, rfl⟩ (I.bounded.toQueueBounded.same rfl)
  inbox b hb := by
    rcases List.mem_append.mp hb with hb | hb
    · exact I.inbox b hb
    · rw [List.mem_singleton.mp hb]
      exact ha
  handed := I.handed
  looped := I.looped
  exact := I.exact
  addressed := I.addressed

/-- What every step keeps of the mesh. -/
def Inv (s : M.State) : Prop := ∀ j, NodeInv (Mesh.sent s) j (s j)

theorem sent_subset_update (h : (s i).sent ⊆ w.sent) (k : M.Node) :
    Mesh.sent s k ⊆ Mesh.sent (Function.update s i w) k := by
  unfold Mesh.sent
  by_cases hk : k = i
  · subst hk
    rw [Function.update_self]
    exact h
  · rw [Function.update_of_ne hk]
    exact List.Subset.refl _

/-- A step that changes one node keeps the others. -/
theorem Inv.update (I : Inv s) (hsent : (s i).sent ⊆ w.sent) (hw : NodeInv (Mesh.sent s) i w) :
    Inv (Function.update s i w) := by
  have hmono := sent_subset_update (M := M) hsent
  intro j
  by_cases hj : j = i
  · subst hj
    rw [Function.update_self]
    exact hw.mono hmono
  · rw [Function.update_of_ne hj]
    exact (I j).mono hmono

/-- **One step of the mesh.** -/
theorem Inv.step {a : M.Action} (I : Inv s) (h : M.machine.next s a = some t) : Inv t := by
  cases a with
  | device i a =>
      simp only [machine, Mesh.next] at h
      split at h
      · rename_i harrived
        obtain ⟨w, hw, rfl⟩ := Option.map_eq_some_iff.mp h
        exact I.update (next_sends hw).mono ((I i).device harrived hw)
      · cases h
  | deliver i j k =>
      obtain ⟨⟨port, packet⟩, hk, h⟩ := Option.bind_eq_some_iff.mp h
      dsimp only at h
      split at h
      · rename_i hport
        cases h
        refine I.update (List.Subset.refl _) ((I j).arrive fun i' hi' => ?_)
        rw [← addr_inj hi', ← hport]
        exact List.mem_of_getElem? hk
      · cases h
  | stray j arrival =>
      simp only [machine, Mesh.next] at h
      split at h
      · rename_i hstray
        cases h
        refine I.update (List.Subset.refl _) ((I j).arrive ?_)
        cases arrival with
        | failed => trivial
        | datagram packet source =>
            rintro i rfl
            simp [isStray, isNodeAddr_addr] at hstray
      · cases h

theorem inv_exec {as : List M.Action} (h : M.machine.exec M.init as = some s) : Inv s :=
  Machine.exec_keeps (fun _ _ _ I hnext => I.step hnext) (fun j => nodeInv_init _ j) h

/-! ### What a node receives -/

/-- Node `i` sent this frame to node `j`, and the frame names both. -/
structure FromNode (sent : M.Sent) (i j : M.Node) (f : U8 × List U8) : Prop where
  other : i ≠ j
  node : f.1 = j.1
  size : f.2.length ≤ wifiFrameSize
  header : 6 ≤ f.2.length
  source : (readBe16 (f.2.getD 2 0) (f.2.getD 3 0)).toNat = i.1.toNat
  destination : (readBe16 (f.2.getD 4 0) (f.2.getD 5 0)).toNat = j.1.toNat
  sent : (M.port j, j.1 :: BitVec.ofNat 8 f.2.length :: f.2) ∈ sent i

/-- The frame of an accepted packet of a node, and the packet. -/
theorem accepted_packet {dst : U8} {bytes : List U8} {source : SourceAddr} {origin : Origin}
    {f : U8 × List U8} (hlen : bytes.length ≤ wifiFrameSize)
    (h : accepted (M.config j)
      (.datagram (dst :: BitVec.ofNat 8 bytes.length :: bytes) source) = some (origin, f)) :
    f = (dst, bytes) := by
  have hwhole : (dst :: BitVec.ofNat 8 bytes.length :: bytes).take (2 + wifiFrameSize) =
      dst :: BitVec.ofNat 8 bytes.length :: bytes :=
    List.take_of_length_le (by simp only [List.length_cons]; omega)
  have hread : (BitVec.ofNat 8 bytes.length).toNat = bytes.length := by
    rw [BitVec.toNat_ofNat]
    exact Nat.mod_eq_of_lt (by unfold wifiFrameSize at hlen; omega)
  simp only [accepted, hwhole] at h
  obtain ⟨⟨dstNode, len⟩, htaken, hf⟩ := Option.map_eq_some_iff.mp h
  obtain ⟨-, hlength⟩ := accepts_length htaken
  unfold acceptsFrame at htaken
  dsimp only at htaken
  split at htaken
  · cases htaken
  split at htaken
  · cases htaken
  split at htaken
  · cases htaken
  cases htaken
  cases hf
  simp [hread]

/-- The node that has an address the checks of mesh mode let pass. -/
theorem exists_of_fromPeer {source : SourceAddr} {f : U8 × List U8}
    (h : FromPeer (M.config j) source f) : ∃ i : M.Node, source = M.addr i ∧
      (readBe16 (f.2.getD 2 0) (f.2.getD 3 0)).toNat = i.1.toNat := by
  have hbase : M.base.toNat < source.port.toNat := h.aboveBase
  have hwithin : source.port.toNat - M.base.toNat ≤ M.nodeCount.toNat := h.within
  have hcount := M.nodeCount.isLt
  have hid : (BitVec.ofNat 8 (source.port.toNat - M.base.toNat)).toNat =
      source.port.toNat - M.base.toNat := by
    rw [BitVec.toNat_ofNat]
    exact Nat.mod_eq_of_lt (by omega)
  let i : M.Node := ⟨BitVec.ofNat 8 (source.port.toNat - M.base.toNat), by rw [hid]; omega⟩
  have hi : i.1.toNat = source.port.toNat - M.base.toNat := hid
  have hport : source.port = (M.addr i).port := by
    refine BitVec.eq_of_toNat_eq ?_
    rw [toNat_addr_port, port, hi]
    omega
  refine ⟨i, ?_, h.peer.trans hi.symm⟩
  calc source = ⟨source.inet, source.loopback, source.port⟩ := rfl
    _ = M.addr i := by rw [h.loopback.1, h.loopback.2, hport]; rfl

/-- A frame the radio handed to a node's queue comes from the node it names. -/
theorem Inv.fromNode (I : Inv s) {e : Origin × (U8 × List U8)}
    (he : e ∈ radioHanded (s j).events) : ∃ i, FromNode (Mesh.sent s) i j e.2 := by
  obtain ⟨a, hgenuine, htaken⟩ := (I j).handed e he
  cases a with
  | failed => cases htaken
  | datagram packet source =>
      have htaken' : accepted (M.config j) (.datagram packet source) = some (e.1, e.2) := htaken
      obtain ⟨source', horigin, hpeer⟩ :=
        admitted_fromPeer (radioMeshEnabled_config j) htaken'
      have hsource : source' = source := by
        obtain ⟨_, -, he⟩ := Option.map_eq_some_iff.mp htaken
        rw [← he] at horigin
        cases horigin
        rfl
      subst hsource
      obtain ⟨i, rfl, hnamed⟩ := exists_of_fromPeer hpeer
      have hsent := hgenuine i rfl
      obtain ⟨dst, bytes, hother, hlen, hpacket⟩ := (I i).addressed _ hsent
      obtain ⟨hport, rfl⟩ := Prod.mk.inj hpacket
      have hdst : dst = j := (port_inj hport).symm
      subst hdst
      have hframe : e.2 = (dst.1, bytes) := accepted_packet hlen htaken'
      have hbytes : e.2.2 = bytes := congrArg Prod.snd hframe
      refine ⟨i, fun heq => hother heq.symm, hpeer.node, ?_, hpeer.header, hnamed,
        hpeer.destination, ?_⟩
      · rw [hbytes]
        exact hlen
      · rw [hbytes]
        exact hsent

/-- What has left an exact queue, or waits in it, was handed to it. -/
theorem handed_of_exact {q : KeyedQueue Origin (U8 × List U8)} {f : U8 × List U8}
    (hq : KeyedQueue.Exact Prod.fst wifiQueueDepth q)
    (hf : f ∈ KeyedEvent.pops q.log ++ q.waiting) :
    ∃ origin, (origin, f) ∈ KeyedEvent.handed q.log := by
  have hqueued : f ∈ KeyedEvent.queueds q.log := by
    have hmine : f ∈ (KeyedEvent.pops q.log ++ q.waiting).filter (·.1 = f.1) :=
      List.mem_filter.mpr ⟨hf, by simp⟩
    rw [List.filter_append, hq.inOrder f.1] at hmine
    exact List.mem_of_mem_filter hmine
  obtain ⟨event, hevent, hsome⟩ := List.mem_filterMap.mp hqueued
  cases event with
  | queued origin g =>
      cases hsome
      exact ⟨origin, List.mem_filterMap.mpr ⟨.queued origin f, hevent, rfl⟩⟩
  | lost | popped | cleared => cases hsome

/-- **The mesh is authentic.**  After any steps of any devices, and whatever the network does to
their datagrams and other processes send: a frame that waits in a node's receive queue, or that its
host has taken from it, is the node's own, transmitted to itself, or was sent to it by the node
that the frame names as its source. -/
theorem mesh_authentic (M : Mesh) {as : List M.Action} {s : M.State}
    (h : M.machine.exec M.init as = some s) (j : M.Node) :
    ∀ f ∈ KeyedEvent.pops (s j).events ++ (s j).waiting,
      f.1 = j.1 ∧ (f ∈ localHanded (s j).events ∨ ∃ i, FromNode (Mesh.sent s) i j f) := by
  have I := inv_exec h
  intro f hf
  obtain ⟨origin, hhanded⟩ := handed_of_exact (I j).exact hf
  by_cases horigin : origin = .transmitted
  · have hown : f ∈ localHanded (s j).events :=
      List.mem_map.mpr ⟨(origin, f), List.mem_filter.mpr ⟨hhanded, by simpa using horigin⟩, rfl⟩
    exact ⟨(I j).looped f hown, .inl hown⟩
  · have hradio : (origin, f) ∈ radioHanded (s j).events :=
      List.mem_filter.mpr ⟨hhanded, by simpa using horigin⟩
    obtain ⟨i, hi⟩ := I.fromNode hradio
    exact ⟨hi.node, .inr ⟨i, hi⟩⟩

/-! ### A mesh of two -/

def two : Mesh :=
  { base := 9000, nodeCount := 2, nodeRole := fun _ => 0, base_ne := by decide
    two_le := by decide, ports := by decide }

def first : two.Node := ⟨1, by decide⟩

def second : two.Node := ⟨2, by decide⟩

/-- Both nodes boot, the second sends a frame to the first, and the first takes it. -/
def exchange : List two.Action :=
  (bootSession.map (Action.device first) ++ bootSession.map (Action.device second)) ++
    ((spi [0x30, 1, 6, 0, 0, 0, 2, 0, 1]).map (Action.device second) ++
      .deliver second first 0 :: (spi [0x10, 1, 0x40]).map (Action.device first))

/-- The frame is the second node's. -/
theorem mesh_authentic_exchange :
    ∃ s : two.State, KeyedEvent.pops (s first).events = [(1, [0, 0, 0, 2, 0, 1])] ∧
      ∀ f ∈ KeyedEvent.pops (s first).events ++ (s first).waiting,
        f.1 = first.1 ∧
          (f ∈ localHanded (s first).events ∨ ∃ i, FromNode (Mesh.sent s) i first f) := by
  have hrun : (two.machine.exec two.init exchange).map
      (fun s => KeyedEvent.pops (s first).events) = some [(1, [0, 0, 0, 2, 0, 1])] := by
    decide +kernel
  obtain ⟨s, hs, hpops⟩ := Option.map_eq_some_iff.mp hrun
  exact ⟨s, hpops, mesh_authentic two hs first⟩

end Mesh

end HibanaPico.Cyw43439
