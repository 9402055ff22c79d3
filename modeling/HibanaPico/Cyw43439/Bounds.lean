import HibanaPico.Cyw43439.Device

/-!
# CYW43439 — Bounds

No run of bytes, datagrams and resets takes the device outside an array or a counter outside its
type.  The invariant says for each mode where its counter stands.

* `ReceiveOnly`: all that the radio and the queue can change.
* `QueueBounded`, `Bounded`: the invariant, for the queue and for the whole device.
* `queuePush_bounded`, `radioPoll_bounded`, `transfer_bounded`: each part is defined, and keeps it.
* `wifi_inBounds`: what it says, in every state reached.
-/

namespace HibanaPico.Cyw43439
open HibanaPico.Support
open HibanaPico.Transport

/-! ### Single accesses -/

theorem bump_of_lt {w n : ℕ} (h : n + 1 < 2 ^ w) : bump w n = some (n + 1) := if_pos h

theorem bump_eq_some {w n m : ℕ} (h : bump w n = some m) : m = n + 1 := by
  unfold bump at h
  split at h
  · exact (Option.some.inj h).symm
  · cases h

theorem poke_of_lt {α : Type} {n i : ℕ} {c : Cells α} {x : α} (h : i < n) :
    poke n c i x = some (Function.update c i x) := if_pos h

theorem poke_eq_some {α : Type} {n i : ℕ} {c d : Cells α} {x : α} (h : poke n c i x = some d) :
    d = Function.update c i x := by
  unfold poke at h
  split at h
  · exact (Option.some.inj h).symm
  · cases h

theorem peek_of_lt {α : Type} {n i : ℕ} {c : Cells α} (h : i < n) : peek n c i = some (c i) :=
  if_pos h

theorem peek_eq_some {α : Type} {n i : ℕ} {c : Cells α} {x : α} (h : peek n c i = some x) :
    x = c i := by
  unfold peek at h
  split at h
  · exact (Option.some.inj h).symm
  · cases h

theorem memcpy_of_le {n len : ℕ} {dst : Cells U8} {src : List U8} (h : len ≤ n)
    (hs : len ≤ src.length) : memcpy n dst src len = some (dst.store 0 (src.take len)) :=
  if_pos ⟨h, hs⟩

theorem memcpy_eq_some {n len : ℕ} {dst d : Cells U8} {src : List U8}
    (h : memcpy n dst src len = some d) :
    len ≤ n ∧ len ≤ src.length ∧ d = dst.store 0 (src.take len) := by
  unfold memcpy at h
  split at h
  · rename_i hl
    exact ⟨hl.1, hl.2, (Option.some.inj h).symm⟩
  · cases h

/-! ### What the radio and the queue change -/

/-- `t` is `s` but for the receive queue, the socket, the overflow flag and the notes. -/
def ReceiveOnly (s t : WifiState) : Prop :=
  ∃ queue queueLen overflow inbox sent events,
    t = { s with queue, queueLen, overflow, inbox, sent, events }

namespace ReceiveOnly

variable {s t u : WifiState}

theorem refl (s : WifiState) : ReceiveOnly s s := ⟨_, _, _, _, _, _, rfl⟩

theorem trans (h : ReceiveOnly s t) (h' : ReceiveOnly t u) : ReceiveOnly s u := by
  obtain ⟨_, _, _, _, _, _, rfl⟩ := h
  obtain ⟨_, _, _, _, _, _, rfl⟩ := h'
  exact ⟨_, _, _, _, _, _, rfl⟩

end ReceiveOnly

/-- The queue's counters, and the lengths in it. -/
structure QueueBounded (s : WifiState) : Prop where
  head : s.queueHead < wifiQueueDepth
  len : s.queueLen ≤ wifiQueueDepth
  frames : ∀ i, (s.queue i).len ≤ wifiFrameSize

theorem QueueBounded.same {s t : WifiState} (hs : QueueBounded s)
    (h : (t.queueHead, t.queueLen, t.queue) = (s.queueHead, s.queueLen, s.queue)) :
    QueueBounded t := by
  simp only [Prod.mk.injEq] at h
  obtain ⟨h₁, h₂, h₃⟩ := h
  exact ⟨h₁ ▸ hs.head, h₂ ▸ hs.len, h₃ ▸ hs.frames⟩

theorem QueueBounded.resetState (s : WifiState) : QueueBounded s.resetState :=
  ⟨Nat.zero_lt_succ _, Nat.zero_le _, fun _ => Nat.zero_le _⟩

/-- A push finds its slot, and counts no further than the depth. -/
theorem queuePush_bounded {s : WifiState} (origin : Origin) (dstNode : U8) (bytes : List U8)
    {len : ℕ} (hs : QueueBounded s) (hlen : len ≤ wifiFrameSize) (hb : len ≤ bytes.length) :
    ∃ t, queuePush s origin dstNode bytes len = some t ∧ ReceiveOnly s t ∧ QueueBounded t := by
  unfold queuePush
  split
  · exact ⟨_, rfl, ⟨_, _, _, _, _, _, rfl⟩, hs.head, hs.len, hs.frames⟩
  · rename_i hfull
    have hlt : s.queueLen < wifiQueueDepth := Nat.lt_of_le_of_ne hs.len hfull
    have hbump : bump 8 s.queueLen = some (s.queueLen + 1) :=
      bump_of_lt (by unfold wifiQueueDepth at hlt; omega)
    dsimp only
    rw [memcpy_of_le hlen hb, hbump]
    refine ⟨_, rfl, ⟨_, _, _, _, _, _, rfl⟩, hs.head, hlt, fun i => ?_⟩
    by_cases hi : i = Ring.slot wifiQueueDepth s.queueHead s.queueLen
    · subst hi
      simpa [Function.update_self] using hlen
    · simpa [Function.update_of_ne hi] using hs.frames i

/-- A datagram that passes the checks has the length it says, and fits. -/
theorem accepts_length {cfg : Config} {packet : List U8} {source : SourceAddr} {dstNode : U8}
    {len : ℕ} (h : acceptsFrame cfg packet source = some (dstNode, len)) :
    len ≤ wifiFrameSize ∧ packet.length = 2 + len := by
  unfold acceptsFrame at h
  split at h
  · cases h
  · dsimp only at h
    split at h
    · cases h
    · split at h
      · cases h
      · cases h
        simp_all

theorem radioDrain_bounded {cfg : Config} :
    ∀ (inbox : List Arrival) {s : WifiState}, QueueBounded s →
      ∃ t, radioDrain cfg inbox s = some t ∧ ReceiveOnly s t ∧ QueueBounded t
  | [], s, hs => ⟨_, rfl, ⟨_, _, _, _, _, _, rfl⟩, hs.head, hs.len, hs.frames⟩
  | .failed :: rest, s, hs => ⟨_, rfl, ⟨_, _, _, _, _, _, rfl⟩, hs.head, hs.len, hs.frames⟩
  | .datagram datagram source :: rest, s, hs => by
      rw [radioDrain]
      split
      · exact radioDrain_bounded rest hs
      · rename_i dstNode len htaken
        obtain ⟨hlen, hpacket⟩ := accepts_length htaken
        obtain ⟨u, hu, hsu, hu'⟩ := queuePush_bounded (.radio source) dstNode
          ((datagram.take (2 + wifiFrameSize)).drop 2) hs hlen (by rw [List.length_drop]; omega)
        obtain ⟨t, ht, hut, ht'⟩ := radioDrain_bounded rest hu'
        exact ⟨t, by rw [hu]; exact ht, hsu.trans hut, ht'⟩

theorem radioPoll_bounded (cfg : Config) {s : WifiState} (hs : QueueBounded s) :
    ∃ t, radioPoll cfg s = some t ∧ ReceiveOnly s t ∧ QueueBounded t := by
  unfold radioPoll
  split
  · exact ⟨s, rfl, .refl s, hs⟩
  · exact radioDrain_bounded s.inbox hs

/-- Either branch of a test is defined, and meets the condition. -/
theorem ite_defined {c : Prop} [Decidable c] {a b : Option WifiState} {P : WifiState → Prop}
    (ha : ∃ t, a = some t ∧ P t) (hb : ∃ t, b = some t ∧ P t) :
    ∃ t, (if c then a else b) = some t ∧ P t := by
  split
  · exact ha
  · exact hb

theorem radioSend_bounded (cfg : Config) {s : WifiState} (sendOk : Bool)
    (hs : QueueBounded s) (hlen : s.txLen ≤ wifiFrameSize) :
    ∃ t, radioSend cfg s sendOk = some t ∧ ReceiveOnly s t ∧ QueueBounded t := by
  have hpush := queuePush_bounded .transmitted s.txDstNode (s.txBuf.slice 0 wifiFrameSize)
    hs hlen (by rw [Cells.length_slice]; exact hlen)
  have hflag : ∃ t, some { s with overflow := true } = some t ∧ ReceiveOnly s t ∧
      QueueBounded t := ⟨_, rfl, ⟨_, _, _, _, _, _, rfl⟩, hs.head, hs.len, hs.frames⟩
  refine ite_defined hflag (ite_defined hpush (ite_defined (ite_defined hpush
    (ite_defined hflag (ite_defined hflag ?_))) ?_))
  · exact ⟨_, if_pos hlen, ⟨_, _, _, _, _, _, rfl⟩, hs.head, hs.len, hs.frames⟩
  · exact ⟨_, if_pos hlen, ⟨_, _, _, _, _, _, rfl⟩, hs.head, hs.len, hs.frames⟩

/-! ### Popping -/

theorem firstOffset_lt {s : WifiState} {p : WifiFrame → Bool} {offset : ℕ}
    (h : firstOffset s p = some offset) : offset < s.queueLen :=
  List.mem_range.mp (List.mem_of_find?_eq_some h)

/-- `t` is `s` but for the receive side: the queue, `rx_buf`, `rx_len` and the notes. -/
def PopOnly (s t : WifiState) : Prop :=
  ∃ rxLen rxBuf queue queueLen queueHead events,
    t = { s with rxLen, rxBuf, queue, queueLen, queueHead, events }

theorem queuePopFor_bounded {s : WifiState} (node : U8) (hs : QueueBounded s)
    (hrx : s.rxLen ≤ wifiFrameSize) :
    ∃ t popped, queuePopFor s node = some (t, popped) ∧ PopOnly s t ∧ QueueBounded t ∧
      t.rxLen ≤ wifiFrameSize := by
  unfold queuePopFor
  split
  · rename_i offset hoffset
    have hlt := firstOffset_lt hoffset
    have hframe := hs.frames (Ring.slot wifiQueueDepth s.queueHead offset)
    dsimp only
    rw [memcpy_of_le hframe (by rw [Cells.length_slice]; exact hframe)]
    refine ⟨_, true, rfl, ⟨_, _, _, _, _, _, rfl⟩, ⟨?_, ?_, ?_⟩, hframe⟩
    · show (if s.queueLen - 1 = 0 then 0 else s.queueHead) < wifiQueueDepth
      split
      · decide
      · exact hs.head
    · exact Nat.le_trans (Nat.sub_le _ _) hs.len
    · exact Ring.shiftDown_all (P := fun f : WifiFrame => f.len ≤ wifiFrameSize) _ _ _ hs.frames
  · exact ⟨s, false, rfl, ⟨_, _, _, _, _, _, rfl⟩, hs, hrx⟩

/-! ### The invariant -/

/-- The bytes of a load are counted up to the announced length. -/
structure Load.Bounded (l : Load) : Prop where
  received : l.receivedLen ≤ l.expectedLen
  expected : l.expectedLen < 2 ^ 32

theorem Load.Bounded.cleared : Load.cleared.Bounded := ⟨Nat.le_refl _, Nat.two_pow_pos 32⟩

theorem Load.Bounded.begun (len hash : U32) : (Load.begun len hash).Bounded :=
  ⟨Nat.zero_le _, len.isLt⟩

/-- What is kept from one transaction to the next. -/
structure Stored (s : WifiState) : Prop extends QueueBounded s where
  rxPos : s.rxPos ≤ s.rxLen
  rxLen : s.rxLen ≤ wifiFrameSize
  fw : s.fw.Bounded
  clm : s.clm.Bounded

/-- Where each counter stands, mode by mode. -/
structure Bounded (s : WifiState) : Prop extends Stored s where
  tx : s.mode = .txPayload → s.txPos < s.txLen ∧ s.txLen ≤ wifiFrameSize
  header : s.mode = .loadBegin ∨ s.mode = .nvramApply → s.loadHeaderPos < wifiLoadHeaderSize
  chunkHeader : s.mode = .loadChunkHeader → s.loadChunkHeaderPos < wifiLoadChunkHeaderSize
  chunk : s.mode = .loadChunkPayload → s.loadChunkPos < s.loadChunkLen ∧ s.loadChunkLen < 2 ^ 8 ∧
    s.load.receivedLen + (s.loadChunkLen - s.loadChunkPos) ≤ s.load.expectedLen

namespace Stored

variable {s t : WifiState}

theorem same (hs : Stored s)
    (h : (t.queueHead, t.queueLen, t.queue, t.rxPos, t.rxLen, t.fw, t.clm) =
      (s.queueHead, s.queueLen, s.queue, s.rxPos, s.rxLen, s.fw, s.clm)) : Stored t := by
  simp only [Prod.mk.injEq] at h
  obtain ⟨h₁, h₂, h₃, h₄, h₅, h₆, h₇⟩ := h
  exact ⟨hs.toQueueBounded.same (by rw [h₁, h₂, h₃]), by rw [h₄, h₅]; exact hs.rxPos,
    h₅ ▸ hs.rxLen, h₆ ▸ hs.fw, h₇ ▸ hs.clm⟩

theorem resetState (s : WifiState) : Stored s.resetState :=
  ⟨.resetState s, Nat.le_refl _, Nat.zero_le _, .cleared, .cleared⟩

theorem load (hs : Stored s) : s.load.Bounded := by
  unfold WifiState.load
  split
  · exact hs.fw
  · exact hs.clm

theorem withLoad {l : Load} (hs : Stored s) (hl : l.Bounded) : Stored (s.withLoad l) := by
  refine ⟨hs.toQueueBounded.same rfl, hs.rxPos, hs.rxLen, ?_, ?_⟩
  · show Load.Bounded (if s.loadKind = .fw then l else s.fw)
    split
    · exact hl
    · exact hs.fw
  · show Load.Bounded (if s.loadKind = .fw then s.clm else l)
    split
    · exact hs.clm
    · exact hl

/-- The radio changes nothing else that is kept. -/
theorem receiveOnly (hs : Stored s) (h : ReceiveOnly s t) (hq : QueueBounded t) : Stored t := by
  obtain ⟨_, _, _, _, _, _, rfl⟩ := h
  exact ⟨hq, hs.rxPos, hs.rxLen, hs.fw, hs.clm⟩

end Stored

namespace Bounded

variable {s t : WifiState}

/-- In a mode that counts nothing, what is kept is all there is. -/
theorem of_stored (hs : Stored s)
    (hmode : s.mode = .command ∨ s.mode = .selectNode ∨ s.mode = .txDst ∨ s.mode = .txLen ∨
      s.mode = .rxPayload) : Bounded s where
  toStored := hs
  tx := fun h => by rw [h] at hmode; simp at hmode
  header := fun h => by rcases h with h | h <;> rw [h] at hmode <;> simp at hmode
  chunkHeader := fun h => by rw [h] at hmode; simp at hmode
  chunk := fun h => by rw [h] at hmode; simp at hmode

theorem of_command (hmode : s.mode = .command) (hs : Stored s) : Bounded s :=
  of_stored hs (.inl hmode)

theorem of_header (hs : Stored s) (hmode : s.mode = .loadBegin ∨ s.mode = .nvramApply)
    (hpos : s.loadHeaderPos < wifiLoadHeaderSize) : Bounded s where
  toStored := hs
  tx := fun h => by rw [h] at hmode; simp at hmode
  header := fun _ => hpos
  chunkHeader := fun h => by rw [h] at hmode; simp at hmode
  chunk := fun h => by rw [h] at hmode; simp at hmode

theorem of_chunkHeader (hs : Stored s) (hmode : s.mode = .loadChunkHeader)
    (hpos : s.loadChunkHeaderPos < wifiLoadChunkHeaderSize) : Bounded s where
  toStored := hs
  tx := fun h => by rw [h] at hmode; cases hmode
  header := fun h => by rcases h with h | h <;> rw [h] at hmode <;> cases hmode
  chunkHeader := fun _ => hpos
  chunk := fun h => by rw [h] at hmode; cases hmode

theorem of_chunk (hs : Stored s) (hmode : s.mode = .loadChunkPayload)
    (hchunk : s.loadChunkPos < s.loadChunkLen ∧ s.loadChunkLen < 2 ^ 8 ∧
      s.load.receivedLen + (s.loadChunkLen - s.loadChunkPos) ≤ s.load.expectedLen) :
    Bounded s where
  toStored := hs
  tx := fun h => by rw [h] at hmode; cases hmode
  header := fun h => by rcases h with h | h <;> rw [h] at hmode <;> cases hmode
  chunkHeader := fun h => by rw [h] at hmode; cases hmode
  chunk := fun _ => hchunk

theorem of_tx (hs : Stored s) (hmode : s.mode = .txPayload)
    (htx : s.txPos < s.txLen ∧ s.txLen ≤ wifiFrameSize) : Bounded s where
  toStored := hs
  tx := fun _ => htx
  header := fun h => by rcases h with h | h <;> rw [h] at hmode <;> cases hmode
  chunkHeader := fun h => by rw [h] at hmode; cases hmode
  chunk := fun h => by rw [h] at hmode; cases hmode

theorem resetState (s : WifiState) : Bounded s.resetState := of_command rfl (.resetState s)

theorem loadError (hs : Stored s) : Bounded (loadError s) := of_command rfl (hs.same rfl)

/-- The radio moves no counter of a mode. -/
theorem receiveOnly (hs : Bounded s) (h : ReceiveOnly s t) (hq : QueueBounded t) : Bounded t := by
  have hst := hs.toStored.receiveOnly h hq
  obtain ⟨_, _, _, _, _, _, rfl⟩ := h
  exact ⟨hst, hs.tx, hs.header, hs.chunkHeader, hs.chunk⟩

end Bounded

theorem loadBegin_bounded {s : WifiState} (hs : Stored s) : Bounded (loadBegin s) := by
  unfold loadBegin
  dsimp only
  split
  · split
    · exact .loadError hs
    split
    · exact .loadError hs
    · exact .of_command rfl ⟨hs.toQueueBounded.same rfl, hs.rxPos, hs.rxLen, .begun _ _, hs.clm⟩
  · split
    · exact .loadError hs
    · exact .of_command rfl ⟨hs.toQueueBounded.same rfl, hs.rxPos, hs.rxLen, hs.fw, .begun _ _⟩
  · exact .loadError hs

/-- An accepted chunk has room for its bytes. -/
theorem chunkFits_room {s : WifiState} (h : chunkFits s = true) :
    s.load.receivedLen + (s.loadChunkHeader 4).toNat ≤ s.load.expectedLen := by
  simp only [chunkFits, Bool.and_eq_true, decide_eq_true_eq] at h
  omega

theorem loadChunkReady_bounded {s : WifiState} (hs : Stored s) : Bounded (loadChunkReady s) := by
  unfold loadChunkReady
  dsimp only
  split
  · exact .loadError hs
  · rename_i hfits
    have hroom := chunkFits_room (s := s) (by simpa using hfits)
    by_cases hlen : (s.loadChunkHeader 4).toNat = 0
    · exact .of_command (if_pos hlen) (hs.same rfl)
    · exact .of_chunk (hs.same rfl) (if_neg hlen)
        ⟨Nat.pos_of_ne_zero hlen, (s.loadChunkHeader 4).isLt, hroom⟩

theorem loadChunkByte_bounded {s : WifiState} (byte : U8) (hs : Bounded s)
    (hmode : s.mode = .loadChunkPayload) :
    ∃ t, loadChunkByte s byte = some t ∧ Bounded t := by
  obtain ⟨hpos, hlen, hroom⟩ := hs.chunk hmode
  have hexpected := hs.load.expected
  have hstored := hs.withLoad (l := { s.load with
      hash := fnv1a32Update s.load.hash byte, receivedLen := s.load.receivedLen + 1 })
    ⟨by show s.load.receivedLen + 1 ≤ s.load.expectedLen; omega, hexpected⟩
  unfold loadChunkByte
  rw [bump_of_lt (by omega), bump_of_lt (by omega)]
  refine ⟨_, rfl, ?_⟩
  by_cases hend : s.loadChunkPos + 1 = s.loadChunkLen
  · exact .of_command (if_pos hend) (hstored.same rfl)
  · refine .of_chunk (hstored.same rfl) ((if_neg hend).trans hmode) ⟨?_, hlen, ?_⟩
    · show s.loadChunkPos + 1 < s.loadChunkLen
      omega
    · show (WifiState.withLoad s _).load.receivedLen + (s.loadChunkLen - (s.loadChunkPos + 1)) ≤
        (WifiState.withLoad s _).load.expectedLen
      rw [WifiState.load_withLoad]
      show s.load.receivedLen + 1 + _ ≤ s.load.expectedLen
      omega

/-! ### The bus -/

theorem status_bounded {cfg : Config} {s : WifiState} (hs : Bounded s) :
    ∃ t r, status cfg s = some (t, r) ∧ Bounded t := by
  unfold status
  split
  · exact ⟨s, _, rfl, hs⟩
  · obtain ⟨t, ht, hst, hq⟩ := radioPoll_bounded cfg hs.toQueueBounded
    rw [ht]
    exact ⟨t, _, rfl, hs.receiveOnly hst hq⟩

theorem startRx_bounded (cfg : Config) {s : WifiState} (hs : Bounded s)
    (hmode : s.mode = .command) : ∃ t r, startRx cfg s = some (t, r) ∧ Bounded t := by
  unfold startRx
  split
  · exact ⟨s, _, rfl, hs⟩
  · obtain ⟨u, hu, hsu, hq⟩ := radioPoll_bounded cfg hs.toQueueBounded
    have hu' := hs.receiveOnly hsu hq
    obtain ⟨t, popped, ht, hut, htq, hlen⟩ := queuePopFor_bounded u.selectedNode
      (s := { u with rxLen := 0, rxPos := 0, rxBuf := fun _ => 0 }) (hq.same rfl) (Nat.zero_le _)
    have hmodeu : u.mode = .command := by obtain ⟨_, _, _, _, _, _, rfl⟩ := hsu; exact hmode
    rw [hu]
    dsimp only [Option.bind_eq_bind, Option.bind_some]
    rw [ht]
    obtain ⟨_, _, _, _, _, _, rfl⟩ := hut
    have hstored : Stored _ := ⟨htq, Nat.zero_le _, hlen, hu'.fw, hu'.clm⟩
    cases popped with
    | false => exact ⟨_, _, rfl, .of_command hmodeu hstored⟩
    | true => exact ⟨_, _, rfl, .of_stored (hstored.same rfl) (by simp)⟩

theorem peekLabelFor_defined (s : WifiState) (node : U8) : ∃ r, peekLabelFor s node = some r := by
  unfold peekLabelFor
  split
  · exact ⟨_, rfl⟩
  split
  · exact ⟨_, peek_of_lt (by decide)⟩
  · exact ⟨_, rfl⟩

theorem loadCommitFw_bounded {s : WifiState} (hs : Bounded s) (hmode : s.mode = .command) :
    Bounded (loadCommitFw s).1 := by
  unfold loadCommitFw
  split
  · exact .loadError hs.toStored
  split
  · exact .loadError hs.toStored
  · exact .of_command hmode ⟨hs.toQueueBounded.same rfl, hs.rxPos, hs.rxLen,
      ⟨hs.fw.received, hs.fw.expected⟩, hs.clm⟩

theorem loadCommitClm_bounded {s : WifiState} (hs : Bounded s) (hmode : s.mode = .command) :
    Bounded (loadCommitClm s).1 := by
  unfold loadCommitClm
  split
  · exact .loadError hs.toStored
  split
  · exact .loadError hs.toStored
  · exact .of_command hmode ⟨hs.toQueueBounded.same rfl, hs.rxPos, hs.rxLen, hs.fw,
      ⟨hs.clm.received, hs.clm.expected⟩⟩

theorem execute_bounded {cfg : Config} {s : WifiState} (hs : Bounded s) (hmode : s.mode = .command)
    (c : Command) : ∃ t r, execute cfg s c = some (t, r) ∧ Bounded t := by
  have hstay : ∀ r : U8, ∃ t r', some (s, r) = some (t, r') ∧ Bounded t :=
    fun r => ⟨s, r, rfl, hs⟩
  have herror : ∃ t r, some (loadError s, (0xee : U8)) = some (t, r) ∧ Bounded t :=
    ⟨_, _, rfl, .loadError hs.toStored⟩
  cases c with
  | status => exact status_bounded hs
  | rxFrame => exact startRx_bounded _ hs hmode
  | fwCommit => exact ⟨_, _, rfl, loadCommitFw_bounded hs hmode⟩
  | clmCommit => exact ⟨_, _, rfl, loadCommitClm_bounded hs hmode⟩
  | nodeRole | nodeId | radioMode | nodeCount | fwState => exact hstay _
  | clearStatus => exact ⟨_, _, rfl, .of_command hmode (hs.toStored.same rfl)⟩
  | reset => exact ⟨_, _, rfl, .resetState s⟩
  | powerOn => exact ⟨_, _, rfl, .of_command rfl ((Stored.resetState s).same rfl)⟩
  | resetAssert =>
      simp only [execute]
      split
      · exact herror
      · exact ⟨_, _, rfl, .of_command rfl ((Stored.resetState s).same rfl)⟩
  | resetRelease | boot =>
      simp only [execute]
      split
      · exact herror
      · exact ⟨_, _, rfl, .of_command hmode (hs.toStored.same rfl)⟩
  | ident =>
      simp only [execute]
      split
      · exact hstay _
      · exact ⟨_, _, rfl, .of_command hmode (hs.toStored.same rfl)⟩
  | peekLabel =>
      obtain ⟨t, ht, hst, hqt⟩ := radioPoll_bounded cfg hs.toQueueBounded
      obtain ⟨r, hr⟩ := peekLabelFor_defined t t.selectedNode
      simp only [execute]
      rw [ht]
      dsimp only [Option.bind_eq_bind, Option.bind_some]
      rw [hr]
      exact ⟨t, r, rfl, hs.receiveOnly hst hqt⟩
  | selectNode | txFrame => exact ⟨_, _, rfl, .of_stored (hs.toStored.same rfl) (by simp)⟩
  | fwBegin | clmBegin | nvramApply =>
      exact ⟨_, _, rfl, .of_header (hs.toStored.same rfl) (by simp) (Nat.zero_lt_succ _)⟩
  | fwChunk | clmChunk =>
      exact ⟨_, _, rfl, .of_chunkHeader (hs.toStored.same rfl) rfl (Nat.zero_lt_succ _)⟩

theorem transferTxLen_bounded {cfg : Config} {s : WifiState} (byte : U8) (sendOk : Bool)
    (hs : Stored s) : ∃ t r, transferTxLen cfg s byte sendOk = some (t, r) ∧ Bounded t := by
  unfold transferTxLen
  split
  · exact ⟨_, _, rfl, .of_command rfl (hs.same rfl)⟩
  split
  · have hempty : Stored { s with txLen := 0, txPos := 0 } := hs.same rfl
    obtain ⟨t, ht, hst, hq⟩ :=
      radioSend_bounded cfg sendOk hempty.toQueueBounded (Nat.zero_le _)
    rw [ht]
    exact ⟨_, _, rfl, .of_command rfl ((hempty.receiveOnly hst hq).same rfl)⟩
  · rename_i hle hne
    have hpos : 0 < byte.toNat := Nat.pos_of_ne_zero fun e => hne (BitVec.eq_of_toNat_eq e)
    exact ⟨_, _, rfl, .of_tx (hs.same rfl) rfl ⟨hpos, Nat.not_lt.mp hle⟩⟩

theorem transferTxPayload_bounded {cfg : Config} {s : WifiState} (byte : U8) (sendOk : Bool)
    (hs : Bounded s) (hmode : s.mode = .txPayload) :
    ∃ t r, transferTxPayload cfg s byte sendOk = some (t, r) ∧ Bounded t := by
  obtain ⟨hpos, hlen⟩ := hs.tx hmode
  have hlen' : s.txLen ≤ 128 := hlen
  unfold transferTxPayload
  rw [poke_of_lt (by omega), bump_of_lt (by omega)]
  dsimp only [Option.bind_eq_bind, Option.bind_some]
  split
  · have hput : Stored { s with
        txBuf := Function.update s.txBuf s.txPos byte, txPos := s.txPos + 1 } :=
      hs.toStored.same rfl
    obtain ⟨t, ht, hst, hq⟩ := radioSend_bounded cfg sendOk hput.toQueueBounded hlen
    rw [ht]
    exact ⟨_, _, rfl, .of_command rfl ((hput.receiveOnly hst hq).same rfl)⟩
  · exact ⟨_, _, rfl, .of_tx (hs.toStored.same rfl) hmode
      ⟨by show s.txPos + 1 < s.txLen; omega, hlen⟩⟩

theorem transferRxPayload_bounded {s : WifiState} (hs : Stored s) (hmode : s.mode = .rxPayload) :
    ∃ t r, transferRxPayload s = some (t, r) ∧ Bounded t := by
  have hlen : s.rxLen ≤ 128 := hs.rxLen
  unfold transferRxPayload
  split
  · rename_i hpos
    have hstored : Stored { s with rxPos := s.rxPos + 1 } :=
      ⟨hs.toQueueBounded.same rfl, hpos, hs.rxLen, hs.fw, hs.clm⟩
    rw [peek_of_lt (Nat.lt_of_lt_of_le hpos hs.rxLen), bump_of_lt (by omega)]
    refine ⟨_, _, rfl, .of_stored (hstored.same rfl) ?_⟩
    dsimp only
    split
    · exact .inl rfl
    · simp [hmode]
  · exact ⟨_, _, rfl, .of_command rfl (hs.same rfl)⟩

theorem transferLoadBegin_bounded {s : WifiState} (byte : U8) (hs : Bounded s)
    (hmode : s.mode = .loadBegin) :
    ∃ t r, transferLoadBegin s byte = some (t, r) ∧ Bounded t := by
  have hlt := hs.header (.inl hmode)
  have hlt' : s.loadHeaderPos < 8 := hlt
  unfold transferLoadBegin
  rw [poke_of_lt hlt, bump_of_lt (by omega)]
  refine ⟨_, _, rfl, ?_⟩
  split
  · exact loadBegin_bounded (hs.toStored.same rfl)
  · exact .of_header (hs.toStored.same rfl) (.inl hmode) (Nat.lt_of_le_of_ne hlt ‹_›)

theorem transferChunkHeader_bounded {s : WifiState} (byte : U8) (hs : Bounded s)
    (hmode : s.mode = .loadChunkHeader) :
    ∃ t r, transferChunkHeader s byte = some (t, r) ∧ Bounded t := by
  have hlt := hs.chunkHeader hmode
  have hlt' : s.loadChunkHeaderPos < 5 := hlt
  unfold transferChunkHeader
  rw [poke_of_lt hlt, bump_of_lt (by omega)]
  refine ⟨_, _, rfl, ?_⟩
  split
  · exact loadChunkReady_bounded (hs.toStored.same rfl)
  · exact .of_chunkHeader (hs.toStored.same rfl) hmode (Nat.lt_of_le_of_ne hlt ‹_›)

theorem transferNvram_bounded {s : WifiState} (byte : U8) (hs : Bounded s)
    (hmode : s.mode = .nvramApply) :
    ∃ t r, transferNvram s byte = some (t, r) ∧ Bounded t := by
  have hlt := hs.header (.inr hmode)
  have hlt' : s.loadHeaderPos < 8 := hlt
  unfold transferNvram
  rw [poke_of_lt hlt, bump_of_lt (by omega)]
  dsimp only [Option.bind_eq_bind, Option.bind_some]
  split
  · split
    · exact ⟨_, _, rfl, .loadError (hs.toStored.same rfl)⟩
    · exact ⟨_, _, rfl, .of_command rfl (hs.toStored.same rfl)⟩
  · exact ⟨_, _, rfl, .of_header (hs.toStored.same rfl) (.inr hmode) (Nat.lt_of_le_of_ne hlt ‹_›)⟩

/-- **One byte**, in any mode: every access is in bounds, and the invariant is kept. -/
theorem transfer_bounded (cfg : Config) {s : WifiState} (byte : U8) (sendOk : Bool)
    (hs : Bounded s) : ∃ t r, transfer cfg s byte sendOk = some (t, r) ∧ Bounded t := by
  unfold transfer
  cases hmode : s.mode with
  | selectNode => exact ⟨_, _, rfl, .of_command rfl (hs.toStored.same rfl)⟩
  | txDst => exact ⟨_, _, rfl, .of_stored (hs.toStored.same rfl) (by simp)⟩
  | txLen => exact transferTxLen_bounded byte sendOk hs.toStored
  | txPayload => exact transferTxPayload_bounded byte sendOk hs hmode
  | rxPayload => exact transferRxPayload_bounded hs.toStored hmode
  | loadBegin => exact transferLoadBegin_bounded byte hs hmode
  | loadChunkHeader => exact transferChunkHeader_bounded byte hs hmode
  | nvramApply => exact transferNvram_bounded byte hs hmode
  | loadChunkPayload =>
      obtain ⟨t, ht, hb⟩ := loadChunkByte_bounded byte hs hmode
      dsimp only
      rw [ht]
      exact ⟨t, _, rfl, hb⟩
  | command =>
      dsimp only
      cases Command.ofByte byte with
      | some c => exact execute_bounded hs hmode c
      | none => exact ⟨s, _, rfl, hs⟩

/-! ### Runs -/

theorem next_bounded (cfg : Config) {s : WifiState} (a : WifiAction) (hs : Bounded s) :
    ∃ t, (wifiMachine cfg).next s a = some t ∧ Bounded t := by
  cases a with
  | byte byte sendOk =>
      obtain ⟨t, r, ht, hb⟩ := transfer_bounded cfg byte sendOk hs
      refine ⟨t, ?_, hb⟩
      show (transfer cfg s byte sendOk).map Prod.fst = some t
      rw [ht]
      rfl
  | arrive arrival =>
      exact ⟨_, rfl, ⟨hs.toStored.same rfl, hs.tx, hs.header, hs.chunkHeader, hs.chunk⟩⟩
  | fdReady =>
      obtain ⟨t, ht, hst, hq⟩ := radioPoll_bounded cfg hs.toQueueBounded
      exact ⟨t, ht, hs.receiveOnly hst hq⟩
  | reset => exact ⟨_, rfl, .resetState s⟩

theorem exec_bounded (cfg : Config) {s : WifiState} (as : List WifiAction) (hs : Bounded s) :
    ∃ t, (wifiMachine cfg).exec s as = some t ∧ Bounded t := by
  induction as generalizing s with
  | nil => exact ⟨s, rfl, hs⟩
  | cons a as ih =>
      obtain ⟨u, hu, hub⟩ := next_bounded cfg a hs
      obtain ⟨t, ht, htb⟩ := ih hub
      exact ⟨t, Machine.exec_cons.mpr ⟨u, hu, ht⟩, htb⟩

/-- The bounds of every array the device indexes and of every counter it counts with. -/
structure InBounds (s : WifiState) : Prop where
  head : s.queueHead < wifiQueueDepth
  len : s.queueLen ≤ wifiQueueDepth
  frames : ∀ f ∈ s.frames, f.len ≤ wifiFrameSize
  tx : s.mode = .txPayload → s.txPos < s.txLen ∧ s.txLen ≤ wifiFrameSize
  rx : s.rxPos ≤ s.rxLen ∧ s.rxLen ≤ wifiFrameSize
  header : s.mode = .loadBegin ∨ s.mode = .nvramApply → s.loadHeaderPos < wifiLoadHeaderSize
  chunkHeader : s.mode = .loadChunkHeader → s.loadChunkHeaderPos < wifiLoadChunkHeaderSize
  chunk : s.mode = .loadChunkPayload →
    s.loadChunkPos < s.loadChunkLen ∧ s.load.receivedLen < s.load.expectedLen
  received : s.fw.receivedLen ≤ s.fw.expectedLen ∧ s.clm.receivedLen ≤ s.clm.expectedLen

theorem Bounded.inBounds {s : WifiState} (hs : Bounded s) : InBounds s where
  head := hs.head
  len := hs.len
  frames := by
    intro f hf
    obtain ⟨i, -, rfl⟩ := List.mem_map.mp hf
    exact hs.frames _
  tx := hs.tx
  rx := ⟨hs.rxPos, hs.rxLen⟩
  header := hs.header
  chunkHeader := hs.chunkHeader
  chunk := by
    intro hmode
    obtain ⟨hpos, -, hroom⟩ := hs.chunk hmode
    exact ⟨hpos, by omega⟩
  received := ⟨hs.fw.received, hs.clm.received⟩

/-- **In bounds.**  After a reset every list of actions is a run: no byte makes an access outside an
array, and no counter wraps; and every state reached is in bounds. -/
theorem wifi_inBounds (cfg : Config) (s : WifiState) (as : List WifiAction) :
    ∃ t, (wifiMachine cfg).exec s.resetState as = some t ∧ InBounds t := by
  obtain ⟨t, ht, hb⟩ := exec_bounded cfg as (.resetState s)
  exact ⟨t, ht, hb.inBounds⟩

end HibanaPico.Cyw43439
