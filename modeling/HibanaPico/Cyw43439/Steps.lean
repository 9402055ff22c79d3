import HibanaPico.Cyw43439.Bounds

/-!
# CYW43439 — Steps

What one byte can do, case by case.  Everything said later of runs is a case analysis over
`ByteStep`, and of a command byte over the command.

* `ByteStep`, `transfer_cases`: a byte, by mode and by where the counter of the mode stands.
* `radioPoll_receiveOnly`, `radioSend_receiveOnly`, `queuePopFor_popOnly`: what the radio and the
  queue leave alone.
-/

namespace HibanaPico.Cyw43439
open HibanaPico.Support
open HibanaPico.Transport

/-- The state once `tx_buf` holds one more byte. -/
def WifiState.txStored (s : WifiState) (byte : U8) : WifiState :=
  { s with txBuf := Function.update s.txBuf s.txPos byte, txPos := s.txPos + 1 }

/-- The state once `load_header` holds one more byte. -/
def WifiState.headerStored (s : WifiState) (byte : U8) : WifiState :=
  { s with
    loadHeader := Function.update s.loadHeader s.loadHeaderPos byte
    loadHeaderPos := s.loadHeaderPos + 1 }

/-- The state once `load_chunk_header` holds one more byte. -/
def WifiState.chunkHeaderStored (s : WifiState) (byte : U8) : WifiState :=
  { s with
    loadChunkHeader := Function.update s.loadChunkHeader s.loadChunkHeaderPos byte
    loadChunkHeaderPos := s.loadChunkHeaderPos + 1 }

/-- A load with one more byte. -/
def Load.extended (l : Load) (byte : U8) : Load :=
  { l with hash := fnv1a32Update l.hash byte, receivedLen := l.receivedLen + 1 }

/-- The state once a chunk has one more byte. -/
def WifiState.chunkStored (s : WifiState) (byte : U8) : WifiState :=
  { s.withLoad (s.load.extended byte) with
    loadChunkPos := s.loadChunkPos + 1
    mode := if s.loadChunkPos + 1 = s.loadChunkLen then .command else s.mode }

/-- What a byte leads to, and what it is answered. -/
inductive ByteStep (cfg : Config) (s : WifiState) (byte : U8) (sendOk : Bool) :
    WifiState → U8 → Prop where
  | selectNode (h : s.mode = .selectNode) :
      ByteStep cfg s byte sendOk { s with selectedNode := byte, mode := .command } 0xac
  | txDst (h : s.mode = .txDst) :
      ByteStep cfg s byte sendOk { s with txDstNode := byte, mode := .txLen } 0xac
  | txTooLong (h : s.mode = .txLen) (hlen : wifiFrameSize < byte.toNat) :
      ByteStep cfg s byte sendOk { s with overflow := true, mode := .command } 0xee
  | txEmpty (h : s.mode = .txLen) (hlen : byte = 0) (u : WifiState)
      (hu : radioSend cfg { s with txLen := 0, txPos := 0 } sendOk = some u) :
      ByteStep cfg s byte sendOk { u with mode := .command } 0xac
  | txLen (h : s.mode = .txLen) (hlen : byte.toNat ≤ wifiFrameSize) (hne : byte ≠ 0) :
      ByteStep cfg s byte sendOk
        { s with txLen := byte.toNat, txPos := 0, mode := .txPayload } 0xac
  | txLast (h : s.mode = .txPayload) (hpos : s.txPos + 1 = s.txLen) (u : WifiState)
      (hu : radioSend cfg (s.txStored byte) sendOk = some u) :
      ByteStep cfg s byte sendOk { u with mode := .command } 0xac
  | txByte (h : s.mode = .txPayload) (hpos : s.txPos + 1 ≠ s.txLen) :
      ByteStep cfg s byte sendOk (s.txStored byte) 0xac
  | rxByte (h : s.mode = .rxPayload) (hpos : s.rxPos < s.rxLen) :
      ByteStep cfg s byte sendOk
        { s with
          rxPos := s.rxPos + 1, mode := if s.rxPos + 1 ≥ s.rxLen then .command else s.mode }
        (s.rxBuf s.rxPos)
  | rxNone (h : s.mode = .rxPayload) (hpos : ¬ s.rxPos < s.rxLen) :
      ByteStep cfg s byte sendOk { s with mode := .command } 0xff
  | beginByte (h : s.mode = .loadBegin) (hpos : s.loadHeaderPos + 1 ≠ wifiLoadHeaderSize) :
      ByteStep cfg s byte sendOk (s.headerStored byte) 0xac
  | beginLast (h : s.mode = .loadBegin) (hpos : s.loadHeaderPos + 1 = wifiLoadHeaderSize) :
      ByteStep cfg s byte sendOk (loadBegin (s.headerStored byte)) 0xac
  | chunkHeaderByte (h : s.mode = .loadChunkHeader)
      (hpos : s.loadChunkHeaderPos + 1 ≠ wifiLoadChunkHeaderSize) :
      ByteStep cfg s byte sendOk (s.chunkHeaderStored byte) (if s.fwError then 0xee else 0xac)
  | chunkHeaderLast (h : s.mode = .loadChunkHeader)
      (hpos : s.loadChunkHeaderPos + 1 = wifiLoadChunkHeaderSize) :
      ByteStep cfg s byte sendOk (loadChunkReady (s.chunkHeaderStored byte))
        (if (loadChunkReady (s.chunkHeaderStored byte)).fwError then 0xee else 0xac)
  | chunkByte (h : s.mode = .loadChunkPayload) :
      ByteStep cfg s byte sendOk (s.chunkStored byte) 0xac
  | nvramByte (h : s.mode = .nvramApply) (hpos : s.loadHeaderPos + 1 ≠ wifiLoadHeaderSize) :
      ByteStep cfg s byte sendOk (s.headerStored byte) 0xac
  | nvramRefused (h : s.mode = .nvramApply) (hpos : s.loadHeaderPos + 1 = wifiLoadHeaderSize)
      (hc : ¬ (s.fw.committed = true ∧ s.clm.committed = true)) :
      ByteStep cfg s byte sendOk (loadError (s.headerStored byte)) 0xee
  | nvramApplied (h : s.mode = .nvramApply) (hpos : s.loadHeaderPos + 1 = wifiLoadHeaderSize)
      (hc : s.fw.committed = true ∧ s.clm.committed = true) :
      ByteStep cfg s byte sendOk
        { s.headerStored byte with
          nvramLen := readLe32 (s.headerStored byte).loadHeader 0
          nvramHash := readLe32 (s.headerStored byte).loadHeader 4
          nvramApplied := true, mode := .command } 0xac
  | unknown (h : s.mode = .command) (hc : Command.ofByte byte = none) :
      ByteStep cfg s byte sendOk s 0xee
  | command (h : s.mode = .command) (c : Command) (hc : Command.ofByte byte = some c)
      (t : WifiState) (r : U8) (ht : execute cfg s c = some (t, r)) :
      ByteStep cfg s byte sendOk t r

variable {cfg : Config} {s t : WifiState} {byte r : U8} {sendOk : Bool}

theorem transferTxLen_cases (hmode : s.mode = .txLen)
    (h : transferTxLen cfg s byte sendOk = some (t, r)) : ByteStep cfg s byte sendOk t r := by
  unfold transferTxLen at h
  split at h
  · cases h
    exact .txTooLong hmode ‹_›
  split at h
  · obtain ⟨u, hu, h⟩ := Option.bind_eq_some_iff.mp h
    cases h
    exact .txEmpty hmode ‹_› u hu
  · cases h
    exact .txLen hmode (Nat.not_lt.mp ‹_›) ‹_›

theorem transferTxPayload_cases (hmode : s.mode = .txPayload)
    (h : transferTxPayload cfg s byte sendOk = some (t, r)) : ByteStep cfg s byte sendOk t r := by
  obtain ⟨txBuf, hbuf, h⟩ := Option.bind_eq_some_iff.mp h
  obtain ⟨txPos, hpos, h⟩ := Option.bind_eq_some_iff.mp h
  obtain rfl := poke_eq_some hbuf
  obtain rfl := bump_eq_some hpos
  dsimp only at h
  split at h
  · obtain ⟨u, hu, h⟩ := Option.bind_eq_some_iff.mp h
    cases h
    exact .txLast hmode ‹_› u hu
  · cases h
    exact .txByte hmode ‹_›

theorem transferRxPayload_cases (hmode : s.mode = .rxPayload)
    (h : transferRxPayload s = some (t, r)) : ByteStep cfg s byte sendOk t r := by
  unfold transferRxPayload at h
  split at h
  · obtain ⟨ret, hret, h⟩ := Option.bind_eq_some_iff.mp h
    obtain ⟨rxPos, hpos, h⟩ := Option.bind_eq_some_iff.mp h
    obtain rfl := peek_eq_some hret
    obtain rfl := bump_eq_some hpos
    cases h
    exact .rxByte hmode ‹_›
  · cases h
    exact .rxNone hmode ‹_›

theorem transferLoadBegin_cases (hmode : s.mode = .loadBegin)
    (h : transferLoadBegin s byte = some (t, r)) : ByteStep cfg s byte sendOk t r := by
  obtain ⟨header, hheader, h⟩ := Option.bind_eq_some_iff.mp h
  obtain ⟨pos, hpos, h⟩ := Option.bind_eq_some_iff.mp h
  obtain rfl := poke_eq_some hheader
  obtain rfl := bump_eq_some hpos
  dsimp only at h
  by_cases hend : s.loadHeaderPos + 1 = wifiLoadHeaderSize
  · rw [if_pos hend] at h
    cases h
    exact .beginLast hmode hend
  · rw [if_neg hend] at h
    cases h
    exact .beginByte hmode hend

theorem transferChunkHeader_cases (hmode : s.mode = .loadChunkHeader)
    (h : transferChunkHeader s byte = some (t, r)) : ByteStep cfg s byte sendOk t r := by
  obtain ⟨header, hheader, h⟩ := Option.bind_eq_some_iff.mp h
  obtain ⟨pos, hpos, h⟩ := Option.bind_eq_some_iff.mp h
  obtain rfl := poke_eq_some hheader
  obtain rfl := bump_eq_some hpos
  dsimp only at h
  by_cases hend : s.loadChunkHeaderPos + 1 = wifiLoadChunkHeaderSize
  · rw [if_pos hend] at h
    cases h
    exact .chunkHeaderLast hmode hend
  · rw [if_neg hend] at h
    cases h
    exact .chunkHeaderByte hmode hend

theorem loadChunkByte_eq_some (h : loadChunkByte s byte = some t) : t = s.chunkStored byte := by
  obtain ⟨len, hlen, h⟩ := Option.bind_eq_some_iff.mp h
  obtain ⟨pos, hpos, h⟩ := Option.bind_eq_some_iff.mp h
  obtain rfl := bump_eq_some hlen
  obtain rfl := bump_eq_some hpos
  exact (Option.some.inj h).symm

theorem transferNvram_cases (hmode : s.mode = .nvramApply)
    (h : transferNvram s byte = some (t, r)) : ByteStep cfg s byte sendOk t r := by
  obtain ⟨header, hheader, h⟩ := Option.bind_eq_some_iff.mp h
  obtain ⟨pos, hpos, h⟩ := Option.bind_eq_some_iff.mp h
  obtain rfl := poke_eq_some hheader
  obtain rfl := bump_eq_some hpos
  dsimp only at h
  split at h
  · rename_i hend
    split at h
    · rename_i hc
      cases h
      refine .nvramRefused hmode hend fun hboth => ?_
      simp [hboth.1, hboth.2] at hc
    · rename_i hc
      cases h
      exact .nvramApplied hmode hend (by simpa using hc)
  · cases h
    exact .nvramByte hmode ‹_›

/-- **What a byte can do.** -/
theorem transfer_cases (h : transfer cfg s byte sendOk = some (t, r)) :
    ByteStep cfg s byte sendOk t r := by
  unfold transfer at h
  cases hmode : s.mode with
  | selectNode => rw [hmode] at h; cases h; exact .selectNode hmode
  | txDst => rw [hmode] at h; cases h; exact .txDst hmode
  | txLen => rw [hmode] at h; exact transferTxLen_cases hmode h
  | txPayload => rw [hmode] at h; exact transferTxPayload_cases hmode h
  | rxPayload => rw [hmode] at h; exact transferRxPayload_cases hmode h
  | loadBegin => rw [hmode] at h; exact transferLoadBegin_cases hmode h
  | loadChunkHeader => rw [hmode] at h; exact transferChunkHeader_cases hmode h
  | nvramApply => rw [hmode] at h; exact transferNvram_cases hmode h
  | loadChunkPayload =>
      rw [hmode] at h
      obtain ⟨u, hu, h⟩ := Option.bind_eq_some_iff.mp h
      obtain rfl := loadChunkByte_eq_some hu
      cases h
      exact .chunkByte hmode
  | command =>
      rw [hmode] at h
      dsimp only at h
      cases hc : Command.ofByte byte with
      | some c => rw [hc] at h; exact .command hmode c hc t r h
      | none => rw [hc] at h; cases h; exact .unknown hmode hc

/-! ### What the radio and the queue leave alone -/

theorem radioPoll_receiveOnly (hs : QueueBounded s) (h : radioPoll cfg s = some t) :
    ReceiveOnly s t ∧ QueueBounded t := by
  obtain ⟨u, hu, hsu⟩ := radioPoll_bounded cfg hs
  cases hu.symm.trans h
  exact hsu

theorem radioSend_receiveOnly (hs : QueueBounded s) (hlen : s.txLen ≤ wifiFrameSize)
    (h : radioSend cfg s sendOk = some t) : ReceiveOnly s t ∧ QueueBounded t := by
  obtain ⟨u, hu, hsu⟩ := radioSend_bounded cfg sendOk hs hlen
  cases hu.symm.trans h
  exact hsu

theorem queuePopFor_popOnly {node : U8} {popped : Bool} (hs : QueueBounded s)
    (hrx : s.rxLen ≤ wifiFrameSize) (h : queuePopFor s node = some (t, popped)) :
    PopOnly s t ∧ QueueBounded t ∧ t.rxLen ≤ wifiFrameSize := by
  obtain ⟨u, b, hu, hsu⟩ := queuePopFor_bounded node hs hrx
  cases hu.symm.trans h
  exact hsu

end HibanaPico.Cyw43439
