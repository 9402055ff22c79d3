import HibanaPico.Cyw43439.ReceiveQueue

/-!
# CYW43439 — Transactions

The host's side of the bus.  From the bytes it sends and the answers it gets the host knows where it
stands in a transaction; `expects` is where the device stands.  Host and device part only in two
cases: a chunk header accepted while `fw_error` is set, and an `RX_FRAME` that delivers an empty
frame.

* `HostAt.next`: the host's place after a byte and its answer.
* `WifiState.expects`, `transfer_expects`: the device's place, and that a byte moves both alike.
* `FrameDelivered`, `frame_delivered`: a frame that `STATUS` has reported is delivered.
* `transactions_iff`: when host and device stay together.
-/

namespace HibanaPico.Cyw43439
open HibanaPico.Support
open HibanaPico.Transport

/-- Where in a transaction a host stands: before a command byte, so many fixed arguments from the
end, at one of the arguments of a `TX_FRAME`, so many bytes from the end of a chunk header, or so
many bytes from the end of a payload. -/
inductive HostAt where
  | idle
  | args (left : ℕ)
  | txDst
  | txLen
  | chunkHeader (left : ℕ)
  | payload (left : ℕ)
  deriving DecidableEq, Repr

namespace HostAt

/-- Before a payload of so many bytes. -/
def body (len : ℕ) : HostAt := if len = 0 then .idle else .payload len

/-- After a command byte, answered so. -/
def started (answer : U8) : Command → HostAt
  | .selectNode => .args 1
  | .txFrame => .txDst
  | .rxFrame => .body answer.toNat
  | .fwBegin | .clmBegin | .nvramApply => .args wifiLoadHeaderSize
  | .fwChunk | .clmChunk => .chunkHeader wifiLoadChunkHeaderSize
  | _ => .idle

/-- After a byte, answered so. -/
def next (byte answer : U8) : HostAt → HostAt
  | .idle => ((Command.ofByte byte).map (started answer)).getD .idle
  | .args left => if left ≤ 1 then .idle else .args (left - 1)
  | .txDst => .txLen
  | .txLen => if answer = 0xac then .body byte.toNat else .idle
  | .chunkHeader left =>
      if left ≤ 1 then if answer = 0xac then .body byte.toNat else .idle
      else .chunkHeader (left - 1)
  | .payload left => .body (left - 1)

end HostAt

/-- Where in a transaction the device stands. -/
def WifiState.expects (s : WifiState) : HostAt :=
  match s.mode with
  | .command => .idle
  | .selectNode => .args 1
  | .txDst => .txDst
  | .txLen => .txLen
  | .txPayload => .payload (s.txLen - s.txPos)
  | .rxPayload => .payload (s.rxLen - s.rxPos)
  | .loadBegin | .nvramApply => .args (wifiLoadHeaderSize - s.loadHeaderPos)
  | .loadChunkHeader => .chunkHeader (wifiLoadChunkHeaderSize - s.loadChunkHeaderPos)
  | .loadChunkPayload => .payload (s.loadChunkLen - s.loadChunkPos)

/-- The first frame that waits for a node. -/
def WifiState.firstFor (s : WifiState) (node : U8) : Option (U8 × List U8) :=
  s.waiting.find? (·.1 = node)

/-- Its bytes; none when there is no such frame. -/
def WifiState.frameFor (s : WifiState) (node : U8) : List U8 :=
  ((s.firstFor node).map Prod.snd).getD []

/-- The last byte of a chunk header that is accepted, for a chunk with bytes, while `fw_error` is
set. -/
def WifiAction.ChunkInError (s : WifiState) : WifiAction → Prop
  | .byte last _ =>
      s.mode = .loadChunkHeader ∧ s.loadChunkHeaderPos + 1 = wifiLoadChunkHeaderSize ∧
        s.fwError = true ∧ chunkFits (s.chunkHeaderStored last) = true ∧ last ≠ 0
  | _ => False

/-- An `RX_FRAME` that delivers an empty frame. -/
def WifiAction.EmptyFrame (cfg : Config) (s : WifiState) (a : WifiAction) : Prop :=
  a.Delivers s ∧ s.fwReady = true ∧
    (radioPoll cfg s).bind (·.firstFor s.selectedNode) = some (s.selectedNode, [])

/-- Neither of the two. -/
def WifiAction.Kept (cfg : Config) (s : WifiState) (a : WifiAction) : Prop :=
  ¬ a.ChunkInError s ∧ ¬ a.EmptyFrame cfg s

instance (s : WifiState) : ∀ a : WifiAction, Decidable (a.ChunkInError s)
  | .byte last _ =>
      inferInstanceAs (Decidable (s.mode = .loadChunkHeader ∧
        s.loadChunkHeaderPos + 1 = wifiLoadChunkHeaderSize ∧ s.fwError = true ∧
        chunkFits (s.chunkHeaderStored last) = true ∧ last ≠ 0))
  | .reset | .arrive _ | .fdReady => isFalse id

instance (cfg : Config) (s : WifiState) (a : WifiAction) : Decidable (a.EmptyFrame cfg s) :=
  inferInstanceAs (Decidable (_ ∧ _ ∧ _))

instance (cfg : Config) (s : WifiState) (a : WifiAction) : Decidable (a.Kept cfg s) :=
  inferInstanceAs (Decidable (_ ∧ _))

/-- The device and a host that follows it. -/
def hostMachine (cfg : Config) : Machine (WifiState × HostAt) WifiAction where
  next p a :=
    match a with
    | .byte byte sendOk => (transfer cfg p.1 byte sendOk).map fun q => (q.1, p.2.next byte q.2)
    | .reset => some (p.1.resetState, .idle)
    | a => (p.1.next cfg a).map fun t => (t, p.2)

/-- The device is in `COMMAND` mode exactly when the host is before a command byte. -/
def InStep (p : WifiState × HostAt) : Prop := p.2 = .idle ↔ p.1.mode = .command

variable {cfg : Config} {s t : WifiState} {byte r : U8} {sendOk : Bool}

theorem expects_eq_idle : s.expects = .idle ↔ s.mode = .command := by
  unfold WifiState.expects
  cases hmode : s.mode <;> simp

theorem expects_of_command (h : s.mode = .command) : s.expects = .idle := expects_eq_idle.mpr h

theorem expects_of_txPayload (h : s.mode = .txPayload) :
    s.expects = .payload (s.txLen - s.txPos) := by rw [WifiState.expects, h]

theorem expects_of_rxPayload (h : s.mode = .rxPayload) :
    s.expects = .payload (s.rxLen - s.rxPos) := by rw [WifiState.expects, h]

theorem expects_of_header (h : s.mode = .loadBegin ∨ s.mode = .nvramApply) :
    s.expects = .args (wifiLoadHeaderSize - s.loadHeaderPos) := by
  rcases h with h | h <;> rw [WifiState.expects, h]

theorem expects_of_chunkHeader (h : s.mode = .loadChunkHeader) :
    s.expects = .chunkHeader (wifiLoadChunkHeaderSize - s.loadChunkHeaderPos) := by
  rw [WifiState.expects, h]

theorem expects_of_chunkPayload (h : s.mode = .loadChunkPayload) :
    s.expects = .payload (s.loadChunkLen - s.loadChunkPos) := by rw [WifiState.expects, h]

@[simp] theorem HostAt.body_zero : HostAt.body 0 = .idle := rfl

theorem HostAt.body_of_ne {len : ℕ} (h : len ≠ 0) : HostAt.body len = .payload len := if_neg h

/-- One byte of a payload. -/
theorem HostAt.next_payload {len pos : ℕ} (h : pos < len) :
    HostAt.next byte r (.payload (len - pos)) =
      if pos + 1 = len then .idle else .payload (len - (pos + 1)) := by
  rw [HostAt.next, Nat.sub_sub]
  split
  · rename_i hend
    rw [hend, Nat.sub_self, body_zero]
  · exact body_of_ne (by omega)

/-- One byte of the fixed arguments. -/
theorem HostAt.next_args {len pos : ℕ} (h : pos < len) :
    HostAt.next byte r (.args (len - pos)) =
      if pos + 1 = len then .idle else .args (len - (pos + 1)) := by
  rw [HostAt.next, Nat.sub_sub]
  split
  · rw [if_pos (by omega)]
  · rw [if_neg (by omega)]

theorem loadBegin_mode (s : WifiState) : (loadBegin s).mode = .command := by
  unfold loadBegin
  dsimp only
  split
  · split
    · rfl
    split <;> rfl
  · split <;> rfl
  · rfl

theorem ReceiveOnly.mode (h : ReceiveOnly s t) : t.mode = s.mode := by
  obtain ⟨_, _, _, _, _, _, rfl⟩ := h
  rfl

/-! ### One byte -/

/-- A chunk header moves host and device alike, unless the chunk is accepted in error. -/
theorem chunkReady_expects (hmode : s.mode = .loadChunkHeader)
    (hpos : s.loadChunkHeaderPos + 1 = wifiLoadChunkHeaderSize) :
    (¬ (WifiAction.byte byte sendOk).ChunkInError s →
      (loadChunkReady (s.chunkHeaderStored byte)).expects = HostAt.next byte
        (if (loadChunkReady (s.chunkHeaderStored byte)).fwError then 0xee else 0xac)
        s.expects) ∧
    ((WifiAction.byte byte sendOk).ChunkInError s →
      HostAt.next byte (if (loadChunkReady (s.chunkHeaderStored byte)).fwError then 0xee else 0xac)
        s.expects = .idle ∧ (loadChunkReady (s.chunkHeaderStored byte)).mode ≠ .command) := by
  have hhost : ∀ answer, HostAt.next byte answer s.expects =
      if answer = 0xac then .body byte.toNat else .idle := by
    intro answer
    rw [WifiState.expects, hmode]
    show HostAt.next byte answer (.chunkHeader (wifiLoadChunkHeaderSize - s.loadChunkHeaderPos)) = _
    rw [HostAt.next, if_pos (by omega)]
  have hlen : (s.chunkHeaderStored byte).loadChunkHeader 4 = byte := by
    have h4 : s.loadChunkHeaderPos = 4 := by unfold wifiLoadChunkHeaderSize at hpos; omega
    show Function.update s.loadChunkHeader s.loadChunkHeaderPos byte 4 = byte
    rw [h4, Function.update_self]
  rw [hhost]
  cases hfits : chunkFits (s.chunkHeaderStored byte) with
  | false =>
      have hready : loadChunkReady (s.chunkHeaderStored byte) =
          loadError (s.chunkHeaderStored byte) := by
        rw [loadChunkReady, hfits]
        rfl
      rw [hready]
      constructor
      · exact fun _ => expects_of_command rfl
      · rintro ⟨-, -, -, h, -⟩
        rw [hfits] at h
        cases h
  | true =>
      have hready : loadChunkReady (s.chunkHeaderStored byte) =
          { s.chunkHeaderStored byte with
            loadChunkLen := byte.toNat, loadChunkPos := 0
            mode := if byte.toNat = 0 then .command else .loadChunkPayload } := by
        rw [loadChunkReady, hfits, hlen]
        rfl
      rw [hready]
      show (_ → _ = if (if s.fwError then (0xee : U8) else 0xac) = 0xac then _ else _) ∧
        (_ → (if (if s.fwError then (0xee : U8) else 0xac) = 0xac then _ else _) = _ ∧ _)
      by_cases hzero : byte.toNat = 0
      · constructor
        · intro _
          rw [expects_of_command (if_pos hzero), hzero]
          split <;> rfl
        · rintro ⟨-, -, -, -, hne⟩
          exact absurd (BitVec.eq_of_toNat_eq hzero) hne
      · have hne : byte ≠ 0 := by rintro rfl; exact hzero rfl
        constructor
        · intro hkept
          have herror : s.fwError = false := by
            rw [Bool.eq_false_iff]
            exact fun h => hkept ⟨hmode, hpos, h, hfits, hne⟩
          rw [herror, WifiState.expects]
          show (match (if byte.toNat = 0 then Mode.command else .loadChunkPayload) with
            | _ => _) = HostAt.body byte.toNat
          rw [if_neg hzero, HostAt.body_of_ne hzero]
          rfl
        · rintro ⟨-, -, herror, -, -⟩
          rw [herror]
          refine ⟨rfl, ?_⟩
          show (if byte.toNat = 0 then Mode.command else .loadChunkPayload) ≠ .command
          rw [if_neg hzero]
          simp

/-- An `RX_FRAME` moves host and device alike, unless it delivers an empty frame. -/
theorem startRx_expects (hb : Bounded s) (hmode : s.mode = .command)
    (h : startRx cfg s = some (t, r)) :
    (¬ (s.fwReady = true ∧
        (radioPoll cfg s).bind (·.firstFor s.selectedNode) = some (s.selectedNode, [])) →
      t.expects = .body r.toNat) ∧
    (s.fwReady = true ∧
        (radioPoll cfg s).bind (·.firstFor s.selectedNode) = some (s.selectedNode, []) →
      HostAt.body r.toNat = .idle ∧ t.mode ≠ .command) := by
  rcases startRx_cases hb h with ⟨hready, rfl, rfl⟩ | ⟨hready, u, hu, hpop⟩
  · refine ⟨fun _ => expects_of_command hmode, fun hempty => ?_⟩
    rw [hready] at hempty
    cases hempty.1
  rcases hpop with ⟨ahead, f, behind, hw, hf, hahead, hside, hrx, hpos, hlen, hbuf, rfl⟩ |
      ⟨hall, rfl, rfl⟩
  · have hfirst : (radioPoll cfg s).bind (·.firstFor s.selectedNode) = some f := by
      rw [hu, Option.bind_some, WifiState.firstFor, hw]
      exact List.find?_eq_some_iff_append.mpr
        ⟨by simpa using hf, ahead, behind, rfl, fun g hg => by simpa using hahead g hg⟩
    have hsize : f.2.length < 2 ^ 8 := by
      obtain ⟨v, r', hv, hvb⟩ := startRx_bounded cfg hb hmode
      cases hv.symm.trans h
      have : t.rxLen ≤ 128 := hvb.rxLen
      omega
    have hexpects : t.expects = .payload f.2.length := by
      rw [WifiState.expects, hrx]
      show HostAt.payload (t.rxLen - t.rxPos) = _
      rw [hlen, hpos, Nat.sub_zero]
    rw [hfirst, BitVec.toNat_ofNat, Nat.mod_eq_of_lt hsize, hexpects]
    constructor
    · intro hne
      have hlen' : f.2.length ≠ 0 := fun hzero => hne ⟨hready, by
        rw [← hf, ← List.eq_nil_of_length_eq_zero hzero]⟩
      exact (HostAt.body_of_ne hlen').symm
    · rintro ⟨-, hempty⟩
      have hf' : f = (s.selectedNode, []) := Option.some.inj hempty
      rw [hf', hrx]
      exact ⟨rfl, by simp⟩
  · have hnone : (radioPoll cfg s).bind (·.firstFor s.selectedNode) = none := by
      rw [hu, Option.bind_some, WifiState.firstFor]
      exact List.find?_eq_none.mpr fun g hg => by simpa using hall g hg
    refine ⟨fun _ => expects_of_command ?_, fun hempty => ?_⟩
    · exact (radioPoll_receiveOnly hb.toQueueBounded hu).1.mode.trans hmode
    · rw [hnone] at hempty
      cases hempty.2

/-- A command that opens no transaction of more bytes leaves the device between transactions. -/
theorem execute_mode {c : Command} (hb : Bounded s) (hmode : s.mode = .command)
    (h : execute cfg s c = some (t, r)) (hidle : ∀ answer, HostAt.started answer c = .idle) :
    t.mode = .command := by
  have hs' := hb.toQueueBounded
  cases c with
  | selectNode | txFrame | rxFrame | fwBegin | clmBegin | nvramApply | fwChunk | clmChunk =>
      have := hidle 1
      simp [HostAt.started, HostAt.body] at this
  | reset | powerOn => cases h; rfl
  | status =>
      simp only [execute, status] at h
      split at h
      · cases h
        exact hmode
      · obtain ⟨u, hu, h⟩ := Option.bind_eq_some_iff.mp h
        cases h
        exact (radioPoll_receiveOnly hs' hu).1.mode.trans hmode
  | peekLabel =>
      simp only [execute] at h
      obtain ⟨u, hu, h⟩ := Option.bind_eq_some_iff.mp h
      obtain ⟨label, -, h⟩ := Option.bind_eq_some_iff.mp h
      cases h
      exact (radioPoll_receiveOnly hs' hu).1.mode.trans hmode
  | clearStatus | nodeRole | nodeId | radioMode | nodeCount | fwState => cases h; exact hmode
  | resetAssert =>
      simp only [execute] at h
      split at h
      · cases h
        rfl
      · cases h
        rfl
  | resetRelease | boot =>
      simp only [execute] at h
      split at h
      · cases h
        rfl
      · cases h
        exact hmode
  | ident =>
      simp only [execute] at h
      split at h
      · cases h
        exact hmode
      · cases h
        exact hmode
  | fwCommit =>
      simp only [execute, loadCommitFw] at h
      split at h
      · cases h
        rfl
      split at h
      · cases h
        rfl
      · cases h
        exact hmode
  | clmCommit =>
      simp only [execute, loadCommitClm] at h
      split at h
      · cases h
        rfl
      split at h
      · cases h
        rfl
      · cases h
        exact hmode

/-- A command byte moves host and device alike. -/
theorem execute_expects {c : Command} (hb : Bounded s) (hmode : s.mode = .command)
    (hrx : c ≠ .rxFrame) (h : execute cfg s c = some (t, r)) :
    t.expects = HostAt.started r c := by
  have hidle : (∀ answer, HostAt.started answer c = .idle) → t.expects = HostAt.started r c :=
    fun hall => (expects_of_command (execute_mode hb hmode h hall)).trans (hall r).symm
  cases c with
  | selectNode | txFrame | fwBegin | clmBegin | nvramApply | fwChunk | clmChunk => cases h; rfl
  | rxFrame => exact absurd rfl hrx
  | reset | powerOn | status | peekLabel | clearStatus | nodeRole | nodeId | radioMode | nodeCount
  | fwState | resetAssert | resetRelease | boot | ident | fwCommit | clmCommit =>
      exact hidle fun _ => rfl

/-- **Together.**  A byte that is neither of the two moves host and device alike. -/
theorem transfer_expects (hb : Bounded s) (hkept : (WifiAction.byte byte sendOk).Kept cfg s)
    (h : transfer cfg s byte sendOk = some (t, r)) : t.expects = HostAt.next byte r s.expects := by
  have hstep := transfer_cases h
  clear h
  cases hstep with
  | selectNode hmode => rw [expects_of_command rfl, WifiState.expects, hmode]; rfl
  | txDst hmode =>
      have hs : s.expects = .txDst := by rw [WifiState.expects, hmode]
      rw [hs]
      rfl
  | txTooLong hmode hlen =>
      have hs : s.expects = .txLen := by rw [WifiState.expects, hmode]
      rw [hs, expects_of_command rfl]
      rfl
  | txEmpty hmode hlen u hu =>
      have hs : s.expects = .txLen := by rw [WifiState.expects, hmode]
      rw [hs, expects_of_command rfl, hlen]
      rfl
  | txLen hmode hlen hne =>
      have hs : s.expects = .txLen := by rw [WifiState.expects, hmode]
      have hpos : byte.toNat ≠ 0 := fun h => hne (BitVec.eq_of_toNat_eq h)
      rw [hs, expects_of_txPayload rfl]
      exact (HostAt.body_of_ne hpos).symm
  | txLast hmode hpos u hu =>
      rw [expects_of_txPayload hmode, HostAt.next_payload (hb.tx hmode).1, if_pos hpos]
      exact expects_of_command rfl
  | txByte hmode hpos =>
      rw [expects_of_txPayload hmode, HostAt.next_payload (hb.tx hmode).1, if_neg hpos]
      exact expects_of_txPayload (s := s.txStored byte) hmode
  | rxByte hmode hpos =>
      rw [expects_of_rxPayload hmode, HostAt.next_payload hpos]
      by_cases hend : s.rxPos + 1 = s.rxLen
      · rw [if_pos hend]
        exact expects_of_command (if_pos (Nat.le_of_eq hend.symm))
      · rw [if_neg hend]
        exact expects_of_rxPayload ((if_neg (by omega)).trans hmode)
  | rxNone hmode hpos =>
      rw [expects_of_rxPayload hmode, Nat.sub_eq_zero_of_le (Nat.not_lt.mp hpos)]
      exact expects_of_command rfl
  | beginByte hmode hpos =>
      rw [expects_of_header (.inl hmode), HostAt.next_args (hb.header (.inl hmode)), if_neg hpos]
      exact expects_of_header (s := s.headerStored byte) (.inl hmode)
  | beginLast hmode hpos =>
      rw [expects_of_header (.inl hmode), HostAt.next_args (hb.header (.inl hmode)), if_pos hpos]
      exact expects_of_command (loadBegin_mode _)
  | chunkHeaderByte hmode hpos =>
      have hlt := hb.chunkHeader hmode
      rw [expects_of_chunkHeader hmode, HostAt.next, if_neg (by omega), Nat.sub_sub]
      exact expects_of_chunkHeader (s := s.chunkHeaderStored byte) hmode
  | chunkHeaderLast hmode hpos => exact (chunkReady_expects hmode hpos).1 hkept.1
  | chunkByte hmode =>
      rw [expects_of_chunkPayload hmode, HostAt.next_payload (hb.chunk hmode).1]
      by_cases hend : s.loadChunkPos + 1 = s.loadChunkLen
      · rw [if_pos hend]
        exact expects_of_command (s := s.chunkStored byte) (if_pos hend)
      · rw [if_neg hend]
        exact expects_of_chunkPayload (s := s.chunkStored byte) ((if_neg hend).trans hmode)
  | nvramByte hmode hpos =>
      rw [expects_of_header (.inr hmode), HostAt.next_args (hb.header (.inr hmode)), if_neg hpos]
      exact expects_of_header (s := s.headerStored byte) (.inr hmode)
  | nvramRefused hmode hpos hc =>
      rw [expects_of_header (.inr hmode), HostAt.next_args (hb.header (.inr hmode)), if_pos hpos]
      exact expects_of_command rfl
  | nvramApplied hmode hpos hc =>
      rw [expects_of_header (.inr hmode), HostAt.next_args (hb.header (.inr hmode)), if_pos hpos]
      exact expects_of_command rfl
  | unknown hmode hc =>
      rw [expects_of_command hmode, HostAt.next, hc]
      rfl
  | command hmode c hc t r ht =>
      rw [expects_of_command hmode, HostAt.next, hc]
      by_cases hrx : c = .rxFrame
      · subst hrx
        exact (startRx_expects hb hmode ht).1 fun hempty => hkept.2 ⟨⟨hmode, hc⟩, hempty⟩
      · exact execute_expects hb hmode hrx ht

/-- **Apart.**  After either of the two the host is before a command byte, and the device is not in
`COMMAND` mode. -/
theorem transfer_apart (hb : Bounded s) (hkept : ¬ (WifiAction.byte byte sendOk).Kept cfg s)
    (h : transfer cfg s byte sendOk = some (t, r)) :
    HostAt.next byte r s.expects = .idle ∧ t.mode ≠ .command := by
  by_cases hchunk : (WifiAction.byte byte sendOk).ChunkInError s
  · obtain ⟨hmode, hpos, -⟩ := id hchunk
    have hstep := transfer_cases h
    clear h
    cases hstep with
    | chunkHeaderLast => exact (chunkReady_expects hmode hpos).2 hchunk
    | chunkHeaderByte _ hne => exact absurd hpos hne
    | selectNode hmode' | txDst hmode' | txTooLong hmode' | txEmpty hmode' | txLen hmode'
    | txLast hmode' | txByte hmode' | rxByte hmode' | rxNone hmode' | beginByte hmode'
    | beginLast hmode' | chunkByte hmode' | nvramByte hmode' | nvramRefused hmode'
    | nvramApplied hmode' | unknown hmode' | command hmode' =>
        rw [hmode] at hmode'
        cases hmode'
  · have hempty : (WifiAction.byte byte sendOk).EmptyFrame cfg s := by
      by_contra hempty
      exact hkept ⟨hchunk, hempty⟩
    obtain ⟨⟨hmode, hc⟩, hfirst⟩ := hempty
    have hexec : startRx cfg s = some (t, r) := by
      rw [transfer, hmode, hc] at h
      exact h
    rw [expects_of_command hmode, HostAt.next, hc]
    exact (startRx_expects hb hmode hexec).2 hfirst

/-! ### A frame that `STATUS` reports -/

/-- The answer to an action that is a byte. -/
def answered (cfg : Config) (s : WifiState) : WifiAction → List U8
  | .byte code sendOk => ((transfer cfg s code sendOk).map Prod.snd).toList
  | _ => []

def WifiAction.isByte : WifiAction → Bool
  | .byte _ _ => true
  | _ => false

/-- What may come between a `STATUS` and the next `RX_FRAME`: datagrams, and bytes that leave the
firmware running and the selected node as it is. -/
def WifiAction.Between (cfg : Config) (s : WifiState) (a : WifiAction) : Prop :=
  match a with
  | .byte code sendOk => ¬ a.Delivers s ∧ ∀ t r, transfer cfg s code sendOk = some (t, r) →
      t.fwReady = true ∧ t.selectedNode = s.selectedNode
  | .reset => False
  | _ => True

/-- When a `STATUS` reports `RX_READY`, the next `RX_FRAME` delivers the first frame that waits for
the selected node: it pops it, answers its length, and then its bytes, in order. -/
def FrameDelivered (cfg : Config) (s : WifiState) : Prop :=
  ∀ sendOk t r, s.mode = .command →
    transfer cfg s (Command.code .status) sendOk = some (t, r) → r &&& statusRxReady ≠ 0 →
    ∃ f : U8 × List U8, t.firstFor t.selectedNode = some f ∧ f.1 = t.selectedNode ∧ ∀ between u,
      (wifiMachine cfg).Along (WifiAction.Between cfg) t between →
      (wifiMachine cfg).exec t between = some u → u.mode = .command →
      ∀ sendOk' v r', transfer cfg u (Command.code .rxFrame) sendOk' = some (v, r') →
        v.events.getLast? = some (.popped f) ∧
        r'.toNat = f.2.length ∧ ∀ reading : List WifiAction, (∀ a ∈ reading, a ≠ .reset) →
          reading.countP WifiAction.isByte ≤ f.2.length →
          (wifiMachine cfg).collect (answered cfg) v reading =
            f.2.take (reading.countP WifiAction.isByte)

@[simp] theorem Command.ofByte_code (c : Command) : Command.ofByte c.code = some c := by
  cases c <;> rfl

theorem firstFor_append {node : U8} {f : U8 × List U8} {more : List (U8 × List U8)}
    (hw : t.waiting = s.waiting ++ more) (h : s.firstFor node = some f) :
    t.firstFor node = some f := by
  rw [WifiState.firstFor, hw, List.find?_append, ← WifiState.firstFor, h, Option.some_or]

/-- An action that is neither a reset nor an `RX_FRAME` leaves the frames that wait in place. -/
theorem next_firstFor {a : WifiAction} {node : U8} {f : U8 × List U8} (hb : Bounded s)
    (hr : ¬ a.Resets s) (hrx : ¬ a.Delivers s) (h : (wifiMachine cfg).next s a = some t)
    (hf : s.firstFor node = some f) : t.firstFor node = some f := by
  have hreceives := next_receives_of_not_delivers hb hr hrx h
  have hpops := hreceives.pops
  rw [List.append_nil] at hpops
  obtain ⟨more, hmore⟩ := KeyedQueue.Steps.waiting_of_no_pop hreceives.steps
    (congrArg List.length hpops)
  exact firstFor_append hmore hf

/-- The polling of the radio leaves the frames that wait in place. -/
theorem radioPoll_firstFor {node : U8} {f : U8 × List U8} (hb : Bounded s)
    (h : radioPoll cfg s = some t) (hf : s.firstFor node = some f) : t.firstFor node = some f :=
  next_firstFor (a := .fdReady) hb id id h hf

/-- A `STATUS` that reports `RX_READY` has found a frame. -/
theorem status_rxReady (hb : Bounded s) (h : status cfg s = some (t, r))
    (hready : r &&& statusRxReady ≠ 0) :
    s.fwReady = true ∧ ReceiveOnly s t ∧ Bounded t ∧
      ∃ f, t.firstFor t.selectedNode = some f := by
  unfold status at h
  split at h
  · cases h
    exfalso
    apply hready
    split <;> rfl
  · rename_i hnot
    obtain ⟨u, hu, h⟩ := Option.bind_eq_some_iff.mp h
    obtain ⟨hsu, hq⟩ := radioPoll_receiveOnly hb.toQueueBounded hu
    cases h
    refine ⟨by simp_all, hsu, hb.receiveOnly hsu hq, ?_⟩
    cases hhas : hasFrameFor t t.selectedNode with
    | false =>
        exfalso
        apply hready
        rw [hhas]
        cases t.overflow <;> rfl
    | true =>
        obtain ⟨offset, hoffset⟩ := Option.isSome_iff_exists.mp hhas
        obtain ⟨-, hnode, hsplit, -⟩ := firstOffset_eq_some hoffset
        have hmem : (t.queue (Ring.slot wifiQueueDepth t.queueHead offset)).content ∈
            t.waiting := by
          refine List.mem_map.mpr ⟨_, ?_, rfl⟩
          rw [hsplit]
          exact List.mem_append_right _ List.mem_cons_self
        have hsome := List.find?_isSome (p := fun g : U8 × List U8 =>
          decide (g.1 = t.selectedNode)) |>.mpr
          ⟨_, hmem, decide_eq_true (by simpa using hnode)⟩
        exact Option.isSome_iff_exists.mp hsome

/-- What may come between leaves the frame in place, and the device ready to deliver it. -/
theorem between_firstFor {between : List WifiAction} {f : U8 × List U8} {u : WifiState}
    (hb : Bounded t) (hready : t.fwReady = true) (hf : t.firstFor t.selectedNode = some f)
    (hbetween : (wifiMachine cfg).Along (WifiAction.Between cfg) t between)
    (h : (wifiMachine cfg).exec t between = some u) :
    Bounded u ∧ u.fwReady = true ∧ u.firstFor u.selectedNode = some f := by
  refine Machine.exec_invariant (M := wifiMachine cfg) (P := WifiAction.Between cfg)
    (I := fun v => Bounded v ∧ v.fwReady = true ∧ v.firstFor v.selectedNode = some f) ?_
    ⟨hb, hready, hf⟩ hbetween h
  rintro v a w ⟨hvb, hvr, hvf⟩ ha hw
  refine ⟨next_bounded_of hvb hw, ?_⟩
  cases a with
  | reset => cases ha
  | arrive arrival => cases hw; exact ⟨hvr, hvf⟩
  | fdReady =>
      have hfirst := radioPoll_firstFor hvb hw hvf
      obtain ⟨⟨_, _, _, _, _, _, rfl⟩, -⟩ := radioPoll_receiveOnly hvb.toQueueBounded hw
      exact ⟨hvr, hfirst⟩
  | byte code sendOk =>
      obtain ⟨hrx, hstays⟩ := ha
      obtain ⟨⟨w', r⟩, ht, hfst⟩ := Option.map_eq_some_iff.mp hw
      cases hfst
      obtain ⟨hready', hnode⟩ := hstays w' r ht
      have hr : ¬ (WifiAction.byte code sendOk).Resets v := fun hres => by
        have := (next_of_resets hres hw).2
        rw [hready'] at this
        cases this
      exact ⟨hready', by rw [hnode]; exact next_firstFor hvb hr hrx hw hvf⟩

/-- The bytes that are left of `rx_buf` are answered one by one. -/
theorem reading_answered (reading : List WifiAction) (hreset : ∀ a ∈ reading, a ≠ .reset)
    (hb : Bounded s) (hmode : s.rxPos < s.rxLen → s.mode = .rxPayload)
    (hcount : reading.countP WifiAction.isByte ≤ s.rxLen - s.rxPos) :
    (wifiMachine cfg).collect (answered cfg) s reading =
      (s.rxBuf.slice s.rxPos (s.rxLen - s.rxPos)).take (reading.countP WifiAction.isByte) := by
  induction reading generalizing s with
  | nil => rfl
  | cons a as ih =>
      have hreset' : ∀ a ∈ as, a ≠ .reset := fun b hm => hreset b (List.mem_cons_of_mem _ hm)
      obtain ⟨t, ht, htb⟩ := next_bounded cfg a hb
      rw [Machine.collect_cons ht]
      cases a with
      | reset => exact absurd rfl (hreset .reset List.mem_cons_self)
      | arrive arrival => cases ht; exact ih hreset' htb hmode hcount
      | fdReady =>
          obtain ⟨⟨_, _, _, _, _, _, rfl⟩, -⟩ := radioPoll_receiveOnly hb.toQueueBounded ht
          exact ih hreset' htb hmode hcount
      | byte code sendOk =>
          rw [List.countP_cons_of_pos (show WifiAction.isByte (.byte code sendOk) = true from rfl)]
            at hcount ⊢
          have hpos : s.rxPos < s.rxLen := by omega
          have hrx := hmode hpos
          obtain ⟨⟨t', r⟩, htr, hfst⟩ := Option.map_eq_some_iff.mp ht
          obtain rfl : t' = t := hfst
          have hstep := transfer_cases htr
          rw [answered, htr]
          have hboth : r = s.rxBuf s.rxPos ∧ t'.rxBuf = s.rxBuf ∧ t'.rxLen = s.rxLen ∧
              t'.rxPos = s.rxPos + 1 ∧ (t'.rxPos < t'.rxLen → t'.mode = .rxPayload) := by
            cases hstep with
            | rxByte => exact ⟨rfl, rfl, rfl, rfl, fun h => (if_neg (Nat.not_le.mpr h)).trans hrx⟩
            | rxNone _ hnot => exact absurd hpos hnot
            | selectNode hm | txDst hm | txTooLong hm | txEmpty hm | txLen hm | txLast hm
            | txByte hm | beginByte hm | beginLast hm | chunkHeaderByte hm | chunkHeaderLast hm
            | chunkByte hm | nvramByte hm | nvramRefused hm | nvramApplied hm | unknown hm
            | command hm =>
                rw [hrx] at hm
                cases hm
          obtain ⟨rfl, hbuf, hlen, hnext, hstay⟩ := hboth
          rw [ih hreset' htb hstay (by omega), hbuf, hlen, hnext,
            show s.rxLen - s.rxPos = s.rxLen - (s.rxPos + 1) + 1 by omega, Cells.slice_succ,
            List.take_succ_cons]
          rfl

/-- `RX_FRAME` answers the length of the first frame of the selected node that waits once the radio
has been polled, and then its bytes, in order. -/
theorem startRx_reads {v : WifiState} (hb : Bounded s) (hmode : s.mode = .command)
    (hready : s.fwReady = true) (h : startRx cfg s = some (v, r)) :
    ∃ w, radioPoll cfg s = some w ∧
      (∀ f, w.firstFor s.selectedNode = some f → v.events.getLast? = some (.popped f)) ∧
      r.toNat = (w.frameFor s.selectedNode).length ∧
      ∀ reading : List WifiAction, (∀ a ∈ reading, a ≠ .reset) →
        reading.countP WifiAction.isByte ≤ r.toNat →
        (wifiMachine cfg).collect (answered cfg) v reading =
          (w.frameFor s.selectedNode).take (reading.countP WifiAction.isByte) := by
  obtain ⟨v', r', hv', hvb⟩ := startRx_bounded cfg hb hmode
  cases hv'.symm.trans h
  rcases startRx_cases hb h with ⟨hnot, -⟩ | ⟨-, w, hw, hpop⟩
  · rw [hready] at hnot
    cases hnot
  refine ⟨w, hw, ?_⟩
  rcases hpop with ⟨ahead, g, behind, hwait, hg, hahead, hside, hrx, hpos, hlen, hbuf, rfl⟩ |
    ⟨hall, rfl, rfl⟩
  · have hfirst : w.firstFor s.selectedNode = some g := by
      rw [WifiState.firstFor, hwait]
      exact List.find?_eq_some_iff_append.mpr
        ⟨by simpa using hg, ahead, behind, rfl, fun e he => by simpa using hahead e he⟩
    have hframe : w.frameFor s.selectedNode = g.2 := by rw [WifiState.frameFor, hfirst]; rfl
    have hsize : g.2.length ≤ 128 := hlen ▸ hvb.rxLen
    have hr : (BitVec.ofNat 8 g.2.length).toNat = g.2.length := by
      rw [BitVec.toNat_ofNat]
      exact Nat.mod_eq_of_lt (by omega)
    have hevents : v.events = w.events ++ [.popped g] := congrArg (·.2.1) hside
    rw [hframe, hr]
    refine ⟨fun f hf => ?_, rfl, fun reading hreset hcount => ?_⟩
    · obtain rfl := Option.some.inj (hfirst.symm.trans hf)
      rw [hevents, List.getLast?_concat]
    rw [reading_answered reading hreset hvb (fun _ => hrx) (by omega), hpos, Nat.sub_zero, hbuf]
  · have hnone : w.firstFor s.selectedNode = none :=
      List.find?_eq_none.mpr fun g hg => by simpa using hall g hg
    have hframe : w.frameFor s.selectedNode = [] := by rw [WifiState.frameFor, hnone]; rfl
    rw [hframe]
    refine ⟨fun f hf => (by rw [hnone] at hf; cases hf), rfl, fun reading hreset hcount => ?_⟩
    rw [reading_answered reading hreset hvb (fun hlt => absurd hlt (Nat.lt_irrefl 0)) hcount]
    rfl

/-- **Reported, then delivered.** -/
theorem frame_delivered (hb : Bounded s) : FrameDelivered cfg s := by
  intro sendOk t r hmode h hready
  have hstatus : status cfg s = some (t, r) := by
    rw [transfer, hmode, Command.ofByte_code] at h
    exact h
  obtain ⟨hfw, hst, htb, f, hf⟩ := status_rxReady hb hstatus hready
  have hfw' : t.fwReady = true := by
    obtain ⟨_, _, _, _, _, _, rfl⟩ := hst
    exact hfw
  refine ⟨f, hf, by simpa using List.find?_some hf, ?_⟩
  intro between u hbetween hu humode sendOk' v r' hv
  obtain ⟨hub, hufw, huf⟩ := between_firstFor htb hfw' hf hbetween hu
  have hexec : startRx cfg u = some (v, r') := by
    rw [transfer, humode, Command.ofByte_code] at hv
    exact hv
  obtain ⟨w, hw, hpopped, hlen, hreads⟩ := startRx_reads hub humode hufw hexec
  have hfirst := radioPoll_firstFor hub hw huf
  have hframe : w.frameFor u.selectedNode = f.2 := by rw [WifiState.frameFor, hfirst]; rfl
  rw [hframe] at hlen hreads
  exact ⟨hpopped f hfirst, hlen, fun reading hreset hcount => hreads reading hreset (hlen ▸ hcount)⟩

/-! ### Runs -/

/-- A step after which host and device are in step, from a state whose frames are delivered as
reported. -/
def Framed (cfg : Config) (p : WifiState × HostAt) (a : WifiAction) : Prop :=
  (∀ q, (hostMachine cfg).next p a = some q → InStep q) ∧ FrameDelivered cfg p.1

/-- One action of host and device. -/
theorem hostMachine_next {p q : WifiState × HostAt} {a : WifiAction} (hb : Bounded p.1)
    (hat : p.2 = p.1.expects) (h : (hostMachine cfg).next p a = some q) :
    Bounded q.1 ∧ (a.Kept cfg p.1 → q.2 = q.1.expects) ∧ (¬ a.Kept cfg p.1 → ¬ InStep q) := by
  cases a with
  | byte byte sendOk =>
      obtain ⟨⟨t, r⟩, ht, rfl⟩ := Option.map_eq_some_iff.mp h
      obtain ⟨t', r', ht', htb⟩ := transfer_bounded cfg byte sendOk hb
      cases ht'.symm.trans ht
      refine ⟨htb, fun hkept => ?_, fun hkept hstep => ?_⟩
      · rw [hat]
        exact (transfer_expects hb hkept ht).symm
      · rw [hat] at hstep
        obtain ⟨hidle, hmode⟩ := transfer_apart hb hkept ht
        exact hmode (hstep.mp hidle)
  | reset =>
      cases h
      exact ⟨.resetState _, fun _ => rfl, fun hkept => absurd ⟨id, fun he => he.1⟩ hkept⟩
  | arrive arrival =>
      cases h
      exact ⟨⟨hb.toStored.same rfl, hb.tx, hb.header, hb.chunkHeader, hb.chunk⟩, fun _ => hat,
        fun hkept => absurd ⟨id, fun he => he.1⟩ hkept⟩
  | fdReady =>
      obtain ⟨t, ht, rfl⟩ := Option.map_eq_some_iff.mp h
      obtain ⟨hst, hq⟩ := radioPoll_receiveOnly hb.toQueueBounded ht
      refine ⟨hb.receiveOnly hst hq, fun _ => ?_, fun hkept => absurd ⟨id, fun he => he.1⟩ hkept⟩
      obtain ⟨_, _, _, _, _, _, rfl⟩ := hst
      exact hat

/-- **Framing.**  Along a run from a reset every step leaves host and device in step, and every
frame `STATUS` reports is delivered, exactly when no chunk with bytes is accepted while `fw_error`
is set and no `RX_FRAME` delivers an empty frame. -/
theorem transactions_iff (cfg : Config) (s : WifiState) (as : List WifiAction) :
    (hostMachine cfg).Along (Framed cfg) (s.resetState, .idle) as ↔
      (hostMachine cfg).Along (fun p a => a.Kept cfg p.1) (s.resetState, .idle) as := by
  refine Machine.along_iff_of_invariant (I := fun p => Bounded p.1 ∧ p.2 = p.1.expects) ?_ ?_
    ⟨.resetState s, rfl⟩
  · rintro p a ⟨hb, hat⟩
    constructor
    · intro hframed
      by_contra hkept
      have hdefined : ∃ q, (hostMachine cfg).next p a = some q := by
        cases a with
        | byte byte sendOk =>
            obtain ⟨t, r, ht, -⟩ := transfer_bounded cfg byte sendOk hb
            exact ⟨_, Option.map_eq_some_iff.mpr ⟨(t, r), ht, rfl⟩⟩
        | reset => exact ⟨_, rfl⟩
        | arrive arrival => exact ⟨_, rfl⟩
        | fdReady =>
            obtain ⟨t, ht, -⟩ := radioPoll_bounded cfg hb.toQueueBounded
            exact ⟨_, Option.map_eq_some_iff.mpr ⟨t, ht, rfl⟩⟩
      obtain ⟨q, hq⟩ := hdefined
      exact (hostMachine_next hb hat hq).2.2 hkept (hframed.1 q hq)
    · intro hkept
      refine ⟨fun q hq => ?_, frame_delivered hb⟩
      rw [InStep, (hostMachine_next hb hat hq).2.1 hkept]
      exact expects_eq_idle
  · rintro p a q ⟨hb, hat⟩ hkept hq
    obtain ⟨hqb, hqat, -⟩ := hostMachine_next hb hat hq
    exact ⟨hqb, hqat hkept⟩

/-- A run whose last step leaves the host before a command byte and the device elsewhere. -/
theorem not_framed_of_apart {p : WifiState × HostAt} {as : List WifiAction} {a : WifiAction}
    (h : (((hostMachine cfg).exec p as).bind fun q => ((hostMachine cfg).next q a).map fun q' =>
      (decide (q'.2 = .idle), decide (q'.1.mode = .command))) = some (true, false)) :
    ¬ (hostMachine cfg).Along (Framed cfg) p (as ++ [a]) := by
  obtain ⟨q, hq, h⟩ := Option.bind_eq_some_iff.mp h
  obtain ⟨q', hq', h⟩ := Option.map_eq_some_iff.mp h
  obtain ⟨hidle, hmode⟩ := Prod.mk.inj h
  refine Machine.not_along_of_exec hq fun hframed => ?_
  exact of_decide_eq_false hmode ((hframed.1 q' hq').mp (of_decide_eq_true hidle))

/-- A commit that does not match sets `fw_error`; the chunk header after it is accepted, and
answered as if it were not.  And a peer's datagram with an empty frame leaves the device in its
payload. -/
theorem transactions_apart :
    ¬ (hostMachine meshConfig).Along (Framed meshConfig) (WifiState.init.resetState, .idle)
      (spi [0x52, 0x54, 0x9f, 0x80, 1, 0, 0, 0, 0, 0, 0, 0, 0x82, 0x81, 0, 0, 0, 0] ++
        [.byte 1 true]) ∧
    ¬ (hostMachine { meshConfig with radioPortBase := 0, radioPeerPort := 9002 }).Along
      (Framed { meshConfig with radioPortBase := 0, radioPeerPort := 9002 })
      (WifiState.init.resetState, .idle)
      ((bootSession ++ .arrive (.datagram [1, 0] ⟨true, true, 9002⟩) :: spi [0x10, 1]) ++
        [.byte 0x40 true]) :=
  ⟨not_framed_of_apart (by decide +kernel), not_framed_of_apart (by decide +kernel)⟩

end HibanaPico.Cyw43439
