import HibanaPico.Cyw43439.BootGate
import HibanaPico.Cyw43439.Transactions

/-!
# CYW43439 — Host

What a host that keeps to the order of the commands gets when it boots the device: it loads any two
images, in chunks of any lengths, and every byte is acknowledged.

* `clock`: bytes on the bus, and their answers.
* `acked_chunk`, `acked_chunks`, `acked_load`: a chunk, the chunks of an image, an image.
* `bootBytes`, `boot_completes`: from power on to a booted device.
-/

namespace HibanaPico.Cyw43439
open HibanaPico.Support
open HibanaPico.Transport

/-- Bytes on the bus, one after the other, and their answers. -/
def clock (cfg : Config) : WifiState → List U8 → Option (WifiState × List U8)
  | s, [] => some (s, [])
  | s, byte :: bytes => do
      let (t, r) ← transfer cfg s byte true
      let (u, rs) ← clock cfg t bytes
      some (u, r :: rs)

variable {cfg : Config} {s t u : WifiState} {bytes bytes' answers answers' : List U8}

theorem clock_cons {byte r : U8} (h : transfer cfg s byte true = some (u, r))
    (h' : clock cfg u bytes = some (t, answers)) :
    clock cfg s (byte :: bytes) = some (t, r :: answers) := by
  rw [clock, h]
  show (clock cfg u bytes).bind _ = _
  rw [h']
  rfl

theorem clock_append (h : clock cfg s bytes = some (u, answers))
    (h' : clock cfg u bytes' = some (t, answers')) :
    clock cfg s (bytes ++ bytes') = some (t, answers ++ answers') := by
  induction bytes generalizing s answers with
  | nil => cases h; exact h'
  | cons byte bytes ih =>
      obtain ⟨⟨v, r⟩, hv, h⟩ := Option.bind_eq_some_iff.mp h
      obtain ⟨⟨w, rs⟩, hw, h⟩ := Option.bind_eq_some_iff.mp h
      cases h
      exact clock_cons hv (ih hw)

/-- The bytes are a run of the device. -/
theorem exec_of_clock (h : clock cfg s bytes = some (t, answers)) :
    (wifiMachine cfg).exec s (spi bytes) = some t := by
  induction bytes generalizing s answers with
  | nil => cases h; rfl
  | cons byte bytes ih =>
      obtain ⟨⟨v, r⟩, hv, h⟩ := Option.bind_eq_some_iff.mp h
      obtain ⟨⟨w, rs⟩, hw, h⟩ := Option.bind_eq_some_iff.mp h
      cases h
      exact Machine.exec_cons.mpr ⟨v, Option.map_eq_some_iff.mpr ⟨_, hv, rfl⟩, ih hw⟩

/-- A command byte, between transactions. -/
theorem transfer_code (hmode : s.mode = .command) (c : Command) :
    transfer cfg s c.code true = execute cfg s c := by
  rw [transfer, hmode]
  dsimp only
  rw [Command.ofByte_code]

/-- Every byte is answered with `0xac`. -/
def Acked (cfg : Config) (s : WifiState) (bytes : List U8) (t : WifiState) : Prop :=
  clock cfg s bytes = some (t, List.replicate bytes.length 0xac)

theorem Acked.nil (s : WifiState) : Acked cfg s [] s := rfl

theorem Acked.cons {byte : U8} (h : transfer cfg s byte true = some (u, 0xac))
    (h' : Acked cfg u bytes t) : Acked cfg s (byte :: bytes) t := clock_cons h h'

theorem Acked.append (h : Acked cfg s bytes u) (h' : Acked cfg u bytes' t) :
    Acked cfg s (bytes ++ bytes') t := by
  rw [Acked, List.length_append, List.replicate_add]
  exact clock_append h h'

/-! ### Words on the bus -/

/-- A word, little endian. -/
def le32 (w : U32) : List U8 :=
  [w.setWidth 8, (w >>> 8).setWidth 8, (w >>> 16).setWidth 8, (w >>> 24).setWidth 8]

@[simp] theorem length_le32 (w : U32) : (le32 w).length = 4 := rfl

theorem readLe32_of_slice {c : Cells U8} {off : ℕ} {w : U32} (h : c.slice off 4 = le32 w) :
    readLe32 c off = w := by
  simp only [Cells.slice_succ, Cells.slice_zero, le32, List.cons.injEq, and_true] at h
  obtain ⟨h₀, h₁, h₂, h₃⟩ := h
  unfold readLe32
  rw [h₀, h₁, show off + 2 = off + 1 + 1 from rfl, h₂, show off + 3 = off + 1 + 1 + 1 from rfl, h₃]
  ext i hi
  simp only [BitVec.getElem_or, BitVec.getElem_shiftLeft, BitVec.getElem_setWidth,
    BitVec.getLsbD_setWidth, BitVec.getLsbD_ushiftRight]
  -- one of the four bytes has the bit
  by_cases h8 : i < 8
  · simp [h8, show i < 16 by omega, show i < 24 by omega, BitVec.getLsbD_eq_getElem hi]
  by_cases h16 : i < 16
  · simp [h8, h16, show i < 24 by omega, show i - 8 < 8 by omega,
      show 8 + (i - 8) = i by omega, BitVec.getLsbD_eq_getElem hi]
  by_cases h24 : i < 24
  · simp [h8, h16, h24, show ¬ i - 8 < 8 by omega, show i - 16 < 8 by omega,
      show 16 + (i - 16) = i by omega, BitVec.getLsbD_eq_getElem hi]
  · simp [h8, h16, h24, show ¬ i - 8 < 8 by omega, show ¬ i - 16 < 8 by omega,
      show i - 24 < 8 by omega, show 24 + (i - 24) = i by omega, BitVec.getLsbD_eq_getElem hi]

/-! ### Headers -/

/-- A header byte that is not the last one. -/
theorem transfer_headerByte (hmode : s.mode = .loadBegin ∨ s.mode = .nvramApply)
    (hpos : s.loadHeaderPos + 1 < wifiLoadHeaderSize) (byte : U8) :
    transfer cfg s byte true = some (s.headerStored byte, 0xac) := by
  have hpoke := poke_of_lt (c := s.loadHeader) (x := byte) (Nat.lt_of_succ_lt hpos)
  have hbump : bump 8 s.loadHeaderPos = some (s.loadHeaderPos + 1) :=
    bump_of_lt (by unfold wifiLoadHeaderSize at hpos; omega)
  have hne : s.loadHeaderPos + 1 ≠ wifiLoadHeaderSize := Nat.ne_of_lt hpos
  rcases hmode with hmode | hmode
  · rw [transfer, hmode]
    simp only [transferLoadBegin, hpoke, hbump, Option.bind_eq_bind, Option.bind_some, if_neg hne]
    rfl
  · rw [transfer, hmode]
    simp only [transferNvram, hpoke, hbump, Option.bind_eq_bind, Option.bind_some, if_neg hne]
    rfl

/-- The state once `load_header` holds these bytes too. -/
def WifiState.headerHolds (s : WifiState) (xs : List U8) : WifiState :=
  { s with
    loadHeader := s.loadHeader.store s.loadHeaderPos xs
    loadHeaderPos := s.loadHeaderPos + xs.length }

theorem WifiState.headerHolds_snoc (s : WifiState) (xs : List U8) (x : U8) :
    (s.headerHolds xs).headerStored x = s.headerHolds (xs ++ [x]) := by
  unfold headerHolds headerStored
  rw [List.length_append, List.length_singleton]
  show ({ s with loadHeader := Function.update _ _ _, loadHeaderPos := _ } : WifiState) = _
  rw [Cells.store_snoc]
  rfl

/-- All but the last of the header bytes. -/
theorem acked_header {xs : List U8} (hmode : s.mode = .loadBegin ∨ s.mode = .nvramApply)
    (hpos : s.loadHeaderPos + xs.length < wifiLoadHeaderSize) :
    Acked cfg s xs (s.headerHolds xs) := by
  induction xs using List.reverseRecOn with
  | nil =>
      unfold WifiState.headerHolds
      rw [Cells.store_nil]
      rfl
  | append_singleton xs x ih =>
      rw [List.length_append, List.length_singleton] at hpos
      have hbyte : transfer cfg (s.headerHolds xs) x true =
          some ((s.headerHolds xs).headerStored x, 0xac) :=
        transfer_headerByte (s := s.headerHolds xs) hmode
          (by show s.loadHeaderPos + xs.length + 1 < _; omega) x
      rw [← WifiState.headerHolds_snoc]
      exact (ih (by omega)).append (.cons hbyte (.nil _))

theorem transfer_beginLast (hmode : s.mode = .loadBegin)
    (hpos : s.loadHeaderPos + 1 = wifiLoadHeaderSize) (byte : U8) :
    transfer cfg s byte true = some (loadBegin (s.headerStored byte), 0xac) := by
  have hlt : s.loadHeaderPos + 1 = 8 := hpos
  have hpoke := poke_of_lt (n := wifiLoadHeaderSize) (c := s.loadHeader) (x := byte)
    (i := s.loadHeaderPos) (by unfold wifiLoadHeaderSize; omega)
  have hbump : bump 8 s.loadHeaderPos = some (s.loadHeaderPos + 1) := bump_of_lt (by omega)
  rw [transfer, hmode]
  simp only [transferLoadBegin, hpoke, hbump, Option.bind_eq_bind, Option.bind_some, if_pos hpos]
  rfl

theorem transfer_nvramLast (hmode : s.mode = .nvramApply)
    (hpos : s.loadHeaderPos + 1 = wifiLoadHeaderSize) (hfw : s.fw.committed = true)
    (hclm : s.clm.committed = true) (byte : U8) :
    transfer cfg s byte true = some
      ({ s.headerStored byte with
          nvramLen := readLe32 (s.headerStored byte).loadHeader 0
          nvramHash := readLe32 (s.headerStored byte).loadHeader 4
          nvramApplied := true, mode := .command }, 0xac) := by
  have hlt : s.loadHeaderPos + 1 = 8 := hpos
  have hpoke := poke_of_lt (n := wifiLoadHeaderSize) (c := s.loadHeader) (x := byte)
    (i := s.loadHeaderPos) (by unfold wifiLoadHeaderSize; omega)
  have hbump : bump 8 s.loadHeaderPos = some (s.loadHeaderPos + 1) := bump_of_lt (by omega)
  rw [transfer, hmode]
  simp only [transferNvram, hpoke, hbump, Option.bind_eq_bind, Option.bind_some, if_pos hpos, hfw,
    hclm, Bool.not_true, Bool.or_self, Bool.false_eq_true, if_false]
  rfl

/-! ### Chunks -/

/-- The state once `load_chunk_header` holds these bytes too. -/
def WifiState.chunkHeaderHolds (s : WifiState) (xs : List U8) : WifiState :=
  { s with
    loadChunkHeader := s.loadChunkHeader.store s.loadChunkHeaderPos xs
    loadChunkHeaderPos := s.loadChunkHeaderPos + xs.length }

theorem WifiState.chunkHeaderHolds_snoc (s : WifiState) (xs : List U8) (x : U8) :
    (s.chunkHeaderHolds xs).chunkHeaderStored x = s.chunkHeaderHolds (xs ++ [x]) := by
  unfold chunkHeaderHolds chunkHeaderStored
  rw [List.length_append, List.length_singleton]
  show ({ s with loadChunkHeader := Function.update _ _ _, loadChunkHeaderPos := _ } :
    WifiState) = _
  rw [Cells.store_snoc]
  rfl

/-- A byte of a chunk header, answered for a device that is not in error. -/
theorem transfer_chunkHeader (hmode : s.mode = .loadChunkHeader)
    (hpos : s.loadChunkHeaderPos + 1 ≤ wifiLoadChunkHeaderSize) {byte : U8}
    (h : (if s.loadChunkHeaderPos + 1 = wifiLoadChunkHeaderSize then
      loadChunkReady (s.chunkHeaderStored byte) else s.chunkHeaderStored byte) = t)
    (herror : t.fwError = false) : transfer cfg s byte true = some (t, 0xac) := by
  have hlt : s.loadChunkHeaderPos + 1 ≤ 5 := hpos
  have hpoke := poke_of_lt (n := wifiLoadChunkHeaderSize) (c := s.loadChunkHeader) (x := byte)
    (i := s.loadChunkHeaderPos) (by unfold wifiLoadChunkHeaderSize; omega)
  have hbump : bump 8 s.loadChunkHeaderPos = some (s.loadChunkHeaderPos + 1) :=
    bump_of_lt (by omega)
  have hanswer : (if t.fwError then (0xee : U8) else 0xac) = 0xac := by
    rw [herror]
    rfl
  rw [transfer, hmode]
  simp only [transferChunkHeader, hpoke, hbump, Option.bind_eq_bind, Option.bind_some]
  show some (_, if WifiState.fwError (if s.loadChunkHeaderPos + 1 = wifiLoadChunkHeaderSize then
    loadChunkReady (s.chunkHeaderStored byte) else s.chunkHeaderStored byte) then _ else _) = _
  rw [h, hanswer]
  exact congrArg (fun u => some (u, 0xac)) h

/-- All but the last of the chunk header bytes. -/
theorem acked_chunkHeader {xs : List U8} (hmode : s.mode = .loadChunkHeader)
    (herror : s.fwError = false)
    (hpos : s.loadChunkHeaderPos + xs.length < wifiLoadChunkHeaderSize) :
    Acked cfg s xs (s.chunkHeaderHolds xs) := by
  induction xs using List.reverseRecOn with
  | nil =>
      unfold WifiState.chunkHeaderHolds
      rw [Cells.store_nil]
      rfl
  | append_singleton xs x ih =>
      rw [List.length_append, List.length_singleton] at hpos
      have hbyte : transfer cfg (s.chunkHeaderHolds xs) x true =
          some ((s.chunkHeaderHolds xs).chunkHeaderStored x, 0xac) := by
        refine transfer_chunkHeader (s := s.chunkHeaderHolds xs) hmode ?_ (if_neg ?_) herror
        · show s.loadChunkHeaderPos + xs.length + 1 ≤ _
          omega
        · show ¬ s.loadChunkHeaderPos + xs.length + 1 = _
          omega
      rw [← WifiState.chunkHeaderHolds_snoc]
      exact (ih (by omega)).append (.cons hbyte (.nil _))

/-- A load with more bytes. -/
def Load.extendedBy (l : Load) (xs : List U8) : Load := xs.foldl Load.extended l

theorem Load.extendedBy_eq (l : Load) (xs : List U8) :
    l.extendedBy xs =
      { l with
        receivedLen := l.receivedLen + xs.length, hash := xs.foldl fnv1a32Update l.hash } := by
  induction xs generalizing l with
  | nil => rfl
  | cons x xs ih =>
      have hfold : l.extendedBy (x :: xs) = (l.extended x).extendedBy xs := rfl
      rw [hfold, ih, List.length_cons]
      simp only [Load.extended, List.foldl_cons, Nat.add_assoc, Nat.add_comm 1]

@[simp] theorem Load.extendedBy_append (l : Load) (xs ys : List U8) :
    l.extendedBy (xs ++ ys) = (l.extendedBy xs).extendedBy ys := List.foldl_append

@[simp] theorem Load.receivedLen_extendedBy (l : Load) (xs : List U8) :
    (l.extendedBy xs).receivedLen = l.receivedLen + xs.length := by rw [extendedBy_eq]

@[simp] theorem Load.expectedLen_extendedBy (l : Load) (xs : List U8) :
    (l.extendedBy xs).expectedLen = l.expectedLen := by rw [extendedBy_eq]

@[simp] theorem Load.started_extendedBy (l : Load) (xs : List U8) :
    (l.extendedBy xs).started = l.started := by rw [extendedBy_eq]

@[simp] theorem Load.committed_extendedBy (l : Load) (xs : List U8) :
    (l.extendedBy xs).committed = l.committed := by rw [extendedBy_eq]

/-- The state once a chunk has these bytes too. -/
def WifiState.chunkHolds (s : WifiState) (xs : List U8) : WifiState :=
  { s.withLoad (s.load.extendedBy xs) with
    loadChunkPos := s.loadChunkPos + xs.length
    mode := if s.loadChunkPos + xs.length = s.loadChunkLen then .command else s.mode }

theorem WifiState.withLoad_load (s : WifiState) : s.withLoad s.load = s := by
  unfold withLoad load
  split
  · rfl
  · rfl

theorem WifiState.chunkHolds_snoc (s : WifiState) (xs : List U8) (x : U8)
    (hpos : s.loadChunkPos + xs.length ≠ s.loadChunkLen) :
    (s.chunkHolds xs).chunkStored x = s.chunkHolds (xs ++ [x]) := by
  have hload : (s.chunkHolds xs).load = s.load.extendedBy xs :=
    load_withLoad s (s.load.extendedBy xs)
  have hmode : (s.chunkHolds xs).mode = s.mode := if_neg hpos
  unfold chunkStored
  rw [hload, hmode, chunkHolds, chunkHolds, Load.extendedBy_append, List.length_append,
    List.length_singleton]
  simp only [withLoad]
  by_cases hkind : s.loadKind = .fw
  · simp only [if_pos hkind]
    rfl
  · simp only [if_neg hkind]
    rfl

/-- Bytes of a chunk. -/
theorem acked_chunkPayload {xs : List U8}
    (hmode : s.mode = if s.loadChunkPos = s.loadChunkLen then .command else .loadChunkPayload)
    (hpos : s.loadChunkPos + xs.length ≤ s.loadChunkLen) (hlen : s.loadChunkLen < 2 ^ 8)
    (hroom : s.load.receivedLen + xs.length < 2 ^ 32) :
    Acked cfg s xs (s.chunkHolds xs) := by
  induction xs using List.reverseRecOn with
  | nil =>
      have hsame : s.chunkHolds [] = s := by
        unfold WifiState.chunkHolds
        have hnone : s.load.extendedBy [] = s.load := rfl
        rw [hnone, s.withLoad_load, List.length_nil, Nat.add_zero]
        split
        · rename_i hend
          rw [if_pos hend] at hmode
          rw [← hmode]
        · rfl
      rw [hsame]
      rfl
  | append_singleton xs x ih =>
      rw [List.length_append, List.length_singleton] at hpos hroom
      have hne : s.loadChunkPos + xs.length ≠ s.loadChunkLen := by omega
      have hmode' : (s.chunkHolds xs).mode = .loadChunkPayload := by
        have hstart : s.loadChunkPos ≠ s.loadChunkLen := by omega
        rw [if_neg hstart] at hmode
        exact (if_neg hne).trans hmode
      have hload : (s.chunkHolds xs).load = s.load.extendedBy xs :=
        WifiState.load_withLoad s (s.load.extendedBy xs)
      have hlenBump : bump 32 (s.chunkHolds xs).load.receivedLen =
          some ((s.chunkHolds xs).load.receivedLen + 1) := by
        rw [hload, Load.receivedLen_extendedBy]
        exact bump_of_lt (by omega)
      have hposBump : bump 8 (s.chunkHolds xs).loadChunkPos =
          some ((s.chunkHolds xs).loadChunkPos + 1) :=
        bump_of_lt (by show s.loadChunkPos + xs.length + 1 < _; omega)
      have hbyte : transfer cfg (s.chunkHolds xs) x true =
          some ((s.chunkHolds xs).chunkStored x, 0xac) := by
        rw [transfer, hmode']
        simp only [loadChunkByte, hlenBump, hposBump, Option.bind_eq_bind, Option.bind_some]
        rfl
      rw [← WifiState.chunkHolds_snoc s xs x hne]
      exact (ih (by omega) (by omega)).append (.cons hbyte (.nil _))

/-! ### Images -/

/-- The load of a kind. -/
def WifiState.loadAt (s : WifiState) : LoadKind → Load
  | .fw => s.fw
  | _ => s.clm

/-- The load of a kind, changed. -/
def WifiState.setLoad (s : WifiState) (kind : LoadKind) (l : Load) : WifiState :=
  match kind with
  | .fw => { s with fw := l }
  | _ => { s with clm := l }

/-- `t` is `s` but for what a load leaves behind in the registers of its headers. -/
def Scratch (s t : WifiState) : Prop :=
  ∃ loadKind loadHeader loadHeaderPos loadChunkHeader loadChunkHeaderPos loadChunkLen loadChunkPos,
    t = { s with
      loadKind, loadHeader, loadHeaderPos, loadChunkHeader, loadChunkHeaderPos, loadChunkLen
      loadChunkPos }

theorem Scratch.refl (s : WifiState) : Scratch s s := ⟨_, _, _, _, _, _, _, rfl⟩

theorem Scratch.trans (h : Scratch s u) (h' : Scratch u t) : Scratch s t := by
  obtain ⟨_, _, _, _, _, _, _, rfl⟩ := h
  obtain ⟨_, _, _, _, _, _, _, rfl⟩ := h'
  exact ⟨_, _, _, _, _, _, _, rfl⟩

theorem Scratch.setLoad (h : Scratch s t) (kind : LoadKind) (l : Load) :
    Scratch (s.setLoad kind l) (t.setLoad kind l) := by
  obtain ⟨_, _, _, _, _, _, _, rfl⟩ := h
  cases kind <;> exact ⟨_, _, _, _, _, _, _, rfl⟩

theorem Scratch.loadAt (h : Scratch s t) (kind : LoadKind) : t.loadAt kind = s.loadAt kind := by
  obtain ⟨_, _, _, _, _, _, _, rfl⟩ := h
  cases kind <;> rfl

@[simp] theorem WifiState.loadAt_setLoad (s : WifiState) (kind : LoadKind) (l : Load) :
    (s.setLoad kind l).loadAt kind = l := by
  cases kind <;> rfl

@[simp] theorem WifiState.setLoad_setLoad (s : WifiState) (kind : LoadKind) (l l' : Load) :
    (s.setLoad kind l).setLoad kind l' = s.setLoad kind l' := by
  cases kind <;> rfl

/-- The commands of a kind. -/
def beginOf : LoadKind → Command
  | .fw => .fwBegin
  | _ => .clmBegin

def chunkOf : LoadKind → Command
  | .fw => .fwChunk
  | _ => .clmChunk

def commitOf : LoadKind → Command
  | .fw => .fwCommit
  | _ => .clmCommit

/-- A chunk with its command and header. -/
def chunkBytes (kind : LoadKind) (off : ℕ) (chunk : List U8) : List U8 :=
  (chunkOf kind).code ::
    ((le32 (BitVec.ofNat 32 off) ++ [BitVec.ofNat 8 chunk.length]) ++ chunk)

/-- Chunks one after the other. -/
def chunksBytes (kind : LoadKind) : ℕ → List (List U8) → List U8
  | _, [] => []
  | off, chunk :: chunks =>
      chunkBytes kind off chunk ++ chunksBytes kind (off + chunk.length) chunks

/-- An image, in the chunks its host cuts it into. -/
structure Image where
  chunks : List (List U8)
  short : ∀ chunk ∈ chunks, chunk.length < 2 ^ 8
  size : chunks.flatten.length < 2 ^ 32

namespace Image

def content (image : Image) : List U8 := image.chunks.flatten

/-- What a `BEGIN` announces: the length of the image and its hash. -/
def header (image : Image) : List U8 :=
  le32 (BitVec.ofNat 32 image.content.length) ++ le32 (fnv1a32 image.content)

/-- The image loaded. -/
def loadBytes (image : Image) (kind : LoadKind) : List U8 :=
  (beginOf kind).code :: image.header ++
    (chunksBytes kind 0 image.chunks ++ [(commitOf kind).code])

/-- What is kept of the image once it is committed. -/
def loaded (image : Image) : Load :=
  { expectedLen := image.content.length, expectedHash := fnv1a32 image.content
    receivedLen := image.content.length, hash := fnv1a32 image.content, started := true
    committed := true }

end Image

/-- A load that takes another chunk of this length. -/
structure Load.Takes (l : Load) (len : ℕ) : Prop where
  started : l.started = true
  notCommitted : l.committed = false
  room : l.receivedLen + len ≤ l.expectedLen
  expected : l.expectedLen < 2 ^ 32

variable (cfg) in
/-- **One chunk.** -/
theorem acked_chunk {kind : LoadKind} {chunk : List U8} (hkind : kind ≠ .none)
    (hmode : s.mode = .command) (herror : s.fwError = false)
    (htakes : (s.loadAt kind).Takes chunk.length) (hchunk : chunk.length < 2 ^ 8) :
    ∃ t, Acked cfg s (chunkBytes kind (s.loadAt kind).receivedLen chunk) t ∧
      Scratch (s.setLoad kind ((s.loadAt kind).extendedBy chunk)) t := by
  have hroom := htakes.room
  have hexpected := htakes.expected
  let off : U32 := BitVec.ofNat 32 (s.loadAt kind).receivedLen
  let len : U8 := BitVec.ofNat 8 chunk.length
  have hoff : off.toNat = (s.loadAt kind).receivedLen := by
    show (BitVec.ofNat 32 _).toNat = _
    rw [BitVec.toNat_ofNat]
    exact Nat.mod_eq_of_lt (by omega)
  have hlen : len.toNat = chunk.length := by
    show (BitVec.ofNat 8 _).toNat = _
    rw [BitVec.toNat_ofNat]
    exact Nat.mod_eq_of_lt hchunk
  -- the command, the header, and the bytes
  let s₁ : WifiState :=
    { s with
      loadKind := kind, loadChunkHeaderPos := 0, loadChunkHeader := fun _ => 0
      mode := .loadChunkHeader }
  have hcommand : transfer cfg s (chunkOf kind).code true = some (s₁, 0xac) := by
    rw [transfer_code hmode]
    cases kind with
    | fw => rfl
    | clm => rfl
    | none => exact absurd rfl hkind
  let s₂ : WifiState := s₁.chunkHeaderHolds (le32 off ++ [len])
  let s₃ : WifiState :=
    { s₂ with
      loadChunkLen := chunk.length, loadChunkPos := 0
      mode := if chunk.length = 0 then .command else .loadChunkPayload }
  have hload : s₂.load = s.loadAt kind := by
    cases kind with
    | fw => rfl
    | clm => rfl
    | none => exact absurd rfl hkind
  have hready : loadChunkReady s₂ = s₃ := by
    have hslice : (s₂.loadChunkHeader).slice 0 4 = le32 off :=
      Cells.slice_store_part _ [] (le32 off) [len]
    have hlast : s₂.loadChunkHeader 4 = len := by
      have := Cells.slice_store_part s₁.loadChunkHeader (le32 off) [len] []
      rw [List.append_nil] at this
      exact List.head_eq_of_cons_eq this
    have hfits : chunkFits s₂ = true := by
      unfold chunkFits
      rw [hload, readLe32_of_slice hslice, hlast, hoff, hlen, htakes.started, htakes.notCommitted]
      have hkind' : s₂.loadKind ≠ .none := hkind
      simp only [hkind', ne_eq, not_false_eq_true, decide_true, Bool.not_false, Bool.and_true,
        beq_self_eq_true, Bool.and_eq_true, decide_eq_true_eq, true_and]
      omega
    unfold loadChunkReady
    rw [hfits, hlast, hlen]
    rfl
  have hheader : Acked cfg s₁ (le32 off ++ [len]) s₃ := by
    have hfirst : Acked cfg s₁ (le32 off) (s₁.chunkHeaderHolds (le32 off)) :=
      acked_chunkHeader rfl herror (by show 0 + 4 < 5; omega)
    have hlast : transfer cfg (s₁.chunkHeaderHolds (le32 off)) len true = some (s₃, 0xac) := by
      refine transfer_chunkHeader (s := s₁.chunkHeaderHolds (le32 off)) rfl (Nat.le_refl _) ?_
        herror
      refine (if_pos (show 4 + 1 = 5 from rfl)).trans ?_
      rw [WifiState.chunkHeaderHolds_snoc]
      exact hready
    exact hfirst.append (.cons hlast (.nil _))
  have hpayload : Acked cfg s₃ chunk (s₃.chunkHolds chunk) := by
    refine acked_chunkPayload ?_ ?_ hchunk ?_
    · show (if chunk.length = 0 then Mode.command else .loadChunkPayload) =
        if 0 = chunk.length then _ else _
      simp only [eq_comm]
    · exact Nat.le_of_eq (Nat.zero_add _)
    · show s₂.load.receivedLen + _ < _
      rw [hload]
      omega
  refine ⟨s₃.chunkHolds chunk, .cons hcommand (hheader.append hpayload), ?_⟩
  have hload₃ : s₃.load = s.loadAt kind := hload
  have hend : (if 0 + chunk.length = chunk.length then Mode.command else s₃.mode) = s.mode :=
    (if_pos (Nat.zero_add _)).trans hmode.symm
  have hholds : s₃.chunkHolds chunk =
      { s₃.withLoad ((s.loadAt kind).extendedBy chunk) with
        loadChunkPos := 0 + chunk.length, mode := s.mode } := by
    rw [← hend, ← hload₃]
    rfl
  rw [hholds]
  refine ⟨kind, s.loadHeader, s.loadHeaderPos, s₃.loadChunkHeader, s₃.loadChunkHeaderPos,
    chunk.length, 0 + chunk.length, ?_⟩
  cases kind with
  | fw => rfl
  | clm => rfl
  | none => exact absurd rfl hkind

@[simp] theorem WifiState.setLoad_loadAt (s : WifiState) (kind : LoadKind) :
    s.setLoad kind (s.loadAt kind) = s := by
  cases kind <;> rfl

/-- A load leaves the rest of the device as it is. -/
theorem Scratch.same {kind : LoadKind} {l : Load} (h : Scratch (s.setLoad kind l) t) :
    t.mode = s.mode ∧ t.fwError = s.fwError ∧ t.fwReady = s.fwReady ∧ t.loadAt kind = l := by
  obtain ⟨_, _, _, _, _, _, _, rfl⟩ := h
  cases kind <;> exact ⟨rfl, rfl, rfl, rfl⟩

theorem Load.Takes.left {l : Load} {m n : ℕ} (h : l.Takes (m + n)) : l.Takes m :=
  ⟨h.started, h.notCommitted, by have := h.room; omega, h.expected⟩

theorem Load.Takes.right {l : Load} {xs : List U8} {n : ℕ} (h : l.Takes (xs.length + n)) :
    (l.extendedBy xs).Takes n where
  started := (Load.started_extendedBy l xs).trans h.started
  notCommitted := (Load.committed_extendedBy l xs).trans h.notCommitted
  room := by
    have := h.room
    rw [Load.receivedLen_extendedBy, Load.expectedLen_extendedBy]
    omega
  expected := (Load.expectedLen_extendedBy l xs).trans_lt h.expected

variable (cfg) in
/-- Chunks in order, whatever their lengths. -/
theorem acked_chunks {kind : LoadKind} {chunks : List (List U8)} (hkind : kind ≠ .none)
    (hmode : s.mode = .command) (herror : s.fwError = false)
    (hshort : ∀ chunk ∈ chunks, chunk.length < 2 ^ 8)
    (htakes : (s.loadAt kind).Takes chunks.flatten.length) :
    ∃ t, Acked cfg s (chunksBytes kind (s.loadAt kind).receivedLen chunks) t ∧
      Scratch (s.setLoad kind ((s.loadAt kind).extendedBy chunks.flatten)) t := by
  induction chunks generalizing s with
  | nil =>
      refine ⟨s, .nil s, ?_⟩
      have hsame : (s.loadAt kind).extendedBy (List.flatten []) = s.loadAt kind := rfl
      rw [hsame, WifiState.setLoad_loadAt]
      exact .refl s
  | cons chunk chunks ih =>
      rw [List.flatten_cons, List.length_append] at htakes
      obtain ⟨u, hu, hsu⟩ := acked_chunk cfg hkind hmode herror htakes.left
        (hshort chunk List.mem_cons_self)
      obtain ⟨hmode', herror', -, hload⟩ := hsu.same
      obtain ⟨t, ht, hut⟩ := ih (s := u) (hmode'.trans hmode) (herror'.trans herror)
        (fun c hc => hshort c (List.mem_cons_of_mem _ hc)) (hload ▸ htakes.right)
      refine ⟨t, ?_, ?_⟩
      · rw [hload, Load.receivedLen_extendedBy] at ht
        exact hu.append ht
      · have hboth := hsu.setLoad kind ((s.loadAt kind).extendedBy (chunk :: chunks).flatten)
        rw [WifiState.setLoad_setLoad] at hboth
        rw [hload, ← Load.extendedBy_append, ← List.flatten_cons] at hut
        exact hboth.trans hut

/-- A load of this kind may begin. -/
def WifiState.Opens (s : WifiState) : LoadKind → Prop
  | .fw => s.powered = true ∧ s.resetAsserted = false ∧ s.probed = true
  | .clm => s.fw.committed = true
  | .none => False

/-- The last byte of a header opens the load. -/
theorem loadBegin_of_opens {kind : LoadKind} (hkind : kind = s.loadKind) (hopens : s.Opens kind)
    (herror : s.fwError = false) (hready : s.fwReady = false) :
    loadBegin s =
      { s.setLoad kind (.begun (readLe32 s.loadHeader 0) (readLe32 s.loadHeader 4)) with
        mode := .command } := by
  cases s
  dsimp only at hkind herror hready
  subst hkind herror hready
  cases kind with
  | fw =>
      obtain ⟨hpowered, hreset, hprobed⟩ := hopens
      dsimp only at hpowered hreset hprobed
      subst hpowered hreset hprobed
      rfl
  | clm =>
      have hcommitted : Load.committed _ = true := hopens
      show (if _ then loadError _ else _) = _
      rw [if_neg (by rw [hcommitted]; exact Bool.false_ne_true)]
      rfl
  | none => exact hopens.elim

/-- The two words of a header. -/
theorem readLe32_words (hpos : s.loadHeaderPos = 0) (len hash : U32) :
    readLe32 (s.headerHolds (le32 len ++ le32 hash)).loadHeader 0 = len ∧
      readLe32 (s.headerHolds (le32 len ++ le32 hash)).loadHeader 4 = hash := by
  have hheader : (s.headerHolds (le32 len ++ le32 hash)).loadHeader =
      s.loadHeader.store 0 ([] ++ le32 len ++ le32 hash) := by
    show s.loadHeader.store s.loadHeaderPos _ = _
    rw [hpos]
    rfl
  rw [hheader]
  refine ⟨readLe32_of_slice (Cells.slice_store_part _ [] _ _), readLe32_of_slice ?_⟩
  have hsecond := Cells.slice_store_part s.loadHeader (le32 len) (le32 hash) []
  rwa [List.append_nil] at hsecond

/-- A header of two words, up to what its last byte does. -/
theorem acked_words (hmode : s.mode = .loadBegin ∨ s.mode = .nvramApply)
    (hpos : s.loadHeaderPos = 0) (len hash : U32)
    (h : ∀ v last, v.mode = s.mode → v.loadHeaderPos + 1 = wifiLoadHeaderSize →
      v.fw = s.fw → v.clm = s.clm → v.headerStored last = s.headerHolds (le32 len ++ le32 hash) →
        transfer cfg v last true = some (t, 0xac)) :
    Acked cfg s (le32 len ++ le32 hash) t := by
  obtain ⟨front, last, hsplit⟩ : ∃ front last, le32 len ++ le32 hash = front ++ [last] :=
    ⟨_, _, (List.dropLast_append_getLast (by simp [le32])).symm⟩
  have hcount : front.length = 7 := by
    have := congrArg List.length hsplit
    rw [List.length_append, List.length_append, length_le32, length_le32] at this
    exact Nat.succ.inj this.symm
  have hfront : Acked cfg s front (s.headerHolds front) :=
    acked_header hmode (by rw [hpos, hcount]; show 0 + 7 < 8; omega)
  have hlast := h (s.headerHolds front) last rfl
    (by show s.loadHeaderPos + front.length + 1 = 8; omega) rfl rfl
    (by rw [WifiState.headerHolds_snoc, ← hsplit])
  rw [hsplit]
  exact hfront.append (.cons hlast (.nil _))

variable (cfg) in
/-- `BEGIN` with its header. -/
theorem acked_begin {kind : LoadKind} (hopens : s.Opens kind) (hmode : s.mode = .command)
    (herror : s.fwError = false) (hready : s.fwReady = false) (len hash : U32) :
    ∃ t, Acked cfg s ((beginOf kind).code :: (le32 len ++ le32 hash)) t ∧
      Scratch (s.setLoad kind (.begun len hash)) t := by
  let s₁ : WifiState :=
    { s with loadKind := kind, loadHeaderPos := 0, loadHeader := fun _ => 0, mode := .loadBegin }
  have hcommand : transfer cfg s (beginOf kind).code true = some (s₁, 0xac) := by
    rw [transfer_code hmode]
    cases kind with
    | fw => rfl
    | clm => rfl
    | none => exact hopens.elim
  let s₂ : WifiState := s₁.headerHolds (le32 len ++ le32 hash)
  have hheader : Acked cfg s₁ (le32 len ++ le32 hash) (loadBegin s₂) := by
    refine acked_words (.inl rfl) rfl len hash fun v last hv hpos _ _ hstored => ?_
    rw [show s₂ = v.headerStored last from hstored.symm]
    exact transfer_beginLast hv hpos last
  obtain ⟨hlen, hhash⟩ := readLe32_words (s := s₁) rfl len hash
  have hopens₂ : s₂.Opens kind := by cases kind <;> exact hopens
  refine ⟨loadBegin s₂, .cons hcommand hheader, ?_⟩
  rw [loadBegin_of_opens (s := s₂) rfl hopens₂ herror hready, hlen, hhash]
  refine ⟨kind, s₂.loadHeader, s₂.loadHeaderPos, s.loadChunkHeader, s.loadChunkHeaderPos,
    s.loadChunkLen, s.loadChunkPos, ?_⟩
  rw [← hmode]
  cases kind <;> rfl

/-- `COMMIT` of a load that is complete. -/
theorem acked_commit {kind : LoadKind} {l : Load} (hkind : kind ≠ .none)
    (hmode : s.mode = .command) (hload : s.loadAt kind = l) (hstarted : l.started = true)
    (hcomplete : l.complete = true) (hfw : kind = .clm → s.fw.committed = true) :
    Acked cfg s [(commitOf kind).code] (s.setLoad kind { l with committed := true }) := by
  subst hload
  refine .cons ?_ (.nil _)
  rw [transfer_code hmode]
  cases kind with
  | fw =>
      show some (loadCommitFw s) = _
      unfold loadCommitFw
      rw [show s.fw.started = true from hstarted, show s.fw.complete = true from hcomplete]
      rfl
  | clm =>
      show some (loadCommitClm s) = _
      unfold loadCommitClm
      rw [hfw rfl, show s.clm.started = true from hstarted,
        show s.clm.complete = true from hcomplete]
      rfl
  | none => exact absurd rfl hkind

variable (cfg) in
/-- **An image.** -/
theorem acked_load {kind : LoadKind} (hopens : s.Opens kind) (image : Image)
    (hmode : s.mode = .command) (herror : s.fwError = false) (hready : s.fwReady = false) :
    ∃ t, Acked cfg s (image.loadBytes kind) t ∧ Scratch (s.setLoad kind image.loaded) t := by
  have hkind : kind ≠ .none := by
    rintro rfl
    exact hopens
  have hsize : (BitVec.ofNat 32 image.content.length).toNat = image.content.length := by
    rw [BitVec.toNat_ofNat]
    exact Nat.mod_eq_of_lt image.size
  let begun : Load := .begun (BitVec.ofNat 32 image.content.length) (fnv1a32 image.content)
  obtain ⟨u, hu, hsu⟩ := acked_begin cfg hopens hmode herror hready
    (BitVec.ofNat 32 image.content.length) (fnv1a32 image.content)
  obtain ⟨humode, huerror, -, hubegun⟩ := hsu.same
  have htakes : (u.loadAt kind).Takes image.content.length := by
    rw [hubegun]
    exact ⟨rfl, rfl, by show 0 + _ ≤ BitVec.toNat _; rw [hsize]; omega, BitVec.isLt _⟩
  obtain ⟨v, hv, huv⟩ := acked_chunks cfg hkind (humode.trans hmode)
    (huerror.trans herror) image.short htakes
  obtain ⟨hvmode, -, -, hvload⟩ := huv.same
  have hsv := (hsu.setLoad kind ((u.loadAt kind).extendedBy image.content)).trans huv
  rw [WifiState.setLoad_setLoad, hubegun] at hsv
  have hend : begun.extendedBy image.content = { image.loaded with committed := false } := by
    rw [Load.extendedBy_eq]
    show Load.mk (BitVec.toNat _) _ (0 + _) _ _ _ = _
    rw [hsize, Nat.zero_add]
    rfl
  have hvend : v.loadAt kind = { image.loaded with committed := false } := by
    rw [hvload, hubegun]
    exact hend
  have hcommit : Acked cfg v [(commitOf kind).code] (v.setLoad kind image.loaded) := by
    refine acked_commit hkind (hvmode.trans (humode.trans hmode)) hvend rfl ?_ fun hclm => ?_
    · unfold Load.complete
      simp [Image.loaded]
    · subst hclm
      obtain ⟨_, _, _, _, _, _, _, rfl⟩ := hsv
      exact hopens
  refine ⟨v.setLoad kind image.loaded, ?_, ?_⟩
  · rw [hubegun] at hv
    exact hu.append (hv.append hcommit)
  · have hlast := hsv.setLoad kind image.loaded
    rw [WifiState.setLoad_setLoad] at hlast
    exact hlast

variable (cfg) in
/-- `NVRAM_APPLY` with its header. -/
theorem acked_nvram (hmode : s.mode = .command) (hfw : s.fw.committed = true)
    (hclm : s.clm.committed = true) (len hash : U32) :
    ∃ t, Acked cfg s (Command.code .nvramApply :: (le32 len ++ le32 hash)) t ∧
      Scratch { s with nvramLen := len, nvramHash := hash, nvramApplied := true } t := by
  let s₁ : WifiState :=
    { s with loadHeaderPos := 0, loadHeader := fun _ => 0, mode := .nvramApply }
  have hcommand : transfer cfg s (Command.code .nvramApply) true = some (s₁, 0xac) :=
    transfer_code hmode _
  let s₂ : WifiState := s₁.headerHolds (le32 len ++ le32 hash)
  obtain ⟨hlen, hhash⟩ := readLe32_words (s := s₁) rfl len hash
  refine ⟨{ s₂ with nvramLen := len, nvramHash := hash, nvramApplied := true, mode := .command },
    .cons hcommand (acked_words (.inr rfl) rfl len hash
      fun v last hv hpos hvfw hvclm hstored => ?_), ?_⟩
  · have hlast := @transfer_nvramLast cfg v hv hpos ((congrArg Load.committed hvfw).trans hfw)
      ((congrArg Load.committed hvclm).trans hclm) last
    rw [hstored, hlen, hhash] at hlast
    exact hlast
  · rw [← hmode]
    exact ⟨s.loadKind, s₂.loadHeader, s₂.loadHeaderPos, s.loadChunkHeader, s.loadChunkHeaderPos,
      s.loadChunkLen, s.loadChunkPos, rfl⟩

/-! ### From power on to a booted device -/

/-- What a host sends to boot the device: power, the identity, two images, the NVRAM, `BOOT`. -/
def bootBytes (fw clm : Image) (nvramLen nvramHash : U32) : List U8 :=
  [Command.code .powerOn, Command.code .resetRelease, Command.code .ident] ++
    (fw.loadBytes .fw ++ (clm.loadBytes .clm ++
      (Command.code .nvramApply :: (le32 nvramLen ++ le32 nvramHash) ++ [Command.code .boot])))

/-- The device as `BOOT` leaves it. -/
def WifiState.booted (s : WifiState) (fw clm : Image) (nvramLen nvramHash : U32) : WifiState :=
  { s.resetState with
    powered := true, resetAsserted := false, probed := true
    fw := fw.loaded, clm := clm.loaded, nvramLen, nvramHash, nvramApplied := true, fwReady := true }

/-- The answers to `bootBytes`. -/
def bootAnswers (n : ℕ) : List U8 := [0xac, 0xac, 0x43] ++ List.replicate n 0xac

/-- **A boot completes.**  Whatever state the device is in between two transactions, and whatever
the two images are, in chunks of any lengths: the device acknowledges every byte, identifies itself,
and is ready with exactly these images, its queue empty. -/
theorem boot_completes (cfg : Config) {s : WifiState} (hmode : s.mode = .command) (fw clm : Image)
    (nvramLen nvramHash : U32) :
    ∃ t, clock cfg s (bootBytes fw clm nvramLen nvramHash) =
        some (t, bootAnswers ((bootBytes fw clm nvramLen nvramHash).length - 3)) ∧
      Scratch (s.booted fw clm nvramLen nvramHash) t := by
  -- power and the identity
  let s₁ : WifiState := { s.resetState with powered := true, resetAsserted := true }
  let s₂ : WifiState := { s₁ with resetAsserted := false, fwError := false }
  let s₃ : WifiState := { s₂ with probed := true }
  have hpower : transfer cfg s (Command.code .powerOn) true = some (s₁, 0xac) :=
    transfer_code hmode _
  have hrelease : transfer cfg s₁ (Command.code .resetRelease) true = some (s₂, 0xac) :=
    transfer_code rfl _
  have hident : transfer cfg s₂ (Command.code .ident) true = some (s₃, 0x43) := transfer_code rfl _
  have hhead := clock_cons hpower (clock_cons hrelease (clock_cons hident
    (show clock cfg s₃ [] = some (s₃, []) from rfl)))
  -- the images
  obtain ⟨u, hu, hsu⟩ := acked_load cfg (show s₃.Opens .fw from ⟨rfl, rfl, rfl⟩) fw rfl rfl rfl
  obtain ⟨humode, huerror, huready, hufw⟩ := hsu.same
  have hufw' : u.fw = fw.loaded := hufw
  obtain ⟨v, hv, huv⟩ := acked_load cfg
    (show u.Opens .clm from congrArg Load.committed hufw') clm humode huerror huready
  obtain ⟨hvmode, -, -, hvclm⟩ := huv.same
  have hsv : Scratch { s₃ with fw := fw.loaded, clm := clm.loaded } v :=
    (hsu.setLoad .clm clm.loaded).trans huv
  -- the NVRAM
  obtain ⟨w, hw, hvw⟩ := acked_nvram cfg (hvmode.trans humode)
    (by obtain ⟨_, _, _, _, _, _, _, rfl⟩ := hsv; rfl)
    (by obtain ⟨_, _, _, _, _, _, _, rfl⟩ := hsv; rfl) nvramLen nvramHash
  have hsw : Scratch
      { s₃ with fw := fw.loaded, clm := clm.loaded, nvramLen, nvramHash, nvramApplied := true }
      w := by
    obtain ⟨_, _, _, _, _, _, _, rfl⟩ := hsv
    exact Scratch.trans ⟨_, _, _, _, _, _, _, rfl⟩ hvw
  -- `BOOT`
  have hboot : transfer cfg w (Command.code .boot) true =
      some ({ w with fwReady := true, fwError := false }, 0xac) := by
    obtain ⟨_, _, _, _, _, _, _, rfl⟩ := hsw
    exact transfer_code rfl .boot
  have hrest := hu.append (hv.append (hw.append (.cons hboot (.nil _))))
  refine ⟨{ w with fwReady := true, fwError := false }, clock_append hhead hrest, ?_⟩
  obtain ⟨_, _, _, _, _, _, _, rfl⟩ := hsw
  exact ⟨_, _, _, _, _, _, _, rfl⟩

/-- Firmware in three chunks, one of them empty. -/
def smallFw : Image := { chunks := [[1, 2], [], [3]], short := by decide, size := by decide }

/-- A CLM with no bytes. -/
def smallClm : Image := { chunks := [], short := by decide, size := by decide }

theorem boot_completes_small :
    ∃ t, clock meshConfig .init (bootBytes smallFw smallClm 5 6) =
        some (t, bootAnswers ((bootBytes smallFw smallClm 5 6).length - 3)) ∧
      Scratch (WifiState.init.booted smallFw smallClm 5 6) t :=
  boot_completes meshConfig rfl smallFw smallClm 5 6

end HibanaPico.Cyw43439
