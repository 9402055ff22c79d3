import HibanaPico.Cyw43439.ReceiveQueue

/-!
# CYW43439 — Boot gate

What has been loaded when the firmware is ready.  An observer keeps, for each of the two images,
what the last accepted `BEGIN` announced and the payload bytes accepted since, and whether the CLM
and the NVRAM are newer than the firmware.

* `LoadNotes.note`: what the observer keeps.
* `Load.Tracks`: the device's length and hash are those of the bytes kept.
* `Gate`, `CommitExact`: what a booted device has, and what a `COMMIT` tells.
* `InOrder`, `boot_gate_iff`: when it has it.
-/

namespace HibanaPico.Cyw43439
open HibanaPico.Support
open HibanaPico.Transport

/-- FNV-1a, 32 bits. -/
def fnv1a32 (bytes : List U8) : U32 := bytes.foldl fnv1a32Update fnv1a32Offset

/-- What the last accepted `BEGIN` of a kind announced, length and hash, and the payload bytes
accepted since. -/
structure LoadNote where
  announced : Option (U32 × U32)
  bytes : List U8
  deriving DecidableEq

structure LoadNotes where
  fw : LoadNote
  clm : LoadNote
  /-- A `CLM_COMMIT` was accepted since the last accepted `FW_BEGIN`. -/
  clmFresh : Bool
  /-- An `NVRAM_APPLY` was accepted since the last accepted `FW_BEGIN`. -/
  nvramFresh : Bool
  deriving DecidableEq

namespace LoadNotes

def init : LoadNotes :=
  { fw := ⟨none, []⟩, clm := ⟨none, []⟩, clmFresh := false, nvramFresh := false }

/-- Once the header of a `BEGIN` is complete. -/
def begun (n : LoadNotes) (s : WifiState) : LoadNotes :=
  let note : LoadNote := ⟨some (readLe32 s.loadHeader 0, readLe32 s.loadHeader 4), []⟩
  match s.loadKind with
  | .fw =>
      if s.powered && !s.resetAsserted && s.probed then
        { n with fw := note, clmFresh := false, nvramFresh := false }
      else n
  | .clm => if s.fw.committed then { n with clm := note } else n
  | .none => n

/-- One more payload byte. -/
def extended (n : LoadNotes) (kind : LoadKind) (byte : U8) : LoadNotes :=
  if kind = .fw then { n with fw := ⟨n.fw.announced, n.fw.bytes ++ [byte]⟩ }
  else { n with clm := ⟨n.clm.announced, n.clm.bytes ++ [byte]⟩ }

/-- Once the header of an `NVRAM_APPLY` is complete. -/
def applied (n : LoadNotes) (s : WifiState) : LoadNotes :=
  if s.fw.committed && s.clm.committed then { n with nvramFresh := true } else n

/-- A command. -/
def executed (n : LoadNotes) (s : WifiState) (c : Command) : LoadNotes :=
  if c.Resets s then .init
  else if c = .clmCommit ∧ (loadCommitClm s).2 = 0xac then { n with clmFresh := true }
  else n

/-- One action. -/
def note (n : LoadNotes) (s : WifiState) : WifiAction → LoadNotes
  | .byte code _ =>
      match s.mode with
      | .loadBegin =>
          if s.loadHeaderPos + 1 = wifiLoadHeaderSize then n.begun (s.headerStored code) else n
      | .loadChunkPayload => n.extended s.loadKind code
      | .nvramApply => if s.loadHeaderPos + 1 = wifiLoadHeaderSize then n.applied s else n
      | .command => ((Command.ofByte code).map (n.executed s)).getD n
      | _ => n
  | .reset => .init
  | .arrive _ | .fdReady => n

end LoadNotes

/-- The bytes are those announced: exactly the length, and the hash. -/
def LoadNote.Matches (n : LoadNote) : Prop :=
  ∃ a ∈ n.announced, n.bytes.length = a.1.toNat ∧ fnv1a32 n.bytes = a.2

instance (n : LoadNote) : Decidable n.Matches :=
  inferInstanceAs (Decidable (∃ a ∈ n.announced, _))

/-- The device and the observer. -/
def loadMachine (cfg : Config) : Machine (WifiState × LoadNotes) WifiAction where
  next p a := (p.1.next cfg a).map fun t => (t, p.2.note p.1 a)

/-- A booted device has its three parts, and the later two are newer than the firmware. -/
def Gate (p : WifiState × LoadNotes) : Prop :=
  p.1.fwReady = true → p.1.fw.committed = true ∧ p.1.clm.committed = true ∧
    p.1.nvramApplied = true ∧ p.2.clmFresh = true ∧ p.2.nvramFresh = true

/-- What one byte does to a `committed` flag, where `sets` says whether it is the `COMMIT` that may
set it: the `COMMIT` is answered `0xac`, and sets it, exactly when the bytes match. -/
def CommitSets (sets : Prop) [Decidable sets] (n : LoadNote) (answer : U8) (before after : Load) :
    Prop :=
  if sets then (answer = 0xac ↔ n.Matches) ∧ after.committed = (before.committed || answer == 0xac)
  else after.committed = true → before.committed = true

/-- Each `committed` flag is set by its `COMMIT` alone, exactly when the bytes match. -/
def CommitExact (cfg : Config) (p : WifiState × LoadNotes) : WifiAction → Prop
  | .byte code sendOk => ∀ t r, transfer cfg p.1 code sendOk = some (t, r) →
      CommitSets (p.1.mode = .command ∧ Command.ofByte code = some .fwCommit) p.2.fw r p.1.fw t.fw ∧
        CommitSets (p.1.mode = .command ∧ Command.ofByte code = some .clmCommit) p.2.clm r p.1.clm
          t.clm
  | _ => True

/-- The last byte of an accepted `CLM_BEGIN` to a booted device. -/
def BeginsBooted (p : WifiState × LoadNotes) : WifiAction → Prop
  | .byte _ _ => p.1.mode = .loadBegin ∧ p.1.loadHeaderPos + 1 = wifiLoadHeaderSize ∧
      p.1.loadKind = .clm ∧ p.1.fw.committed = true ∧ p.1.fwReady = true
  | _ => False

/-- An accepted `BOOT`, of a CLM or an NVRAM from before the last accepted `FW_BEGIN`. -/
def BootsStale (p : WifiState × LoadNotes) : WifiAction → Prop
  | .byte code _ => p.1.mode = .command ∧ Command.ofByte code = some .boot ∧
      (p.1.fw.committed && p.1.clm.committed && p.1.nvramApplied) = true ∧
      (p.2.clmFresh && p.2.nvramFresh) = false
  | _ => False

/-- A `CLM_COMMIT` of bytes that match, while the firmware is not committed. -/
def CommitsUnder (p : WifiState × LoadNotes) : WifiAction → Prop
  | .byte code _ => p.1.mode = .command ∧ Command.ofByte code = some .clmCommit ∧
      p.2.clm.Matches ∧ p.1.fw.committed = false
  | _ => False

/-- None of the three. -/
def InOrder (p : WifiState × LoadNotes) (a : WifiAction) : Prop :=
  ¬ BeginsBooted p a ∧ ¬ BootsStale p a ∧ ¬ CommitsUnder p a

/-- What the device counts and hashes is what the observer keeps. -/
def Load.Tracks (l : Load) (n : LoadNote) : Prop :=
  match n.announced with
  | none => l.started = false
  | some a => l.started = true ∧ l.expectedLen = a.1.toNat ∧ l.expectedHash = a.2 ∧
      l.receivedLen = n.bytes.length ∧ l.hash = fnv1a32 n.bytes

variable {cfg : Config} {s t : WifiState} {n : LoadNotes} {byte r : U8} {sendOk : Bool}

/-- The device's test is the observer's. -/
theorem Load.Tracks.matches_iff {l : Load} {m : LoadNote} (h : l.Tracks m) :
    m.Matches ↔ l.started = true ∧ l.complete = true := by
  unfold Load.Tracks at h
  unfold LoadNote.Matches Load.complete
  cases hm : m.announced with
  | none =>
      rw [hm] at h
      simp_all
  | some a =>
      rw [hm] at h
      obtain ⟨hs, hlen, hhash, hreceived, hfnv⟩ := h
      simp only [Option.mem_def, Option.some.injEq, exists_eq_left', hs, hlen, hhash, hreceived,
        hfnv, true_and, Bool.and_eq_true, beq_iff_eq]

theorem Load.Tracks.begun (len hash : U32) : (Load.begun len hash).Tracks ⟨some (len, hash), []⟩ :=
  ⟨rfl, rfl, rfl, rfl, rfl⟩

theorem fnv1a32_snoc (bytes : List U8) (byte : U8) :
    fnv1a32 (bytes ++ [byte]) = fnv1a32Update (fnv1a32 bytes) byte := by
  simp [fnv1a32, List.foldl_append]

theorem Load.Tracks.extended {l : Load} {m : LoadNote} (h : l.Tracks m) (byte : U8) :
    (l.extended byte).Tracks ⟨m.announced, m.bytes ++ [byte]⟩ := by
  unfold Load.Tracks at h ⊢
  dsimp only
  cases hm : m.announced with
  | none =>
      rw [hm] at h
      exact h
  | some a =>
      rw [hm] at h
      obtain ⟨hs, hlen, hhash, hreceived, hfnv⟩ := h
      refine ⟨hs, hlen, hhash, ?_, ?_⟩
      · rw [List.length_append, List.length_singleton, ← hreceived]
        rfl
      · rw [fnv1a32_snoc, ← hfnv]
        rfl

theorem Load.Tracks.committed {l : Load} {m : LoadNote} (h : l.Tracks m) :
    Load.Tracks { l with committed := true } m := h

/-- What is kept of both images. -/
structure Tracked (p : WifiState × LoadNotes) : Prop where
  fw : p.1.fw.Tracks p.2.fw
  clm : p.1.clm.Tracks p.2.clm

theorem Tracked.init (s : WifiState) : Tracked (s.resetState, .init) := ⟨rfl, rfl⟩

/-! ### One byte -/

/-- What loading and booting change. -/
def WifiState.loadSide (s : WifiState) : Load × Load × Bool × Bool :=
  (s.fw, s.clm, s.nvramApplied, s.fwReady)

theorem ReceiveOnly.loadSide (h : ReceiveOnly s t) : t.loadSide = s.loadSide := by
  obtain ⟨_, _, _, _, _, _, rfl⟩ := h
  rfl

/-- What one action is to keep: the notes, the gate, and the meaning of the two commits. -/
structure Passes (fwSets clmSets : Prop) [Decidable fwSets] [Decidable clmSets]
    (p q : WifiState × LoadNotes) (answer : U8) : Prop where
  tracked : Tracked q
  gate : Gate q
  fw : CommitSets fwSets p.2.fw answer p.1.fw q.1.fw
  clm : CommitSets clmSets p.2.clm answer p.1.clm q.1.clm

theorem CommitSets.of_not {sets : Prop} [Decidable sets] {m : LoadNote} {before after : Load}
    (h : ¬ sets) (hc : after.committed = true → before.committed = true) :
    CommitSets sets m r before after := by
  rw [CommitSets, if_neg h]
  exact hc

theorem CommitSets.congr {sets sets' : Prop} [Decidable sets] [Decidable sets'] {m : LoadNote}
    {before after : Load} (h : sets ↔ sets') (hc : CommitSets sets m r before after) :
    CommitSets sets' m r before after := by
  unfold CommitSets at hc ⊢
  simpa only [← h] using hc

namespace Passes

variable {fwSets clmSets : Prop} [Decidable fwSets] [Decidable clmSets]

theorem congr {fwSets' clmSets' : Prop} [Decidable fwSets'] [Decidable clmSets']
    {p q : WifiState × LoadNotes} (h : Passes fwSets clmSets p q r) (hfw : fwSets ↔ fwSets')
    (hclm : clmSets ↔ clmSets') : Passes fwSets' clmSets' p q r :=
  ⟨h.tracked, h.gate, h.fw.congr hfw, h.clm.congr hclm⟩

/-- Nothing of the loading side changes. -/
theorem quiet (hp : Tracked (s, n)) (hg : Gate (s, n)) (hfw : ¬ fwSets) (hclm : ¬ clmSets)
    (h : t.loadSide = s.loadSide) : Passes fwSets clmSets (s, n) (t, n) r := by
  simp only [WifiState.loadSide, Prod.mk.injEq] at h
  obtain ⟨h₁, h₂, h₃, h₄⟩ := h
  refine ⟨⟨?_, ?_⟩, ?_, .of_not hfw ?_, .of_not hclm ?_⟩
  · show t.fw.Tracks n.fw
    rw [h₁]
    exact hp.fw
  · show t.clm.Tracks n.clm
    rw [h₂]
    exact hp.clm
  · intro hready
    show t.fw.committed = true ∧ t.clm.committed = true ∧ t.nvramApplied = true ∧ _
    rw [h₁, h₂, h₃]
    exact hg (h₄ ▸ hready)
  · show t.fw.committed = true → s.fw.committed = true
    rw [h₁]
    exact id
  · show t.clm.committed = true → s.clm.committed = true
    rw [h₂]
    exact id

/-- An error stops the firmware, and changes nothing else of the loading side. -/
theorem error (hp : Tracked (s, n)) (hfw : ¬ fwSets) (hclm : ¬ clmSets)
    (h : t.loadSide = (loadError s).loadSide) : Passes fwSets clmSets (s, n) (t, n) r := by
  have he : Passes fwSets clmSets (loadError s, n) (t, n) r :=
    quiet ⟨hp.fw, hp.clm⟩ (fun hready => by cases hready) hfw hclm h
  exact ⟨he.tracked, he.gate, he.fw, he.clm⟩

/-- A reset clears everything. -/
theorem cleared (hfw : ¬ fwSets) (hclm : ¬ clmSets)
    (h : t.loadSide = (s.resetState).loadSide) :
    Passes fwSets clmSets (s, n) (t, .init) r := by
  simp only [WifiState.loadSide, Prod.mk.injEq] at h
  obtain ⟨h₁, h₂, h₃, h₄⟩ := h
  refine ⟨⟨?_, ?_⟩, ?_, .of_not hfw ?_, .of_not hclm ?_⟩
  · show t.fw.started = false
    rw [h₁]
    rfl
  · show t.clm.started = false
    rw [h₂]
    rfl
  · intro hready
    have hready' : t.fwReady = true := hready
    rw [h₄] at hready'
    cases hready'
  · show t.fw.committed = true → _
    rw [h₁]
    exact fun hc => by cases hc
  · show t.clm.committed = true → _
    rw [h₂]
    exact fun hc => by cases hc

end Passes

theorem LoadNotes.executed_of {c : Command} (hr : ¬ c.Resets s) (hc : c ≠ .clmCommit) :
    n.executed s c = n := by
  rw [executed, if_neg hr, if_neg fun h => hc h.1]

theorem LoadNotes.executed_clmCommit : n.executed s .clmCommit =
    if (loadCommitClm s).2 = 0xac then { n with clmFresh := true } else n := by
  rw [executed, if_neg (show ¬ Command.Resets s .clmCommit from id)]
  simp only [true_and]

theorem startRx_loadSide (hb : Bounded s) (h : startRx cfg s = some (t, r)) :
    t.loadSide = s.loadSide := by
  unfold startRx at h
  split at h
  · cases h
    rfl
  · obtain ⟨u, hu, h⟩ := Option.bind_eq_some_iff.mp h
    obtain ⟨⟨v, popped⟩, hv, h⟩ := Option.bind_eq_some_iff.mp h
    obtain ⟨hsu, hq⟩ := radioPoll_receiveOnly hb.toQueueBounded hu
    obtain ⟨hpop, -, -⟩ := queuePopFor_popOnly
      (s := { u with rxLen := 0, rxPos := 0, rxBuf := fun _ => 0 }) (hq.same rfl) (Nat.zero_le _) hv
    have hvu : v.loadSide = u.loadSide := by
      obtain ⟨_, _, _, _, _, _, rfl⟩ := hpop
      rfl
    cases popped with
    | true => cases h; exact hvu.trans hsu.loadSide
    | false => cases h; exact hvu.trans hsu.loadSide

/-- A `COMMIT` of the firmware. -/
theorem loadCommitFw_passes {clmSets : Prop} [Decidable clmSets] (hp : Tracked (s, n))
    (hg : Gate (s, n)) (hclm : ¬ clmSets) {fwSets : Prop} [Decidable fwSets] (hfw : fwSets) :
    Passes fwSets clmSets (s, n) ((loadCommitFw s).1, n) (loadCommitFw s).2 := by
  have hmatch := hp.fw.matches_iff
  have herror : Passes False clmSets (s, n) (loadError s, n) 0xee := .error hp id hclm rfl
  have hrefused : ¬ n.fw.Matches → Passes fwSets clmSets (s, n) (loadError s, n) 0xee :=
    fun hnot => ⟨herror.tracked, herror.gate, by
      rw [CommitSets, if_pos hfw]
      exact ⟨⟨fun h => absurd h (by decide), fun h => absurd h hnot⟩, (Bool.or_false _).symm⟩,
      herror.clm⟩
  unfold loadCommitFw
  split
  · rename_i hstarted
    exact hrefused fun h => by simp_all
  split
  · rename_i hstarted hcomplete
    exact hrefused fun h => by simp_all
  · rename_i hstarted hcomplete
    refine ⟨⟨hp.fw.committed, hp.clm⟩, fun hready => ⟨rfl, (hg hready).2⟩, ?_, .of_not hclm id⟩
    rw [CommitSets, if_pos hfw]
    refine ⟨⟨fun _ => ?_, fun _ => rfl⟩, (Bool.or_true _).symm⟩
    exact hmatch.mpr ⟨by simpa using hstarted, by simpa using hcomplete⟩

/-- A `COMMIT` of the CLM, of bytes that do not match or over a committed firmware. -/
theorem loadCommitClm_passes {fwSets clmSets : Prop} [Decidable fwSets] [Decidable clmSets]
    (hp : Tracked (s, n)) (hg : Gate (s, n)) (hfw : ¬ fwSets) (hclm : clmSets)
    (ho : n.clm.Matches → s.fw.committed = true) :
    Passes fwSets clmSets (s, n) ((loadCommitClm s).1, n.executed s .clmCommit)
      (loadCommitClm s).2 := by
  have hmatch := hp.clm.matches_iff
  have herror : Passes fwSets False (s, n) (loadError s, n) 0xee := .error hp hfw id rfl
  have hrefused : ¬ n.clm.Matches → loadCommitClm s = (loadError s, 0xee) →
      Passes fwSets clmSets (s, n) ((loadCommitClm s).1, n.executed s .clmCommit)
        (loadCommitClm s).2 := by
    intro hnot h
    have hnote : n.executed s .clmCommit = n := by
      rw [LoadNotes.executed_clmCommit, h]
      rfl
    rw [h, hnote]
    refine ⟨herror.tracked, herror.gate, herror.fw, ?_⟩
    rw [CommitSets, if_pos hclm]
    show ((0xee : U8) = 0xac ↔ _) ∧ _
    exact ⟨⟨fun h => absurd h (by decide), fun h => absurd h hnot⟩, (Bool.or_false _).symm⟩
  by_cases hall : n.clm.Matches
  · obtain ⟨hstarted, hcomplete⟩ := hmatch.mp hall
    have h : loadCommitClm s = ({ s with clm := { s.clm with committed := true } }, 0xac) := by
      rw [loadCommitClm, ho hall, hstarted, hcomplete]
      rfl
    have hnote : n.executed s .clmCommit = { n with clmFresh := true } := by
      rw [LoadNotes.executed_clmCommit, h]
      rfl
    rw [h, hnote]
    refine ⟨⟨hp.fw, hp.clm.committed⟩, fun hready => ?_, .of_not hfw id, ?_⟩
    · obtain ⟨hc, -, hn, -, hf⟩ := hg hready
      exact ⟨hc, rfl, hn, rfl, hf⟩
    · rw [CommitSets, if_pos hclm]
      exact ⟨⟨fun _ => hall, fun _ => rfl⟩, (Bool.or_true _).symm⟩
  · refine hrefused hall ?_
    unfold loadCommitClm
    split
    · rfl
    split
    · rfl
    · rename_i hstarted hcomplete
      refine absurd (hmatch.mpr ⟨?_, by simpa using hcomplete⟩) hall
      simp_all

/-- **A command** in order keeps the gate, and commits say what they are to say. -/
theorem execute_passes {c : Command} (hb : Bounded s)
    (hp : Tracked (s, n)) (hg : Gate (s, n))
    (hboot : c = .boot → (s.fw.committed && s.clm.committed && s.nvramApplied) = true →
      (n.clmFresh && n.nvramFresh) = true)
    (hcommit : c = .clmCommit → n.clm.Matches → s.fw.committed = true)
    (h : execute cfg s c = some (t, r)) :
    Passes (c = .fwCommit) (c = .clmCommit) (s, n) (t, n.executed s c) r := by
  have hquiet : ¬ c.Resets s → c ≠ .fwCommit → c ≠ .clmCommit → t.loadSide = s.loadSide →
      Passes (c = .fwCommit) (c = .clmCommit) (s, n) (t, n.executed s c) r := by
    intro hr hfw hclm hside
    rw [LoadNotes.executed_of hr hclm]
    exact .quiet hp hg hfw hclm hside
  have herror : ¬ c.Resets s → c ≠ .fwCommit → c ≠ .clmCommit →
      t.loadSide = (loadError s).loadSide →
      Passes (c = .fwCommit) (c = .clmCommit) (s, n) (t, n.executed s c) r := by
    intro hr hfw hclm hside
    rw [LoadNotes.executed_of hr hclm]
    exact .error hp hfw hclm hside
  have hreset : c.Resets s → c ≠ .fwCommit → c ≠ .clmCommit →
      t.loadSide = s.resetState.loadSide →
      Passes (c = .fwCommit) (c = .clmCommit) (s, n) (t, n.executed s c) r := by
    intro hr hfw hclm hside
    rw [LoadNotes.executed, if_pos hr]
    exact .cleared hfw hclm hside
  cases c with
  | fwCommit =>
      rw [LoadNotes.executed_of id (by simp)]
      have hpasses : Passes (Command.fwCommit = .fwCommit) (Command.fwCommit = .clmCommit)
          (s, n) ((loadCommitFw s).1, n) (loadCommitFw s).2 :=
        loadCommitFw_passes hp hg (by simp) rfl
      rwa [show loadCommitFw s = (t, r) from Option.some.inj h] at hpasses
  | clmCommit =>
      have hpasses : Passes (Command.clmCommit = .fwCommit) (Command.clmCommit = .clmCommit)
          (s, n) ((loadCommitClm s).1, n.executed s .clmCommit) (loadCommitClm s).2 :=
        loadCommitClm_passes hp hg (by simp) rfl (hcommit rfl)
      rwa [show loadCommitClm s = (t, r) from Option.some.inj h] at hpasses
  | rxFrame => exact hquiet id (by simp) (by simp) (startRx_loadSide hb h)
  | status =>
      simp only [execute, status] at h
      split at h
      · cases h
        exact hquiet id (by simp) (by simp) rfl
      · obtain ⟨u, hu, h⟩ := Option.bind_eq_some_iff.mp h
        cases h
        exact hquiet id (by simp) (by simp)
          (radioPoll_receiveOnly hb.toQueueBounded hu).1.loadSide
  | peekLabel =>
      simp only [execute] at h
      obtain ⟨u, hu, h⟩ := Option.bind_eq_some_iff.mp h
      obtain ⟨label, -, h⟩ := Option.bind_eq_some_iff.mp h
      cases h
      exact hquiet id (by simp) (by simp) (radioPoll_receiveOnly hb.toQueueBounded hu).1.loadSide
  | reset | powerOn =>
      cases h
      exact hreset trivial (by simp) (by simp) rfl
  | resetAssert =>
      simp only [execute] at h
      split at h
      · rename_i hpowered
        cases h
        exact herror (fun hr => by rw [Command.Resets] at hr; simp [hr] at hpowered) (by simp)
          (by simp) rfl
      · rename_i hpowered
        cases h
        exact hreset (show s.powered = true by simpa using hpowered) (by simp) (by simp) rfl
  | resetRelease =>
      simp only [execute] at h
      split at h
      · cases h
        exact herror id (by simp) (by simp) rfl
      · cases h
        exact hquiet id (by simp) (by simp) rfl
  | ident =>
      simp only [execute] at h
      split at h
      · cases h
        exact hquiet id (by simp) (by simp) rfl
      · cases h
        exact hquiet id (by simp) (by simp) rfl
  | boot =>
      simp only [execute] at h
      split at h
      · cases h
        exact herror id (by simp) (by simp) rfl
      · rename_i hrefused
        have hall : (s.fw.committed && s.clm.committed && s.nvramApplied) = true := by simp_all
        have hfresh := hboot rfl hall
        cases h
        rw [LoadNotes.executed_of id (by simp)]
        simp only [Bool.and_eq_true] at hall hfresh
        exact ⟨⟨hp.fw, hp.clm⟩, fun _ => ⟨hall.1.1, hall.1.2, hall.2, hfresh.1, hfresh.2⟩,
          .of_not (by simp) id, .of_not (by simp) id⟩
  | selectNode | txFrame | clearStatus | nodeRole | nodeId | radioMode | nodeCount | fwBegin
  | fwChunk | clmBegin | clmChunk | nvramApply | fwState =>
      cases h
      exact hquiet id (by simp) (by simp) rfl

/-- The end of a `BEGIN` in order. -/
theorem loadBegin_passes {fwSets clmSets : Prop} [Decidable fwSets] [Decidable clmSets]
    (hp : Tracked (s, n)) (hfw : ¬ fwSets) (hclm : ¬ clmSets)
    (ho : s.loadKind = .clm → s.fw.committed = true → s.fwReady = false) :
    Passes fwSets clmSets (s, n) (loadBegin s, n.begun s) r := by
  unfold loadBegin LoadNotes.begun
  dsimp only
  cases hkind : s.loadKind with
  | none => exact .error hp hfw hclm rfl
  | fw =>
      dsimp only
      by_cases hready : (s.powered && !s.resetAsserted && s.probed) = true
      · have hgo : (!s.powered || s.resetAsserted) = false ∧ (!s.probed) = false := by simp_all
        rw [if_pos hready, hgo.1, hgo.2]
        exact ⟨⟨.begun _ _, hp.clm⟩, fun h => (by cases h), .of_not hfw fun h => (by cases h),
          .of_not hclm id⟩
      · rw [if_neg hready]
        split
        · exact .error hp hfw hclm rfl
        · rw [if_pos (by simp_all)]
          exact .error hp hfw hclm rfl
  | clm =>
      dsimp only
      cases hc : s.fw.committed with
      | false => exact .error hp hfw hclm rfl
      | true =>
          refine ⟨⟨hp.fw, .begun _ _⟩, fun h => ?_, .of_not hfw fun h => hc,
            .of_not hclm fun h => ?_⟩
          · have hready : s.fwReady = true := h
            rw [ho hkind hc] at hready
            cases hready
          · cases h

/-- A payload byte. -/
theorem chunkStored_passes {fwSets clmSets : Prop} [Decidable fwSets] [Decidable clmSets]
    (byte : U8) (hp : Tracked (s, n)) (hg : Gate (s, n)) (hfw : ¬ fwSets) (hclm : ¬ clmSets) :
    Passes fwSets clmSets (s, n) (s.chunkStored byte, n.extended s.loadKind byte) r := by
  unfold LoadNotes.extended
  by_cases hkind : s.loadKind = .fw
  · have hload : s.load = s.fw := if_pos hkind
    have hfw' : (s.chunkStored byte).fw = s.fw.extended byte := by
      show (if s.loadKind = .fw then _ else _) = _
      rw [if_pos hkind, hload]
    have hclm' : (s.chunkStored byte).clm = s.clm := if_pos hkind
    rw [if_pos hkind]
    refine ⟨⟨?_, ?_⟩, fun hready => ?_, .of_not hfw ?_, .of_not hclm ?_⟩
    · show Load.Tracks (s.chunkStored byte).fw _
      rw [hfw']
      exact hp.fw.extended byte
    · show Load.Tracks (s.chunkStored byte).clm _
      rw [hclm']
      exact hp.clm
    · show (s.chunkStored byte).fw.committed = true ∧ (s.chunkStored byte).clm.committed = true ∧ _
      rw [hfw', hclm']
      exact hg hready
    · show (s.chunkStored byte).fw.committed = true → _
      rw [hfw']
      exact id
    · show (s.chunkStored byte).clm.committed = true → _
      rw [hclm']
      exact id
  · have hload : s.load = s.clm := if_neg hkind
    have hfw' : (s.chunkStored byte).fw = s.fw := if_neg hkind
    have hclm' : (s.chunkStored byte).clm = s.clm.extended byte := by
      show (if s.loadKind = .fw then _ else _) = _
      rw [if_neg hkind, hload]
    rw [if_neg hkind]
    refine ⟨⟨?_, ?_⟩, fun hready => ?_, .of_not hfw ?_, .of_not hclm ?_⟩
    · show Load.Tracks (s.chunkStored byte).fw _
      rw [hfw']
      exact hp.fw
    · show Load.Tracks (s.chunkStored byte).clm _
      rw [hclm']
      exact hp.clm.extended byte
    · show (s.chunkStored byte).fw.committed = true ∧ (s.chunkStored byte).clm.committed = true ∧ _
      rw [hfw', hclm']
      exact hg hready
    · show (s.chunkStored byte).fw.committed = true → _
      rw [hfw']
      exact id
    · show (s.chunkStored byte).clm.committed = true → _
      rw [hclm']
      exact id

theorem loadChunkReady_loadSide (s : WifiState) :
    (loadChunkReady s).loadSide = s.loadSide ∨
      (loadChunkReady s).loadSide = (loadError s).loadSide := by
  unfold loadChunkReady
  dsimp only
  split
  · exact .inr rfl
  · exact .inl rfl

/-- **A byte** in order. -/
theorem transfer_passes (hb : Bounded s) (hp : Tracked (s, n)) (hg : Gate (s, n))
    (ho : InOrder (s, n) (.byte byte sendOk)) (h : transfer cfg s byte sendOk = some (t, r)) :
    Passes (s.mode = .command ∧ Command.ofByte byte = some .fwCommit)
      (s.mode = .command ∧ Command.ofByte byte = some .clmCommit) (s, n)
      (t, n.note s (.byte byte sendOk)) r := by
  have hq := hb.toQueueBounded
  have hstep := transfer_cases h
  clear h
  have hout : ∀ {m : Mode} {c : Command}, s.mode = m → m ≠ .command →
      ¬ (s.mode = .command ∧ Command.ofByte byte = some c) :=
    fun hm hne hboth => hne (hm.symm.trans hboth.1)
  have hnote : ∀ {m : Mode}, s.mode = m → (m ≠ .command ∧ m ≠ .loadBegin ∧
      m ≠ .loadChunkPayload ∧ m ≠ .nvramApply) → n.note s (.byte byte sendOk) = n := by
    rintro m hm ⟨notCommand, notBegin, notPayload, notNvram⟩
    rw [LoadNotes.note, hm]
    cases m with
    | command => exact absurd rfl notCommand
    | loadBegin => exact absurd rfl notBegin
    | loadChunkPayload => exact absurd rfl notPayload
    | nvramApply => exact absurd rfl notNvram
    | _ => rfl
  cases hstep with
  | selectNode hm | txDst hm | txTooLong hm | txLen hm | txByte hm | rxByte hm | rxNone hm
  | chunkHeaderByte hm =>
      rw [hnote hm (by simp)]
      exact .quiet hp hg (hout hm (by simp)) (hout hm (by simp)) rfl
  | txEmpty hm hlen u hu =>
      rw [hnote hm (by simp)]
      have hsu := radioSend_receiveOnly (s := { s with txLen := 0, txPos := 0 }) (hq.same rfl)
        (Nat.zero_le _) hu
      exact .quiet hp hg (hout hm (by simp)) (hout hm (by simp)) hsu.1.loadSide
  | txLast hm hpos u hu =>
      rw [hnote hm (by simp)]
      have hsu := radioSend_receiveOnly (s := s.txStored byte) (hq.same rfl) (hb.tx hm).2 hu
      exact .quiet hp hg (hout hm (by simp)) (hout hm (by simp)) hsu.1.loadSide
  | chunkHeaderLast hm hpos =>
      rw [hnote hm (by simp)]
      rcases loadChunkReady_loadSide (s.chunkHeaderStored byte) with hside | hside
      · exact .quiet hp hg (hout hm (by simp)) (hout hm (by simp)) hside
      · exact .error hp (hout hm (by simp)) (hout hm (by simp)) hside
  | beginByte hm hpos =>
      have hn : n.note s (.byte byte sendOk) = n := by
        rw [LoadNotes.note, hm]
        exact if_neg hpos
      rw [hn]
      exact .quiet hp hg (hout hm (by simp)) (hout hm (by simp)) rfl
  | beginLast hm hpos =>
      have hn : n.note s (.byte byte sendOk) = n.begun (s.headerStored byte) := by
        rw [LoadNotes.note, hm]
        exact if_pos hpos
      rw [hn]
      have hbegin : (s.headerStored byte).loadKind = .clm →
          (s.headerStored byte).fw.committed = true → (s.headerStored byte).fwReady = false := by
        intro hkind hc
        rw [Bool.eq_false_iff]
        exact fun hready => ho.1 ⟨hm, hpos, hkind, hc, hready⟩
      have hpasses : Passes (s.mode = .command ∧ Command.ofByte byte = some .fwCommit)
          (s.mode = .command ∧ Command.ofByte byte = some .clmCommit) (s.headerStored byte, n)
          (loadBegin (s.headerStored byte), n.begun (s.headerStored byte)) 0xac :=
        loadBegin_passes ⟨hp.fw, hp.clm⟩ (hout hm (by simp)) (hout hm (by simp)) hbegin
      exact ⟨hpasses.tracked, hpasses.gate, hpasses.fw, hpasses.clm⟩
  | chunkByte hm =>
      have hn : n.note s (.byte byte sendOk) = n.extended s.loadKind byte := by
        rw [LoadNotes.note, hm]
      rw [hn]
      exact chunkStored_passes byte hp hg (hout hm (by simp)) (hout hm (by simp))
  | nvramByte hm hpos =>
      have hn : n.note s (.byte byte sendOk) = n := by
        rw [LoadNotes.note, hm]
        exact if_neg hpos
      rw [hn]
      exact .quiet hp hg (hout hm (by simp)) (hout hm (by simp)) rfl
  | nvramRefused hm hpos hc =>
      have hn : n.note s (.byte byte sendOk) = n := by
        rw [LoadNotes.note, hm]
        exact (if_pos hpos).trans (if_neg (by simpa using hc))
      rw [hn]
      exact .error hp (hout hm (by simp)) (hout hm (by simp)) rfl
  | nvramApplied hm hpos hc =>
      have hn : n.note s (.byte byte sendOk) = { n with nvramFresh := true } := by
        rw [LoadNotes.note, hm]
        exact (if_pos hpos).trans (if_pos (by simp [hc.1, hc.2]))
      rw [hn]
      refine ⟨⟨hp.fw, hp.clm⟩, fun hready => ?_, .of_not (hout hm (by simp)) id,
        .of_not (hout hm (by simp)) id⟩
      obtain ⟨hf, hl, -, hclm, -⟩ := hg hready
      exact ⟨hf, hl, rfl, hclm, rfl⟩
  | unknown hm hc =>
      have hn : n.note s (.byte byte sendOk) = n := by
        rw [LoadNotes.note, hm, hc]
        rfl
      rw [hn]
      exact .quiet hp hg (by simp [hc]) (by simp [hc]) rfl
  | command hm c hc t r ht =>
      have hn : n.note s (.byte byte sendOk) = n.executed s c := by
        rw [LoadNotes.note, hm, hc]
        rfl
      rw [hn]
      refine (execute_passes hb hp hg ?_ ?_ ht).congr ?_ ?_
      · rintro rfl hall
        by_contra hstale
        exact ho.2.1 ⟨hm, hc, hall, by simpa using hstale⟩
      · rintro rfl hmatch
        by_contra hnot
        exact ho.2.2 ⟨hm, hc, hmatch, by simpa using hnot⟩
      · simp [hm, hc]
      · simp [hm, hc]

/-- **A byte out of order** opens the gate, or is a `COMMIT` that does not set what matches. -/
theorem transfer_outOfOrder (ho : ¬ InOrder (s, n) (.byte byte sendOk))
    (h : transfer cfg s byte sendOk = some (t, r)) :
    ¬ (Gate (t, n.note s (.byte byte sendOk)) ∧
      CommitSets (s.mode = .command ∧ Command.ofByte byte = some .clmCommit) n.clm r s.clm
        t.clm) := by
  rintro ⟨hg, hsets⟩
  refine ho ⟨?_, ?_, ?_⟩
  · rintro ⟨hm, hpos, hkind, hc, hready⟩
    have ht : t = { s.headerStored byte with
        clm := .begun (readLe32 (s.headerStored byte).loadHeader 0)
          (readLe32 (s.headerStored byte).loadHeader 4), mode := .command } := by
      have hstep := transfer_cases h
      clear h
      cases hstep with
      | beginLast =>
          have hkind' : (s.headerStored byte).loadKind = .clm := hkind
          have hc' : (s.headerStored byte).fw.committed = true := hc
          simp [loadBegin, hkind', hc']
      | beginByte _ hne => exact absurd hpos hne
      | selectNode hm' | txDst hm' | txTooLong hm' | txEmpty hm' | txLen hm' | txLast hm'
      | txByte hm' | rxByte hm' | rxNone hm' | chunkHeaderByte hm' | chunkHeaderLast hm'
      | chunkByte hm' | nvramByte hm' | nvramRefused hm' | nvramApplied hm' | unknown hm'
      | command hm' =>
          rw [hm] at hm'
          cases hm'
    rw [ht] at hg
    have hclm := (hg hready).2.1
    cases hclm
  · rintro ⟨hm, hc, hall, hstale⟩
    have hexec : execute cfg s .boot = some (t, r) := by
      rw [transfer, hm, hc] at h
      exact h
    have hrefused : (!s.fw.committed || !s.clm.committed || !s.nvramApplied) = false := by
      simp_all
    rw [execute, hrefused] at hexec
    cases hexec
    have hn : n.note s (.byte byte sendOk) = n := by
      rw [LoadNotes.note, hm, hc]
      exact LoadNotes.executed_of id (by simp)
    rw [hn] at hg
    obtain ⟨-, -, -, h₁, h₂⟩ := hg rfl
    dsimp only at h₁ h₂ hstale
    rw [h₁, h₂] at hstale
    cases hstale
  · rintro ⟨hm, hc, hmatch, hnot⟩
    have hexec : some (loadCommitClm s) = some (t, r) := by
      rw [transfer, hm, hc] at h
      exact h
    have hnot' : s.fw.committed = false := hnot
    rw [loadCommitClm, hnot'] at hexec
    cases hexec
    rw [CommitSets, if_pos ⟨hm, hc⟩] at hsets
    exact absurd (hsets.1.mpr hmatch) (by decide)

/-! ### Runs -/

/-- A step after which a booted device has what it needs, and whose commits tell the truth. -/
def GateStep (cfg : Config) (p : WifiState × LoadNotes) (a : WifiAction) : Prop :=
  (∀ q, (loadMachine cfg).next p a = some q → Gate q) ∧ CommitExact cfg p a

/-- One action in order. -/
theorem next_inOrder {p q : WifiState × LoadNotes} {a : WifiAction} (hb : Bounded p.1)
    (hp : Tracked p) (hg : Gate p) (ho : InOrder p a) (h : (loadMachine cfg).next p a = some q) :
    Bounded q.1 ∧ Tracked q ∧ Gate q := by
  obtain ⟨s, n⟩ := p
  obtain ⟨t, ht, rfl⟩ := Option.map_eq_some_iff.mp h
  refine ⟨next_bounded_of hb (show (wifiMachine cfg).next s a = some t from ht), ?_⟩
  cases a with
  | byte byte sendOk =>
      obtain ⟨⟨t', r⟩, htr, hfst⟩ := Option.map_eq_some_iff.mp ht
      obtain rfl : t' = t := hfst
      have hpasses := transfer_passes hb hp hg ho htr
      exact ⟨hpasses.tracked, hpasses.gate⟩
  | reset =>
      cases ht
      exact ⟨.init s, fun hready => by cases hready⟩
  | arrive arrival =>
      cases ht
      exact ⟨⟨hp.fw, hp.clm⟩, hg⟩
  | fdReady =>
      obtain ⟨⟨_, _, _, _, _, _, rfl⟩, -⟩ := radioPoll_receiveOnly hb.toQueueBounded ht
      exact ⟨⟨hp.fw, hp.clm⟩, hg⟩

/-- **The boot gate.**  Along a run from a reset, a booted device always has its firmware, a CLM
committed and an NVRAM applied after the last accepted firmware `BEGIN`, and each `COMMIT` tells
whether the bytes match, exactly when no `CLM_BEGIN` is accepted by a booted device, no `BOOT` of an
older CLM or NVRAM is accepted, and no `CLM_COMMIT` of bytes that match comes while the firmware is
not committed. -/
theorem boot_gate_iff (cfg : Config) (s : WifiState) (as : List WifiAction) :
    (loadMachine cfg).Along (GateStep cfg) (s.resetState, .init) as ↔
      (loadMachine cfg).Along InOrder (s.resetState, .init) as := by
  refine Machine.along_iff_of_invariant
    (I := fun p => Bounded p.1 ∧ Tracked p ∧ Gate p) ?_ ?_
    ⟨.resetState s, .init s, fun hready => by cases hready⟩
  · rintro ⟨s, n⟩ a ⟨hb, hp, hg⟩
    constructor
    · rintro ⟨hgate, hcommit⟩
      by_contra ho
      cases a with
      | byte byte sendOk =>
          obtain ⟨t, r, ht, -⟩ := transfer_bounded cfg byte sendOk hb
          have hnext : (loadMachine cfg).next (s, n) (.byte byte sendOk) =
              some (t, n.note s (.byte byte sendOk)) :=
            Option.map_eq_some_iff.mpr ⟨t, Option.map_eq_some_iff.mpr ⟨(t, r), ht, rfl⟩, rfl⟩
          exact transfer_outOfOrder ho ht ⟨hgate _ hnext, (hcommit t r ht).2⟩
      | reset => exact ho ⟨id, id, id⟩
      | arrive arrival => exact ho ⟨id, id, id⟩
      | fdReady => exact ho ⟨id, id, id⟩
    · intro ho
      refine ⟨fun q hq => (next_inOrder hb hp hg ho hq).2.2, ?_⟩
      cases a with
      | byte byte sendOk =>
          intro t r ht
          have hpasses := transfer_passes hb hp hg ho ht
          exact ⟨hpasses.fw, hpasses.clm⟩
      | reset => trivial
      | arrive arrival => trivial
      | fdReady => trivial
  · rintro p a q ⟨hb, hp, hg⟩ ho hq
    exact next_inOrder hb hp hg ho hq

/-- A run whose last step opens the gate. -/
theorem not_gateStep_of_open {p : WifiState × LoadNotes} {as : List WifiAction} {a : WifiAction}
    (h : (((loadMachine cfg).exec p as).bind fun q => ((loadMachine cfg).next q a).map fun q' =>
      (q'.1.fwReady, q'.1.clm.committed && q'.2.clmFresh)) = some (true, false)) :
    ¬ (loadMachine cfg).Along (GateStep cfg) p (as ++ [a]) := by
  obtain ⟨q, hq, h⟩ := Option.bind_eq_some_iff.mp h
  obtain ⟨q', hq', h⟩ := Option.map_eq_some_iff.mp h
  obtain ⟨hready, hopen⟩ := Prod.mk.inj h
  refine Machine.not_along_of_exec hq fun hstep => ?_
  obtain ⟨-, hclm, -, hfresh, -⟩ := hstep.1 q' hq' hready
  rw [hclm, hfresh] at hopen
  cases hopen

/-- A booted device accepts a `CLM_BEGIN` and stays booted; and after a second firmware it boots
with the CLM of the first. -/
theorem boot_gate_open :
    ¬ (loadMachine meshConfig).Along (GateStep meshConfig) (WifiState.init.resetState, .init)
      ((bootSession ++ spi [0x83, 0, 0, 0, 0, 0, 0, 0]) ++ [.byte 0 true]) ∧
    ¬ (loadMachine meshConfig).Along (GateStep meshConfig) (WifiState.init.resetState, .init)
      ((bootSession ++ spi ([0x80] ++ emptyImage ++ [0x82])) ++ [.byte 0x87 true]) :=
  ⟨not_gateStep_of_open (by decide +kernel), not_gateStep_of_open (by decide +kernel)⟩

end HibanaPico.Cyw43439
