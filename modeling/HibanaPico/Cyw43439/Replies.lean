import HibanaPico.Cyw43439.BootGate

/-!
# CYW43439 — Replies

What the device answers to the last byte of a load transaction, and whether it has taken the step.
The answer to a `BEGIN` is a constant, the one to a `CHUNK` is read off `fw_error`, which an earlier
error leaves set, and the others come from the branch that was taken.

* `LoadStep`, `completes`: the step of a load that a byte completes.
* `accepts`, `Took`, `Refused`: what the device checks, what an accepted step does, and what a
  rejected one does.
* `completed_cases`: the state after the byte, and the answer.
* `replies_iff`: along every run, the answer tells the truth exactly if the byte is not the last of
  a rejected `BEGIN`, nor of a `CHUNK` header accepted after an earlier error.
-/

namespace HibanaPico.Cyw43439
open HibanaPico.Support
open HibanaPico.Transport

/-- The steps of a load that are answered for. -/
inductive LoadStep where
  | begin
  | chunk
  | commitFw
  | commitClm
  | nvramApply
  | boot
  deriving DecidableEq, Repr

/-- The step that a command byte makes at once. -/
def LoadStep.ofCommand : Command → Option LoadStep
  | .fwCommit => some .commitFw
  | .clmCommit => some .commitClm
  | .boot => some .boot
  | .selectNode | .status | .txFrame | .rxFrame | .reset | .clearStatus | .powerOn | .resetAssert
  | .resetRelease | .peekLabel | .nodeRole | .nodeId | .radioMode | .nodeCount | .fwBegin | .fwChunk
  | .clmBegin | .clmChunk | .nvramApply | .fwState | .ident => none

/-- The step that a byte completes: the last byte of a header, or a command byte. -/
def completes (s : WifiState) (byte : U8) : Option LoadStep :=
  match s.mode with
  | .loadBegin => if s.loadHeaderPos + 1 = wifiLoadHeaderSize then some .begin else none
  | .loadChunkHeader =>
      if s.loadChunkHeaderPos + 1 = wifiLoadChunkHeaderSize then some .chunk else none
  | .nvramApply => if s.loadHeaderPos + 1 = wifiLoadHeaderSize then some .nvramApply else none
  | .command => (Command.ofByte byte).bind LoadStep.ofCommand
  | .selectNode | .txDst | .txLen | .txPayload | .rxPayload | .loadChunkPayload => none

/-- What the device checks of a step that the byte completes. -/
def accepts (s : WifiState) (byte : U8) : LoadStep → Bool
  | .begin =>
      match s.loadKind with
      | .fw => s.powered && !s.resetAsserted && s.probed
      | .clm => s.fw.committed
      | .none => false
  | .chunk => chunkFits (s.chunkHeaderStored byte)
  | .commitFw => s.fw.started && s.fw.complete
  | .commitClm => s.fw.committed && s.clm.started && s.clm.complete
  | .nvramApply => s.fw.committed && s.clm.committed
  | .boot => s.fw.committed && s.clm.committed && s.nvramApplied

/-- The length, hash, committed and applied fields are the same. -/
def SameLoads (s t : WifiState) : Prop :=
  t.fw = s.fw ∧ t.clm = s.clm ∧ t.nvramLen = s.nvramLen ∧ t.nvramHash = s.nvramHash ∧
    t.nvramApplied = s.nvramApplied

/-- The step has taken place. -/
def Took (s : WifiState) (byte : U8) (t : WifiState) : LoadStep → Prop
  | .begin =>
      let header := (s.headerStored byte).loadHeader
      t = { s.headerStored byte with
        fw := if s.loadKind = .fw then .begun (readLe32 header 0) (readLe32 header 4) else s.fw
        clm := if s.loadKind = .fw then s.clm else .begun (readLe32 header 0) (readLe32 header 4)
        fwReady := if s.loadKind = .fw then false else s.fwReady
        fwError := if s.loadKind = .fw then false else s.fwError
        mode := .command }
  | .chunk =>
      let len := ((s.chunkHeaderStored byte).loadChunkHeader 4).toNat
      t = { s.chunkHeaderStored byte with
        loadChunkLen := len, loadChunkPos := 0
        mode := if len = 0 then .command else .loadChunkPayload }
  | .commitFw => t = { s with fw := { s.fw with committed := true } }
  | .commitClm => t = { s with clm := { s.clm with committed := true } }
  | .nvramApply =>
      let header := (s.headerStored byte).loadHeader
      t = { s.headerStored byte with
        nvramLen := readLe32 header 0, nvramHash := readLe32 header 4
        nvramApplied := true, mode := .command }
  | .boot => t = { s with fwReady := true, fwError := false }

/-- The step has not taken place, and is marked as an error. -/
def Refused (s t : WifiState) : Prop := t.fwError = true ∧ SameLoads s t

/-- The answer tells whether the step was accepted: it is `0xac` exactly when it was, and `0xee`
exactly when it was not. -/
def Truthful (cfg : Config) (s : WifiState) (byte : U8) (sendOk : Bool) : Prop :=
  ∀ step, completes s byte = some step → ∃ t r, transfer cfg s byte sendOk = some (t, r) ∧
    (r = 0xac ↔ accepts s byte step = true) ∧ (r = 0xee ↔ accepts s byte step = false) ∧
    (accepts s byte step = true → Took s byte t step) ∧
    (accepts s byte step = false → Refused s t)

/-- The last header byte of a `BEGIN` that is rejected, or of a `CHUNK` that is accepted while
`fw_error` is set. -/
def Slips (s : WifiState) (byte : U8) : Prop :=
  completes s byte = some .begin ∧ accepts s byte .begin = false ∨
    completes s byte = some .chunk ∧ accepts s byte .chunk = true ∧ s.fwError = true

instance (s : WifiState) (byte : U8) : Decidable (Slips s byte) :=
  inferInstanceAs (Decidable (_ ∨ _))

variable {cfg : Config} {s t : WifiState} {byte r : U8} {sendOk : Bool}

/-! ### What each step does -/

/-- An error leaves the loads as they were. -/
theorem refused_loadError {u : WifiState} (h : SameLoads s u) : Refused s (loadError u) :=
  ⟨rfl, h⟩

theorem sameLoads_refl (s : WifiState) : SameLoads s s := ⟨rfl, rfl, rfl, rfl, rfl⟩

/-- The answer to a step, as the branches of `cyw43439_transfer` give it. -/
def answerTo (s : WifiState) (byte : U8) : LoadStep → U8
  | .begin => 0xac
  | .chunk => if s.fwError || !accepts s byte .chunk then 0xee else 0xac
  | .commitFw => if accepts s byte .commitFw then 0xac else 0xee
  | .commitClm => if accepts s byte .commitClm then 0xac else 0xee
  | .nvramApply => if accepts s byte .nvramApply then 0xac else 0xee
  | .boot => if accepts s byte .boot then 0xac else 0xee

/-- The state and the answer after a step, by whether it is accepted. -/
def Stepped (s : WifiState) (byte : U8) (t : WifiState) (r : U8) (step : LoadStep) : Prop :=
  r = answerTo s byte step ∧ (accepts s byte step = true → Took s byte t step) ∧
    (accepts s byte step = false → Refused s t)

/-- A step whose code takes one branch when it is accepted, and the other when it is not. -/
theorem stepped_of_ite {step : LoadStep} {took refused : WifiState} {c : Bool}
    (hc : c = !accepts s byte step) (htook : accepts s byte step = true → Took s byte took step)
    (hrefused : Refused s refused)
    (hanswer : answerTo s byte step = if accepts s byte step then 0xac else 0xee)
    (h : (if c then some (refused, (0xee : U8)) else some (took, 0xac)) = some (t, r)) :
    Stepped s byte t r step := by
  subst hc
  cases haccepts : accepts s byte step with
  | true =>
      rw [haccepts] at h
      cases h
      exact ⟨by rw [hanswer, haccepts]; rfl, fun _ => htook haccepts, fun e => by
        rw [haccepts] at e; cases e⟩
  | false =>
      rw [haccepts] at h
      cases h
      exact ⟨by rw [hanswer, haccepts]; rfl, fun e => (by rw [haccepts] at e; cases e),
        fun _ => hrefused⟩

theorem stepped_begin (hmode : s.mode = .loadBegin)
    (hpos : s.loadHeaderPos + 1 = wifiLoadHeaderSize)
    (h : transfer cfg s byte sendOk = some (t, r)) : Stepped s byte t r .begin := by
  rw [transfer, hmode] at h
  obtain ⟨header, hheader, h⟩ := Option.bind_eq_some_iff.mp h
  obtain ⟨pos, hbump, h⟩ := Option.bind_eq_some_iff.mp h
  obtain rfl := poke_eq_some hheader
  obtain rfl := bump_eq_some hbump
  dsimp only at h
  rw [if_pos hpos] at h
  cases h
  have hsame : SameLoads s (s.headerStored byte) := sameLoads_refl s
  refine ⟨rfl, fun haccepts => ?_, fun hrejects => ?_⟩
  · unfold accepts at haccepts
    unfold loadBegin Took
    dsimp only
    cases hkind : s.loadKind with
    | fw => simp_all [WifiState.headerStored]
    | clm => simp_all [WifiState.headerStored]
    | none => simp_all
  · change Refused s (loadBegin (s.headerStored byte))
    unfold accepts at hrejects
    unfold loadBegin
    dsimp only
    cases hkind : s.loadKind with
    | fw =>
        have hkind' : (s.headerStored byte).loadKind = .fw := hkind
        rw [hkind] at hrejects
        rw [hkind']
        dsimp only
        split
        · exact refused_loadError hsame
        · split
          · exact refused_loadError hsame
          · simp_all [WifiState.headerStored]
    | clm =>
        have hkind' : (s.headerStored byte).loadKind = .clm := hkind
        rw [hkind] at hrejects
        rw [hkind']
        dsimp only
        split
        · exact refused_loadError hsame
        · simp_all [WifiState.headerStored]
    | none =>
        have hkind' : (s.headerStored byte).loadKind = .none := hkind
        rw [hkind']
        exact refused_loadError hsame

theorem stepped_chunk (hmode : s.mode = .loadChunkHeader)
    (hpos : s.loadChunkHeaderPos + 1 = wifiLoadChunkHeaderSize)
    (h : transfer cfg s byte sendOk = some (t, r)) : Stepped s byte t r .chunk := by
  rw [transfer, hmode] at h
  obtain ⟨header, hheader, h⟩ := Option.bind_eq_some_iff.mp h
  obtain ⟨pos, hbump, h⟩ := Option.bind_eq_some_iff.mp h
  obtain rfl := poke_eq_some hheader
  obtain rfl := bump_eq_some hbump
  dsimp only at h
  rw [if_pos hpos] at h
  change some (loadChunkReady (s.chunkHeaderStored byte),
    if (loadChunkReady (s.chunkHeaderStored byte)).fwError then (0xee : U8) else 0xac) =
      some (t, r) at h
  have hsame : SameLoads s (s.chunkHeaderStored byte) := sameLoads_refl s
  cases haccepts : accepts s byte .chunk with
  | true =>
      have hfits : chunkFits (s.chunkHeaderStored byte) = true := haccepts
      rw [loadChunkReady, hfits] at h
      cases h
      refine ⟨?_, fun _ => rfl, fun e => by rw [haccepts] at e; cases e⟩
      rw [answerTo, haccepts, Bool.not_true, Bool.or_false]
      rfl
  | false =>
      have hfits : chunkFits (s.chunkHeaderStored byte) = false := haccepts
      rw [loadChunkReady, hfits] at h
      cases h
      refine ⟨?_, fun e => (by rw [haccepts] at e; cases e), fun _ => refused_loadError hsame⟩
      rw [answerTo, haccepts, Bool.not_false, Bool.or_true]
      rfl

theorem stepped_nvram (hmode : s.mode = .nvramApply)
    (hpos : s.loadHeaderPos + 1 = wifiLoadHeaderSize)
    (h : transfer cfg s byte sendOk = some (t, r)) : Stepped s byte t r .nvramApply := by
  rw [transfer, hmode] at h
  obtain ⟨header, hheader, h⟩ := Option.bind_eq_some_iff.mp h
  obtain ⟨pos, hbump, h⟩ := Option.bind_eq_some_iff.mp h
  obtain rfl := poke_eq_some hheader
  obtain rfl := bump_eq_some hbump
  dsimp only at h
  rw [if_pos hpos] at h
  refine stepped_of_ite (by simp [accepts]) (fun _ => rfl)
    (refused_loadError (u := s.headerStored byte) (sameLoads_refl s)) rfl h

theorem stepped_execute {c : Command} {step : LoadStep} (hc : LoadStep.ofCommand c = some step)
    (h : execute cfg s c = some (t, r)) : Stepped s byte t r step := by
  have hrefused : Refused s (loadError s) := refused_loadError (sameLoads_refl s)
  cases c with
  | boot =>
      cases hc
      exact stepped_of_ite (by simp [accepts, Bool.or_assoc]) (fun _ => rfl) hrefused rfl h
  | fwCommit =>
      cases hc
      refine stepped_of_ite (c := !s.fw.started || !s.fw.complete) (by simp [accepts])
        (fun _ => rfl) hrefused rfl (h ▸ ?_)
      rw [execute, loadCommitFw]
      cases s.fw.started <;> cases s.fw.complete <;> rfl
  | clmCommit =>
      cases hc
      refine stepped_of_ite (c := !s.fw.committed || !s.clm.started || !s.clm.complete)
        (by simp [accepts, Bool.or_assoc]) (fun _ => rfl) hrefused rfl (h ▸ ?_)
      rw [execute, loadCommitClm]
      cases s.fw.committed <;> cases s.clm.started <;> cases s.clm.complete <;> rfl
  | _ => cases hc

/-- **A step that a byte completes**: the answer, and what it does by whether it is accepted. -/
theorem completed_cases {step : LoadStep} (hstep : completes s byte = some step)
    (h : transfer cfg s byte sendOk = some (t, r)) : Stepped s byte t r step := by
  unfold completes at hstep
  cases hmode : s.mode with
  | loadBegin =>
      rw [hmode] at hstep
      obtain ⟨hpos, hstep⟩ := Option.ite_none_right_eq_some.mp hstep
      cases hstep
      exact stepped_begin hmode hpos h
  | loadChunkHeader =>
      rw [hmode] at hstep
      obtain ⟨hpos, hstep⟩ := Option.ite_none_right_eq_some.mp hstep
      cases hstep
      exact stepped_chunk hmode hpos h
  | nvramApply =>
      rw [hmode] at hstep
      obtain ⟨hpos, hstep⟩ := Option.ite_none_right_eq_some.mp hstep
      cases hstep
      exact stepped_nvram hmode hpos h
  | command =>
      rw [hmode] at hstep
      obtain ⟨c, hc, hstep⟩ := Option.bind_eq_some_iff.mp hstep
      rw [transfer, hmode] at h
      dsimp only at h
      rw [hc] at h
      exact stepped_execute hstep h
  | selectNode | txDst | txLen | txPayload | rxPayload | loadChunkPayload =>
      rw [hmode] at hstep
      cases hstep

/-! ### The answers -/

/-- The answers that tell the truth. -/
theorem answerTo_truthful {step : LoadStep} (hstep : completes s byte = some step) :
    ((answerTo s byte step = 0xac ↔ accepts s byte step = true) ∧
      (answerTo s byte step = 0xee ↔ accepts s byte step = false)) ↔ ¬ Slips s byte := by
  have hite (step : LoadStep) :
      ((if accepts s byte step then (0xac : U8) else 0xee) = 0xac ↔ accepts s byte step = true) ∧
        ((if accepts s byte step then (0xac : U8) else 0xee) = 0xee ↔
          accepts s byte step = false) := by
    cases accepts s byte step <;> decide
  unfold Slips
  rw [hstep]
  cases step with
  | begin =>
      cases haccepts : accepts s byte .begin with
      | true => exact iff_of_true (by rw [answerTo]; decide) (by simp)
      | false => exact iff_of_false (by rw [answerTo]; decide) (by simp)
  | chunk =>
      rw [answerTo]
      cases haccepts : accepts s byte .chunk with
      | true =>
          cases herror : s.fwError with
          | true => exact iff_of_false (by decide) (by simp)
          | false => exact iff_of_true (by decide) (by simp)
      | false =>
          rw [Bool.not_false, Bool.or_true]
          exact iff_of_true (by decide) (by simp)
  | commitFw => exact iff_of_true (hite .commitFw) (by simp)
  | commitClm => exact iff_of_true (hite .commitClm) (by simp)
  | nvramApply => exact iff_of_true (hite .nvramApply) (by simp)
  | boot => exact iff_of_true (hite .boot) (by simp)

/-- **The answer tells the truth** exactly at the bytes that do not slip. -/
theorem truthful_iff (hb : Bounded s) : Truthful cfg s byte sendOk ↔ ¬ Slips s byte := by
  obtain ⟨t, r, ht, -⟩ := transfer_bounded cfg byte sendOk hb
  cases hstep : completes s byte with
  | none =>
      refine iff_of_true (fun step h => ?_) ?_
      · rw [hstep] at h
        cases h
      · rintro (⟨h, -⟩ | ⟨h, -⟩)
        · cases hstep.symm.trans h
        · cases hstep.symm.trans h
  | some step =>
      obtain ⟨hanswer, htook, hrefused⟩ := completed_cases hstep ht
      rw [← answerTo_truthful hstep, ← hanswer]
      constructor
      · intro h
        obtain ⟨t', r', ht', hac, hee, -⟩ := h step hstep
        cases ht.symm.trans ht'
        exact ⟨hac, hee⟩
      · rintro ⟨hac, hee⟩ step' hstep'
        cases hstep.symm.trans hstep'
        exact ⟨t, r, ht, hac, hee, htook, hrefused⟩

/-- **Truthful answers.**  At every step of every run from a reset, the answer to the last byte of a
load transaction tells whether the step was accepted, exactly if the byte is not the last one of the
header of a `BEGIN` that is rejected, nor of the header of a `CHUNK` that is accepted while an
earlier error has left `fw_error` set. -/
theorem replies_iff (cfg : Config) (s : WifiState) (as : List WifiAction) :
    (wifiMachine cfg).Along (fun s a => ∀ byte sendOk, a = .byte byte sendOk →
      (Truthful cfg s byte sendOk ↔ ¬ Slips s byte)) s.resetState as :=
  Machine.along_of_invariant (I := Bounded) (P := fun _ _ => True)
    (fun _ _ _ hb _ h => next_bounded_of hb h) (fun _ _ hb _ _ _ _ => truthful_iff hb)
    (.resetState s) (Machine.along_trivial _ _)

/-- A run to a byte that slips. -/
theorem not_truthful_of_exec {as : List WifiAction}
    (h : ((wifiMachine cfg).exec s.resetState as).any fun u => decide (Slips u byte)) :
    ∃ u, (wifiMachine cfg).exec s.resetState as = some u ∧ ¬ Truthful cfg u byte sendOk := by
  obtain ⟨u, hu, hslips⟩ := (Option.any_eq_true _ _).mp h
  have hb : Bounded u := Machine.exec_keeps (fun _ _ _ hb h => next_bounded_of hb h)
    (.resetState s) hu
  exact ⟨u, hu, fun htruthful => (truthful_iff hb).mp htruthful (of_decide_eq_true hslips)⟩

/-- A `BEGIN` of the firmware before the device was probed is rejected, and its last header byte is
answered `0xac`; and after a `CLM_BEGIN` that comes too early the header of the next firmware chunk
is accepted, and answered `0xee`. -/
theorem replies_untruthful :
    (∃ u, (wifiMachine meshConfig).exec WifiState.init.resetState
        (spi [0x52, 0x54, 0x80, 1, 0, 0, 0, 0, 0, 0]) = some u ∧
      ¬ Truthful meshConfig u 0 true) ∧
    ∃ u, (wifiMachine meshConfig).exec WifiState.init.resetState
        (spi [0x52, 0x54, 0x9f, 0x80, 1, 0, 0, 0, 0, 0, 0, 0, 0x83, 0, 0, 0, 0, 0, 0, 0, 0, 0x81, 0,
          0, 0, 0]) = some u ∧
      ¬ Truthful meshConfig u 1 true :=
  ⟨not_truthful_of_exec (by decide +kernel), not_truthful_of_exec (by decide +kernel)⟩

end HibanaPico.Cyw43439
