import HibanaPico.Baker.Epf
import HibanaPico.Support.Runs

/-!
# Baker — Loaded

Whether `epf_loaded_for_core` tells the truth.  Each load function is one step, on either core, and
the host may write the mailbox at any time.

* `HibanaEpf.Loads`: what is relied on of `hibana_epf`: a load replaces the image of the machine
  when it succeeds, and only then.
* `EpfInv`: the active digest is that of the active image, and each core's digest is that of the
  image its machine has.
* `epf_loaded_true`: a core that is loaded runs the active image.
-/

namespace HibanaPico.Baker
open HibanaPico.Support
open HibanaPico.Transport
open HibanaPico.Sio

variable {V ε : Type}

/-- **What is relied on**: `image` is the image a machine has, `target` the target an image is
for. -/
structure HibanaEpf.Loads (E : HibanaEpf V ε) (image : V → Option (List U8))
    (target : List U8 → Target) : Prop where
  ok : ∀ vm bytes vm' loaded, E.load vm bytes = (vm', .ok loaded) →
    image vm' = some bytes ∧ loaded.target = target bytes
  error : ∀ vm bytes vm', E.load vm bytes = (vm', .error ()) → image vm' = image vm
  encode : ∀ t id, E.encode t = (1, id) → t = .policy id

/-- The load functions, and the host. -/
inductive EpfAction where
  /-- The host writes the words of the mailbox. -/
  | mailbox (state len hash : U32) (image : Cells U8)
  /-- `epf_prepare_committed_image`, the first half of `poll_epf_image_load`. -/
  | prepare (core : Core)
  /-- `epf_load_active_image_for_core`, the second half. -/
  | loadActive (core : Core)
  | choreography (core : Core) (image : List U8)

def epfStep (E : HibanaEpf V ε) (m : EpfStatics V) : EpfAction → EpfStatics V
  | .mailbox state len hash image =>
      { m with
        bytecodeState := state
        bytecodeLen := len
        bytecodeHash := hash
        bytecodeImage := image }
  | .prepare core => epfPrepareCommittedImage E m core
  | .loadActive core => epfLoadActiveImageForCore E m core
  | .choreography core image => (loadEpfChoreographyImage E m core image).1

/-- The image an action loads, if its load succeeds. -/
def epfLoads (E : HibanaEpf V ε) (m : EpfStatics V) : EpfAction → Option (List U8)
  | .mailbox _ _ _ _ => none
  | .prepare core =>
      if m.bytecodeState = epfBytecodeStateCommit ∧ m.Sound E then
        (E.load (m.vm core) m.bytecodeBytes).2.toOption.map fun _ => m.bytecodeBytes
      else none
  | .loadActive core =>
      if m.Behind core then (E.load (m.vm core) m.activeBytes).2.toOption.map fun _ => m.activeBytes
      else none
  | .choreography core image =>
      if LenOk image then (E.load (m.vm core) image).2.toOption.map fun _ => image else none

/-- The statics, and the images that have been loaded. -/
structure EpfState (V : Type) where
  statics : EpfStatics V
  loaded : List (List U8)

def EpfState.init (E : HibanaEpf V ε) : EpfState V := { statics := .init E, loaded := [] }

/-- The load functions on either core, in any order, with the host. -/
def epfMachine (E : HibanaEpf V ε) : Machine (EpfState V) EpfAction :=
  ⟨fun s a => some
    { statics := epfStep E s.statics a
      loaded := s.loaded ++ (epfLoads E s.statics a).toList }⟩

/-- `poll_epf_image_load` is two of the steps. -/
theorem epfStep_poll (E : HibanaEpf V ε) (m : EpfStatics V) (core : Core) :
    epfStep E (epfStep E m (.prepare core)) (.loadActive core) =
      epfTryLoadCommittedImage E m core := rfl

/-- What a core has, when `epf_loaded_for_core` holds on it. -/
structure LoadedTrue (E : HibanaEpf V ε) (image : V → Option (List U8)) (target : List U8 → Target)
    (m : EpfStatics V) (core : Core) : Prop where
  image_eq : image (m.vm core) = some m.activeBytes
  digest_eq : m.imageDigest = E.computeHash m.activeBytes
  targetKind_eq : m.activeTargetKind = (E.encode (target m.activeBytes)).1.setWidth 32
  policyId_eq : m.activePolicyId = (E.encode (target m.activeBytes)).2.setWidth 32

/-- A load fails: the load function says so, or rejects what was committed, or finds that the
machine refuses the active image. -/
def LoadFails (E : HibanaEpf V ε) (m : EpfStatics V) : EpfAction → Prop
  | .mailbox _ _ _ _ => False
  | .prepare core => m.bytecodeState = epfBytecodeStateCommit ∧
      (epfPrepareCommittedImage E m core).bytecodeState = epfBytecodeStateRejected
  | .loadActive core => m.Behind core ∧ (E.load (m.vm core) m.activeBytes).2 = .error ()
  | .choreography core image => (loadEpfChoreographyImage E m core image).2 = false

/-- What a failed load leaves as it was. -/
structure KeepsActive (m m' : EpfStatics V) : Prop where
  activeImage : m'.activeImage = m.activeImage
  activeLen : m'.activeLen = m.activeLen
  imageDigest : m'.imageDigest = m.imageDigest
  coreDigest : m'.coreDigest = m.coreDigest
  loadEpoch : m'.loadEpoch = m.loadEpoch
  activeTargetKind : m'.activeTargetKind = m.activeTargetKind
  activePolicyId : m'.activePolicyId = m.activePolicyId

/-! ### What a step does -/

theorem KeepsActive.activeBytes {m m' : EpfStatics V} (h : KeepsActive m m') :
    m'.activeBytes = m.activeBytes := by
  rw [EpfStatics.activeBytes, h.activeImage, h.activeLen, EpfStatics.activeBytes]

/-- What a step can do: it loads no image, and a machine that refused one may have noticed; or a
core publishes an image; or it loads the active one. -/
inductive EpfStep (E : HibanaEpf V ε) (m : EpfStatics V) : EpfStatics V → Option (List U8) → Prop
  | kept {m'} (keeps : KeepsActive m m')
      (vm : ∀ core, m'.vm core = m.vm core ∨
        ∃ bytes, E.load (m.vm core) bytes = (m'.vm core, .error ())) : EpfStep E m m' none
  | published {core image ingress vm loaded} (lenOk : LenOk image)
      (load : E.load (m.vm core) image = (vm, .ok loaded)) :
      EpfStep E m ((m.setVm core vm).publish E core image (E.computeHash image) ingress loaded)
        (some image)
  | reloaded {core vm loaded} (behind : m.Behind core)
      (load : E.load (m.vm core) m.activeBytes = (vm, .ok loaded)) :
      EpfStep E m { m.setVm core vm with
        coreDigest := Function.update m.coreDigest core m.imageDigest
        loadEpoch := loaded.epoch } (some m.activeBytes)

variable {E : HibanaEpf V ε} {m : EpfStatics V}

theorem keepsActive_reject (reason : U32) : KeepsActive m (epfRejectLoad m reason) :=
  ⟨rfl, rfl, rfl, rfl, rfl, rfl, rfl⟩

theorem epfStep_refused {core : Core} {image : List U8} {vm : V} (reason : U32)
    (h : E.load (m.vm core) image = (vm, .error ())) :
    EpfStep E m (epfRejectLoad (m.setVm core vm) reason) none := by
  refine .kept ⟨rfl, rfl, rfl, rfl, rfl, rfl, rfl⟩ fun c => ?_
  -- only the core's own machine was given the image
  by_cases hc : c = core
  · subst hc
    exact .inr ⟨image, by rw [h]; simp [epfRejectLoad, EpfStatics.setVm]⟩
  · exact .inl (Function.update_of_ne hc _ _)

theorem epfStep_epfLoadImage {core : Core} {image : List U8} (hlen : LenOk image) (ingress : U32) :
    EpfStep E m (epfLoadImage E m core image (E.computeHash image) ingress).1
      ((E.load (m.vm core) image).2.toOption.map fun _ => image) := by
  obtain ⟨hbad, -⟩ | ⟨-, ⟨vm, hload, heq⟩ | ⟨vm, loaded, hload, heq⟩⟩ :=
    epfLoadImage_cases E m core image (E.computeHash image) ingress
  · exact absurd hlen hbad
  · rw [heq, hload]
    exact epfStep_refused _ hload
  · rw [heq, hload]
    exact .published hlen hload

/-- **What every action does.** -/
theorem epfStep_of_action (E : HibanaEpf V ε) (m : EpfStatics V) (a : EpfAction) :
    EpfStep E m (epfStep E m a) (epfLoads E m a) := by
  have hsame : ∀ {m'}, KeepsActive m m' → m'.vm = m.vm → EpfStep E m m' none :=
    fun h hvm => .kept h fun core => .inl (congrFun hvm core)
  cases a with
  | mailbox state len hash image => exact hsame ⟨rfl, rfl, rfl, rfl, rfl, rfl, rfl⟩ rfl
  | prepare core =>
      obtain ⟨hstate, heq⟩ | ⟨hstate, ⟨hbad, heq⟩ | ⟨-, hbad, heq⟩ | ⟨hsound, heq⟩⟩ :=
        epfPrepareCommittedImage_cases E m core
      · rw [epfStep, epfLoads, heq, if_neg fun h => hstate h.1]
        exact hsame ⟨rfl, rfl, rfl, rfl, rfl, rfl, rfl⟩ rfl
      · rw [epfStep, epfLoads, heq, if_neg fun h => hbad h.2.1]
        exact hsame (keepsActive_reject _) rfl
      · rw [epfStep, epfLoads, heq, if_neg fun h => hbad h.2.2]
        exact hsame (keepsActive_reject _) rfl
      · rw [epfStep, epfLoads, heq, if_pos ⟨hstate, hsound⟩, ← hsound.2]
        exact epfStep_epfLoadImage hsound.1 _
  | loadActive core =>
      obtain ⟨hbehind, heq⟩ | ⟨hbehind, ⟨vm, hload, heq⟩ | ⟨vm, loaded, hload, heq⟩⟩ :=
        epfLoadActiveImageForCore_cases E m core
      · rw [epfStep, epfLoads, heq, if_neg hbehind]
        exact hsame ⟨rfl, rfl, rfl, rfl, rfl, rfl, rfl⟩ rfl
      · rw [epfStep, epfLoads, heq, if_pos hbehind, hload]
        exact epfStep_refused _ hload
      · rw [epfStep, epfLoads, heq, if_pos hbehind, hload]
        exact .reloaded hbehind hload
  | choreography core image =>
      rw [epfStep, epfLoads, loadEpfChoreographyImage]
      by_cases hlen : LenOk image
      · rw [if_pos hlen, epfHashImage_of_lenOk hlen]
        exact epfStep_epfLoadImage hlen _
      · obtain ⟨-, heq⟩ | ⟨hok, -⟩ :=
          epfLoadImage_cases E m core image (epfHashImage E image) epfIngressChoreography
        · rw [heq, if_neg hlen]
          exact hsame (keepsActive_reject _) rfl
        · exact absurd hok hlen

/-- A load that fails loads nothing. -/
theorem epfLoads_of_fails {a : EpfAction} (h : LoadFails E m a) : epfLoads E m a = none := by
  -- a load that `hibana_epf` refuses counts for nothing
  have hlost : ∀ {core : Core} {image : List U8} {vm : V},
      E.load (m.vm core) image = (vm, .error ()) →
        ((E.load (m.vm core) image).2.toOption.map fun _ => image) = none := by
    intro core image vm hload
    rw [hload]
    rfl
  cases a with
  | mailbox _ _ _ _ => exact h.elim
  | prepare core =>
      obtain ⟨hstate, hrejected⟩ := h
      rw [epfLoads]
      by_cases hsound : m.Sound E
      · -- with the length and the hash right, it was the load that was refused
        obtain ⟨hne, -⟩ | ⟨-, ⟨hbad, -⟩ | ⟨-, hbad, -⟩ | ⟨-, heq⟩⟩ :=
          epfPrepareCommittedImage_cases E m core
        · exact absurd hstate hne
        · exact absurd hsound.1 hbad
        · exact absurd hsound.2 hbad
        · obtain ⟨hbad, -⟩ | ⟨-, ⟨vm, hload, -⟩ | ⟨vm, loaded, -, hloaded⟩⟩ :=
            epfLoadImage_cases E m core m.bytecodeBytes m.bytecodeHash epfIngressMailbox
          · exact absurd hsound.1 hbad
          · rw [if_pos ⟨hstate, hsound⟩, hlost hload]
          · rw [heq, hloaded] at hrejected
            have hne : epfBytecodeStateLoaded ≠ epfBytecodeStateRejected := by decide
            exact absurd hrejected hne
      · exact if_neg fun h => hsound h.2
  | loadActive core =>
      obtain ⟨hbehind, herror⟩ := h
      rw [epfLoads, if_pos hbehind, herror]
      rfl
  | choreography core image =>
      rw [epfLoads]
      obtain ⟨hbad, -⟩ | ⟨hlen, ⟨vm, hload, -⟩ | ⟨vm, loaded, -, hloaded⟩⟩ :=
        epfLoadImage_cases E m core image (epfHashImage E image) epfIngressChoreography
      · exact if_neg hbad
      · rw [if_pos hlen, hlost hload]
      · rw [LoadFails, loadEpfChoreographyImage, hloaded] at h
        cases h

/-! ### The invariant -/

/-- What the digests say. -/
structure EpfInv (E : HibanaEpf V ε) (image : V → Option (List U8)) (target : List U8 → Target)
    (s : EpfState V) : Prop where
  /-- The active digest and target are those of the active image. -/
  active : s.statics.activeLen ≠ 0 → s.statics.activeBytes ∈ s.loaded ∧
    s.statics.imageDigest = E.computeHash s.statics.activeBytes ∧
    s.statics.activeTargetKind = (E.encode (target s.statics.activeBytes)).1.setWidth 32 ∧
    s.statics.activePolicyId = (E.encode (target s.statics.activeBytes)).2.setWidth 32
  /-- A core's digest is that of the image its machine has. -/
  core : ∀ core, s.statics.coreDigest core ≠ 0 → ∃ bytes ∈ s.loaded,
    image (s.statics.vm core) = some bytes ∧ E.computeHash bytes = s.statics.coreDigest core

variable {image : V → Option (List U8)} {target : List U8 → Target}

theorem epfInv_init : EpfInv E image target (.init E) where
  active h := absurd rfl h
  core _ h := absurd rfl h

theorem activeLen_ne_zero {core : Core} (h : m.Behind core) : m.activeLen ≠ 0 := by
  intro hzero
  refine lenOk_slice.mp h.1 (.inl ?_)
  rw [hzero]
  rfl

/-- One step. -/
theorem epfInv_step (hE : E.Loads image target) (s : EpfState V) (a : EpfAction) (t : EpfState V)
    (h : EpfInv E image target s) (hnext : (epfMachine E).next s a = some t) :
    EpfInv E image target t := by
  obtain rfl := Option.some.inj hnext
  -- from here on only what the action did counts, not which one it was
  have hstep := epfStep_of_action E s.statics a
  generalize epfStep E s.statics a = m' at hstep ⊢
  generalize epfLoads E s.statics a = loads at hstep ⊢
  cases hstep with
  | kept keeps vm =>
      refine ⟨fun hlen => ?_, fun core hcore => ?_⟩
      · dsimp only at hlen ⊢
        rw [keeps.activeBytes, keeps.imageDigest, keeps.activeTargetKind, keeps.activePolicyId,
          Option.toList_none, List.append_nil]
        exact h.active (keeps.activeLen ▸ hlen)
      · dsimp only at hcore ⊢
        rw [keeps.coreDigest] at hcore ⊢
        obtain ⟨bytes, hmem, himage, hhash⟩ := h.core core hcore
        refine ⟨bytes, List.mem_append_left _ hmem, ?_, hhash⟩
        rcases vm core with hvm | ⟨refused, hload⟩
        · rw [hvm, himage]
        · rw [hE.error _ _ _ hload, himage]
  | published lenOk load =>
      rename_i core bytes ingress vm loaded
      obtain ⟨himage, htarget⟩ := hE.ok _ _ _ _ load
      have hmem : bytes ∈ s.loaded ++ (some bytes).toList :=
        List.mem_append_right _ (Option.mem_toList.mpr rfl)
      refine ⟨fun _ => ?_, fun c hcore => ?_⟩
      · dsimp only
        rw [activeBytes_publish lenOk]
        exact ⟨hmem, rfl, by rw [← htarget]; rfl, by rw [← htarget]; rfl⟩
      · by_cases hc : c = core
        · subst hc
          refine ⟨bytes, hmem, ?_, ?_⟩
          · simp [EpfStatics.publish, EpfStatics.setVm, himage]
          · simp [EpfStatics.publish]
        · -- the other core keeps its machine and its digest
          have hdigest : ((s.statics.setVm core vm).publish E core bytes (E.computeHash bytes)
              ingress loaded).coreDigest c = s.statics.coreDigest c := Function.update_of_ne hc _ _
          have hvm : ((s.statics.setVm core vm).publish E core bytes (E.computeHash bytes) ingress
              loaded).vm c = s.statics.vm c := Function.update_of_ne hc _ _
          dsimp only at hcore ⊢
          rw [hdigest] at hcore ⊢
          rw [hvm]
          obtain ⟨other, hother, himage', hhash⟩ := h.core c hcore
          exact ⟨other, List.mem_append_left _ hother, himage', hhash⟩
  | reloaded behind load =>
      rename_i core vm loaded
      obtain ⟨himage, -⟩ := hE.ok _ _ _ _ load
      -- the image reloaded is the active one, and it stays active
      obtain ⟨hmem, hdigest, htarget⟩ := h.active (activeLen_ne_zero behind)
      refine ⟨fun _ => ⟨List.mem_append_left _ hmem, hdigest, htarget⟩, fun c hcore => ?_⟩
      by_cases hc : c = core
      · subst hc
        refine ⟨s.statics.activeBytes, List.mem_append_left _ hmem, ?_, ?_⟩
        · simp [EpfStatics.setVm, himage]
        · simp [hdigest]
      · have hkeep : Function.update s.statics.coreDigest core s.statics.imageDigest c =
            s.statics.coreDigest c := Function.update_of_ne hc _ _
        dsimp only at hcore ⊢
        rw [hkeep] at hcore ⊢
        obtain ⟨other, hother, himage', hhash⟩ := h.core c hcore
        refine ⟨other, List.mem_append_left _ hother, ?_, hhash⟩
        rw [← himage']
        exact congrArg image (Function.update_of_ne hc _ _)

/-! ### The result -/

theorem LoadedTrue.of_inv {s : EpfState V} (h : EpfInv E image target s)
    (hcollision : ∀ x ∈ s.loaded, ∀ y ∈ s.loaded, E.computeHash x = E.computeHash y → x = y)
    {core : Core} (hloaded : epfLoadedForCore s.statics core) :
    LoadedTrue E image target s.statics core := by
  obtain ⟨hlen, hdigest, hcore⟩ := of_decide_eq_true hloaded
  obtain ⟨hmem, hactive, hkind, hpolicy⟩ := h.active hlen
  obtain ⟨bytes, hbytes, himage, hhash⟩ := h.core core (by rw [hcore]; exact hdigest)
  -- the core's digest is the active one, and so its image has the active image's hash
  have hsame : bytes = s.statics.activeBytes :=
    hcollision bytes hbytes _ hmem (by rw [hhash, hcore, hactive])
  exact ⟨by rw [himage, hsame], hactive, hkind, hpolicy⟩

/-- `u32::from` of a smaller word loses nothing. -/
theorem eq_of_setWidth_eq {v w : ℕ} (hle : v ≤ w) {x y : BitVec v}
    (h : x.setWidth w = y.setWidth w) : x = y := by
  have hnat := congrArg BitVec.toNat h
  rw [BitVec.toNat_setWidth_of_le hle, BitVec.toNat_setWidth_of_le hle] at hnat
  exact BitVec.eq_of_toNat_eq hnat

/-- A core that says it is loaded for a policy runs an image for that policy. -/
theorem policy_of_loadedTrue (hE : E.Loads image target) {core : Core} {policyId : BitVec 16}
    (hpolicy : epfPolicyLoaded m core policyId) (h : LoadedTrue E image target m core) :
    target m.activeBytes = .policy policyId := by
  obtain ⟨-, hkind, hid⟩ := of_decide_eq_true hpolicy
  rw [h.targetKind_eq] at hkind
  rw [h.policyId_eq] at hid
  refine hE.encode _ _ (Prod.ext ?_ ?_)
  · exact eq_of_setWidth_eq (by decide : 8 ≤ 32) (hkind.trans rfl)
  · exact eq_of_setWidth_eq (by decide : 16 ≤ 32) hid

theorem keepsActive_of_fails {a : EpfAction} (h : LoadFails E m a) :
    KeepsActive m (epfStep E m a) := by
  have hstep := epfStep_of_action E m a
  rw [epfLoads_of_fails h] at hstep
  generalize epfStep E m a = m' at hstep ⊢
  cases hstep with
  | kept keeps _ => exact keeps

/-- **`epf_loaded_for_core` tells the truth**, in every state the load functions of the two cores
reach in any order with any mailbox, as long as no two images loaded on the way have one hash: the
core's machine has the active image, whose hash and target the markers give; and a load that fails
changes none of them. -/
theorem epf_loaded_true (E : HibanaEpf V ε) (image : V → Option (List U8))
    (target : List U8 → Target) (hE : E.Loads image target) (as : List EpfAction) (s : EpfState V)
    (hrun : (epfMachine E).exec (.init E) as = some s)
    (hcollision : ∀ x ∈ s.loaded, ∀ y ∈ s.loaded, E.computeHash x = E.computeHash y → x = y) :
    (∀ core, epfLoadedForCore s.statics core → LoadedTrue E image target s.statics core) ∧
      (∀ core policyId, epfPolicyLoaded s.statics core policyId → ∃ bytes,
        image (s.statics.vm core) = some bytes ∧ target bytes = .policy policyId) ∧
      ∀ a, LoadFails E s.statics a → KeepsActive s.statics (epfStep E s.statics a) := by
  have hinv : EpfInv E image target s := Machine.exec_keeps (epfInv_step hE) epfInv_init hrun
  refine ⟨fun core hloaded => .of_inv hinv hcollision hloaded, fun core policyId hpolicy => ?_,
    fun a => keepsActive_of_fails⟩
  have htrue := LoadedTrue.of_inv hinv hcollision (of_decide_eq_true hpolicy).1
  exact ⟨_, htrue.image_eq, policy_of_loadedTrue hE hpolicy htrue⟩

theorem headerEpf_loads : headerEpf.Loads Prod.fst headerTarget where
  ok vm bytes vm' loaded h := by
    simp only [headerEpf] at h
    split at h
    · cases h
      exact ⟨rfl, rfl⟩
    · cases h
  error vm bytes vm' h := by
    simp only [headerEpf] at h
    split at h
    · cases h
    · cases h
      rfl
  encode t id h := by
    cases t with
    | observe => cases h
    | policy p => cases h; rfl

/-- The host commits an image for policy 57, core 0 takes it from the mailbox and core 1 after
it. -/
def commitAndLoad : List EpfAction :=
  [.mailbox epfBytecodeStateCommit 10 (fnv32 (headerImage 1 57))
      (Cells.store (fun _ => 0) 0 (headerImage 1 57)),
    .prepare .core0, .loadActive .core0, .prepare .core1, .loadActive .core1]

/-- Then both cores run it. -/
theorem epf_loaded_true_policy :
    ∃ s, (epfMachine headerEpf).exec (.init headerEpf) commitAndLoad = some s ∧
      epfPolicyLoaded s.statics .core1 57 ∧
      LoadedTrue headerEpf Prod.fst headerTarget s.statics .core1 := by
  have hrun : ((epfMachine headerEpf).exec (.init headerEpf) commitAndLoad).map (fun s =>
      decide (epfPolicyLoaded s.statics .core1 57 ∧
        s.loaded = [headerImage 1 57, headerImage 1 57])) = some true := by decide +kernel
  obtain ⟨s, hs, h⟩ := Option.map_eq_some_iff.mp hrun
  obtain ⟨hpolicy, hloaded⟩ := of_decide_eq_true h
  have htrue := epf_loaded_true _ _ _ headerEpf_loads _ s hs (by rw [hloaded]; decide +kernel)
  exact ⟨s, hs, hpolicy, htrue.1 .core1 (of_decide_eq_true hpolicy).1⟩

end HibanaPico.Baker
