import HibanaPico.Support.Cells
import HibanaPico.Sio.Types

/-!
# Baker — EPF

The statics through which the board loads images into its EPF virtual machines, one on each core:
a mailbox the host writes and commits, the image that is active, and for each core the digest of
the image it has loaded.  `hibana_epf` itself is a parameter.

* `HibanaEpf`: the calls the firmware makes of `hibana_epf`.
* `epfPrepareCommittedImage`, `loadEpfChoreographyImage`, `epfLoadActiveImageForCore`: the three
  ways an image reaches a core.
* `epfLoadImage_cases`, `epfLoadActiveImageForCore_cases`: what each can do.
* `headerEpf`: a machine that reads the image header the probe scripts write.
-/

namespace HibanaPico.Baker
open HibanaPico.Support
open HibanaPico.Transport
open HibanaPico.Sio

def epfBytecodeBytes : ℕ := 64
def epfTapSpoolEvents : ℕ := 16
def epfBytecodeStateEmpty : U32 := 0
def epfBytecodeStateCommit : U32 := 0x434f4d54
def epfBytecodeStateLoaded : U32 := 0x4c4f4144
def epfBytecodeStateRejected : U32 := 0x52454a54
def epfLoadReasonNone : U32 := 0
def epfLoadReasonBadLen : U32 := 1
def epfLoadReasonBadHash : U32 := 2
def epfLoadReasonVmTrap : U32 := 3
def epfLoadReasonLoadError : U32 := 4
def epfTargetObserve : U32 := 0
def epfTargetPolicy : U32 := 1
def epfIngressNone : U32 := 0
def epfIngressMailbox : U32 := 0x4d41494c
def epfIngressChoreography : U32 := 0x43484f52

/-- `hibana_epf::Target`. -/
inductive Target where
  | observe
  | policy (id : BitVec 16)
  deriving DecidableEq, Repr

/-- `hibana_epf::Load`: what a load that succeeds answers. -/
structure Load where
  target : Target
  epoch : U32
  deriving DecidableEq, Repr

/-- What the firmware branches on in a `hibana_epf::Out`. -/
structure Out where
  emitted : Bool
  /-- `trap_reason().is_some()`. -/
  trapped : Bool
  deriving DecidableEq, Repr

/-- `hibana_epf`, as the firmware calls it: `V` is what a core's virtual machine is, `ε` a tap
event. -/
structure HibanaEpf (V ε : Type) where
  new : V
  load : V → List U8 → V × Except Unit Load
  run : V → ε → V × Out
  computeHash : List U8 → U32
  /-- `Target::encode`. -/
  encode : Target → U8 × BitVec 16

/-- The `HIBANA_EPF_*` statics, and each core's virtual machine. -/
structure EpfStatics (V : Type) where
  bytecodeState : U32
  bytecodeLen : U32
  bytecodeHash : U32
  bytecodeImage : Cells U8
  activeImage : Cells U8
  activeLen : U32
  imageDigest : U32
  /-- `HIBANA_EPF_CORE0_IMAGE_DIGEST`, `HIBANA_EPF_CORE1_IMAGE_DIGEST`. -/
  coreDigest : Core → U32
  loadEpoch : U32
  activeTargetKind : U32
  activePolicyId : U32
  loadReason : U32
  imageIngress : U32
  vm : Core → V

variable {V ε : Type}

def EpfStatics.init (E : HibanaEpf V ε) : EpfStatics V :=
  { bytecodeState := epfBytecodeStateEmpty, bytecodeLen := 0, bytecodeHash := 0
    bytecodeImage := fun _ => 0, activeImage := fun _ => 0, activeLen := 0, imageDigest := 0
    coreDigest := fun _ => 0, loadEpoch := 0, activeTargetKind := epfTargetObserve
    activePolicyId := 0, loadReason := epfLoadReasonNone, imageIngress := epfIngressNone
    vm := fun _ => E.new }

def EpfStatics.setVm (m : EpfStatics V) (core : Core) (vm : V) : EpfStatics V :=
  { m with vm := Function.update m.vm core vm }

/-- `epf_hash_image`. -/
def epfHashImage (E : HibanaEpf V ε) (image : List U8) : U32 :=
  if image.length > epfBytecodeBytes then 0 else E.computeHash image

/-- `ACTIVE_IMAGE[..ACTIVE_LEN]`. -/
def EpfStatics.activeBytes (m : EpfStatics V) : List U8 := m.activeImage.slice 0 m.activeLen.toNat

def epfLoadedForCore (m : EpfStatics V) (core : Core) : Bool :=
  m.activeLen ≠ 0 ∧ m.imageDigest ≠ 0 ∧ m.coreDigest core = m.imageDigest

def epfPolicyLoaded (m : EpfStatics V) (core : Core) (policyId : BitVec 16) : Bool :=
  epfLoadedForCore m core ∧ m.activeTargetKind = epfTargetPolicy ∧
    m.activePolicyId = policyId.setWidth 32

def epfRejectLoad (m : EpfStatics V) (reason : U32) : EpfStatics V :=
  { m with loadReason := reason, bytecodeState := epfBytecodeStateRejected }

/-- The markers a load that succeeded writes. -/
def EpfStatics.publish (m : EpfStatics V) (E : HibanaEpf V ε) (core : Core) (image : List U8)
    (digest ingress : U32) (loaded : Load) : EpfStatics V :=
  { m with
    activeImage := m.activeImage.store 0 image
    activeLen := BitVec.ofNat 32 image.length
    imageDigest := digest
    coreDigest := Function.update m.coreDigest core digest
    loadEpoch := loaded.epoch
    activeTargetKind := (E.encode loaded.target).1.setWidth 32
    activePolicyId := (E.encode loaded.target).2.setWidth 32
    loadReason := epfLoadReasonNone
    imageIngress := ingress
    bytecodeState := epfBytecodeStateLoaded }

def epfLoadImage (E : HibanaEpf V ε) (m : EpfStatics V) (core : Core) (image : List U8)
    (digest ingress : U32) : EpfStatics V × Bool :=
  if image = [] ∨ image.length > epfBytecodeBytes then (epfRejectLoad m epfLoadReasonBadLen, false)
  else
    match E.load (m.vm core) image with
    | (vm, .error ()) => (epfRejectLoad (m.setVm core vm) epfLoadReasonLoadError, false)
    | (vm, .ok loaded) => ((m.setVm core vm).publish E core image digest ingress loaded, true)

def loadEpfChoreographyImage (E : HibanaEpf V ε) (m : EpfStatics V) (core : Core)
    (image : List U8) : EpfStatics V × Bool :=
  let digest := epfHashImage E image
  epfLoadImage E m core image digest epfIngressChoreography

/-- `BYTECODE_IMAGE[..BYTECODE_LEN]`. -/
def EpfStatics.bytecodeBytes (m : EpfStatics V) : List U8 :=
  m.bytecodeImage.slice 0 m.bytecodeLen.toNat

def epfPrepareCommittedImage (E : HibanaEpf V ε) (m : EpfStatics V) (core : Core) : EpfStatics V :=
  if m.bytecodeState ≠ epfBytecodeStateCommit then m
  else
    let len := m.bytecodeLen.toNat
    if len = 0 ∨ len > epfBytecodeBytes then epfRejectLoad m epfLoadReasonBadLen
    else
      let digest := epfHashImage E m.bytecodeBytes
      if digest ≠ m.bytecodeHash then epfRejectLoad m epfLoadReasonBadHash
      else (epfLoadImage E m core m.bytecodeBytes digest epfIngressMailbox).1

def epfLoadActiveImageForCore (E : HibanaEpf V ε) (m : EpfStatics V) (core : Core) :
    EpfStatics V :=
  let len := m.activeLen.toNat
  if len = 0 ∨ len > epfBytecodeBytes then m
  else if m.imageDigest = 0 then m
  else if m.coreDigest core = m.imageDigest then m
  else
    match E.load (m.vm core) m.activeBytes with
    | (vm, .error ()) => epfRejectLoad (m.setVm core vm) epfLoadReasonLoadError
    | (vm, .ok loaded) =>
        { m.setVm core vm with
          coreDigest := Function.update m.coreDigest core m.imageDigest
          loadEpoch := loaded.epoch }

/-- `epf_try_load_committed_image`, which is `poll_epf_image_load`. -/
def epfTryLoadCommittedImage (E : HibanaEpf V ε) (m : EpfStatics V) (core : Core) : EpfStatics V :=
  epfLoadActiveImageForCore E (epfPrepareCommittedImage E m core) core

/-! ### What the loads do -/

/-- A length that `epf_load_image` and the two callers that check it accept. -/
def LenOk (image : List U8) : Prop := image ≠ [] ∧ image.length ≤ epfBytecodeBytes

instance (image : List U8) : Decidable (LenOk image) := inferInstanceAs (Decidable (_ ∧ _))

theorem lenOk_iff {image : List U8} :
    LenOk image ↔ ¬ (image = [] ∨ image.length > epfBytecodeBytes) := by
  rw [LenOk, not_or, Nat.not_lt]

/-- The check of a length that has been read, on the bytes it cuts off. -/
theorem lenOk_slice {image : Cells U8} {n : ℕ} :
    LenOk (image.slice 0 n) ↔ ¬ (n = 0 ∨ n > epfBytecodeBytes) := by
  rw [lenOk_iff, ← List.length_eq_zero_iff, Cells.length_slice]

theorem epfHashImage_of_lenOk {E : HibanaEpf V ε} {image : List U8} (h : LenOk image) :
    epfHashImage E image = E.computeHash image := if_neg (Nat.not_lt.mpr h.2)

variable {E : HibanaEpf V ε} {m : EpfStatics V} {core : Core}

/-- **`epf_load_image`.**  The length is refused, or the virtual machine refuses the image, or it
has it. -/
theorem epfLoadImage_cases (E : HibanaEpf V ε) (m : EpfStatics V) (core : Core) (image : List U8)
    (digest ingress : U32) :
    (¬ LenOk image ∧ epfLoadImage E m core image digest ingress =
        (epfRejectLoad m epfLoadReasonBadLen, false)) ∨
      LenOk image ∧
        ((∃ vm, E.load (m.vm core) image = (vm, .error ()) ∧
            epfLoadImage E m core image digest ingress =
              (epfRejectLoad (m.setVm core vm) epfLoadReasonLoadError, false)) ∨
          ∃ vm loaded, E.load (m.vm core) image = (vm, .ok loaded) ∧
            epfLoadImage E m core image digest ingress =
              ((m.setVm core vm).publish E core image digest ingress loaded, true)) := by
  unfold epfLoadImage
  by_cases hlen : LenOk image
  · refine .inr ⟨hlen, ?_⟩
    rw [if_neg (lenOk_iff.mp hlen)]
    rcases E.load (m.vm core) image with ⟨vm, ⟨⟩ | loaded⟩
    · exact .inl ⟨vm, rfl, rfl⟩
    · exact .inr ⟨vm, loaded, rfl, rfl⟩
  · refine .inl ⟨hlen, ?_⟩
    rw [if_pos (not_not.mp (lenOk_iff.not.mp hlen))]

/-- The mailbox holds the image it says: its length is accepted and its hash is right. -/
def EpfStatics.Sound (E : HibanaEpf V ε) (m : EpfStatics V) : Prop :=
  LenOk m.bytecodeBytes ∧ E.computeHash m.bytecodeBytes = m.bytecodeHash

instance (E : HibanaEpf V ε) (m : EpfStatics V) : Decidable (m.Sound E) :=
  inferInstanceAs (Decidable (_ ∧ _))

/-- **`epf_prepare_committed_image`.** -/
theorem epfPrepareCommittedImage_cases (E : HibanaEpf V ε) (m : EpfStatics V) (core : Core) :
    (m.bytecodeState ≠ epfBytecodeStateCommit ∧ epfPrepareCommittedImage E m core = m) ∨
      m.bytecodeState = epfBytecodeStateCommit ∧
        (¬ LenOk m.bytecodeBytes ∧
            epfPrepareCommittedImage E m core = epfRejectLoad m epfLoadReasonBadLen ∨
          LenOk m.bytecodeBytes ∧ E.computeHash m.bytecodeBytes ≠ m.bytecodeHash ∧
            epfPrepareCommittedImage E m core = epfRejectLoad m epfLoadReasonBadHash ∨
          m.Sound E ∧ epfPrepareCommittedImage E m core =
            (epfLoadImage E m core m.bytecodeBytes m.bytecodeHash epfIngressMailbox).1) := by
  unfold epfPrepareCommittedImage
  by_cases hstate : m.bytecodeState = epfBytecodeStateCommit
  · refine .inr ⟨hstate, ?_⟩
    rw [if_neg (not_not.mpr hstate)]
    dsimp only
    by_cases hlen : LenOk m.bytecodeBytes
    · rw [if_neg (lenOk_slice.mp hlen), epfHashImage_of_lenOk hlen]
      by_cases hhash : E.computeHash m.bytecodeBytes = m.bytecodeHash
      · exact .inr (.inr ⟨⟨hlen, hhash⟩, by rw [if_neg (not_not.mpr hhash), hhash]⟩)
      · exact .inr (.inl ⟨hlen, hhash, if_pos hhash⟩)
    · exact .inl ⟨hlen, if_pos (not_not.mp (lenOk_slice.not.mp hlen))⟩
  · exact .inl ⟨hstate, if_pos hstate⟩

/-- There is an active image that the core has not loaded. -/
def EpfStatics.Behind (m : EpfStatics V) (core : Core) : Prop :=
  LenOk m.activeBytes ∧ m.imageDigest ≠ 0 ∧ m.coreDigest core ≠ m.imageDigest

instance (m : EpfStatics V) (core : Core) : Decidable (m.Behind core) :=
  inferInstanceAs (Decidable (_ ∧ _))

/-- **`epf_load_active_image_for_core`.** -/
theorem epfLoadActiveImageForCore_cases (E : HibanaEpf V ε) (m : EpfStatics V) (core : Core) :
    (¬ m.Behind core ∧ epfLoadActiveImageForCore E m core = m) ∨
      m.Behind core ∧
        ((∃ vm, E.load (m.vm core) m.activeBytes = (vm, .error ()) ∧
            epfLoadActiveImageForCore E m core =
              epfRejectLoad (m.setVm core vm) epfLoadReasonLoadError) ∨
          ∃ vm loaded, E.load (m.vm core) m.activeBytes = (vm, .ok loaded) ∧
            epfLoadActiveImageForCore E m core =
              { m.setVm core vm with
                coreDigest := Function.update m.coreDigest core m.imageDigest
                loadEpoch := loaded.epoch }) := by
  unfold epfLoadActiveImageForCore
  dsimp only
  by_cases hlen : LenOk m.activeBytes
  · rw [if_neg (lenOk_slice.mp hlen)]
    by_cases hdigest : m.imageDigest = 0
    · exact .inl ⟨fun h => h.2.1 hdigest, if_pos hdigest⟩
    rw [if_neg hdigest]
    by_cases hcore : m.coreDigest core = m.imageDigest
    · exact .inl ⟨fun h => h.2.2 hcore, if_pos hcore⟩
    rw [if_neg hcore]
    refine .inr ⟨⟨hlen, hdigest, hcore⟩, ?_⟩
    rcases E.load (m.vm core) m.activeBytes with ⟨vm, ⟨⟩ | loaded⟩
    · exact .inl ⟨vm, rfl, rfl⟩
    · exact .inr ⟨vm, loaded, rfl, rfl⟩
  · exact .inl ⟨fun h => hlen h.1, if_pos (not_not.mp (lenOk_slice.not.mp hlen))⟩

/-- The image a core has published is the active one. -/
theorem activeBytes_publish {image : List U8} (h : LenOk image) (digest ingress : U32)
    (loaded : Load) : (m.publish E core image digest ingress loaded).activeBytes = image := by
  have hlen : (BitVec.ofNat 32 image.length).toNat = image.length := by
    have := h.2
    rw [BitVec.toNat_ofNat, Nat.mod_eq_of_lt]
    unfold epfBytecodeBytes at this
    omega
  rw [EpfStatics.activeBytes]
  change (m.activeImage.store 0 image).slice 0 (BitVec.ofNat 32 image.length).toNat = image
  rw [hlen, Cells.slice_store]

/-! ### A machine for the images of the probe scripts -/

/-- `fnv32`, the hash the probe scripts commit. -/
def fnv32 (bytes : List U8) : U32 :=
  bytes.foldl (fun h byte => (h ^^^ byte.setWidth 32) * 0x01000193) 0x811c9dc5

/-- The target in an image's header: the kind in byte 6, the policy in bytes 8 and 9. -/
def headerTarget (image : List U8) : Target :=
  if image.getD 6 0 = 1 then .policy (image.getD 9 0 ++ image.getD 8 0) else .observe

/-- A machine that loads any image whose header begins with `EPF0`, and keeps the image and the
number of loads; its events are whether it emits for them. -/
def headerEpf : HibanaEpf (Option (List U8) × U32) Bool :=
  { new := (none, 0)
    load := fun vm image =>
      if image.take 4 = [0x45, 0x50, 0x46, 0x30] then
        ((some image, vm.2 + 1), .ok { target := headerTarget image, epoch := vm.2 + 1 })
      else (vm, .error ())
    run := fun vm event => (vm, { emitted := event, trapped := false })
    computeHash := fnv32
    encode := fun
      | .observe => (0, 0)
      | .policy id => (1, id) }

/-- The header of an image for a target, with no code. -/
def headerImage (kind : U8) (policy : BitVec 16) : List U8 :=
  [0x45, 0x50, 0x46, 0x30, 1, 0, kind, 0, policy.extractLsb' 0 8, policy.extractLsb' 8 8]

end HibanaPico.Baker
