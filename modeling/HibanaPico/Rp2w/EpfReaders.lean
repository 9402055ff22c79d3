import HibanaPico.Rp2w.EpfRoute

/-!
# RP2W — EPF image readers

Two functions look at the mailbox for an image to send over the choreography, and a third loads what
the host commits there.  The loader checks the length and the hash of a commit; the readers check
that it is of the length they ask for, and take it.  The two boards have the same three, word for
word, and in both the driver sends what it has read before any core has loaded it.

* `Pending`: there is a commit, of so many bytes.
* `ReadersAgree`: what is read as a commit is one that the loader accepts; anything else read is the
  active image.
* `epf_readers_agree_iff`: they agree exactly when the commit that is pending has the hash of its
  bytes.
* `epf_readers_disagree`: a commit that the loader rejects is sent.
-/

namespace HibanaPico.Baker
open HibanaPico.Transport

variable {V : Type}

/-- `baker_epf_policy_image_ready`: as on the other board. -/
def bakerEpfPolicyImageReady (m : EpfStatics V) : Bool := Rp2w.epfPolicyImageReady m

/-- `read_epf_policy_image::<N>`: as on the other board. -/
def readEpfPolicyImage (n : ℕ) (m : EpfStatics V) : Option (List U8) := Rp2w.readEpfPolicyImage n m

end HibanaPico.Baker

namespace HibanaPico.Rp2w
open HibanaPico.Support
open HibanaPico.Transport
open HibanaPico.Sio
open HibanaPico.Baker (HibanaEpf EpfStatics LenOk epfBytecodeBytes epfBytecodeStateCommit
  epfBytecodeStateRejected epfBytecodeStateLoaded epfLoadReasonBadHash epfLoadReasonBadLen
  epfIngressMailbox epfLoadImage epfPrepareCommittedImage epfLoadActiveImageForCore
  epfTryLoadCommittedImage epfRejectLoad headerEpf)

variable {V ε : Type}

/-- The mailbox holds a commit of `n` bytes. -/
def Pending (m : EpfStatics V) (n : ℕ) : Prop :=
  m.bytecodeState = epfBytecodeStateCommit ∧ m.bytecodeLen.toNat = n

instance (m : EpfStatics V) (n : ℕ) : Decidable (Pending m n) := inferInstanceAs (Decidable (_ ∧ _))

/-- What the driver sends after its look: the image it reads, or the notice. -/
def offered (read : ℕ → EpfStatics V → Option (List U8)) (m : EpfStatics V) : PolicyMsg :=
  match read epfPolicyImageBytes m with
  | some image => .policyImage image
  | none => .noImageNotice

theorem driverTurn_read {E : HibanaEpf V ε} {s : RouteState V ε} (h : s.driver = .read) :
    driverTurn E s = some { s with
      driver := .send (offered readEpfPolicyImage s.statics)
      found := epfPolicyImageReady s.statics } := by
  unfold driverTurn offered
  rw [h]
  cases readEpfPolicyImage epfPolicyImageBytes s.statics with
  | some image => rfl
  | none => rfl

/-- The image is the active one, and there is no commit in its place. -/
def FromActive (m : EpfStatics V) (n : ℕ) (image : List U8) : Prop :=
  ¬ Pending m n ∧ m.activeLen.toNat = n ∧ image = m.activeBytes

/-- The image is a commit that `epf_prepare_committed_image` accepts: of a length in range, with the
hash of its bytes.  Whichever core comes to it next loads these bytes. -/
def FromCommit (E : HibanaEpf V ε) (m : EpfStatics V) (n : ℕ) (image : List U8) : Prop :=
  Pending m n ∧ m.Sound E ∧ image = m.bytecodeBytes ∧ ∀ core,
    epfPrepareCommittedImage E m core =
      (epfLoadImage E m core image m.bytecodeHash epfIngressMailbox).1

/-- The readers of a board agree with its loader on these statics. -/
structure ReadersAgree (E : HibanaEpf V ε) (ready : EpfStatics V → Bool)
    (read : ℕ → EpfStatics V → Option (List U8)) (m : EpfStatics V) : Prop where
  /-- A commit that makes the board ready is one that the loader accepts. -/
  readied : Pending m epfBytecodeBytes → ready m = true → m.Sound E
  /-- What is read is a commit that the loader accepts, or the active image. -/
  accepted : ∀ n image, read n m = some image → FromCommit E m n image ∨ FromActive m n image
  /-- After a poll of the loader it is the active image. -/
  polled : ∀ core n image, read n (epfTryLoadCommittedImage E m core) = some image →
    FromActive (epfTryLoadCommittedImage E m core) n image
  /-- So is what the driver sends. -/
  sent : ∀ image, offered read m = .policyImage image →
    FromCommit E m epfPolicyImageBytes image ∨ FromActive m epfPolicyImageBytes image

/-- A pending commit, short enough to be read, is not empty and has the hash of its bytes. -/
def RightlyCommitted (E : HibanaEpf V ε) (m : EpfStatics V) : Prop :=
  m.bytecodeState = epfBytecodeStateCommit → m.bytecodeLen.toNat ≤ epfBytecodeBytes →
    m.bytecodeLen ≠ 0 ∧ E.computeHash m.bytecodeBytes = m.bytecodeHash

/-! ### The loader -/

variable {E : HibanaEpf V ε} {m : EpfStatics V} {core : Core}

theorem bytecodeState_epfLoadImage (image : List U8) (digest ingress : U32) :
    (epfLoadImage E m core image digest ingress).1.bytecodeState ≠ epfBytecodeStateCommit := by
  obtain ⟨-, h⟩ | ⟨-, ⟨vm, -, h⟩ | ⟨vm, loaded, -, h⟩⟩ :=
    Baker.epfLoadImage_cases E m core image digest ingress
  · rw [h]
    exact (by decide : epfBytecodeStateRejected ≠ epfBytecodeStateCommit)
  · rw [h]
    exact (by decide : epfBytecodeStateRejected ≠ epfBytecodeStateCommit)
  · rw [h]
    exact (by decide : epfBytecodeStateLoaded ≠ epfBytecodeStateCommit)

/-- The loader leaves no commit behind. -/
theorem bytecodeState_epfPrepareCommittedImage :
    (epfPrepareCommittedImage E m core).bytecodeState ≠ epfBytecodeStateCommit := by
  obtain ⟨hstate, h⟩ | ⟨-, ⟨-, h⟩ | ⟨-, -, h⟩ | ⟨-, h⟩⟩ :=
    Baker.epfPrepareCommittedImage_cases E m core
  · rw [h]
    exact hstate
  · rw [h]
    exact (by decide : epfBytecodeStateRejected ≠ epfBytecodeStateCommit)
  · rw [h]
    exact (by decide : epfBytecodeStateRejected ≠ epfBytecodeStateCommit)
  · rw [h]
    exact bytecodeState_epfLoadImage _ _ _

theorem bytecodeState_epfTryLoadCommittedImage :
    (epfTryLoadCommittedImage E m core).bytecodeState ≠ epfBytecodeStateCommit := by
  unfold epfTryLoadCommittedImage
  obtain ⟨-, h⟩ | ⟨-, ⟨vm, -, h⟩ | ⟨vm, loaded, -, h⟩⟩ :=
    Baker.epfLoadActiveImageForCore_cases E (epfPrepareCommittedImage E m core) core
  · rw [h]
    exact bytecodeState_epfPrepareCommittedImage
  · rw [h]
    exact (by decide : epfBytecodeStateRejected ≠ epfBytecodeStateCommit)
  · rw [h]
    exact bytecodeState_epfPrepareCommittedImage

/-- The loader accepts a sound commit: its bytes go to the virtual machine. -/
theorem epfPrepareCommittedImage_of_sound (hstate : m.bytecodeState = epfBytecodeStateCommit)
    (h : m.Sound E) (core : Core) : epfPrepareCommittedImage E m core =
      (epfLoadImage E m core m.bytecodeBytes m.bytecodeHash epfIngressMailbox).1 := by
  obtain ⟨hne, -⟩ | ⟨-, ⟨hlen, -⟩ | ⟨-, hhash, -⟩ | ⟨-, heq⟩⟩ :=
    Baker.epfPrepareCommittedImage_cases E m core
  · exact absurd hstate hne
  · exact absurd h.1 hlen
  · exact absurd h.2 hhash
  · exact heq

/-! ### The readers -/

/-- **`read_epf_policy_image`.**  A pending commit is read as it is; else the active image. -/
theorem readEpfPolicyImage_eq_some {n : ℕ} {image : List U8} :
    readEpfPolicyImage n m = some image ↔ n ≤ epfBytecodeBytes ∧
      (Pending m n ∧ image = m.bytecodeBytes ∨ FromActive m n image) := by
  unfold readEpfPolicyImage FromActive EpfStatics.bytecodeBytes EpfStatics.activeBytes
  by_cases hn : n > epfBytecodeBytes
  · rw [if_pos hn]
    exact iff_of_false (Option.some_ne_none _).symm fun h => Nat.not_lt.mpr h.1 hn
  rw [if_neg hn, and_iff_right (Nat.not_lt.mp hn)]
  by_cases hpending : m.bytecodeState = epfBytecodeStateCommit ∧ m.bytecodeLen.toNat = n
  · rw [if_pos hpending, Option.some.injEq, hpending.2]
    constructor
    · rintro rfl
      exact .inl ⟨hpending, rfl⟩
    · rintro (⟨-, rfl⟩ | ⟨hnot, -⟩)
      · rfl
      · exact absurd hpending hnot
  rw [if_neg hpending]
  by_cases hactive : m.activeLen.toNat = n
  · rw [if_pos hactive, Option.some.injEq, hactive]
    constructor
    · rintro rfl
      exact .inr ⟨hpending, rfl, rfl⟩
    · rintro (⟨h, -⟩ | ⟨-, -, rfl⟩)
      · exact absurd h hpending
      · rfl
  · rw [if_neg hactive]
    refine iff_of_false (Option.some_ne_none _).symm ?_
    rintro (⟨h, -⟩ | ⟨-, h, -⟩)
    · exact hpending h
    · exact hactive h

theorem offered_eq {read : ℕ → EpfStatics V → Option (List U8)} {image : List U8} :
    offered read m = .policyImage image ↔ read epfPolicyImageBytes m = some image := by
  unfold offered
  cases read epfPolicyImageBytes m with
  | none => exact iff_of_false (by simp) (by simp)
  | some _ => simp

/-- A commit that can be read has a length in range unless it is empty. -/
theorem RightlyCommitted.sound (h : RightlyCommitted E m) {n : ℕ} (hpending : Pending m n)
    (hn : n ≤ epfBytecodeBytes) : m.Sound E := by
  obtain ⟨hlen, hhash⟩ := h hpending.1 (hpending.2 ▸ hn)
  refine ⟨Baker.lenOk_slice.mpr (not_or.mpr ⟨fun hzero => hlen ?_, ?_⟩), hhash⟩
  · exact BitVec.eq_of_toNat_eq hzero
  · exact Nat.not_lt.mpr (hpending.2 ▸ hn)

/-- **A commit with the hash of its bytes** is read as the loader would load it. -/
theorem RightlyCommitted.read (h : RightlyCommitted E m) {n : ℕ} {image : List U8}
    (hread : readEpfPolicyImage n m = some image) :
    FromCommit E m n image ∨ FromActive m n image := by
  obtain ⟨hn, ⟨hpending, rfl⟩ | hactive⟩ := readEpfPolicyImage_eq_some.mp hread
  · have hsound := h.sound hpending hn
    exact .inl ⟨hpending, hsound, rfl, epfPrepareCommittedImage_of_sound hpending.1 hsound⟩
  · exact .inr hactive

theorem readersAgree_iff (E : HibanaEpf V ε) (m : EpfStatics V) :
    ReadersAgree E epfPolicyImageReady readEpfPolicyImage m ↔ RightlyCommitted E m := by
  constructor
  · intro h hstate hlen
    have hread : readEpfPolicyImage m.bytecodeLen.toNat m = some m.bytecodeBytes :=
      readEpfPolicyImage_eq_some.mpr ⟨hlen, .inl ⟨⟨hstate, rfl⟩, rfl⟩⟩
    rcases h.accepted _ _ hread with ⟨-, hsound, -⟩ | ⟨hnot, -⟩
    · refine ⟨fun hzero => ?_, hsound.2⟩
      have hzero' : m.bytecodeLen.toNat = 0 := by rw [hzero]; rfl
      exact Baker.lenOk_slice.mp hsound.1 (.inl hzero')
    · exact absurd ⟨hstate, rfl⟩ hnot
  · intro h
    refine ⟨fun hpending _ => h.sound hpending (Nat.le_refl _), fun n image => h.read,
      fun core n image hread => ?_, fun image hsent => h.read (offered_eq.mp hsent)⟩
    obtain ⟨-, ⟨hpending, -⟩ | hactive⟩ := readEpfPolicyImage_eq_some.mp hread
    · exact absurd hpending.1 bytecodeState_epfTryLoadCommittedImage
    · exact hactive

/-- What the driver takes from its look is a commit that the loader accepts, or the active image. -/
def HandsAccepted (E : HibanaEpf V ε) (s : RouteState V ε) (a : RouteAction ε) : Prop :=
  a = .driver → s.driver = .read → ∀ t image, driverTurn E s = some t →
    t.driver = .send (.policyImage image) →
      FromCommit E s.statics epfPolicyImageBytes image ∨
        FromActive s.statics epfPolicyImageBytes image

/-- A commit of a policy image's length that the driver comes to has the hash of its bytes. -/
def HashedAtRead (E : HibanaEpf V ε) (s : RouteState V ε) (a : RouteAction ε) : Prop :=
  a = .driver → s.driver = .read → Pending s.statics epfPolicyImageBytes →
    E.computeHash s.statics.bytecodeBytes = s.statics.bytecodeHash

theorem handsAccepted_iff (s : RouteState V ε) (a : RouteAction ε) :
    HandsAccepted E s a ↔ HashedAtRead E s a := by
  have hbytes : epfPolicyImageBytes = epfBytecodeBytes := rfl
  refine forall_congr' fun _ => forall_congr' fun hdriver => ?_
  rw [driverTurn_read hdriver]
  constructor
  · intro h hpending
    have hread : readEpfPolicyImage epfPolicyImageBytes s.statics =
        some s.statics.bytecodeBytes :=
      readEpfPolicyImage_eq_some.mpr ⟨Nat.le_refl _, .inl ⟨hpending, rfl⟩⟩
    rcases h _ _ rfl (congrArg Driver.send (offered_eq.mpr hread)) with
      ⟨-, hsound, -⟩ | ⟨hnot, -⟩
    · exact hsound.2
    · exact absurd hpending hnot
  · rintro h t image ⟨⟩ hsend
    have hread := offered_eq.mp (Driver.send.inj hsend)
    obtain ⟨-, ⟨hpending, rfl⟩ | hactive⟩ := readEpfPolicyImage_eq_some.mp hread
    · have hlen : LenOk s.statics.bytecodeBytes := by
        refine Baker.lenOk_slice.mpr ?_
        rw [hpending.2, hbytes]
        decide
      have hsound : s.statics.Sound E := ⟨hlen, h hpending⟩
      exact .inl ⟨hpending, hsound, rfl, epfPrepareCommittedImage_of_sound hpending.1 hsound⟩
    · exact .inr hactive

/-- **The image readers of both boards agree with the loader** exactly when the pending commit, if
it is short enough to be read, is not empty and has the hash of its bytes; and along every run of
the driver, whatever the host, the UART and the other core do in between, it takes images that the
loader accepts exactly if the commits it comes to have the hash of their bytes. -/
theorem epf_readers_agree_iff (E : HibanaEpf V ε) :
    (∀ m, ReadersAgree E Baker.bakerEpfPolicyImageReady Baker.readEpfPolicyImage m ↔
      RightlyCommitted E m) ∧
    (∀ m, ReadersAgree E epfPolicyImageReady readEpfPolicyImage m ↔ RightlyCommitted E m) ∧
    ∀ as, (routeMachine E).Along (HandsAccepted E) (.init E) as ↔
      (routeMachine E).Along (HashedAtRead E) (.init E) as :=
  ⟨readersAgree_iff E, readersAgree_iff E, fun _ =>
    Machine.along_iff_of_invariant (I := fun _ => True) (fun s a _ => handsAccepted_iff s a)
      (fun _ _ _ _ _ _ => trivial) trivial⟩

/-- The mailbox with a commit of 64 zeros, and zero for their hash. -/
def wrongCommit : EpfStatics (Option (List U8) × U32) :=
  { EpfStatics.init headerEpf with
    bytecodeState := epfBytecodeStateCommit
    bytecodeLen := 64 }

/-- **A commit that the loader rejects** for its hash makes both boards ready, is read and sent. -/
theorem epf_readers_disagree :
    ¬ ReadersAgree headerEpf Baker.bakerEpfPolicyImageReady Baker.readEpfPolicyImage wrongCommit ∧
    ¬ ReadersAgree headerEpf epfPolicyImageReady readEpfPolicyImage wrongCommit ∧
    epfPolicyImageReady wrongCommit = true ∧
    offered readEpfPolicyImage wrongCommit = .policyImage (List.replicate 64 0) ∧
    ∀ core, epfPrepareCommittedImage headerEpf wrongCommit core =
      epfRejectLoad wrongCommit epfLoadReasonBadHash := by
  have hhash : headerEpf.computeHash wrongCommit.bytecodeBytes ≠ wrongCommit.bytecodeHash := by
    decide +kernel
  have hnot : ¬ ReadersAgree headerEpf epfPolicyImageReady readEpfPolicyImage wrongCommit :=
    fun h => hhash (h.readied ⟨rfl, rfl⟩ rfl).2
  refine ⟨hnot, hnot, rfl, by decide +kernel, fun core => ?_⟩
  obtain ⟨hne, -⟩ | ⟨-, ⟨hlen, -⟩ | ⟨-, -, heq⟩ | ⟨hsound, -⟩⟩ :=
    Baker.epfPrepareCommittedImage_cases headerEpf wrongCommit core
  · exact absurd rfl hne
  · exact absurd (by decide +kernel) hlen
  · exact heq
  · exact absurd hsound.2 hhash

end HibanaPico.Rp2w
