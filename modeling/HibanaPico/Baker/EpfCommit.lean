import HibanaPico.Baker.Epf
import HibanaPico.Support.Runs

/-!
# Baker — Commit

What becomes of an image the host commits.  A load function reads what it loads and gives it to the
core's machine, and then writes its markers; between the two, and between the two halves of
`poll_epf_image_load`, the other core and the host may do anything.

* `judgeCommitted`, `judgeActive`, `judgeImage`: the load functions up to their first marker.
* `commitMachine`: the cores and the host, and what an observer notes when a commit ends.
* `Own`: a commit ended on its own account.
* `commits_judged`: every commit does, when each is left to be judged.
-/

namespace HibanaPico.Baker
open HibanaPico.Support
open HibanaPico.Transport
open HibanaPico.Sio

variable {V ε : Type}

/-- The markers a core is about to write. -/
inductive Verdict where
  | rejected (reason : U32)
  | loaded (image : List U8) (digest ingress : U32) (loaded : Load)
  /-- The core has the active image; the state word stays. -/
  | reloaded (digest : U32) (loaded : Load)

def EpfStatics.write (m : EpfStatics V) (E : HibanaEpf V ε) (core : Core) : Verdict → EpfStatics V
  | .rejected reason => epfRejectLoad m reason
  | .loaded image digest ingress loaded => m.publish E core image digest ingress loaded
  | .reloaded digest loaded =>
      { m with
        coreDigest := Function.update m.coreDigest core digest
        loadEpoch := loaded.epoch }

/-- `epf_load_image`, up to its first marker. -/
def judgeImage (E : HibanaEpf V ε) (vm : V) (image : List U8) (digest ingress : U32) :
    V × Verdict :=
  if LenOk image then
    match E.load vm image with
    | (vm, .error ()) => (vm, .rejected epfLoadReasonLoadError)
    | (vm, .ok loaded) => (vm, .loaded image digest ingress loaded)
  else (vm, .rejected epfLoadReasonBadLen)

/-- `epf_prepare_committed_image`, up to its first marker; none when nothing is committed. -/
def judgeCommitted (E : HibanaEpf V ε) (m : EpfStatics V) (core : Core) : Option (V × Verdict) :=
  if m.bytecodeState ≠ epfBytecodeStateCommit then none
  else if ¬ LenOk m.bytecodeBytes then some (m.vm core, .rejected epfLoadReasonBadLen)
  else if E.computeHash m.bytecodeBytes ≠ m.bytecodeHash then
    some (m.vm core, .rejected epfLoadReasonBadHash)
  else some (judgeImage E (m.vm core) m.bytecodeBytes m.bytecodeHash epfIngressMailbox)

/-- `epf_load_active_image_for_core`, up to its first marker; none when the core is not behind. -/
def judgeActive (E : HibanaEpf V ε) (m : EpfStatics V) (core : Core) : Option (V × Verdict) :=
  if m.Behind core then
    match E.load (m.vm core) m.activeBytes with
    | (vm, .error ()) => some (vm, .rejected epfLoadReasonLoadError)
    | (vm, .ok loaded) => some (vm, .reloaded m.imageDigest loaded)
  else none

/-! ### The load functions are a judgement and then its markers -/

variable {E : HibanaEpf V ε} {m : EpfStatics V} {core : Core}

@[simp] theorem setVm_self (m : EpfStatics V) (core : Core) : m.setVm core (m.vm core) = m := by
  rw [EpfStatics.setVm, Function.update_eq_self]

/-- The markers written after a judgement. -/
def EpfStatics.judged (m : EpfStatics V) (E : HibanaEpf V ε) (core : Core) (j : V × Verdict) :
    EpfStatics V :=
  (m.setVm core j.1).write E core j.2

theorem epfLoadImage_eq (E : HibanaEpf V ε) (m : EpfStatics V) (core : Core) (image : List U8)
    (digest ingress : U32) : (epfLoadImage E m core image digest ingress).1 =
      m.judged E core (judgeImage E (m.vm core) image digest ingress) := by
  unfold judgeImage EpfStatics.judged
  obtain ⟨hbad, heq⟩ | ⟨hlen, ⟨vm, hload, heq⟩ | ⟨vm, loaded, hload, heq⟩⟩ :=
    epfLoadImage_cases E m core image digest ingress
  · rw [heq, if_neg hbad, setVm_self]
    rfl
  · rw [heq, if_pos hlen, hload]
    rfl
  · rw [heq, if_pos hlen, hload]
    rfl

theorem epfPrepareCommittedImage_eq (E : HibanaEpf V ε) (m : EpfStatics V) (core : Core) :
    epfPrepareCommittedImage E m core = (judgeCommitted E m core).elim m (m.judged E core) := by
  unfold judgeCommitted
  obtain ⟨hstate, heq⟩ | ⟨hstate, ⟨hbad, heq⟩ | ⟨hlen, hbad, heq⟩ | ⟨hsound, heq⟩⟩ :=
    epfPrepareCommittedImage_cases E m core
  · rw [heq, if_pos hstate]
    rfl
  · rw [heq, if_neg (not_not.mpr hstate), if_pos hbad, Option.elim_some, EpfStatics.judged,
      setVm_self]
    rfl
  · rw [heq, if_neg (not_not.mpr hstate), if_neg (not_not.mpr hlen), if_pos hbad,
      Option.elim_some, EpfStatics.judged, setVm_self]
    rfl
  · rw [heq, if_neg (not_not.mpr hstate), if_neg (not_not.mpr hsound.1),
      if_neg (not_not.mpr hsound.2), Option.elim_some, epfLoadImage_eq]

theorem epfLoadActiveImageForCore_eq (E : HibanaEpf V ε) (m : EpfStatics V) (core : Core) :
    epfLoadActiveImageForCore E m core = (judgeActive E m core).elim m (m.judged E core) := by
  unfold judgeActive
  obtain ⟨hbehind, heq⟩ | ⟨hbehind, ⟨vm, hload, heq⟩ | ⟨vm, loaded, hload, heq⟩⟩ :=
    epfLoadActiveImageForCore_cases E m core
  · rw [heq, if_neg hbehind]
    rfl
  · rw [heq, if_pos hbehind, hload]
    rfl
  · rw [heq, if_pos hbehind, hload]
    rfl

/-! ### The cores and the host -/

/-- What the mailbox holds: the bytes it cuts off, and the hash it gives. -/
structure Mailbox where
  bytes : List U8
  hash : U32
  deriving DecidableEq

def EpfStatics.mailbox (m : EpfStatics V) : Mailbox := ⟨m.bytecodeBytes, m.bytecodeHash⟩

/-- What a core judged. -/
inductive Job where
  | committed (mailbox : Mailbox)
  | active
  | choreography (image : List U8)

/-- Where a core is. -/
inductive Phase where
  | idle
  /-- Between the two halves of `poll_epf_image_load`. -/
  | halfway
  | writing (job : Job) (verdict : Verdict)

/-- The verdict a core is about to write is one that the state word shows. -/
def Phase.AboutToWrite : Phase → Prop
  | .writing _ (.rejected _) | .writing _ (.loaded _ _ _ _) => True
  | _ => False

/-- A commit that a core has ended: what it held, what the state and reason words now say, and the
image the core gave to its machine last, with whether it took it. -/
structure Ended where
  core : Core
  mailbox : Mailbox
  state : U32
  reason : U32
  tried : Option (List U8 × Bool)

structure CommitState (V : Type) where
  statics : EpfStatics V
  phase : Core → Phase
  tried : Core → Option (List U8 × Bool)
  ended : List Ended

def CommitState.init (E : HibanaEpf V ε) : CommitState V :=
  { statics := .init E, phase := fun _ => .idle, tried := fun _ => none, ended := [] }

inductive CommitAction where
  /-- The host writes the length, the hash and the image. -/
  | mailbox (len hash : U32) (image : Cells U8)
  /-- The host writes the state word. -/
  | bytecodeState (word : U32)
  /-- A core begins `poll_epf_image_load`. -/
  | poll (core : Core)
  /-- It goes on to the second half. -/
  | reload (core : Core)
  | choreography (core : Core) (image : List U8)
  /-- A core writes its verdict. -/
  | write (core : Core)

/-- Note an image given to a core's machine. -/
def CommitState.noteTried (s : CommitState V) (E : HibanaEpf V ε) (core : Core) (image : List U8) :
    Core → Option (List U8 × Bool) :=
  Function.update s.tried core (some (image, (E.load (s.statics.vm core) image).2.toOption.isSome))

/-- A core has judged an image and stands before its first marker. -/
def CommitState.judges (s : CommitState V) (core : Core) (job : Job) (j : V × Verdict)
    (tried : Core → Option (List U8 × Bool)) : CommitState V :=
  { s with
    statics := s.statics.setVm core j.1
    phase := Function.update s.phase core (.writing job j.2)
    tried }

/-- A core has written its verdict. -/
def CommitState.writes (s : CommitState V) (E : HibanaEpf V ε) (core : Core) (job : Job)
    (v : Verdict) : CommitState V :=
  let statics := s.statics.write E core v
  { statics
    phase := Function.update s.phase core (match job with | .committed _ => .halfway | _ => .idle)
    tried := s.tried
    ended :=
      if s.statics.bytecodeState = epfBytecodeStateCommit ∧
          statics.bytecodeState ≠ epfBytecodeStateCommit then
        s.ended ++ [⟨core, s.statics.mailbox, statics.bytecodeState, statics.loadReason,
          s.tried core⟩]
      else s.ended }

def commitNext (E : HibanaEpf V ε) (s : CommitState V) : CommitAction → Option (CommitState V)
  | .mailbox len hash image =>
      some { s with statics := { s.statics with
        bytecodeLen := len
        bytecodeHash := hash
        bytecodeImage := image } }
  | .bytecodeState word => some { s with statics := { s.statics with bytecodeState := word } }
  | .poll core =>
      match s.phase core with
      | .idle =>
          match judgeCommitted E s.statics core with
          | none => some { s with phase := Function.update s.phase core .halfway }
          | some j => some (s.judges core (.committed s.statics.mailbox) j
              (if s.statics.Sound E then s.noteTried E core s.statics.bytecodeBytes else s.tried))
      | _ => none
  | .reload core =>
      match s.phase core with
      | .halfway =>
          match judgeActive E s.statics core with
          | none => some { s with phase := Function.update s.phase core .idle }
          | some j => some (s.judges core .active j (s.noteTried E core s.statics.activeBytes))
      | _ => none
  | .choreography core image =>
      match s.phase core with
      | .idle => some (s.judges core (.choreography image)
          (judgeImage E (s.statics.vm core) image (epfHashImage E image) epfIngressChoreography)
          (if LenOk image then s.noteTried E core image else s.tried))
      | _ => none
  | .write core =>
      match s.phase core with
      | .writing job v => some (s.writes E core job v)
      | _ => none

def commitMachine (E : HibanaEpf V ε) : Machine (CommitState V) CommitAction := ⟨commitNext E⟩

/-- **A commit ended on its own account**: rejected for its own length or hash, or for a load of
its own bytes that failed, or loaded by a load of its own bytes. -/
def Own (E : HibanaEpf V ε) (e : Ended) : Prop :=
  if ¬ LenOk e.mailbox.bytes then
    e.state = epfBytecodeStateRejected ∧ e.reason = epfLoadReasonBadLen
  else if E.computeHash e.mailbox.bytes ≠ e.mailbox.hash then
    e.state = epfBytecodeStateRejected ∧ e.reason = epfLoadReasonBadHash
  else
    e.state = epfBytecodeStateRejected ∧ e.reason = epfLoadReasonLoadError ∧
        e.tried = some (e.mailbox.bytes, false) ∨
      e.state = epfBytecodeStateLoaded ∧ e.tried = some (e.mailbox.bytes, true)

/-- **A commit is left to be judged.**  The host writes no mailbox under a core that is about to
write a verdict, and no load that is not of the committed image is begun on the way to a verdict
while a commit is pending. -/
def LeftToBeJudged (E : HibanaEpf V ε) (s : CommitState V) : CommitAction → Prop
  | .mailbox _ _ _ => s.statics.bytecodeState = epfBytecodeStateCommit →
      ∀ core, ¬ (s.phase core).AboutToWrite
  | .bytecodeState word => word = epfBytecodeStateCommit → ∀ core, ¬ (s.phase core).AboutToWrite
  | .choreography _ image => s.statics.bytecodeState = epfBytecodeStateCommit →
      s.statics.Sound E ∧ s.statics.bytecodeBytes = image
  | .reload core => s.statics.bytecodeState = epfBytecodeStateCommit → s.statics.Behind core →
      (E.load (s.statics.vm core) s.statics.activeBytes).2.toOption.isSome
  | .poll _ | .write _ => True

/-! ### Judgements -/

/-- The verdict is right for a mailbox, by what the core tried last. -/
def Judged (E : HibanaEpf V ε) (mb : Mailbox) (v : Verdict) (tried : Option (List U8 × Bool)) :
    Prop :=
  if ¬ LenOk mb.bytes then v = .rejected epfLoadReasonBadLen
  else if E.computeHash mb.bytes ≠ mb.hash then v = .rejected epfLoadReasonBadHash
  else
    v = .rejected epfLoadReasonLoadError ∧ tried = some (mb.bytes, false) ∨
      ∃ digest ingress loaded, v = .loaded mb.bytes digest ingress loaded ∧
        tried = some (mb.bytes, true)

/-- The verdict of a job is one for this mailbox. -/
def Job.About (E : HibanaEpf V ε) (mb : Mailbox) : Job → Prop
  | .committed read => read = mb
  | .choreography image => LenOk mb.bytes ∧ E.computeHash mb.bytes = mb.hash ∧ mb.bytes = image
  | .active => False

/-- **A right verdict ends a commit on its own account.** -/
theorem own_of_judged {v : Verdict} {tried : Option (List U8 × Bool)}
    (h : Judged E m.mailbox v tried) : Own E ⟨core, m.mailbox, (m.write E core v).bytecodeState,
      (m.write E core v).loadReason, tried⟩ := by
  unfold Judged at h
  unfold Own
  dsimp only
  split at h
  · rename_i hlen
    subst h
    rw [if_pos hlen]
    exact ⟨rfl, rfl⟩
  rename_i hlen
  rw [if_neg hlen]
  split at h
  · rename_i hhash
    subst h
    rw [if_pos hhash]
    exact ⟨rfl, rfl⟩
  rename_i hhash
  rw [if_neg hhash]
  rcases h with ⟨rfl, htried⟩ | ⟨digest, ingress, loaded, rfl, htried⟩
  · exact .inl ⟨rfl, rfl, htried⟩
  · exact .inr ⟨rfl, htried⟩

theorem judged_badLen {mb : Mailbox} (hlen : ¬ LenOk mb.bytes) (tried : Option (List U8 × Bool)) :
    Judged E mb (.rejected epfLoadReasonBadLen) tried := by
  rw [Judged, if_pos hlen]

theorem judged_badHash {mb : Mailbox} (hlen : LenOk mb.bytes)
    (hhash : E.computeHash mb.bytes ≠ mb.hash) (tried : Option (List U8 × Bool)) :
    Judged E mb (.rejected epfLoadReasonBadHash) tried := by
  rw [Judged, if_neg (not_not.mpr hlen), if_pos hhash]

theorem judged_judgeImage {mb : Mailbox} (hlen : LenOk mb.bytes)
    (hhash : E.computeHash mb.bytes = mb.hash) (vm : V) (digest ingress : U32) :
    Judged E mb (judgeImage E vm mb.bytes digest ingress).2
      (some (mb.bytes, (E.load vm mb.bytes).2.toOption.isSome)) := by
  unfold Judged judgeImage
  rw [if_neg (not_not.mpr hlen), if_neg (not_not.mpr hhash), if_pos hlen]
  rcases E.load vm mb.bytes with ⟨vm', ⟨⟩ | loaded⟩
  · exact .inl ⟨rfl, rfl⟩
  · exact .inr ⟨digest, ingress, loaded, rfl, rfl⟩

theorem judged_judgeCommitted {j : V × Verdict} {tried : Option (List U8 × Bool)}
    (h : judgeCommitted E m core = some j) (htried : m.Sound E →
      tried = some (m.bytecodeBytes, (E.load (m.vm core) m.bytecodeBytes).2.toOption.isSome)) :
    Judged E m.mailbox j.2 tried := by
  unfold judgeCommitted at h
  split at h
  · cases h
  split at h
  · rename_i hlen
    cases h
    exact judged_badLen hlen tried
  rename_i hlen
  split at h
  · rename_i hhash
    cases h
    exact judged_badHash (not_not.mp hlen) hhash tried
  · rename_i hhash
    cases h
    rw [htried ⟨not_not.mp hlen, not_not.mp hhash⟩]
    exact judged_judgeImage (not_not.mp hlen) (not_not.mp hhash) _ _ _

/-- The verdict of a reload shows in the state word only if the machine refused the image. -/
theorem judgeActive_refused {j : V × Verdict} (h : judgeActive E m core = some j)
    (hload : (E.load (m.vm core) m.activeBytes).2.toOption.isSome) :
    ¬ (Phase.writing .active j.2).AboutToWrite := by
  unfold judgeActive at h
  split at h
  · rcases hout : E.load (m.vm core) m.activeBytes with ⟨vm, ⟨⟩ | loaded⟩
    · rw [hout] at hload
      cases hload
    · rw [hout] at h
      cases h
      exact id
  · cases h

/-- A commit is judged with a verdict that the state word shows. -/
theorem judgeCommitted_of_commit (hstate : m.bytecodeState = epfBytecodeStateCommit) (core : Core)
    (job : Job) : ∃ j, judgeCommitted E m core = some j ∧
      (Phase.writing job j.2).AboutToWrite := by
  unfold judgeCommitted
  rw [if_neg (not_not.mpr hstate)]
  split
  · exact ⟨_, rfl, trivial⟩
  split
  · exact ⟨_, rfl, trivial⟩
  · refine ⟨_, rfl, ?_⟩
    unfold judgeImage
    split
    · rcases E.load (m.vm core) m.bytecodeBytes with ⟨vm, ⟨⟩ | loaded⟩ <;> trivial
    · trivial

/-- Such a verdict leaves no commit pending. -/
theorem write_ne_commit {v : Verdict} {job : Job} (h : (Phase.writing job v).AboutToWrite) :
    (m.write E core v).bytecodeState ≠ epfBytecodeStateCommit := by
  cases v with
  | rejected reason =>
      have hne : epfBytecodeStateRejected ≠ epfBytecodeStateCommit := by decide
      exact hne
  | loaded image digest ingress loaded =>
      have hne : epfBytecodeStateLoaded ≠ epfBytecodeStateCommit := by decide
      exact hne
  | reloaded digest loaded => exact h.elim

/-! ### The invariant -/

structure CommitInv (E : HibanaEpf V ε) (s : CommitState V) : Prop where
  /-- What a core is about to write is right for the mailbox it is about. -/
  done : ∀ core job v, s.phase core = .writing job v → ∀ mb, job.About E mb →
    Judged E mb v (s.tried core)
  /-- While a commit is pending, every verdict about to be written is about it. -/
  pending : s.statics.bytecodeState = epfBytecodeStateCommit → ∀ core job v,
    s.phase core = .writing job v → (s.phase core).AboutToWrite →
    job.About E s.statics.mailbox
  own : ∀ e ∈ s.ended, Own E e

theorem commitInv_init : CommitInv E (.init E) where
  done _ _ _ h := by cases h
  pending _ _ _ _ h := by cases h
  own _ h := by cases h

variable {s : CommitState V}

/-- Who is about to write, after one core has gone on. -/
theorem writing_update {phases : Core → Phase} {phase : Phase} {c : Core} {job : Job} {v : Verdict}
    (h : Function.update phases core phase c = .writing job v) :
    c = core ∧ phase = .writing job v ∨ c ≠ core ∧ phases c = .writing job v := by
  by_cases hc : c = core
  · subst hc
    rw [Function.update_self] at h
    exact .inl ⟨rfl, h⟩
  · rw [Function.update_of_ne hc] at h
    exact .inr ⟨hc, h⟩

/-- A core judges an image. -/
theorem CommitInv.judges (h : CommitInv E s) {job : Job} {j : V × Verdict}
    {tried : Core → Option (List U8 × Bool)} (htried : ∀ c, c ≠ core → tried c = s.tried c)
    (hdone : ∀ mb, job.About E mb → Judged E mb j.2 (tried core))
    (hpending : s.statics.bytecodeState = epfBytecodeStateCommit →
      (Phase.writing job j.2).AboutToWrite → job.About E s.statics.mailbox) :
    CommitInv E (s.judges core job j tried) := by
  refine ⟨fun c job' v hphase mb habout => ?_, fun hstate c job' v hphase hwrite => ?_, h.own⟩
  · rcases writing_update hphase with ⟨rfl, hwriting⟩ | ⟨hc, hbefore⟩
    · cases hwriting
      exact hdone mb habout
    · dsimp only [CommitState.judges]
      rw [htried c hc]
      exact h.done c job' v hbefore mb habout
  · rw [hphase] at hwrite
    rcases writing_update hphase with ⟨rfl, hwriting⟩ | ⟨hc, hbefore⟩
    · cases hwriting
      exact hpending hstate hwrite
    · exact h.pending hstate c job' v hbefore (by rw [hbefore]; exact hwrite)

/-- A core that is not about to write goes on. -/
theorem CommitInv.moves (h : CommitInv E s) {phase : Phase}
    (hphase : ∀ job v, phase ≠ .writing job v) :
    CommitInv E { s with phase := Function.update s.phase core phase } := by
  refine ⟨fun c job v hwriting mb habout => ?_, fun hstate c job v hwriting hwrite => ?_, h.own⟩
  · rcases writing_update hwriting with ⟨-, hnow⟩ | ⟨-, hbefore⟩
    · exact absurd hnow (hphase job v)
    · exact h.done c job v hbefore mb habout
  · rw [hwriting] at hwrite
    rcases writing_update hwriting with ⟨-, hnow⟩ | ⟨-, hbefore⟩
    · exact absurd hnow (hphase job v)
    · exact h.pending hstate c job v hbefore (by rw [hbefore]; exact hwrite)

/-- The host writes, with no core about to write a verdict. -/
theorem CommitInv.host (h : CommitInv E s) {statics : EpfStatics V}
    (hquiet : statics.bytecodeState = epfBytecodeStateCommit →
      ∀ core, ¬ (s.phase core).AboutToWrite) : CommitInv E { s with statics } :=
  ⟨h.done, fun hstate core _ _ _ hwrite => absurd hwrite (hquiet hstate core), h.own⟩

/-- A core writes its verdict. -/
theorem CommitInv.writes (h : CommitInv E s) {job : Job} {v : Verdict}
    (hphase : s.phase core = .writing job v) : CommitInv E (s.writes E core job v) := by
  have hothers : ∀ c job' v', (s.writes E core job v).phase c = .writing job' v' →
      c ≠ core ∧ s.phase c = .writing job' v' := by
    intro c job' v' hwriting
    rcases writing_update hwriting with ⟨-, hnow⟩ | hbefore
    · split at hnow <;> cases hnow
    · exact hbefore
  refine ⟨fun c job' v' hwriting => h.done c job' v' (hothers c job' v' hwriting).2,
    fun hstate c job' v' hwriting hwrite => ?_, ?_⟩
  · -- only a reload that succeeded leaves a commit pending
    obtain ⟨-, hbefore⟩ := hothers c job' v' hwriting
    rw [hwriting] at hwrite
    cases v with
    | rejected reason => exact absurd hstate (@write_ne_commit _ _ E _ core _ job trivial)
    | loaded image digest ingress loaded =>
        exact absurd hstate (@write_ne_commit _ _ E _ core _ job trivial)
    | reloaded digest loaded =>
        exact h.pending hstate c job' v' hbefore (by rw [hbefore]; exact hwrite)
  · dsimp only [CommitState.writes]
    split
    · rename_i hends
      intro e he
      rcases List.mem_append.mp he with he | he
      · exact h.own e he
      · obtain rfl := List.mem_singleton.mp he
        have hwrite : (s.phase core).AboutToWrite := by
          rw [hphase]
          cases v with
          | rejected reason => trivial
          | loaded image digest ingress loaded => trivial
          | reloaded digest loaded => exact absurd hends.1 hends.2
        have hjudged := h.pending hends.1 core job v hphase hwrite
        exact own_of_judged (h.done core job v hphase _ hjudged)
    · exact h.own

theorem commitInv_step (s : CommitState V) (a : CommitAction) (t : CommitState V)
    (h : CommitInv E s) (hleft : LeftToBeJudged E s a)
    (hnext : (commitMachine E).next s a = some t) : CommitInv E t := by
  cases a with
  | mailbox len hash image =>
      obtain rfl := Option.some.inj hnext
      exact h.host hleft
  | bytecodeState word =>
      obtain rfl := Option.some.inj hnext
      exact h.host hleft
  | poll core =>
      simp only [commitMachine, commitNext] at hnext
      split at hnext
      · split at hnext
        · obtain rfl := Option.some.inj hnext
          exact h.moves nofun
        · -- the verdict is about the mailbox as it is now
          rename_i j hjudge
          obtain rfl := Option.some.inj hnext
          refine h.judges (fun c hc => ?_) (fun mb habout => ?_) fun _ _ => rfl
          · split
            · exact Function.update_of_ne hc _ _
            · rfl
          · obtain rfl : s.statics.mailbox = mb := habout
            refine judged_judgeCommitted hjudge fun hsound => ?_
            rw [if_pos hsound, CommitState.noteTried, Function.update_self]
      · cases hnext
  | reload core =>
      simp only [commitMachine, commitNext] at hnext
      split at hnext
      · split at hnext
        · obtain rfl := Option.some.inj hnext
          exact h.moves nofun
        · rename_i j hjudge
          obtain rfl := Option.some.inj hnext
          refine h.judges (fun c hc => Function.update_of_ne hc _ _) (fun _ => False.elim)
            fun hstate hwrite => ?_
          -- a reload that is refused would end the commit; the condition excludes it
          have hbehind : s.statics.Behind core := by
            unfold judgeActive at hjudge
            split at hjudge
            · assumption
            · cases hjudge
          exact absurd hwrite (judgeActive_refused hjudge (hleft hstate hbehind))
      · cases hnext
  | choreography core image =>
      simp only [commitMachine, commitNext] at hnext
      split at hnext
      · obtain rfl := Option.some.inj hnext
        refine h.judges (fun c hc => ?_) (fun mb habout => ?_) fun hstate _ => ?_
        · split
          · exact Function.update_of_ne hc _ _
          · rfl
        · obtain ⟨hlen, hhash, rfl⟩ := habout
          rw [if_pos hlen, CommitState.noteTried, Function.update_self]
          exact judged_judgeImage hlen hhash _ _ _
        · -- an image loaded in between is the committed one
          obtain ⟨⟨hlen, hhash⟩, himage⟩ := hleft hstate
          exact ⟨hlen, hhash, himage⟩
      · cases hnext
  | write core =>
      simp only [commitMachine, commitNext] at hnext
      split at hnext
      · rename_i job v hphase
        obtain rfl := Option.some.inj hnext
        exact h.writes hphase
      · cases hnext

/-! ### The result -/

/-- **A poll ends a pending commit** on its own account. -/
theorem ends_pending (s : CommitState V) (core : Core) (hidle : s.phase core = .idle)
    (hstate : s.statics.bytecodeState = epfBytecodeStateCommit) :
    ∃ t e, (commitMachine E).exec s [.poll core, .write core] = some t ∧
      t.ended = s.ended ++ [e] ∧ e.core = core ∧ e.mailbox = s.statics.mailbox ∧ Own E e := by
  obtain ⟨j, hjudge, hwrite⟩ :=
    @judgeCommitted_of_commit _ _ E _ hstate core (.committed s.statics.mailbox)
  let tried := if s.statics.Sound E then s.noteTried E core s.statics.bytecodeBytes else s.tried
  let judged := s.judges core (.committed s.statics.mailbox) j tried
  have hpoll : (commitMachine E).next s (.poll core) = some judged := by
    simp only [commitMachine, commitNext, hidle, hjudge, judged, tried]
  have hphase : judged.phase core = .writing (.committed s.statics.mailbox) j.2 :=
    Function.update_self _ _ _
  have hnext : (commitMachine E).next judged (.write core) =
      some (judged.writes E core (.committed s.statics.mailbox) j.2) := by
    simp only [commitMachine, commitNext, hphase]
  have hright : Judged E s.statics.mailbox j.2 (tried core) :=
    judged_judgeCommitted hjudge fun hsound => by
      simp only [tried, if_pos hsound, CommitState.noteTried, Function.update_self]
  refine ⟨_, _, Machine.exec_cons.mpr ⟨_, hpoll, Machine.exec_cons.mpr ⟨_, hnext, rfl⟩⟩,
    if_pos ⟨hstate, write_ne_commit hwrite⟩, rfl, rfl, ?_⟩
  exact @own_of_judged _ _ E (s.statics.setVm core j.1) core _ _ hright

/-- **A committed image is judged on its own account**, in every run in which each commit is left
to be judged: every commit a core has ended was rejected for its own length, hash or load, or
loaded by a load of its own bytes; and a core that polls ends the commit that is pending. -/
theorem commits_judged (E : HibanaEpf V ε) (as : List CommitAction) (s : CommitState V)
    (hrun : (commitMachine E).exec (.init E) as = some s)
    (hleft : (commitMachine E).Along (LeftToBeJudged E) (.init E) as) :
    (∀ e ∈ s.ended, Own E e) ∧
      ∀ core, s.phase core = .idle → s.statics.bytecodeState = epfBytecodeStateCommit →
        ∃ t e, (commitMachine E).exec s [.poll core, .write core] = some t ∧
          t.ended = s.ended ++ [e] ∧ e.core = core ∧ e.mailbox = s.statics.mailbox ∧ Own E e :=
  ⟨(Machine.exec_invariant commitInv_step commitInv_init hleft hrun).own, ends_pending s⟩

instance (p : Core → Prop) [DecidablePred p] : Decidable (∀ core, p core) :=
  decidable_of_iff (p .core0 ∧ p .core1)
    ⟨fun h core => by cases core; exacts [h.1, h.2], fun h => ⟨h .core0, h .core1⟩⟩

instance : ∀ phase : Phase, Decidable phase.AboutToWrite
  | .writing _ (.rejected _) | .writing _ (.loaded _ _ _ _) => isTrue trivial
  | .writing _ (.reloaded _ _) | .idle | .halfway => isFalse id

instance (E : HibanaEpf V ε) (s : CommitState V) : ∀ a, Decidable (LeftToBeJudged E s a)
  | .mailbox _ _ _ | .bytecodeState _ | .choreography _ _ | .reload _ =>
      inferInstanceAs (Decidable (_ → _))
  | .poll _ | .write _ => isTrue trivial

instance (E : HibanaEpf V ε) (e : Ended) : Decidable (Own E e) :=
  inferInstanceAs (Decidable (ite (¬ LenOk e.mailbox.bytes) _ (ite _ (_ ∧ _) (_ ∨ _))))

/-- The host writes an image for policy 57 to the mailbox and commits it. -/
def commitPolicy : List CommitAction :=
  [.mailbox 10 (fnv32 (headerImage 1 57)) (Cells.store (fun _ => 0) 0 (headerImage 1 57)),
    .bytecodeState epfBytecodeStateCommit]

/-- A core polls, and the image is loaded. -/
theorem commits_judged_loaded :
    ∃ s, (commitMachine headerEpf).exec (.init headerEpf)
        (commitPolicy ++ [.poll .core0, .write .core0, .reload .core0]) = some s ∧
      s.statics.bytecodeState = epfBytecodeStateLoaded ∧ s.ended.length = 1 ∧
      ∀ e ∈ s.ended, Own headerEpf e := by
  have hrun : ((commitMachine headerEpf).exec (.init headerEpf)
      (commitPolicy ++ [.poll .core0, .write .core0, .reload .core0])).map (fun s =>
        decide (s.statics.bytecodeState = epfBytecodeStateLoaded ∧ s.ended.length = 1)) =
      some true := by decide +kernel
  obtain ⟨s, hs, h⟩ := Option.map_eq_some_iff.mp hrun
  obtain ⟨hstate, hended⟩ := of_decide_eq_true h
  exact ⟨s, hs, hstate, hended, (commits_judged headerEpf _ s hs (by decide +kernel)).1⟩

/-- **A choreography load overwrites a pending commit.**  Core 0 loads another image it was sent;
the commit then reads as loaded, and no core was given its bytes. -/
theorem commit_overwritten :
    ∃ s, (commitMachine headerEpf).exec (.init headerEpf)
        (commitPolicy ++ [.choreography .core0 (headerImage 0 0), .write .core0]) = some s ∧
      s.statics.bytecodeState = epfBytecodeStateLoaded ∧
      (∀ core ok, s.tried core ≠ some (headerImage 1 57, ok)) ∧
      ¬ ∀ e ∈ s.ended, Own headerEpf e := by
  have hrun : ((commitMachine headerEpf).exec (.init headerEpf)
      (commitPolicy ++ [.choreography .core0 (headerImage 0 0), .write .core0])).map (fun s =>
        decide (s.statics.bytecodeState = epfBytecodeStateLoaded ∧
          (∀ core ok, s.tried core ≠ some (headerImage 1 57, ok)) ∧
          ¬ ∀ e ∈ s.ended, Own headerEpf e)) = some true := by decide +kernel
  obtain ⟨s, hs, h⟩ := Option.map_eq_some_iff.mp hrun
  exact ⟨s, hs, of_decide_eq_true h⟩

end HibanaPico.Baker
