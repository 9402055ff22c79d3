import HibanaPico.Appkit.Attach
import HibanaPico.Support.Runs
import HibanaPico.Support.Spans
import Mathlib.Data.List.Pairwise

/-!
# Appkit — The future arena

On the embedded target the futures of the roles live in an arena of four slots, that the image
leases with its attach slab.  A WASI engine puts its state into the last slot while roles are
attached, and never returns.

* `visit_simulates`: the visits agree with those of `attach_projected_roles`.
* `ArenaInv.next`: a task is stored in the slot of its index, the engine state in the last.
* `future_arena_safe`: every object lies in the arena, aligned and apart from all others, and only
  tasks are polled, each by its own poll function.
-/

namespace HibanaPico.Appkit
open HibanaPico.Support

/-! ### The storage -/

/-- `APPKIT_EMBEDDED_FUTURE_ALIGN`, `APPKIT_EMBEDDED_ROLE_FUTURE_BYTES`,
`APPKIT_EMBEDDED_ROLE_SLOTS` and `APPKIT_EMBEDDED_FUTURE_BYTES`. -/
def embeddedFutureAlign : ℕ := 16
def embeddedRoleFutureBytes : ℕ := 4 * 1024
def embeddedRoleSlots : ℕ := 4
def embeddedFutureBytes : ℕ := embeddedRoleFutureBytes * embeddedRoleSlots

/-- The values of a `usize`. -/
def usizeValues : ℕ := 4294967296

/-- The size and the alignment of a type. -/
structure Layout where
  size : ℕ
  align : ℕ
  pow : align.isPowerOfTwo

/-- What `push` and `blocking_engine_state` assert of a type. -/
def Layout.Accepted (l : Layout) : Prop :=
  l.size ≤ embeddedRoleFutureBytes ∧ l.align ≤ embeddedFutureAlign

instance (l : Layout) : Decidable l.Accepted := inferInstanceAs (Decidable (_ ∧ _))

/-- An `EmbeddedAttachStorage`: its address, which its `repr` aligns, and the bytes of its slab. -/
structure EmbeddedAttachStorage where
  address : ℕ
  slabBytes : ℕ
  aligned : embeddedFutureAlign ∣ address

namespace EmbeddedAttachStorage

def slab (s : EmbeddedAttachStorage) : Span := ⟨s.address, s.slabBytes⟩

/-- The field `future` stands behind the slab, at the next address of its alignment. -/
def future (s : EmbeddedAttachStorage) : ℕ :=
  s.address + (s.slabBytes + (embeddedFutureAlign - 1)) / embeddedFutureAlign * embeddedFutureAlign

/-- The arena that `lease` hands out. -/
def arena (s : EmbeddedAttachStorage) : Span := ⟨s.future, embeddedFutureBytes⟩

end EmbeddedAttachStorage

/-! ### The scheduler -/

variable {τ : Type}

/-- `EmbeddedScheduledTasks`.  A poll function is that of the type of its future. -/
structure EmbeddedScheduledTasks (τ : Type) where
  base : ℕ
  totalBytes : ℕ
  polls : ℕ → Option τ
  len : ℕ

/-- An object in the arena. -/
structure Stored (τ : Type) where
  address : ℕ
  type : τ
  /-- It is the state of the WASI engine. -/
  engine : Bool
  deriving DecidableEq

/-- A poll: the slot, and the type whose poll function it was. -/
structure Polled (τ : Type) where
  address : ℕ
  type : τ
  deriving DecidableEq

namespace EmbeddedScheduledTasks

variable (layout : τ → Layout) (self : EmbeddedScheduledTasks τ)

def new (storage : EmbeddedAttachStorage) : EmbeddedScheduledTasks τ :=
  ⟨storage.future, embeddedFutureBytes, fun _ => none, 0⟩

/-- `slot_ptr`. -/
def slotPtr (index : ℕ) : Option ℕ :=
  let offset := index * embeddedRoleFutureBytes
  if offset < usizeValues then
    if (offset + embeddedRoleFutureBytes) % usizeValues ≤ self.totalBytes then
      some (self.base + offset)
    else none
  else none

/-- `push`: where the future was stored, and the scheduler. -/
def push (type : τ) : Option (ℕ × EmbeddedScheduledTasks τ) :=
  if self.len < embeddedRoleSlots then
    if (layout type).Accepted then
      (self.slotPtr self.len).map fun slot =>
        (slot, { self with polls := Function.update self.polls self.len (some type),
                           len := self.len + 1 })
    else none
  else none

/-- `blocking_engine_state`. -/
def blockingEngineState (type : τ) : Option ℕ :=
  if self.len < embeddedRoleSlots then
    if (layout type).Accepted then self.slotPtr (embeddedRoleSlots - 1) else none
  else none

/-- The loop of `poll_once`, with so many tasks left: what it polls, and whether it panics.  A task
may fail. -/
def pollFrom (failing : Option ℕ) : ℕ → ℕ → List (Polled τ) × Bool
  | 0, _ => ([], false)
  | left + 1, taskIdx =>
      match self.polls taskIdx, self.slotPtr taskIdx with
      | some type, some slot =>
          if failing = some taskIdx then ([⟨slot, type⟩], true)
          else
            let (rest, panics) := pollFrom failing left (taskIdx + 1)
            (⟨slot, type⟩ :: rest, panics)
      | _, _ => ([], true)

/-- `poll_once`. -/
def pollOnce (failing : Option ℕ) : List (Polled τ) × Bool := self.pollFrom failing self.len 0

end EmbeddedScheduledTasks

/-! ### The image -/

/-- A logical image with the types of its futures and of its engine states. -/
structure ArenaImage (τ : Type) where
  image : LogicalImage
  layout : τ → Layout
  future : Role → τ
  engineState : Role → τ
  fits : ∀ role, image.fits .embedded role = true ↔ (layout (future role)).Accepted
  engineFits : ∀ role, image.engineFits role = true ↔ (layout (engineState role)).Accepted

/-- Where an embedded run stands: the roles left to visit, the engine that a visit runs, or
`poll_forever`. -/
inductive EmbeddedPhase where
  | attaching (left : List Role)
  | engine (role : Role)
  | scheduling
  | panicked
  deriving DecidableEq

/-- The scheduler, what is stored in the arena, what was polled, and the attached roles. -/
structure EmbeddedRun (τ : Type) where
  tasks : EmbeddedScheduledTasks τ
  memory : List (Stored τ)
  polled : List (Polled τ)
  count : ℕ
  phase : EmbeddedPhase

namespace EmbeddedRun

variable (image : ArenaImage τ)

/-- `attach_projected_roles`, before it visits the roles. -/
def init (storage : EmbeddedAttachStorage) : EmbeddedRun τ :=
  ⟨.new storage, [], [], 0, .attaching image.image.requestedRoles.roles⟩

/-- The end of a visit: the role's future is pushed, and the role is counted. -/
def pushFuture (role : Role) (s : EmbeddedRun τ) : Visit (EmbeddedRun τ) :=
  match s.tasks.push image.layout (image.future role) with
  | some (slot, tasks) =>
      if s.count + 1 < 256 then
        .returned { s with
          tasks := tasks
          memory := s.memory ++ [⟨slot, image.future role, false⟩]
          count := s.count + 1 }
      else .panicked
  | none => .panicked

/-- `run_canonical_wasi_engine_forever`, up to its loop. -/
def runEngine (role : Role) (s : EmbeddedRun τ) : Visit (EmbeddedRun τ) :=
  match s.tasks.blockingEngineState image.layout (image.engineState role) with
  | some slot =>
      .never { s with memory := s.memory ++ [⟨slot, image.engineState role, true⟩] } role
  | none => .panicked

/-- `AttachProjectedRoles::visit`, on the embedded target. -/
def visit (role : Role) (s : EmbeddedRun τ) : Visit (EmbeddedRun τ) :=
  let artifact := image.image.artifact
  if image.image.enters role then
    match image.image.roleKind role with
    | .engine =>
        if artifact.hasGuestStorage ∧ ¬ image.image.leases role then .panicked
        else if artifact.hasWasiGuest ≠ artifact.hasGuestStorage then .panicked
        else if artifact.hasWasiGuest then runEngine image role s
        else pushFuture image role s
    | .driver => pushFuture image role s
    | .boundary => pushFuture image role s
  else .panicked

/-- Where a visit leads to. -/
def visited (left : List Role) (s : EmbeddedRun τ) : Visit (EmbeddedRun τ) → EmbeddedRun τ
  | .returned t => { t with phase := .attaching left }
  | .never t role => { t with phase := .engine role }
  | .panicked => { s with phase := .panicked }

/-- A `poll_once`, of `poll_forever` or of the engine. -/
def poll (failing : Option ℕ) (s : EmbeddedRun τ) : EmbeddedRun τ :=
  let (polled, panics) := s.tasks.pollOnce failing
  { s with
    polled := s.polled ++ polled
    phase := if panics then .panicked else s.phase }

inductive EmbeddedAction where
  /-- The next role is visited, or `poll_forever` begins. -/
  | visit
  | poll (failing : Option ℕ)
  deriving DecidableEq

def next (s : EmbeddedRun τ) : EmbeddedAction → Option (EmbeddedRun τ)
  | .visit =>
      match s.phase with
      | .attaching (role :: left) => some (visited left s (visit image role s))
      | .attaching [] =>
          some { s with phase := if 0 < s.tasks.len then .scheduling else .panicked }
      | _ => none
  | .poll failing =>
      match s.phase with
      | .engine _ | .scheduling => some (s.poll failing)
      | _ => none

end EmbeddedRun

def embeddedArenaMachine (image : ArenaImage τ) :
    Machine (EmbeddedRun τ) EmbeddedRun.EmbeddedAction := ⟨EmbeddedRun.next image⟩

/-! ### What should hold -/

/-- The bytes of an object. -/
def Stored.span (layout : τ → Layout) (o : Stored τ) : Span := ⟨o.address, (layout o.type).size⟩

/-- Every object lies in the arena, aligned and apart from all others; a poll is that of a task,
with the poll function of the type that is stored there, and none is where an engine state is. -/
structure ArenaSafe (layout : τ → Layout) (arena : Span) (s : EmbeddedRun τ) : Prop where
  inside : ∀ o ∈ s.memory, (o.span layout).Within arena
  aligned : ∀ o ∈ s.memory, (layout o.type).align ∣ o.address
  apart : s.memory.Pairwise fun o p =>
    o.address ≠ p.address ∧ (o.span layout).Apart (p.span layout)
  polls : ∀ p ∈ s.polled, ⟨p.address, p.type, false⟩ ∈ s.memory
  engineAlone : ∀ o ∈ s.memory, o.engine = true → ∀ p ∈ s.polled, p.address ≠ o.address

/-! ### The slots -/

/-- A slot of the arena. -/
def embeddedSlot (base index : ℕ) : Span := .slot base embeddedRoleFutureBytes index

theorem Layout.Accepted.dvd {l : Layout} (h : l.Accepted) : l.align ∣ embeddedFutureAlign := by
  obtain ⟨k, pow⟩ := l.pow
  have small : k ≤ 4 := (Nat.pow_le_pow_iff_right (by decide)).mp (pow ▸ h.2 : 2 ^ k ≤ 2 ^ 4)
  rw [pow]
  exact Nat.pow_dvd_pow 2 small

namespace EmbeddedAttachStorage

variable (storage : EmbeddedAttachStorage)

theorem dvd_future : embeddedFutureAlign ∣ storage.future :=
  Nat.dvd_add storage.aligned (Nat.dvd_mul_left _ _)

/-- The arena lies behind the slab. -/
theorem slab_apart : storage.slab.Apart storage.arena := by
  refine .inl ?_
  show storage.address + storage.slabBytes ≤ storage.future
  have := Nat.div_add_mod (storage.slabBytes + (embeddedFutureAlign - 1)) embeddedFutureAlign
  rw [future, embeddedFutureAlign] at *
  omega

end EmbeddedAttachStorage

namespace EmbeddedScheduledTasks

variable {layout : τ → Layout} {self : EmbeddedScheduledTasks τ} {type : τ}

/-- The scheduler of a leased arena. -/
structure Leased (storage : EmbeddedAttachStorage) (tasks : EmbeddedScheduledTasks τ) : Prop where
  base_eq : tasks.base = storage.future
  total_eq : tasks.totalBytes = embeddedFutureBytes

variable {storage : EmbeddedAttachStorage}

/-- The four slots are in the arena, and no others are asked for. -/
theorem Leased.slotPtr (L : self.Leased storage) {index : ℕ} (h : index < embeddedRoleSlots) :
    self.slotPtr index = some (embeddedSlot storage.future index).start := by
  have small : index < 4 := h
  have offset : index * embeddedRoleFutureBytes < usizeValues := by
    rw [embeddedRoleFutureBytes, usizeValues]
    omega
  have inside : (index * embeddedRoleFutureBytes + embeddedRoleFutureBytes) % usizeValues ≤
      embeddedFutureBytes := by
    rw [embeddedFutureBytes, embeddedRoleSlots, embeddedRoleFutureBytes, usizeValues]
    omega
  rw [EmbeddedScheduledTasks.slotPtr, L.base_eq, L.total_eq, if_pos offset, if_pos inside]
  rfl

/-- **`push`** takes the slot of the next index. -/
theorem Leased.push (L : self.Leased storage) :
    self.push layout type =
      if self.len < embeddedRoleSlots ∧ (layout type).Accepted then
        some ((embeddedSlot storage.future self.len).start,
          { self with polls := Function.update self.polls self.len (some type),
                      len := self.len + 1 })
      else none := by
  rw [EmbeddedScheduledTasks.push]
  by_cases room : self.len < embeddedRoleSlots
  · rw [if_pos room, L.slotPtr room]
    by_cases accepted : (layout type).Accepted
    · rw [if_pos accepted, if_pos ⟨room, accepted⟩]
      rfl
    · rw [if_neg accepted, if_neg fun h => accepted h.2]
  · rw [if_neg room, if_neg fun h => room h.1]

/-- **`blocking_engine_state`** is the last slot, while it is not in use. -/
theorem Leased.blockingEngineState (L : self.Leased storage) :
    self.blockingEngineState layout type =
      if self.len < embeddedRoleSlots ∧ (layout type).Accepted then
        some (embeddedSlot storage.future 3).start
      else none := by
  rw [EmbeddedScheduledTasks.blockingEngineState]
  by_cases room : self.len < embeddedRoleSlots
  · rw [if_pos room]
    by_cases accepted : (layout type).Accepted
    · rw [if_pos accepted, if_pos ⟨room, accepted⟩]
      exact L.slotPtr (by decide)
    · rw [if_neg accepted, if_neg fun h => accepted h.2]
  · rw [if_neg room, if_neg fun h => room h.1]

/-- **`poll_once`** polls tasks that were pushed, each with its own poll function. -/
theorem Leased.mem_pollFrom (L : self.Leased storage) {failing : Option ℕ} {p : Polled τ}
    (fits : self.len ≤ embeddedRoleSlots) {left taskIdx : ℕ} (within : taskIdx + left ≤ self.len)
    (h : p ∈ (self.pollFrom failing left taskIdx).1) :
    ∃ index < self.len, p.address = (embeddedSlot storage.future index).start ∧
      self.polls index = some p.type := by
  induction left generalizing taskIdx with
  | zero => cases h
  | succ left ih =>
      have here : taskIdx < self.len := by omega
      rw [pollFrom, L.slotPtr (here.trans_le fits)] at h
      cases poll : self.polls taskIdx with
      | none =>
          rw [poll] at h
          cases h
      | some type =>
          have found : ∃ index < self.len, (embeddedSlot storage.future taskIdx).start =
              (embeddedSlot storage.future index).start ∧ self.polls index = some type :=
            ⟨taskIdx, here, rfl, poll⟩
          simp only [poll] at h
          split at h
          · rw [List.mem_singleton.mp h]
            exact found
          · rcases List.mem_cons.mp h with rfl | h
            · exact found
            · exact ih (by omega) h

end EmbeddedScheduledTasks

/-! ### The attachment -/

/-- The visits agree: on what panics, on what never returns, and on how many tasks are stored. -/
def SameVisit : Visit (EmbeddedRun τ) → Visit Attachment → Prop
  | .panicked, .panicked => True
  | .returned s, .returned a => s.tasks.len = a.tasks.length ∧ s.count = a.count
  | .never s role, .never a role' =>
      role = role' ∧ s.tasks.len = a.tasks.length ∧ s.count = a.count
  | _, _ => False

namespace EmbeddedRun

variable {image : ArenaImage τ} {storage : EmbeddedAttachStorage} {s t : EmbeddedRun τ}
  {a : Attachment} {role : Role}

theorem pushFuture_simulates (L : s.tasks.Leased storage) (len : s.tasks.len = a.tasks.length)
    (count : s.count = a.count) :
    SameVisit (pushFuture image role s) (pushTask .embedded image.image role a) := by
  have same : (s.tasks.len < embeddedRoleSlots ∧ (image.layout (image.future role)).Accepted) ↔
      (a.tasks.length < Target.embedded.slots ∧ image.image.fits .embedded role = true) :=
    and_congr (by rw [len]; exact Iff.rfl) (image.fits role).symm
  rw [pushFuture, pushTask, L.push]
  by_cases room : a.tasks.length < Target.embedded.slots ∧ image.image.fits .embedded role = true
  · rw [if_pos (same.mpr room), if_pos room]
    simp only [count]
    split
    · refine ⟨?_, rfl⟩
      show s.tasks.len + 1 = (a.tasks ++ [role]).length
      rw [List.length_append, len, List.length_singleton]
    · trivial
  · rw [if_neg fun h => room (same.mp h), if_neg room]
    trivial

theorem runEngine_simulates (L : s.tasks.Leased storage) (len : s.tasks.len = a.tasks.length)
    (count : s.count = a.count) :
    SameVisit (runEngine image role s) (runCanonicalWasiEngineForever image.image role a) := by
  have same : (s.tasks.len < embeddedRoleSlots ∧
        (image.layout (image.engineState role)).Accepted) ↔
      (a.tasks.length < Target.embedded.slots ∧ image.image.engineFits role = true) :=
    and_congr (by rw [len]; exact Iff.rfl) (image.engineFits role).symm
  rw [runEngine, runCanonicalWasiEngineForever, L.blockingEngineState]
  by_cases room : a.tasks.length < Target.embedded.slots ∧ image.image.engineFits role = true
  · rw [if_pos (same.mpr room), if_pos room]
    exact ⟨rfl, len, count⟩
  · rw [if_neg fun h => room (same.mp h), if_neg room]
    trivial

/-- **The visits** are those of `attach_projected_roles`. -/
theorem visit_simulates (L : s.tasks.Leased storage) (len : s.tasks.len = a.tasks.length)
    (count : s.count = a.count) :
    SameVisit (visit image role s) (visitRole .embedded image.image role a) := by
  rw [visit, visitRole]
  split
  next enters =>
    cases image.image.roleKind role with
    | driver => exact pushFuture_simulates L len count
    | boundary => exact pushFuture_simulates L len count
    | engine =>
        simp only [visitEngine]
        split
        · trivial
        split
        · trivial
        split
        · exact runEngine_simulates L len count
        · exact pushFuture_simulates L len count
  next => trivial

/-- A visit that returns has pushed a task. -/
theorem visit_returned (h : visit image role s = .returned t) :
    pushFuture image role s = .returned t := by
  rw [visit] at h
  split at h
  on_goal 2 => cases h
  cases kind : image.image.roleKind role with
  | driver =>
      rw [kind] at h
      exact h
  | boundary =>
      rw [kind] at h
      exact h
  | engine =>
      rw [kind] at h
      simp only at h
      split at h
      · cases h
      split at h
      · cases h
      split at h
      · rw [runEngine] at h
        split at h <;> cases h
      · exact h

/-- A visit that never returns runs its role's engine. -/
theorem visit_never {engine : Role} (h : visit image role s = .never t engine) :
    runEngine image role s = .never t engine := by
  have pushed (h : pushFuture image role s = .never t engine) :
      runEngine image role s = .never t engine := by
    rw [pushFuture] at h
    split at h
    · split at h <;> cases h
    · cases h
  rw [visit] at h
  split at h
  on_goal 2 => cases h
  cases kind : image.image.roleKind role with
  | driver =>
      rw [kind] at h
      exact pushed h
  | boundary =>
      rw [kind] at h
      exact pushed h
  | engine =>
      rw [kind] at h
      simp only at h
      split at h
      · cases h
      split at h
      · cases h
      split at h
      · exact h
      · exact pushed h

/-- A visit that returns leaves the arena leased. -/
theorem leased_visit (L : s.tasks.Leased storage) (h : visit image role s = .returned t) :
    t.tasks.Leased storage := by
  have pushed := visit_returned h
  rw [pushFuture, L.push] at pushed
  by_cases room : s.tasks.len < embeddedRoleSlots ∧ (image.layout (image.future role)).Accepted
  · rw [if_pos room] at pushed
    simp only at pushed
    split at pushed
    · cases pushed
      exact ⟨L.base_eq, L.total_eq⟩
    · cases pushed
  · rw [if_neg room] at pushed
    cases pushed

/-- **The walk** over some roles attaches the same. -/
theorem walk_simulates (roles : List Role) (L : s.tasks.Leased storage)
    (len : s.tasks.len = a.tasks.length) (count : s.count = a.count) :
    SameVisit (visitEach (visit image) roles s)
      (visitEach (visitRole .embedded image.image) roles a) := by
  induction roles generalizing s a with
  | nil => exact ⟨len, count⟩
  | cons role roles ih =>
      have first : SameVisit (visit image role s) (visitRole .embedded image.image role a) :=
        visit_simulates L len count
      rw [visitEach, visitEach]
      cases result : visit image role s with
      | panicked =>
          rw [result] at first
          cases result' : visitRole .embedded image.image role a with
          | panicked => trivial
          | returned b => rw [result'] at first; exact first.elim
          | never b role' => rw [result'] at first; exact first.elim
      | returned t =>
          rw [result] at first
          cases result' : visitRole .embedded image.image role a with
          | panicked => rw [result'] at first; exact first.elim
          | never b role' => rw [result'] at first; exact first.elim
          | returned b =>
              rw [result'] at first
              exact ih (leased_visit L result) first.1 first.2
      | never t engine =>
          rw [result] at first
          cases result' : visitRole .embedded image.image role a with
          | panicked => rw [result'] at first; exact first.elim
          | returned b => rw [result'] at first; exact first.elim
          | never b role' => rw [result'] at first; exact first

end EmbeddedRun

/-! ### The runs -/

/-- The engine states come last, once all the tasks are stored. -/
def EmbeddedPhase.Attaching : EmbeddedPhase → Prop
  | .attaching _ => True
  | _ => False

/-- Tasks are stored in the slots of their indices, each with its poll function, and an engine state
in the last, when not all slots are in use. -/
structure ArenaInv (layout : τ → Layout) (storage : EmbeddedAttachStorage) (s : EmbeddedRun τ) :
    Prop where
  leased : s.tasks.Leased storage
  len_le : s.tasks.len ≤ embeddedRoleSlots
  slotted : ∀ o ∈ s.memory, (layout o.type).Accepted ∧ ∃ index < embeddedRoleSlots,
    o.address = (embeddedSlot storage.future index).start ∧
      if o.engine then index = 3 ∧ s.tasks.len < embeddedRoleSlots ∧ ¬ s.phase.Attaching
      else index < s.tasks.len
  apart : s.memory.Pairwise fun o p => o.address ≠ p.address
  tasks : ∀ index type, index < s.tasks.len → s.tasks.polls index = some type →
    ⟨(embeddedSlot storage.future index).start, type, false⟩ ∈ s.memory
  polls : ∀ p ∈ s.polled, ⟨p.address, p.type, false⟩ ∈ s.memory

/-- While roles are attached there are only tasks, in the slots below the next index. -/
theorem ArenaInv.older {layout : τ → Layout} {storage : EmbeddedAttachStorage} {s : EmbeddedRun τ}
    (I : ArenaInv layout storage s) (attaching : s.phase.Attaching) {o : Stored τ}
    (mem : o ∈ s.memory) : o.engine = false ∧ ∃ index < s.tasks.len,
      o.address = (embeddedSlot storage.future index).start := by
  obtain ⟨-, index, -, address, kind⟩ := I.slotted o mem
  cases engine : o.engine with
  | true =>
      rw [engine, if_pos rfl] at kind
      exact absurd attaching kind.2.2
  | false =>
      rw [engine, if_neg Bool.false_ne_true] at kind
      exact ⟨rfl, index, kind, address⟩

namespace EmbeddedRun

variable {image : ArenaImage τ} {storage : EmbeddedAttachStorage} {s t : EmbeddedRun τ}
  {role : Role}

theorem arenaInv_init (image : ArenaImage τ) (storage : EmbeddedAttachStorage) :
    ArenaInv image.layout storage (init image storage) where
  leased := ⟨rfl, rfl⟩
  len_le := Nat.zero_le _
  slotted o mem := by cases mem
  apart := .nil
  tasks index type h := absurd h (Nat.not_lt_zero _)
  polls p mem := by cases mem

/-- Two places in the arena are one exactly when they are one slot. -/
theorem embeddedSlot_inj {base i j : ℕ}
    (h : (embeddedSlot base i).start = (embeddedSlot base j).start) : i = j :=
  Span.slot_start_inj (by decide) h

/-- One object more, in a slot that none has. -/
theorem pairwise_snoc {memory : List (Stored τ)} {o : Stored τ}
    (apart : memory.Pairwise fun o p => o.address ≠ p.address)
    (fresh : ∀ p ∈ memory, p.address ≠ o.address) :
    (memory ++ [o]).Pairwise fun o p => o.address ≠ p.address :=
  List.pairwise_append.mpr ⟨apart, List.pairwise_singleton _ _, fun p mem q last => by
    rw [List.mem_singleton.mp last]
    exact fresh p mem⟩

/-- A task is pushed, while roles are attached. -/
theorem pushFuture_inv (I : ArenaInv image.layout storage s) (attaching : s.phase.Attaching)
    (h : pushFuture image role s = .returned t) (left : List Role) :
    ArenaInv image.layout storage { t with phase := .attaching left } := by
  rw [pushFuture, I.leased.push] at h
  by_cases room : s.tasks.len < embeddedRoleSlots ∧
      (image.layout (image.future role)).Accepted
  on_goal 2 =>
    rw [if_neg room] at h
    cases h
  rw [if_pos room] at h
  simp only at h
  split at h
  on_goal 2 => cases h
  obtain ⟨room, accepted⟩ := room
  cases h
  refine ⟨⟨I.leased.base_eq, I.leased.total_eq⟩, room, fun o mem => ?_,
    pairwise_snoc I.apart fun o mem => ?_, fun index type below poll => ?_, fun p mem => ?_⟩
  · rcases List.mem_append.mp mem with mem | mem
    · obtain ⟨task, index, below, address⟩ := I.older attaching mem
      refine ⟨(I.slotted o mem).1, index, below.trans room, address, ?_⟩
      rw [task, if_neg Bool.false_ne_true]
      exact below.trans (Nat.lt_succ_self _)
    · obtain rfl := List.mem_singleton.mp mem
      exact ⟨accepted, s.tasks.len, room, rfl, Nat.lt_succ_self _⟩
  · obtain ⟨-, index, below, address⟩ := I.older attaching mem
    rw [address]
    exact fun same => absurd (embeddedSlot_inj same) (Nat.ne_of_lt below)
  · change Function.update s.tasks.polls s.tasks.len (some (image.future role)) index = _ at poll
    rcases Nat.lt_succ_iff_lt_or_eq.mp below with below | rfl
    · rw [Function.update_of_ne (Nat.ne_of_lt below)] at poll
      exact List.mem_append_left _ (I.tasks index type below poll)
    · rw [Function.update_self] at poll
      cases poll
      exact List.mem_append_right _ (List.mem_singleton_self _)
  · exact List.mem_append_left _ (I.polls p mem)

/-- The engine state is stored, and no role is attached after it. -/
theorem runEngine_inv (I : ArenaInv image.layout storage s) (attaching : s.phase.Attaching)
    {engine : Role} (h : runEngine image role s = .never t engine) :
    ArenaInv image.layout storage { t with phase := .engine engine } := by
  rw [runEngine, I.leased.blockingEngineState] at h
  by_cases room : s.tasks.len < embeddedRoleSlots ∧
      (image.layout (image.engineState role)).Accepted
  on_goal 2 =>
    rw [if_neg room] at h
    cases h
  rw [if_pos room] at h
  cases h
  obtain ⟨room, accepted⟩ := room
  refine ⟨I.leased, I.len_le, fun o mem => ?_, pairwise_snoc I.apart fun o mem => ?_,
    fun index type below poll => List.mem_append_left _ (I.tasks index type below poll),
    fun p mem => List.mem_append_left _ (I.polls p mem)⟩
  · rcases List.mem_append.mp mem with mem | mem
    · obtain ⟨task, index, below, address⟩ := I.older attaching mem
      refine ⟨(I.slotted o mem).1, index, below.trans room, address, ?_⟩
      rw [task, if_neg Bool.false_ne_true]
      exact below
    · obtain rfl := List.mem_singleton.mp mem
      exact ⟨accepted, 3, by decide, rfl, rfl, room, id⟩
  · obtain ⟨-, index, below, address⟩ := I.older attaching mem
    rw [address]
    intro same
    have last : index = 3 := embeddedSlot_inj same
    rw [embeddedRoleSlots] at room
    omega

end EmbeddedRun

namespace ArenaInv

variable {image : ArenaImage τ} {storage : EmbeddedAttachStorage} {s t : EmbeddedRun τ}

/-- What is stored stays where it is when no more roles are attached. -/
theorem leave (I : ArenaInv image.layout storage s) {phase : EmbeddedPhase}
    (left : ¬ phase.Attaching) : ArenaInv image.layout storage { s with phase := phase } :=
  ⟨I.leased, I.len_le, fun o mem => by
    obtain ⟨accepted, index, inside, address, kind⟩ := I.slotted o mem
    refine ⟨accepted, index, inside, address, ?_⟩
    split
    next engine =>
      rw [if_pos engine] at kind
      exact ⟨kind.1, kind.2.1, left⟩
    next task =>
      rw [if_neg task] at kind
      exact kind, I.apart, I.tasks, I.polls⟩

theorem poll (I : ArenaInv image.layout storage s) (failing : Option ℕ)
    (left : ¬ s.phase.Attaching) : ArenaInv image.layout storage (s.poll failing) := by
  have polled : ∀ p ∈ (s.tasks.pollOnce failing).1, ⟨p.address, p.type, false⟩ ∈ s.memory := by
    intro p mem
    obtain ⟨index, below, address, poll⟩ :=
      I.leased.mem_pollFrom I.len_le (Nat.le_of_eq (Nat.zero_add _)) mem
    rw [address]
    exact I.tasks index p.type below poll
  have seen : ArenaInv image.layout storage
      { s with polled := s.polled ++ (s.tasks.pollOnce failing).1 } :=
    ⟨I.leased, I.len_le, I.slotted, I.apart, I.tasks, fun p mem =>
      (List.mem_append.mp mem).elim (I.polls p) (polled p)⟩
  rw [EmbeddedRun.poll]
  refine seen.leave ?_
  split
  · exact id
  · exact left

/-- **A step** keeps the arena. -/
theorem next {action : EmbeddedRun.EmbeddedAction} (I : ArenaInv image.layout storage s)
    (h : s.next image action = some t) : ArenaInv image.layout storage t := by
  cases action with
  | visit =>
      simp only [EmbeddedRun.next] at h
      split at h
      next role left attaching =>
        have here : s.phase.Attaching := by rw [attaching]; trivial
        cases h
        cases result : EmbeddedRun.visit image role s with
        | returned u =>
            exact EmbeddedRun.pushFuture_inv I here (EmbeddedRun.visit_returned result) left
        | never u engine => exact EmbeddedRun.runEngine_inv I here (EmbeddedRun.visit_never result)
        | panicked => exact I.leave id
      next attaching =>
        cases h
        refine I.leave ?_
        split <;> exact id
      next => cases h
  | poll failing =>
      simp only [EmbeddedRun.next] at h
      split at h
      next engine =>
        cases h
        exact I.poll failing (by rw [engine]; exact id)
      next scheduling =>
        cases h
        exact I.poll failing (by rw [scheduling]; exact id)
      next => cases h

/-- Slots of a leased arena make it safe. -/
theorem safe (I : ArenaInv image.layout storage s) :
    ArenaSafe image.layout storage.arena s := by
  have fills : ∀ o ∈ s.memory, ∃ index < embeddedRoleSlots,
      o.address = (embeddedSlot storage.future index).start ∧
        (o.span image.layout).Within (embeddedSlot storage.future index) := by
    intro o mem
    obtain ⟨accepted, index, inside, address, -⟩ := I.slotted o mem
    refine ⟨index, inside, address, ?_⟩
    rw [Stored.span, address]
    exact Span.within_of_le accepted.1
  refine ⟨fun o mem => ?_, fun o mem => ?_, ?_, I.polls, fun o mem engine p seen same => ?_⟩
  · obtain ⟨index, inside, -, within⟩ := fills o mem
    have arena : storage.arena = ⟨storage.future, embeddedRoleSlots * embeddedRoleFutureBytes⟩ := by
      rw [EmbeddedAttachStorage.arena, embeddedFutureBytes, Nat.mul_comm]
    rw [arena]
    exact within.trans (Span.within_slot inside)
  · obtain ⟨accepted, index, -, address, -⟩ := I.slotted o mem
    rw [address]
    exact Nat.dvd_trans accepted.dvd (Span.dvd_slot storage.dvd_future (by decide) index)
  · refine (List.Pairwise.and_mem.mp I.apart).imp ?_
    rintro o p ⟨hmem, hp, ne⟩
    obtain ⟨i, -, hi, within⟩ := fills o hmem
    obtain ⟨j, -, hj, within'⟩ := fills p hp
    have other : i ≠ j := by
      rintro rfl
      exact ne (hi.trans hj.symm)
    exact ⟨ne, (Span.apart_slot other).of_within within within'⟩
  · -- a task is stored where the poll went, and no two objects are in one place
    have task := I.polls p seen
    have ne : (⟨p.address, p.type, false⟩ : Stored τ) ≠ o := by
      rintro rfl
      cases engine
    have : Std.Symm fun o p : Stored τ => o.address ≠ p.address := ⟨fun _ _ ne => ne.symm⟩
    exact I.apart.forall task mem ne same

end ArenaInv

/-- **The future arena.**  Whatever roles are requested, in every run of `attach_projected_roles`,
every stored object lies in the leased arena, behind the slab, aligned and apart from all others, no
task is stored or polled where an engine state is, and each is polled by its own poll function. -/
theorem future_arena_safe (image : ArenaImage τ) (storage : EmbeddedAttachStorage)
    {actions : List EmbeddedRun.EmbeddedAction} {s : EmbeddedRun τ}
    (h : (embeddedArenaMachine image).exec (.init image storage) actions = some s) :
    ArenaSafe image.layout storage.arena s ∧ storage.slab.Apart storage.arena := by
  have I : ArenaInv image.layout storage s :=
    Machine.exec_keeps (I := ArenaInv image.layout storage)
      (fun _ _ _ I next => ArenaInv.next I next) (EmbeddedRun.arenaInv_init image storage) h
  exact ⟨I.safe, storage.slab_apart⟩

/-- An image of two drivers and an engine with a WASI guest, whose futures and engine state are a
`u64` and a slot large. -/
def engineLast : ArenaImage Bool where
  image :=
    { requestedRoles := ⟨0b111⟩
      requested_ne := by decide
      roleKind := fun role => if role.val = 2 then .engine else .driver
      artifact := .wasiImage
      registersRendezvous := true
      registersResolvers := fun _ => true
      enters := fun _ => true
      leases := fun _ => true
      fits := fun _ _ => true
      engineFits := fun _ => true }
  layout engine := if engine then ⟨4096, 16, 4, rfl⟩ else ⟨8, 8, 3, rfl⟩
  future _ := false
  engineState _ := true
  fits _ := ⟨fun _ => by decide, fun _ => rfl⟩
  engineFits _ := ⟨fun _ => by decide, fun _ => rfl⟩

/-- A storage whose slab does not end where an arena may begin. -/
def unevenStorage : EmbeddedAttachStorage := ⟨0x20000000, 1000, by decide⟩

/-- The drivers are polled while their engine runs. -/
theorem future_arena_engine :
    ∃ s, (embeddedArenaMachine engineLast).exec (.init engineLast unevenStorage)
        [.visit, .visit, .visit, .poll none, .poll (some 1)] = some s ∧
      ArenaSafe engineLast.layout unevenStorage.arena s ∧
        unevenStorage.slab.Apart unevenStorage.arena := by
  have runs : ((embeddedArenaMachine engineLast).exec (.init engineLast unevenStorage)
      [.visit, .visit, .visit, .poll none, .poll (some 1)]).isSome := by decide +kernel
  obtain ⟨s, ran⟩ := Option.isSome_iff_exists.mp runs
  exact ⟨s, ran, future_arena_safe engineLast unevenStorage ran⟩

end HibanaPico.Appkit
