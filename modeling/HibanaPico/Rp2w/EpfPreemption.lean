import HibanaPico.Rp2w.EpfIngress

/-!
# RP2W — EPF UART ingress under interrupts

* `EpfIngress.Undisturbed`: no interrupt comes between the driver's look at the FIFO and its push to
  take bytes, and no byte completes an image while one is ready.
* `epf_ingress_intact`: a run of such steps pushes the bytes in the order of their arrival, each
  once and never into a running push, leaves what is published as it is while it is ready, and
  reads images whose hash was verified.
-/

namespace HibanaPico.Rp2w
open HibanaPico.Support
open HibanaPico.Transport
open HibanaPico.Baker

variable {I : Type} {P : ImageIngress I} {n : ℕ}

/-! ### One byte -/

theorem uartRxByte_cases {u v : EpfUart I} {byte : U8} (h : uartRxByte P u byte = some v) :
    (completes P u byte = none ∧ ∃ ingress, v = { u with ingress }) ∨
      ∃ image hash ingress, completes P u byte = some (image, hash) ∧
        v = { image := u.image.store 0 image, len := BitVec.ofNat 32 image.length, rxReady := true,
              hash, ingress } := by
  rw [uartRxByte] at h
  rw [completes]
  split at h
  next e => exact .inl ⟨by rw [e], _, (Option.some.inj h).symm⟩
  next e => exact .inl ⟨by rw [e], _, (Option.some.inj h).symm⟩
  next ingress len hash e =>
    rw [e]
    split at h
    next absent => exact .inl ⟨by simp [absent], _, (Option.some.inj h).symm⟩
    next image present =>
      obtain ⟨long, h⟩ := Option.ite_none_left_eq_some.mp h
      refine .inr ⟨image.take len, hash, P.clearReady ingress, by simp [present], ?_⟩
      rw [List.length_take, Nat.min_eq_left (Nat.le_of_not_lt long)]
      exact (Option.some.inj h).symm

/-- What a byte completes has been verified. -/
theorem verified_of_completes (hP : P.Verifies) {u : EpfUart I} {byte : U8} {image : List U8}
    {hash : U32} (h : completes P u byte = some (image, hash)) :
    image.length ≤ epfBytecodeBytes ∧ P.imageHash image = hash := by
  rw [completes] at h
  split at h
  next ingress len hash' e =>
    obtain ⟨image', present, rfl, fits, verified⟩ := hP _ _ _ _ _ e
    rw [present, Option.map_some, List.take_length, Option.some.injEq, Prod.mk.injEq] at h
    obtain ⟨rfl, rfl⟩ := h
    exact ⟨fits, verified⟩
  next => cases h

/-- No image completes while one is ready. -/
def Quiet (P : ImageIngress I) (u : EpfUart I) (byte : U8) : Prop :=
  u.rxReady → completes P u byte = none

instance (P : ImageIngress I) (u : EpfUart I) (byte : U8) : Decidable (Quiet P u byte) :=
  inferInstanceAs (Decidable (_ → _))

def QuietAll (P : ImageIngress I) (u : EpfUart I) : List RxByte → Prop
  | [] => True
  | byte :: rest => Quiet P u byte.value ∧
      ∀ v, uartRxByte P u byte.value = some v → QuietAll P v rest

instance QuietAll.decidable (P : ImageIngress I) :
    ∀ (u : EpfUart I) (bytes : List RxByte), Decidable (QuietAll P u bytes)
  | _, [] => isTrue trivial
  | u, byte :: rest =>
      match h : uartRxByte P u byte.value with
      | none => decidable_of_iff (Quiet P u byte.value)
          ⟨fun quiet => ⟨quiet, fun v hv => by rw [h] at hv; cases hv⟩, And.left⟩
      | some w =>
          have : Decidable (QuietAll P w rest) := QuietAll.decidable P w rest
          decidable_of_iff (Quiet P u byte.value ∧ QuietAll P w rest)
            ⟨fun ⟨quiet, all⟩ => ⟨quiet, fun v hv => by rw [h] at hv; cases hv; exact all⟩,
              fun ⟨quiet, all⟩ => ⟨quiet, all w h⟩⟩

namespace EpfIngress

/-! ### What is published -/

/-- What the driver relies on at each of its accesses past the ready flag: that it is still up, and
in the loop of `read_epf_uart_image` that the bytes copied are those published. -/
def Relies (n : ℕ) (u : EpfUart I) : Foreground → Prop
  | .readLen | .load | .clear => u.rxReady
  | .copy out => u.rxReady ∧ u.len.toNat = n ∧ out.length ≤ n ∧ out = u.image.slice 0 out.length
  | _ => True

/-- The ready image is a completed one and the one shown, and every image read is completed. -/
structure Published (P : ImageIngress I) (n : ℕ) (s : EpfIngress I) : Prop where
  verified : ∀ image hash, (image, hash) ∈ s.images → P.imageHash image = hash
  completed : s.uart.rxReady → (s.uart.image.slice 0 s.uart.len.toNat, s.uart.hash) ∈ s.images
  stable : s.uart.rxReady → s.uart.published = s.shown
  relies : Relies n s.uart s.foreground
  reads : ∀ out ∈ s.reads, ∃ hash, (out, hash) ∈ s.images

theorem Relies.congr {u v : EpfUart I} (ready : v.rxReady = u.rxReady)
    (same : v.published = u.published) {f : Foreground} (h : Relies n u f) : Relies n v f := by
  obtain ⟨image, len, -⟩ : v.image = u.image ∧ v.len = u.len ∧ v.hash = u.hash := by
    simpa [EpfUart.published] using same
  cases f with
  | readLen | load | clear => exact ready.trans h
  | copy out =>
      obtain ⟨up, length, short, bytes⟩ := h
      exact ⟨ready.trans up, len ▸ length, short, image ▸ bytes⟩
  | _ => trivial

/-- Where no image is ready the driver relies on nothing. -/
theorem Relies.of_not_ready {u v : EpfUart I} {f : Foreground} (down : ¬ u.rxReady)
    (h : Relies n u f) : Relies n v f := by
  cases f with
  | readLen | load | clear => exact absurd h down
  | copy out => exact absurd h.1 down
  | _ => trivial

theorem Published.push (hP : P.Verifies) {s t : EpfIngress I} {byte : RxByte}
    (h : Published P n s) (quiet : Quiet P s.uart byte.value) (step : push P s byte = some t) :
    Published P n t := by
  obtain ⟨v, rx, rfl⟩ := Option.map_eq_some_iff.mp step
  rcases uartRxByte_cases rx with ⟨none, ingress, rfl⟩ | ⟨image, hash, ingress, some, rfl⟩
  · have kept : s.images ++ (completes P s.uart byte.value).toList = s.images := by
      rw [none]
      exact List.append_nil _
    exact
      { verified := by simpa only [kept] using h.verified
        completed := by simpa only [kept] using h.completed
        stable := fun ready => (h.stable ready).trans (if_pos ready).symm
        relies := h.relies.congr rfl rfl
        reads := by simpa only [kept] using h.reads }
  · have down : ¬ s.uart.rxReady := fun ready => by
      rw [quiet ready] at some
      cases some
    obtain ⟨fits, hashed⟩ := verified_of_completes hP some
    have more :
        s.images ++ (completes P s.uart byte.value).toList = s.images ++ [(image, hash)] := by
      rw [some]
      rfl
    have len : (BitVec.ofNat 32 image.length).toNat = image.length := by
      rw [BitVec.toNat_ofNat]
      exact Nat.mod_eq_of_lt (by rw [epfBytecodeBytes] at fits; omega)
    constructor
    · intro image' hash' mem
      rcases List.mem_append.mp (more ▸ mem) with mem | mem
      · exact h.verified _ _ mem
      · cases List.mem_singleton.mp mem
        exact hashed
    · intro _
      show (Cells.slice (Cells.store s.uart.image 0 image) 0 (BitVec.ofNat 32 image.length).toNat,
        hash) ∈ _
      rw [len, Cells.slice_store, more]
      exact List.mem_append_right _ (List.mem_singleton_self _)
    · exact fun _ => (if_neg down).symm
    · exact h.relies.of_not_ready down
    · intro out mem
      obtain ⟨hash', mem⟩ := h.reads out mem
      exact ⟨hash', by rw [more]; exact List.mem_append_left _ mem⟩

theorem Published.pushAll (hP : P.Verifies) {bytes : List RxByte} {s t : EpfIngress I}
    (h : Published P n s) (quiet : QuietAll P s.uart bytes)
    (step : EpfIngress.pushAll P s bytes = some t) : Published P n t := by
  induction bytes generalizing s with
  | nil =>
      cases step
      exact h
  | cons byte rest ih =>
      obtain ⟨u, pushed, step⟩ := Option.bind_eq_some_iff.mp step
      refine ih (h.push hP quiet.1 pushed) ?_ step
      obtain ⟨v, rx, rfl⟩ := Option.map_eq_some_iff.mp pushed
      exact quiet.2 v rx

/-- A step that leaves the statics and the history alone. -/
theorem Published.goto {s t : EpfIngress I} (h : Published P n s)
    (same : (t.uart, t.images, t.shown, t.reads) = (s.uart, s.images, s.shown, s.reads))
    (relies : Relies n s.uart t.foreground) : Published P n t := by
  simp only [Prod.mk.injEq] at same
  obtain ⟨uart, images, shown, reads⟩ := same
  rw [← uart] at relies
  exact
    { verified := by rw [images]; exact h.verified
      completed := by rw [images, uart]; exact h.completed
      stable := by rw [shown, uart]; exact h.stable
      relies
      reads := by rw [images, reads]; exact h.reads }

/-! ### The order of the bytes -/

/-- What has been pushed, is held by the driver and waits in the FIFO are the bytes received, in the
order of their arrival. -/
def InOrder (s : EpfIngress I) : Prop :=
  s.pushed ++ s.foreground.held ++ s.fifo = numbered s.received

theorem pushAll_eq_some {bytes : List RxByte} {s t : EpfIngress I}
    (h : pushAll P s bytes = some t) :
    t.pushed = s.pushed ++ bytes ∧ t.fifo = s.fifo ∧ t.foreground = s.foreground ∧
      t.received = s.received ∧ t.reentered = s.reentered := by
  induction bytes generalizing s with
  | nil =>
      cases h
      exact ⟨(List.append_nil _).symm, rfl, rfl, rfl, rfl⟩
  | cons byte rest ih =>
      obtain ⟨u, pushed, h⟩ := Option.bind_eq_some_iff.mp h
      obtain ⟨v, -, rfl⟩ := Option.map_eq_some_iff.mp pushed
      obtain ⟨bytes, rest⟩ := ih h
      exact ⟨bytes.trans (List.append_cons _ _ _).symm, rest⟩

theorem numbered_concat (received : List U8) (byte : U8) :
    numbered (received ++ [byte]) = numbered received ++ [⟨some received.length, byte⟩] :=
  List.mapIdx_concat

/-! ### The condition -/

/-- A step that interrupt and driver do not get into each other's way at: the data register is
read with a byte in its FIFO, an interrupt finds the FIFO empty while the driver holds a byte, and
no byte completes an image while one is ready. -/
def Undisturbed (P : ImageIngress I) (s : EpfIngress I) : EpfIngressAct → Prop
  | .arrive _ => True
  | .interrupt => (s.foreground.held ≠ [] → s.fifo = []) ∧ QuietAll P s.uart s.fifo
  | .foreground _ _ => (s.foreground = .readDr → s.fifo ≠ []) ∧
      (s.foreground.borrows → ∀ byte ∈ s.foreground.held, Quiet P s.uart byte.value)

instance (P : ImageIngress I) (s : EpfIngress I) : ∀ a, Decidable (Undisturbed P s a)
  | .arrive _ => isTrue trivial
  | .interrupt => inferInstanceAs (Decidable (_ ∧ _))
  | .foreground _ _ => inferInstanceAs (Decidable ((_ → _) ∧ (_ → ∀ byte ∈ s.foreground.held, _)))

/-- What the ingress keeps: the bytes in order, none pushed into a running push, what is published
as it was when it became ready, and every image read verified. -/
structure Intact (P : ImageIngress I) (s : EpfIngress I) : Prop where
  order : InOrder s
  entered : s.reentered = false
  stable : s.uart.rxReady → s.uart.published = s.shown
  reads : ∀ out ∈ s.reads, ∃ hash, (out, hash) ∈ s.images ∧ P.imageHash out = hash

/-! ### The steps -/

theorem published_interrupt (hP : P.Verifies) {s t : EpfIngress I} (h : Published P n s)
    (quiet : QuietAll P s.uart s.fifo) (step : s.interrupt P = some t) : Published P n t := by
  rw [interrupt] at step
  refine Published.pushAll hP ?_ ?_ step
  · exact h.goto rfl h.relies
  · exact quiet

theorem published_foreground (hP : P.Verifies) {s t : EpfIngress I} {answer : Bool} {stale : U8}
    (h : Published P n s) (undisturbed : Undisturbed P s (.foreground answer stale))
    (step : s.foregroundStep P n answer stale = some t) : Published P n t := by
  rw [foregroundStep] at step
  rw [Undisturbed] at undisturbed
  have relies := h.relies
  cases at_ : s.foreground with
  | idle | call byte =>
      rw [at_] at step
      cases step
      exact h.goto rfl trivial
  | readFr =>
      rw [at_] at step
      cases step
      exact h.goto rfl (by split <;> trivial)
  | readDr =>
      rw [at_] at step
      dsimp only at step
      split at step <;> cases step <;> exact h.goto rfl trivial
  | pushing byte =>
      rw [at_] at step undisturbed
      obtain ⟨u, pushed, rfl⟩ := Option.map_eq_some_iff.mp step
      have quiet := undisturbed.2 rfl byte (List.mem_singleton_self byte)
      exact (h.push hP quiet pushed).goto rfl trivial
  | imageReady =>
      rw [at_] at step
      cases step
      refine h.goto rfl ?_
      by_cases up : s.uart.rxReady
      · rw [if_pos up]
        exact up
      · rw [if_neg up]
        trivial
  | clock =>
      rw [at_] at step
      cases step
      exact h.goto rfl (by split <;> trivial)
  | readLen =>
      rw [at_] at step relies
      dsimp only at step
      split at step
      next => cases step; exact h.goto rfl trivial
      next fits =>
        cases step
        refine h.goto rfl ⟨relies, ?_, Nat.zero_le n, rfl⟩
        exact not_not.mp (not_or.mp fits).1
  | copy out =>
      rw [at_] at step relies
      obtain ⟨up, length, short, bytes⟩ := relies
      dsimp only at step
      split at step
      next more =>
        cases step
        have next : out ++ [s.uart.image out.length] = s.uart.image.slice 0 (out.length + 1) := by
          rw [Cells.slice_snoc, ← bytes, Nat.zero_add]
        refine h.goto rfl ⟨up, length, ?_, ?_⟩
        · rw [List.length_append, List.length_singleton]
          exact more
        · rw [List.length_append, List.length_singleton]
          exact next
      next full =>
        cases step
        have all : out.length = n := Nat.le_antisymm short (Nat.le_of_not_lt full)
        have copied : out = s.uart.image.slice 0 s.uart.len.toNat := by
          rw [length, ← all]
          exact bytes
        refine ⟨h.verified, h.completed, h.stable, up, fun other mem => ?_⟩
        rcases List.mem_append.mp mem with mem | mem
        · exact h.reads other mem
        · rw [List.mem_singleton.mp mem, copied]
          exact ⟨_, h.completed up⟩
  | load =>
      rw [at_] at step relies
      cases step
      refine h.goto rfl ?_
      cases answer
      · trivial
      · exact relies
  | clear =>
      rw [at_] at step
      cases step
      exact
        { verified := h.verified
          completed := fun up => absurd up Bool.false_ne_true
          stable := fun up => absurd up Bool.false_ne_true
          relies := trivial
          reads := h.reads }

theorem inOrder_arrive {s : EpfIngress I} (h : InOrder s) (byte : U8) :
    InOrder (s.arrive byte) := by
  rw [arrive]
  split
  next => 
    show s.pushed ++ s.foreground.held ++ (s.fifo ++ [_]) = numbered (s.received ++ [byte])
    rw [numbered_concat, ← h, List.append_assoc _ s.fifo]
  next => exact h

theorem order_interrupt {s t : EpfIngress I} (h : InOrder s) (entered : s.reentered = false)
    (undisturbed : s.foreground.held ≠ [] → s.fifo = []) (step : s.interrupt P = some t) :
    InOrder t ∧ t.reentered = false := by
  obtain ⟨pushed, fifo, foreground, received, reentered⟩ := pushAll_eq_some step
  rw [InOrder, pushed, fifo, foreground, received, reentered]
  rcases eq_or_ne s.foreground.held [] with free | held
  · have idle : s.foreground.borrows = false := by
      cases at_ : s.foreground <;> first | rfl | (rw [at_] at free; cases free)
    refine ⟨?_, ?_⟩
    · show s.pushed ++ s.fifo ++ s.foreground.held ++ [] = _
      rw [InOrder, free, List.append_nil] at h
      rw [free, List.append_nil, List.append_nil]
      exact h
    · show (s.reentered || (s.foreground.borrows && !s.fifo.isEmpty)) = false
      rw [entered, idle]
      rfl
  · have empty := undisturbed held
    refine ⟨?_, ?_⟩
    · show s.pushed ++ s.fifo ++ s.foreground.held ++ [] = _
      rw [InOrder, empty, List.append_nil] at h
      rw [empty, List.append_nil, List.append_nil]
      exact h
    · show (s.reentered || (s.foreground.borrows && !s.fifo.isEmpty)) = false
      rw [entered, empty]
      exact Bool.and_false _

theorem order_foreground {s t : EpfIngress I} {answer : Bool} {stale : U8} (h : InOrder s)
    (undisturbed : Undisturbed P s (.foreground answer stale))
    (step : s.foregroundStep P n answer stale = some t) :
    InOrder t ∧ t.reentered = s.reentered := by
  rw [foregroundStep] at step
  rw [Undisturbed] at undisturbed
  rw [InOrder] at h ⊢
  -- only a read of the data register and a push move a byte; the driver holds none at the others
  cases at_ : s.foreground with
  | readDr =>
      rw [at_] at step h
      dsimp only at step
      split at step
      next empty => exact absurd empty (undisturbed.1 at_)
      next byte fifo taken =>
        cases step
        refine ⟨?_, rfl⟩
        rw [taken] at h
        rw [← h]
        exact (List.append_assoc _ _ _).trans (congrArg (· ++ _) (List.append_nil _).symm)
  | pushing byte =>
      rw [at_] at step h
      obtain ⟨u, pushed, rfl⟩ := Option.map_eq_some_iff.mp step
      obtain ⟨v, -, rfl⟩ := Option.map_eq_some_iff.mp pushed
      exact ⟨(congrArg (· ++ s.fifo) (List.append_nil _)).trans h, rfl⟩
  | call byte =>
      rw [at_] at step h
      cases step
      exact ⟨h, rfl⟩
  | readLen =>
      rw [at_] at step h
      dsimp only at step
      split at step <;> cases step <;> exact ⟨h, rfl⟩
  | copy out =>
      rw [at_] at step h
      dsimp only at step
      split at step <;> cases step <;> exact ⟨h, rfl⟩
  | idle | clear =>
      rw [at_] at step h
      cases step
      exact ⟨h, rfl⟩
  | readFr | imageReady | clock | load =>
      rw [at_] at step h
      cases step
      refine ⟨?_, rfl⟩
      dsimp only
      split <;> exact h

/-- What an undisturbed step preserves. -/
theorem holds_step (hP : P.Verifies) (s : EpfIngress I) (a : EpfIngressAct) (t : EpfIngress I)
    (h : InOrder s ∧ s.reentered = false ∧ Published P n s) (undisturbed : Undisturbed P s a)
    (step : (epfIngressMachine P n).next s a = some t) :
    InOrder t ∧ t.reentered = false ∧ Published P n t := by
  obtain ⟨order, entered, published⟩ := h
  cases a with
  | arrive byte =>
      cases step
      refine ⟨inOrder_arrive order byte, ?_⟩
      rw [arrive]
      split
      · exact ⟨entered, published.goto rfl published.relies⟩
      · exact ⟨entered, published⟩
  | interrupt =>
      obtain ⟨order, entered⟩ := order_interrupt order entered undisturbed.1 step
      exact ⟨order, entered, published_interrupt hP published undisturbed.2 step⟩
  | foreground answer stale =>
      obtain ⟨order, same⟩ := order_foreground order undisturbed step
      exact ⟨order, same.trans entered, published_foreground hP published undisturbed step⟩

theorem inOrder_init (P : ImageIngress I) : InOrder (init P) := rfl

theorem published_init (P : ImageIngress I) (n : ℕ) : Published P n (init P) where
  verified _ _ mem := by cases mem
  completed up := by cases up
  stable up := by cases up
  relies := trivial
  reads _ mem := by cases mem

end EpfIngress

open EpfIngress

/-- **The UART ingress.** A run that interrupt and driver do not get into each other's way in
pushes the bytes received in the order of their arrival, each once and never into a running push,
keeps what is published while it is ready, and reads images whose hash was verified. -/
theorem epf_ingress_intact (hP : P.Verifies) {acts : List EpfIngressAct} {s : EpfIngress I}
    (h : (epfIngressMachine P n).exec (init P) acts = some s)
    (undisturbed : (epfIngressMachine P n).Along (Undisturbed P) (init P) acts) : s.Intact P := by
  obtain ⟨order, entered, published⟩ :=
    Machine.exec_invariant (holds_step hP) ⟨inOrder_init P, rfl, published_init P n⟩ undisturbed h
  refine ⟨order, entered, published.stable, fun out mem => ?_⟩
  obtain ⟨hash, mem⟩ := published.reads out mem
  exact ⟨hash, mem, published.verified out hash mem⟩

/-! ### The parser of the probe scripts' envelopes -/

/-- `b"HEPF"`. -/
def hepfMagic : List U8 := [0x48, 0x45, 0x50, 0x46]

/-- The length that the header announces. -/
def hepfLen (envelope : List U8) : ℕ :=
  (envelope.getD 5 0 ++ envelope.getD 4 0).toNat

/-- The hash that it announces. -/
def hepfHash (envelope : List U8) : U32 :=
  envelope.getD 9 0 ++ envelope.getD 8 0 ++ (envelope.getD 7 0 ++ envelope.getD 6 0)

def hepfPush (envelope : List U8) (byte : U8) : List U8 × ImageIngressStatus :=
  let envelope := envelope ++ [byte]
  if envelope.take 4 ≠ hepfMagic.take envelope.length then ([], .rejected)
  else if envelope.length < 6 then (envelope, .pending)
  else if hepfLen envelope = 0 ∨ hepfLen envelope > epfBytecodeBytes then ([], .rejected)
  else if envelope.length < 10 + hepfLen envelope then (envelope, .pending)
  else if envelope.length = 10 + hepfLen envelope ∧
      fnv32 (envelope.drop 10) = hepfHash envelope then
    (envelope, .ready (hepfLen envelope) (hepfHash envelope))
  else ([], .rejected)

/-- A parser that keeps the envelope as far as it has come. -/
def hepfIngress : ImageIngress (List U8) where
  new := []
  push := hepfPush
  image envelope :=
    if envelope.length = 10 + hepfLen envelope then some (envelope.drop 10) else none
  clearReady _ := []
  imageHash := fnv32

theorem hepfIngress_verifies : hepfIngress.Verifies := by
  intro envelope byte ingress len hash h
  change hepfPush envelope byte = _ at h
  rw [hepfPush] at h
  iterate 4 (split at h <;> first | cases h | skip)
  split at h
  next large _ complete =>
    cases h
    have large := not_or.mp large
    refine ⟨_, if_pos complete.1, ?_, Nat.le_of_not_lt large.2, complete.2⟩
    rw [List.length_drop, complete.1]
    omega
  next => cases h

/-- The envelope of an image. -/
def hepfEnvelope (image : List U8) : List U8 :=
  hepfMagic ++ [BitVec.ofNat 8 image.length, BitVec.ofNat 8 (image.length / 256)] ++
    (List.range 4).map (fun i => (fnv32 image).extractLsb' (8 * i) 8) ++ image

/-- An image that an interrupt takes in and the driver reads. -/
def quietActs : List EpfIngressAct :=
  (hepfEnvelope [0x07]).map .arrive ++ [.interrupt] ++ List.replicate 6 (.foreground false 0)

theorem epf_ingress_intact_quiet : ∃ s, (epfIngressMachine hepfIngress 1).exec (init hepfIngress)
    quietActs = some s ∧ s.reads = [[0x07]] ∧ s.Intact hepfIngress := by
  have run : ((epfIngressMachine hepfIngress 1).exec (init hepfIngress) quietActs).map
      (·.reads) = some [[0x07]] := by decide +kernel
  obtain ⟨s, h, reads⟩ := Option.map_eq_some_iff.mp run
  exact ⟨s, h, reads, epf_ingress_intact hepfIngress_verifies h (by decide +kernel)⟩

/-- The driver reads a byte, and an interrupt pushes the next one before it. -/
def overtakingActs : List EpfIngressAct :=
  [.arrive 0x48, .foreground false 0, .foreground false 0, .foreground false 0, .arrive 0x45,
    .interrupt]

/-- An interrupt between the driver's read and its push turns the bytes around. -/
theorem epf_ingress_overtaken : ¬ ∀ acts s,
    (epfIngressMachine hepfIngress epfPolicyImageBytes).exec (init hepfIngress) acts = some s →
      s.Intact hepfIngress := by
  intro H
  have run : ((epfIngressMachine hepfIngress epfPolicyImageBytes).exec (init hepfIngress)
      overtakingActs).map (fun s => (s.pushed, s.foreground, s.fifo, s.received)) =
        some ([⟨some 1, 0x45⟩], .call ⟨some 0, 0x48⟩, [], [0x48, 0x45]) := by decide +kernel
  obtain ⟨s, h, same⟩ := Option.map_eq_some_iff.mp run
  simp only [Prod.mk.injEq] at same
  obtain ⟨pushed, foreground, fifo, received⟩ := same
  have order := (H _ _ h).order
  rw [InOrder, pushed, foreground, fifo, received] at order
  exact absurd order (by decide)

end HibanaPico.Rp2w
