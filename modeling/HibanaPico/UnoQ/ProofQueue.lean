import HibanaPico.Support.Ring
import HibanaPico.UnoQ.Uart

/-!
# Uno Q — ProofQueue

A `ProofQueue` is one role's bounded ring of frames, with a removal from the middle: a receiver
takes the first frame of its own lane.  `contents` is the list of its frames, oldest first.

* `WellFormed`: the head is an index, and the occupied cells are exactly those of the window.
* `contents_pushBack`, `contents_pushFront`, `popFront_cases`: the three operations on a
  well-formed queue, as operations on `contents`; each keeps it well formed.
-/

namespace HibanaPico.UnoQ
open HibanaPico.Support
open HibanaPico.Transport

def proofCarrierRoles : ℕ := 5
def proofCarrierQueueDepth : ℕ := 24

/-- A cell of the ring.  `payload` is `bytes[..len]`; nothing reads `bytes` past it. -/
structure ProofFrame where
  occupied : Bool
  lane : U8
  source : U8
  frameLabel : U8
  payload : FrameBytes proofCarrierFrameBytes
  deriving DecidableEq, Repr

def ProofFrame.empty : ProofFrame :=
  { occupied := false, lane := 0, source := 0, frameLabel := 0,
    payload := .empty _ }

structure ProofQueue where
  frames : Cells ProofFrame
  head : ℕ
  len : ℕ

namespace ProofQueue

def empty : ProofQueue := { frames := fun _ => .empty, head := 0, len := 0 }

/-- `push_back`: refused when the payload is too long or the ring is full. -/
def pushBack (q : ProofQueue) (lane source frameLabel : U8) (bytes : List U8) :
    Except TransportError ProofQueue :=
  if h : bytes.length > proofCarrierFrameBytes ∨ q.len = proofCarrierQueueDepth then
    .error .failed
  else
    let idx := (q.head + q.len) % proofCarrierQueueDepth
    let frame : ProofFrame :=
      { occupied := true, lane, source, frameLabel,
        payload := ⟨bytes, Nat.not_lt.mp fun e => h (.inl e)⟩ }
    .ok { q with frames := Function.update q.frames idx frame, len := q.len + 1 }

/-- `push_front`: returns nothing, and does nothing when `push_back` would refuse. -/
def pushFront (q : ProofQueue) (lane source frameLabel : U8) (bytes : List U8) : ProofQueue :=
  if h : bytes.length > proofCarrierFrameBytes ∨ q.len = proofCarrierQueueDepth then q
  else
    let head := if q.head = 0 then proofCarrierQueueDepth - 1 else q.head - 1
    let frame : ProofFrame :=
      { occupied := true, lane, source, frameLabel,
        payload := ⟨bytes, Nat.not_lt.mp fun e => h (.inl e)⟩ }
    { frames := Function.update q.frames head frame, head, len := q.len + 1 }

/-- The cell at `offset` from the head holds a frame of `lane`. -/
def matchesLane (q : ProofQueue) (lane : U8) (offset : ℕ) : Bool :=
  let frame := q.frames ((q.head + offset) % proofCarrierQueueDepth)
  frame.occupied && frame.lane == lane

/-- The part of `pop_front` that takes the frame at `offset` out: every later frame moves one
cell down, the last cell is emptied, and the head of an empty queue is set back to zero. -/
def removeAt (q : ProofQueue) (offset : ℕ) : ProofQueue :=
  let idx := (q.head + offset) % proofCarrierQueueDepth
  let tail := (q.head + q.len - 1) % proofCarrierQueueDepth
  let frames := Ring.closeGap proofCarrierQueueDepth tail proofCarrierQueueDepth idx q.frames
  { frames := Function.update frames tail .empty
    head := if q.len - 1 = 0 then 0 else q.head
    len := q.len - 1 }

/-- `pop_front`: the first frame of `lane`. -/
def popFront (q : ProofQueue) (lane : U8) : ProofQueue × Option ProofFrame :=
  if q.len = 0 then (q, none)
  else
    match (List.range q.len).find? (q.matchesLane lane) with
    | none => (q, none)
    | some offset =>
        let frame := q.frames ((q.head + offset) % proofCarrierQueueDepth)
        (q.removeAt offset, if frame.occupied then some frame else none)

/-- The frames in the ring, oldest first. -/
def contents (q : ProofQueue) : List ProofFrame :=
  Ring.window q.frames proofCarrierQueueDepth q.head q.len

/-- The representation invariant. -/
structure WellFormed (q : ProofQueue) : Prop where
  head_lt : q.head < proofCarrierQueueDepth
  len_le : q.len ≤ proofCarrierQueueDepth
  occupied_iff : ∀ i < proofCarrierQueueDepth,
    (q.frames i).occupied = true ↔ Ring.Within proofCarrierQueueDepth q.head q.len i

theorem wellFormed_empty : WellFormed empty where
  head_lt := by decide
  len_le := by decide
  occupied_iff _ _ := iff_of_false Bool.false_ne_true Ring.not_within_zero

@[simp] theorem contents_empty : empty.contents = [] := rfl

theorem length_contents (q : ProofQueue) : q.contents.length = q.len := Ring.length_window _ _ _ _

theorem len_of_append {q q' : ProofQueue} {f : ProofFrame} (h : q'.contents = q.contents ++ [f]) :
    q'.len = q.len + 1 := by
  rw [← length_contents, h, List.length_append, length_contents]
  rfl

variable {q : ProofQueue}

theorem WellFormed.occupied_slot (h : q.WellFormed) {i : ℕ} (hi : i < q.len) :
    (q.frames (Ring.slot proofCarrierQueueDepth q.head i)).occupied = true :=
  (h.occupied_iff _ (Ring.slot_lt _ h.head_lt)).mpr ⟨i, hi, rfl⟩

/-! ### The two pushes -/

theorem pushBack_refused {lane source frameLabel : U8} {bytes : List U8}
    (h : bytes.length > proofCarrierFrameBytes ∨ q.len = proofCarrierQueueDepth) :
    q.pushBack lane source frameLabel bytes = .error .failed := dif_pos h

theorem pushFront_refused {lane source frameLabel : U8} {bytes : List U8}
    (h : bytes.length > proofCarrierFrameBytes ∨ q.len = proofCarrierQueueDepth) :
    q.pushFront lane source frameLabel bytes = q := dif_pos h

/-- A frame written to a cell makes that cell, and no other, newly occupied. -/
theorem occupied_update {c : Cells ProofFrame} {i k : ℕ} {lane source frameLabel : U8}
    {payload : FrameBytes proofCarrierFrameBytes} :
    (Function.update c k ⟨true, lane, source, frameLabel, payload⟩ i).occupied = true ↔
      i = k ∨ (c i).occupied = true := by
  by_cases h : i = k
  · subst h; simp
  · simp [h]

/-- **Append.** -/
theorem contents_pushBack (hq : q.WellFormed) {lane source frameLabel : U8} {bytes : List U8}
    {q' : ProofQueue} (h : q.pushBack lane source frameLabel bytes = .ok q') :
    q'.WellFormed ∧ ∃ hb : bytes.length ≤ proofCarrierFrameBytes,
      q'.contents = q.contents ++ [⟨true, lane, source, frameLabel, ⟨bytes, hb⟩⟩] := by
  unfold pushBack at h
  split at h
  · cases h
  rename_i hfits
  have hlen : q.len < proofCarrierQueueDepth := by
    have := hq.len_le; have := fun e => hfits (.inr e); omega
  obtain rfl := Except.ok.inj h
  refine ⟨⟨hq.head_lt, hlen, fun i hi => ?_⟩, Nat.not_lt.mp fun e => hfits (.inl e),
    Ring.window_write_tail _ _ hq.head_lt hlen⟩
  rw [Ring.within_succ, ← hq.occupied_iff i hi]
  exact occupied_update

/-- A payload that fits is refused exactly when the ring is full. -/
theorem pushBack_cases (hq : q.WellFormed) (lane source frameLabel : U8)
    (payload : FrameBytes proofCarrierFrameBytes) :
    (q.len = proofCarrierQueueDepth ∧
        q.pushBack lane source frameLabel payload.1 = .error .failed) ∨
      ∃ q', q.len < proofCarrierQueueDepth ∧
        q.pushBack lane source frameLabel payload.1 = .ok q' ∧ q'.WellFormed ∧
        q'.contents = q.contents ++ [⟨true, lane, source, frameLabel, payload⟩] := by
  by_cases hfull : q.len = proofCarrierQueueDepth
  · exact .inl ⟨hfull, pushBack_refused (.inr hfull)⟩
  · have hlen : q.len < proofCarrierQueueDepth := Nat.lt_of_le_of_ne hq.len_le hfull
    obtain ⟨q', hpush⟩ : ∃ q', q.pushBack lane source frameLabel payload.1 = .ok q' :=
      ⟨_, dif_neg (not_or.mpr ⟨Nat.not_lt.mpr payload.2, hfull⟩)⟩
    obtain ⟨hwf, _, hcontents⟩ := contents_pushBack hq hpush
    exact .inr ⟨q', hlen, hpush, hwf, hcontents⟩

/-- **Prepend.** -/
theorem contents_pushFront (hq : q.WellFormed) {lane source frameLabel : U8} {bytes : List U8}
    (hb : bytes.length ≤ proofCarrierFrameBytes) (hlen : q.len < proofCarrierQueueDepth) :
    (q.pushFront lane source frameLabel bytes).WellFormed ∧
      (q.pushFront lane source frameLabel bytes).contents =
        ⟨true, lane, source, frameLabel, ⟨bytes, hb⟩⟩ :: q.contents := by
  unfold pushFront
  rw [dif_neg (by omega)]
  refine ⟨⟨Ring.before_lt hq.head_lt, hlen, fun i hi => ?_⟩,
    Ring.window_write_head _ _ hq.head_lt hlen⟩
  refine Iff.trans ?_ (Ring.within_before hq.head_lt hlen).symm
  rw [← hq.occupied_iff i hi]
  exact occupied_update

/-! ### The removal -/

theorem matchesLane_iff (hq : q.WellFormed) {lane : U8} {i : ℕ} (hi : i < q.len) :
    q.matchesLane lane i = true ↔
      (q.frames (Ring.slot proofCarrierQueueDepth q.head i)).lane = lane := by
  have := hq.occupied_slot hi
  unfold Ring.slot at this
  simp [matchesLane, Ring.slot, this]

/-- After the gap at `offset` is closed and the last cell emptied, the occupied cells are those
of the window without its last. -/
theorem occupied_closed (hq : q.WellFormed) {n offset : ℕ} (hn : q.len = n + 1)
    (ho : offset ≤ n) {i : ℕ} (hi : i < proofCarrierQueueDepth) :
    (Function.update (Ring.closeGap proofCarrierQueueDepth
        (Ring.slot proofCarrierQueueDepth q.head n) proofCarrierQueueDepth
        (Ring.slot proofCarrierQueueDepth q.head offset) q.frames)
      (Ring.slot proofCarrierQueueDepth q.head n) ProofFrame.empty i).occupied = true ↔
      Ring.Within proofCarrierQueueDepth q.head n i := by
  have hlt : n < proofCarrierQueueDepth := by have := hq.len_le; omega
  by_cases htl : i = Ring.slot proofCarrierQueueDepth q.head n
  · rw [htl, Function.update_self]
    exact iff_of_false Bool.false_ne_true (Ring.not_within_tail hq.head_lt hlt)
  rw [Function.update_of_ne htl]
  by_cases hin : Ring.Within proofCarrierQueueDepth q.head n i
  · refine iff_of_true ?_ hin
    obtain ⟨j, hj, rfl⟩ := hin
    rw [Ring.closeGap_slot hq.head_lt hlt _ _ _ ho (by omega) j (by omega)]
    split
    · exact hq.occupied_slot (by omega)
    · exact hq.occupied_slot (by omega)
  · refine iff_of_false ?_ hin
    have hout : ¬ Ring.Within proofCarrierQueueDepth q.head (n + 1) i :=
      fun h => hin ((Ring.within_succ.mp h).resolve_left htl)
    rw [Ring.closeGap_of_not_within hq.head_lt hlt hout _ _ _ ho, hq.occupied_iff i hi, hn]
    exact hout

/-- **Removal.** -/
theorem contents_removeAt (hq : q.WellFormed) {offset : ℕ} (hi : offset < q.len) :
    (q.removeAt offset).WellFormed ∧ (q.removeAt offset).contents = q.contents.eraseIdx offset := by
  obtain ⟨n, hn⟩ : ∃ n, q.len = n + 1 := ⟨q.len - 1, by omega⟩
  have hlt : n < proofCarrierQueueDepth := by have := hq.len_le; omega
  have hremoved : q.removeAt offset =
      { frames := Function.update (Ring.closeGap proofCarrierQueueDepth
          (Ring.slot proofCarrierQueueDepth q.head n) proofCarrierQueueDepth
          (Ring.slot proofCarrierQueueDepth q.head offset) q.frames)
          (Ring.slot proofCarrierQueueDepth q.head n) .empty
        head := if n = 0 then 0 else q.head
        len := n } := by
    unfold removeAt
    rw [hn]
    rfl
  have hcontents : q.contents = Ring.window q.frames proofCarrierQueueDepth q.head (n + 1) := by
    rw [← hn]; rfl
  rw [hremoved]
  by_cases h0 : n = 0
  · -- the last frame goes, and the head is set back to zero
    subst h0
    refine ⟨⟨Nat.zero_lt_succ _, Nat.zero_le _, fun i hi' => ?_⟩, ?_⟩
    · exact (occupied_closed hq hn (by omega) hi').trans
        (iff_of_false Ring.not_within_zero Ring.not_within_zero)
    · refine (List.eq_nil_of_length_eq_zero ?_).symm
      rw [List.length_eraseIdx_of_lt (by rw [length_contents]; exact hi), length_contents, hn]
  · rw [if_neg h0]
    refine ⟨⟨hq.head_lt, Nat.le_of_lt hlt, fun i hi' => ?_⟩, ?_⟩
    · exact occupied_closed hq hn (by omega) hi'
    · rw [hcontents]
      exact (Ring.window_update _ (Ring.not_within_tail hq.head_lt hlt)).trans
        (Ring.window_closeGap q.frames hq.head_lt hlt (by omega) (by omega))

/-- **`pop_front`.**  Either no frame is of the lane and the queue is left alone, or the first
frame of the lane is taken out and the others keep their order. -/
theorem popFront_cases (hq : q.WellFormed) (lane : U8) :
    (q.popFront lane = (q, none) ∧ ∀ f ∈ q.contents, f.lane ≠ lane) ∨
      ∃ q' f pre post, q.popFront lane = (q', some f) ∧ q'.WellFormed ∧
        q.contents = pre ++ f :: post ∧ q'.contents = pre ++ post ∧ f.lane = lane ∧
        ∀ g ∈ pre, g.lane ≠ lane := by
  unfold popFront
  by_cases h0 : q.len = 0
  · refine .inl ⟨if_pos h0, fun f hf => ?_⟩
    rw [List.eq_nil_of_length_eq_zero (q.length_contents.trans h0)] at hf
    cases hf
  rw [if_neg h0]
  cases hfind : (List.range q.len).find? (q.matchesLane lane) with
  | none =>
      refine .inl ⟨rfl, fun f hf hlane => ?_⟩
      obtain ⟨i, hi, rfl⟩ := List.mem_map.mp hf
      refine absurd ((matchesLane_iff hq (List.mem_range.mp hi)).mpr hlane) ?_
      exact List.find?_eq_none.mp hfind i hi
  | some offset =>
      obtain ⟨hmatch, hmem, hfirst⟩ := List.find?_range_eq_some.mp hfind
      have hlt : offset < q.len := List.mem_range.mp hmem
      obtain ⟨hwf, hcontents⟩ := contents_removeAt hq hlt
      have hlen : offset < q.contents.length := by rw [length_contents]; exact hlt
      have hget : ∀ i (hi : i < q.contents.length), q.contents[i] =
          q.frames (Ring.slot proofCarrierQueueDepth q.head i) := fun i hi => by
        simp [contents, Ring.window]
      refine .inr ⟨q.removeAt offset, q.frames (Ring.slot proofCarrierQueueDepth q.head offset),
        q.contents.take offset, q.contents.drop (offset + 1), ?_, hwf, ?_, ?_, ?_, ?_⟩
      · exact congrArg (Prod.mk _) (if_pos (hq.occupied_slot hlt))
      · rw [← hget offset hlen, ← List.drop_eq_getElem_cons hlen, List.take_append_drop]
      · rw [hcontents, List.eraseIdx_eq_take_drop_succ]
      · exact (matchesLane_iff hq hlt).mp hmatch
      · intro g hg hlane
        obtain ⟨i, hi, rfl⟩ := List.mem_take_iff_getElem.mp hg
        rw [hget] at hlane
        have hno := hfirst i (by omega)
        rw [(matchesLane_iff hq (by omega)).mpr hlane] at hno
        exact absurd hno (by decide)

end ProofQueue

end HibanaPico.UnoQ
