import HibanaPico.UnoQ.ProofQueue

/-!
# Uno Q — ProofQueue as a list

What a `ProofQueue` is for: a bounded list of frames, to which frames are added at both ends and
from which the first frame of a lane is taken.  The ring refines it.

* `listStep`: a call, on the list.
* `queueStep_refines`: a call keeps the ring well formed, answers as the list does, and leaves what
  the list leaves.
* `proofQueue_refines`: so does every call of every run from `EMPTY`.
-/

namespace HibanaPico.UnoQ
open HibanaPico.Transport

/-- A call of a queue. -/
inductive QueueCall where
  | pushBack (lane source frameLabel : U8) (bytes : List U8)
  | pushFront (lane source frameLabel : U8) (bytes : List U8)
  | popFront (lane : U8)
  deriving DecidableEq

inductive QueueAnswer where
  | pushedBack (result : Except TransportError Unit)
  | pushedFront
  | popped (frame : Option ProofFrame)

/-! ### The list -/

/-- A frame that a push puts in the queue. -/
def pushedFrame (lane source frameLabel : U8) (bytes : List U8)
    (h : bytes.length ≤ proofCarrierFrameBytes) : ProofFrame :=
  ⟨true, lane, source, frameLabel, ⟨bytes, h⟩⟩

/-- The frame is of the lane. -/
def ofLane (lane : U8) (frame : ProofFrame) : Bool := frame.lane == lane

/-- A call, on the list: one end or the other grows unless the list is full or the frame too long,
and the first frame of a lane is taken out where there is one. -/
def listStep (l : List ProofFrame) : QueueCall → List ProofFrame × QueueAnswer
  | .pushBack lane source frameLabel bytes =>
      if h : l.length < proofCarrierQueueDepth ∧ bytes.length ≤ proofCarrierFrameBytes then
        (l ++ [pushedFrame lane source frameLabel bytes h.2], .pushedBack (.ok ()))
      else (l, .pushedBack (.error .failed))
  | .pushFront lane source frameLabel bytes =>
      if h : l.length < proofCarrierQueueDepth ∧ bytes.length ≤ proofCarrierFrameBytes then
        (pushedFrame lane source frameLabel bytes h.2 :: l, .pushedFront)
      else (l, .pushedFront)
  | .popFront lane => (l.eraseP (ofLane lane), .popped (l.find? (ofLane lane)))

/-! ### The ring -/

/-- A call of the ring. -/
def queueStep (q : ProofQueue) : QueueCall → ProofQueue × QueueAnswer
  | .pushBack lane source frameLabel bytes =>
      match q.pushBack lane source frameLabel bytes with
      | .ok q' => (q', .pushedBack (.ok ()))
      | .error e => (q, .pushedBack (.error e))
  | .pushFront lane source frameLabel bytes =>
      (q.pushFront lane source frameLabel bytes, .pushedFront)
  | .popFront lane => ((q.popFront lane).1, .popped (q.popFront lane).2)

/-- The queue that calls from `EMPTY` leave. -/
def queueAfter (calls : List QueueCall) : ProofQueue :=
  calls.foldl (fun q call => (queueStep q call).1) .empty

variable {q : ProofQueue} {lane source frameLabel : U8} {bytes : List U8}

/-- What a push has room for. -/
theorem refused_iff (hq : q.WellFormed) :
    (bytes.length > proofCarrierFrameBytes ∨ q.len = proofCarrierQueueDepth) ↔
      ¬ (q.contents.length < proofCarrierQueueDepth ∧ bytes.length ≤ proofCarrierFrameBytes) := by
  have := hq.len_le
  rw [q.length_contents]
  omega

theorem queueStep_pushBack (hq : q.WellFormed) :
    (queueStep q (.pushBack lane source frameLabel bytes)).1.WellFormed ∧
      ((queueStep q (.pushBack lane source frameLabel bytes)).1.contents,
        (queueStep q (.pushBack lane source frameLabel bytes)).2) =
          listStep q.contents (.pushBack lane source frameLabel bytes) := by
  by_cases room : q.contents.length < proofCarrierQueueDepth ∧
      bytes.length ≤ proofCarrierFrameBytes
  · obtain ⟨q', pushed⟩ : ∃ q', q.pushBack lane source frameLabel bytes = .ok q' :=
      ⟨_, dif_neg fun refused => (refused_iff hq).mp refused room⟩
    obtain ⟨wellFormed, fits, contents⟩ := ProofQueue.contents_pushBack hq pushed
    rw [queueStep, pushed, listStep, dif_pos room]
    exact ⟨wellFormed, Prod.ext contents rfl⟩
  · rw [queueStep, ProofQueue.pushBack_refused ((refused_iff hq).mpr room), listStep, dif_neg room]
    exact ⟨hq, rfl⟩

theorem queueStep_pushFront (hq : q.WellFormed) :
    (queueStep q (.pushFront lane source frameLabel bytes)).1.WellFormed ∧
      ((queueStep q (.pushFront lane source frameLabel bytes)).1.contents,
        (queueStep q (.pushFront lane source frameLabel bytes)).2) =
          listStep q.contents (.pushFront lane source frameLabel bytes) := by
  by_cases room : q.contents.length < proofCarrierQueueDepth ∧
      bytes.length ≤ proofCarrierFrameBytes
  · obtain ⟨wellFormed, contents⟩ := @ProofQueue.contents_pushFront q hq lane source frameLabel
      bytes room.2 (q.length_contents ▸ room.1)
    rw [listStep, dif_pos room]
    exact ⟨wellFormed, Prod.ext contents rfl⟩
  · rw [queueStep, ProofQueue.pushFront_refused ((refused_iff hq).mpr room), listStep, dif_neg room]
    exact ⟨hq, rfl⟩

theorem queueStep_popFront (hq : q.WellFormed) :
    (queueStep q (.popFront lane)).1.WellFormed ∧
      ((queueStep q (.popFront lane)).1.contents, (queueStep q (.popFront lane)).2) =
        listStep q.contents (.popFront lane) := by
  rcases ProofQueue.popFront_cases hq lane with
    ⟨popped, others⟩ | ⟨q', f, pre, post, popped, wellFormed, contents, left, is, before⟩
  · have others : ∀ f ∈ q.contents, ¬ ofLane lane f := fun f hf is =>
      others f hf (eq_of_beq is)
    rw [queueStep, popped, listStep, List.eraseP_of_forall_not others,
      List.find?_eq_none.mpr others]
    exact ⟨hq, rfl⟩
  · have before : ∀ g ∈ pre, ¬ ofLane lane g := fun g hg is => before g hg (eq_of_beq is)
    have is : ofLane lane f = true := beq_iff_eq.mpr is
    rw [queueStep, popped, listStep, contents, left, List.eraseP_append_right _ before,
      List.eraseP_cons_of_pos is, List.find?_append, List.find?_eq_none.mpr before,
      Option.none_or, List.find?_cons_of_pos is]
    exact ⟨wellFormed, rfl⟩

/-- **A call refines the list's.** -/
theorem queueStep_refines (hq : q.WellFormed) (call : QueueCall) :
    (queueStep q call).1.WellFormed ∧
      ((queueStep q call).1.contents, (queueStep q call).2) = listStep q.contents call := by
  cases call with
  | pushBack lane source frameLabel bytes => exact queueStep_pushBack hq
  | pushFront lane source frameLabel bytes => exact queueStep_pushFront hq
  | popFront lane => exact queueStep_popFront hq

theorem wellFormed_queueAfter (calls : List QueueCall) : (queueAfter calls).WellFormed := by
  induction calls using List.reverseRecOn with
  | nil => exact ProofQueue.wellFormed_empty
  | append_singleton calls call ih =>
      rw [queueAfter, List.foldl_append]
      exact (queueStep_refines ih call).1

/-- **Refinement.**  After any calls from `EMPTY` the ring is well formed, it holds what the same
calls leave of the list, and it answers the next call as the list does. -/
theorem proofQueue_refines (calls : List QueueCall) :
    (queueAfter calls).WellFormed ∧
      (queueAfter calls).contents = calls.foldl (fun l call => (listStep l call).1) [] ∧
      ∀ call, ((queueStep (queueAfter calls) call).1.contents,
        (queueStep (queueAfter calls) call).2) = listStep (queueAfter calls).contents call := by
  refine ⟨wellFormed_queueAfter calls, ?_,
    fun call => (queueStep_refines (wellFormed_queueAfter calls) call).2⟩
  induction calls using List.reverseRecOn with
  | nil => rfl
  | append_singleton calls call ih =>
      rw [queueAfter, List.foldl_append, List.foldl_append, ← ih]
      exact congrArg Prod.fst (queueStep_refines (wellFormed_queueAfter calls) call).2

/-- A frame of 129 bytes is not put in front of an empty queue. -/
theorem pushFront_not_prepended : ¬ ∀ (calls : List QueueCall) lane source frameLabel bytes,
    (queueAfter calls).len < proofCarrierQueueDepth →
      ∃ frame, ((queueAfter calls).pushFront lane source frameLabel bytes).contents =
        frame :: (queueAfter calls).contents := by
  intro prepended
  obtain ⟨frame, contents⟩ := prepended [] 0 0 0 (List.replicate 129 0) (by decide)
  rw [ProofQueue.pushFront_refused (.inl (by rw [List.length_replicate]; decide))] at contents
  exact absurd contents (List.cons_ne_self frame _).symm

end HibanaPico.UnoQ
