import Mathlib.Data.List.Basic
import Mathlib.Data.List.Count
import Mathlib.Data.List.Induction

/-!
# Support — Replay

What a first-in first-out queue with put-back does, as a history: entries are sent, delivered,
and, once delivered, requeued.  `replay` is the queue a history leaves; it exists only when every
delivery took the entry at the front.

* `replay_count`: each entry was delivered as often as it was sent and requeued, less what waits.
* `replay_order`: the deliveries that stand and then what waits are the sends, in order.
* `replay_requeued_next`: the first delivery after a requeue is the requeued entry.
* `replay_iff_requeues_nil`: a queue that does not see the requeues is one with put-back only where
  there are none.
-/

namespace HibanaPico.Support

/-- One event of a queue. -/
inductive QueueEvent (φ : Type*) where
  | sent (f : φ)
  | delivered (f : φ)
  | requeued (f : φ)
  deriving DecidableEq

namespace QueueEvent

variable {φ : Type*} [DecidableEq φ]

/-- The queue after an event, where the event agrees with the queue. -/
def apply : List φ → QueueEvent φ → Option (List φ)
  | q, sent f => some (q ++ [f])
  | g :: q, delivered f => if g = f then some q else none
  | [], delivered _ => none
  | q, requeued f => some (f :: q)

/-- The queue after a history, from the empty queue. -/
def replay (log : List (QueueEvent φ)) : Option (List φ) := log.foldlM apply []

def sends (log : List (QueueEvent φ)) : List φ :=
  log.filterMap fun | sent f => some f | _ => none

def deliveries (log : List (QueueEvent φ)) : List φ :=
  log.filterMap fun | delivered f => some f | _ => none

def requeues (log : List (QueueEvent φ)) : List φ :=
  log.filterMap fun | requeued f => some f | _ => none

omit [DecidableEq φ] in
theorem sends_append (log log' : List (QueueEvent φ)) :
    sends (log ++ log') = sends log ++ sends log' := List.filterMap_append

omit [DecidableEq φ] in
@[simp] theorem sends_map_sent (fs : List φ) : sends (fs.map sent) = fs := by
  simp [sends, List.filterMap_map]

@[simp] theorem replay_nil : replay ([] : List (QueueEvent φ)) = some [] := rfl

theorem replay_snoc (log : List (QueueEvent φ)) (e : QueueEvent φ) :
    replay (log ++ [e]) = (replay log).bind fun q => apply q e := by
  simp [replay, List.foldlM_append]

theorem replay_sents {log : List (QueueEvent φ)} {q : List φ} (h : replay log = some q)
    (fs : List φ) : replay (log ++ fs.map sent) = some (q ++ fs) := by
  induction fs using List.reverseRecOn with
  | nil => simpa using h
  | append_singleton fs f ih =>
      rw [List.map_append, ← List.append_assoc, List.map_singleton, replay_snoc, ih,
        ← List.append_assoc]
      rfl

theorem replay_snoc_eq {log : List (QueueEvent φ)} {e : QueueEvent φ} {q : List φ}
    (h : replay (log ++ [e]) = some q) : ∃ p, replay log = some p ∧ apply p e = some q := by
  rw [replay_snoc] at h
  exact Option.bind_eq_some_iff.mp h

theorem apply_delivered {p q : List φ} {f : φ} (h : apply p (delivered f) = some q) :
    p = f :: q := by
  cases p with
  | nil => cases h
  | cons g p =>
      simp only [apply] at h
      split at h
      · cases h; subst_vars; rfl
      · cases h

/-- **Nothing lost, nothing twice.** -/
theorem replay_count {log : List (QueueEvent φ)} {q : List φ} (h : replay log = some q) (f : φ) :
    (deliveries log).count f + q.count f = (sends log).count f + (requeues log).count f := by
  induction log using List.reverseRecOn generalizing q with
  | nil => cases h; rfl
  | append_singleton log e ih =>
      obtain ⟨p, hp, he⟩ := replay_snoc_eq h
      have := ih hp
      cases e with
      | sent g =>
          cases he
          simp only [deliveries, sends, requeues, List.filterMap_append, List.filterMap_cons,
            List.filterMap_nil, List.append_nil, List.count_append] at *
          omega
      | delivered g =>
          obtain rfl := apply_delivered he
          simp only [deliveries, sends, requeues, List.filterMap_append, List.filterMap_cons,
            List.filterMap_nil, List.append_nil, List.count_append, List.count_cons,
            List.count_nil] at *
          omega
      | requeued g =>
          cases he
          simp only [deliveries, sends, requeues, List.filterMap_append, List.filterMap_cons,
            List.filterMap_nil, List.append_nil, List.count_append, List.count_cons,
            List.count_nil] at *
          omega

/-- The deliveries that stand, oldest first: a requeue takes the latest of them back, where it is
the latest of them it puts back. -/
def settle : List φ → QueueEvent φ → Option (List φ)
  | d, sent _ => some d
  | d, delivered f => some (d ++ [f])
  | d, requeued f => if d.getLast? = some f then some d.dropLast else none

/-- The deliveries of a history that stand. -/
def settled (log : List (QueueEvent φ)) : Option (List φ) := log.foldlM settle []

theorem settled_snoc (log : List (QueueEvent φ)) (e : QueueEvent φ) :
    settled (log ++ [e]) = (settled log).bind fun d => settle d e := by
  simp [settled, List.foldlM_append]

/-- **In order.**  What stands delivered and then what waits are the sends, in order. -/
theorem replay_order {log : List (QueueEvent φ)} {q d : List φ} (h : replay log = some q)
    (hd : settled log = some d) : d ++ q = sends log := by
  induction log using List.reverseRecOn generalizing q d with
  | nil => cases h; cases hd; rfl
  | append_singleton log e ih =>
      obtain ⟨p, hp, he⟩ := replay_snoc_eq h
      rw [settled_snoc] at hd
      obtain ⟨d', hd', hs⟩ := Option.bind_eq_some_iff.mp hd
      have := ih hp hd'
      cases e with
      | sent g =>
          cases he
          cases hs
          rw [sends_append, ← this, List.append_assoc]
          rfl
      | delivered g =>
          obtain rfl := apply_delivered he
          cases hs
          rw [sends_append, ← this, List.append_assoc]
          exact (List.append_nil _).symm
      | requeued g =>
          cases he
          simp only [settle] at hs
          split at hs
          · rename_i hlast
            cases hs
            obtain ⟨init, rfl⟩ := List.getLast?_eq_some_iff.mp hlast
            rw [sends_append, ← this, List.dropLast_concat]
            simp [sends]
          · cases hs

/-- **The requeued entry comes next**, whatever is sent in between. -/
theorem replay_requeued_next {log : List (QueueEvent φ)} {f g : φ} {later : List φ} {q : List φ}
    (h : replay (log ++ [requeued f] ++ later.map sent ++ [delivered g]) = some q) : g = f := by
  obtain ⟨p, hp, he⟩ := replay_snoc_eq h
  obtain rfl := apply_delivered he
  suffices H : ∀ (later : List φ) (p : List φ),
      replay (log ++ [requeued f] ++ later.map sent) = some p → p.head? = some f by
    simpa using H later _ hp
  intro later
  induction later using List.reverseRecOn with
  | nil =>
      intro p hp
      rw [List.map_nil, List.append_nil] at hp
      obtain ⟨p', -, he⟩ := replay_snoc_eq hp
      cases he
      rfl
  | append_singleton later x ih =>
      intro p hp
      rw [List.map_append, List.map_singleton, ← List.append_assoc] at hp
      obtain ⟨p', hp', he⟩ := replay_snoc_eq hp
      cases he
      have := ih p' hp'
      cases p' with
      | nil => cases this
      | cons y p' => exact this

/-! ### A history without its requeues -/

/-- The history of a queue that does not see the requeues. -/
def unrequeued (log : List (QueueEvent φ)) : List (QueueEvent φ) :=
  log.filter fun | requeued _ => false | _ => true

omit [DecidableEq φ] in
theorem unrequeued_append (log log' : List (QueueEvent φ)) :
    unrequeued (log ++ log') = unrequeued log ++ unrequeued log' := List.filter_append ..

omit [DecidableEq φ] in
theorem requeues_append (log log' : List (QueueEvent φ)) :
    requeues (log ++ log') = requeues log ++ requeues log' := List.filterMap_append

omit [DecidableEq φ] in
theorem sends_unrequeued (log : List (QueueEvent φ)) : sends (unrequeued log) = sends log := by
  induction log with
  | nil => rfl
  | cons e log ih =>
      cases e with
      | sent f => exact congrArg (f :: ·) ih
      | delivered f => exact ih
      | requeued f => exact ih

omit [DecidableEq φ] in
theorem deliveries_unrequeued (log : List (QueueEvent φ)) :
    deliveries (unrequeued log) = deliveries log := by
  induction log with
  | nil => rfl
  | cons e log ih =>
      cases e with
      | sent f => exact ih
      | delivered f => exact congrArg (f :: ·) ih
      | requeued f => exact ih

omit [DecidableEq φ] in
theorem requeues_unrequeued (log : List (QueueEvent φ)) : requeues (unrequeued log) = [] := by
  induction log with
  | nil => rfl
  | cons e log ih =>
      cases e with
      | sent f => exact ih
      | delivered f => exact ih
      | requeued f => exact ih

omit [DecidableEq φ] in
theorem unrequeued_of_requeues_nil {log : List (QueueEvent φ)} (h : requeues log = []) :
    unrequeued log = log := by
  induction log with
  | nil => rfl
  | cons e log ih =>
      cases e with
      | sent f => exact congrArg (sent f :: ·) (ih h)
      | delivered f => exact congrArg (delivered f :: ·) (ih h)
      | requeued f => cases h

/-- A queue that does not see the requeues is one with put-back only where there are none. -/
theorem replay_iff_requeues_nil {log : List (QueueEvent φ)} {q : List φ}
    (h : replay (unrequeued log) = some q) : replay log = some q ↔ requeues log = [] := by
  constructor
  · intro hlog
    refine List.eq_nil_iff_forall_not_mem.mpr fun f hf => ?_
    have hseen := replay_count hlog f
    have hunseen := replay_count h f
    rw [deliveries_unrequeued, sends_unrequeued, requeues_unrequeued, List.count_nil] at hunseen
    have hpos := List.count_pos_iff.mpr hf
    omega
  · intro hnil
    rw [← unrequeued_of_requeues_nil hnil]
    exact h

end QueueEvent

end HibanaPico.Support
