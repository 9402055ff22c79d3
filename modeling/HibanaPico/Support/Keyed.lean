import Mathlib.Data.List.Basic
import Mathlib.Logic.Relation

/-!
# Support — Keyed

A bounded queue whose entries carry a key.  An entry that finds the queue full is lost, and a flag
is raised; an entry leaves as the first of its key, from wherever in the queue it stands.  An
observer notes what happens.

* `KeyedEvent`: what is noted; an entry comes with its origin.
* `KeyedQueue.Step`: one event, and what it does to the queue.
* `KeyedQueue.Exact`: per key the entries leave in the order they came, each once; an entry is lost
  only when the queue is full, and the flag tells until it is cleared.
* `exact_of_steps`: every run of steps from the empty queue is exact.
-/

namespace HibanaPico.Support

/-- An event of a keyed queue. -/
inductive KeyedEvent (ω φ : Type*) where
  | queued (origin : ω) (entry : φ)
  | lost (origin : ω) (entry : φ)
  | popped (entry : φ)
  | cleared
  deriving DecidableEq, Repr

namespace KeyedEvent

variable {ω φ : Type*}

/-- The entries that came into the queue, in order. -/
def queueds (log : List (KeyedEvent ω φ)) : List φ :=
  log.filterMap fun | queued _ f => some f | _ => none

/-- The entries that left the queue, in order. -/
def pops (log : List (KeyedEvent ω φ)) : List φ :=
  log.filterMap fun | popped f => some f | _ => none

/-- The entries handed to the queue, each with its origin. -/
def handed (log : List (KeyedEvent ω φ)) : List (ω × φ) :=
  log.filterMap fun | queued o f => some (o, f) | lost o f => some (o, f) | _ => none

@[simp] theorem queueds_append (log log' : List (KeyedEvent ω φ)) :
    queueds (log ++ log') = queueds log ++ queueds log' := List.filterMap_append

@[simp] theorem pops_append (log log' : List (KeyedEvent ω φ)) :
    pops (log ++ log') = pops log ++ pops log' := List.filterMap_append

@[simp] theorem handed_append (log log' : List (KeyedEvent ω φ)) :
    handed (log ++ log') = handed log ++ handed log' := List.filterMap_append

@[simp] theorem queueds_queued (o : ω) (f : φ) : queueds [queued o f] = [f] := rfl

@[simp] theorem queueds_lost (o : ω) (f : φ) : queueds [lost o f] = [] := rfl

@[simp] theorem queueds_popped (f : φ) : queueds [(popped f : KeyedEvent ω φ)] = [] := rfl

@[simp] theorem queueds_cleared : queueds [(cleared : KeyedEvent ω φ)] = [] := rfl

@[simp] theorem pops_queued (o : ω) (f : φ) : pops [queued o f] = [] := rfl

@[simp] theorem pops_lost (o : ω) (f : φ) : pops [lost o f] = [] := rfl

@[simp] theorem pops_popped (f : φ) : pops [(popped f : KeyedEvent ω φ)] = [f] := rfl

@[simp] theorem pops_cleared : pops [(cleared : KeyedEvent ω φ)] = [] := rfl

@[simp] theorem handed_queued (o : ω) (f : φ) : handed [queued o f] = [(o, f)] := rfl

@[simp] theorem handed_lost (o : ω) (f : φ) : handed [lost o f] = [(o, f)] := rfl

@[simp] theorem handed_popped (f : φ) : handed [(popped f : KeyedEvent ω φ)] = [] := rfl

@[simp] theorem handed_cleared : handed [(cleared : KeyedEvent ω φ)] = [] := rfl

end KeyedEvent

/-- What waits, what was noted, and the flag. -/
structure KeyedQueue (ω φ : Type*) where
  waiting : List φ
  log : List (KeyedEvent ω φ)
  flag : Bool

namespace KeyedQueue
open KeyedEvent

variable {ω φ κ : Type*} {key : φ → κ} {depth : ℕ}

/-- A queue nothing has come to. -/
def empty (flag : Bool) : KeyedQueue ω φ := ⟨[], [], flag⟩

/-- One event.  The flag can also be raised for other reasons. -/
inductive Step (key : φ → κ) (depth : ℕ) : KeyedQueue ω φ → KeyedQueue ω φ → Prop where
  | queue (q : KeyedQueue ω φ) (o : ω) (f : φ) (h : q.waiting.length < depth) :
      Step key depth q ⟨q.waiting ++ [f], q.log ++ [queued o f], q.flag⟩
  | lose (q : KeyedQueue ω φ) (o : ω) (f : φ) (h : q.waiting.length = depth) :
      Step key depth q ⟨q.waiting, q.log ++ [lost o f], true⟩
  | pop (q : KeyedQueue ω φ) (f : φ) (ahead behind : List φ)
      (h : q.waiting = ahead ++ f :: behind) (first : ∀ g ∈ ahead, key g ≠ key f) :
      Step key depth q ⟨ahead ++ behind, q.log ++ [popped f], q.flag⟩
  | raise (q : KeyedQueue ω φ) : Step key depth q ⟨q.waiting, q.log, true⟩
  | clear (q : KeyedQueue ω φ) : Step key depth q ⟨q.waiting, q.log ++ [cleared], false⟩

/-- Any number of events. -/
def Steps (key : φ → κ) (depth : ℕ) : KeyedQueue ω φ → KeyedQueue ω φ → Prop :=
  Relation.ReflTransGen (Step key depth)

theorem Step.pops_length {q q' : KeyedQueue ω φ} (h : Step key depth q q') :
    (pops q.log).length ≤ (pops q'.log).length := by
  cases h with
  | queue | lose | pop | clear => simp
  | raise => exact Nat.le_refl _

theorem Steps.pops_length {q q' : KeyedQueue ω φ} (h : Steps key depth q q') :
    (pops q.log).length ≤ (pops q'.log).length := by
  induction h with
  | refl => exact Nat.le_refl _
  | tail _ hstep ih => exact Nat.le_trans ih hstep.pops_length

/-- While nothing leaves, entries only come behind those that wait. -/
theorem Steps.waiting_of_no_pop {q q' : KeyedQueue ω φ} (h : Steps key depth q q')
    (hpops : (pops q'.log).length = (pops q.log).length) :
    ∃ more, q'.waiting = q.waiting ++ more := by
  induction h with
  | refl => exact ⟨[], (List.append_nil _).symm⟩
  | tail hsteps hstep ih =>
      have h₁ := Steps.pops_length hsteps
      have h₂ := hstep.pops_length
      obtain ⟨more, hmore⟩ := ih (by omega)
      cases hstep with
      | queue o f => exact ⟨more ++ [f], by rw [hmore, List.append_assoc]⟩
      | lose => exact ⟨more, hmore⟩
      | raise => exact ⟨more, hmore⟩
      | clear => exact ⟨more, hmore⟩
      | pop => simp at hpops; omega

variable [DecidableEq κ]

/-- What the notes say of a queue. -/
structure Exact (key : φ → κ) (depth : ℕ) (q : KeyedQueue ω φ) : Prop where
  room : q.waiting.length ≤ depth
  count : (pops q.log).length + q.waiting.length = (queueds q.log).length
  inOrder : ∀ k, (pops q.log).filter (key · = k) ++ q.waiting.filter (key · = k) =
    (queueds q.log).filter (key · = k)
  full : ∀ before o f after, q.log = before ++ lost o f :: after →
    (queueds before).length = (pops before).length + depth
  told : ∀ before o f after, q.log = before ++ lost o f :: after → cleared ∉ after → q.flag = true

theorem exact_empty (flag : Bool) : Exact key depth (empty flag : KeyedQueue ω φ) where
  room := Nat.zero_le _
  count := rfl
  inOrder := fun _ => rfl
  full := fun before o f after h => by simp [empty] at h
  told := fun before o f after h => by simp [empty] at h

/-- A note of a loss in a longer log is in the log, or is the new one. -/
theorem lost_of_append_singleton {log before after : List (KeyedEvent ω φ)} {e : KeyedEvent ω φ}
    {o : ω} {f : φ} (h : log ++ [e] = before ++ lost o f :: after) :
    (∃ after', log = before ++ lost o f :: after' ∧ after = after' ++ [e]) ∨
      (before = log ∧ e = lost o f ∧ after = []) := by
  rcases List.eq_nil_or_concat after with rfl | ⟨after', e', rfl⟩
  · obtain ⟨h₁, h₂⟩ := List.append_inj' h rfl
    exact .inr ⟨h₁.symm, List.head_eq_of_cons_eq h₂, rfl⟩
  · rw [List.concat_eq_append, ← List.cons_append, ← List.append_assoc] at h
    obtain ⟨h₁, h₂⟩ := List.append_inj' h rfl
    cases h₂
    exact .inl ⟨after', h₁, List.concat_eq_append⟩

/-- An event that is not a loss keeps what the log says of losses. -/
theorem Exact.full_snoc {q : KeyedQueue ω φ} {e : KeyedEvent ω φ} (hq : Exact key depth q)
    (he : ∀ o f, e ≠ lost o f) (before : List (KeyedEvent ω φ)) (o : ω) (f : φ)
    (after : List (KeyedEvent ω φ)) (h : q.log ++ [e] = before ++ lost o f :: after) :
    (queueds before).length = (pops before).length + depth := by
  rcases lost_of_append_singleton h with ⟨after', h', -⟩ | ⟨-, h', -⟩
  · exact hq.full _ _ _ _ h'
  · exact absurd h' (he o f)

/-- An event that is neither a loss nor a clearing keeps what the flag tells. -/
theorem Exact.told_snoc {q : KeyedQueue ω φ} {e : KeyedEvent ω φ} (hq : Exact key depth q)
    (he : ∀ o f, e ≠ lost o f) (before : List (KeyedEvent ω φ)) (o : ω) (f : φ)
    (after : List (KeyedEvent ω φ)) (h : q.log ++ [e] = before ++ lost o f :: after)
    (hc : cleared ∉ after) : q.flag = true := by
  rcases lost_of_append_singleton h with ⟨after', h', rfl⟩ | ⟨-, h', -⟩
  · exact hq.told _ _ _ _ h' fun hm => hc (List.mem_append_left _ hm)
  · exact absurd h' (he o f)

/-- **One event** keeps the queue exact. -/
theorem Exact.step {q q' : KeyedQueue ω φ} (hq : Exact key depth q) (h : Step key depth q q') :
    Exact key depth q' := by
  have hcount := hq.count
  cases h with
  | queue o f hroom =>
      refine ⟨?_, ?_, fun k => ?_, hq.full_snoc (by simp), hq.told_snoc (by simp)⟩
      · simpa using Nat.succ_le_of_lt hroom
      · simp only [pops_append, pops_queued, queueds_append, queueds_queued, List.length_append,
          List.length_singleton, List.append_nil]
        omega
      · simp only [pops_append, pops_queued, queueds_append, queueds_queued, List.filter_append,
          List.append_nil, ← List.append_assoc, hq.inOrder k]
  | lose o f hfull =>
      refine ⟨hq.room, ?_, fun k => ?_, fun before o' f' after h => ?_, fun _ _ _ _ _ _ => rfl⟩
      · simpa using hcount
      · simpa using hq.inOrder k
      · rcases lost_of_append_singleton h with ⟨after', h', -⟩ | ⟨rfl, -, -⟩
        · exact hq.full _ _ _ _ h'
        · omega
  | pop f ahead behind hw first =>
      have hlen : q.waiting.length = ahead.length + behind.length + 1 := by
        rw [hw, List.length_append, List.length_cons, Nat.add_assoc]
      refine ⟨?_, ?_, fun k => ?_, hq.full_snoc (by simp), hq.told_snoc (by simp)⟩
      · have := hq.room
        rw [List.length_append]
        omega
      · simp only [pops_append, pops_popped, queueds_append, queueds_popped, List.length_append,
          List.length_singleton, List.append_nil]
        omega
      · have hin := hq.inOrder k
        rw [hw, List.filter_append] at hin
        simp only [pops_append, pops_popped, queueds_append, queueds_popped, List.filter_append,
          List.append_nil]
        by_cases hk : key f = k
        · -- nothing of its key stands ahead of the entry that leaves
          have hahead : ahead.filter (key · = k) = [] :=
            List.filter_eq_nil_iff.mpr fun g hg => by simpa [hk] using first g hg
          rw [hahead] at hin ⊢
          simpa [List.filter_cons, hk] using hin
        · simpa [List.filter_cons, hk] using hin
  | raise => exact ⟨hq.room, hcount, hq.inOrder, hq.full, fun _ _ _ _ _ _ => rfl⟩
  | clear =>
      refine ⟨hq.room, ?_, fun k => ?_, hq.full_snoc (by simp), fun before o f after h hc => ?_⟩
      · simpa using hcount
      · simpa using hq.inOrder k
      · rcases lost_of_append_singleton h with ⟨after', -, rfl⟩ | ⟨-, h', -⟩
        · simp at hc
        · cases h'

theorem Exact.steps {q q' : KeyedQueue ω φ} (hq : Exact key depth q) (h : Steps key depth q q') :
    Exact key depth q' := by
  induction h with
  | refl => exact hq
  | tail _ hstep ih => exact ih.step hstep

/-- **Every run of events from the empty queue is exact.** -/
theorem exact_of_steps {flag : Bool} {q : KeyedQueue ω φ} (h : Steps key depth (empty flag) q) :
    Exact key depth q := (exact_empty flag).steps h

end KeyedQueue

end HibanaPico.Support
