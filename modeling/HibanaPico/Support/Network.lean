import HibanaPico.Support.Choreography
import HibanaPico.Support.Runs
import Mathlib.Data.List.Perm.Subperm

/-!
# Support — Network

Parties that send to and receive from one another over queues, each knowing at every point which
call comes next.  Which party goes next is open, but what it does is not: the steps of two parties
can be taken in either order.

* `Machine.Commutes.catches_up`: a run behind another, of a machine whose steps commute, can be
  finished to where the other ends.
* `Network`, `Network.machine`: the parties, and the queues between any two.
* `Talks`: the parties exchange messages one at a time, each taken as soon as it is sent.
* `Talks.catches_up`: where the parties can talk, every run behind the talk can be finished to its
  end.
* `Talks.traces_behind`, `Talks.not_ended`, `Talks.observed_behind`: so what a party has done in a
  run is what it does in the talk, up to there, and no party has given up.
-/

namespace HibanaPico.Support

/-! ### Steps that commute -/

namespace Machine

variable {σ α : Type*} {M : Machine σ α}

/-- Two different steps out of one state can both be taken, in either order. -/
def Commutes (M : Machine σ α) : Prop :=
  ∀ ⦃s t u a b⦄, a ≠ b → M.next s a = some t → M.next s b = some u →
    ∃ v, M.next t b = some v ∧ M.next u a = some v

variable [DecidableEq α]

/-- A step that a run takes somewhere can be taken first. -/
theorem Commutes.exec_erase (h : M.Commutes) {s t u : σ} {a : α} {bs : List α}
    (step : M.next s a = some t) (run : M.exec s bs = some u) (mem : a ∈ bs) :
    M.exec t (bs.erase a) = some u := by
  induction bs generalizing s t with
  | nil => cases mem
  | cons b bs ih =>
      obtain ⟨s', first, rest⟩ := exec_cons.mp run
      by_cases same : b = a
      · subst same
        obtain rfl := Option.some.inj (step.symm.trans first)
        rwa [List.erase_cons_head]
      · obtain ⟨v, next, next'⟩ := h (Ne.symm same) step first
        rw [List.erase_cons_tail (by simpa using same)]
        have mem : a ∈ bs := (List.mem_cons.mp mem).resolve_left (Ne.symm same)
        exact exec_cons.mpr ⟨v, next, ih next' rest mem⟩

/-- **Catching up.**  A run that takes no step more often than another does can be finished to where
the other ends. -/
theorem Commutes.catches_up (h : M.Commutes) {s t u : σ} {as bs : List α}
    (run : M.exec s as = some t) (other : M.exec s bs = some u) (behind : as.Subperm bs) :
    ∃ cs, (as ++ cs).Perm bs ∧ M.exec t cs = some u := by
  induction as generalizing s bs with
  | nil =>
      obtain rfl := Option.some.inj run
      exact ⟨bs, List.Perm.refl bs, other⟩
  | cons a as ih =>
      obtain ⟨s', first, rest⟩ := exec_cons.mp run
      have mem : a ∈ bs := behind.subset List.mem_cons_self
      have behind : as.Subperm (bs.erase a) := by
        have := behind.erase a
        rwa [List.erase_cons_head] at this
      obtain ⟨cs, perm, done⟩ := ih rest (h.exec_erase first other mem) behind
      refine ⟨cs, ?_, done⟩
      exact (perm.cons a).trans (List.perm_cons_erase mem).symm

end Machine

/-! ### Networks -/

/-- The call that a party makes next. -/
inductive Call (ρ μ σ : Type*) where
  /-- It sends a message, and goes on from `next`. -/
  | send (target : ρ) (m : μ) (next : σ)
  /-- It waits for a message, and goes on from what `take` makes of it. -/
  | receive (source : ρ) (take : μ → σ)
  /-- It has come to its end. -/
  | ended

/-- The programs of the parties. -/
structure Network (ρ μ : Type*) (σ : ρ → Type*) where
  call : ∀ p, σ p → Call ρ μ (σ p)

namespace Network

variable {ρ μ : Type*} {σ : ρ → Type*}

/-- Where the parties are, the messages from one to another, oldest first, and what each party has
done. -/
structure State (ρ μ : Type*) (σ : ρ → Type*) where
  locals : ∀ p, σ p
  channels : ρ × ρ → List μ
  traces : ρ → List (LocalEvent ρ μ)

@[ext] theorem State.ext_fields {s t : State ρ μ σ} (locals : s.locals = t.locals)
    (channels : s.channels = t.channels) (traces : s.traces = t.traces) : s = t := by
  cases s
  cases t
  simp only at locals channels traces
  subst locals channels traces
  rfl

/-- Nothing is on its way. -/
def State.quiet (locals : ∀ p, σ p) (traces : ρ → List (LocalEvent ρ μ)) : State ρ μ σ :=
  ⟨locals, fun _ => [], traces⟩

variable [DecidableEq ρ]

/-- The party has sent the message. -/
def State.sent (s : State ρ μ σ) (p target : ρ) (m : μ) (next : σ p) : State ρ μ σ where
  locals := Function.update s.locals p next
  channels := Function.update s.channels (p, target) (s.channels (p, target) ++ [m])
  traces := Function.update s.traces p (s.traces p ++ [.sent target m])

/-- The party has taken the message, the oldest from its source. -/
def State.took (s : State ρ μ σ) (p source : ρ) (m : μ) (next : σ p) : State ρ μ σ where
  locals := Function.update s.locals p next
  channels := Function.update s.channels (source, p) (s.channels (source, p)).tail
  traces := Function.update s.traces p (s.traces p ++ [.received source m])

variable (N : Network ρ μ σ)

/-- The party's next call returns, unless it waits for a message or has ended. -/
def next (s : State ρ μ σ) (p : ρ) : Option (State ρ μ σ) :=
  match N.call p (s.locals p) with
  | .send target m next => some (s.sent p target m next)
  | .receive source take => (s.channels (source, p)).head?.map fun m => s.took p source m (take m)
  | .ended => none

/-- The parties, in any order of their calls. -/
def machine : Machine (State ρ μ σ) ρ := ⟨N.next⟩

variable {N} {s t : State ρ μ σ} {p q : ρ}

theorem next_send {target : ρ} {m : μ} {next : σ p}
    (call : N.call p (s.locals p) = .send target m next) :
    N.next s p = some (s.sent p target m next) := by
  rw [Network.next, call]

theorem next_receive {source : ρ} {take : μ → σ p} {m : μ}
    (call : N.call p (s.locals p) = .receive source take)
    (front : (s.channels (source, p)).head? = some m) :
    N.next s p = some (s.took p source m (take m)) := by
  simp only [Network.next, call, front, Option.map_some]

/-- What a call of a party's can do to the network. -/
inductive Step (N : Network ρ μ σ) (s : State ρ μ σ) (p : ρ) : State ρ μ σ → Prop
  | sent (target : ρ) (m : μ) (next : σ p) (call : N.call p (s.locals p) = .send target m next) :
      Step N s p (s.sent p target m next)
  | took (source : ρ) (take : μ → σ p) (m : μ)
      (call : N.call p (s.locals p) = .receive source take)
      (front : (s.channels (source, p)).head? = some m) :
      Step N s p (s.took p source m (take m))

/-- **The step lemma.** -/
theorem step_of_next (h : N.next s p = some t) : N.Step s p t := by
  rw [Network.next] at h
  split at h
  · rename_i target m next call
    cases h
    exact .sent target m next call
  · rename_i source take call
    obtain ⟨m, front, rfl⟩ := Option.map_eq_some_iff.mp h
    exact .took source take m call front
  · cases h

theorem not_ended_of_next (h : N.next s p = some t) : N.call p (s.locals p) ≠ .ended := by
  intro ended
  cases step_of_next h with
  | sent target m next call => cases call.symm.trans ended
  | took source take m call front => cases call.symm.trans ended

section
variable (target source : ρ) (m : μ) (next : σ p)

@[simp] theorem sent_locals_of_ne (ne : q ≠ p) :
    (s.sent p target m next).locals q = s.locals q := Function.update_of_ne ne _ _

@[simp] theorem took_locals_of_ne (ne : q ≠ p) :
    (s.took p source m next).locals q = s.locals q := Function.update_of_ne ne _ _

@[simp] theorem sent_traces_of_ne (ne : q ≠ p) :
    (s.sent p target m next).traces q = s.traces q := Function.update_of_ne ne _ _

@[simp] theorem took_traces_of_ne (ne : q ≠ p) :
    (s.took p source m next).traces q = s.traces q := Function.update_of_ne ne _ _

@[simp] theorem sent_channels_of_ne {k : ρ × ρ} (ne : k ≠ (p, target)) :
    (s.sent p target m next).channels k = s.channels k := Function.update_of_ne ne _ _

@[simp] theorem took_channels_of_ne {k : ρ × ρ} (ne : k ≠ (source, p)) :
    (s.took p source m next).channels k = s.channels k := Function.update_of_ne ne _ _

end

/-- What another party is at is left alone. -/
theorem next_locals_of_ne (h : N.next s p = some t) (ne : q ≠ p) : t.locals q = s.locals q := by
  cases step_of_next h with
  | sent target m next call => exact sent_locals_of_ne target m next ne
  | took source take m call front => exact took_locals_of_ne source m (take m) ne

/-- What a party has done is not taken back. -/
theorem next_trace (h : N.next s p = some t) (q : ρ) : s.traces q <+: t.traces q := by
  by_cases same : q = p
  · subst same
    cases step_of_next h with
    | sent target m next call =>
        simp only [State.sent, Function.update_self]
        exact List.prefix_append _ _
    | took source take m call front =>
        simp only [State.took, Function.update_self]
        exact List.prefix_append _ _
  · cases step_of_next h with
    | sent target m next call => rw [sent_traces_of_ne target m next same]
    | took source take m call front => rw [took_traces_of_ne source m (take m) same]

/-! ### The steps of two parties -/

section
variable {target target' source source' : ρ} {m m' : μ} {x : σ p} {y : σ q}

/-- Each party sends on a queue of its own. -/
theorem sent_sent (ne : p ≠ q) : (s.sent p target m x).sent q target' m' y =
    (s.sent q target' m' y).sent p target m x := by
  have apart : (q, target') ≠ (p, target) := fun same => ne (Prod.ext_iff.mp same).1.symm
  refine State.ext_fields (Function.update_comm ne _ _ _) ?_ ?_
  · simp only [State.sent, Function.update_of_ne apart, Function.update_of_ne apart.symm]
    exact Function.update_comm apart.symm _ _ _
  · simp only [State.sent, Function.update_of_ne ne, Function.update_of_ne ne.symm]
    exact Function.update_comm ne _ _ _

/-- Each party takes from a queue of its own. -/
theorem took_took (ne : p ≠ q) : (s.took p source m x).took q source' m' y =
    (s.took q source' m' y).took p source m x := by
  have apart : (source', q) ≠ (source, p) := fun same => ne (Prod.ext_iff.mp same).2.symm
  refine State.ext_fields (Function.update_comm ne _ _ _) ?_ ?_
  · simp only [State.took, Function.update_of_ne apart, Function.update_of_ne apart.symm]
    exact Function.update_comm apart.symm _ _ _
  · simp only [State.took, Function.update_of_ne ne, Function.update_of_ne ne.symm]
    exact Function.update_comm ne _ _ _

/-- A party takes from the front of a queue, whatever another adds at its back. -/
theorem sent_took (ne : p ≠ q) (front : (s.channels (source, q)).head? = some m') :
    (s.sent p target m x).took q source m' y = (s.took q source m' y).sent p target m x := by
  refine State.ext_fields (Function.update_comm ne _ _ _) ?_ ?_
  · by_cases same : (source, q) = (p, target)
    · have some : s.channels (p, target) ≠ [] := by
        intro empty
        rw [same, empty] at front
        cases front
      simp only [State.sent, State.took, same, Function.update_self, Function.update_idem,
        List.tail_append_of_ne_nil some]
    · simp only [State.sent, State.took, Function.update_of_ne same,
        Function.update_of_ne (Ne.symm same)]
      exact Function.update_comm (Ne.symm same) _ _ _
  · simp only [State.sent, State.took, Function.update_of_ne ne, Function.update_of_ne ne.symm]
    exact Function.update_comm ne _ _ _

/-- What is at the front of a queue stays there while others send, -/
theorem head?_sent (front : (s.channels (source, q)).head? = some m') :
    ((s.sent p target m x).channels (source, q)).head? = some m' := by
  by_cases same : (source, q) = (p, target)
  · rw [same] at front ⊢
    simp only [State.sent, Function.update_self, List.head?_append, front, Option.some_or]
  · rwa [sent_channels_of_ne target m x same]

/-- and while others take. -/
theorem head?_took (ne : p ≠ q) (front : (s.channels (source', q)).head? = some m') :
    ((s.took p source m x).channels (source', q)).head? = some m' := by
  have apart : (source', q) ≠ (source, p) := fun same => ne (Prod.ext_iff.mp same).2.symm
  rwa [took_channels_of_ne source m x apart]

end

/-- **Commuting calls.**  No party takes what another waits for: every queue has one reader, which
takes from its front, and one writer, which adds at its back. -/
theorem commutes (N : Network ρ μ σ) : N.machine.Commutes := by
  intro s t u p q ne first second
  cases step_of_next first with
  | sent target m x call =>
      cases step_of_next second with
      | sent target' m' y call' =>
          have call' : N.call q ((s.sent p target m x).locals q) = .send target' m' y := by
            rwa [sent_locals_of_ne target m x ne.symm]
          have call : N.call p ((s.sent q target' m' y).locals p) = .send target m x := by
            rwa [sent_locals_of_ne target' m' y ne]
          exact ⟨_, next_send call', (next_send call).trans (congrArg some (sent_sent ne).symm)⟩
      | took source take m' call' front =>
          have call' : N.call q ((s.sent p target m x).locals q) = .receive source take := by
            rwa [sent_locals_of_ne target m x ne.symm]
          have call : N.call p ((s.took q source m' (take m')).locals p) = .send target m x := by
            rwa [took_locals_of_ne source m' (take m') ne]
          exact ⟨_, next_receive call' (head?_sent front),
            (next_send call).trans (congrArg some (sent_took ne front).symm)⟩
  | took source take m call front =>
      cases step_of_next second with
      | sent target m' y call' =>
          have call' : N.call q ((s.took p source m (take m)).locals q) = .send target m' y := by
            rwa [took_locals_of_ne source m (take m) ne.symm]
          have call : N.call p ((s.sent q target m' y).locals p) = .receive source take := by
            rwa [sent_locals_of_ne target m' y ne]
          exact ⟨_, next_send call', (next_receive call (head?_sent front)).trans
            (congrArg some (sent_took ne.symm front))⟩
      | took source' take' m' call' front' =>
          have call' : N.call q ((s.took p source m (take m)).locals q) =
              .receive source' take' := by
            rwa [took_locals_of_ne source m (take m) ne.symm]
          have call : N.call p ((s.took q source' m' (take' m')).locals p) =
              .receive source take := by
            rwa [took_locals_of_ne source' m' (take' m') ne]
          exact ⟨_, next_receive call' (head?_took ne front'),
            (next_receive call (head?_took ne.symm front)).trans
              (congrArg some (took_took ne).symm)⟩

/-! ### Talking in turn -/

/-- The parties exchange these messages one at a time: each is taken as soon as it is sent. -/
inductive Talks (N : Network ρ μ σ) :
    (∀ p, σ p) → List (Message ρ μ) → (∀ p, σ p) → Prop
  | nil (locals : ∀ p, σ p) : Talks N locals [] locals
  | cons {locals later : ∀ p, σ p} {p q : ρ} {m : μ} {next : σ p} {take : μ → σ q}
      {w : List (Message ρ μ)} (ne : p ≠ q) (sends : N.call p (locals p) = .send q m next)
      (takes : N.call q (locals q) = .receive p take)
      (rest : Talks N (Function.update (Function.update locals p next) q (take m)) w later) :
      Talks N locals (⟨p, q, m⟩ :: w) later

/-- The calls of a talk, in their order. -/
def calls (w : List (Message ρ μ)) : List ρ := w.flatMap fun m => [m.source, m.target]

variable {locals later : ∀ p, σ p} {w : List (Message ρ μ)}

omit [DecidableEq ρ] in
theorem calls_append (v w : List (Message ρ μ)) : calls (v ++ w) = calls v ++ calls w :=
  List.flatMap_append

theorem Talks.append {middle : ∀ p, σ p} {v : List (Message ρ μ)}
    (first : N.Talks locals v middle) (second : N.Talks middle w later) :
    N.Talks locals (v ++ w) later := by
  induction first with
  | nil => exact second
  | cons ne sends takes _ ih => exact .cons ne sends takes (ih second)

/-- One message, sent and taken. -/
theorem Talks.one {m : μ} {next : σ p} {take : μ → σ q} (ne : p ≠ q)
    (sends : N.call p (locals p) = .send q m next) (takes : N.call q (locals q) = .receive p take)
    (settles : Function.update (Function.update locals p next) q (take m) = later) :
    N.Talks locals [⟨p, q, m⟩] later :=
  .cons ne sends takes (settles ▸ .nil _)

/-- A message that is sent and taken leaves the queues empty. -/
theorem quiet_exchange {traces : ρ → List (LocalEvent ρ μ)} {m : μ} {x : σ p} {y : σ q}
    (ne : p ≠ q) :
    ((State.quiet locals traces).sent p q m x).took q p m y =
      .quiet (Function.update (Function.update locals p x) q y)
        fun r => traces r ++ [(⟨p, q, m⟩ : Message ρ μ)].filterMap (Message.seenBy r) := by
  refine State.ext_fields rfl ?_ ?_
  · funext k
    by_cases same : k = (p, q)
    · rw [same]
      simp [State.took, State.sent, State.quiet]
    · simp [State.took, State.sent, State.quiet]
  · funext r
    by_cases here : r = q
    · subst here
      simp [State.took, State.sent, State.quiet, Message.seenBy, Function.update_of_ne ne.symm, ne]
    · by_cases there : r = p
      · subst there
        simp [State.took, State.sent, State.quiet, Message.seenBy, Function.update_of_ne here]
      · simp [State.took, State.sent, State.quiet, Message.seenBy, Function.update_of_ne here,
          Function.update_of_ne there, Ne.symm here, Ne.symm there]

/-- **A talk is a run.** -/
theorem Talks.exec (talks : N.Talks locals w later) (traces : ρ → List (LocalEvent ρ μ)) :
    N.machine.exec (.quiet locals traces) (calls w) =
      some (.quiet later fun p => traces p ++ w.filterMap (Message.seenBy p)) := by
  induction talks generalizing traces with
  | nil locals => simp [calls]
  | @cons locals later p q m next take w ne sends takes rest ih =>
      have heard : N.call q (((State.quiet locals traces).sent p q m next).locals q) =
          .receive p take := by
        rwa [sent_locals_of_ne q m next ne.symm]
      have front : (((State.quiet locals traces).sent p q m next).channels (p, q)).head? =
          some m := by
        simp [State.sent, State.quiet]
      refine Machine.exec_cons.mpr ⟨_, next_send sends, Machine.exec_cons.mpr
        ⟨_, next_receive heard front, ?_⟩⟩
      rw [quiet_exchange ne]
      refine (ih _).trans (congrArg (fun tr => some (State.quiet later tr)) (funext fun r => ?_))
      rw [List.append_assoc, ← List.filterMap_append]
      rfl

/-! ### Runs behind a talk -/

variable {as : List ρ}

/-- A run whose steps are no more than the calls each party has in `bs` is behind `bs`. -/
theorem behind_of_length_le {bs : List ρ} (h : ∀ p, as.length ≤ bs.count p) : as.Subperm bs :=
  List.subperm_iff_count.mpr fun p => List.count_le_length.trans (h p)

/-- **Every run behind a talk can be finished to its end.** -/
theorem Talks.catches_up (talks : N.Talks locals w later)
    (run : N.machine.exec (.quiet locals fun _ => []) as = some t)
    (behind : as.Subperm (calls w)) :
    ∃ cs, (as ++ cs).Perm (calls w) ∧
      N.machine.exec t cs = some (.quiet later fun p => w.filterMap (Message.seenBy p)) := by
  have whole := talks.exec fun _ => []
  simp only [List.nil_append] at whole
  exact N.commutes.catches_up run whole behind

theorem exec_trace {as : List ρ} (run : N.machine.exec s as = some t) (p : ρ) :
    s.traces p <+: t.traces p :=
  N.machine.exec_keeps (I := fun u => s.traces p <+: u.traces p)
    (fun _ _ _ before step => before.trans (next_trace step p)) (List.prefix_refl _) run

/-- What a party has done behind a talk is what it does in the talk, up to there. -/
theorem Talks.traces_behind (talks : N.Talks locals w later)
    (run : N.machine.exec (.quiet locals fun _ => []) as = some t)
    (behind : as.Subperm (calls w)) (p : ρ) :
    t.traces p <+: w.filterMap (Message.seenBy p) := by
  obtain ⟨cs, -, rest⟩ := talks.catches_up run behind
  exact exec_trace rest p

/-- A party that still has calls to make has not come to its end. -/
theorem not_ended_of_exec (run : N.machine.exec s as = some t) (mem : p ∈ as) :
    N.call p (s.locals p) ≠ .ended := by
  induction as generalizing s with
  | nil => cases mem
  | cons q as ih =>
      obtain ⟨u, first, rest⟩ := Machine.exec_cons.mp run
      by_cases same : p = q
      · subst same
        exact not_ended_of_next first
      · have later := ih rest ((List.mem_cons.mp mem).resolve_left same)
        rwa [next_locals_of_ne first same] at later

theorem Talks.not_ended (talks : N.Talks locals w later)
    (run : N.machine.exec (.quiet locals fun _ => []) as = some t)
    (behind : as.Subperm (calls w)) (more : as.count p < (calls w).count p) :
    N.call p (t.locals p) ≠ .ended := by
  obtain ⟨cs, perm, rest⟩ := talks.catches_up run behind
  refine not_ended_of_exec rest (List.count_pos_iff.mp ?_)
  have := perm.count_eq p
  rw [List.count_append] at this
  omega

/-- Whatever a call of the party's brings, it only adds to what is observed. -/
structure Grows {ε : Type*} (N : Network ρ μ σ) (p : ρ) (obs : σ p → List ε) : Prop where
  sends : ∀ {x target m next}, N.call p x = .send target m next → obs x <+: obs next
  takes : ∀ {x source take} m, N.call p x = .receive source take → obs x <+: obs (take m)

section
variable {ε : Type*} {obs : σ p → List ε}

theorem Grows.next (grows : N.Grows p obs) (h : N.next s q = some t) :
    obs (s.locals p) <+: obs (t.locals p) := by
  by_cases same : p = q
  · subst same
    cases step_of_next h with
    | sent target m next call =>
        simpa only [State.sent, Function.update_self] using grows.sends call
    | took source take m call front =>
        simpa only [State.took, Function.update_self] using grows.takes m call
  · rw [next_locals_of_ne h same]

theorem Grows.exec (grows : N.Grows p obs) (run : N.machine.exec s as = some t) :
    obs (s.locals p) <+: obs (t.locals p) :=
  N.machine.exec_keeps (I := fun u => obs (s.locals p) <+: obs (u.locals p))
    (fun _ _ _ before step => before.trans (grows.next step)) (List.prefix_refl _) run

/-- What is observed of a party behind a talk is what the talk ends with, up to there. -/
theorem Talks.observed_behind (grows : N.Grows p obs) (talks : N.Talks locals w later)
    (run : N.machine.exec (.quiet locals fun _ => []) as = some t)
    (behind : as.Subperm (calls w)) : obs (t.locals p) <+: obs (later p) := by
  obtain ⟨cs, -, rest⟩ := talks.catches_up run behind
  exact grows.exec rest

end

end Network

end HibanaPico.Support
