import Mathlib.Computability.MyhillNerode
import Mathlib.Computability.RegularExpressions

/-!
# Support — Choreography

Choreographies of two-party messages as regular expressions, their projections on a role, and what
is left of a language behind a word.

* `send`, `seq`, `route`, `roll`, `project`: choreographies, and what a role sees of one.
* `mem_matches'_project`: the words of the projection are what the role sees of the words.
* `Conforms`: a trace goes on to a word.
* `leftQuotient_followedBy`, `leftQuotient_kstar`, …: what is left behind one event.
* `par`, `viewOf`: choreographies with parallel branches, by their words, and what a role sees of
  these.
-/

namespace HibanaPico.Support
open Computability

variable {α β ρ ℓ : Type*}

/-! ### Expressions with some letters erased -/

/-- The expression with every letter put through `f`, or left out. -/
def erase (f : α → Option β) : RegularExpression α → RegularExpression β
  | .zero => 0
  | .epsilon => 1
  | .char a => ((f a).map .char).getD 1
  | .plus P Q => erase f P + erase f Q
  | .comp P Q => erase f P * erase f Q
  | .star P => .star (erase f P)

theorem mem_matches'_erase {f : α → Option β} (P : RegularExpression α) {u : List β} :
    u ∈ (erase f P).matches' ↔ ∃ w ∈ P.matches', w.filterMap f = u := by
  induction P generalizing u with
  | zero => exact ⟨fun h => h.elim, fun ⟨_, h, _⟩ => h.elim⟩
  | epsilon =>
      constructor
      · intro h
        exact ⟨[], rfl, ((Language.mem_one u).mp h).symm⟩
      · rintro ⟨w, hw, rfl⟩
        rw [(Language.mem_one w).mp hw]
        rfl
  | char a =>
      have word : (∃ w ∈ (RegularExpression.char a).matches', w.filterMap f = u) ↔
          [a].filterMap f = u := by
        constructor
        · rintro ⟨w, hw, rfl⟩
          rw [Set.mem_singleton_iff.mp hw]
        · exact fun h => ⟨[a], rfl, h⟩
      rw [word, erase]
      cases h : f a with
      | none =>
          rw [List.filterMap_cons_none h]
          exact (Language.mem_one u).trans eq_comm
      | some b =>
          rw [List.filterMap_cons_some h]
          exact Set.mem_singleton_iff.trans eq_comm
  | plus P Q ihP ihQ =>
      refine (or_congr ihP ihQ).trans ⟨?_, ?_⟩
      · rintro (⟨w, hw, h⟩ | ⟨w, hw, h⟩)
        · exact ⟨w, .inl hw, h⟩
        · exact ⟨w, .inr hw, h⟩
      · rintro ⟨w, hw | hw, h⟩
        · exact .inl ⟨w, hw, h⟩
        · exact .inr ⟨w, hw, h⟩
  | comp P Q ihP ihQ =>
      refine Language.mem_mul.trans ⟨?_, ?_⟩
      · rintro ⟨x, hx, y, hy, rfl⟩
        obtain ⟨v, hv, rfl⟩ := ihP.mp hx
        obtain ⟨w, hw, rfl⟩ := ihQ.mp hy
        exact ⟨v ++ w, Language.append_mem_mul hv hw, List.filterMap_append⟩
      · rintro ⟨w, hw, rfl⟩
        obtain ⟨x, hx, y, hy, rfl⟩ := Language.mem_mul.mp hw
        exact ⟨_, ihP.mpr ⟨x, hx, rfl⟩, _, ihQ.mpr ⟨y, hy, rfl⟩, List.filterMap_append.symm⟩
  | star P ih =>
      refine Language.mem_kstar.trans ⟨?_, ?_⟩
      · rintro ⟨us, rfl, hus⟩
        induction us with
        | nil => exact ⟨[], Language.nil_mem_kstar _, rfl⟩
        | cons x us more =>
            obtain ⟨v, hv, rfl⟩ := ih.mp (hus x List.mem_cons_self)
            obtain ⟨w, hw, h⟩ := more fun y hy => hus y (List.mem_cons_of_mem _ hy)
            obtain ⟨ws, rfl, hws⟩ := Language.mem_kstar.mp hw
            refine ⟨v ++ ws.flatten, Language.mem_kstar.mpr ⟨v :: ws, rfl, ?_⟩, ?_⟩
            · exact List.forall_mem_cons.mpr ⟨hv, hws⟩
            · rw [List.filterMap_append, h]
              rfl
      · rintro ⟨w, hw, rfl⟩
        obtain ⟨ws, rfl, hws⟩ := Language.mem_kstar.mp hw
        refine ⟨ws.map (List.filterMap f), List.filterMap_flatten, fun y hy => ?_⟩
        obtain ⟨x, hx, rfl⟩ := List.mem_map.mp hy
        exact ih.mpr ⟨x, hws x hx, rfl⟩

/-! ### Choreographies -/

/-- A message from one role to another. -/
structure Message (ρ ℓ : Type*) where
  source : ρ
  target : ρ
  label : ℓ
  deriving DecidableEq, Repr

/-- What a role does with a message. -/
inductive LocalEvent (ρ ℓ : Type*) where
  | sent (target : ρ) (label : ℓ)
  | received (source : ρ) (label : ℓ)
  deriving DecidableEq, Repr

/-- What `role` does with the message, if it has to do with it. -/
def Message.seenBy [DecidableEq ρ] (role : ρ) (m : Message ρ ℓ) : Option (LocalEvent ρ ℓ) :=
  if m.source = role then some (.sent m.target m.label)
  else if m.target = role then some (.received m.source m.label)
  else none

abbrev Choreography (ρ ℓ : Type*) := RegularExpression (Message ρ ℓ)

namespace Choreography

/-- `g::send`. -/
def send (source target : ρ) (label : ℓ) : Choreography ρ ℓ := .char ⟨source, target, label⟩

/-- `g::seq`. -/
def seq (P Q : Choreography ρ ℓ) : Choreography ρ ℓ := P * Q

/-- `g::route`. -/
def route (P Q : Choreography ρ ℓ) : Choreography ρ ℓ := P + Q

/-- `roll`. -/
def roll (P : Choreography ρ ℓ) : Choreography ρ ℓ := .star P

variable [DecidableEq ρ]

/-- The projection on a role. -/
def project (C : Choreography ρ ℓ) (role : ρ) : RegularExpression (LocalEvent ρ ℓ) :=
  erase (Message.seenBy role) C

theorem mem_matches'_project (C : Choreography ρ ℓ) (role : ρ) {u : List (LocalEvent ρ ℓ)} :
    u ∈ (C.project role).matches' ↔ ∃ w ∈ C.matches', w.filterMap (Message.seenBy role) = u :=
  mem_matches'_erase C

variable (role : ρ)

theorem matches'_project_send (source target : ρ) (label : ℓ) :
    ((send source target label).project role).matches' =
      if source = role then {[.sent target label]}
      else if target = role then {[.received source label]} else 1 := by
  rw [project, send, erase, Message.seenBy]
  split
  · rfl
  · split
    · rfl
    · rfl

theorem matches'_project_seq (P Q : Choreography ρ ℓ) :
    ((seq P Q).project role).matches' = (P.project role).matches' * (Q.project role).matches' :=
  rfl

theorem matches'_project_route (P Q : Choreography ρ ℓ) :
    ((route P Q).project role).matches' = (P.project role).matches' + (Q.project role).matches' :=
  rfl

theorem matches'_project_roll (P : Choreography ρ ℓ) :
    ((roll P).project role).matches' = ((P.project role).matches')∗ :=
  rfl

end Choreography

/-! ### Traces -/

variable {L K : Language α} {a b : α}

/-- The trace is a prefix of a word. -/
def Conforms (L : Language α) (trace : List α) : Prop := ∃ w ∈ L, trace <+: w

/-- What has gone astray does not come back. -/
theorem Conforms.of_prefix {u v : List α} (h : Conforms L v) (huv : u <+: v) : Conforms L u := by
  obtain ⟨w, hw, hprefix⟩ := h
  exact ⟨w, hw, huv.trans hprefix⟩

theorem conforms_iff {u : List α} : Conforms L u ↔ ∃ v, v ∈ L.leftQuotient u := by
  constructor
  · rintro ⟨w, hw, v, rfl⟩
    exact ⟨v, hw⟩
  · rintro ⟨v, hv⟩
    exact ⟨u ++ v, hv, List.prefix_append u v⟩

theorem leftQuotient_snoc (L : Language α) (u : List α) (a : α) :
    L.leftQuotient (u ++ [a]) = (L.leftQuotient u).leftQuotient [a] :=
  L.leftQuotient_append u [a]

/-- The words that start with `a` and go on in `K`. -/
def followedBy (a : α) (K : Language α) : Language α := {[a]} * K

theorem mem_followedBy (a : α) (K : Language α) {w : List α} :
    w ∈ followedBy a K ↔ ∃ v ∈ K, w = a :: v := by
  refine Language.mem_mul.trans ⟨?_, ?_⟩
  · rintro ⟨x, hx, v, hv, rfl⟩
    rw [Set.mem_singleton_iff.mp hx]
    exact ⟨v, hv, rfl⟩
  · rintro ⟨v, hv, rfl⟩
    exact ⟨[a], rfl, v, hv, rfl⟩

theorem followedBy_mul (a : α) (K L : Language α) :
    followedBy a K * L = followedBy a (K * L) :=
  mul_assoc _ _ _

theorem followedBy_nonempty {a : α} (h : ∃ v, v ∈ K) : ∃ v, v ∈ followedBy a K := by
  obtain ⟨v, hv⟩ := h
  exact ⟨a :: v, (mem_followedBy a K).mpr ⟨v, hv, rfl⟩⟩

/-- What is left behind an event, of words that start with one. -/
theorem leftQuotient_followedBy [DecidableEq α] (a b : α) (K : Language α) :
    (followedBy a K).leftQuotient [b] = if a = b then K else 0 := by
  ext v
  rw [Language.mem_leftQuotient, mem_followedBy]
  by_cases h : a = b
  · rw [if_pos h, h]
    constructor
    · rintro ⟨w, hw, hv⟩
      rw [show v = w from List.tail_eq_of_cons_eq hv]
      exact hw
    · exact fun hv => ⟨v, hv, rfl⟩
  · rw [if_neg h]
    refine ⟨?_, fun hv => hv.elim⟩
    rintro ⟨w, -, hw⟩
    exact absurd (List.head_eq_of_cons_eq hw).symm h

theorem leftQuotient_add (L K : Language α) (u : List α) :
    (L + K).leftQuotient u = L.leftQuotient u + K.leftQuotient u := rfl

theorem leftQuotient_one (a : α) : (1 : Language α).leftQuotient [a] = 0 := by
  ext v
  rw [Language.mem_leftQuotient, Language.mem_one]
  exact ⟨fun h => absurd h (List.cons_ne_nil a v), fun hv => hv.elim⟩

/-- Behind its first event, a turn of the roll is on its way. -/
theorem leftQuotient_kstar [DecidableEq α] (a : α) (K : Language α) :
    ((followedBy a K)∗).leftQuotient [a] = K * (followedBy a K)∗ := by
  have unrolled := Language.one_add_self_mul_kstar_eq_kstar (followedBy a K)
  calc ((followedBy a K)∗).leftQuotient [a]
      = (1 + followedBy a (K * (followedBy a K)∗)).leftQuotient [a] := by
        rw [← followedBy_mul, unrolled]
    _ = K * (followedBy a K)∗ := by
        rw [leftQuotient_add, leftQuotient_one, zero_add, leftQuotient_followedBy, if_pos rfl]

/-! ### Parallel branches -/

/-- The third word has the letters of the other two, those of each in their order. -/
inductive Interleaves : List α → List α → List α → Prop
  | nil : Interleaves [] [] []
  | left (a : α) {u v w : List α} (rest : Interleaves u v w) : Interleaves (a :: u) v (a :: w)
  | right (a : α) {u v w : List α} (rest : Interleaves u v w) : Interleaves u (a :: v) (a :: w)

/-- `g::par`, by the words of its branches. -/
def par (L K : Language α) : Language α := {w | ∃ u ∈ L, ∃ v ∈ K, Interleaves u v w}

theorem mem_par {u v w : List α} (left : u ∈ L) (right : v ∈ K) (h : Interleaves u v w) :
    w ∈ par L K := ⟨u, left, v, right, h⟩

/-- What a role sees of the words of a choreography. -/
def viewOf [DecidableEq ρ] (L : Language (Message ρ ℓ)) (role : ρ) :
    Language (LocalEvent ρ ℓ) :=
  {u | ∃ w ∈ L, w.filterMap (Message.seenBy role) = u}

/-! ### Messages by their labels -/

section
variable {μ : Type*} (f : μ → ℓ)

/-- The message with `f` of what it carries. -/
def Message.map (m : Message ρ μ) : Message ρ ℓ := ⟨m.source, m.target, f m.label⟩

def LocalEvent.map : LocalEvent ρ μ → LocalEvent ρ ℓ
  | .sent target m => .sent target (f m)
  | .received source m => .received source (f m)

theorem seenBy_map [DecidableEq ρ] (role : ρ) (m : Message ρ μ) :
    (m.map f).seenBy role = (m.seenBy role).map (LocalEvent.map f) := by
  by_cases sends : m.source = role
  · simp [Message.seenBy, Message.map, LocalEvent.map, sends]
  · by_cases receives : m.target = role
    · simp [Message.seenBy, Message.map, LocalEvent.map, sends, receives]
    · simp [Message.seenBy, Message.map, sends, receives]

/-- What a role sees of messages, by their labels, is what it sees of the labels. -/
theorem map_filterMap_seenBy [DecidableEq ρ] (role : ρ) (w : List (Message ρ μ)) :
    (w.filterMap (Message.seenBy role)).map (LocalEvent.map f) =
      (w.map (Message.map f)).filterMap (Message.seenBy role) := by
  rw [List.map_filterMap, List.filterMap_map]
  exact List.filterMap_congr fun m _ => (seenBy_map f role m).symm

/-- What a role has done so far conforms, if a word of the choreography goes on from it. -/
theorem conforms_viewOf [DecidableEq ρ] {L : Language (Message ρ ℓ)} {role : ρ}
    {w : List (Message ρ μ)} {trace : List (LocalEvent ρ μ)}
    (word : w.map (Message.map f) ∈ L) (behind : trace <+: w.filterMap (Message.seenBy role)) :
    Conforms (viewOf L role) (trace.map (LocalEvent.map f)) := by
  refine ⟨_, ⟨_, word, rfl⟩, ?_⟩
  rw [← map_filterMap_seenBy]
  exact behind.map (LocalEvent.map f)

end

end HibanaPico.Support
