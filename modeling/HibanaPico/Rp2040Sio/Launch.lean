import HibanaPico.Rp2040Sio.Fifo

/-!
# RP2040 SIO — Launch

`launch_core1`, which hands the other core its vector table, stack and entry word by word and has
each word echoed, starting over after a word that is not.  The other core makes calls of the FIFO as
well, any of the four in any order, and what it sends may be anything.

* `Launch`: where the function stands; its calls, and what it does with their answers.
* `Launch.Inv`: the exchanges since the last mismatch are the beginning of the sequence, echoed.
* `launch_exact`: what every run of the two cores has done when the function returns.
-/

namespace HibanaPico.Rp2040Sio
open HibanaPico.Support
open HibanaPico.Sio (Core)
open HibanaPico.Transport

def core1LaunchRetries : ℕ := 16

/-- Where `launch_core1` stands, by the index of the word it is at. -/
inductive LaunchAt where
  /-- In `reset_core1_to_bootrom`. -/
  | resetDrain
  | resetClear
  | drain (index : ℕ)
  | clear (index : ℕ)
  | push (index : ℕ)
  | pop (index : ℕ)
  | returned (launched : Bool)
  deriving DecidableEq, Repr

/-- The words of a launch. -/
structure LaunchWords where
  vectorTable : U32
  stackTop : U32
  entry : U32

/-- `sequence`. -/
def LaunchWords.sequence (ws : LaunchWords) : List U32 :=
  [0, 0, 1, ws.vectorTable, ws.stackTop, ws.entry]

/-- `launch_core1`, and the exchanges so far: a word pushed, and the word popped for it. -/
structure Launch where
  place : LaunchAt
  failures : ℕ
  exchanges : List (U32 × U32)
  deriving DecidableEq, Repr

namespace Launch
variable (ws : LaunchWords)

def start : Launch := { place := .resetDrain, failures := 0, exchanges := [] }

/-- The top of the loop. -/
def top (index : ℕ) : LaunchAt :=
  match ws.sequence[index]? with
  | none => .returned true
  | some word => if word = 0 then .drain index else .push index

/-- The call that comes next. -/
def call (l : Launch) : Option FifoCall :=
  match l.place with
  | .resetDrain | .drain _ | .pop _ => some .tryPop
  | .resetClear | .clear _ => some .clearErrors
  | .push index => some (.tryPush (ws.sequence.getD index 0))
  | .returned _ => none

/-- `failures.saturating_add(1)`. -/
def failed (l : Launch) : ℕ := min (l.failures + 1) 255

/-- What is done with the answer. -/
def resume (l : Launch) (answer : FifoAnswer) : Launch :=
  match l.place, answer with
  | .resetDrain, .popped none => { l with place := .resetClear }
  | .resetClear, _ => { l with place := top ws 0 }
  | .drain index, .popped none => { l with place := .clear index }
  | .clear index, _ => { l with place := .push index }
  | .push index, .pushed true => { l with place := .pop index }
  | .pop index, .popped (some word) =>
      let sent := ws.sequence.getD index 0
      let exchanges := l.exchanges ++ [(sent, word)]
      if word = sent then { l with place := top ws (index + 1), exchanges }
      else
        { place := if l.failed > core1LaunchRetries then .returned false else top ws 0
          failures := l.failed, exchanges }
  | _, _ => l

/-- The calls of core 0, as answered, are those of the function. -/
def follow (l : Launch) : List FifoEntry → Option Launch
  | [] => some l
  | e :: es => if l.call ws = some e.call then (l.resume ws e.answer).follow es else none

end Launch

/-! ### The exchanges -/

variable {ws : LaunchWords} {l l' : Launch}

/-- Exchanges whose answer was not the word sent. -/
def mismatches (exchanges : List (U32 × U32)) : ℕ := exchanges.countP fun e => e.2 ≠ e.1

/-- Words sent and echoed. -/
def echoed (words : List U32) : List (U32 × U32) := words.map fun word => (word, word)

@[simp] theorem mismatches_append (xs ys : List (U32 × U32)) :
    mismatches (xs ++ ys) = mismatches xs + mismatches ys := List.countP_append

@[simp] theorem mismatches_singleton (sent word : U32) :
    mismatches [(sent, word)] = if word ≠ sent then 1 else 0 := by
  simp [mismatches, List.countP_singleton]

@[simp] theorem length_echoed (words : List U32) : (echoed words).length = words.length :=
  List.length_map _

@[simp] theorem length_sequence (ws : LaunchWords) : ws.sequence.length = 6 := rfl

/-- The last exchanges are the first `index` words of the sequence, echoed; those before are at
most six for each failure. -/
def Launch.Echoes (ws : LaunchWords) (l : Launch) (index : ℕ) : Prop :=
  ∃ older, l.exchanges = older ++ echoed (ws.sequence.take index) ∧ older.length ≤ 6 * l.failures

/-- What holds at each place of the function. -/
def Launch.Stands (ws : LaunchWords) (l : Launch) : Prop :=
  match l.place with
  | .resetDrain | .resetClear => l.exchanges = [] ∧ l.failures = 0
  | .drain index | .clear index | .push index | .pop index =>
      index < 6 ∧ l.failures ≤ core1LaunchRetries ∧ l.Echoes ws index
  | .returned true => l.failures ≤ core1LaunchRetries ∧ l.Echoes ws 6
  | .returned false => l.failures = core1LaunchRetries + 1 ∧ l.exchanges.length ≤ 6 * l.failures

/-- What every answer keeps. -/
structure Launch.Inv (ws : LaunchWords) (l : Launch) : Prop where
  counted : mismatches l.exchanges = l.failures
  stands : l.Stands ws

theorem Launch.inv_start : Launch.start.Inv ws := ⟨rfl, rfl, rfl⟩

/-- The top of the loop, at any index. -/
theorem Launch.stands_top {index failures : ℕ} {exchanges : List (U32 × U32)} (hindex : index ≤ 6)
    (hfailures : failures ≤ core1LaunchRetries)
    (h : Launch.Echoes ws { place := .resetDrain, failures, exchanges } index) :
    Launch.Stands ws { place := top ws index, failures, exchanges } := by
  unfold top
  rcases Nat.lt_or_eq_of_le hindex with hlt | rfl
  · rw [List.getElem?_eq_getElem (show index < ws.sequence.length from hlt)]
    dsimp only
    split
    · exact ⟨hlt, hfailures, h⟩
    · exact ⟨hlt, hfailures, h⟩
  · exact ⟨hfailures, h⟩

/-- A word echoed. -/
theorem Launch.Echoes.snoc {index : ℕ} (h : l.Echoes ws index) (hindex : index < 6) :
    Launch.Echoes ws { l with
      exchanges := l.exchanges ++ [(ws.sequence.getD index 0, ws.sequence.getD index 0)] }
      (index + 1) := by
  obtain ⟨older, hexchanges, hlen⟩ := h
  refine ⟨older, ?_, hlen⟩
  have hword : ws.sequence[index]? = some (ws.sequence.getD index 0) := by
    have hlt : index < ws.sequence.length := hindex
    rw [List.getD_eq_getElem?_getD, List.getElem?_eq_getElem hlt]
    rfl
  show l.exchanges ++ _ = _
  rw [hexchanges, List.append_assoc, List.take_add_one, hword]
  simp [echoed]

/-- **One answer.** -/
theorem Launch.Inv.resume (I : l.Inv ws) (answer : FifoAnswer) : (l.resume ws answer).Inv ws := by
  obtain ⟨hcounted, hstands⟩ := I
  obtain ⟨place, failures, exchanges⟩ := l
  cases place with
  | resetDrain =>
      cases answer with
      | popped word => cases word <;> exact ⟨hcounted, hstands⟩
      | pushed | status | cleared => exact ⟨hcounted, hstands⟩
  | resetClear =>
      obtain ⟨hnone, hzero⟩ := hstands
      refine ⟨hcounted, Launch.stands_top (Nat.zero_le _) ?_ ⟨[], ?_, Nat.zero_le _⟩⟩
      · exact hzero ▸ Nat.zero_le _
      · exact hnone
  | drain index =>
      cases answer with
      | popped word => cases word <;> exact ⟨hcounted, hstands⟩
      | pushed | status | cleared => exact ⟨hcounted, hstands⟩
  | clear index => exact ⟨hcounted, hstands⟩
  | push index =>
      cases answer with
      | pushed taken => cases taken <;> exact ⟨hcounted, hstands⟩
      | popped | status | cleared => exact ⟨hcounted, hstands⟩
  | returned launched => exact ⟨hcounted, hstands⟩
  | pop index =>
      cases answer with
      | pushed | status | cleared => exact ⟨hcounted, hstands⟩
      | popped word =>
          cases word with
          | none => exact ⟨hcounted, hstands⟩
          | some word =>
              obtain ⟨hindex, hfew, hechoes⟩ := hstands
              simp only [Launch.resume]
              by_cases hword : word = ws.sequence.getD index 0
              · -- the word is echoed
                subst hword
                rw [if_pos rfl]
                refine ⟨?_, Launch.stands_top hindex hfew (hechoes.snoc hindex)⟩
                simpa using hcounted
              · rw [if_neg hword]
                have hfailed : Launch.failed ⟨.pop index, failures, exchanges⟩ = failures + 1 := by
                  have : failures ≤ core1LaunchRetries := hfew
                  show min (failures + 1) 255 = _
                  unfold core1LaunchRetries at this
                  omega
                have hmismatch : mismatches (exchanges ++ [(ws.sequence.getD index 0, word)]) =
                    failures + 1 := by
                  rw [mismatches_append, mismatches_singleton, if_pos hword]
                  exact congrArg (· + 1) hcounted
                have hlen : (exchanges ++ [(ws.sequence.getD index 0, word)]).length ≤
                    6 * (failures + 1) := by
                  obtain ⟨older, hexchanges, holder⟩ := hechoes
                  have : exchanges.length = older.length + _ :=
                    (congrArg List.length hexchanges).trans List.length_append
                  rw [length_echoed, List.length_take, length_sequence] at this
                  rw [List.length_append, List.length_singleton]
                  have : older.length ≤ 6 * failures := holder
                  omega
                rw [hfailed]
                refine ⟨hmismatch, ?_⟩
                by_cases hlast : failures + 1 > core1LaunchRetries
                · rw [if_pos hlast]
                  have : failures ≤ core1LaunchRetries := hfew
                  exact ⟨by show failures + 1 = _; omega, hlen⟩
                · rw [if_neg hlast]
                  refine Launch.stands_top (Nat.zero_le _) (Nat.le_of_not_lt hlast) ⟨_, ?_, hlen⟩
                  exact (List.append_nil _).symm

/-! ### The words -/

/-- The word that a call pushed, -/
def FifoEntry.wordIn (e : FifoEntry) : Option U32 :=
  match e.call, e.answer with
  | .tryPush word, .pushed true => some word
  | _, _ => none

/-- and the word that it popped. -/
def FifoEntry.wordOut (e : FifoEntry) : Option U32 :=
  match e.call, e.answer with
  | .tryPop, .popped word => word
  | _, _ => none

/-- The words a core pushed. -/
def wordsPushed (core : Core) (log : List FifoEntry) : List U32 :=
  log.filterMap fun e => if e.core = core then e.wordIn else none

/-- The words a core popped. -/
def wordsPopped (core : Core) (log : List FifoEntry) : List U32 :=
  log.filterMap fun e => if e.core = core then e.wordOut else none

theorem wordsPushed_append (core : Core) (log log' : List FifoEntry) :
    wordsPushed core (log ++ log') = wordsPushed core log ++ wordsPushed core log' :=
  List.filterMap_append

theorem wordsPopped_append (core : Core) (log log' : List FifoEntry) :
    wordsPopped core (log ++ log') = wordsPopped core log ++ wordsPopped core log' :=
  List.filterMap_append

theorem wordsPushed_one (core : Core) (e : FifoEntry) :
    wordsPushed core [e] = if e.core = core then e.wordIn.toList else [] := by
  unfold wordsPushed
  split
  · rename_i h
    cases hword : e.wordIn <;> simp [h, hword]
  · rename_i h
    simp [h]

theorem wordsPopped_one (core : Core) (e : FifoEntry) :
    wordsPopped core [e] = if e.core = core then e.wordOut.toList else [] := by
  unfold wordsPopped
  split
  · rename_i h
    cases hword : e.wordOut <;> simp [h, hword]
  · rename_i h
    simp [h]

/-- One call on the lists. -/
theorem atomic_words (q : Core → List U32) (c core : Core) (call : FifoCall) :
    q core ++ wordsPushed core [⟨c, call, (call.atomic q c).2⟩] =
      wordsPopped core.peer [⟨c, call, (call.atomic q c).2⟩] ++ (call.atomic q c).1 core := by
  rw [wordsPushed_one, wordsPopped_one]
  cases call with
  | tryPush word =>
      have hout : ∀ answer, FifoEntry.wordOut ⟨c, .tryPush word, answer⟩ = none := fun _ => rfl
      simp only [hout, Option.toList_none, ite_self, List.nil_append]
      by_cases hlt : (q c).length < rp2040SioFifoDepth
      · rw [FifoCall.atomic, if_pos hlt]
        dsimp only
        by_cases hc : c = core
        · subst hc
          rw [if_pos rfl, Function.update_self]
          rfl
        · rw [if_neg hc, Function.update_of_ne (Ne.symm hc), List.append_nil]
      · rw [FifoCall.atomic, if_neg hlt]
        by_cases hc : c = core
        · rw [if_pos hc]
          exact List.append_nil _
        · rw [if_neg hc, List.append_nil]
  | tryPop =>
      have hin : ∀ answer, FifoEntry.wordIn ⟨c, .tryPop, answer⟩ = none := fun _ => rfl
      simp only [hin, Option.toList_none, ite_self, List.append_nil, FifoCall.atomic]
      cases hq : q c.peer with
      | nil =>
          have hout : FifoEntry.wordOut ⟨c, .tryPop, .popped none⟩ = none := rfl
          simp only [hout, Option.toList_none, ite_self, List.nil_append]
      | cons word rest =>
          dsimp only
          by_cases hc : c = core.peer
          · subst hc
            rw [Core.peer_peer] at hq ⊢
            rw [if_pos rfl, Function.update_self, hq]
            rfl
          · have hne : core ≠ c.peer := fun h => hc (by rw [h, Core.peer_peer])
            rw [if_neg hc, Function.update_of_ne hne, List.nil_append]
  | status =>
      by_cases hc : c = core
      · rw [if_pos hc]
        by_cases hc' : c = core.peer
        · exact absurd (hc'.symm.trans hc) (Core.peer_ne core)
        · rw [if_neg hc']
          exact List.append_nil _
      · rw [if_neg hc, List.append_nil]
        split <;> rfl
  | clearErrors =>
      by_cases hc : c = core
      · rw [if_pos hc]
        by_cases hc' : c = core.peer
        · exact absurd (hc'.symm.trans hc) (Core.peer_ne core)
        · rw [if_neg hc']
          exact List.append_nil _
      · rw [if_neg hc, List.append_nil]
        split <;> rfl

/-- What a core pushed is what its peer popped, and what waits. -/
theorem replayCalls_words {log : List FifoEntry} {q : Core → List U32}
    (h : replayCalls log = some q) (core : Core) :
    wordsPushed core log = wordsPopped core.peer log ++ q core := by
  induction log using List.reverseRecOn generalizing q with
  | nil => cases h; rfl
  | append_singleton log e ih =>
      rw [replayCalls_snoc] at h
      obtain ⟨p, hp, happly⟩ := Option.bind_eq_some_iff.mp h
      unfold FifoEntry.apply at happly
      split at happly
      · rename_i hanswer
        cases happly
        obtain ⟨c, call, answer⟩ := e
        dsimp only at hanswer
        subst hanswer
        rw [wordsPushed_append, wordsPopped_append, ih hp, List.append_assoc, List.append_assoc,
          atomic_words]
      · cases happly

/-- The word that was pushed, and not answered yet. -/
def Launch.unanswered (ws : LaunchWords) (l : Launch) : List U32 :=
  match l.place with
  | .pop index => [ws.sequence.getD index 0]
  | _ => []

theorem Launch.unanswered_top (index failures : ℕ) (exchanges : List (U32 × U32)) :
    Launch.unanswered ws { place := top ws index, failures, exchanges } = [] := by
  unfold unanswered top
  split
  · rename_i h
    split at h
    · cases h
    · split at h <;> cases h
  · rfl

/-- What one call of the function pushes and pops. -/
structure Launch.Words (ws : LaunchWords) (core : Core) (l l' : Launch) (es : List FifoEntry) :
    Prop where
  pushed : l'.exchanges.map Prod.fst ++ l'.unanswered ws =
    l.exchanges.map Prod.fst ++ l.unanswered ws ++ wordsPushed core es
  popped : ∃ more, more.Sublist (wordsPopped core es) ∧
    l'.exchanges.map Prod.snd = l.exchanges.map Prod.snd ++ more

theorem Launch.Words.refl (core : Core) (l : Launch) : Launch.Words ws core l l [] where
  pushed := (List.append_nil _).symm
  popped := ⟨[], List.nil_sublist _, (List.append_nil _).symm⟩

/-- A call whose answer adds no exchange. -/
theorem Launch.Words.of_same {e : FifoEntry} (hexchanges : l'.exchanges = l.exchanges)
    (hpushed : l'.unanswered ws = l.unanswered ws ++ e.wordIn.toList) :
    Launch.Words ws e.core l l' [e] where
  pushed := by rw [hexchanges, hpushed, wordsPushed_one, if_pos rfl, List.append_assoc]
  popped := ⟨[], List.nil_sublist _, by rw [hexchanges, List.append_nil]⟩

/-- A word popped for the one that was pushed. -/
theorem Launch.Words.of_exchange {core : Core} {sent word : U32}
    (hsent : l.unanswered ws = [sent]) (hexchanges : l'.exchanges = l.exchanges ++ [(sent, word)])
    (hnone : l'.unanswered ws = []) :
    Launch.Words ws core l l' [⟨core, .tryPop, .popped (some word)⟩] where
  pushed := by
    rw [hexchanges, hsent, hnone, wordsPushed_one, if_pos rfl, List.map_append]
    rfl
  popped := by
    refine ⟨[word], ?_, by rw [hexchanges, List.map_append]; rfl⟩
    rw [wordsPopped_one, if_pos rfl]
    exact List.Sublist.refl _

theorem Launch.Words.trans {core : Core} {l'' : Launch} {es es' : List FifoEntry}
    (h : Launch.Words ws core l l' es) (h' : Launch.Words ws core l' l'' es') :
    Launch.Words ws core l l'' (es ++ es') where
  pushed := by
    rw [h'.pushed, h.pushed, wordsPushed_append, List.append_assoc]
  popped := by
    obtain ⟨more, hsub, hmore⟩ := h.popped
    obtain ⟨more', hsub', hmore'⟩ := h'.popped
    refine ⟨more ++ more', ?_, by rw [hmore', hmore, List.append_assoc]⟩
    rw [wordsPopped_append]
    exact hsub.append hsub'

theorem Launch.resume_words {e : FifoEntry} (hcall : l.call ws = some e.call) :
    Launch.Words ws e.core l (l.resume ws e.answer) [e] := by
  obtain ⟨place, failures, exchanges⟩ := l
  obtain ⟨core, call, answer⟩ := e
  cases place with
  | resetDrain =>
      cases hcall
      cases answer with
      | popped word => cases word <;> exact .of_same rfl rfl
      | pushed | status | cleared => exact .of_same rfl rfl
  | resetClear =>
      cases hcall
      exact .of_same rfl (Launch.unanswered_top 0 failures exchanges)
  | drain index =>
      cases hcall
      cases answer with
      | popped word => cases word <;> exact .of_same rfl rfl
      | pushed | status | cleared => exact .of_same rfl rfl
  | clear index =>
      cases hcall
      exact .of_same rfl rfl
  | returned launched => cases hcall
  | push index =>
      cases hcall
      cases answer with
      | pushed taken =>
          cases taken with
          | true => exact .of_same rfl rfl
          | false => exact .of_same rfl rfl
      | popped | status | cleared => exact .of_same rfl rfl
  | pop index =>
      cases hcall
      cases answer with
      | pushed | status | cleared => exact .of_same rfl rfl
      | popped word =>
          cases word with
          | none => exact .of_same rfl rfl
          | some word =>
              simp only [Launch.resume]
              split
              · exact .of_exchange rfl rfl (Launch.unanswered_top _ _ _)
              · refine .of_exchange rfl rfl ?_
                split
                · rfl
                · exact Launch.unanswered_top _ _ _

/-- **All the calls of the function.** -/
theorem Launch.follow_words {core : Core} {es : List FifoEntry} (hcore : ∀ e ∈ es, e.core = core)
    (h : l.follow ws es = some l') :
    Launch.Words ws core l l' es ∧ (l.Inv ws → l'.Inv ws) := by
  induction es generalizing l with
  | nil =>
      cases h
      exact ⟨.refl core _, id⟩
  | cons e es ih =>
      unfold Launch.follow at h
      split at h
      · rename_i hcall
        have hfirst := Launch.resume_words hcall
        rw [hcore e List.mem_cons_self] at hfirst
        obtain ⟨hrest, hinv⟩ := ih (fun e' he' => hcore e' (List.mem_cons_of_mem _ he')) h
        exact ⟨hfirst.trans hrest, fun I => hinv (I.resume e.answer)⟩
      · cases h

/-- The words of a core are those of its entries. -/
theorem filterMap_core (core : Core) (f : FifoEntry → Option U32) (log : List FifoEntry) :
    (log.filter (·.core = core)).filterMap (fun e => if e.core = core then f e else none) =
      log.filterMap fun e => if e.core = core then f e else none := by
  rw [List.filterMap_filter]
  congr 1
  funext e
  by_cases he : e.core = core
  · simp [he]
  · simp [he]

/-! ### Every run -/

/-- What `launch_core1` has done. -/
structure Launched (ws : LaunchWords) (l : Launch) (log : List FifoEntry) : Prop where
  /-- It has pushed the words of its exchanges, and perhaps one that is not answered yet. -/
  pushed : wordsPushed .core0 log = l.exchanges.map Prod.fst ++ l.unanswered ws
  /-- The answers are words of the other core, in order. -/
  answered : (l.exchanges.map Prod.snd).Sublist (wordsPushed .core1 log)
  /-- It ends. -/
  bounded : l.exchanges.length ≤ 6 * (core1LaunchRetries + 1)
  /-- When it returns true, the last six words it pushed are the sequence, each echoed. -/
  launched : l.place = .returned true →
    ∃ older, l.exchanges = older ++ echoed ws.sequence
  /-- It returns false after seventeen words that were not echoed. -/
  refused : l.place = .returned false → mismatches l.exchanges = core1LaunchRetries + 1
  /-- With every word echoed, it returns true after the six of the sequence. -/
  first : mismatches l.exchanges = 0 → l.exchanges.length ≤ 6 ∧
    (l.exchanges.length = 6 ↔ l.place = .returned true)

theorem Launch.Inv.length_le (I : l.Inv ws) :
    l.exchanges.length ≤ 6 * (core1LaunchRetries + 1) := by
  obtain ⟨-, hstands⟩ := I
  obtain ⟨place, failures, exchanges⟩ := l
  have hechoes : ∀ {index}, index ≤ 6 → failures ≤ core1LaunchRetries →
      Launch.Echoes ws ⟨place, failures, exchanges⟩ index →
        exchanges.length ≤ 6 * (core1LaunchRetries + 1) := by
    rintro index hindex hfew ⟨older, rfl, holder⟩
    have : older.length ≤ 6 * failures := holder
    rw [List.length_append, length_echoed, List.length_take, length_sequence]
    omega
  cases place with
  | resetDrain | resetClear => exact (congrArg List.length hstands.1).trans_le (Nat.zero_le _)
  | drain index | clear index | push index | pop index =>
      exact hechoes (Nat.le_of_lt hstands.1) hstands.2.1 hstands.2.2
  | returned launched =>
      cases launched with
      | true => exact hechoes (Nat.le_refl 6) hstands.1 hstands.2
      | false =>
          obtain ⟨hfailures, hlen⟩ := hstands
          dsimp only at hfailures hlen
          rw [hfailures] at hlen
          exact hlen

/-- As long as every word is echoed. -/
theorem Launch.Inv.first (I : l.Inv ws) (h : mismatches l.exchanges = 0) :
    l.exchanges.length ≤ 6 ∧ (l.exchanges.length = 6 ↔ l.place = .returned true) := by
  obtain ⟨hcounted, hstands⟩ := I
  rw [hcounted] at h
  obtain ⟨place, failures, exchanges⟩ := l
  dsimp only at h
  subst h
  have hlen : ∀ {index}, index ≤ 6 → Launch.Echoes ws ⟨place, 0, exchanges⟩ index →
      exchanges.length = index := by
    rintro index hindex ⟨older, rfl, holder⟩
    have : older.length ≤ 6 * 0 := holder
    rw [List.length_append, length_echoed, List.length_take, length_sequence]
    omega
  cases place with
  | resetDrain | resetClear =>
      have hnone : exchanges = [] := hstands.1
      subst hnone
      exact ⟨Nat.zero_le _, iff_of_false (by decide) LaunchAt.noConfusion⟩
  | drain index | clear index | push index | pop index =>
      obtain ⟨hindex, -, hechoes⟩ := hstands
      have := hlen (Nat.le_of_lt hindex) hechoes
      refine ⟨?_, iff_of_false ?_ LaunchAt.noConfusion⟩
      · show exchanges.length ≤ 6
        omega
      · show ¬ exchanges.length = 6
        omega
  | returned launched =>
      cases launched with
      | true =>
          have := hlen (Nat.le_refl 6) hstands.2
          exact ⟨Nat.le_of_eq this, iff_of_true this rfl⟩
      | false => cases hstands.1

/-- **The launch of core 1.**  Whichever of the four calls on its side of the FIFO the other core
makes, in whatever order, and however the accesses of both interleave: `launch_core1` returns true
only when the last six words it has pushed are the sequence and each was answered by itself, with
words the other core pushed in this order; it gives up only after seventeen words that were not; and
it comes to one of the two within a hundred and two words. -/
theorem launch_exact (ws : LaunchWords) {steps : List FifoStep} {r : FifoRun} {l : Launch}
    (h : fifoMachine.exec .init steps = some r)
    (hl : Launch.start.follow ws (r.log.filter (·.core = .core0)) = some l) :
    Launched ws l r.log := by
  obtain ⟨hwords, hinv⟩ := Launch.follow_words
    (fun e he => of_decide_eq_true (List.mem_filter.mp he).2) hl
  have I : l.Inv ws := hinv Launch.inv_start
  have hpushes : wordsPushed .core0 (r.log.filter (·.core = .core0)) = wordsPushed .core0 r.log :=
    filterMap_core .core0 _ _
  have hpops : wordsPopped .core0 (r.log.filter (·.core = .core0)) = wordsPopped .core0 r.log :=
    filterMap_core .core0 _ _
  obtain ⟨more, hsub, hmore⟩ := hwords.popped
  have hqueue := replayCalls_words (fifo_atomic h).replays .core1
  refine ⟨?_, ?_, I.length_le, fun hplace => ?_, fun hplace => ?_, I.first⟩
  · have := hwords.pushed
    rw [hpushes] at this
    exact this.symm
  · rw [hmore]
    rw [hpops] at hsub
    rw [hqueue]
    exact hsub.trans (List.sublist_append_left _ _)
  · have hstands := I.stands
    unfold Launch.Stands at hstands
    rw [hplace] at hstands
    obtain ⟨-, older, hexchanges, -⟩ := hstands
    exact ⟨older, hexchanges⟩
  · have hstands := I.stands
    unfold Launch.Stands at hstands
    rw [hplace] at hstands
    exact I.counted.trans hstands.1

def sampleWords : LaunchWords :=
  { vectorTable := 0x10000100, stackTop := 0x20042000, entry := 0x10000201 }

/-- The steps of both cores for one word, echoed. -/
def echoSteps (word : U32) : List FifoStep :=
  (if word = 0 then [.call .core0 .tryPop, .call .core0 .clearErrors] else []) ++
    [.call .core0 (.tryPush word), .access .core0, .call .core1 .tryPop, .access .core1,
      .call .core1 (.tryPush word), .access .core1, .call .core0 .tryPop, .access .core0]

/-- The other core echoes every word. -/
def echoLaunch : List FifoStep :=
  [.call .core0 .tryPop, .call .core0 .clearErrors] ++ sampleWords.sequence.flatMap echoSteps

theorem launch_exact_echo :
    ∃ (r : FifoRun) (l : Launch), l.place = .returned true ∧ Launched sampleWords l r.log := by
  have hrun : ((fifoMachine.exec .init echoLaunch).bind fun r =>
      (Launch.start.follow sampleWords (r.log.filter (·.core = .core0))).map fun l =>
        l.place) = some (.returned true) := by
    decide +kernel
  obtain ⟨r, hr, hl⟩ := Option.bind_eq_some_iff.mp hrun
  obtain ⟨l, hl, hplace⟩ := Option.map_eq_some_iff.mp hl
  exact ⟨r, l, hplace, launch_exact sampleWords hr hl⟩

end HibanaPico.Rp2040Sio
