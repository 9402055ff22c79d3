import HibanaPico.UnoQ.LlmCommand

/-!
# Uno Q — The arguments of a command line

`split_local_llm_args` goes through a command line character by character, between quotes and behind
a backslash or not, and knows of the word that it is in only the characters of it.

* `foldl_quoteArg`: a quoted argument is read up to its end, and then stands in `current`.
* `splitLocalLlmArgs_commandLine`: of quoted arguments, those that are not empty come back.
* `split_quoted_iff`: all of them come back exactly when none is empty.
-/

namespace HibanaPico.UnoQ

/-- The variables of `split_local_llm_args`. -/
structure ArgSplit where
  args : List (List Char)
  current : List Char
  quote : Option Char
  escaped : Bool
  deriving DecidableEq

namespace ArgSplit

def init : ArgSplit := ⟨[], [], none, false⟩

/-- `if !current.is_empty() { args.push(take(&mut current)) }`. -/
def endWord (s : ArgSplit) : ArgSplit :=
  if s.current = [] then s else { s with args := s.args ++ [s.current], current := [] }

/-- The body of the loop. -/
def step (s : ArgSplit) (ch : Char) : ArgSplit :=
  if s.escaped then { s with current := s.current ++ [ch], escaped := false }
  else if ch = '\\' then { s with escaped := true }
  else
    match s.quote with
    | some active =>
        if ch = active then { s with quote := none } else { s with current := s.current ++ [ch] }
    | none =>
        if ch = '\'' ∨ ch = '"' then { s with quote := some ch }
        else if isWhitespace ch then s.endWord
        else { s with current := s.current ++ [ch] }

/-- What follows the loop. -/
def finish (s : ArgSplit) : List (List Char) :=
  let s := if s.escaped then { s with current := s.current ++ ['\\'] } else s
  s.endWord.args

end ArgSplit

def splitLocalLlmArgs (input : List Char) : List (List Char) :=
  (input.foldl ArgSplit.step .init).finish

/-! ### Quoting -/

/-- A character between double quotes. -/
def quoteChar (ch : Char) : List Char := if ch = '"' ∨ ch = '\\' then ['\\', ch] else [ch]

/-- An argument in double quotes, with a backslash before each double quote and backslash. -/
def quoteArg (arg : List Char) : List Char := '"' :: arg.flatMap quoteChar ++ ['"']

/-- The quoted arguments, joined with spaces. -/
def commandLine (args : List (List Char)) : List Char := [' '].intercalate (args.map quoteArg)

variable {args : List (List Char)} {current : List Char}

theorem foldl_quoteChar (ch : Char) :
    (quoteChar ch).foldl ArgSplit.step ⟨args, current, some '"', false⟩ =
      ⟨args, current ++ [ch], some '"', false⟩ := by
  rw [quoteChar]
  split
  next special => rfl
  next plain =>
    obtain ⟨quote, backslash⟩ := not_or.mp plain
    simp only [List.foldl_cons, List.foldl_nil, ArgSplit.step, Bool.false_eq_true, if_false,
      if_neg backslash, if_neg quote]

theorem foldl_flatMap_quoteChar (arg : List Char) :
    (arg.flatMap quoteChar).foldl ArgSplit.step ⟨args, current, some '"', false⟩ =
      ⟨args, current ++ arg, some '"', false⟩ := by
  induction arg generalizing current with
  | nil => rw [List.flatMap_nil, List.foldl_nil, List.append_nil]
  | cons ch arg ih =>
      rw [List.flatMap_cons, List.foldl_append, foldl_quoteChar, ih, List.append_assoc,
        List.singleton_append]

/-- A quoted argument is read up to its end. -/
theorem foldl_quoteArg (arg : List Char) :
    (quoteArg arg).foldl ArgSplit.step ⟨args, [], none, false⟩ = ⟨args, arg, none, false⟩ := by
  calc (quoteArg arg).foldl ArgSplit.step ⟨args, [], none, false⟩
      _ = (arg.flatMap quoteChar ++ ['"']).foldl ArgSplit.step ⟨args, [], some '"', false⟩ := rfl
      _ = ['"'].foldl ArgSplit.step ⟨args, arg, some '"', false⟩ := by
        rw [List.foldl_append, foldl_flatMap_quoteChar, List.nil_append]
      _ = ⟨args, arg, none, false⟩ := rfl

/-- Behind it, the argument is pushed unless it is empty. -/
theorem endWord_eq (arg : List Char) :
    ArgSplit.endWord ⟨args, arg, none, false⟩ =
      ⟨args ++ [arg].filter (· ≠ []), [], none, false⟩ := by
  rw [ArgSplit.endWord]
  split
  next empty =>
    have empty : arg = [] := empty
    subst empty
    rw [List.filter_cons_of_neg (by decide), List.filter_nil, List.append_nil]
  next some =>
    have kept : [arg].filter (· ≠ []) = [arg] := List.filter_eq_self.mpr fun a mem =>
      decide_eq_true (List.mem_singleton.mp mem ▸ some)
    rw [kept]

theorem finish_foldl_commandLine (args : List (List Char)) (before : List (List Char)) :
    ((commandLine args).foldl ArgSplit.step ⟨before, [], none, false⟩).finish =
      before ++ args.filter (· ≠ []) := by
  induction args generalizing before with
  | nil => exact (List.append_nil before).symm
  | cons arg args ih =>
      cases args with
      | nil =>
          calc ((commandLine [arg]).foldl ArgSplit.step ⟨before, [], none, false⟩).finish
              _ = (ArgSplit.mk before arg none false).finish := by
                rw [commandLine, List.map_singleton, List.intercalate_singleton, foldl_quoteArg]
              _ = (ArgSplit.endWord ⟨before, arg, none, false⟩).args := rfl
              _ = before ++ [arg].filter (· ≠ []) := by rw [endWord_eq]
      | cons next args =>
          have line : commandLine (arg :: next :: args) =
              quoteArg arg ++ ' ' :: commandLine (next :: args) := by
            simp only [commandLine, List.map_cons, List.intercalate_cons_cons, List.append_assoc,
              List.singleton_append]
          have space : ArgSplit.step ⟨before, arg, none, false⟩ ' ' =
              ArgSplit.endWord ⟨before, arg, none, false⟩ := rfl
          rw [line, List.foldl_append, foldl_quoteArg, List.foldl_cons, space, endWord_eq, ih,
            List.append_assoc, ← List.filter_append, List.singleton_append]

/-- Of quoted arguments, those that are not empty come back. -/
theorem splitLocalLlmArgs_commandLine (args : List (List Char)) :
    splitLocalLlmArgs (commandLine args) = args.filter (· ≠ []) :=
  finish_foldl_commandLine args []

/-- **Splitting undoes quoting** exactly when no argument is empty. -/
theorem split_quoted_iff (args : List (List Char)) :
    splitLocalLlmArgs (commandLine args) = args ↔ [] ∉ args := by
  rw [splitLocalLlmArgs_commandLine, List.filter_eq_self]
  refine ⟨fun kept mem => of_decide_eq_true (kept [] mem) rfl, fun none arg mem => ?_⟩
  exact decide_eq_true fun empty => none (empty ▸ mem)

/-- The empty argument of `"-p" ""` is dropped. -/
theorem split_quoted_empty :
    splitLocalLlmArgs (commandLine [['-', 'p'], []]) = [['-', 'p']] ∧
      ¬ ∀ args, splitLocalLlmArgs (commandLine args) = args := by
  have dropped : splitLocalLlmArgs (commandLine [['-', 'p'], []]) = [['-', 'p']] := by decide
  refine ⟨dropped, fun undone => ?_⟩
  rw [undone] at dropped
  cases dropped

end HibanaPico.UnoQ
