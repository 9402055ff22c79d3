import Mathlib.Data.Nat.Digits.Lemmas
import Mathlib.Data.List.Infix

/-!
# Support — Format

A printer and the scanner that reads its text back, over any type of symbols, put together piece
by piece.

* `Format`: how a value is printed, how one is scanned off the front of a text, and what may
  stand behind a printed value for the scanner to see its end.
* `Format.literal`, `Format.andThen`, `Format.mapped`, `Format.signed`: the ways to build one.
* `Format.reads_row`, `Format.reads_before_iff`: a row of a fixed width, cut where the text is
  longer and filled up with blanks where it is shorter, reads back as the value when the text
  fits, and only then where the text ends with a mark of its own.
* `Numerals.format`, `Numerals.pointed`: numbers in a base, highest digit first.
-/

namespace HibanaPico.Support

/-- A printer with its scanner.  `Ends` says of a text that a printed value may stand before it. -/
structure Format (σ : Type*) (α : Type*) where
  print : α → List σ
  scan : List σ → Option (α × List σ)
  Ends : List σ → Prop
  scan_print : ∀ a rest, Ends rest → scan (print a ++ rest) = some (a, rest)
  scan_suffix : ∀ text a rest, scan text = some (a, rest) → rest <:+ text

namespace Format

variable {σ α β : Type*}

/-! ### Building -/

/-- A fixed text. -/
def literal [DecidableEq σ] (word : List σ) : Format σ Unit where
  print := fun _ => word
  scan := fun text => if word <+: text then some ((), text.drop word.length) else none
  Ends := fun _ => True
  scan_print := by
    intro a rest _
    rw [if_pos (List.prefix_append word rest), List.drop_left]
  scan_suffix := by
    intro text a rest h
    split at h
    · cases h
      exact List.drop_suffix _ _
    · cases h

theorem prefix_of_scan_literal [DecidableEq σ] {word text rest : List σ} {u : Unit}
    (h : (literal word).scan text = some (u, rest)) : text = word ++ rest := by
  simp only [literal] at h
  split at h
  · rename_i hword
    obtain ⟨tail, rfl⟩ := hword
    rw [List.drop_left] at h
    cases h
    rfl
  · cases h

/-- One value and then another: the first one ends where the second begins. -/
def andThen (f : Format σ α) (g : Format σ β)
    (h : ∀ b rest, g.Ends rest → f.Ends (g.print b ++ rest)) : Format σ (α × β) where
  print := fun v => f.print v.1 ++ g.print v.2
  scan := fun text =>
    match f.scan text with
    | none => none
    | some (a, text) =>
        match g.scan text with
        | none => none
        | some (b, rest) => some ((a, b), rest)
  Ends := g.Ends
  scan_print := by
    intro v rest hrest
    rw [List.append_assoc, f.scan_print _ _ (h _ _ hrest)]
    simp only [g.scan_print _ _ hrest]
  scan_suffix := by
    intro text v rest hscan
    cases hf : f.scan text with
    | none => simp [hf] at hscan
    | some first =>
        cases hg : g.scan first.2 with
        | none => simp [hf, hg] at hscan
        | some second =>
            simp only [hf, hg, Option.some.injEq, Prod.mk.injEq] at hscan
            have hsecond := g.scan_suffix _ _ _ hg
            rw [hscan.2] at hsecond
            exact hsecond.trans (f.scan_suffix _ _ _ hf)

/-- The text of one value stands for another value. -/
def mapped (f : Format σ α) (into : β → α) (back : α → β) (h : ∀ b, back (into b) = b) :
    Format σ β where
  print := fun b => f.print (into b)
  scan := fun text => (f.scan text).map fun v => (back v.1, v.2)
  Ends := f.Ends
  scan_print := by
    intro b rest hrest
    rw [f.scan_print _ _ hrest, Option.map_some, h]
  scan_suffix := by
    intro text b rest hscan
    obtain ⟨v, hv, heq⟩ := Option.map_eq_some_iff.mp hscan
    cases heq
    exact f.scan_suffix _ _ _ hv

/-- A fixed text before a value. -/
def after [DecidableEq σ] (word : List σ) (f : Format σ α) : Format σ α :=
  ((literal word).andThen f (fun _ _ _ => trivial)).mapped (fun a => ((), a)) Prod.snd
    (fun _ => rfl)

/-- A fixed text behind a value. -/
def before [DecidableEq σ] (f : Format σ α) (word : List σ)
    (h : ∀ rest, f.Ends (word ++ rest)) : Format σ α :=
  (f.andThen (literal word) (fun _ rest _ => h rest)).mapped (fun a => (a, ())) Prod.fst
    (fun _ => rfl)

/-- A magnitude with a mark in front of it where the number is negative. -/
def signed [DecidableEq σ] (f : Format σ ℕ) (mark : σ)
    (h : ∀ n rest, f.Ends rest → (f.print n ++ rest).head? ≠ some mark) : Format σ ℤ where
  print := fun z => if z < 0 then mark :: f.print z.natAbs else f.print z.natAbs
  scan := fun text =>
    if text.head? = some mark then
      (f.scan text.tail).map fun v => (-(v.1 : ℤ), v.2)
    else (f.scan text).map fun v => ((v.1 : ℤ), v.2)
  Ends := f.Ends
  scan_print := by
    intro z rest hrest
    by_cases hz : z < 0
    · simp only [if_pos hz, List.cons_append, List.head?_cons, if_true, List.tail_cons,
        f.scan_print _ _ hrest, Option.map_some, Int.natCast_natAbs]
      rw [abs_of_neg hz, neg_neg]
    · simp only [if_neg hz, if_neg (h _ _ hrest), f.scan_print _ _ hrest, Option.map_some,
        Int.natCast_natAbs]
      rw [abs_of_nonneg (not_lt.mp hz)]
  scan_suffix := by
    intro text z rest hscan
    split at hscan
    · obtain ⟨v, hv, heq⟩ := Option.map_eq_some_iff.mp hscan
      cases heq
      exact (f.scan_suffix _ _ _ hv).trans (List.tail_suffix text)
    · obtain ⟨v, hv, heq⟩ := Option.map_eq_some_iff.mp hscan
      cases heq
      exact f.scan_suffix _ _ _ hv

/-! ### Rows -/

/-- A row of `width` symbols: the text is cut where it is longer, and filled up with blanks. -/
def row (width : ℕ) (blank : σ) (text : List σ) : List σ :=
  text.take width ++ List.replicate (width - text.length) blank

variable {width : ℕ} {blank : σ}

theorem length_row (text : List σ) : (row width blank text).length = width := by
  simp only [row, List.length_append, List.length_take, List.length_replicate]
  omega

theorem row_of_le {text : List σ} (h : text.length ≤ width) :
    row width blank text = text ++ List.replicate (width - text.length) blank := by
  rw [row, List.take_of_length_le h]

theorem row_of_lt {text : List σ} (h : width ≤ text.length) :
    row width blank text = text.take width := by
  rw [row, Nat.sub_eq_zero_of_le h, List.replicate_zero, List.append_nil]

variable [DecidableEq σ]

/-- What a row says: a value, and then blanks only. -/
def reads (f : Format σ α) (blank : σ) (row : List σ) : Option α :=
  match f.scan row with
  | none => none
  | some (a, rest) => if ∀ x ∈ rest, x = blank then some a else none

/-- A text that fits is read back. -/
theorem reads_row (f : Format σ α) {a : α} (hfits : (f.print a).length ≤ width)
    (hends : ∀ n, f.Ends (List.replicate n blank)) :
    f.reads blank (row width blank (f.print a)) = some a := by
  simp only [reads, row_of_le hfits, f.scan_print _ _ (hends _)]
  exact if_pos fun x hx => List.eq_of_mem_replicate hx

theorem mem_of_reads_before {f : Format σ α} {word text : List σ}
    {h : ∀ rest, f.Ends (word ++ rest)} {a : α}
    (hreads : (f.before word h).reads blank text = some a) {x : σ} (hx : x ∈ word) :
    x ∈ text := by
  cases hf : f.scan text with
  | none => simp [reads, before, mapped, andThen, hf] at hreads
  | some first =>
      cases hw : (literal word).scan first.2 with
      | none => simp [reads, before, mapped, andThen, hf, hw] at hreads
      | some second =>
          have htail : first.2 = word ++ second.2 := prefix_of_scan_literal hw
          have hsuffix := f.scan_suffix _ _ _ hf
          exact hsuffix.subset (htail ▸ List.mem_append_left _ hx)

/-- A text that ends with a mark of its own reads back from its row exactly when it fits: cut
short, it has lost the mark. -/
theorem reads_before_iff (f : Format σ α) {mark : σ} {h : ∀ rest, f.Ends ([mark] ++ rest)} {a : α}
    (hmark : mark ∉ f.print a) :
    (f.before [mark] h).reads blank (row width blank ((f.before [mark] h).print a)) = some a ↔
      (f.print a).length < width := by
  have hprint : (f.before [mark] h).print a = f.print a ++ [mark] := rfl
  have hlength : ((f.before [mark] h).print a).length = (f.print a).length + 1 := by
    rw [hprint, List.length_append, List.length_singleton]
  constructor
  · intro hreads
    by_contra hlong
    have hlong := not_lt.mp hlong
    have hcut : row width blank ((f.before [mark] h).print a) = (f.print a).take width := by
      rw [row_of_lt (by omega), hprint, List.take_append_of_le_length hlong]
    rw [hcut] at hreads
    exact hmark (List.mem_of_mem_take (mem_of_reads_before hreads List.mem_cons_self))
  · intro hfits
    exact reads_row _ (by omega) fun _ => trivial

end Format

/-! ### Numerals -/

/-- The digits of `n` in a base, the highest first; zero has one digit. -/
def numeral (base n : ℕ) : List ℕ :=
  if n = 0 then [0] else (Nat.digits base n).reverse

theorem numeral_ne_nil (base n : ℕ) : numeral base n ≠ [] := by
  rw [numeral]
  split
  · exact List.cons_ne_nil _ _
  · rename_i hn
    rw [ne_eq, List.reverse_eq_nil_iff]
    exact Nat.digits_ne_nil_iff_ne_zero.mpr hn

theorem lt_of_mem_numeral {base n d : ℕ} (hbase : 1 < base) (h : d ∈ numeral base n) :
    d < base := by
  rw [numeral] at h
  split at h
  · rw [List.mem_singleton.mp h]
    exact Nat.zero_lt_of_lt hbase
  · exact Nat.digits_lt_base hbase (List.mem_reverse.mp h)

theorem reverse_numeral_of_lt {base n : ℕ} (h : n < base) : (numeral base n).reverse = [n] := by
  rw [numeral]
  split
  · rename_i hn
    rw [hn, List.reverse_singleton]
  · rename_i hn
    rw [List.reverse_reverse, Nat.digits_of_lt base n hn h]

/-- The lowest digit, and then those of the quotient. -/
theorem reverse_numeral_of_le {base n : ℕ} (hbase : 1 < base) (h : base ≤ n) :
    (numeral base n).reverse = n % base :: (numeral base (n / base)).reverse := by
  have hn : 0 < n := Nat.lt_of_lt_of_le (Nat.zero_lt_of_lt hbase) h
  have hquotient : n / base ≠ 0 := (Nat.div_pos h (Nat.zero_lt_of_lt hbase)).ne'
  rw [numeral, if_neg hn.ne', List.reverse_reverse, numeral, if_neg hquotient,
    List.reverse_reverse, Nat.digits_def' hbase hn]

/-- A number below the `k`-th power of the base has at most `k` digits. -/
theorem length_numeral_le {base n k : ℕ} (hbase : 1 < base) (hk : 0 < k) (h : n < base ^ k) :
    (numeral base n).length ≤ k := by
  rw [numeral]
  split
  · exact hk
  · rw [List.length_reverse]
    exact (Nat.digits_length_le_iff hbase n).mpr h

theorem foldl_numeral (base n : ℕ) :
    (numeral base n).foldl (fun acc d => acc * base + d) 0 = n := by
  rw [numeral]
  split
  · rename_i hn
    simp [hn]
  · rw [List.foldl_reverse]
    have hfold : (Nat.digits base n).foldr (fun d acc => acc * base + d) 0 =
        Nat.ofDigits base (Nat.digits base n) := by
      rw [Nat.ofDigits_eq_foldr]
      congr 1
      funext d acc
      rw [Nat.cast_id, mul_comm, add_comm]
    rw [hfold, Nat.ofDigits_digits]

/-- The symbols of the digits of a base. -/
structure Numerals (σ : Type*) where
  base : ℕ
  symbol : ℕ → σ
  value : σ → Option ℕ
  one_lt_base : 1 < base
  value_symbol : ∀ d < base, value (symbol d) = some d

namespace Numerals

variable {σ : Type*} (N : Numerals σ)

/-- The number read so far, and the digits that still stand there. -/
def scanDigits : ℕ → List σ → ℕ × List σ
  | acc, [] => (acc, [])
  | acc, x :: rest =>
      match N.value x with
      | none => (acc, x :: rest)
      | some d => scanDigits (acc * N.base + d) rest

theorem scanDigits_suffix (acc : ℕ) (text : List σ) : (N.scanDigits acc text).2 <:+ text := by
  induction text generalizing acc with
  | nil => exact List.suffix_rfl
  | cons x rest ih =>
      rw [scanDigits]
      split
      · exact List.suffix_rfl
      · exact (ih _).trans (List.suffix_cons x rest)

theorem scanDigits_symbols {rest : List σ} (hrest : rest.head?.bind N.value = none) (acc : ℕ)
    {ds : List ℕ} (hds : ∀ d ∈ ds, d < N.base) :
    N.scanDigits acc (ds.map N.symbol ++ rest) =
      (ds.foldl (fun acc d => acc * N.base + d) acc, rest) := by
  induction ds generalizing acc with
  | nil =>
      cases rest with
      | nil => rfl
      | cons x rest =>
          have hx : N.value x = none := hrest
          simp only [List.map_nil, List.nil_append, scanDigits, hx, List.foldl_nil]
  | cons d ds ih =>
      have hd := N.value_symbol d (hds d List.mem_cons_self)
      simp only [List.map_cons, List.cons_append, scanDigits, hd, List.foldl_cons]
      exact ih _ fun e he => hds e (List.mem_cons_of_mem d he)

theorem value_head_numeral (n : ℕ) (rest : List σ) :
    ∃ d, (((numeral N.base n).map N.symbol ++ rest).head?.bind N.value) = some d := by
  obtain ⟨d, ds, hds⟩ := List.exists_cons_of_ne_nil (numeral_ne_nil N.base n)
  have hd : d < N.base := lt_of_mem_numeral N.one_lt_base (hds ▸ List.mem_cons_self)
  exact ⟨d, by simp [hds, N.value_symbol d hd]⟩

/-- A number, highest digit first: it ends where no digit stands. -/
def format : Format σ ℕ where
  print := fun n => (numeral N.base n).map N.symbol
  scan := fun text =>
    match text.head?.bind N.value with
    | none => none
    | some _ => some (N.scanDigits 0 text)
  Ends := fun rest => rest.head?.bind N.value = none
  scan_print := by
    intro n rest hrest
    obtain ⟨d, hd⟩ := N.value_head_numeral n rest
    have hlt : ∀ d ∈ numeral N.base n, d < N.base := fun d hd =>
      lt_of_mem_numeral N.one_lt_base hd
    have hdigits := N.scanDigits_symbols hrest 0 hlt
    rw [foldl_numeral] at hdigits
    simp only [hd, hdigits]
  scan_suffix := by
    intro text n rest hscan
    have hsuffix := N.scanDigits_suffix 0 text
    cases hhead : text.head?.bind N.value with
    | none => simp [hhead] at hscan
    | some d =>
        simp only [hhead, Option.some.injEq] at hscan
        rw [hscan] at hsuffix
        exact hsuffix

/-- One digit. -/
def digit : Format σ (Fin N.base) where
  print := fun d => [N.symbol d]
  scan := fun text =>
    match text with
    | [] => none
    | x :: rest =>
        match N.value x with
        | none => none
        | some d => if h : d < N.base then some (⟨d, h⟩, rest) else none
  Ends := fun _ => True
  scan_print := by
    intro d rest _
    simp only [List.singleton_append, N.value_symbol d d.isLt, d.isLt, dite_true]
  scan_suffix := by
    intro text d rest hscan
    cases text with
    | nil => cases hscan
    | cons x tail =>
        cases hx : N.value x with
        | none => simp [hx] at hscan
        | some e =>
            by_cases he : e < N.base
            · simp only [hx, he, dite_true, Option.some.injEq, Prod.mk.injEq] at hscan
              rw [← hscan.2]
              exact List.suffix_cons x tail
            · simp [hx, he] at hscan

/-- A number of base-th parts: the whole ones, a point, and one more digit. -/
def pointed [DecidableEq σ] (point : σ) (h : N.value point = none) : Format σ ℕ :=
  (N.format.andThen (N.digit.after [point]) (fun _ _ _ => h)).mapped
    (fun n => (n / N.base, ⟨n % N.base, Nat.mod_lt n (Nat.zero_lt_of_lt N.one_lt_base)⟩))
    (fun v => v.1 * N.base + v.2) (fun n => Nat.div_add_mod' n N.base)

theorem print_pointed [DecidableEq σ] {point : σ} {h : N.value point = none} (n : ℕ) :
    (N.pointed point h).print n =
      (numeral N.base (n / N.base)).map N.symbol ++ [point, N.symbol (n % N.base)] := rfl

theorem head_pointed [DecidableEq σ] {point mark : σ} {h : N.value point = none}
    (hmark : N.value mark = none) (n : ℕ) (rest : List σ) :
    ((N.pointed point h).print n ++ rest).head? ≠ some mark := by
  intro hhead
  obtain ⟨d, hd⟩ := N.value_head_numeral (n / N.base) ([point, N.symbol (n % N.base)] ++ rest)
  rw [print_pointed, List.append_assoc] at hhead
  rw [hhead, Option.bind_some, hmark] at hd
  cases hd

end Numerals

end HibanaPico.Support
