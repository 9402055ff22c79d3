import Mathlib.Data.List.Basic

/-!
# Support — JSON

The text of a JSON document as a tree that keeps all of it: the white space, the order of the
members and the way each character of a string is written.

* `token_append_inj`: where a string starts, it starts in one way and ends in one place.
* `alone_eq_iff`: code units read one by one are the string exactly when none is a surrogate.
* `Document.text_of_mem_sites`: every member stands in the text where its site says.
-/

namespace HibanaPico.Json

/-! ### Strings -/

/-- The value of a hexadecimal digit. -/
def hexValue (c : Char) : Option ℕ :=
  if '0'.toNat ≤ c.toNat ∧ c.toNat ≤ '9'.toNat then some (c.toNat - '0'.toNat)
  else if 'a'.toNat ≤ c.toNat ∧ c.toNat ≤ 'f'.toNat then some (c.toNat - 'a'.toNat + 10)
  else if 'A'.toNat ≤ c.toNat ∧ c.toNat ≤ 'F'.toNat then some (c.toNat - 'A'.toNat + 10)
  else none

structure HexDigit where
  char : Char
  value : ℕ
  reads : hexValue char = some value
  deriving DecidableEq

/-- The four digits behind `\u`. -/
structure CodeUnit where
  first : HexDigit
  second : HexDigit
  third : HexDigit
  fourth : HexDigit
  deriving DecidableEq

/-- The characters that stand in a string as they are. -/
def Unescaped (c : Char) : Prop := ' '.toNat ≤ c.toNat ∧ c ≠ '"' ∧ c ≠ '\\'

instance (c : Char) : Decidable (Unescaped c) := inferInstanceAs (Decidable (_ ∧ _ ∧ _))

/-- The escapes of one letter. -/
inductive Escape where
  | quote | backslash | slash | backspace | formFeed | lineFeed | carriageReturn | tab
  deriving DecidableEq

inductive StringChar where
  | plain (c : Char) (unescaped : Unescaped c)
  | escaped (e : Escape)
  | unicode (u : CodeUnit)
  deriving DecidableEq

abbrev Literal := List StringChar

def CodeUnit.chars (u : CodeUnit) : List Char :=
  [u.first.char, u.second.char, u.third.char, u.fourth.char]

def CodeUnit.value (u : CodeUnit) : ℕ :=
  ((u.first.value * 16 + u.second.value) * 16 + u.third.value) * 16 + u.fourth.value

def CodeUnit.IsHigh (u : CodeUnit) : Prop := 0xd800 ≤ u.value ∧ u.value < 0xdc00

def CodeUnit.IsLow (u : CodeUnit) : Prop := 0xdc00 ≤ u.value ∧ u.value < 0xe000

instance (u : CodeUnit) : Decidable u.IsHigh := inferInstanceAs (Decidable (_ ∧ _))

instance (u : CodeUnit) : Decidable u.IsLow := inferInstanceAs (Decidable (_ ∧ _))

/-- The letter behind the backslash. -/
def Escape.letter : Escape → Char
  | .quote => '"'
  | .backslash => '\\'
  | .slash => '/'
  | .backspace => 'b'
  | .formFeed => 'f'
  | .lineFeed => 'n'
  | .carriageReturn => 'r'
  | .tab => 't'

def Escape.value : Escape → Char
  | .quote => '"'
  | .backslash => '\\'
  | .slash => '/'
  | .backspace => '\x08'
  | .formFeed => '\x0c'
  | .lineFeed => '\n'
  | .carriageReturn => '\r'
  | .tab => '\t'

def StringChar.render : StringChar → List Char
  | .plain c _ => [c]
  | .escaped e => ['\\', e.letter]
  | .unicode u => '\\' :: 'u' :: u.chars

/-- The text of a string between its quotation marks. -/
def Literal.body (l : Literal) : List Char := l.flatMap StringChar.render

def Literal.token (l : Literal) : List Char := '"' :: l.body ++ ['"']

/-- What the string is.  A surrogate stands for a character together with its other half only. -/
def Literal.value : Literal → Option (List Char)
  | [] => some []
  | .plain c _ :: l => (Literal.value l).map (c :: ·)
  | .escaped e :: l => (Literal.value l).map (e.value :: ·)
  | .unicode u :: .unicode w :: l =>
      if u.IsHigh then
        if w.IsLow then
          (Literal.value l).map
            (Char.ofNat (0x10000 + (u.value - 0xd800) * 0x400 + (w.value - 0xdc00)) :: ·)
        else none
      else if u.IsLow then none
      else (Literal.value (.unicode w :: l)).map (Char.ofNat u.value :: ·)
  | .unicode u :: l =>
      if u.IsHigh ∨ u.IsLow then none else (Literal.value l).map (Char.ofNat u.value :: ·)

/-- What a code unit is by itself: a surrogate is no character, and is replaced. -/
def CodeUnit.alone (u : CodeUnit) : Char :=
  if u.value.isValidChar then Char.ofNat u.value else '\ufffd'

def StringChar.alone : StringChar → Char
  | .plain c _ => c
  | .escaped e => e.value
  | .unicode u => u.alone

/-- The string with each code unit read by itself. -/
def Literal.alone (l : Literal) : List Char := l.map StringChar.alone

def StringChar.IsSurrogate : StringChar → Prop
  | .unicode u => u.IsHigh ∨ u.IsLow
  | _ => False

/-- A digit is below 16, and is written as a printed ASCII character. -/
theorem hexValue_bounds {c : Char} {n : ℕ} (h : hexValue c = some n) :
    n < 16 ∧ ' '.toNat ≤ c.toNat ∧ c.toNat < 128 := by
  have space : ' '.toNat = 32 := rfl
  have digits : '0'.toNat = 48 ∧ '9'.toNat = 57 := ⟨rfl, rfl⟩
  have lower : 'a'.toNat = 97 ∧ 'f'.toNat = 102 := ⟨rfl, rfl⟩
  have upper : 'A'.toNat = 65 ∧ 'F'.toNat = 70 := ⟨rfl, rfl⟩
  rw [hexValue] at h
  split at h
  next => cases h; omega
  next =>
    split at h
    next => cases h; omega
    next =>
      split at h
      next => cases h; omega
      next => cases h

theorem HexDigit.value_lt (d : HexDigit) : d.value < 16 := (hexValue_bounds d.reads).1

theorem HexDigit.ascii (d : HexDigit) : d.char.toNat < 128 := (hexValue_bounds d.reads).2.2

theorem HexDigit.printed (d : HexDigit) : ' '.toNat ≤ d.char.toNat := (hexValue_bounds d.reads).2.1

theorem HexDigit.eq_of_char {d e : HexDigit} (h : d.char = e.char) : d = e := by
  obtain ⟨c, n, hn⟩ := d
  obtain ⟨c', m, hm⟩ := e
  obtain rfl : c = c' := h
  obtain rfl : n = m := Option.some.inj (hn.symm.trans hm)
  rfl

theorem CodeUnit.value_lt (u : CodeUnit) : u.value < 0x10000 := by
  have first := u.first.value_lt
  have second := u.second.value_lt
  have third := u.third.value_lt
  have fourth := u.fourth.value_lt
  rw [CodeUnit.value]
  omega

theorem CodeUnit.eq_of_chars {u w : CodeUnit} (h : u.chars = w.chars) : u = w := by
  obtain ⟨a, b, c, d⟩ := u
  obtain ⟨a', b', c', d'⟩ := w
  simp only [CodeUnit.chars, List.cons.injEq, and_true] at h
  obtain ⟨ha, hb, hc, hd⟩ := h
  rw [HexDigit.eq_of_char ha, HexDigit.eq_of_char hb, HexDigit.eq_of_char hc,
    HexDigit.eq_of_char hd]

theorem Escape.letter_injective {e e' : Escape} (h : e.letter = e'.letter) : e = e' := by
  cases e <;> cases e' <;> first | rfl | exact absurd h (by decide)

theorem Escape.letter_ne (e : Escape) : e.letter ≠ 'u' := by
  cases e <;> decide

theorem render_ne_quote (c : StringChar) {more rest : List Char}
    (h : c.render ++ more = '"' :: rest) : False := by
  cases c with
  | plain c unescaped => exact unescaped.2.1 (List.cons.inj h).1
  | escaped e => exact absurd (List.cons.inj h).1 (by decide)
  | unicode u => exact absurd (List.cons.inj h).1 (by decide)

/-- No character of a string is written as the start of another. -/
theorem render_append_inj {c c' : StringChar} {rest rest' : List Char}
    (h : c.render ++ rest = c'.render ++ rest') : c = c' ∧ rest = rest' := by
  cases c with
  | plain c unescaped =>
      cases c' with
      | plain c' _ =>
          obtain ⟨rfl, same⟩ := List.cons.inj h
          exact ⟨rfl, same⟩
      | escaped e => exact absurd (List.cons.inj h).1 unescaped.2.2
      | unicode u => exact absurd (List.cons.inj h).1 unescaped.2.2
  | escaped e =>
      cases c' with
      | plain c' unescaped => exact absurd (List.cons.inj h).1.symm unescaped.2.2
      | escaped e' =>
          obtain ⟨letter, same⟩ := List.cons.inj (List.cons.inj h).2
          exact ⟨congrArg _ (Escape.letter_injective letter), same⟩
      | unicode u => exact absurd (List.cons.inj (List.cons.inj h).2).1 e.letter_ne
  | unicode u =>
      cases c' with
      | plain c' unescaped => exact absurd (List.cons.inj h).1.symm unescaped.2.2
      | escaped e => exact absurd (List.cons.inj (List.cons.inj h).2).1.symm e.letter_ne
      | unicode w =>
          have digits : u.chars ++ rest = w.chars ++ rest' :=
            (List.cons.inj (List.cons.inj h).2).2
          obtain ⟨chars, same⟩ := List.append_inj digits rfl
          exact ⟨congrArg _ (CodeUnit.eq_of_chars chars), same⟩

theorem Escape.printed (e : Escape) : ' '.toNat ≤ e.letter.toNat := by
  cases e <;> decide

/-- No control character stands in a string. -/
theorem Literal.printed (l : Literal) : ∀ ch ∈ l.body, ' '.toNat ≤ ch.toNat := by
  intro ch mem
  obtain ⟨c, -, mem⟩ := List.mem_flatMap.mp mem
  cases c with
  | plain c unescaped => exact List.mem_singleton.mp mem ▸ unescaped.1
  | escaped e =>
      simp only [StringChar.render, List.mem_cons, List.not_mem_nil, or_false] at mem
      rcases mem with rfl | rfl
      · decide
      · exact e.printed
  | unicode u =>
      simp only [StringChar.render, CodeUnit.chars, List.mem_cons, List.not_mem_nil,
        or_false] at mem
      rcases mem with rfl | rfl | rfl | rfl | rfl | rfl
      · decide
      · decide
      · exact u.first.printed
      · exact u.second.printed
      · exact u.third.printed
      · exact u.fourth.printed

theorem Literal.body_cons (c : StringChar) (l : Literal) :
    Literal.body (c :: l) = c.render ++ Literal.body l := List.flatMap_cons

/-- Where a string starts, it starts in one way and ends in one place. -/
theorem body_append_inj {l l' : Literal} {rest rest' : List Char}
    (h : l.body ++ '"' :: rest = l'.body ++ '"' :: rest') : l = l' ∧ rest = rest' := by
  induction l generalizing l' with
  | nil =>
      cases l' with
      | nil => exact ⟨rfl, (List.cons.inj h).2⟩
      | cons c' l' =>
          rw [Literal.body_cons, List.append_assoc] at h
          exact (render_ne_quote c' h.symm).elim
  | cons c l ih =>
      rw [Literal.body_cons, List.append_assoc] at h
      cases l' with
      | nil => exact (render_ne_quote c h).elim
      | cons c' l' =>
          rw [Literal.body_cons, List.append_assoc] at h
          obtain ⟨rfl, same⟩ := render_append_inj h
          obtain ⟨rfl, rest⟩ := ih same
          exact ⟨rfl, rest⟩

theorem Literal.token_append (l : Literal) (rest : List Char) :
    l.token ++ rest = '"' :: (l.body ++ '"' :: rest) := by
  rw [Literal.token, List.cons_append, List.cons_append, List.append_assoc, List.singleton_append]

theorem token_append_inj {l l' : Literal} {rest rest' : List Char}
    (h : l.token ++ rest = l'.token ++ rest') : l = l' ∧ rest = rest' := by
  rw [Literal.token_append, Literal.token_append] at h
  exact body_append_inj (List.cons.inj h).2

theorem CodeUnit.isValidChar_iff (u : CodeUnit) : u.value.isValidChar ↔ ¬ (u.IsHigh ∨ u.IsLow) := by
  have bound := u.value_lt
  simp only [Nat.isValidChar, CodeUnit.IsHigh, CodeUnit.IsLow]
  omega

theorem CodeUnit.alone_eq {u : CodeUnit} (h : ¬ (u.IsHigh ∨ u.IsLow)) :
    u.alone = Char.ofNat u.value := if_pos (u.isValidChar_iff.mpr h)

theorem value_of_none_surrogate {l : Literal} (h : ∀ c ∈ l, ¬ c.IsSurrogate) :
    l.value = some l.alone := by
  fun_induction Literal.value l with
  | case1 => rfl
  | case2 c unescaped l ih => rw [ih fun c mem => h c (List.mem_cons_of_mem _ mem)]; rfl
  | case3 e l ih => rw [ih fun c mem => h c (List.mem_cons_of_mem _ mem)]; rfl
  | case4 u w l high low ih => exact absurd (.inl high) (h _ (List.mem_cons_self ..))
  | case5 u w l high low => exact absurd (.inl high) (h _ (List.mem_cons_self ..))
  | case6 u w l high low => exact absurd (.inr low) (h _ (List.mem_cons_self ..))
  | case7 u w l high low ih =>
      rw [ih fun c mem => h c (List.mem_cons_of_mem _ mem), Option.map_some,
        ← u.alone_eq (not_or.mpr ⟨high, low⟩)]
      rfl
  | case8 u l _ surrogate => exact absurd surrogate (h _ (List.mem_cons_self ..))
  | case9 u l _ surrogate ih =>
      rw [ih fun c mem => h c (List.mem_cons_of_mem _ mem), Option.map_some, ← u.alone_eq surrogate]
      rfl

/-- A string is as long as it is written, less one for each pair of surrogates. -/
theorem length_of_value {l : Literal} {v : List Char} (h : l.value = some v) :
    v.length ≤ l.length ∧ ((∃ c ∈ l, c.IsSurrogate) → v.length < l.length) := by
  have grows {c : Char} {s : StringChar} {l : Literal} {v : List Char} (plain : ¬ s.IsSurrogate)
      (ih : ∀ v, l.value = some v →
        v.length ≤ l.length ∧ ((∃ c ∈ l, c.IsSurrogate) → v.length < l.length))
      (h : l.value.map (c :: ·) = some v) : v.length ≤ (s :: l).length ∧
        ((∃ c ∈ s :: l, c.IsSurrogate) → v.length < (s :: l).length) := by
    obtain ⟨v, value, rfl⟩ := Option.map_eq_some_iff.mp h
    obtain ⟨le, lt⟩ := ih v value
    refine ⟨Nat.succ_le_succ le, ?_⟩
    rintro ⟨c, mem, surrogate⟩
    rcases List.mem_cons.mp mem with rfl | mem
    · exact absurd surrogate plain
    · exact Nat.succ_lt_succ (lt ⟨c, mem, surrogate⟩)
  fun_induction Literal.value l generalizing v with
  | case1 =>
      cases h
      exact ⟨Nat.le_refl 0, fun ⟨c, mem, _⟩ => absurd mem List.not_mem_nil⟩
  | case2 c unescaped l ih => exact grows id (fun _ => ih) h
  | case3 e l ih => exact grows id (fun _ => ih) h
  | case4 u w l high low ih =>
      obtain ⟨v, value, rfl⟩ := Option.map_eq_some_iff.mp h
      have le := (ih value).1
      simp only [List.length_cons]
      omega
  | case5 u w l high low => cases h
  | case6 u w l high low => cases h
  | case7 u w l high low ih => exact grows (not_or.mpr ⟨high, low⟩) (fun _ => ih) h
  | case8 u l _ surrogate => cases h
  | case9 u l _ surrogate ih => exact grows surrogate (fun _ => ih) h

/-- Code units read one by one are the string exactly when none is a surrogate. -/
theorem alone_eq_iff {l : Literal} {v : List Char} (h : l.value = some v) :
    l.alone = v ↔ ∀ c ∈ l, ¬ c.IsSurrogate := by
  constructor
  · intro alone c mem surrogate
    have lt := (length_of_value h).2 ⟨c, mem, surrogate⟩
    rw [← alone, Literal.alone, List.length_map] at lt
    exact Nat.lt_irrefl _ lt
  · intro none
    exact Option.some.inj ((value_of_none_surrogate none).symm.trans h)

/-! ### Documents -/

inductive Blank where
  | space | tab | lineFeed | carriageReturn
  deriving DecidableEq

def Blank.char : Blank → Char
  | .space => ' '
  | .tab => '\t'
  | .lineFeed => '\n'
  | .carriageReturn => '\r'

def blanks (ws : List Blank) : List Char := ws.map Blank.char

abbrev Digit := Fin 10

def Digit.char (d : Digit) : Char := Char.ofNat ('0'.toNat + d.val)

structure Digits where
  first : Digit
  more : List Digit
  deriving DecidableEq

def Digits.render (d : Digits) : List Char := (d.first :: d.more).map Digit.char

/-- A number does not start with a zero that other digits follow. -/
inductive Whole where
  | zero
  | digits (first : Digit) (first_ne : first.val ≠ 0) (more : List Digit)
  deriving DecidableEq

def Whole.render : Whole → List Char
  | .zero => ['0']
  | .digits first _ more => (first :: more).map Digit.char

inductive Sign where
  | none | plus | minus
  deriving DecidableEq

def Sign.render : Sign → List Char
  | .none => []
  | .plus => ['+']
  | .minus => ['-']

structure Exponent where
  capital : Bool
  sign : Sign
  digits : Digits
  deriving DecidableEq

def Exponent.render (e : Exponent) : List Char :=
  (if e.capital then 'E' else 'e') :: e.sign.render ++ e.digits.render

structure Number where
  negative : Bool
  whole : Whole
  fraction : Option Digits
  exponent : Option Exponent
  deriving DecidableEq

def Number.render (n : Number) : List Char :=
  (if n.negative then ['-'] else []) ++ n.whole.render ++
    (n.fraction.elim [] fun d => '.' :: d.render) ++ n.exponent.elim [] Exponent.render

mutual

inductive Value where
  | null
  | bool (b : Bool)
  | number (n : Number)
  | string (l : Literal)
  | emptyArray (ws : List Blank)
  | array (elements : Elements)
  | emptyObject (ws : List Blank)
  | object (members : Members)

/-- One element or more, each between blanks. -/
inductive Elements where
  | last (before : List Blank) (value : Value) (after : List Blank)
  | more (before : List Blank) (value : Value) (after : List Blank) (rest : Elements)

/-- One member or more, with the blanks around its name and its value. -/
inductive Members where
  | last (before : List Blank) (name : Literal) (gap lead : List Blank) (value : Value)
      (after : List Blank)
  | more (before : List Blank) (name : Literal) (gap lead : List Blank) (value : Value)
      (after : List Blank) (rest : Members)

end

mutual

def Value.render : Value → List Char
  | .null => ['n', 'u', 'l', 'l']
  | .bool true => ['t', 'r', 'u', 'e']
  | .bool false => ['f', 'a', 'l', 's', 'e']
  | .number n => n.render
  | .string l => l.token
  | .emptyArray ws => '[' :: blanks ws ++ [']']
  | .array elements => '[' :: elements.render ++ [']']
  | .emptyObject ws => '{' :: blanks ws ++ ['}']
  | .object members => '{' :: members.render ++ ['}']

def Elements.render : Elements → List Char
  | .last before value after => blanks before ++ value.render ++ blanks after
  | .more before value after rest =>
      blanks before ++ value.render ++ blanks after ++ ',' :: rest.render

def Members.render : Members → List Char
  | .last before name gap lead value after =>
      blanks before ++ name.token ++ blanks gap ++ ':' :: blanks lead ++ value.render ++
        blanks after
  | .more before name gap lead value after rest =>
      blanks before ++ name.token ++ blanks gap ++ ':' :: blanks lead ++ value.render ++
        blanks after ++ ',' :: rest.render

end

/-- What a string is. -/
def Value.text : Value → Option (List Char)
  | .string l => l.value
  | _ => none

/-- A member of an object and where in the text it stands. -/
structure Site where
  before : List Char
  name : Literal
  gap : List Blank
  lead : List Blank
  value : Value
  after : List Char

/-- The text up to the colon of the member. -/
def Site.upToColon (s : Site) : List Char := s.before ++ s.name.token ++ blanks s.gap

def Site.text (s : Site) : List Char :=
  s.upToColon ++ ':' :: (blanks s.lead ++ (s.value.render ++ s.after))

mutual

/-- The members of all objects, where `left` and `right` are the text around the value. -/
def Value.sites (left right : List Char) : Value → List Site
  | .array elements => elements.sites (left ++ ['[']) (']' :: right)
  | .object members => members.sites (left ++ ['{']) ('}' :: right)
  | _ => []

def Elements.sites (left right : List Char) : Elements → List Site
  | .last before value after => value.sites (left ++ blanks before) (blanks after ++ right)
  | .more before value after rest =>
      value.sites (left ++ blanks before) (blanks after ++ ',' :: (rest.render ++ right)) ++
        rest.sites (left ++ blanks before ++ value.render ++ blanks after ++ [',']) right

def Members.sites (left right : List Char) : Members → List Site
  | .last before name gap lead value after =>
      ⟨left ++ blanks before, name, gap, lead, value, blanks after ++ right⟩ ::
        value.sites (left ++ blanks before ++ name.token ++ blanks gap ++ ':' :: blanks lead)
          (blanks after ++ right)
  | .more before name gap lead value after rest =>
      ⟨left ++ blanks before, name, gap, lead, value,
          blanks after ++ ',' :: (rest.render ++ right)⟩ ::
        value.sites (left ++ blanks before ++ name.token ++ blanks gap ++ ':' :: blanks lead)
          (blanks after ++ ',' :: (rest.render ++ right)) ++
        rest.sites (left ++ blanks before ++ name.token ++ blanks gap ++ ':' :: blanks lead ++
          value.render ++ blanks after ++ [',']) right

end

structure Document where
  before : List Blank
  value : Value
  after : List Blank

namespace Document

def render (d : Document) : List Char := blanks d.before ++ d.value.render ++ blanks d.after

def sites (d : Document) : List Site := d.value.sites (blanks d.before) (blanks d.after)

/-- The members with the name `field`, at any depth. -/
def named (d : Document) (field : List Char) : List Site :=
  d.sites.filter fun s => s.name.value = some field

end Document

mutual

theorem Value.text_of_mem_sites {left right : List Char} {s : Site} :
    ∀ v : Value, s ∈ v.sites left right → s.text = left ++ v.render ++ right
  | .array elements, mem => by
      rw [Value.sites] at mem
      rw [elements.text_of_mem_sites mem, Value.render]
      simp only [List.append_assoc, List.cons_append, List.nil_append]
  | .object members, mem => by
      rw [Value.sites] at mem
      rw [members.text_of_mem_sites mem, Value.render]
      simp only [List.append_assoc, List.cons_append, List.nil_append]
  | .null, mem => absurd mem List.not_mem_nil
  | .bool _, mem => absurd mem List.not_mem_nil
  | .number _, mem => absurd mem List.not_mem_nil
  | .string _, mem => absurd mem List.not_mem_nil
  | .emptyArray _, mem => absurd mem List.not_mem_nil
  | .emptyObject _, mem => absurd mem List.not_mem_nil

theorem Elements.text_of_mem_sites {left right : List Char} {s : Site} :
    ∀ elements : Elements, s ∈ elements.sites left right →
      s.text = left ++ elements.render ++ right
  | .last before value after, mem => by
      rw [Elements.sites] at mem
      rw [value.text_of_mem_sites mem, Elements.render]
      simp only [List.append_assoc]
  | .more before value after rest, mem => by
      rw [Elements.sites] at mem
      rcases List.mem_append.mp mem with mem | mem
      · rw [value.text_of_mem_sites mem, Elements.render]
        simp only [List.append_assoc, List.cons_append]
      · rw [rest.text_of_mem_sites mem, Elements.render]
        simp only [List.append_assoc, List.cons_append, List.nil_append]

theorem Members.text_of_mem_sites {left right : List Char} {s : Site} :
    ∀ members : Members, s ∈ members.sites left right →
      s.text = left ++ members.render ++ right
  | .last before name gap lead value after, mem => by
      rw [Members.sites] at mem
      rcases List.mem_cons.mp mem with rfl | mem
      · rw [Members.render]
        simp only [Site.text, Site.upToColon, List.append_assoc, List.cons_append]
      · rw [value.text_of_mem_sites mem, Members.render]
        simp only [List.append_assoc, List.cons_append]
  | .more before name gap lead value after rest, mem => by
      rw [Members.sites, List.cons_append] at mem
      rcases List.mem_cons.mp mem with rfl | mem
      · rw [Members.render]
        simp only [Site.text, Site.upToColon, List.append_assoc, List.cons_append]
      · rcases List.mem_append.mp mem with mem | mem
        · rw [value.text_of_mem_sites mem, Members.render]
          simp only [List.append_assoc, List.cons_append]
        · rw [rest.text_of_mem_sites mem, Members.render]
          simp only [List.append_assoc, List.cons_append, List.nil_append]

end

/-- Every member stands in the text where its site says. -/
theorem Document.text_of_mem_sites {d : Document} {s : Site} (mem : s ∈ d.sites) :
    s.text = d.render := d.value.text_of_mem_sites mem

end HibanaPico.Json
