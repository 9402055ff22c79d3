import HibanaPico.Support.Json
import HibanaPico.Support.Wire
import HibanaPico.UnoQ.LlmCommand

/-!
# Uno Q — The strings of the request

The host writes its prompts into the JSON body of a request, and reads the strings of the response.
It writes character by character, and reads byte by byte with an index.

* `localLlmDecodeJsonString_eq_iff`: what is read is a string token at the start, each code unit by
  itself.
* `localLlmJsonString_eq`: what is written is a string token without surrogates.
* `json_string_round_trip`: every text is read back from what is written of it, whatever follows,
  and each request is a document with just the prompts as its texts.
-/

namespace HibanaPico.UnoQ
open HibanaPico.Transport
open HibanaPico.Wire
open HibanaPico.Json

/-! ### Writing -/

/-- A digit of `{:x}`. -/
def lowerHex (n : Fin 16) : Char :=
  Char.ofNat (if n.val < 10 then '0'.toNat + n.val else 'a'.toNat + (n.val - 10))

def lastNibble (n : ℕ) : Fin 16 := ⟨n % 16, Nat.mod_lt n (Nat.succ_pos 15)⟩

/-- `{:04x}` of a number below `0x10000`. -/
def lowerHex4 (n : ℕ) : List Char :=
  [lowerHex (lastNibble (n / 0x1000)), lowerHex (lastNibble (n / 0x100)),
    lowerHex (lastNibble (n / 0x10)), lowerHex (lastNibble n)]

/-- What `local_llm_json_string` pushes for a character. -/
def localLlmJsonChar (ch : Char) : List Char :=
  match ch with
  | '"' => ['\\', '"']
  | '\\' => ['\\', '\\']
  | '\n' => ['\\', 'n']
  | '\r' => ['\\', 'r']
  | '\t' => ['\\', 't']
  | ch => if ch.toNat < ' '.toNat then ['\\', 'u'] ++ lowerHex4 ch.toNat else [ch]

def localLlmJsonString (value : List Char) : List Char :=
  '"' :: value.flatMap localLlmJsonChar ++ ['"']

/-- The body of a request to `/v1/chat/completions`. -/
def chatBody (system user : List Char) : List Char :=
  "\x7b\"model\":\"local\",\"messages\":[\x7b\"role\":\"system\",\"content\":".toList ++
    localLlmJsonString system ++ "\x7d,\x7b\"role\":\"user\",\"content\":".toList ++
    localLlmJsonString user ++ "\x7d],\"max_tokens\":24,\"temperature\":0\x7d".toList

/-- The body of a request to `/completion`. -/
def completionBody (prompt : List Char) : List Char :=
  "\x7b\"prompt\":".toList ++ localLlmJsonString prompt ++
    ",\"n_predict\":8,\"temperature\":0,\"stop\":[\"\\n\"]\x7d".toList

/-! ### Reading -/

/-- `&input[i..]`; `none` is a panic, at an index inside of a character or behind the end. -/
def sliceFrom : List Char → ℕ → Option (List Char)
  | [], i => if i = 0 then some [] else none
  | ch :: input, i =>
      if i = 0 then some (ch :: input)
      else if ch.utf8Size ≤ i then sliceFrom input (i - ch.utf8Size)
      else none

/-- `char::from_u32`. -/
def charFromU32 (value : ℕ) : Option Char :=
  if value.isValidChar then some (Char.ofNat value) else none

def hexDigit (byte : U8) : Option ℕ :=
  if 0x30 ≤ byte.toNat ∧ byte.toNat ≤ 0x39 then some (byte.toNat - 0x30)
  else if 0x61 ≤ byte.toNat ∧ byte.toNat ≤ 0x66 then some (byte.toNat - 0x61 + 10)
  else if 0x41 ≤ byte.toNat ∧ byte.toNat ≤ 0x46 then some (byte.toNat - 0x41 + 10)
  else none

/-- Four digits do not fill the `u32`. -/
def localLlmDecodeJsonHex4 (bytes : List U8) : Option ℕ :=
  if bytes.length ≠ 4 then none
  else bytes.foldlM (fun value byte => (hexDigit byte).map (value <<< 4 ||| ·)) 0

/-- What a pass of the loop comes to. -/
inductive DecodePass where
  | panics
  | returns (result : Option (List Char))
  | goesOn (i : ℕ) (out : List Char)
  deriving DecidableEq

/-- The escapes of one letter. -/
def unescape (escaped : U8) : Option Char :=
  match escaped.toNat with
  | 0x22 => some '"'
  | 0x5c => some '\\'
  | 0x2f => some '/'
  | 0x62 => some '\x08'
  | 0x66 => some '\x0c'
  | 0x6e => some '\n'
  | 0x72 => some '\r'
  | 0x74 => some '\t'
  | _ => none

/-- What stands behind a backslash, at `i`. -/
def decodeEscape (bytes : List U8) (i : ℕ) (out : List Char) : DecodePass :=
  match bytes[i]? with
  | none => .returns none
  | some escaped =>
      match unescape escaped with
      | some ch => .goesOn (i + 1) (out ++ [ch])
      | none =>
          if escaped.toNat = 0x75 then
            match (getSlice bytes (i + 1) (i + 5)).bind localLlmDecodeJsonHex4 with
            | none => .returns none
            | some value => .goesOn (i + 4 + 1) (out ++ [(charFromU32 value).getD '\ufffd'])
          else .returns none

def decodePass (input : List Char) (i : ℕ) (out : List Char) : DecodePass :=
  match (asBytes input)[i]? with
  | none => .returns none
  | some byte =>
      if byte.toNat = 0x22 then .returns (some out)
      else if byte.toNat = 0x5c then decodeEscape (asBytes input) (i + 1) out
      else if byte.toNat < 0x20 then .returns none
      else
        match sliceFrom input i with
        | none => .panics
        | some [] => .returns none
        | some (ch :: _) => .goesOn (i + ch.utf8Size) (out ++ [ch])

/-- The loop; `none` is a panic, or a loop that has not come to its end. -/
def decodeLoop (input : List Char) : ℕ → ℕ → List Char → Option (Option (List Char))
  | 0, _, _ => none
  | fuel + 1, i, out =>
      match decodePass input i out with
      | .panics => none
      | .returns result => some result
      | .goesOn i out => decodeLoop input fuel i out

def localLlmDecodeJsonString (input : List Char) : Option (Option (List Char)) :=
  if (asBytes input)[0]? = some 0x22#8 then decodeLoop input (asBytes input).length 1 []
  else some none

/-! ### Characters and bytes -/

variable {input before rest out : List Char}

theorem asBytes_append (text more : List Char) :
    asBytes (text ++ more) = asBytes text ++ asBytes more := List.flatMap_append

theorem asBytes_cons (ch : Char) (text : List Char) :
    asBytes (ch :: text) = (String.utf8EncodeChar ch).map UInt8.toBitVec ++ asBytes text :=
  List.flatMap_cons

theorem length_asBytes_cons (ch : Char) (text : List Char) :
    (asBytes (ch :: text)).length = ch.utf8Size + (asBytes text).length := by
  rw [asBytes_cons, List.length_append, List.length_map, String.length_utf8EncodeChar]

theorem utf8EncodeChar_ascii {ch : Char} (ascii : ch.toNat < 128) :
    (String.utf8EncodeChar ch).map UInt8.toBitVec = [BitVec.ofNat 8 ch.toNat] := by
  have value : ch.val.toNat = ch.toNat := rfl
  have small : ch.val.toNat ≤ 0x7f := by omega
  rw [String.utf8EncodeChar, if_pos small]
  rfl

/-- The bytes of an ASCII character and what follows. -/
theorem asBytes_ascii {ch : Char} (ascii : ch.toNat < 128) (text : List Char) :
    asBytes (ch :: text) = BitVec.ofNat 8 ch.toNat :: asBytes text := by
  rw [asBytes_cons, utf8EncodeChar_ascii ascii, List.singleton_append]

/-- An ASCII byte at the start is an ASCII character. -/
theorem ascii_of_asBytes {text : List Char} {byte : U8} {bytes : List U8}
    (h : asBytes text = byte :: bytes) (ascii : byte.toNat < 128) :
    ∃ ch more, text = ch :: more ∧ ch.toNat = byte.toNat ∧ bytes = asBytes more := by
  cases text with
  | nil => cases h
  | cons ch more =>
      have some : (String.utf8EncodeChar ch).map UInt8.toBitVec ≠ [] := fun none => by
        have size := congrArg List.length none
        rw [List.length_map, String.length_utf8EncodeChar] at size
        exact absurd size (Nat.ne_of_gt ch.utf8Size_pos)
      obtain ⟨first, others, encoded⟩ := List.exists_cons_of_ne_nil some
      rw [asBytes_cons, encoded, List.cons_append] at h
      obtain rfl := (List.cons.inj h).1
      have mem : first ∈ (String.utf8EncodeChar ch).map UInt8.toBitVec :=
        encoded ▸ List.mem_cons_self ..
      obtain ⟨code, coded, rfl⟩ := List.mem_map.mp mem
      have same : ch.toNat = code.toNat := toNat_of_mem_utf8EncodeChar coded ascii
      have isAscii : ch.toNat < 128 := by rw [same]; exact ascii
      have alone := utf8EncodeChar_ascii isAscii
      rw [encoded] at alone
      rw [(List.cons.inj alone).2, List.nil_append] at h
      exact ⟨ch, more, rfl, same, (List.cons.inj h).2.symm⟩

/-- The first byte of a character: one is ASCII as the other is, and then both are the same. -/
theorem exists_firstByte (ch : Char) (text : List Char) :
    ∃ byte bytes, asBytes (ch :: text) = byte :: bytes ∧
      (byte.toNat < 128 ∨ ch.toNat < 128 → ch.toNat = byte.toNat) := by
  have some : asBytes (ch :: text) ≠ [] := fun none => by
    have size := congrArg List.length none
    have positive := ch.utf8Size_pos
    rw [length_asBytes_cons, List.length_nil] at size
    omega
  obtain ⟨byte, bytes, encoded⟩ := List.exists_cons_of_ne_nil some
  refine ⟨byte, bytes, encoded, ?_⟩
  rintro (ascii | ascii)
  · obtain ⟨ch', more, same, value, -⟩ := ascii_of_asBytes encoded ascii
    rw [(List.cons.inj same).1, value]
  · rw [asBytes_ascii ascii] at encoded
    rw [← (List.cons.inj encoded).1, BitVec.toNat_ofNat, Nat.mod_eq_of_lt (by omega)]

theorem asBytes_chars (u : CodeUnit) (more : List Char) :
    asBytes (u.chars ++ more) =
      (u.chars.map fun ch => BitVec.ofNat 8 ch.toNat) ++ asBytes more := by
  rw [CodeUnit.chars, List.cons_append, List.cons_append, List.cons_append, List.cons_append,
    asBytes_ascii u.first.ascii, asBytes_ascii u.second.ascii, asBytes_ascii u.third.ascii,
    asBytes_ascii u.fourth.ascii]
  rfl

/-- The index of a character is the length of the bytes before it. -/
theorem getElem?_asBytes (before rest : List Char) (k : ℕ) :
    (asBytes (before ++ rest))[(asBytes before).length + k]? = (asBytes rest)[k]? := by
  rw [asBytes_append, List.getElem?_append_right (Nat.le_add_right ..), Nat.add_sub_cancel_left]

theorem sliceFrom_asBytes (before rest : List Char) :
    sliceFrom (before ++ rest) (asBytes before).length = some rest := by
  induction before with
  | nil =>
      cases rest with
      | nil => rfl
      | cons ch rest => rfl
  | cons ch before ih =>
      have positive := ch.utf8Size_pos
      have size : ch.utf8Size + (asBytes before).length - ch.utf8Size = (asBytes before).length :=
        Nat.add_sub_cancel_left ..
      rw [length_asBytes_cons, List.cons_append, sliceFrom, if_neg (by omega),
        if_pos (Nat.le_add_right ..), size, ih]

/-! ### A pass -/

theorem hexDigit_eq {byte : U8} {ch : Char} (h : ch.toNat = byte.toNat) :
    hexDigit byte = hexValue ch := by
  rw [hexDigit, hexValue, h]
  rfl

theorem hexDigit_ascii {byte : U8} {digit : ℕ} (h : hexDigit byte = some digit) :
    byte.toNat < 128 := by
  rw [hexDigit] at h
  split at h
  next => omega
  next =>
    split at h
    next => omega
    next =>
      split at h
      next => omega
      next => cases h

theorem shiftLeft_or (n : ℕ) {digit : ℕ} (h : digit < 16) : n <<< 4 ||| digit = n * 16 + digit := by
  rw [← Nat.shiftLeft_add_eq_or_of_lt (i := 4) h, Nat.shiftLeft_eq]

theorem localLlmDecodeJsonHex4_chars (u : CodeUnit) :
    localLlmDecodeJsonHex4 (u.chars.map fun ch => BitVec.ofNat 8 ch.toNat) = some u.value := by
  have digit (d : HexDigit) : hexDigit (BitVec.ofNat 8 d.char.toNat) = some d.value := by
    have ascii := d.ascii
    have value : d.char.toNat = (BitVec.ofNat 8 d.char.toNat).toNat := by
      rw [BitVec.toNat_ofNat, Nat.mod_eq_of_lt (by omega)]
    rw [hexDigit_eq value]
    exact d.reads
  have zero : 0 <<< 4 ||| u.first.value = u.first.value := by
    rw [shiftLeft_or 0 u.first.value_lt, Nat.zero_mul, Nat.zero_add]
  rw [localLlmDecodeJsonHex4, CodeUnit.chars]
  simp only [List.map_cons, List.map_nil, List.length_cons, List.length_nil, ne_eq,
    not_true_eq_false, if_false, List.foldlM_cons, List.foldlM_nil, digit, Option.map_some,
    Option.bind_eq_bind, Option.bind_some, zero, shiftLeft_or _ (HexDigit.value_lt _)]
  rfl

theorem hexDigit_of_mem {bytes : List U8} {acc value : ℕ} (h : bytes.foldlM
    (fun value byte => (hexDigit byte).map (value <<< 4 ||| ·)) acc = some value) :
    ∀ byte ∈ bytes, ∃ digit, hexDigit byte = some digit := by
  induction bytes generalizing acc with
  | nil => exact fun byte mem => absurd mem List.not_mem_nil
  | cons first bytes ih =>
      rw [List.foldlM_cons, Option.bind_eq_bind, Option.bind_eq_some_iff] at h
      obtain ⟨acc', read, h⟩ := h
      obtain ⟨digit, isDigit, -⟩ := Option.map_eq_some_iff.mp read
      intro byte mem
      rcases List.mem_cons.mp mem with rfl | mem
      · exact ⟨digit, isDigit⟩
      · exact ih h byte mem

/-- Bytes that are digits are the digits of the text. -/
theorem exists_digits {n : ℕ} {text : List Char} (long : n ≤ (asBytes text).length)
    (h : ∀ byte ∈ (asBytes text).take n, ∃ digit, hexDigit byte = some digit) :
    ∃ (digits : List HexDigit) (more : List Char),
      digits.length = n ∧ text = digits.map HexDigit.char ++ more := by
  induction n generalizing text with
  | zero => exact ⟨[], text, rfl, rfl⟩
  | succ n ih =>
      obtain ⟨byte, bytes, encoded⟩ := List.exists_cons_of_length_pos (Nat.lt_of_lt_of_le
        (Nat.succ_pos n) long)
      rw [encoded, List.take_succ_cons] at h
      rw [encoded, List.length_cons] at long
      obtain ⟨digit, isDigit⟩ := h byte (List.mem_cons_self ..)
      obtain ⟨ch, more, rfl, value, rfl⟩ := ascii_of_asBytes encoded (hexDigit_ascii isDigit)
      obtain ⟨digits, more, size, rfl⟩ := ih (Nat.le_of_succ_le_succ long) fun byte mem =>
        h byte (List.mem_cons_of_mem _ mem)
      rw [hexDigit_eq value] at isDigit
      exact ⟨⟨ch, digit, isDigit⟩ :: digits, more, congrArg (· + 1) size, rfl⟩

/-- Four bytes are read as digits only if they are digits. -/
theorem exists_chars_of_hex4 {text : List Char} {digits : List U8} {value : ℕ}
    (slice : getSlice (asBytes text) 0 4 = some digits)
    (h : localLlmDecodeJsonHex4 digits = some value) :
    ∃ (u : CodeUnit) (more : List Char), text = u.chars ++ more := by
  rw [getSlice] at slice
  split at slice
  next bounds =>
    obtain rfl := Option.some.inj slice
    rw [List.drop_zero] at h
    rw [localLlmDecodeJsonHex4] at h
    split at h
    next => cases h
    next =>
      obtain ⟨digits, more, size, rfl⟩ := exists_digits bounds.2 (hexDigit_of_mem h)
      obtain ⟨first, digits, rfl⟩ := List.exists_cons_of_length_eq_add_one size
      obtain ⟨second, digits, rfl⟩ :=
        List.exists_cons_of_length_eq_add_one (Nat.succ.inj size)
      obtain ⟨third, digits, rfl⟩ :=
        List.exists_cons_of_length_eq_add_one (Nat.succ.inj (Nat.succ.inj size))
      obtain ⟨fourth, digits, rfl⟩ :=
        List.exists_cons_of_length_eq_add_one (Nat.succ.inj (Nat.succ.inj (Nat.succ.inj size)))
      obtain rfl := List.eq_nil_of_length_eq_zero
        (Nat.succ.inj (Nat.succ.inj (Nat.succ.inj (Nat.succ.inj size))))
      exact ⟨⟨first, second, third, fourth⟩, more, rfl⟩
  next => cases slice

theorem letter_ascii (e : Escape) : e.letter.toNat < 128 := by
  cases e <;> decide

theorem unescape_letter (e : Escape) :
    unescape (BitVec.ofNat 8 e.letter.toNat) = some e.value := by
  cases e <;> rfl

theorem exists_letter_of_unescape {escaped : U8} {ch : Char} (h : unescape escaped = some ch) :
    ∃ e : Escape, escaped.toNat = e.letter.toNat := by
  rw [unescape] at h
  split at h
  next value => exact ⟨.quote, value⟩
  next value => exact ⟨.backslash, value⟩
  next value => exact ⟨.slash, value⟩
  next value => exact ⟨.backspace, value⟩
  next value => exact ⟨.formFeed, value⟩
  next value => exact ⟨.lineFeed, value⟩
  next value => exact ⟨.carriageReturn, value⟩
  next value => exact ⟨.tab, value⟩
  next => cases h

theorem decodePass_at (byte : U8) (bytes : List U8) (h : asBytes rest = byte :: bytes) :
    decodePass (before ++ rest) (asBytes before).length out =
      if byte.toNat = 0x22 then .returns (some out)
      else if byte.toNat = 0x5c then
        decodeEscape (asBytes (before ++ rest)) ((asBytes before).length + 1) out
      else if byte.toNat < 0x20 then .returns none
      else match rest with
        | [] => .returns none
        | ch :: _ => .goesOn ((asBytes before).length + ch.utf8Size) (out ++ [ch]) := by
  have get : (asBytes (before ++ rest))[(asBytes before).length]? = some byte := by
    have at_zero := getElem?_asBytes before rest 0
    rw [Nat.add_zero] at at_zero
    rw [at_zero, h, List.getElem?_cons_zero]
  rw [decodePass, get, sliceFrom_asBytes]
  cases rest with
  | nil => rfl
  | cons ch rest => rfl

/-- The quotation mark ends the string. -/
theorem decodePass_quote :
    decodePass (before ++ '"' :: rest) (asBytes before).length out = .returns (some out) := by
  rw [decodePass_at _ _ (asBytes_ascii (by decide) rest)]
  rfl

theorem decodeEscape_letter (e : Escape) :
    decodeEscape (asBytes (before ++ ('\\' :: e.letter :: rest)))
        ((asBytes before).length + 1) out =
      .goesOn ((asBytes before).length + 1 + 1) (out ++ [e.value]) := by
  have get : (asBytes (before ++ ('\\' :: e.letter :: rest)))[(asBytes before).length + 1]? =
      some (BitVec.ofNat 8 e.letter.toNat) := by
    rw [getElem?_asBytes, asBytes_ascii (by decide), asBytes_ascii (letter_ascii e)]
    rfl
  rw [decodeEscape, get]
  show (match unescape (BitVec.ofNat 8 e.letter.toNat) with
    | some ch => DecodePass.goesOn ((asBytes before).length + 1 + 1) (out ++ [ch])
    | none => _) = _
  rw [unescape_letter]

theorem decodeEscape_unicode (u : CodeUnit) :
    decodeEscape (asBytes (before ++ ('\\' :: 'u' :: (u.chars ++ rest))))
        ((asBytes before).length + 1) out =
      .goesOn ((asBytes before).length + 1 + 4 + 1) (out ++ [u.alone]) := by
  have encoded : asBytes ('\\' :: 'u' :: (u.chars ++ rest)) =
      [0x5c#8, 0x75#8] ++ (u.chars.map fun ch => BitVec.ofNat 8 ch.toNat) ++ asBytes rest := by
    rw [asBytes_ascii (by decide), asBytes_ascii (by decide), asBytes_chars]
    rfl
  have get : (asBytes (before ++ ('\\' :: 'u' :: (u.chars ++ rest))))[
      (asBytes before).length + 1]? = some 0x75#8 := by
    rw [getElem?_asBytes, encoded]
    rfl
  have slice : getSlice (asBytes (before ++ ('\\' :: 'u' :: (u.chars ++ rest))))
      ((asBytes before).length + 2) ((asBytes before).length + 6) =
        some (u.chars.map fun ch => BitVec.ofNat 8 ch.toNat) := by
    rw [asBytes_append, getSlice_append, encoded]
    exact getSlice_next rfl rfl
  have hex : (getSlice (asBytes (before ++ ('\\' :: 'u' :: (u.chars ++ rest))))
      ((asBytes before).length + 2) ((asBytes before).length + 6)).bind localLlmDecodeJsonHex4 =
        some u.value := by
    rw [slice, Option.bind_some, localLlmDecodeJsonHex4_chars]
  rw [decodeEscape, get]
  show (match (getSlice (asBytes (before ++ ('\\' :: 'u' :: (u.chars ++ rest))))
      ((asBytes before).length + 2) ((asBytes before).length + 6)).bind localLlmDecodeJsonHex4 with
    | none => DecodePass.returns none
    | some value => .goesOn ((asBytes before).length + 1 + 4 + 1)
        (out ++ [(charFromU32 value).getD '\ufffd'])) = _
  rw [hex]
  have alone : (charFromU32 u.value).getD '\ufffd' = u.alone := by
    rw [charFromU32, CodeUnit.alone]
    split
    next => rfl
    next => rfl
  rw [← alone]

/-- A character of the string is read by itself, to its end. -/
theorem decodePass_render (c : StringChar) :
    decodePass (before ++ (c.render ++ rest)) (asBytes before).length out =
      .goesOn (asBytes (before ++ c.render)).length (out ++ [c.alone]) := by
  cases c with
  | plain ch unescaped =>
      obtain ⟨byte, bytes, encoded, ascii⟩ := exists_firstByte ch rest
      have quote : byte.toNat ≠ 0x22 := fun h =>
        unescaped.2.1 (Char.toNat_inj.mp ((ascii (.inl (by omega))).trans h))
      have backslash : byte.toNat ≠ 0x5c := fun h =>
        unescaped.2.2 (Char.toNat_inj.mp ((ascii (.inl (by omega))).trans h))
      have control : ¬ byte.toNat < 0x20 := fun h => by
        have value := ascii (.inl (by omega))
        have printed : 0x20 ≤ ch.toNat := unescaped.1
        omega
      have size : (asBytes (before ++ [ch])).length = (asBytes before).length + ch.utf8Size := by
        rw [asBytes_append, List.length_append, length_asBytes_cons]
        rfl
      show decodePass (before ++ ch :: rest) _ _ = .goesOn (asBytes (before ++ [ch])).length _
      rw [decodePass_at byte bytes encoded, if_neg quote, if_neg backslash, if_neg control, size]
      rfl
  | escaped e =>
      have size : (asBytes (before ++ ['\\', e.letter])).length =
          (asBytes before).length + 1 + 1 := by
        rw [asBytes_append, List.length_append, asBytes_ascii (by decide),
          asBytes_ascii (letter_ascii e)]
        rfl
      show decodePass (before ++ '\\' :: (e.letter :: rest)) _ _ =
        .goesOn (asBytes (before ++ ['\\', e.letter])).length _
      rw [decodePass_at _ _ (asBytes_ascii (by decide) _), size]
      exact decodeEscape_letter e
  | unicode u =>
      have size : (asBytes (before ++ ('\\' :: 'u' :: u.chars))).length =
          (asBytes before).length + 1 + 4 + 1 := by
        rw [asBytes_append, List.length_append, asBytes_ascii (by decide),
          asBytes_ascii (by decide), ← List.append_nil u.chars, asBytes_chars]
        rfl
      show decodePass (before ++ '\\' :: ('u' :: (u.chars ++ rest))) _ _ =
        .goesOn (asBytes (before ++ ('\\' :: 'u' :: u.chars))).length _
      rw [decodePass_at _ _ (asBytes_ascii (by decide) _), size]
      exact decodeEscape_unicode u

theorem decodeEscape_stuck (notChar : ∀ (c : StringChar) more, '\\' :: rest ≠ c.render ++ more) :
    decodeEscape (asBytes (before ++ '\\' :: rest)) ((asBytes before).length + 1) out =
      .returns none := by
  have get : (asBytes (before ++ '\\' :: rest))[(asBytes before).length + 1]? =
      (asBytes rest)[0]? := by
    rw [getElem?_asBytes, asBytes_ascii (by decide), List.getElem?_cons_succ]
  rw [decodeEscape, get]
  cases rest with
  | nil => rfl
  | cons letter rest =>
      obtain ⟨byte, bytes, encoded, ascii⟩ := exists_firstByte letter rest
      rw [encoded, List.getElem?_cons_zero]
      show (match unescape byte with | some ch => _ | none => _) = _
      split
      next ch known =>
        obtain ⟨e, value⟩ := exists_letter_of_unescape known
        have small := letter_ascii e
        obtain rfl : letter = e.letter :=
          Char.toNat_inj.mp ((ascii (.inl (by omega))).trans value)
        exact absurd rfl (notChar (.escaped e) rest)
      next =>
        split
        next isU =>
          obtain rfl : letter = 'u' := Char.toNat_inj.mp ((ascii (.inl (by omega))).trans isU)
          have slice : getSlice (asBytes (before ++ '\\' :: 'u' :: rest))
              ((asBytes before).length + 1 + 1) ((asBytes before).length + 1 + 5) =
                getSlice (asBytes rest) 0 4 := by
            have moved := getSlice_append [0x5c#8, 0x75#8] (asBytes rest) 0 4
            rw [asBytes_append, asBytes_ascii (by decide), asBytes_ascii (by decide)]
            exact (getSlice_append (asBytes before) _ 2 6).trans moved
          rw [slice]
          cases digits : getSlice (asBytes rest) 0 4 with
          | none => rfl
          | some digits' =>
              rw [Option.bind_some]
              cases value : localLlmDecodeJsonHex4 digits' with
              | none => rfl
              | some value' =>
                  obtain ⟨u, more, rfl⟩ := exists_chars_of_hex4 digits value
                  exact absurd rfl (notChar (.unicode u) more)
        next => rfl

/-- Where neither the end nor a character of a string stands, nothing is returned. -/
theorem decodePass_stuck (notQuote : ∀ more, rest ≠ '"' :: more)
    (notChar : ∀ (c : StringChar) more, rest ≠ c.render ++ more) :
    decodePass (before ++ rest) (asBytes before).length out = .returns none := by
  cases rest with
  | nil =>
      have get : (asBytes (before ++ []))[(asBytes before).length]? = none := by
        rw [List.append_nil]
        exact List.getElem?_eq_none (Nat.le_refl _)
      rw [decodePass, get]
  | cons ch rest =>
      obtain ⟨byte, bytes, encoded, ascii⟩ := exists_firstByte ch rest
      rw [decodePass_at byte bytes encoded]
      split
      next quote =>
        have isQuote : ch = '"' := Char.toNat_inj.mp ((ascii (.inl (by omega))).trans quote)
        exact absurd (congrArg (· :: rest) isQuote) (notQuote rest)
      next notQuoteByte =>
        split
        next backslash =>
          obtain rfl : ch = '\\' := Char.toNat_inj.mp ((ascii (.inl (by omega))).trans backslash)
          exact decodeEscape_stuck fun c more same => notChar c more same
        next notBackslash =>
          split
          next => rfl
          next printed =>
            -- such a character stands for itself
            have unescaped : Unescaped ch := by
              refine ⟨Nat.le_of_not_lt fun control => ?_, ?_, ?_⟩
              · have isControl : ch.toNat < 32 := control
                have value := ascii (.inr (by omega))
                omega
              · rintro rfl
                exact notQuoteByte (ascii (.inr (by decide))).symm
              · rintro rfl
                exact notBackslash (ascii (.inr (by decide))).symm
            exact absurd rfl (notChar (.plain ch unescaped) rest)

/-! ### The loop -/

theorem length_asBytes_render (c : StringChar) : 0 < (asBytes c.render).length := by
  obtain ⟨ch, more, same⟩ : ∃ ch more, c.render = ch :: more := by
    cases c with
    | plain ch unescaped => exact ⟨ch, [], rfl⟩
    | escaped e => exact ⟨'\\', [e.letter], rfl⟩
    | unicode u => exact ⟨'\\', 'u' :: u.chars, rfl⟩
  rw [same, length_asBytes_cons]
  exact Nat.add_pos_left ch.utf8Size_pos _

/-- `rest` is the rest of a string, and makes `text` of what is read already. -/
def Completes (rest out text : List Char) : Prop :=
  ∃ (l : Literal) (more : List Char), rest = l.body ++ '"' :: more ∧ text = out ++ l.alone

variable {text : List Char}

theorem completes_quote : Completes ('"' :: rest) out text ↔ text = out := by
  constructor
  · rintro ⟨l, more, same, rfl⟩
    have none : Literal.body [] ++ '"' :: rest = l.body ++ '"' :: more := same
    obtain ⟨rfl, -⟩ := body_append_inj none
    exact List.append_nil out
  · rintro rfl
    exact ⟨[], rest, rfl, (List.append_nil text).symm⟩

/-- A character of the string is read already, or is still to be read. -/
theorem completes_render (c : StringChar) :
    Completes (c.render ++ rest) out text ↔ Completes rest (out ++ [c.alone]) text := by
  constructor
  · rintro ⟨l, more, same, rfl⟩
    cases l with
    | nil => exact (render_ne_quote c same).elim
    | cons c' l =>
        rw [Literal.body_cons, List.append_assoc] at same
        obtain ⟨rfl, rest⟩ := render_append_inj same
        exact ⟨l, more, rest, by rw [List.append_assoc]; rfl⟩
  · rintro ⟨l, more, rfl, rfl⟩
    refine ⟨c :: l, more, ?_, ?_⟩
    · rw [Literal.body_cons, List.append_assoc]
    · rw [List.append_assoc]
      rfl

theorem not_completes (notQuote : ∀ more, rest ≠ '"' :: more)
    (notChar : ∀ (c : StringChar) more, rest ≠ c.render ++ more) : ¬ Completes rest out text := by
  rintro ⟨l, more, rfl, -⟩
  cases l with
  | nil => exact notQuote more rfl
  | cons c l => exact notChar c _ (by rw [Literal.body_cons, List.append_assoc])

/-- The loop comes to its end, and returns what stands up to the next quotation mark. -/
theorem decodeLoop_spec (before out : List Char) {fuel : ℕ}
    (enough : (asBytes rest).length < fuel) :
    ∃ result, decodeLoop (before ++ rest) fuel (asBytes before).length out = some result ∧
      ∀ text, result = some text ↔ Completes rest out text := by
  induction fuel generalizing before out rest with
  | zero => exact absurd enough (Nat.not_lt_zero _)
  | succ fuel ih =>
      by_cases quote : ∃ more, rest = '"' :: more
      · obtain ⟨more, rfl⟩ := quote
        refine ⟨some out, by rw [decodeLoop, decodePass_quote], fun text => ?_⟩
        rw [completes_quote, Option.some_inj, eq_comm]
      by_cases char : ∃ (c : StringChar) (more : List Char), rest = c.render ++ more
      · obtain ⟨c, more, rfl⟩ := char
        have shorter : (asBytes more).length < fuel := by
          have positive := length_asBytes_render c
          rw [asBytes_append, List.length_append] at enough
          omega
        obtain ⟨result, returned, spec⟩ := ih (before ++ c.render) (out ++ [c.alone]) shorter
        refine ⟨result, ?_, fun text => ?_⟩
        · rw [decodeLoop, decodePass_render]
          rw [List.append_assoc] at returned
          exact returned
        · rw [spec, completes_render]
      · have notQuote : ∀ more, rest ≠ '"' :: more := fun more same => quote ⟨more, same⟩
        have notChar : ∀ (c : StringChar) more, rest ≠ c.render ++ more :=
          fun c more same => char ⟨c, more, same⟩
        refine ⟨none, by rw [decodeLoop, decodePass_stuck notQuote notChar], fun text => ?_⟩
        constructor
        · intro same
          cases same
        · intro completes
          exact absurd completes (not_completes notQuote notChar)

/-- What is read is a string token at the start, with each code unit by itself. -/
theorem localLlmDecodeJsonString_spec (input : List Char) :
    ∃ result, localLlmDecodeJsonString input = some result ∧ ∀ text, result = some text ↔
      ∃ (l : Literal) (more : List Char), input = l.token ++ more ∧ text = l.alone := by
  rw [localLlmDecodeJsonString]
  split
  next quote =>
    obtain ⟨byte, bytes, encoded⟩ : ∃ byte bytes, asBytes input = byte :: bytes := by
      cases encoded : asBytes input with
      | nil => rw [encoded] at quote; cases quote
      | cons byte bytes => exact ⟨byte, bytes, rfl⟩
    rw [encoded, List.getElem?_cons_zero] at quote
    obtain rfl := Option.some.inj quote
    obtain ⟨ch, rest, rfl, value, rfl⟩ := ascii_of_asBytes encoded (by decide)
    obtain rfl : ch = '"' := Char.toNat_inj.mp value
    have enough : (asBytes rest).length < (asBytes ('"' :: rest)).length := by
      rw [asBytes_ascii (by decide)]
      exact Nat.lt_succ_self _
    obtain ⟨result, returned, spec⟩ := decodeLoop_spec ['"'] [] enough
    refine ⟨result, returned, fun text => ?_⟩
    rw [spec]
    constructor
    · rintro ⟨l, more, rfl, rfl⟩
      exact ⟨l, more, (Literal.token_append l more).symm, rfl⟩
    · rintro ⟨l, more, same, rfl⟩
      rw [Literal.token_append] at same
      exact ⟨l, more, (List.cons.inj same).2, rfl⟩
  next other =>
    refine ⟨none, rfl, fun text => ?_⟩
    constructor
    · intro same
      cases same
    · rintro ⟨l, more, rfl, -⟩
      refine absurd ?_ other
      rw [Literal.token_append, asBytes_ascii (by decide)]
      rfl

theorem localLlmDecodeJsonString_eq_iff :
    localLlmDecodeJsonString input = some (some text) ↔
      ∃ (l : Literal) (more : List Char), input = l.token ++ more ∧ text = l.alone := by
  obtain ⟨result, returned, spec⟩ := localLlmDecodeJsonString_spec input
  rw [returned, Option.some_inj, spec]

/-! ### What is written -/

/-- A digit as `{:x}` writes it. -/
def hexDigitOf (n : Fin 16) : HexDigit where
  char := lowerHex n
  value := n.val
  reads := by revert n; decide

def codeUnitOf (n : ℕ) : CodeUnit where
  first := hexDigitOf (lastNibble (n / 0x1000))
  second := hexDigitOf (lastNibble (n / 0x100))
  third := hexDigitOf (lastNibble (n / 0x10))
  fourth := hexDigitOf (lastNibble n)

def stringCharOf (ch : Char) : StringChar :=
  match ch with
  | '"' => .escaped .quote
  | '\\' => .escaped .backslash
  | '\n' => .escaped .lineFeed
  | '\r' => .escaped .carriageReturn
  | '\t' => .escaped .tab
  | ch => if unescaped : Unescaped ch then .plain ch unescaped else .unicode (codeUnitOf ch.toNat)

/-- The string that `local_llm_json_string` writes. -/
def literalOf (value : List Char) : Literal := value.map stringCharOf

theorem value_codeUnitOf {n : ℕ} (h : n < 0x10000) : (codeUnitOf n).value = n := by
  show ((n / 0x1000 % 16 * 16 + n / 0x100 % 16) * 16 + n / 0x10 % 16) * 16 + n % 16 = n
  omega

theorem stringCharOf_spec (ch : Char) : (stringCharOf ch).render = localLlmJsonChar ch ∧
    (stringCharOf ch).alone = ch ∧ ¬ (stringCharOf ch).IsSurrogate := by
  unfold stringCharOf localLlmJsonChar
  split
  next => exact ⟨rfl, rfl, id⟩
  next => exact ⟨rfl, rfl, id⟩
  next => exact ⟨rfl, rfl, id⟩
  next => exact ⟨rfl, rfl, id⟩
  next => exact ⟨rfl, rfl, id⟩
  next quote backslash _ _ _ =>
    by_cases unescaped : Unescaped ch
    · rw [dif_pos unescaped, if_neg (Nat.not_lt.mpr unescaped.1)]
      exact ⟨rfl, rfl, id⟩
    · have control : ch.toNat < ' '.toNat := Nat.lt_of_not_le fun printed =>
        unescaped ⟨printed, fun same => quote same, fun same => backslash same⟩
      have small : ch.toNat < 32 := control
      have value : (codeUnitOf ch.toNat).value = ch.toNat := value_codeUnitOf (by omega)
      have character : ¬ ((codeUnitOf ch.toNat).IsHigh ∨ (codeUnitOf ch.toNat).IsLow) := by
        rw [CodeUnit.IsHigh, CodeUnit.IsLow, value]
        omega
      rw [dif_neg unescaped, if_pos control]
      refine ⟨rfl, ?_, character⟩
      show (codeUnitOf ch.toNat).alone = ch
      rw [CodeUnit.alone_eq character, value, Char.ofNat_toNat]

theorem localLlmJsonString_eq (value : List Char) :
    localLlmJsonString value = (literalOf value).token := by
  have body : value.flatMap localLlmJsonChar = (literalOf value).body := by
    rw [literalOf, Literal.body, List.flatMap_map]
    exact congrArg (value.flatMap ·) (funext fun ch => (stringCharOf_spec ch).1.symm)
  rw [localLlmJsonString, body, Literal.token]

theorem alone_literalOf (value : List Char) : (literalOf value).alone = value := by
  rw [literalOf, Literal.alone, List.map_map]
  calc value.map (StringChar.alone ∘ stringCharOf)
      _ = value.map id := congrArg (value.map ·) (funext fun ch => (stringCharOf_spec ch).2.1)
      _ = value := List.map_id value

theorem not_isSurrogate_literalOf (value : List Char) : ∀ c ∈ literalOf value, ¬ c.IsSurrogate := by
  intro c mem
  obtain ⟨ch, -, rfl⟩ := List.mem_map.mp mem
  exact (stringCharOf_spec ch).2.2

theorem value_literalOf (value : List Char) : (literalOf value).value = some value := by
  rw [value_of_none_surrogate (not_isSurrogate_literalOf value), alone_literalOf]

/-! ### The requests -/

def nameOf (name : String) : Literal := literalOf name.toList

/-- A member without white space, the last of its object. -/
def lastMember (name : String) (value : Value) : Members :=
  .last [] (nameOf name) [] [] value []

/-- A member without white space, and those behind it. -/
def moreMember (name : String) (value : Value) (rest : Members) : Members :=
  .more [] (nameOf name) [] [] value [] rest

def chatMessage (role : String) (content : List Char) : Value :=
  .object (moreMember "role" (.string (nameOf role))
    (lastMember "content" (.string (literalOf content))))

def wholeNumber (first : Digit) (first_ne : first.val ≠ 0) (more : List Digit) : Value :=
  .number ⟨false, .digits first first_ne more, none, none⟩

def zeroNumber : Value := .number ⟨false, .zero, none, none⟩

def chatDocument (system user : List Char) : Document where
  before := []
  value := .object (moreMember "model" (.string (nameOf "local")) (moreMember "messages"
    (.array (.more [] (chatMessage "system" system) [] (.last [] (chatMessage "user" user) [])))
    (moreMember "max_tokens" (wholeNumber ⟨2, by decide⟩ (by decide) [⟨4, by decide⟩])
      (lastMember "temperature" zeroNumber))))
  after := []

def completionDocument (prompt : List Char) : Document where
  before := []
  value := .object (moreMember "prompt" (.string (literalOf prompt)) (moreMember "n_predict"
    (wholeNumber ⟨8, by decide⟩ (by decide) []) (moreMember "temperature" zeroNumber
      (lastMember "stop" (.array (.last [] (.string (nameOf "\n")) []))))))
  after := []

theorem render_completionDocument (prompt : List Char) :
    (completionDocument prompt).render = completionBody prompt := by
  have head : '{' :: (nameOf "prompt").token ++ [':'] = "\x7b\"prompt\":".toList := by
    decide +kernel
  have tail : ',' :: (nameOf "n_predict").token ++ ":8,".toList ++ (nameOf "temperature").token ++
      ":0,".toList ++ (nameOf "stop").token ++ ":[".toList ++ (nameOf "\n").token ++
        "]\x7d".toList =
          ",\"n_predict\":8,\"temperature\":0,\"stop\":[\"\\n\"]\x7d".toList := by decide +kernel
  unfold completionBody
  rw [localLlmJsonString_eq, ← head, ← tail]
  simp only [Document.render, completionDocument, moreMember, lastMember, Value.render,
    Members.render, Elements.render, blanks, List.map_nil, List.nil_append, List.append_nil,
    List.append_assoc, List.cons_append]
  rfl

theorem render_chatDocument (system user : List Char) :
    (chatDocument system user).render = chatBody system user := by
  have head : '{' :: (nameOf "model").token ++ [':'] ++ (nameOf "local").token ++ [','] ++
      (nameOf "messages").token ++ ":[\x7b".toList ++ (nameOf "role").token ++ [':'] ++
        (nameOf "system").token ++ [','] ++ (nameOf "content").token ++ [':'] =
          "\x7b\"model\":\"local\",\"messages\":[\x7b\"role\":\"system\",\"content\":".toList := by
    decide +kernel
  have middle : "\x7d,\x7b".toList ++ (nameOf "role").token ++ [':'] ++
      (nameOf "user").token ++ [','] ++ (nameOf "content").token ++ [':'] =
        "\x7d,\x7b\"role\":\"user\",\"content\":".toList := by
    decide +kernel
  have tail : "\x7d],".toList ++ (nameOf "max_tokens").token ++ ":24,".toList ++
      (nameOf "temperature").token ++ ":0\x7d".toList =
        "\x7d],\"max_tokens\":24,\"temperature\":0\x7d".toList := by decide +kernel
  unfold chatBody
  rw [localLlmJsonString_eq, localLlmJsonString_eq, ← head, ← middle, ← tail]
  simp only [Document.render, chatDocument, chatMessage, moreMember, lastMember, Value.render,
    Members.render, Elements.render, blanks, List.map_nil, List.nil_append, List.append_nil,
    List.append_assoc, List.cons_append]
  rfl

theorem value_nameOf_iff (name field : String) :
    (nameOf name).value = some field.toList ↔ name = field := by
  rw [nameOf, value_literalOf, Option.some_inj, String.toList_inj]

theorem named_chatDocument (system user : List Char) :
    ((chatDocument system user).named "content".toList).map (fun s => s.value.text) =
      [some system, some user] := by
  rw [← value_literalOf system, ← value_literalOf user]
  simp only [Document.named, Document.sites, chatDocument, chatMessage, moreMember, lastMember,
    wholeNumber, zeroNumber, Value.sites, Members.sites, Elements.sites, List.filter_cons,
    List.filter_append, List.filter_nil, value_nameOf_iff, String.reduceEq]
  rfl

theorem named_completionDocument (prompt : List Char) :
    ((completionDocument prompt).named "prompt".toList).map (fun s => s.value.text) =
      [some prompt] := by
  rw [← value_literalOf prompt]
  simp only [Document.named, Document.sites, completionDocument, moreMember, lastMember,
    wholeNumber, zeroNumber, Value.sites, Members.sites, Elements.sites, List.filter_cons,
    List.filter_append, List.filter_nil, value_nameOf_iff, String.reduceEq]
  rfl

/-- **The strings of the request.**  Every text is read back from what is written of it, whatever
follows.  What is written is a string token of JSON, without a control character, where no other
token starts and which ends at its own quotation mark.  With any texts in their places the bodies of
the requests are documents, and these are what the documents have there. -/
theorem json_string_round_trip :
    (∀ s t, localLlmDecodeJsonString (localLlmJsonString s ++ t) = some (some s)) ∧
    (∀ s, ∃ l : Literal, localLlmJsonString s = l.token ∧ l.value = some s ∧
      ∀ ch ∈ l.body, ' '.toNat ≤ ch.toNat) ∧
    (∀ s t (l : Literal) t', localLlmJsonString s ++ t = l.token ++ t' →
      l.value = some s ∧ t' = t) ∧
    (∀ system user, ∃ d : Document, d.render = chatBody system user ∧
      (d.named "content".toList).map (fun s => s.value.text) = [some system, some user]) ∧
    ∀ prompt, ∃ d : Document, d.render = completionBody prompt ∧
      (d.named "prompt".toList).map (fun s => s.value.text) = [some prompt] := by
  refine ⟨fun s t => ?_, fun s => ?_, fun s t l t' same => ?_, fun system user => ?_,
    fun prompt => ?_⟩
  · rw [localLlmDecodeJsonString_eq_iff, localLlmJsonString_eq]
    exact ⟨literalOf s, t, rfl, (alone_literalOf s).symm⟩
  · exact ⟨literalOf s, localLlmJsonString_eq s, value_literalOf s, (literalOf s).printed⟩
  · rw [localLlmJsonString_eq] at same
    obtain ⟨rfl, rfl⟩ := token_append_inj same
    exact ⟨value_literalOf s, rfl⟩
  · exact ⟨chatDocument system user, render_chatDocument system user,
      named_chatDocument system user⟩
  · exact ⟨completionDocument prompt, render_completionDocument prompt,
      named_completionDocument prompt⟩

end HibanaPico.UnoQ
