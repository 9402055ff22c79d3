import HibanaPico.SensorPanel.LcdText
import HibanaPico.Support.Splitting
import Mathlib.Data.List.Forall2

/-!
# Sensor panel — Literals

The addresses that the build takes from its environment: `parse_ipv4_const` and
`parse_mac_const`.  A panic stops the build.

* `octetFrom_iff`, `isHexPair_iff`: one field.
* `parseIpv4_iff`, `parseMac_iff`: what is taken, and that nothing else is.
-/

namespace HibanaPico.SensorPanel
open HibanaPico.Transport HibanaPico.Support

/-! ### The parsers -/

/-- The loop of `parse_ipv4_const`, at the end of the input as at a dot; `none` is its panic. -/
def ipv4Loop : List U8 → List U8 → ℕ → ℕ → Option (List U8)
  | [], out, value, digits =>
      if digits = 0 ∨ 4 ≤ out.length then none
      else if out.length + 1 ≠ 4 then none
      else some (out ++ [.ofNat 8 value])
  | byte :: rest, out, value, digits =>
      if byte = 0x2e then
        if digits = 0 ∨ 4 ≤ out.length then none
        else ipv4Loop rest (out ++ [.ofNat 8 value]) 0 0
      else if byte < 0x30 ∨ byte > 0x39 then none
      else
        let value := value * 10 + (byte - 0x30).toNat
        if value > 255 ∨ digits = 3 then none
        else ipv4Loop rest out value (digits + 1)

/-- `parse_ipv4_const`. -/
def parseIpv4Const (input : List U8) : Option (List U8) := ipv4Loop input [] 0 0

/-- `parse_hex_nibble`. -/
def parseHexNibble (byte : U8) : Option U8 :=
  if byte ≥ 0x30 ∧ byte ≤ 0x39 then some (byte - 0x30)
  else if byte ≥ 0x61 ∧ byte ≤ 0x66 then some (byte - 0x61 + 10)
  else if byte ≥ 0x41 ∧ byte ≤ 0x46 then some (byte - 0x41 + 10)
  else none

/-- The loop of `parse_mac_const`, with as many bytes to come as the first argument says. -/
def macLoop : ℕ → List U8 → Option (List U8)
  | 0, input => if input = [] then some [] else none
  | left + 1, high :: low :: rest => do
      let high ← parseHexNibble high
      let low ← parseHexNibble low
      let byte := (high <<< 4) ||| low
      if left = 0 then (macLoop left rest).map (byte :: ·)
      else
        match rest with
        | [] => none
        | colon :: rest =>
            if colon ≠ 0x3a then none else (macLoop left rest).map (byte :: ·)
  | _ + 1, _ => none

/-- `parse_mac_const`. -/
def parseMacConst (input : List U8) : Option (List U8) := macLoop 6 input

/-! ### An octet -/

/-- One to three digits, of a number below 256. -/
def IsOctet (word : List U8) (octet : U8) : Prop :=
  ∃ ds : List ℕ, (∀ d ∈ ds, d < 10) ∧ word = ds.map asciiDigits.symbol ∧
    (1 ≤ ds.length ∧ ds.length ≤ 3) ∧ octet.toNat = ds.foldl (fun acc d => acc * 10 + d) 0

/-- The loop within one field, from the digits read so far. -/
def octetFrom : ℕ → ℕ → List U8 → Option U8
  | value, digits, [] => if digits = 0 then none else some (.ofNat 8 value)
  | value, digits, byte :: rest =>
      if byte < 0x30 ∨ byte > 0x39 then none
      else
        let value := value * 10 + (byte - 0x30).toNat
        if value > 255 ∨ digits = 3 then none else octetFrom value (digits + 1) rest

theorem le_foldl_digits (ds : List ℕ) (value : ℕ) :
    value ≤ ds.foldl (fun acc d => acc * 10 + d) value := by
  induction ds generalizing value with
  | nil => exact Nat.le_refl value
  | cons d ds ih => exact (by omega : value ≤ value * 10 + d).trans (ih _)

theorem digit_iff (byte : U8) :
    ¬ (byte < 0x30 ∨ byte > 0x39) ↔ ∃ d < 10, byte = asciiDigits.symbol d ∧
      (byte - 0x30).toNat = d := by
  revert byte
  decide +kernel

theorem symbol_inj {d e : ℕ} (hd : d < 10) (he : e < 10)
    (h : asciiDigits.symbol d = asciiDigits.symbol e) : d = e := by
  have hvalue := congrArg asciiDigits.value h
  rw [asciiDigits.value_symbol d hd, asciiDigits.value_symbol e he] at hvalue
  exact Option.some.inj hvalue

/-- A word that begins with a digit is that digit before a word of digits. -/
theorem exists_digits_cons {d : ℕ} (hd : d < 10) {rest : List U8} {P : List ℕ → Prop} :
    (∃ ds : List ℕ, (∀ e ∈ ds, e < 10) ∧
        asciiDigits.symbol d :: rest = ds.map asciiDigits.symbol ∧ P ds) ↔
      ∃ ds : List ℕ, (∀ e ∈ ds, e < 10) ∧ rest = ds.map asciiDigits.symbol ∧ P (d :: ds) := by
  constructor
  · rintro ⟨ds, hds, hmap, hP⟩
    cases ds with
    | nil => cases hmap
    | cons e ds =>
        rw [List.map_cons, List.cons.injEq] at hmap
        obtain rfl := symbol_inj hd (hds e List.mem_cons_self) hmap.1
        exact ⟨ds, fun x hx => hds x (List.mem_cons_of_mem d hx), hmap.2, hP⟩
  · rintro ⟨ds, hds, rfl, hP⟩
    exact ⟨d :: ds, List.forall_mem_cons.mpr ⟨hd, hds⟩, rfl, hP⟩

/-- What the loop reads of a field: the digits, not too many and of no number beyond an octet. -/
theorem octetFrom_iff {word : List U8} {value digits : ℕ} {octet : U8} (hvalue : value ≤ 255)
    (hdigits : digits ≤ 3) :
    octetFrom value digits word = some octet ↔
      ∃ ds : List ℕ, (∀ d ∈ ds, d < 10) ∧ word = ds.map asciiDigits.symbol ∧
        (1 ≤ digits + ds.length ∧ digits + ds.length ≤ 3) ∧
        octet.toNat = ds.foldl (fun acc d => acc * 10 + d) value := by
  induction word generalizing value digits with
  | nil =>
      have hoctet : BitVec.ofNat 8 value = octet ↔ octet.toNat = value := by
        rw [← BitVec.toNat_inj, BitVec.toNat_ofNat, Nat.mod_eq_of_lt (by omega), eq_comm]
      rw [octetFrom]
      constructor
      · intro h
        split at h
        · cases h
        · rename_i hsome
          have heq := hoctet.mp (Option.some.inj h)
          exact ⟨[], fun _ hd => absurd hd List.not_mem_nil, rfl, ⟨by omega, hdigits⟩, heq⟩
      · rintro ⟨ds, -, hmap, hlength, heq⟩
        obtain rfl := List.map_eq_nil_iff.mp hmap.symm
        rw [List.length_nil] at hlength
        rw [if_neg (by omega), hoctet.mpr heq]
  | cons byte rest ih =>
      rw [octetFrom]
      by_cases hbyte : byte < 0x30 ∨ byte > 0x39
      · rw [if_pos hbyte]
        constructor
        · intro h
          cases h
        · rintro ⟨ds, hds, hmap, -⟩
          cases ds with
          | nil => cases hmap
          | cons d ds =>
              have hd := hds d List.mem_cons_self
              obtain ⟨rfl, -⟩ := List.cons.inj hmap
              have hdigit : ∀ d < 10, ¬ (asciiDigits.symbol d < 0x30 ∨
                  asciiDigits.symbol d > 0x39) := by decide
              exact absurd hbyte (hdigit d hd)
      · obtain ⟨d, hd, rfl, hvalue'⟩ := (digit_iff byte).mp hbyte
        rw [if_neg hbyte, exists_digits_cons hd]
        simp only [hvalue', List.length_cons, List.foldl_cons]
        by_cases hbad : value * 10 + d > 255 ∨ digits = 3
        · rw [if_pos hbad]
          constructor
          · intro h
            cases h
          · rintro ⟨ds, -, -, hlength, heq⟩
            have hle := le_foldl_digits ds (value * 10 + d)
            have hlt := octet.isLt
            omega
        · rw [if_neg hbad, ih (by omega) (by omega)]
          simp only [Nat.add_assoc, Nat.add_comm 1]

theorem isOctet_iff {word : List U8} {octet : U8} :
    octetFrom 0 0 word = some octet ↔ IsOctet word octet := by
  rw [octetFrom_iff (Nat.zero_le _) (Nat.zero_le _), IsOctet]
  simp only [Nat.zero_add]

/-! ### The address -/

theorem dot_not_read {word : List U8} {value digits : ℕ} {octet : U8} :
    octetFrom value digits (0x2e :: word) ≠ some octet := by
  rw [octetFrom, if_pos (by decide)]
  exact Option.some_ne_none octet |>.symm

/-- The loop reads the field it is in, and then the others. -/
theorem ipv4Loop_iff {input out : List U8} {value digits : ℕ} {address : List U8} :
    ipv4Loop input out value digits = some address ↔
      ∃ word words octet octets, input = [0x2e].intercalate (word :: words) ∧
        octetFrom value digits word = some octet ∧ List.Forall₂ IsOctet words octets ∧
        address = out ++ octet :: octets ∧ address.length = 4 := by
  induction input generalizing out value digits with
  | nil =>
      rw [ipv4Loop]
      constructor
      · intro h
        split at h
        · cases h
        · rename_i hroom
          split at h
          · cases h
          · rename_i hlast
            cases h
            refine ⟨[], [], _, [], rfl, if_neg (fun hd => hroom (.inl hd)), .nil, rfl, ?_⟩
            rw [List.length_append, List.length_singleton]
            exact not_not.mp hlast
      · rintro ⟨word, words, octet, octets, hinput, hword, hwords, rfl, hlength⟩
        cases words with
        | nil =>
            rw [List.intercalate_singleton] at hinput
            cases hinput
            cases hwords
            rw [octetFrom] at hword
            split at hword
            · cases hword
            · rename_i hdigits
              cases hword
              rw [List.length_append, List.length_singleton] at hlength
              rw [if_neg (by omega), if_neg (by omega)]
        | cons next words =>
            rw [List.intercalate_cons_cons] at hinput
            have hnil := congrArg List.length hinput
            simp only [List.length_append, List.length_nil, List.length_singleton] at hnil
            omega
  | cons byte rest ih =>
      rw [ipv4Loop]
      by_cases hdot : byte = 0x2e
      · subst hdot
        rw [if_pos rfl]
        constructor
        · intro h
          split at h
          · cases h
          · rename_i hroom
            obtain ⟨word, words, octet, octets, hrest, hword, hwords, hout, hlength⟩ := ih.mp h
            refine ⟨[], word :: words, _, octet :: octets, ?_,
              if_neg (fun hd => hroom (.inl hd)), .cons (isOctet_iff.mp hword) hwords, ?_,
              hlength⟩
            · rw [List.intercalate_cons_cons, hrest]
              rfl
            · rw [hout, List.append_assoc, List.singleton_append]
        · rintro ⟨word, words, octet, octets, hinput, hword, hwords, hout, hlength⟩
          have hfirst (tail : List U8) : word ≠ 0x2e :: tail := by
            rintro rfl
            exact dot_not_read hword
          obtain ⟨rfl, next, others, rfl, hrest⟩ :=
            (Splitting.intercalate_separator_iff hfirst).mp hinput
          obtain ⟨octet', octets', hnext, hothers, rfl⟩ := List.forall₂_cons_left_iff.mp hwords
          rw [octetFrom] at hword
          split at hword
          · cases hword
          · rename_i hdigits
            cases hword
            have hroom := hlength
            rw [hout, List.length_append, List.length_cons, List.length_cons] at hroom
            rw [if_neg (by omega)]
            refine ih.mpr ⟨next, others, octet', octets', hrest, isOctet_iff.mpr hnext,
              hothers, ?_, hlength⟩
            rw [hout, List.append_assoc, List.singleton_append]
      · have hfield : (∃ word words octet octets,
            byte :: rest = [0x2e].intercalate (word :: words) ∧
              octetFrom value digits word = some octet ∧ List.Forall₂ IsOctet words octets ∧
              address = out ++ octet :: octets ∧ address.length = 4) ↔
            ∃ tail words octet octets, rest = [0x2e].intercalate (tail :: words) ∧
              octetFrom value digits (byte :: tail) = some octet ∧
              List.Forall₂ IsOctet words octets ∧ address = out ++ octet :: octets ∧
              address.length = 4 := by
          constructor
          · rintro ⟨word, words, octet, octets, hinput, h⟩
            obtain ⟨tail, rfl, hrest⟩ := (Splitting.intercalate_cons_iff hdot).mp hinput
            exact ⟨tail, words, octet, octets, hrest, h⟩
          · rintro ⟨tail, words, octet, octets, hrest, h⟩
            exact ⟨byte :: tail, words, octet, octets,
              (Splitting.intercalate_cons_iff hdot).mpr ⟨tail, rfl, hrest⟩, h⟩
        rw [if_neg hdot, hfield]
        simp only [octetFrom]
        by_cases hbyte : byte < 0x30 ∨ byte > 0x39
        · simp only [if_pos hbyte, reduceCtorEq, false_and, and_false, exists_const]
        · by_cases hbad : value * 10 + (byte - 0x30).toNat > 255 ∨ digits = 3
          · simp only [if_neg hbyte, if_pos hbad, reduceCtorEq, false_and, and_false,
              exists_const]
          · simp only [if_neg hbyte, if_neg hbad]
            exact ih

/-- **Addresses.**  `parse_ipv4_const` takes four fields of one to three digits each, of numbers
below 256, with dots between them, gives their numbers, and panics on everything else. -/
theorem parseIpv4_iff (input address : List U8) :
    parseIpv4Const input = some address ↔
      ∃ words, input = [0x2e].intercalate words ∧ List.Forall₂ IsOctet words address ∧
        words.length = 4 := by
  rw [parseIpv4Const, ipv4Loop_iff]
  constructor
  · rintro ⟨word, words, octet, octets, hinput, hword, hwords, rfl, hlength⟩
    have hall : List.Forall₂ IsOctet (word :: words) (octet :: octets) :=
      .cons (isOctet_iff.mp hword) hwords
    exact ⟨word :: words, hinput, hall, hall.length_eq.trans hlength⟩
  · rintro ⟨words, hinput, hall, hlength⟩
    cases hall with
    | nil => cases hlength
    | cons hword hwords =>
        exact ⟨_, _, _, _, hinput, isOctet_iff.mpr hword, hwords, rfl,
          (List.Forall₂.cons hword hwords).length_eq.symm.trans hlength⟩

example : parseIpv4Const (ascii "127.0.0.01") = some [127, 0, 0, 1] := by decide +kernel

/-! ### The hardware address -/

/-- A hexadecimal digit, in either case. -/
def IsHexDigit (byte : U8) (value : Fin 16) : Prop :=
  (value.val < 10 ∧ byte.toNat = 0x30 + value) ∨
    (10 ≤ value.val ∧ (byte.toNat = 0x61 + (value - 10) ∨ byte.toNat = 0x41 + (value - 10)))

/-- Two of them. -/
def IsHexPair (word : List U8) (byte : U8) : Prop :=
  ∃ high low h l, word = [high, low] ∧ IsHexDigit high h ∧ IsHexDigit low l ∧
    byte.toNat = h.val * 16 + l.val

theorem parseHexNibble_iff (byte : U8) (value : Fin 16) :
    parseHexNibble byte = some (.ofNat 8 value) ↔ IsHexDigit byte value := by
  unfold IsHexDigit
  revert byte value
  decide +kernel

theorem parseHexNibble_lt {byte x : U8} (h : parseHexNibble byte = some x) :
    ∃ value : Fin 16, x = .ofNat 8 value := by
  have hall : ∀ byte : U8, (parseHexNibble byte).all (· < 16) := by decide +kernel
  have hlt := hall byte
  rw [h] at hlt
  have hlt : x.toNat < 16 := of_decide_eq_true hlt
  refine ⟨⟨x.toNat, hlt⟩, BitVec.eq_of_toNat_eq ?_⟩
  rw [BitVec.toNat_ofNat, Nat.mod_eq_of_lt x.isLt]

theorem toNat_pair (h l : Fin 16) :
    ((BitVec.ofNat 8 h <<< 4) ||| BitVec.ofNat 8 l).toNat = h.val * 16 + l.val := by
  revert h l
  decide +kernel

theorem isHexPair_iff {high low byte : U8} : IsHexPair [high, low] byte ↔
    ∃ h l, parseHexNibble high = some h ∧ parseHexNibble low = some l ∧
      byte = (h <<< 4) ||| l := by
  constructor
  · rintro ⟨high', low', h, l, hword, hhigh, hlow, hbyte⟩
    cases hword
    refine ⟨_, _, (parseHexNibble_iff high h).mpr hhigh, (parseHexNibble_iff low l).mpr hlow, ?_⟩
    exact BitVec.eq_of_toNat_eq (hbyte.trans (toNat_pair h l).symm)
  · rintro ⟨x, y, hhigh, hlow, rfl⟩
    obtain ⟨h, rfl⟩ := parseHexNibble_lt hhigh
    obtain ⟨l, rfl⟩ := parseHexNibble_lt hlow
    exact ⟨high, low, h, l, rfl, (parseHexNibble_iff high h).mp hhigh,
      (parseHexNibble_iff low l).mp hlow, toNat_pair h l⟩

theorem exists_of_isHexPair {word : List U8} {byte : U8} (h : IsHexPair word byte) :
    ∃ high low, word = [high, low] := by
  obtain ⟨high, low, -, -, rfl, -⟩ := h
  exact ⟨high, low, rfl⟩

theorem macLoop_last {input address : List U8} :
    macLoop 1 input = some address ↔ ∃ byte, IsHexPair input byte ∧ address = [byte] := by
  constructor
  · intro h
    rcases input with _ | ⟨high, _ | ⟨low, rest⟩⟩
    · cases h
    · cases h
    · simp only [macLoop, Option.bind_eq_bind, Option.bind_eq_some_iff, if_true] at h
      obtain ⟨hi, hhigh, lo, hlow, hrest⟩ := h
      split at hrest
      · rename_i hnil
        cases hnil
        cases hrest
        exact ⟨_, isHexPair_iff.mpr ⟨hi, lo, hhigh, hlow, rfl⟩, rfl⟩
      · cases hrest
  · rintro ⟨byte, hpair, rfl⟩
    obtain ⟨high, low, rfl⟩ := exists_of_isHexPair hpair
    obtain ⟨hi, lo, hhigh, hlow, rfl⟩ := isHexPair_iff.mp hpair
    simp [macLoop, hhigh, hlow]

theorem macLoop_more {left : ℕ} {input address : List U8} :
    macLoop (left + 2) input = some address ↔
      ∃ word byte rest tail, input = word ++ 0x3a :: rest ∧ IsHexPair word byte ∧
        macLoop (left + 1) rest = some tail ∧ address = byte :: tail := by
  constructor
  · intro h
    rcases input with _ | ⟨high, _ | ⟨low, _ | ⟨colon, rest⟩⟩⟩
    · cases h
    · cases h
    · simp [macLoop] at h
    · simp only [macLoop, Option.bind_eq_bind, Option.bind_eq_some_iff, Nat.add_one_ne_zero,
        if_false] at h
      obtain ⟨hi, hhigh, lo, hlow, hrest⟩ := h
      split at hrest
      · cases hrest
      · rename_i hcolon
        obtain ⟨tail, htail, rfl⟩ := Option.map_eq_some_iff.mp hrest
        refine ⟨[high, low], _, rest, tail, ?_,
          isHexPair_iff.mpr ⟨hi, lo, hhigh, hlow, rfl⟩, htail, rfl⟩
        rw [not_not.mp hcolon]
        rfl
  · rintro ⟨word, byte, rest, tail, rfl, hpair, htail, rfl⟩
    obtain ⟨high, low, rfl⟩ := exists_of_isHexPair hpair
    obtain ⟨hi, lo, hhigh, hlow, rfl⟩ := isHexPair_iff.mp hpair
    simp [macLoop, hhigh, hlow, htail]

/-- The loop reads as many pairs as are to come, with colons between them. -/
theorem macLoop_iff {left : ℕ} {input address : List U8} :
    macLoop (left + 1) input = some address ↔
      ∃ words, input = [0x3a].intercalate words ∧ List.Forall₂ IsHexPair words address ∧
        words.length = left + 1 := by
  induction left generalizing input address with
  | zero =>
      rw [macLoop_last]
      constructor
      · rintro ⟨byte, hpair, rfl⟩
        exact ⟨[input], List.intercalate_singleton.symm, .cons hpair .nil, rfl⟩
      · rintro ⟨words, rfl, hall, hlength⟩
        obtain ⟨word, rfl⟩ := List.length_eq_one_iff.mp hlength
        obtain ⟨byte, bytes, hpair, hrest, rfl⟩ := List.forall₂_cons_left_iff.mp hall
        cases hrest
        rw [List.intercalate_singleton]
        exact ⟨byte, hpair, rfl⟩
  | succ left ih =>
      rw [macLoop_more]
      constructor
      · rintro ⟨word, byte, rest, tail, rfl, hpair, htail, rfl⟩
        obtain ⟨words, rfl, hall, hlength⟩ := ih.mp htail
        have hsome : words ≠ [] := List.ne_nil_of_length_eq_add_one hlength
        refine ⟨word :: words, ?_, .cons hpair hall, by rw [List.length_cons, hlength]⟩
        rw [List.intercalate_cons_of_ne_nil hsome, List.append_assoc, List.singleton_append]
      · rintro ⟨words, rfl, hall, hlength⟩
        cases hall with
        | nil => cases hlength
        | cons hpair hall =>
            rename_i word byte words bytes
            rw [List.length_cons, Nat.add_right_cancel_iff] at hlength
            have hsome : words ≠ [] := List.ne_nil_of_length_eq_add_one hlength
            refine ⟨word, byte, _, bytes, ?_, hpair, ih.mpr ⟨words, rfl, hall, hlength⟩, rfl⟩
            rw [List.intercalate_cons_of_ne_nil hsome, List.append_assoc, List.singleton_append]

/-- **Hardware addresses.**  `parse_mac_const` takes six pairs of hexadecimal digits with colons
between them, gives their bytes, and panics on everything else. -/
theorem parseMac_iff (input address : List U8) :
    parseMacConst input = some address ↔
      ∃ words, input = [0x3a].intercalate words ∧ List.Forall₂ IsHexPair words address ∧
        words.length = 6 :=
  macLoop_iff

end HibanaPico.SensorPanel
