import HibanaPico.SensorPanel.Sample
import HibanaPico.Support.Format
import Mathlib.Data.List.TakeWhile

/-!
# Sensor panel — LcdText

The text that a sample becomes on the display: `rp2w_format_pico2w_sensor_sample` over the
`push_*` functions, `rp2w_lcd_write_payload`'s cut into two lines, and `copy_lcd_line`'s sixteen
columns.

* `decimal`, `climateLine`, `lightSeqLine`: the texts of the source, as formats.
* `format_eq`: the text of a sample, none of which is lost to the buffer.
* `sampleText_lines`, `lcdPayloadLines_eq`: the text is cut into the lines it was made of.
-/

namespace HibanaPico.SensorPanel
open HibanaPico.Transport HibanaPico.Support

/-- A byte string literal. -/
def ascii (text : String) : List U8 := text.toList.map fun c => .ofNat 8 c.toNat

/-! ### The text -/

/-- `push_byte`: the text is `out[..len]`, and `room` is `out.len()`. -/
def pushByte (room : ℕ) (text : List U8) (byte : U8) : List U8 :=
  if text.length < room then text ++ [byte] else text

/-- `push_bytes`. -/
def pushBytes (room : ℕ) (text bytes : List U8) : List U8 :=
  bytes.foldl (pushByte room) text

/-- The digits that `push_u32` collects, the lowest first; `none` is an index beyond the array. -/
def lowDigits : ℕ → ℕ → Option (List U8)
  | 0, _ => none
  | room + 1, value =>
      let digit : U8 := 0x30 + .ofNat 8 (value % 10)
      if value / 10 = 0 then some [digit]
      else (lowDigits room (value / 10)).map (digit :: ·)

/-- `push_u32`, with its `digits: [u8; 10]`. -/
def pushU32 (room : ℕ) (text : List U8) (value : U32) : Option (List U8) :=
  (lowDigits 10 value.toNat).map fun digits => pushBytes room text digits.reverse

/-- The end of `push_fixed_i16_x10` and `push_fixed_u16_x10`. -/
def pushMagnitude (room : ℕ) (text : List U8) (magnitude : U32) : Option (List U8) :=
  (pushU32 room text (magnitude / 10)).map fun text =>
    pushByte room (pushByte room text 0x2e) (0x30 + (magnitude % 10).setWidth 8)

/-- `push_fixed_i16_x10`. -/
def pushFixedI16X10 (room : ℕ) (text : List U8) (value : I16) : Option (List U8) :=
  if value.toInt < 0 then pushMagnitude room (pushByte room text 0x2d) (-value.signExtend 32)
  else pushMagnitude room text (value.setWidth 32)

/-- `push_fixed_u16_x10`. -/
def pushFixedU16X10 (room : ℕ) (text : List U8) (value : U16) : Option (List U8) :=
  pushMagnitude room text (value.setWidth 32)

/-- `rp2w_format_pico2w_sensor_sample`. -/
def rp2wFormatPico2wSensorSample (sample : Pico2wSensorSample) (room : ℕ) :
    Option (List U8) :=
  if sample.status = pico2wSensorStatusPending then
    pushU32 room (pushBytes room [] (ascii "sensor pending\nseq:")) (sample.seq.setWidth 32)
  else if sample.status = pico2wSensorStatusStale then
    pushU32 room (pushBytes room [] (ascii "sensor stale\nL:")) (sample.lightRaw.setWidth 32)
  else do
    let text := pushBytes room [] (ascii "T:")
    let text ← pushFixedI16X10 room text sample.temperatureCX10
    let text := pushBytes room text (ascii "C H:")
    let text ← pushFixedU16X10 room text sample.humidityPctX10
    let text := pushBytes room text (ascii "%\nL:")
    let text ← pushU32 room text (sample.lightRaw.setWidth 32)
    let text := pushBytes room text (ascii " #")
    pushU32 room text (sample.seq.setWidth 32)

/-- A line ends at either of the two. -/
def isLineEnd (byte : U8) : Bool := byte = 0x0a ∨ byte = 0x0d

/-- The two lines that `rp2w_lcd_write_payload` cuts its bytes into. -/
def lcdPayloadLines (bytes : List U8) : List U8 × List U8 :=
  let rest := (bytes.dropWhile (! isLineEnd ·)).dropWhile isLineEnd
  (bytes.takeWhile (! isLineEnd ·), rest.takeWhile (! isLineEnd ·))

/-- The columns of the display. -/
def lcdColumns : ℕ := 16

/-- `copy_lcd_line`: blanks, and the text over them. -/
def copyLcdLine (text : List U8) : List U8 :=
  text.take (min text.length lcdColumns) ++
    (List.replicate lcdColumns 0x20).drop (min text.length lcdColumns)

/-! ### The formats -/

def digitValue (byte : U8) : Option ℕ :=
  if 0x30 ≤ byte ∧ byte ≤ 0x39 then some (byte.toNat - 48) else none

/-- The ASCII digits. -/
def asciiDigits : Numerals U8 where
  base := 10
  symbol d := 0x30 + .ofNat 8 d
  value := digitValue
  one_lt_base := by decide
  value_symbol := by decide

/-- A number. -/
def decimal : Format U8 ℕ := asciiDigits.format

/-- A number of tenths. -/
def tenths : Format U8 ℕ := asciiDigits.pointed 0x2e rfl

/-- A signed number of tenths. -/
def signedTenths : Format U8 ℤ :=
  tenths.signed 0x2d fun n rest _ => asciiDigits.head_pointed rfl n rest

/-- `T:21.5C H:40.0%`, up to the mark at its end. -/
def climate : Format U8 (ℤ × ℕ) :=
  ((signedTenths.before (ascii "C H:") (fun _ => trivial)).andThen tenths
    (fun _ _ _ => trivial)).after (ascii "T:")

def climateLine : Format U8 (ℤ × ℕ) := climate.before [0x25] fun _ => trivial

/-- `L:900 #7`. -/
def lightSeqLine : Format U8 (ℕ × ℕ) :=
  ((decimal.before (ascii " #") (fun _ => rfl)).andThen decimal (fun _ _ _ => trivial)).after
    (ascii "L:")

def lightLine : Format U8 ℕ := decimal.after (ascii "L:")

def seqLine : Format U8 ℕ := decimal.after (ascii "seq:")

/-! ### What the source pushes -/

theorem pushBytes_eq {room : ℕ} {text bytes : List U8} (h : text.length + bytes.length ≤ room) :
    pushBytes room text bytes = text ++ bytes := by
  induction bytes generalizing text with
  | nil => exact (List.append_nil text).symm
  | cons byte bytes ih =>
      rw [List.length_cons] at h
      have hpush : pushByte room text byte = text ++ [byte] := if_pos (by omega)
      have hlength : (text ++ [byte]).length = text.length + 1 := List.length_append
      rw [pushBytes, List.foldl_cons, hpush]
      exact (ih (by omega)).trans (List.append_cons text byte bytes).symm

theorem pushByte_eq {room : ℕ} {text : List U8} {byte : U8} (h : text.length < room) :
    pushByte room text byte = text ++ [byte] :=
  if_pos h

/-- The ten places of `push_u32` are enough, and hold the digits the other way round. -/
theorem lowDigits_eq {room n : ℕ} (hroom : 0 < room) (h : n < 10 ^ room) :
    lowDigits room n = some (decimal.print n).reverse := by
  have hprint (n : ℕ) : (decimal.print n).reverse =
      (numeral 10 n).reverse.map asciiDigits.symbol := List.map_reverse.symm
  induction room generalizing n with
  | zero => cases hroom
  | succ room ih =>
      rw [lowDigits, hprint]
      by_cases hlast : n / 10 = 0
      · have hn : n < 10 := (Nat.div_eq_zero_iff_lt (by decide)).mp hlast
        rw [if_pos hlast, reverse_numeral_of_lt hn, Nat.mod_eq_of_lt hn]
        rfl
      · have hn : 10 ≤ n := Nat.le_of_not_lt fun hn => hlast (Nat.div_eq_of_lt hn)
        have hquotient : n / 10 < 10 ^ room := by
          rw [Nat.pow_succ] at h
          exact Nat.div_lt_of_lt_mul (mul_comm (10 ^ room) 10 ▸ h)
        have hmore : 0 < room := by
          by_contra hnone
          rw [Nat.eq_zero_of_not_pos hnone, Nat.pow_zero] at hquotient
          exact hlast (Nat.lt_one_iff.mp hquotient)
        rw [if_neg hlast, ih hmore hquotient, reverse_numeral_of_le (by decide) hn, hprint]
        rfl

theorem length_decimal_le {n k : ℕ} (hk : 0 < k) (h : n < 10 ^ k) :
    (decimal.print n).length ≤ k :=
  (List.length_map _).trans_le (length_numeral_le (by decide) hk h)

theorem length_decimal (value : U32) : (decimal.print value.toNat).length ≤ 10 :=
  length_decimal_le (by decide) (value.isLt.trans (by decide))

theorem pushU32_eq {room : ℕ} {text : List U8} (value : U32) (h : text.length + 10 ≤ room) :
    pushU32 room text value = some (text ++ decimal.print value.toNat) := by
  have hlt : value.toNat < 10 ^ 10 := value.isLt.trans (by decide)
  have hlength := length_decimal value
  rw [pushU32, lowDigits_eq (by decide) hlt, Option.map_some, List.reverse_reverse,
    pushBytes_eq (by omega)]

theorem length_tenths (n : ℕ) :
    (tenths.print n).length = (decimal.print (n / 10)).length + 2 := List.length_append

theorem pushMagnitude_eq {room : ℕ} {text : List U8} (magnitude : U32)
    (h : text.length + 12 ≤ room) :
    pushMagnitude room text magnitude = some (text ++ tenths.print magnitude.toNat) := by
  have hwhole : (magnitude / 10).toNat = magnitude.toNat / 10 := BitVec.toNat_udiv
  have hdigit : (magnitude % 10).setWidth 8 = BitVec.ofNat 8 (magnitude.toNat % 10) := by
    apply BitVec.eq_of_toNat_eq
    rw [BitVec.toNat_setWidth, BitVec.toNat_umod, BitVec.toNat_ofNat]
    rfl
  have hlength := length_decimal (magnitude / 10)
  have hsum : (text ++ decimal.print (magnitude.toNat / 10)).length =
      text.length + (decimal.print (magnitude.toNat / 10)).length := List.length_append
  have hpoint : pushByte room (text ++ decimal.print (magnitude.toNat / 10)) 0x2e =
      text ++ decimal.print (magnitude.toNat / 10) ++ [0x2e] := by
    rw [hwhole] at hlength
    exact pushByte_eq (by omega)
  rw [hwhole] at hlength
  rw [pushMagnitude, pushU32_eq _ (by omega), Option.map_some, hwhole, hdigit, hpoint,
    pushByte_eq (by rw [List.length_append, List.length_singleton]; omega),
    List.append_assoc, List.append_assoc]
  rfl

theorem toNat_neg_signExtend {value : I16} (h : value.toInt < 0) :
    (-value.signExtend 32).toNat = value.toInt.natAbs := by
  have hlow := BitVec.le_toInt value
  have hvalue : (-value.signExtend 32).toInt = -value.toInt := by
    rw [BitVec.toInt_neg, BitVec.toInt_signExtend_of_le (by decide)]
    exact Int.bmod_eq_of_le (by omega) (by omega)
  have hpos := BitVec.toInt_eq_toNat_cond (-value.signExtend 32)
  split at hpos
  · omega
  · omega

theorem pushFixedI16X10_eq {room : ℕ} {text : List U8} (value : I16)
    (h : text.length + 13 ≤ room) :
    pushFixedI16X10 room text value = some (text ++ signedTenths.print value.toInt) := by
  by_cases hneg : value.toInt < 0
  · have hprint : signedTenths.print value.toInt = 0x2d :: tenths.print value.toInt.natAbs :=
      if_pos hneg
    have hminus : pushByte room text 0x2d = text ++ [0x2d] := pushByte_eq (by omega)
    rw [pushFixedI16X10, if_pos hneg, hminus,
      pushMagnitude_eq _ (by rw [List.length_append, List.length_singleton]; omega),
      toNat_neg_signExtend hneg, hprint, List.append_assoc, List.singleton_append]
  · have hprint : signedTenths.print value.toInt = tenths.print value.toInt.natAbs :=
      if_neg hneg
    have hmagnitude : (value.setWidth 32).toNat = value.toInt.natAbs := by
      have hcond := BitVec.toInt_eq_toNat_cond value
      have hlt := value.isLt
      rw [BitVec.toNat_setWidth_of_le (by decide)]
      split at hcond
      · omega
      · omega
    rw [pushFixedI16X10, if_neg hneg, pushMagnitude_eq _ (by omega), hmagnitude, hprint]

theorem pushFixedU16X10_eq {room : ℕ} {text : List U8} (value : U16)
    (h : text.length + 12 ≤ room) :
    pushFixedU16X10 room text value = some (text ++ tenths.print value.toNat) := by
  rw [pushFixedU16X10, pushMagnitude_eq _ h, BitVec.toNat_setWidth_of_le (by decide)]

/-! ### The text of a sample -/

/-- The text of a sample, in its two lines. -/
def sampleText (sample : Pico2wSensorSample) : List U8 × List U8 :=
  if sample.status = pico2wSensorStatusPending then
    (ascii "sensor pending", seqLine.print sample.seq.toNat)
  else if sample.status = pico2wSensorStatusStale then
    (ascii "sensor stale", lightLine.print sample.lightRaw.toNat)
  else (climateLine.print (sample.temperatureCX10.toInt, sample.humidityPctX10.toNat),
    lightSeqLine.print (sample.lightRaw.toNat, sample.seq.toNat))

theorem length_tenths_le (value : U16) : (tenths.print value.toNat).length ≤ 12 := by
  have hlt : value.toNat / 10 < 10 ^ 10 :=
    (Nat.div_le_self _ _).trans_lt (value.isLt.trans (by decide))
  have hlength := length_decimal_le (by decide) hlt
  rw [length_tenths]
  exact Nat.add_le_add_right hlength 2

theorem length_signedTenths_le (value : I16) :
    (signedTenths.print value.toInt).length ≤ 13 := by
  have hmagnitude : value.toInt.natAbs < 2 ^ 16 := by
    have hlow := BitVec.le_toInt value
    have hhigh := BitVec.toInt_lt (x := value)
    omega
  have hle := length_tenths_le (.ofNat 16 value.toInt.natAbs)
  rw [BitVec.toNat_ofNat, Nat.mod_eq_of_lt hmagnitude] at hle
  by_cases hneg : value.toInt < 0
  · have hprint : signedTenths.print value.toInt = 0x2d :: tenths.print value.toInt.natAbs :=
      if_pos hneg
    rw [hprint, List.length_cons]
    exact Nat.add_le_add_right hle 1
  · have hprint : signedTenths.print value.toInt = tenths.print value.toInt.natAbs :=
      if_neg hneg
    rw [hprint]
    exact hle.trans (by decide)

theorem toNat_wide (value : U16) : (value.setWidth 32).toNat = value.toNat :=
  BitVec.toNat_setWidth_of_le (by decide)

theorem length_decimal_word (value : U16) : (decimal.print value.toNat).length ≤ 5 :=
  length_decimal_le (by decide) (value.isLt.trans (by decide))

theorem print_climateLine (t : ℤ) (h : ℕ) : climateLine.print (t, h) =
    ascii "T:" ++ (signedTenths.print t ++ ascii "C H:" ++ tenths.print h) ++ [0x25] := rfl

theorem print_lightSeqLine (l s : ℕ) : lightSeqLine.print (l, s) =
    ascii "L:" ++ (decimal.print l ++ ascii " #" ++ decimal.print s) := rfl

/-- The buffer of 64 bytes holds the whole text of every sample. -/
theorem format_eq (sample : Pico2wSensorSample) :
    rp2wFormatPico2wSensorSample sample 64 =
      some ((sampleText sample).1 ++ 0x0a :: (sampleText sample).2) := by
  have hstart (bytes : List U8) (h : bytes.length ≤ 64) : pushBytes 64 [] bytes = bytes :=
    pushBytes_eq (by rw [List.length_nil, Nat.zero_add]; exact h)
  rw [rp2wFormatPico2wSensorSample, sampleText]
  split
  · rw [hstart _ (by decide), pushU32_eq _ (by decide), toNat_wide]
    rfl
  · split
    · rw [hstart _ (by decide), pushU32_eq _ (by decide), toNat_wide]
      rfl
    · have ht := length_signedTenths_le sample.temperatureCX10
      have hh := length_tenths_le sample.humidityPctX10
      have hl := length_decimal_word sample.lightRaw
      have hs := length_decimal_word sample.seq
      have hword : (ascii "T:").length = 2 ∧ (ascii "C H:").length = 4 ∧
          (ascii "%\nL:").length = 4 ∧ (ascii " #").length = 2 := by decide
      simp only [Option.bind_eq_bind, hstart _ (show (ascii "T:").length ≤ 64 by decide)]
      rw [pushFixedI16X10_eq _ (by omega), Option.bind_some,
        pushBytes_eq (by simp only [List.length_append]; omega),
        pushFixedU16X10_eq _ (by simp only [List.length_append]; omega), Option.bind_some,
        pushBytes_eq (by simp only [List.length_append]; omega),
        pushU32_eq _ (by simp only [List.length_append]; omega), Option.bind_some,
        pushBytes_eq (by simp only [List.length_append, toNat_wide]; omega),
        pushU32_eq _ (by simp only [List.length_append, toNat_wide]; omega), toNat_wide,
        toNat_wide]
      have hmark : ascii "%\nL:" = 0x25 :: 0x0a :: ascii "L:" := by decide
      rw [print_climateLine, print_lightSeqLine, hmark]
      simp only [List.append_assoc, List.cons_append, List.nil_append]

/-! ### Its lines -/

theorem lcdPayloadLines_eq {first second : List U8} (hfirst : ∀ b ∈ first, isLineEnd b = false)
    (hsecond : ∀ b ∈ second, isLineEnd b = false) :
    lcdPayloadLines (first ++ 0x0a :: second) = (first, second) := by
  have htake : (first ++ 0x0a :: second).takeWhile (! isLineEnd ·) = first := by
    rw [List.takeWhile_append_of_pos fun b hb => by rw [hfirst b hb]; rfl]
    exact (congrArg _ (List.takeWhile_cons_of_neg (by decide))).trans (List.append_nil first)
  have hdrop : (first ++ 0x0a :: second).dropWhile (! isLineEnd ·) = 0x0a :: second := by
    rw [List.dropWhile_append_of_pos fun b hb => by rw [hfirst b hb]; rfl]
    exact List.dropWhile_cons_of_neg (by decide)
  have hrest : (0x0a :: second).dropWhile isLineEnd = second := by
    rw [List.dropWhile_cons_of_pos (by decide)]
    cases second with
    | nil => rfl
    | cons b tail =>
        have hb := hsecond b List.mem_cons_self
        exact List.dropWhile_cons_of_neg (by rw [hb]; decide)
  have hall : second.takeWhile (! isLineEnd ·) = second :=
    List.takeWhile_eq_self_iff.mpr fun b hb => by rw [hsecond b hb]; rfl
  rw [lcdPayloadLines, htake, hdrop, hrest, hall]

theorem digit_of_mem_decimal {n : ℕ} {b : U8} (hb : b ∈ decimal.print n) :
    ∃ d < 10, b = 0x30 + .ofNat 8 d := by
  obtain ⟨d, hd, rfl⟩ := List.mem_map.mp hb
  exact ⟨d, lt_of_mem_numeral (by decide) hd, rfl⟩

/-- The symbols of numbers: digits, the point and the minus. -/
def IsNumeral (b : U8) : Prop := (∃ d < 10, b = 0x30 + .ofNat 8 d) ∨ b = 0x2e ∨ b = 0x2d

theorem not_numeral_of {b : U8} (h : digitValue b = none ∧ b ≠ 0x2e ∧ b ≠ 0x2d) :
    ¬ IsNumeral b := by
  rintro (⟨d, hd, rfl⟩ | rfl | rfl)
  · have hvalue : digitValue (0x30 + .ofNat 8 d) = some d := asciiDigits.value_symbol d hd
    rw [h.1] at hvalue
    cases hvalue
  · exact h.2.1 rfl
  · exact h.2.2 rfl

theorem isNumeral_decimal {n : ℕ} {b : U8} (hb : b ∈ decimal.print n) : IsNumeral b :=
  .inl (digit_of_mem_decimal hb)

theorem isNumeral_tenths {n : ℕ} {b : U8} (hb : b ∈ tenths.print n) : IsNumeral b := by
  have hprint : tenths.print n =
      decimal.print (n / 10) ++ [0x2e, 0x30 + .ofNat 8 (n % 10)] := rfl
  rw [hprint, List.mem_append, List.mem_cons, List.mem_singleton] at hb
  rcases hb with hb | rfl | rfl
  · exact isNumeral_decimal hb
  · exact .inr (.inl rfl)
  · exact .inl ⟨n % 10, Nat.mod_lt n (by decide), rfl⟩

theorem isNumeral_signedTenths {z : ℤ} {b : U8} (hb : b ∈ signedTenths.print z) :
    IsNumeral b := by
  have hprint : signedTenths.print z =
      if z < 0 then 0x2d :: tenths.print z.natAbs else tenths.print z.natAbs := rfl
  rw [hprint] at hb
  split at hb
  · rcases List.mem_cons.mp hb with rfl | hb
    · exact .inr (.inr rfl)
    · exact isNumeral_tenths hb
  · exact isNumeral_tenths hb

theorem not_mem_climate {b : U8} (h : ¬ IsNumeral b) (hwords : b ∉ ascii "T:" ++ ascii "C H:")
    (v : ℤ × ℕ) : b ∉ climate.print v := by
  have hprint : climate.print v =
      ascii "T:" ++ (signedTenths.print v.1 ++ ascii "C H:" ++ tenths.print v.2) := rfl
  rw [List.mem_append, not_or] at hwords
  rw [hprint, List.mem_append, List.mem_append, List.mem_append]
  rintro (hb | (hb | hb) | hb)
  · exact hwords.1 hb
  · exact h (isNumeral_signedTenths hb)
  · exact hwords.2 hb
  · exact h (isNumeral_tenths hb)

theorem lineEnd_not_numeral {b : U8} (h : isLineEnd b = true) : ¬ IsNumeral b := by
  have hb : b = 0x0a ∨ b = 0x0d := of_decide_eq_true h
  rcases hb with rfl | rfl
  · exact not_numeral_of (by decide)
  · exact not_numeral_of (by decide)

/-- No line of a sample's text holds a line end. -/
theorem sampleText_lines (sample : Pico2wSensorSample) :
    (∀ b ∈ (sampleText sample).1, isLineEnd b = false) ∧
      ∀ b ∈ (sampleText sample).2, isLineEnd b = false := by
  have hnumber {n : ℕ} {b : U8} (hb : b ∈ decimal.print n) : isLineEnd b = false := by
    by_contra hend
    exact lineEnd_not_numeral (Bool.eq_true_of_not_eq_false hend) (isNumeral_decimal hb)
  have hlight : ∀ b ∈ ascii "L:", isLineEnd b = false := by decide
  rw [sampleText]
  split
  · have hwords : (∀ b ∈ ascii "sensor pending", isLineEnd b = false) ∧
        ∀ b ∈ ascii "seq:", isLineEnd b = false := by decide
    refine ⟨hwords.1, fun b hb => ?_⟩
    rcases List.mem_append.mp hb with hb | hb
    · exact hwords.2 b hb
    · exact hnumber hb
  · split
    · have hword : ∀ b ∈ ascii "sensor stale", isLineEnd b = false := by decide
      refine ⟨hword, fun b hb => ?_⟩
      rcases List.mem_append.mp hb with hb | hb
      · exact hlight b hb
      · exact hnumber hb
    · have hwords : (∀ b ∈ ascii "T:" ++ ascii "C H:", isLineEnd b = false) ∧
          (∀ b ∈ ascii " #", isLineEnd b = false) ∧ isLineEnd 0x25 = false := by decide
      refine ⟨fun b hb => ?_, fun b hb => ?_⟩
      · rcases List.mem_append.mp hb with hb | hb
        · by_contra hend
          refine not_mem_climate ?_ (fun hword => hend (hwords.1 b hword)) _ hb
          exact lineEnd_not_numeral (Bool.eq_true_of_not_eq_false hend)
        · rw [List.mem_singleton.mp hb]
          exact hwords.2.2
      · rw [print_lightSeqLine, List.mem_append, List.mem_append, List.mem_append] at hb
        rcases hb with hb | (hb | hb) | hb
        · exact hlight b hb
        · exact hnumber hb
        · exact hwords.2.1 b hb
        · exact hnumber hb

/-- The lines of a payload. -/
def linesOf (payload : List U8) : List U8 × List U8 :=
  match Pico2wSensorSample.decodePayload payload with
  | .error _ => (ascii "bad sample", ascii "typed payload")
  | .ok sample => sampleText sample

theorem copyLcdLine_eq (text : List U8) :
    copyLcdLine text = Format.row lcdColumns 0x20 text := by
  rw [copyLcdLine, Format.row, List.drop_replicate]
  rcases Nat.le_total text.length lcdColumns with h | h
  · rw [Nat.min_eq_left h, List.take_of_length_le (Nat.le_refl _), List.take_of_length_le h]
  · rw [Nat.min_eq_right h, Nat.sub_self, Nat.sub_eq_zero_of_le h]

end HibanaPico.SensorPanel
