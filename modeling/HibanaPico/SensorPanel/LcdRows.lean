import HibanaPico.SensorPanel.LcdText

/-!
# Sensor panel — LcdRows

What the two rows of the display say.

* `Shown`, `readDisplay`: what they can say, and how they are read.
* `displayed_reads_iff`: for every payload, the rows read back as what the payload says exactly
  when its first line has no more than sixteen characters.
* `sampled_reads_back`: whatever the DHT20 answers, the rows of the sample made of it read back.
-/

namespace HibanaPico.SensorPanel
open HibanaPico.Transport HibanaPico.Support

/-- What the display can say: the fields as numbers, temperature and humidity in tenths. -/
inductive Shown where
  | badSample
  | pending (seq : ℕ)
  | stale (lightRaw : ℕ)
  | fresh (temperatureCX10 : ℤ) (humidityPctX10 lightRaw seq : ℕ)
  deriving DecidableEq, Repr

/-- What a payload says. -/
def shownOf (payload : List U8) : Shown :=
  match Pico2wSensorSample.decodePayload payload with
  | .error _ => .badSample
  | .ok sample =>
      if sample.status = pico2wSensorStatusPending then .pending sample.seq.toNat
      else if sample.status = pico2wSensorStatusStale then .stale sample.lightRaw.toNat
      else .fresh sample.temperatureCX10.toInt sample.humidityPctX10.toNat
        sample.lightRaw.toNat sample.seq.toNat

/-- The two rows, read as the source writes them. -/
def readDisplay (first second : List U8) : Option Shown :=
  if first = copyLcdLine (ascii "bad sample") then
    if second = copyLcdLine (ascii "typed payload") then some .badSample else none
  else if first = copyLcdLine (ascii "sensor pending") then
    (seqLine.reads 0x20 second).map .pending
  else if first = copyLcdLine (ascii "sensor stale") then
    (lightLine.reads 0x20 second).map .stale
  else do
    let v ← climateLine.reads 0x20 first
    let w ← lightSeqLine.reads 0x20 second
    some (.fresh v.1 v.2 w.1 w.2)

/-! ### The rows read back -/

theorem reads_decimal (word : List U8) (value : U16) (h : word.length + 5 ≤ lcdColumns) :
    (decimal.after word).reads 0x20 (copyLcdLine ((decimal.after word).print value.toNat)) =
      some value.toNat := by
  have hdigits := length_decimal_word value
  have hlength : ((decimal.after word).print value.toNat).length =
      word.length + (decimal.print value.toNat).length := List.length_append
  rw [copyLcdLine_eq]
  refine Format.reads_row _ (by omega) fun n => ?_
  cases n with
  | zero => rfl
  | succ n => rfl

theorem reads_lightSeqLine (light seq : U16) :
    lightSeqLine.reads 0x20 (copyLcdLine (lightSeqLine.print (light.toNat, seq.toNat))) =
      some (light.toNat, seq.toNat) := by
  have hlight := length_decimal_word light
  have hseq := length_decimal_word seq
  have hword : (ascii "L:").length = 2 ∧ (ascii " #").length = 2 := by decide
  have hcolumns : lcdColumns = 16 := rfl
  rw [copyLcdLine_eq]
  refine Format.reads_row _ ?_ fun n => ?_
  · rw [print_lightSeqLine]
    simp only [List.length_append]
    omega
  · cases n with
    | zero => rfl
    | succ n => rfl

theorem readDisplay_bad :
    readDisplay (copyLcdLine (ascii "bad sample")) (copyLcdLine (ascii "typed payload")) =
      some .badSample := by
  rw [readDisplay, if_pos rfl, if_pos rfl]

theorem readDisplay_pending (second : List U8) :
    readDisplay (copyLcdLine (ascii "sensor pending")) second =
      (seqLine.reads 0x20 second).map .pending := by
  have hother : copyLcdLine (ascii "sensor pending") ≠ copyLcdLine (ascii "bad sample") := by
    decide
  rw [readDisplay, if_neg hother, if_pos rfl]

theorem readDisplay_stale (second : List U8) :
    readDisplay (copyLcdLine (ascii "sensor stale")) second =
      (lightLine.reads 0x20 second).map .stale := by
  have hbad : copyLcdLine (ascii "sensor stale") ≠ copyLcdLine (ascii "bad sample") := by decide
  have hpending : copyLcdLine (ascii "sensor stale") ≠
      copyLcdLine (ascii "sensor pending") := by decide
  rw [readDisplay, if_neg hbad, if_neg hpending, if_pos rfl]

theorem readDisplay_fresh {first : List U8} (h : first.head? = some 0x54) (second : List U8) :
    readDisplay first second = (do
      let v ← climateLine.reads 0x20 first
      let w ← lightSeqLine.reads 0x20 second
      some (.fresh v.1 v.2 w.1 w.2)) := by
  have hother (text : List U8) (hne : (copyLcdLine text).head? ≠ some 0x54) :
      first ≠ copyLcdLine text := by
    rintro rfl
    exact hne h
  rw [readDisplay, if_neg (hother _ (by decide)), if_neg (hother _ (by decide)),
    if_neg (hother _ (by decide))]

theorem readDisplay_climate (t : ℤ) (h : ℕ) (light seq : U16) :
    readDisplay (copyLcdLine (climateLine.print (t, h)))
        (copyLcdLine (lightSeqLine.print (light.toNat, seq.toNat))) =
        some (.fresh t h light.toNat seq.toNat) ↔
      (climateLine.print (t, h)).length ≤ lcdColumns := by
  have hmark : (0x25 : U8) ∉ climate.print (t, h) :=
    not_mem_climate (not_numeral_of (by decide)) (by decide) (t, h)
  have hlength : (climateLine.print (t, h)).length = (climate.print (t, h)).length + 1 :=
    List.length_append
  have hfits : climateLine.reads 0x20 (Format.row lcdColumns 0x20 (climateLine.print (t, h))) =
      some (t, h) ↔ (climate.print (t, h)).length < lcdColumns :=
    Format.reads_before_iff climate hmark
  rw [readDisplay_fresh (by rw [copyLcdLine_eq]; rfl), reads_lightSeqLine, hlength,
    Nat.succ_le_iff, ← hfits, ← copyLcdLine_eq]
  cases climateLine.reads 0x20 (copyLcdLine (climateLine.print (t, h))) with
  | none => simp
  | some v => simp [Prod.ext_iff]

/-- **The display reads back.**  The rows of a payload say what the payload says exactly when its
first line has no more characters than a row: a longer one, which only a temperature and a humidity
of nine characters or more together make, has lost its percent sign. -/
theorem displayed_reads_iff (payload : List U8) :
    readDisplay (copyLcdLine (linesOf payload).1) (copyLcdLine (linesOf payload).2) =
        some (shownOf payload) ↔ (linesOf payload).1.length ≤ lcdColumns := by
  have hwords : (ascii "bad sample").length ≤ lcdColumns ∧
      (ascii "sensor pending").length ≤ lcdColumns ∧
      (ascii "sensor stale").length ≤ lcdColumns := by decide
  rw [linesOf, shownOf]
  cases Pico2wSensorSample.decodePayload payload with
  | error _ => exact iff_of_true readDisplay_bad hwords.1
  | ok sample =>
      simp only [sampleText]
      split
      · have hseq := reads_decimal (ascii "seq:") sample.seq (by decide)
        have hread := readDisplay_pending (copyLcdLine (seqLine.print sample.seq.toNat))
        rw [seqLine, hseq] at hread
        exact iff_of_true hread hwords.2.1
      · split
        · have hlight := reads_decimal (ascii "L:") sample.lightRaw (by decide)
          have hread := readDisplay_stale (copyLcdLine (lightLine.print sample.lightRaw.toNat))
          rw [lightLine, hlight] at hread
          exact iff_of_true hread hwords.2.2
        · exact readDisplay_climate _ _ _ _

/-! ### What the DHT20 can answer -/

theorem toNat_shiftLeft_lt {x : U32} {m k n : ℕ} (hx : x.toNat < 2 ^ m) (h : m + k ≤ n) :
    (x <<< k).toNat < 2 ^ n := by
  calc (x <<< k).toNat = x.toNat <<< k % 2 ^ 32 := BitVec.toNat_shiftLeft
    _ ≤ x.toNat <<< k := Nat.mod_le _ _
    _ = x.toNat * 2 ^ k := Nat.shiftLeft_eq _ _
    _ < 2 ^ m * 2 ^ k := Nat.mul_lt_mul_of_pos_right hx (Nat.two_pow_pos k)
    _ = 2 ^ (m + k) := (Nat.pow_add 2 m k).symm
    _ ≤ 2 ^ n := Nat.pow_le_pow_right (by decide) h

theorem toNat_setWidth_lt (b : U8) : (b.setWidth 32).toNat < 2 ^ 8 := by
  rw [BitVec.toNat_setWidth_of_le (by decide)]
  exact b.isLt

theorem dht20Temperature_bounds (bytes : Vector U8 7) :
    -5000 ≤ dht20Temperature bytes ∧ dht20Temperature bytes ≤ 14999 := by
  have hraw : (((bytes[3].setWidth 32 &&& 0x0f) <<< 16) ||| (bytes[4].setWidth 32 <<< 8) |||
      bytes[5].setWidth 32 : U32).toNat < 2 ^ 20 := by
    have hlow : (bytes[3].setWidth 32 &&& 0x0f : U32).toNat < 2 ^ 4 :=
      Nat.and_le_right.trans_lt (by decide)
    rw [BitVec.toNat_or, BitVec.toNat_or]
    refine Nat.or_lt_two_pow (Nat.or_lt_two_pow ?_ ?_) ?_
    · exact toNat_shiftLeft_lt hlow (by decide)
    · exact toNat_shiftLeft_lt (toNat_setWidth_lt _) (by decide)
    · exact (toNat_setWidth_lt _).trans (by decide)
  simp only [dht20Temperature]
  omega

theorem dht20Humidity_le (bytes : Vector U8 7) : dht20Humidity bytes ≤ 9999 := by
  have hraw : ((bytes[1].setWidth 32 <<< 12) ||| (bytes[2].setWidth 32 <<< 4) |||
      (bytes[3].setWidth 32 >>> 4) : U32).toNat < 2 ^ 20 := by
    rw [BitVec.toNat_or, BitVec.toNat_or]
    refine Nat.or_lt_two_pow (Nat.or_lt_two_pow ?_ ?_) ?_
    · exact toNat_shiftLeft_lt (toNat_setWidth_lt _) (by decide)
    · exact toNat_shiftLeft_lt (toNat_setWidth_lt _) (by decide)
    · rw [BitVec.toNat_ushiftRight, Nat.shiftRight_eq_div_pow]
      exact (Nat.div_le_self _ _).trans_lt ((toNat_setWidth_lt _).trans (by decide))
  simp only [dht20Humidity]
  omega

theorem dht20Read_eq_some {bus : Dht20Bus} {v : ℤ × ℕ} (h : dht20Read bus = some v) :
    ∃ bytes, bus.answer = some bytes ∧ v = (dht20Temperature bytes, dht20Humidity bytes) := by
  rw [dht20Read] at h
  split at h
  · cases h
  · split at h
    · cases h
    · rename_i bytes hanswer
      split at h
      · cases h
      · exact ⟨bytes, hanswer, (Option.some.inj h).symm⟩

/-- What a read of the DHT20 gives in tenths: zeros, where it fails. -/
def dht20Tenths (bus : Dht20Bus) : ℤ × ℕ :=
  match dht20Read bus with
  | none => (0, 0)
  | some v => (v.1.tdiv 10, v.2 / 10)

theorem dht20Tenths_bounds (bus : Dht20Bus) :
    (-500 ≤ (dht20Tenths bus).1 ∧ (dht20Tenths bus).1 ≤ 1499) ∧ (dht20Tenths bus).2 ≤ 999 := by
  rw [dht20Tenths]
  split
  · exact ⟨⟨by decide, by decide⟩, by decide⟩
  · rename_i v hread
    obtain ⟨bytes, -, rfl⟩ := dht20Read_eq_some hread
    obtain ⟨hlow, hhigh⟩ := dht20Temperature_bounds bytes
    have hhumidity := dht20Humidity_le bytes
    refine ⟨⟨?_, ?_⟩, ?_⟩
    · exact Int.tdiv_le_tdiv (c := 10) (by decide) hlow
    · exact Int.tdiv_le_tdiv (c := 10) (by decide) hhigh
    · exact Nat.div_le_div_right (c := 10) hhumidity

/-- The clamps and the sixteen bits lose nothing of it. -/
theorem sampled_tenths (lightRaw : U16) (bus : Dht20Bus) (seq : U16) :
    let sample := rp2wPico2wSensorSample (rp2wReadSensorSample lightRaw bus) seq
    sample.temperatureCX10.toInt = (dht20Tenths bus).1 ∧
      sample.humidityPctX10.toNat = (dht20Tenths bus).2 := by
  obtain ⟨⟨hlow, hhigh⟩, hhumidity⟩ := dht20Tenths_bounds bus
  rw [rp2wPico2wSensorSample_eq, rp2wReadSensorSample]
  cases hread : dht20Read bus with
  | none =>
      rw [dht20Tenths, hread]
      exact ⟨rfl, rfl⟩
  | some v =>
      have htenths : dht20Tenths bus = (v.1.tdiv 10, v.2 / 10) := by rw [dht20Tenths, hread]
      rw [htenths] at hlow hhigh hhumidity ⊢
      constructor
      · change (clampI32ToI16 (v.1.tdiv 10)).toInt = v.1.tdiv 10
        rw [clampI32ToI16, if_neg (by omega), if_neg (by omega), BitVec.toInt_ofInt]
        exact Int.bmod_eq_of_le (by omega) (by omega)
      · change (clampU32ToU16 (v.2 / 10)).toNat = v.2 / 10
        rw [clampU32ToU16, if_neg (by omega), BitVec.toNat_ofNat]
        exact Nat.mod_eq_of_lt (by omega)

/-- Temperatures of the DHT20 take at most five characters, and humidities four. -/
theorem length_climateLine {t : ℤ} {h : ℕ} (hlow : -500 ≤ t) (hhigh : t ≤ 1499) (hh : h ≤ 999) :
    (climateLine.print (t, h)).length ≤ lcdColumns := by
  have hhumidity : (tenths.print h).length ≤ 4 := by
    have hdigits := length_decimal_le (n := h / 10) (k := 2) (by decide) (by omega)
    rw [length_tenths]
    omega
  have htemperature : (signedTenths.print t).length ≤ 5 := by
    by_cases hneg : t < 0
    · have hprint : signedTenths.print t = 0x2d :: tenths.print t.natAbs := if_pos hneg
      have hdigits := length_decimal_le (n := t.natAbs / 10) (k := 2) (by decide) (by omega)
      rw [hprint, List.length_cons, length_tenths]
      omega
    · have hprint : signedTenths.print t = tenths.print t.natAbs := if_neg hneg
      have hdigits := length_decimal_le (n := t.natAbs / 10) (k := 3) (by decide) (by omega)
      rw [hprint, length_tenths]
      omega
  have hwords : (ascii "T:").length = 2 ∧ (ascii "C H:").length = 4 ∧ lcdColumns = 16 := by
    decide
  rw [print_climateLine]
  simp only [List.length_append, List.length_singleton]
  omega

/-- **Every reading fits.**  The rows of the payload that `rp2w_read_pico2w_sensor_sample` makes of
a light, of whatever the DHT20's bus answers and of a number read back as these. -/
theorem sampled_reads_back (lightRaw : U16) (bus : Dht20Bus) (seq : U16) :
    let payload := (rp2wPico2wSensorSample (rp2wReadSensorSample lightRaw bus) seq).encode
    readDisplay (copyLcdLine (linesOf payload).1) (copyLcdLine (linesOf payload).2) =
      some (.fresh (dht20Tenths bus).1 (dht20Tenths bus).2 lightRaw.toNat seq.toNat) := by
  obtain ⟨⟨hlow, hhigh⟩, hhumidity⟩ := dht20Tenths_bounds bus
  obtain ⟨htemperature, hhumidity'⟩ := sampled_tenths lightRaw bus seq
  have hlight : (rp2wPico2wSensorSample (rp2wReadSensorSample lightRaw bus) seq).lightRaw =
      lightRaw := by
    rw [rp2wPico2wSensorSample_eq, rp2wReadSensorSample]
    split
    · rfl
    · rfl
  have hseq : (rp2wPico2wSensorSample (rp2wReadSensorSample lightRaw bus) seq).seq = seq := by
    rw [rp2wPico2wSensorSample_eq]
  have hstatus := rp2wPico2wSensorSample_status (rp2wReadSensorSample lightRaw bus) seq
  generalize rp2wPico2wSensorSample (rp2wReadSensorSample lightRaw bus) seq = sample at *
  have hfresh : sample.status ≠ pico2wSensorStatusPending ∧
      sample.status ≠ pico2wSensorStatusStale := by
    rw [hstatus]
    decide
  have hshown : shownOf sample.encode =
      .fresh (dht20Tenths bus).1 (dht20Tenths bus).2 lightRaw.toNat seq.toNat := by
    rw [shownOf, sample.decodePayload_encode]
    simp only [if_neg hfresh.1, if_neg hfresh.2, htemperature, hhumidity', hlight, hseq]
  have hline : (linesOf sample.encode).1.length ≤ lcdColumns := by
    rw [linesOf, sample.decodePayload_encode]
    simp only [sampleText, if_neg hfresh.1, if_neg hfresh.2, htemperature, hhumidity']
    exact length_climateLine hlow hhigh hhumidity
  have hreads := (displayed_reads_iff sample.encode).mpr hline
  rwa [hshown] at hreads

end HibanaPico.SensorPanel
