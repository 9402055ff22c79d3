import HibanaPico.Transport.Types
import Mathlib.Data.Int.Notation
import Mathlib.Logic.Function.Iterate

/-!
# Sensor panel — Sample

A `Pico2wSensorSample` and its nine bytes on the wire, and how the Pico 2 W makes one of a DHT20
read.

* `decodePayload_encode`: the bytes of a sample read back as that sample.
* `dht20Read_isSome`: a DHT20 read succeeds when its write and read do, the busy bit is clear and
  the CRC agrees.
* `rp2wPico2wSensorSample_status`: what becomes of a read that failed.
-/

namespace HibanaPico.SensorPanel
open HibanaPico.Transport

abbrev U16 := BitVec 16
abbrev I16 := BitVec 16

/-- `u16::to_le_bytes`, `i16::to_le_bytes`. -/
def toLeBytes (w : U16) : List U8 := [w.setWidth 8, (w >>> 8).setWidth 8]

/-- `u16::from_le_bytes`, `i16::from_le_bytes`. -/
def fromLeBytes (b₀ b₁ : U8) : U16 := b₁ ++ b₀

@[simp] theorem fromLeBytes_toLeBytes (w : U16) :
    fromLeBytes (w.setWidth 8) ((w >>> 8).setWidth 8) = w := by
  unfold fromLeBytes
  ext i hi
  rw [BitVec.getElem_append]
  split
  · rw [BitVec.getElem_setWidth]
    exact BitVec.getLsbD_eq_getElem hi
  · rename_i hlow
    have hlow : 8 ≤ i := Nat.not_lt.mp hlow
    simp only [BitVec.getElem_setWidth, BitVec.getLsbD_ushiftRight]
    rw [Nat.add_sub_cancel' hlow]
    exact BitVec.getLsbD_eq_getElem hi

def pico2wSensorSampleBytes : ℕ := 9
def pico2wSensorUdpAckBytes : ℕ := 2

def pico2wSensorStatusFresh : U8 := 0
def pico2wSensorStatusPending : U8 := 1
def pico2wSensorStatusStale : U8 := 2

theorem pending_ne_fresh : pico2wSensorStatusPending ≠ pico2wSensorStatusFresh := by decide

theorem stale_ne_fresh : pico2wSensorStatusStale ≠ pico2wSensorStatusFresh := by decide

inductive ProtocolError where
  | invalidEmotion
  | humanInputTooLong
  | humanInputInvalidUtf8
  | invalidPico2wSensorStatus
  deriving DecidableEq, Repr

inductive CodecError where
  | truncated
  | malformed
  deriving DecidableEq, Repr

/-- `validate_pico2w_sensor_status`. -/
def validatePico2wSensorStatus (status : U8) : Except ProtocolError Unit :=
  if status = pico2wSensorStatusFresh ∨ status = pico2wSensorStatusPending ∨
      status = pico2wSensorStatusStale then .ok ()
  else .error .invalidPico2wSensorStatus

theorem validate_fresh : validatePico2wSensorStatus pico2wSensorStatusFresh = .ok () :=
  if_pos (.inl rfl)

theorem validate_pending : validatePico2wSensorStatus pico2wSensorStatusPending = .ok () :=
  if_pos (.inr (.inl rfl))

theorem validate_stale : validatePico2wSensorStatus pico2wSensorStatusStale = .ok () :=
  if_pos (.inr (.inr rfl))

/-- A sample: its fields are private, and its status has been validated. -/
structure Pico2wSensorSample where
  status : U8
  temperatureCX10 : I16
  humidityPctX10 : U16
  lightRaw : U16
  seq : U16
  valid : validatePico2wSensorStatus status = .ok ()
  deriving DecidableEq

namespace Pico2wSensorSample

def new (status : U8) (temperatureCX10 : I16) (humidityPctX10 lightRaw seq : U16) :
    Except ProtocolError Pico2wSensorSample :=
  match h : validatePico2wSensorStatus status with
  | .ok () => .ok ⟨status, temperatureCX10, humidityPctX10, lightRaw, seq, h⟩
  | .error e => .error e

def pending (seq : U16) : Pico2wSensorSample :=
  ⟨pico2wSensorStatusPending, 0, 0, 0, seq, validate_pending⟩

/-- `with_status_and_seq`. -/
def withStatusAndSeq (self : Pico2wSensorSample) (status : U8) (seq : U16) :
    Except ProtocolError Pico2wSensorSample :=
  new status self.temperatureCX10 self.humidityPctX10 self.lightRaw seq

/-- The bytes `encode_into` writes. -/
def encode (self : Pico2wSensorSample) : List U8 :=
  self.status :: (toLeBytes self.temperatureCX10 ++ toLeBytes self.humidityPctX10 ++
    toLeBytes self.lightRaw ++ toLeBytes self.seq)

/-- `encode_into`: the buffer afterwards, and how many bytes were written. -/
def encodeInto (self : Pico2wSensorSample) (out : List U8) : Except CodecError (List U8 × ℕ) :=
  if out.length < pico2wSensorSampleBytes then .error .truncated
  else .ok (self.encode ++ out.drop pico2wSensorSampleBytes, pico2wSensorSampleBytes)

/-- `validate_payload`, then `decode_validated_payload`. -/
def decodePayload (input : List U8) : Except CodecError Pico2wSensorSample :=
  match input with
  | [status, t₀, t₁, h₀, h₁, l₀, l₁, s₀, s₁] =>
      match new status (fromLeBytes t₀ t₁) (fromLeBytes h₀ h₁) (fromLeBytes l₀ l₁)
        (fromLeBytes s₀ s₁) with
      | .ok sample => .ok sample
      | .error _ => .error .malformed
  | _ => .error .malformed

/-! ### The codec -/

@[simp] theorem encode_length (self : Pico2wSensorSample) :
    self.encode.length = pico2wSensorSampleBytes := rfl

theorem new_of_valid {status : U8} (h : validatePico2wSensorStatus status = .ok ())
    (temperatureCX10 : I16) (humidityPctX10 lightRaw seq : U16) :
    new status temperatureCX10 humidityPctX10 lightRaw seq =
      .ok ⟨status, temperatureCX10, humidityPctX10, lightRaw, seq, h⟩ := by
  unfold new
  split
  · rfl
  · rename_i e herr
    rw [h] at herr
    cases herr

/-- **The round trip.**  The bytes of a sample read back as that sample. -/
theorem decodePayload_encode (self : Pico2wSensorSample) :
    decodePayload self.encode = .ok self := by
  simp only [encode, toLeBytes, List.cons_append, List.nil_append, decodePayload,
    fromLeBytes_toLeBytes, new_of_valid self.valid]

/-- The relabelled sample keeps its readings. -/
theorem withStatusAndSeq_of_valid (self : Pico2wSensorSample) {status : U8}
    (h : validatePico2wSensorStatus status = .ok ()) (seq : U16) :
    self.withStatusAndSeq status seq =
      .ok ⟨status, self.temperatureCX10, self.humidityPctX10, self.lightRaw, seq, h⟩ :=
  new_of_valid h _ _ _ _

end Pico2wSensorSample

/-- `pico2w_sensor_udp_ack`. -/
def pico2wSensorUdpAck (seq : U16) : List U8 := toLeBytes seq

/-- `decode_pico2w_sensor_udp_ack`. -/
def decodePico2wSensorUdpAck (input : List U8) : Option U16 :=
  match input with
  | [b₀, b₁] => some (fromLeBytes b₀ b₁)
  | _ => none

@[simp] theorem decodePico2wSensorUdpAck_ack (seq : U16) :
    decodePico2wSensorUdpAck (pico2wSensorUdpAck seq) = some seq := by
  simp only [pico2wSensorUdpAck, toLeBytes, decodePico2wSensorUdpAck, fromLeBytes_toLeBytes]

/-! ### The DHT20 -/

/-- What the I2C bus answers to one DHT20 read: whether the trigger was written, and the seven
bytes, where they were read. -/
structure Dht20Bus where
  written : Bool
  answer : Option (Vector U8 7)
  deriving DecidableEq

/-- One bit of `dht20_crc8`. -/
def dht20CrcBit (crc : U8) : U8 :=
  if crc &&& 0x80 ≠ 0 then (crc <<< 1) ^^^ 0x31 else crc <<< 1

/-- `dht20_crc8`. -/
def dht20Crc8 (bytes : List U8) : U8 :=
  bytes.foldl (fun crc byte => dht20CrcBit^[8] (crc ^^^ byte)) 0xff

/-- The temperature of the bytes, in hundredths of a degree. -/
def dht20Temperature (bytes : Vector U8 7) : ℤ :=
  let rawT : U32 := ((bytes[3].setWidth 32 &&& 0x0f) <<< 16) ||| (bytes[4].setWidth 32 <<< 8) |||
    bytes[5].setWidth 32
  (rawT.toNat * 20000 / 1048576 : ℕ) - 5000

/-- The humidity of the bytes, in hundredths of a percent. -/
def dht20Humidity (bytes : Vector U8 7) : ℕ :=
  let rawH : U32 := (bytes[1].setWidth 32 <<< 12) ||| (bytes[2].setWidth 32 <<< 4) |||
    (bytes[3].setWidth 32 >>> 4)
  rawH.toNat * 10000 / 1048576

/-- `dht20_read`. -/
def dht20Read (bus : Dht20Bus) : Option (ℤ × ℕ) :=
  if ¬ bus.written then none
  else match bus.answer with
    | none => none
    | some bytes =>
        if bytes[0] &&& 0x80 ≠ 0 ∨ dht20Crc8 (bytes.toList.take 6) ≠ bytes[6] then none
        else some (dht20Temperature bytes, dht20Humidity bytes)

/-- A successful read: the bus went along, the sensor was not busy, and the CRC agrees. -/
def Dht20Bus.Checked (bus : Dht20Bus) : Prop :=
  bus.written = true ∧ ∃ bytes, bus.answer = some bytes ∧ bytes[0] &&& 0x80 = 0 ∧
    dht20Crc8 (bytes.toList.take 6) = bytes[6]

theorem dht20Read_isSome (bus : Dht20Bus) : (dht20Read bus).isSome = true ↔ bus.Checked := by
  unfold dht20Read Dht20Bus.Checked
  cases hwritten : bus.written with
  | false => simp
  | true =>
      cases hanswer : bus.answer with
      | none => simp
      | some bytes =>
          simp only [not_true_eq_false, if_false, Option.some.injEq, true_and, exists_eq_left']
          by_cases hbad : bytes[0] &&& 0x80 ≠ 0 ∨ dht20Crc8 (bytes.toList.take 6) ≠ bytes[6]
          · rw [if_pos hbad, ← not_iff_not, not_and_or]
            exact ⟨fun _ => hbad, fun _ => by simp⟩
          · rw [if_neg hbad]
            simp only [ne_eq, not_or, not_not] at hbad
            exact ⟨fun _ => hbad, fun _ => rfl⟩

instance (bus : Dht20Bus) : Decidable bus.Checked := decidable_of_iff _ (dht20Read_isSome bus)

/-! ### The sampler -/

structure Rp2wSensorSample where
  dht20Ok : Bool
  tempCX100 : ℤ
  humidityX100 : ℕ
  lightRaw : U16
  deriving DecidableEq, Repr

/-- `rp2w_read_sensor_sample`, given what the ADC and the bus answer. -/
def rp2wReadSensorSample (lightRaw : U16) (bus : Dht20Bus) : Rp2wSensorSample :=
  match dht20Read bus with
  | some (tempCX100, humidityX100) => ⟨true, tempCX100, humidityX100, lightRaw⟩
  | none => ⟨false, 0, 0, lightRaw⟩

/-- `clamp_i32_to_i16`. -/
def clampI32ToI16 (value : ℤ) : I16 :=
  if value < -32768 then BitVec.ofInt 16 (-32768)
  else if value > 32767 then BitVec.ofInt 16 32767
  else BitVec.ofInt 16 value

/-- `clamp_u32_to_u16`. -/
def clampU32ToU16 (value : ℕ) : U16 :=
  if value > 65535 then BitVec.ofNat 16 65535 else BitVec.ofNat 16 value

/-- `rp2w_pico2w_sensor_sample`. -/
def rp2wPico2wSensorSample (sample : Rp2wSensorSample) (seq : U16) : Pico2wSensorSample :=
  let temperatureCX10 := if sample.dht20Ok then clampI32ToI16 (sample.tempCX100.tdiv 10) else 0
  let humidityPctX10 := if sample.dht20Ok then clampU32ToU16 (sample.humidityX100 / 10) else 0
  match Pico2wSensorSample.new pico2wSensorStatusFresh temperatureCX10 humidityPctX10
    sample.lightRaw seq with
  | .ok sample => sample
  | .error _ => .pending seq

/-- `rp2w_read_pico2w_sensor_sample` into the buffer of `handle_fd_read`. -/
def rp2wReadPico2wSensorSample (lightRaw : U16) (bus : Dht20Bus) (seq : U16) (out : List U8) :
    Except CodecError (List U8 × ℕ) :=
  (rp2wPico2wSensorSample (rp2wReadSensorSample lightRaw bus) seq).encodeInto out

theorem rp2wPico2wSensorSample_eq (sample : Rp2wSensorSample) (seq : U16) :
    rp2wPico2wSensorSample sample seq =
      ⟨pico2wSensorStatusFresh,
        if sample.dht20Ok then clampI32ToI16 (sample.tempCX100.tdiv 10) else 0,
        if sample.dht20Ok then clampU32ToU16 (sample.humidityX100 / 10) else 0,
        sample.lightRaw, seq, validate_fresh⟩ := by
  simp only [rp2wPico2wSensorSample, Pico2wSensorSample.new_of_valid validate_fresh]

/-- The Pico 2 W labels every sample FRESH: also one whose DHT20 read failed. -/
theorem rp2wPico2wSensorSample_status (sample : Rp2wSensorSample) (seq : U16) :
    (rp2wPico2wSensorSample sample seq).status = pico2wSensorStatusFresh := by
  rw [rp2wPico2wSensorSample_eq]

end HibanaPico.SensorPanel
