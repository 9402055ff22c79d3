import HibanaPico.SensorPanel.Sample
import HibanaPico.UnoQ.Protocol

/-!
# Sensor panel — Payloads

The payloads of the sensor panel's messages: the sample, and the datagrams and packets that go to
and come from the radio.

* `Pico2wSensorSample.codec_agrees`, `SensorWifiDatagram.codec_agrees`,
  `SensorWifiPacket.codec_agrees`: the encoder, the validator and the decoder of each agree.
* `payload_codecs_agree`: so do those of all five payload types.
-/

namespace HibanaPico.SensorPanel
open HibanaPico.Transport
open HibanaPico.Wire

/-! ### Words in byte strings -/

/-- `u16::to_be_bytes`. -/
def toBeBytes (w : U16) : List U8 := [(w >>> 8).setWidth 8, w.setWidth 8]

/-- `u16::from_be_bytes`. -/
def fromBeBytes (b₀ b₁ : U8) : U16 := fromLeBytes b₁ b₀

/-- `u16::from_le_bytes([bytes[i], bytes[i + 1]])`. -/
def leAt (bytes : List U8) (i : ℕ) : Option U16 := do
  let b₀ ← bytes[i]?
  let b₁ ← bytes[i + 1]?
  some (fromLeBytes b₀ b₁)

/-- `u16::from_be_bytes([bytes[i], bytes[i + 1]])`. -/
def beAt (bytes : List U8) (i : ℕ) : Option U16 := do
  let b₀ ← bytes[i]?
  let b₁ ← bytes[i + 1]?
  some (fromBeBytes b₀ b₁)

structure Ipv4Addr where
  o₀ : U8
  o₁ : U8
  o₂ : U8
  o₃ : U8
  deriving DecidableEq

def Ipv4Addr.octets (ip : Ipv4Addr) : List U8 := [ip.o₀, ip.o₁, ip.o₂, ip.o₃]

/-- `Ipv4Addr([bytes[i], bytes[i + 1], bytes[i + 2], bytes[i + 3]])`. -/
def ipv4At (bytes : List U8) (i : ℕ) : Option Ipv4Addr := do
  let o₀ ← bytes[i]?
  let o₁ ← bytes[i + 1]?
  let o₂ ← bytes[i + 2]?
  let o₃ ← bytes[i + 3]?
  some ⟨o₀, o₁, o₂, o₃⟩

theorem toLeBytes_fromLeBytes (b₀ b₁ : U8) : toLeBytes (fromLeBytes b₀ b₁) = [b₀, b₁] := by
  have hlow : (fromLeBytes b₀ b₁).setWidth 8 = b₀ := BitVec.setWidth_append_eq_right
  have hhigh : (fromLeBytes b₀ b₁ >>> 8).setWidth 8 = b₁ := by
    apply BitVec.eq_of_getElem_eq
    intro i hi
    rw [BitVec.getElem_setWidth, BitVec.getLsbD_ushiftRight, fromLeBytes, BitVec.getLsbD_append,
      if_neg (by omega), Nat.add_sub_cancel_left, BitVec.getLsbD_eq_getElem hi]
  rw [toLeBytes, hlow, hhigh]

theorem beAt_append {written rest : List U8} {i : ℕ} (w : U16) (hi : written.length = i) :
    beAt (written ++ (toBeBytes w ++ rest)) i = some w := by
  subst hi
  simp [beAt, toBeBytes, fromBeBytes]

/-- Two bytes at the front are a little-endian word. -/
theorem exists_le (bytes : List U8) (h : 2 ≤ bytes.length) :
    ∃ w rest, bytes = toLeBytes w ++ rest := by
  rcases bytes with _ | ⟨b₀, _ | ⟨b₁, rest⟩⟩
  case cons.cons => exact ⟨fromLeBytes b₀ b₁, rest, by rw [toLeBytes_fromLeBytes]; rfl⟩
  all_goals simp at h

/-- Two bytes at the front are a big-endian word. -/
theorem exists_be (bytes : List U8) (h : 2 ≤ bytes.length) :
    ∃ w rest, bytes = toBeBytes w ++ rest := by
  rcases bytes with _ | ⟨b₀, _ | ⟨b₁, rest⟩⟩
  case cons.cons =>
    have hbytes := toLeBytes_fromLeBytes b₁ b₀
    simp only [toLeBytes, List.cons.injEq, and_true] at hbytes
    exact ⟨fromBeBytes b₀ b₁, rest, by rw [toBeBytes, fromBeBytes, hbytes.1, hbytes.2]; rfl⟩
  all_goals simp at h

/-- Four bytes at the front are an address. -/
theorem exists_ipv4 (bytes : List U8) (h : 4 ≤ bytes.length) :
    ∃ ip : Ipv4Addr, ∃ rest, bytes = ip.octets ++ rest := by
  rcases bytes with _ | ⟨o₀, _ | ⟨o₁, _ | ⟨o₂, _ | ⟨o₃, rest⟩⟩⟩⟩
  case cons.cons.cons.cons => exact ⟨⟨o₀, o₁, o₂, o₃⟩, rest, rfl⟩
  all_goals simp at h

@[simp] theorem length_toLeBytes (w : U16) : (toLeBytes w).length = 2 := rfl

@[simp] theorem length_toBeBytes (w : U16) : (toBeBytes w).length = 2 := rfl

@[simp] theorem Ipv4Addr.length_octets (ip : Ipv4Addr) : ip.octets.length = 4 := rfl

/-! ### The sample -/

namespace Pico2wSensorSample

/-- `encode_into`, slice by slice. -/
def encodeSlices (self : Pico2wSensorSample) (out : List U8) :
    Option (Except CodecError ℕ × List U8) :=
  if out.length < pico2wSensorSampleBytes then some (.error .truncated, out)
  else do
    let out ← putAt out 0 self.status
    let out ← putSlice out 1 3 (toLeBytes self.temperatureCX10)
    let out ← putSlice out 3 5 (toLeBytes self.humidityPctX10)
    let out ← putSlice out 5 7 (toLeBytes self.lightRaw)
    let out ← putSlice out 7 9 (toLeBytes self.seq)
    some (.ok pico2wSensorSampleBytes, out)

/-- `validate_payload`. -/
def validatePayload (bytes : List U8) : Option (Except CodecError Unit) :=
  if bytes.length ≠ pico2wSensorSampleBytes then some (.error .malformed)
  else do
    let status ← bytes[0]?
    some (UnoQ.orMalformed (validatePico2wSensorStatus status))

/-- `decode_validated_payload`. -/
def decodeValidatedPayload (bytes : List U8) : Option Pico2wSensorSample := do
  let status ← bytes[0]?
  let temperatureCX10 ← leAt bytes 1
  let humidityPctX10 ← leAt bytes 3
  let lightRaw ← leAt bytes 5
  let seq ← leAt bytes 7
  match new status temperatureCX10 humidityPctX10 lightRaw seq with
  | .ok value => some value
  | .error _ => none

def codec : Codec U8 CodecError Pico2wSensorSample :=
  ⟨encodeSlices, validatePayload, decodeValidatedPayload⟩

/-- A sample that `new` returns: so do `pending` and `with_status_and_seq`. -/
def Built (self : Pico2wSensorSample) : Prop :=
  ∃ status temperatureCX10 humidityPctX10 lightRaw seq,
    new status temperatureCX10 humidityPctX10 lightRaw seq = .ok self

theorem new_eta (self : Pico2wSensorSample) :
    new self.status self.temperatureCX10 self.humidityPctX10 self.lightRaw self.seq = .ok self :=
  new_of_valid self.valid _ _ _ _

theorem built (self : Pico2wSensorSample) : self.Built :=
  ⟨self.status, self.temperatureCX10, self.humidityPctX10, self.lightRaw, self.seq, self.new_eta⟩

/-- The image, word behind word. -/
theorem encode_eq (self : Pico2wSensorSample) :
    self.encode = [self.status] ++ toLeBytes self.temperatureCX10 ++
      toLeBytes self.humidityPctX10 ++ toLeBytes self.lightRaw ++ toLeBytes self.seq := rfl

theorem encodeSlices_eq (self : Pico2wSensorSample) (out : List U8) :
    self.encodeSlices out =
      some (if out.length < pico2wSensorSampleBytes then (.error .truncated, out)
        else (.ok pico2wSensorSampleBytes, self.encode ++ out.drop pico2wSensorSampleBytes)) := by
  by_cases hshort : out.length < pico2wSensorSampleBytes
  · rw [encodeSlices, if_pos hshort, if_pos hshort]
  · have hroom : 9 ≤ out.length := Nat.not_lt.mp hshort
    rw [encodeSlices, if_neg hshort, if_neg hshort, encode_eq, putAt_bind _ (by omega)]
    rw [putSlice_bind, putSlice_bind, putSlice_bind, putSlice_bind]
    · rfl
    all_goals first | rfl | exact hroom | omega

theorem codec_lawful : codec.Lawful .truncated encode where
  encodeInto_eq self out := self.encodeSlices_eq out
  validate_total bytes := by
    show (validatePayload bytes).isSome = true
    unfold validatePayload
    split
    · rfl
    · cases bytes with
      | nil => contradiction
      | cons status rest => rfl
  accepts_image self := by
    show some (UnoQ.orMalformed (validatePico2wSensorStatus self.status)) = _
    rw [self.valid]
    rfl
  decode_image self := by
    show decodeValidatedPayload self.encode = _
    simp [decodeValidatedPayload, leAt, encode, toLeBytes, new_eta]
  image_of_accepts bytes haccepts := by
    change validatePayload bytes = _ at haccepts
    unfold validatePayload at haccepts
    split at haccepts
    · cases haccepts
    · rename_i hlength
      have hlength : bytes.length = 9 := not_not.mp hlength
      obtain ⟨status, rest, rfl⟩ := List.exists_cons_of_length_pos (l := bytes) (by omega)
      obtain ⟨temperature, rest, rfl⟩ := exists_le rest (by simp at hlength; omega)
      obtain ⟨humidity, rest, rfl⟩ := exists_le rest (by simp at hlength; omega)
      obtain ⟨light, rest, rfl⟩ := exists_le rest (by simp at hlength; omega)
      obtain ⟨seq, rest, rfl⟩ := exists_le rest (by simp at hlength; omega)
      obtain rfl : rest = [] := List.length_eq_zero_iff.mp (by simp at hlength; omega)
      change some (UnoQ.orMalformed (validatePico2wSensorStatus status)) = _ at haccepts
      cases hvalid : validatePico2wSensorStatus status with
      | ok _ => exact ⟨⟨status, temperature, humidity, light, seq, hvalid⟩, rfl⟩
      | error e =>
          rw [hvalid] at haccepts
          cases haccepts

/-- **The sample's codec.** -/
theorem codec_agrees : codec.Agrees .truncated Built := codec_lawful.agrees built

/-- Slice by slice or at once, `encode_into` writes the same. -/
theorem encodeInto_eq (self : Pico2wSensorSample) (out : List U8) :
    self.encodeSlices out = some (match self.encodeInto out with
      | .ok (out, written) => (.ok written, out)
      | .error e => (.error e, out)) := by
  rw [encodeSlices_eq, encodeInto]
  split <;> rfl

theorem new_of_invalid {status : U8} {e : ProtocolError}
    (h : validatePico2wSensorStatus status = .error e) (temperatureCX10 : I16)
    (humidityPctX10 lightRaw seq : U16) :
    new status temperatureCX10 humidityPctX10 lightRaw seq = .error e := by
  unfold new
  split
  · rename_i hok
    rw [h] at hok
    cases hok
  · rename_i hother
    rw [h] at hother
    cases hother
    rfl

/-- Validated and then decoded, or at once: the payload reads the same. -/
theorem decodePayload_eq (bytes : List U8) :
    decodePayload bytes = match validatePayload bytes, decodeValidatedPayload bytes with
      | some (.ok ()), some self => .ok self
      | _, _ => .error .malformed := by
  by_cases haccepts : codec.Accepts bytes
  · obtain ⟨self, rfl⟩ := codec_lawful.image_of_accepts bytes haccepts
    have hvalidate : validatePayload self.encode = some (.ok ()) := haccepts
    have hdecode : decodeValidatedPayload self.encode = some self := codec_lawful.decode_image self
    rw [decodePayload_encode, hvalidate, hdecode]
  · have hmalformed : decodePayload bytes = .error .malformed := by
      unfold decodePayload
      split
      · rename_i status t₀ t₁ h₀ h₁ l₀ l₁ s₀ s₁
        cases hvalid : validatePico2wSensorStatus status with
        | ok _ => exact absurd (congrArg (some ∘ UnoQ.orMalformed) hvalid) haccepts
        | error e => rw [new_of_invalid hvalid]
      · rfl
    rw [hmalformed]
    split
    · rename_i hvalidate _
      exact absurd hvalidate haccepts
    · rfl

end Pico2wSensorSample

/-! ### The datagram -/

def sensorWifiUdpPayloadBytes : ℕ := 9
def sensorWifiDatagramHeaderBytes : ℕ := 10
def sensorWifiPacketHeaderBytes : ℕ := 14

theorem sensorWifiUdpPayloadBytes_lt : sensorWifiUdpPayloadBytes < 2 ^ 16 := by decide

inductive SensorWifiPayloadError where
  | payloadTooLarge
  deriving DecidableEq, Repr

/-- The payload of a datagram or a packet, at the front of an array of nine bytes. -/
abbrev UdpPayload := Padded (0 : U8) 16 sensorWifiUdpPayloadBytes

/-- `validate_payload` of both, with the payload's length in the last two bytes of the header. -/
def validateUdpPayload (headerBytes : ℕ) (bytes : List U8) : Option (Except CodecError Unit) :=
  if bytes.length < headerBytes then some (.error .truncated)
  else do
    let payloadLen ← beAt bytes (headerBytes - 2)
    some (
      if sensorWifiUdpPayloadBytes < payloadLen.toNat then .error .malformed
      else if bytes.length ≠ headerBytes + payloadLen.toNat then .error .malformed
      else .ok ())

/-- The payload that `decode_validated_payload` of both copies from behind the header. -/
def decodeUdpPayload (headerBytes : ℕ) (bytes : List U8) : Option UdpPayload := do
  let payloadLen ← beAt bytes (headerBytes - 2)
  let payload ← getSlice bytes headerBytes (headerBytes + payloadLen.toNat)
  Padded.copyFrom payload sensorWifiUdpPayloadBytes_lt

section
variable {headerBytes : ℕ} {header bytes : List U8}

theorem beAt_isSome {i : ℕ} (h : i + 2 ≤ bytes.length) : ∃ w, beAt bytes i = some w := by
  have h₀ : bytes[i]? = some _ := List.getElem?_eq_getElem (by omega)
  have h₁ : bytes[i + 1]? = some _ := List.getElem?_eq_getElem (by omega)
  exact ⟨_, by rw [beAt, h₀, h₁]; rfl⟩

theorem validateUdpPayload_total (hheader : 2 ≤ headerBytes) (bytes : List U8) :
    (validateUdpPayload headerBytes bytes).isSome = true := by
  unfold validateUdpPayload
  split
  · rfl
  · obtain ⟨payloadLen, hlen⟩ : ∃ w, beAt bytes (headerBytes - 2) = some w :=
      beAt_isSome (by omega)
    rw [hlen]
    rfl

/-- The validator accepts a header that ends in the length of a payload, and that payload. -/
theorem validateUdpPayload_append (payload : UdpPayload)
    (hheader : header.length + 2 = headerBytes) :
    validateUdpPayload headerBytes (header ++ (toBeBytes payload.len ++ payload.slice)) =
      some (.ok ()) := by
  subst hheader
  have hlen : beAt (header ++ (toBeBytes payload.len ++ payload.slice))
      (header.length + 2 - 2) = some payload.len := beAt_append payload.len rfl
  have hlength : (header ++ (toBeBytes payload.len ++ payload.slice)).length =
      header.length + 2 + payload.len.toNat := by
    simp only [List.length_append, length_toBeBytes, Padded.length_slice]
    omega
  rw [validateUdpPayload, hlength, if_neg (by omega), hlen]
  show some _ = _
  rw [if_neg (Nat.not_lt.mpr payload.fits), if_neg (not_not.mpr rfl)]

/-- The validator accepts nothing else. -/
theorem exists_of_validateUdpPayload (hheader : 2 ≤ headerBytes)
    (haccepts : validateUdpPayload headerBytes bytes = some (.ok ())) :
    ∃ header : List U8, ∃ payload : UdpPayload, header.length + 2 = headerBytes ∧
      bytes = header ++ (toBeBytes payload.len ++ payload.slice) := by
  unfold validateUdpPayload at haccepts
  split at haccepts
  · cases haccepts
  · rename_i hlong
    have hheaderLength : (bytes.take (headerBytes - 2)).length = headerBytes - 2 := by
      rw [List.length_take, Nat.min_eq_left (by omega)]
    obtain ⟨len, rest, hrest⟩ := exists_be (bytes.drop (headerBytes - 2))
      (by rw [List.length_drop]; omega)
    have hbytes : bytes = bytes.take (headerBytes - 2) ++ (toBeBytes len ++ rest) := by
      rw [← hrest, List.take_append_drop]
    have hlength : bytes.length = headerBytes + rest.length := by
      have h := congrArg List.length hbytes
      simp only [List.length_append, hheaderLength, length_toBeBytes] at h
      omega
    have hlen : beAt bytes (headerBytes - 2) = some len := by
      rw [hbytes]
      exact beAt_append len hheaderLength
    rw [hlen] at haccepts
    change some _ = _ at haccepts
    split at haccepts
    · cases haccepts
    · rename_i hfits
      split at haccepts
      · cases haccepts
      · rename_i hexact
        have hrestLength : rest.length = len.toNat := by omega
        have hrestFits : rest.length ≤ sensorWifiUdpPayloadBytes := by omega
        refine ⟨bytes.take (headerBytes - 2),
          Padded.ofSlice rest hrestFits sensorWifiUdpPayloadBytes_lt, by omega, ?_⟩
        rw [Padded.slice_ofSlice, Padded.len_ofSlice, hrestLength, BitVec.ofNat_toNat,
          BitVec.setWidth_eq]
        exact hbytes

/-- The payload is read back. -/
theorem decodeUdpPayload_append (payload : UdpPayload)
    (hheader : header.length + 2 = headerBytes) :
    decodeUdpPayload headerBytes (header ++ (toBeBytes payload.len ++ payload.slice)) =
      some payload := by
  subst hheader
  have hlen : beAt (header ++ (toBeBytes payload.len ++ payload.slice))
      (header.length + 2 - 2) = some payload.len := beAt_append payload.len rfl
  have hslice : getSlice (header ++ (toBeBytes payload.len ++ payload.slice)) (header.length + 2)
      (header.length + 2 + payload.len.toNat) = some payload.slice := by
    rw [← List.append_assoc, ← List.append_nil (_ ++ payload.slice)]
    exact getSlice_next (by rw [List.length_append, length_toBeBytes])
      (by rw [Padded.length_slice])
  rw [decodeUdpPayload, hlen, Option.bind_eq_bind, Option.bind_some, hslice, Option.bind_eq_bind,
    Option.bind_some, Padded.copyFrom_slice]

end

/-! ### The datagram -/

/-- A datagram to send. -/
structure SensorWifiDatagram extends UdpPayload where
  dstIp : Ipv4Addr
  srcPort : U16
  dstPort : U16
  deriving DecidableEq

namespace SensorWifiDatagram

def new (dstIp : Ipv4Addr) (srcPort dstPort : U16) (payload : List U8) :
    Except SensorWifiPayloadError SensorWifiDatagram :=
  if hfits : payload.length ≤ sensorWifiUdpPayloadBytes then
    .ok ⟨Padded.ofSlice payload hfits sensorWifiUdpPayloadBytes_lt, dstIp, srcPort, dstPort⟩
  else .error .payloadTooLarge

/-- `encode_into`. -/
def encodeInto (self : SensorWifiDatagram) (out : List U8) :
    Option (Except CodecError ℕ × List U8) :=
  let len := sensorWifiDatagramHeaderBytes + self.len.toNat
  if out.length < len then some (.error .truncated, out)
  else do
    let out ← putSlice out 0 4 self.dstIp.octets
    let out ← putSlice out 4 6 (toBeBytes self.srcPort)
    let out ← putSlice out 6 8 (toBeBytes self.dstPort)
    let out ← putSlice out 8 10 (toBeBytes self.len)
    let out ← putSlice out 10 len self.slice
    some (.ok len, out)

/-- `validate_payload`. -/
def validatePayload (bytes : List U8) : Option (Except CodecError Unit) :=
  validateUdpPayload sensorWifiDatagramHeaderBytes bytes

/-- `decode_validated_payload`. -/
def decodeValidatedPayload (bytes : List U8) : Option SensorWifiDatagram := do
  let payload ← decodeUdpPayload sensorWifiDatagramHeaderBytes bytes
  let dstIp ← ipv4At bytes 0
  let srcPort ← beAt bytes 4
  let dstPort ← beAt bytes 6
  some ⟨payload, dstIp, srcPort, dstPort⟩

def codec : Codec U8 CodecError SensorWifiDatagram :=
  ⟨encodeInto, validatePayload, decodeValidatedPayload⟩

/-- A datagram that `new` returns. -/
def Built (self : SensorWifiDatagram) : Prop :=
  ∃ dstIp srcPort dstPort payload, new dstIp srcPort dstPort payload = .ok self

/-- What stands before the payload's length. -/
def header (self : SensorWifiDatagram) : List U8 :=
  self.dstIp.octets ++ toBeBytes self.srcPort ++ toBeBytes self.dstPort

def image (self : SensorWifiDatagram) : List U8 :=
  self.header ++ (toBeBytes self.len ++ self.slice)

theorem length_image (self : SensorWifiDatagram) :
    self.image.length = sensorWifiDatagramHeaderBytes + self.len.toNat := by
  rw [image, List.length_append, List.length_append, Padded.length_slice, length_toBeBytes,
    ← Nat.add_assoc]
  rfl

theorem built (self : SensorWifiDatagram) : self.Built := by
  refine ⟨self.dstIp, self.srcPort, self.dstPort, self.slice, ?_⟩
  rw [new, dif_pos self.slice_length_le, self.ofSlice_slice]

theorem encodeInto_eq (self : SensorWifiDatagram) (out : List U8) :
    self.encodeInto out = some (if out.length < self.image.length then (.error .truncated, out)
      else (.ok self.image.length, self.image ++ out.drop self.image.length)) := by
  rw [length_image, encodeInto]
  by_cases hshort : out.length < sensorWifiDatagramHeaderBytes + self.len.toNat
  · simp only [if_pos hshort]
  · have hroom : 10 + self.len.toNat ≤ out.length := Nat.not_lt.mp hshort
    simp only [if_neg hshort]
    rw [putSlice_zero_bind, putSlice_bind, putSlice_bind, putSlice_bind, putSlice_bind, image,
      ← List.append_assoc]
    · rfl
    all_goals first | rfl | omega | exact congrArg (10 + ·) self.length_slice

theorem codec_lawful : codec.Lawful .truncated image where
  encodeInto_eq := encodeInto_eq
  validate_total := validateUdpPayload_total (by decide)
  accepts_image self := by
    have haccepts : validateUdpPayload sensorWifiDatagramHeaderBytes
        (self.header ++ (toBeBytes self.len ++ self.slice)) = some (.ok ()) :=
      validateUdpPayload_append self.toPadded rfl
    exact haccepts
  decode_image self := by
    show decodeValidatedPayload self.image = _
    have hpayload : decodeUdpPayload sensorWifiDatagramHeaderBytes self.image =
        some self.toPadded := decodeUdpPayload_append self.toPadded rfl
    have hip : ipv4At self.image 0 = some self.dstIp := rfl
    have hsrc : beAt self.image 4 = some self.srcPort := by
      simp [image, header, Ipv4Addr.octets, beAt, toBeBytes, fromBeBytes]
    have hdst : beAt self.image 6 = some self.dstPort := by
      simp [image, header, Ipv4Addr.octets, beAt, toBeBytes, fromBeBytes]
    rw [decodeValidatedPayload, hpayload, hip, hsrc, hdst]
    rfl
  image_of_accepts bytes haccepts := by
    obtain ⟨front, payload, hlength, rfl⟩ := exists_of_validateUdpPayload (by decide) haccepts
    have hlength : front.length = 8 := Nat.succ.inj (Nat.succ.inj hlength)
    obtain ⟨dstIp, front, rfl⟩ := exists_ipv4 front (by omega)
    obtain ⟨srcPort, front, rfl⟩ := exists_be front (by simp at hlength; omega)
    obtain ⟨dstPort, front, rfl⟩ := exists_be front (by simp at hlength; omega)
    obtain rfl : front = [] := List.length_eq_zero_iff.mp (by simp at hlength; omega)
    exact ⟨⟨payload, dstIp, srcPort, dstPort⟩, rfl⟩

/-- **The datagram's codec.** -/
theorem codec_agrees : codec.Agrees .truncated Built := codec_lawful.agrees built

end SensorWifiDatagram

/-! ### The packet -/

/-- A packet received. -/
structure SensorWifiPacket extends UdpPayload where
  srcIp : Ipv4Addr
  dstIp : Ipv4Addr
  srcPort : U16
  dstPort : U16
  deriving DecidableEq

namespace SensorWifiPacket

/-- `from_proto`, of a packet with this payload. -/
def fromProto (srcIp dstIp : Ipv4Addr) (srcPort dstPort : U16) (payload : List U8) :
    Option SensorWifiPacket := do
  let payload ← Padded.copyFrom payload sensorWifiUdpPayloadBytes_lt
  some ⟨payload, srcIp, dstIp, srcPort, dstPort⟩

/-- `encode_into`. -/
def encodeInto (self : SensorWifiPacket) (out : List U8) :
    Option (Except CodecError ℕ × List U8) :=
  let len := sensorWifiPacketHeaderBytes + self.len.toNat
  if out.length < len then some (.error .truncated, out)
  else do
    let out ← putSlice out 0 4 self.srcIp.octets
    let out ← putSlice out 4 8 self.dstIp.octets
    let out ← putSlice out 8 10 (toBeBytes self.srcPort)
    let out ← putSlice out 10 12 (toBeBytes self.dstPort)
    let out ← putSlice out 12 14 (toBeBytes self.len)
    let out ← putSlice out 14 len self.slice
    some (.ok len, out)

/-- `validate_payload`. -/
def validatePayload (bytes : List U8) : Option (Except CodecError Unit) :=
  validateUdpPayload sensorWifiPacketHeaderBytes bytes

/-- `decode_validated_payload`. -/
def decodeValidatedPayload (bytes : List U8) : Option SensorWifiPacket := do
  let payload ← decodeUdpPayload sensorWifiPacketHeaderBytes bytes
  let srcIp ← ipv4At bytes 0
  let dstIp ← ipv4At bytes 4
  let srcPort ← beAt bytes 8
  let dstPort ← beAt bytes 10
  some ⟨payload, srcIp, dstIp, srcPort, dstPort⟩

def codec : Codec U8 CodecError SensorWifiPacket :=
  ⟨encodeInto, validatePayload, decodeValidatedPayload⟩

/-- A packet whose payload is within the buffer, with zeros behind it. -/
def Built (self : SensorWifiPacket) : Prop :=
  ∃ srcIp dstIp srcPort dstPort payload,
    fromProto srcIp dstIp srcPort dstPort payload = some self

/-- What stands before the payload's length. -/
def header (self : SensorWifiPacket) : List U8 :=
  self.srcIp.octets ++ self.dstIp.octets ++ toBeBytes self.srcPort ++ toBeBytes self.dstPort

def image (self : SensorWifiPacket) : List U8 :=
  self.header ++ (toBeBytes self.len ++ self.slice)

theorem length_image (self : SensorWifiPacket) :
    self.image.length = sensorWifiPacketHeaderBytes + self.len.toNat := by
  rw [image, List.length_append, List.length_append, Padded.length_slice, length_toBeBytes,
    ← Nat.add_assoc]
  rfl

theorem built (self : SensorWifiPacket) : self.Built := by
  refine ⟨self.srcIp, self.dstIp, self.srcPort, self.dstPort, self.slice, ?_⟩
  rw [fromProto, Padded.copyFrom_slice]
  rfl

theorem encodeInto_eq (self : SensorWifiPacket) (out : List U8) :
    self.encodeInto out = some (if out.length < self.image.length then (.error .truncated, out)
      else (.ok self.image.length, self.image ++ out.drop self.image.length)) := by
  rw [length_image, encodeInto]
  by_cases hshort : out.length < sensorWifiPacketHeaderBytes + self.len.toNat
  · simp only [if_pos hshort]
  · have hroom : 14 + self.len.toNat ≤ out.length := Nat.not_lt.mp hshort
    simp only [if_neg hshort]
    rw [putSlice_zero_bind, putSlice_bind, putSlice_bind, putSlice_bind, putSlice_bind,
      putSlice_bind, image, ← List.append_assoc]
    · rfl
    all_goals first | rfl | omega | exact congrArg (14 + ·) self.length_slice

theorem codec_lawful : codec.Lawful .truncated image where
  encodeInto_eq := encodeInto_eq
  validate_total := validateUdpPayload_total (by decide)
  accepts_image self := by
    have haccepts : validateUdpPayload sensorWifiPacketHeaderBytes
        (self.header ++ (toBeBytes self.len ++ self.slice)) = some (.ok ()) :=
      validateUdpPayload_append self.toPadded rfl
    exact haccepts
  decode_image self := by
    show decodeValidatedPayload self.image = _
    have hpayload : decodeUdpPayload sensorWifiPacketHeaderBytes self.image =
        some self.toPadded := decodeUdpPayload_append self.toPadded rfl
    have hsrcIp : ipv4At self.image 0 = some self.srcIp := rfl
    have hdstIp : ipv4At self.image 4 = some self.dstIp := rfl
    have hsrc : beAt self.image 8 = some self.srcPort := by
      simp [image, header, Ipv4Addr.octets, beAt, toBeBytes, fromBeBytes]
    have hdst : beAt self.image 10 = some self.dstPort := by
      simp [image, header, Ipv4Addr.octets, beAt, toBeBytes, fromBeBytes]
    rw [decodeValidatedPayload, hpayload, hsrcIp, hdstIp, hsrc, hdst]
    rfl
  image_of_accepts bytes haccepts := by
    obtain ⟨front, payload, hlength, rfl⟩ := exists_of_validateUdpPayload (by decide) haccepts
    have hlength : front.length = 12 := Nat.succ.inj (Nat.succ.inj hlength)
    obtain ⟨srcIp, front, rfl⟩ := exists_ipv4 front (by omega)
    obtain ⟨dstIp, front, rfl⟩ := exists_ipv4 front (by simp at hlength; omega)
    obtain ⟨srcPort, front, rfl⟩ := exists_be front (by simp at hlength; omega)
    obtain ⟨dstPort, front, rfl⟩ := exists_be front (by simp at hlength; omega)
    obtain rfl : front = [] := List.length_eq_zero_iff.mp (by simp at hlength; omega)
    exact ⟨⟨payload, srcIp, dstIp, srcPort, dstPort⟩, rfl⟩

/-- **The packet's codec.** -/
theorem codec_agrees : codec.Agrees .truncated Built := codec_lawful.agrees built

end SensorWifiPacket

/-- **The payload codecs agree.**  Each of the five accepts the images of the values its checked
constructors make and nothing else, decodes what it encoded and encodes what it decoded, and
writes the whole image or nothing. -/
theorem payload_codecs_agree :
    UnoQ.FaceFrame.codec.Agrees .truncated UnoQ.FaceFrame.Built ∧
    UnoQ.HumanInputText.codec.Agrees .truncated UnoQ.HumanInputText.Built ∧
    Pico2wSensorSample.codec.Agrees .truncated Pico2wSensorSample.Built ∧
    SensorWifiDatagram.codec.Agrees .truncated SensorWifiDatagram.Built ∧
    SensorWifiPacket.codec.Agrees .truncated SensorWifiPacket.Built :=
  ⟨UnoQ.FaceFrame.codec_agrees, UnoQ.HumanInputText.codec_agrees,
    Pico2wSensorSample.codec_agrees, SensorWifiDatagram.codec_agrees,
    SensorWifiPacket.codec_agrees⟩

end HibanaPico.SensorPanel
