import HibanaPico.SensorPanel.Sample
import HibanaPico.Support.Wire

/-!
# Uno Q — Protocol

The payloads of the Uno Q's own messages: a `FaceFrame` for the LED matrix and a `HumanInputText`
for the language model, each with its checked constructor and its codec.

* `FaceFrame.codec_agrees`, `HumanInputText.codec_agrees`: the encoder, the validator and the
  decoder of each agree on every byte string.
-/

namespace HibanaPico.UnoQ
open HibanaPico.Transport
open HibanaPico.SensorPanel (ProtocolError CodecError)
open HibanaPico.Wire

/-- `.map(|_| ()).map_err(|_| CodecError::Malformed)`. -/
def orMalformed {α : Type} : Except ProtocolError α → Except CodecError Unit
  | .ok _ => .ok ()
  | .error _ => .error .malformed

/-- `UnoQRuntimeError`, of the errors that the modelled roles raise themselves. -/
inductive UnoQRuntimeError where
  | localProtocol (error : ProtocolError)
  | runtimeViolation
  deriving DecidableEq, Repr

/-! ### The face frame -/

def faceNeutral : U8 := 0
def faceHappy : U8 := 1
def faceSad : U8 := 2
def faceAngry : U8 := 3
def faceSurprised : U8 := 4
def faceThinking : U8 := 5
def faceSpeaking : U8 := 6
def faceMouthClosed : U8 := 16
def faceMouthSmall : U8 := 17
def faceMouthWide : U8 := 18
def faceMouthRound : U8 := 19

/-- `validate_display_face`. -/
def validateDisplayFace (face : U8) : Except ProtocolError Unit :=
  if face ∈ [faceNeutral, faceHappy, faceSad, faceAngry, faceSurprised, faceThinking,
      faceSpeaking, faceMouthClosed, faceMouthSmall, faceMouthWide, faceMouthRound] then .ok ()
  else .error .invalidEmotion

/-- A face frame: its fields are private, and its face has been validated. -/
structure FaceFrame where
  face : U8
  ordinal : U8
  valid : validateDisplayFace face = .ok ()
  deriving DecidableEq

namespace FaceFrame

def new (face ordinal : U8) : Except ProtocolError FaceFrame :=
  match h : validateDisplayFace face with
  | .ok () => .ok ⟨face, ordinal, h⟩
  | .error e => .error e

/-- `encode_into`. -/
def encodeInto (self : FaceFrame) (out : List U8) : Option (Except CodecError ℕ × List U8) :=
  if out.length < 2 then some (.error .truncated, out)
  else do
    let out ← putAt out 0 self.face
    let out ← putAt out 1 self.ordinal
    some (.ok 2, out)

/-- `validate_payload`. -/
def validatePayload (bytes : List U8) : Option (Except CodecError Unit) :=
  if bytes.length ≠ 2 then some (.error .malformed)
  else do
    let face ← bytes[0]?
    let ordinal ← bytes[1]?
    some (orMalformed (new face ordinal))

/-- `decode_validated_payload`. -/
def decodeValidatedPayload (bytes : List U8) : Option FaceFrame := do
  let face ← bytes[0]?
  let ordinal ← bytes[1]?
  match new face ordinal with
  | .ok value => some value
  | .error _ => none

def codec : Codec U8 CodecError FaceFrame := ⟨encodeInto, validatePayload, decodeValidatedPayload⟩

/-- A frame that `new` returns. -/
def Built (self : FaceFrame) : Prop := ∃ face ordinal, new face ordinal = .ok self

def image (self : FaceFrame) : List U8 := [self.face, self.ordinal]

theorem new_of_valid {face : U8} (h : validateDisplayFace face = .ok ()) (ordinal : U8) :
    new face ordinal = .ok ⟨face, ordinal, h⟩ := by
  unfold new
  split
  · rfl
  · rename_i e herr
    rw [h] at herr
    cases herr

@[simp] theorem new_eta (self : FaceFrame) : new self.face self.ordinal = .ok self :=
  new_of_valid self.valid self.ordinal

theorem built (self : FaceFrame) : self.Built := ⟨self.face, self.ordinal, self.new_eta⟩

/-- What `new` lets through is that face and that ordinal. -/
theorem image_of_new {face ordinal : U8} {self : FaceFrame} (h : new face ordinal = .ok self) :
    self.image = [face, ordinal] := by
  unfold new at h
  split at h
  · cases h
    rfl
  · cases h

theorem codec_lawful : codec.Lawful .truncated image where
  encodeInto_eq self out := by
    show encodeInto self out = _
    by_cases hshort : out.length < 2
    · rw [encodeInto, if_pos hshort]
      exact congrArg some (if_pos hshort).symm
    · rw [encodeInto, if_neg hshort, putAt_bind _ (by omega)]
      have hordinal : putAt ([self.face] ++ out.drop 1) 1 self.ordinal =
          some ([self.face] ++ [self.ordinal] ++ out.drop 2) :=
        putAt_next self.ordinal rfl (by omega)
      rw [hordinal]
      exact congrArg some (if_neg hshort).symm
  validate_total bytes := by
    show (validatePayload bytes).isSome = true
    rcases bytes with _ | ⟨face, _ | ⟨ordinal, _ | ⟨_, _⟩⟩⟩ <;> rfl
  accepts_image self := by
    show validatePayload [self.face, self.ordinal] = _
    simp only [validatePayload, List.length_cons, List.length_nil, ne_eq, not_true_eq_false,
      if_false]
    show some (orMalformed (new self.face self.ordinal)) = _
    rw [new_eta]
    rfl
  decode_image self := by
    show decodeValidatedPayload [self.face, self.ordinal] = _
    simp [decodeValidatedPayload]
  image_of_accepts bytes haccepts := by
    change validatePayload bytes = _ at haccepts
    rcases bytes with _ | ⟨face, _ | ⟨ordinal, _ | ⟨_, _⟩⟩⟩
    · cases haccepts
    · cases haccepts
    · change some (orMalformed (new face ordinal)) = _ at haccepts
      cases hnew : new face ordinal with
      | ok self => exact ⟨self, image_of_new hnew⟩
      | error e =>
          rw [hnew] at haccepts
          cases haccepts
    · cases haccepts

/-- **The face frame's codec.** -/
theorem codec_agrees : codec.Agrees .truncated Built := codec_lawful.agrees built

end FaceFrame

/-! ### The human's text -/

def humanInputTextBytes : ℕ := 96

theorem humanInputTextBytes_lt : humanInputTextBytes < 2 ^ 8 := by decide

/-- `core::str::from_utf8(bytes).is_ok()`. -/
def fromUtf8 (bytes : List U8) : Bool :=
  ByteArray.validateUTF8 ⟨(bytes.map UInt8.ofBitVec).toArray⟩

/-- A text: its length, and its bytes at the front of an array of 96.  Its fields are private,
and its bytes have been validated. -/
structure HumanInputText extends Padded (0 : U8) 8 humanInputTextBytes where
  utf8 : fromUtf8 toPadded.slice = true
  deriving DecidableEq

namespace HumanInputText

theorem utf8_ofSlice {input : List U8} (hfits : input.length ≤ humanInputTextBytes)
    (h : fromUtf8 input = true) :
    fromUtf8 (Padded.ofSlice input hfits humanInputTextBytes_lt : Padded (0 : U8) 8 _).slice =
      true := by
  rw [Padded.slice_ofSlice]
  exact h

theorem fromUtf8_nil : fromUtf8 [] = true := by decide +kernel

def empty : HumanInputText :=
  ⟨Padded.ofSlice [] (Nat.zero_le _) humanInputTextBytes_lt,
    utf8_ofSlice (Nat.zero_le _) fromUtf8_nil⟩

/-- `from_bytes`. -/
def fromBytes (input : List U8) : Except ProtocolError HumanInputText :=
  if hlong : input.length ≤ humanInputTextBytes then
    if hutf8 : fromUtf8 input = true then
      .ok ⟨Padded.ofSlice input hlong humanInputTextBytes_lt, utf8_ofSlice hlong hutf8⟩
    else .error .humanInputInvalidUtf8
  else .error .humanInputTooLong

/-- `as_bytes`. -/
def asBytes (self : HumanInputText) : List U8 := self.slice

/-- `as_str`: the bytes of the `&str`. -/
def asStr (self : HumanInputText) : Except ProtocolError (List U8) :=
  if fromUtf8 self.asBytes = true then .ok self.asBytes else .error .humanInputInvalidUtf8

/-- `encode_into`. -/
def encodeInto (self : HumanInputText) (out : List U8) :
    Option (Except CodecError ℕ × List U8) :=
  let len := self.len.toNat
  if out.length < 1 + len then some (.error .truncated, out)
  else do
    let out ← putAt out 0 self.len
    let out ← putSlice out 1 (1 + len) self.asBytes
    some (.ok (1 + len), out)

/-- `validate_payload`. -/
def validatePayload (bytes : List U8) : Option (Except CodecError Unit) :=
  match bytes with
  | [] => some (.error .malformed)
  | len :: rest =>
      if humanInputTextBytes < len.toNat then some (.error .malformed)
      else if rest.length ≠ len.toNat then some (.error .malformed)
      else some (orMalformed (fromBytes rest))

/-- `decode_validated_payload`. -/
def decodeValidatedPayload (bytes : List U8) : Option HumanInputText := do
  let len ← bytes[0]?
  let text ← getSlice bytes 1 (1 + len.toNat)
  match fromBytes text with
  | .ok value => some value
  | .error _ => none

def codec : Codec U8 CodecError HumanInputText :=
  ⟨encodeInto, validatePayload, decodeValidatedPayload⟩

/-- A text that `from_bytes` returns: so do `new`, of the bytes of a `&str`, and `empty`. -/
def Built (self : HumanInputText) : Prop := ∃ input, fromBytes input = .ok self

def image (self : HumanInputText) : List U8 := self.len :: self.slice

theorem ext_slice {self other : HumanInputText} (h : self.toPadded = other.toPadded) :
    self = other := by
  cases self
  cases other
  cases h
  rfl

@[simp] theorem fromBytes_asBytes (self : HumanInputText) :
    fromBytes self.asBytes = .ok self := by
  have hfits : self.asBytes.length ≤ humanInputTextBytes := self.slice_length_le
  have hutf8 : fromUtf8 self.asBytes = true := self.utf8
  rw [fromBytes, dif_pos hfits, dif_pos hutf8]
  exact congrArg Except.ok (ext_slice (self.ofSlice_slice hfits humanInputTextBytes_lt))

theorem asBytes_of_fromBytes {input : List U8} {self : HumanInputText}
    (h : fromBytes input = .ok self) : self.asBytes = input := by
  unfold fromBytes at h
  split at h
  · split at h
    · cases h
      exact Padded.slice_ofSlice ‹_› humanInputTextBytes_lt
    · cases h
  · cases h

theorem built (self : HumanInputText) : self.Built := ⟨self.asBytes, self.fromBytes_asBytes⟩

/-- A text can always be read as a string. -/
theorem asStr_eq (self : HumanInputText) : self.asStr = .ok self.asBytes := if_pos self.utf8

theorem length_asBytes (self : HumanInputText) : self.asBytes.length = self.len.toNat :=
  self.length_slice

theorem codec_lawful : codec.Lawful .truncated image where
  encodeInto_eq self out := by
    show encodeInto self out = _
    have hlength : (image self).length = 1 + self.len.toNat := by
      rw [image, List.length_cons, Padded.length_slice, Nat.add_comm]
    rw [hlength]
    by_cases hshort : out.length < 1 + self.len.toNat
    · rw [encodeInto, if_pos hshort, if_pos hshort]
    · rw [encodeInto]
      simp only [if_neg hshort]
      rw [putAt_bind _ (by omega), putSlice_bind]
      · rfl
      · rfl
      · rw [length_asBytes]
      · omega
  validate_total bytes := by
    show (validatePayload bytes).isSome = true
    unfold validatePayload
    split
    · rfl
    · split
      · rfl
      · split <;> rfl
  accepts_image self := by
    show validatePayload (self.len :: self.slice) = _
    have hlength : self.slice.length = self.len.toNat := self.length_slice
    have htext : fromBytes self.slice = .ok self := self.fromBytes_asBytes
    rw [validatePayload, if_neg (Nat.not_lt.mpr self.fits), if_neg (not_not.mpr hlength), htext]
    rfl
  decode_image self := by
    show decodeValidatedPayload (self.len :: self.slice) = _
    have hslice : getSlice ([self.len] ++ self.slice ++ []) 1 (1 + self.len.toNat) =
        some self.asBytes :=
      getSlice_next rfl (by rw [self.length_slice])
    rw [List.append_nil] at hslice
    change getSlice (self.len :: self.slice) 1 (1 + self.len.toNat) = _ at hslice
    simp only [decodeValidatedPayload, List.getElem?_cons_zero, Option.bind_eq_bind,
      Option.bind_some, hslice, fromBytes_asBytes]
  image_of_accepts bytes haccepts := by
    change validatePayload bytes = _ at haccepts
    unfold validatePayload at haccepts
    split at haccepts
    · cases haccepts
    · rename_i len rest
      split at haccepts
      · cases haccepts
      · split at haccepts
        · cases haccepts
        · rename_i hlength
          have hlength : rest.length = len.toNat := not_not.mp hlength
          cases hnew : fromBytes rest with
          | ok self =>
              have hrest : self.asBytes = rest := asBytes_of_fromBytes hnew
              have hlen : self.len = len := by
                apply BitVec.eq_of_toNat_eq
                rw [← length_asBytes, hrest, hlength]
              exact ⟨self, by rw [image, hlen]; exact congrArg _ hrest⟩
          | error e =>
              rw [hnew] at haccepts
              cases haccepts

/-- **The human's text's codec.** -/
theorem codec_agrees : codec.Agrees .truncated Built := codec_lawful.agrees built

end HumanInputText

end HibanaPico.UnoQ
