import Mathlib.Algebra.Group.Nat.Defs
import Mathlib.Order.Nat

/-!
# Support — Wire

Buffers written and read a slice at a time, arrays filled from the front, and what it is for an
encoder, a validator and a decoder to agree.

* `putSlice_next`, `getSlice_next`: a slice is written where the last one ended, and read back.
* `Padded.ofSlice_slice`: an array filled from the front is the slice at its front.
* `Codec.Lawful.agrees`: an encoder that writes one image for each value, a validator that accepts
  the images and a decoder that inverts them agree on every byte string.
-/

namespace HibanaPico.Wire

universe u v w

variable {β : Type u} {ε : Type v} {α : Type w}

/-! ### Slices -/

/-- `out[i] = x`; `none` is a panic. -/
def putAt (out : List β) (i : ℕ) (x : β) : Option (List β) :=
  if i < out.length then some (out.set i x) else none

/-- `out[i..j].copy_from_slice(src)`; `none` is a panic. -/
def putSlice (out : List β) (i j : ℕ) (src : List β) : Option (List β) :=
  if i ≤ j ∧ j ≤ out.length ∧ src.length = j - i then some (out.take i ++ src ++ out.drop j)
  else none

/-- `&bytes[i..j]`; `none` is a panic. -/
def getSlice (bytes : List β) (i j : ℕ) : Option (List β) :=
  if i ≤ j ∧ j ≤ bytes.length then some ((bytes.take j).drop i) else none

/-- The next element goes behind what is written. -/
theorem putAt_next {written out : List β} {i : ℕ} (x : β) (hi : written.length = i)
    (hout : i < out.length) :
    putAt (written ++ out.drop i) i x = some (written ++ [x] ++ out.drop (i + 1)) := by
  subst hi
  have hlength : written.length < (written ++ out.drop written.length).length := by
    rw [List.length_append, List.length_drop]
    omega
  rw [putAt, if_pos hlength, List.set_append_right _ _ (Nat.le_refl _), Nat.sub_self,
    List.drop_eq_getElem_cons hout, List.set_cons_zero, List.append_assoc]
  rfl

/-- The next slice goes behind what is written. -/
theorem putSlice_next {written src out : List β} {i j : ℕ} (hi : written.length = i)
    (hj : i + src.length = j) (hout : j ≤ out.length) :
    putSlice (written ++ out.drop i) i j src = some (written ++ src ++ out.drop j) := by
  subst hi hj
  have hlength : (written ++ out.drop written.length).length = out.length := by
    rw [List.length_append, List.length_drop]
    omega
  have htake : (written ++ out.drop written.length).take written.length = written :=
    List.take_left
  have hdrop : (written ++ out.drop written.length).drop (written.length + src.length) =
      out.drop (written.length + src.length) := by
    rw [List.drop_append, List.drop_drop, List.drop_eq_nil_of_le (Nat.le_add_right _ _),
      List.nil_append]
    congr 1
    omega
  rw [putSlice, if_pos ⟨Nat.le_add_right _ _, by rw [hlength]; exact hout, by omega⟩, htake, hdrop]

/-- An element is written at the front, and the encoder goes on. -/
theorem putAt_bind {γ : Type u} {out : List β} {x : β} (k : List β → Option γ)
    (hout : 0 < out.length) : (putAt out 0 x >>= k) = k ([x] ++ out.drop 1) := by
  have hput : putAt ([] ++ out.drop 0) 0 x = some ([] ++ [x] ++ out.drop 1) :=
    putAt_next x List.length_nil hout
  exact congrArg (· >>= k) hput

/-- A slice is written behind what is written, and the encoder goes on. -/
theorem putSlice_bind {γ : Type u} {written src out : List β} {i j : ℕ} (k : List β → Option γ)
    (hi : written.length = i) (hj : i + src.length = j) (hout : j ≤ out.length) :
    (putSlice (written ++ out.drop i) i j src >>= k) = k (written ++ src ++ out.drop j) := by
  rw [putSlice_next hi hj hout]
  rfl

/-- A slice is written at the front, and the encoder goes on. -/
theorem putSlice_zero_bind {γ : Type u} {src out : List β} {j : ℕ} (k : List β → Option γ)
    (hj : src.length = j) (hout : j ≤ out.length) :
    (putSlice out 0 j src >>= k) = k (src ++ out.drop j) := by
  have hput : putSlice ([] ++ out.drop 0) 0 j src = some ([] ++ src ++ out.drop j) :=
    putSlice_next List.length_nil (by rw [hj, Nat.zero_add]) hout
  exact congrArg (· >>= k) hput

/-- A slice reads back from where it was written. -/
theorem getSlice_next {written slice rest : List β} {i j : ℕ} (hi : written.length = i)
    (hj : i + slice.length = j) : getSlice (written ++ slice ++ rest) i j = some slice := by
  subst hi hj
  have hle : written.length + slice.length ≤ (written ++ slice ++ rest).length := by
    simp only [List.length_append]
    omega
  have htake : (written ++ slice ++ rest).take (written.length + slice.length) =
      written ++ slice := by
    rw [← List.length_append, List.take_left]
  rw [getSlice, if_pos ⟨Nat.le_add_right _ _, hle⟩, htake, List.drop_left]

theorem getSlice_append (before bytes : List β) (i j : ℕ) :
    getSlice (before ++ bytes) (before.length + i) (before.length + j) = getSlice bytes i j := by
  have bounds : (before.length + i ≤ before.length + j ∧
      before.length + j ≤ (before ++ bytes).length) ↔ i ≤ j ∧ j ≤ bytes.length := by
    rw [List.length_append, Nat.add_le_add_iff_left, Nat.add_le_add_iff_left]
  have slice : ((before ++ bytes).take (before.length + j)).drop (before.length + i) =
      (bytes.take j).drop i := by
    rw [List.take_length_add_append, List.drop_length_add_append]
  rw [getSlice, getSlice, slice]
  exact if_congr bounds rfl rfl

/-! ### Arrays filled from the front -/

/-- A slice of at most `size` elements and its length in `width` bits, in an array the rest of
which holds `pad`. -/
structure Padded (pad : β) (width size : ℕ) where
  len : BitVec width
  cells : List β
  fits : len.toNat ≤ size
  size_eq : cells.length = size
  padded : cells.drop len.toNat = List.replicate (size - len.toNat) pad
  deriving DecidableEq

namespace Padded

variable {pad : β} {width size : ℕ}

@[ext] theorem ext {p q : Padded pad width size} (hlen : p.len = q.len)
    (hcells : p.cells = q.cells) : p = q := by
  cases p
  cases q
  cases hlen
  cases hcells
  rfl

/-- The slice: `&cells[..len]`. -/
def slice (self : Padded pad width size) : List β := self.cells.take self.len.toNat

@[simp] theorem length_slice (self : Padded pad width size) :
    self.slice.length = self.len.toNat := by
  rw [slice, List.length_take, self.size_eq, Nat.min_eq_left self.fits]

theorem toNat_ofNat_length {xs : List β} (hfits : xs.length ≤ size) (hwidth : size < 2 ^ width) :
    (BitVec.ofNat width xs.length).toNat = xs.length := by
  rw [BitVec.toNat_ofNat, Nat.mod_eq_of_lt (Nat.lt_of_le_of_lt hfits hwidth)]

/-- An array of `pad` with `xs` copied to its front. -/
def ofSlice (xs : List β) (hfits : xs.length ≤ size) (hwidth : size < 2 ^ width) :
    Padded pad width size where
  len := BitVec.ofNat width xs.length
  cells := xs ++ List.replicate (size - xs.length) pad
  fits := by rw [toNat_ofNat_length hfits hwidth]; exact hfits
  size_eq := by rw [List.length_append, List.length_replicate, Nat.add_sub_cancel' hfits]
  padded := by rw [toNat_ofNat_length hfits hwidth, List.drop_left]

theorem len_ofSlice {xs : List β} (hfits : xs.length ≤ size) (hwidth : size < 2 ^ width) :
    (ofSlice xs hfits hwidth : Padded pad width size).len = BitVec.ofNat width xs.length := rfl

@[simp] theorem slice_ofSlice {xs : List β} (hfits : xs.length ≤ size)
    (hwidth : size < 2 ^ width) :
    (ofSlice xs hfits hwidth : Padded pad width size).slice = xs := by
  rw [slice, ofSlice, toNat_ofNat_length hfits hwidth, List.take_left]

theorem slice_length_le (self : Padded pad width size) : self.slice.length ≤ size := by
  rw [length_slice]
  exact self.fits

/-- The array is the slice at its front. -/
@[simp] theorem ofSlice_slice (self : Padded pad width size) (hfits : self.slice.length ≤ size)
    (hwidth : size < 2 ^ width) : ofSlice self.slice hfits hwidth = self := by
  apply ext
  · show BitVec.ofNat width self.slice.length = self.len
    rw [length_slice, BitVec.ofNat_toNat, BitVec.setWidth_eq]
  · show self.slice ++ List.replicate (size - self.slice.length) pad = self.cells
    rw [length_slice, ← self.padded, slice, List.take_append_drop]

/-- `ofSlice`, where the copy may run over the end of the array. -/
def copyFrom (xs : List β) (hwidth : size < 2 ^ width) : Option (Padded pad width size) :=
  if hfits : xs.length ≤ size then some (ofSlice xs hfits hwidth) else none

@[simp] theorem copyFrom_slice (self : Padded pad width size) (hwidth : size < 2 ^ width) :
    copyFrom self.slice hwidth = some self := by
  rw [copyFrom, dif_pos self.slice_length_le, ofSlice_slice]

end Padded

/-! ### Codecs -/

/-- The three functions of a payload type; `none` is a panic. -/
structure Codec (β : Type u) (ε : Type v) (α : Type w) where
  /-- `encode_into`, with the buffer it leaves. -/
  encodeInto : α → List β → Option (Except ε ℕ × List β)
  validatePayload : List β → Option (Except ε Unit)
  decodeValidatedPayload : List β → Option α

namespace Codec

variable {c : Codec β ε α} {truncated : ε}

/-- `bytes` is what the encoder says it has written at the front of some buffer. -/
def Image (c : Codec β ε α) (value : α) (bytes : List β) : Prop :=
  ∃ out rest, c.encodeInto value out = some (.ok bytes.length, bytes ++ rest)

def Accepts (c : Codec β ε α) (bytes : List β) : Prop := c.validatePayload bytes = some (.ok ())

/-- The three functions agree on the values that are `Built` and on every byte string. -/
structure Agrees (c : Codec β ε α) (truncated : ε) (Built : α → Prop) : Prop where
  accepts_iff : ∀ bytes, c.Accepts bytes ↔ ∃ value, Built value ∧ c.Image value bytes
  validate_total : ∀ bytes, (c.validatePayload bytes).isSome = true
  decode_encode : ∀ value bytes, Built value → c.Image value bytes →
    c.decodeValidatedPayload bytes = some value
  encode_decode : ∀ bytes, c.Accepts bytes →
    ∃ value, c.decodeValidatedPayload bytes = some value ∧ Built value ∧ c.Image value bytes
  encode_writes : ∀ value, Built value → ∃ image,
    (∀ bytes, c.Image value bytes ↔ bytes = image) ∧
    ∀ out, c.encodeInto value out =
      some (if out.length < image.length then (.error truncated, out)
        else (.ok image.length, image ++ out.drop image.length))

/-- Every value has one image, which the validator accepts and the decoder inverts, and the
validator accepts nothing else. -/
structure Lawful (c : Codec β ε α) (truncated : ε) (image : α → List β) : Prop where
  encodeInto_eq : ∀ value out, c.encodeInto value out =
    some (if out.length < (image value).length then (.error truncated, out)
      else (.ok (image value).length, image value ++ out.drop (image value).length))
  validate_total : ∀ bytes, (c.validatePayload bytes).isSome = true
  accepts_image : ∀ value, c.Accepts (image value)
  decode_image : ∀ value, c.decodeValidatedPayload (image value) = some value
  image_of_accepts : ∀ bytes, c.Accepts bytes → ∃ value, image value = bytes

theorem Lawful.image_iff {image : α → List β} (h : c.Lawful truncated image) (value : α)
    (bytes : List β) : c.Image value bytes ↔ bytes = image value := by
  constructor
  · rintro ⟨out, rest, hencode⟩
    rw [h.encodeInto_eq] at hencode
    split at hencode
    · cases hencode
    · have heq := Option.some.inj hencode
      injection heq with hlength happend
      injection hlength with hlength
      exact (List.append_inj happend hlength).1.symm
  · rintro rfl
    refine ⟨image value, [], ?_⟩
    rw [h.encodeInto_eq, if_neg (Nat.lt_irrefl _), List.drop_length]

/-- **A lawful codec agrees.** -/
theorem Lawful.agrees {image : α → List β} (h : c.Lawful truncated image) {Built : α → Prop}
    (hbuilt : ∀ value, Built value) : c.Agrees truncated Built where
  accepts_iff bytes := by
    constructor
    · intro haccepts
      obtain ⟨value, rfl⟩ := h.image_of_accepts bytes haccepts
      exact ⟨value, hbuilt value, (h.image_iff value _).mpr rfl⟩
    · rintro ⟨value, -, himage⟩
      rw [(h.image_iff value bytes).mp himage]
      exact h.accepts_image value
  validate_total := h.validate_total
  decode_encode value bytes _ himage := by
    rw [(h.image_iff value bytes).mp himage]
    exact h.decode_image value
  encode_decode bytes haccepts := by
    obtain ⟨value, rfl⟩ := h.image_of_accepts bytes haccepts
    exact ⟨value, h.decode_image value, hbuilt value, (h.image_iff value _).mpr rfl⟩
  encode_writes value _ := ⟨image value, h.image_iff value, h.encodeInto_eq value⟩

end Codec

end HibanaPico.Wire
