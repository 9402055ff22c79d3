import Mathlib.Algebra.Group.Nat.Defs
import HibanaPico.Support.Cyclic
import HibanaPico.Support.Ledger
import HibanaPico.Support.Lists
import HibanaPico.Support.Runs
import HibanaPico.Transport.Types

/-!
# Uno Q — LED matrix

The matrix of 8 by 13 LEDs, lit one at a time: every tick of the M33's `SysTick` drives the pair of
pins of the next lit LED, from the place behind the last one.  A read past the end of an array
answers nothing.  `write_face` runs with interrupts off, so it falls between two ticks.

* `writeFace`: the bitmap, bit by bit.
* `matrixBit`, `nextLitIndex`: the scan.
* `turnLed`: the port, write by write; `Gpiof.drives`: which LED it drives.
* `matrixMachine`: ticks and faces, in any order.
* `matrix_scan`: what is driven, in any window of ticks.
-/

namespace HibanaPico.UnoQ
open HibanaPico.Support
open HibanaPico.Transport

def numMatrixLeds : ℕ := 104
def matrixBytes : ℕ := 13

/-- `CHARLIE_PAIRS`: the pin an LED has its high level from, and the pin of its low level. -/
def charliePairs : List (ℕ × ℕ) :=
  [(0, 1), (1, 0), (0, 2), (2, 0), (1, 2), (2, 1), (0, 3), (3, 0), (1, 3), (3, 1), (2, 3), (3, 2),
    (0, 4), (4, 0), (1, 4), (4, 1), (2, 4), (4, 2), (3, 4), (4, 3), (0, 5), (5, 0), (1, 5), (5, 1),
    (2, 5), (5, 2), (3, 5), (5, 3), (4, 5), (5, 4), (0, 6), (6, 0), (1, 6), (6, 1), (2, 6), (6, 2),
    (3, 6), (6, 3), (4, 6), (6, 4), (5, 6), (6, 5), (0, 7), (7, 0), (1, 7), (7, 1), (2, 7), (7, 2),
    (3, 7), (7, 3), (4, 7), (7, 4), (5, 7), (7, 5), (6, 7), (7, 6), (0, 8), (8, 0), (1, 8), (8, 1),
    (2, 8), (8, 2), (3, 8), (8, 3), (4, 8), (8, 4), (5, 8), (8, 5), (6, 8), (8, 6), (7, 8), (8, 7),
    (0, 9), (9, 0), (1, 9), (9, 1), (2, 9), (9, 2), (3, 9), (9, 3), (4, 9), (9, 4), (5, 9), (9, 5),
    (6, 9), (9, 6), (7, 9), (9, 7), (8, 9), (9, 8), (0, 10), (10, 0), (1, 10), (10, 1), (2, 10),
    (10, 2), (3, 10), (10, 3), (4, 10), (10, 4), (5, 10), (10, 5), (6, 10), (10, 6)]

/-- `[&[u8; 13]; 8]`. -/
abbrev FaceRows := Vector (Vector U8 13) 8

/-- `LedRendererState`. -/
structure LedRendererState where
  packed : Vector U8 matrixBytes
  scanIndex : U8
  deriving DecidableEq

/-- The registers of `GPIOF` that a tick writes: the modes of the pins, two bits each, and their
levels. -/
structure Gpiof where
  moder : U32
  odr : BitVec 16
  deriving DecidableEq

/-- `HIBANA_M33_*`: what the renderer leaves for a debugger. -/
structure MatrixMarkers where
  scanTicks : U32
  scanIndex : U32
  litTicks : U32
  lastLitLed : U32
  matrixWord0 : U32
  matrixBits : U32
  deriving DecidableEq

structure MatrixState where
  renderer : LedRendererState
  gpiof : Gpiof
  markers : MatrixMarkers
  deriving DecidableEq

/-! ### The bitmap -/

/-- One turn of the inner loop of `write_face`, on the bitmap and the number of bits set. -/
def writeCell (rows : FaceRows) (row : ℕ) (s : Vector U8 matrixBytes × U32) (col : ℕ) :
    Option (Vector U8 matrixBytes × U32) := do
  let cells ← rows[row]?
  let cell ← cells[col]?
  if cell = 0x23 then
    let bit := row * 13 + col
    let byte ← s.1[bit / 8]?
    some (s.1.setIfInBounds (bit / 8) (byte ||| (1 : U8) <<< (bit % 8)), s.2 + 1)
  else some s

/-- The two loops of `write_face`. -/
def packFace (rows : FaceRows) : Option (Vector U8 matrixBytes × U32) :=
  (List.range 8).foldlM (fun s row => (List.range 13).foldlM (writeCell rows row) s)
    (Vector.replicate matrixBytes 0, 0)

/-- `publish_matrix_markers`. -/
def publishMatrixMarkers (packed : Vector U8 matrixBytes) (bits : U32) (markers : MatrixMarkers) :
    Option MatrixMarkers := do
  let b₀ : U8 ← packed[0]?
  let b₁ : U8 ← packed[1]?
  let b₂ : U8 ← packed[2]?
  let b₃ : U8 ← packed[3]?
  some { markers with
    matrixWord0 := b₀.setWidth 32 ||| b₁.setWidth 32 <<< 8 ||| b₂.setWidth 32 <<< 16 |||
      b₃.setWidth 32 <<< 24
    matrixBits := bits }

/-- `write_face`. -/
def writeFace (s : MatrixState) (rows : FaceRows) : Option MatrixState := do
  let (packed, bits) ← packFace rows
  let markers ← publishMatrixMarkers packed bits s.markers
  some { s with renderer := { s.renderer with packed }, markers }

/-! ### The scan -/

/-- `matrix_bit`. -/
def matrixBit (bytes : Vector U8 matrixBytes) (index : ℕ) : Option Bool :=
  if index ≥ numMatrixLeds then some false
  else do
    let byte ← bytes[index / 8]?
    some (((byte >>> (index % 8)) &&& 1) != 0)

/-- The loop of `next_lit_index`, with so many offsets to come. -/
def nextLitFrom (bytes : Vector U8 matrixBytes) (start : ℕ) : ℕ → ℕ → Option (Option ℕ)
  | _, 0 => some none
  | offset, left + 1 => do
      let index := (start + offset) % numMatrixLeds
      if ← matrixBit bytes index then some (some index)
      else nextLitFrom bytes start (offset + 1) left

/-- `next_lit_index`. -/
def nextLitIndex (bytes : Vector U8 matrixBytes) (start : ℕ) : Option (Option ℕ) :=
  nextLitFrom bytes start 0 numMatrixLeds

/-! ### The port -/

/-- A write to `GPIO_BSRR`: the low half sets levels, the high half resets them. -/
def Gpiof.writeBsrr (g : Gpiof) (value : U32) : Gpiof :=
  { g with odr := (g.odr &&& ~~~ (value >>> 16).setWidth 16) ||| value.setWidth 16 }

/-- `gpiof_all_input`. -/
def gpiofAllInput (g : Gpiof) : Gpiof := { g with moder := g.moder &&& 0xff000000 }

/-- The levels that `turn_led` writes for a pair of pins. -/
def Gpiof.setPair (g : Gpiof) (high low : ℕ) : Gpiof :=
  g.writeBsrr ((1 : U32) <<< high ||| (1 : U32) <<< (low + 16))

/-- The modes that `turn_led` writes for a pair of pins. -/
def Gpiof.openPair (g : Gpiof) (high low : ℕ) : Gpiof :=
  { g with moder := g.moder ||| (1 : U32) <<< (high * 2) ||| (1 : U32) <<< (low * 2) }

/-- `turn_led`: the port after each of its writes, and the markers. -/
def turnLed (g : Gpiof) (markers : MatrixMarkers) (index : ℕ) :
    Option (List Gpiof × MatrixMarkers) := do
  let g := gpiofAllInput g
  let (high, low) ← charliePairs[index]?
  let markers := { markers with
    litTicks := markers.litTicks + 1
    lastLitLed := BitVec.ofNat 32 index <<< 16 ||| BitVec.ofNat 32 high <<< 8 |||
      BitVec.ofNat 32 low <<< 1 ||| 1 }
  some ([g, g.setPair high low, (g.setPair high low).openPair high low], markers)

/-- `refresh_matrix`, and the port after each of its writes. -/
def refreshMatrix (s : MatrixState) : Option (MatrixState × List Gpiof) := do
  let markers := { s.markers with scanTicks := s.markers.scanTicks + 1 }
  let start := s.renderer.scanIndex.toNat
  let start := if start < numMatrixLeds then start else 0
  match ← nextLitIndex s.renderer.packed start with
  | none =>
      let g := gpiofAllInput s.gpiof
      some ({ renderer := { s.renderer with scanIndex := 0 }, gpiof := g
              markers := { markers with scanIndex := 0 } }, [g])
  | some index =>
      let (writes, markers) ← turnLed s.gpiof markers index
      let next := (index + 1) % numMatrixLeds
      some ({ renderer := { s.renderer with scanIndex := BitVec.ofNat 8 next }
              gpiof := writes.getLastD s.gpiof
              markers := { markers with scanIndex := BitVec.ofNat 32 next } }, writes)

/-! ### Runs -/

inductive MatrixAction where
  /-- `systick_handler`. -/
  | refresh
  | writeFace (rows : FaceRows)
  deriving DecidableEq

def MatrixState.next (s : MatrixState) : MatrixAction → Option MatrixState
  | .refresh => (refreshMatrix s).map Prod.fst
  | .writeFace rows => UnoQ.writeFace s rows

def matrixMachine : Machine MatrixState MatrixAction := ⟨MatrixState.next⟩

/-- The port after each write of an action. -/
def writes (s : MatrixState) : MatrixAction → List Gpiof
  | .refresh => ((refreshMatrix s).map Prod.snd).getD []
  | .writeFace _ => []

/-- The port that a tick leaves until the next one. -/
def shows (s : MatrixState) : MatrixAction → List Gpiof
  | .refresh => ((refreshMatrix s).map fun t => t.1.gpiof).toList
  | .writeFace _ => []

/-- So many ticks. -/
def ticks (n : ℕ) : List MatrixAction := List.replicate n .refresh

/-! ### What a face shows -/

/-- The bit of an LED in the bitmap. -/
def litBit (packed : Vector U8 matrixBytes) (led : ℕ) : Bool :=
  (packed[led / 8]?.getD 0).getLsbD (led % 8)

/-- The cell of an LED is lit. -/
def isLit (rows : FaceRows) (led : ℕ) : Bool :=
  (rows[led / 13]?.bind fun cells => cells[led % 13]?) == some 0x23

/-- How many cells are lit. -/
def litCells (rows : FaceRows) : ℕ := (List.range numMatrixLeds).countP (isLit rows)

def Gpiof.isInput (g : Gpiof) (pin : ℕ) : Bool :=
  !g.moder.getLsbD (pin * 2) && !g.moder.getLsbD (pin * 2 + 1)

def Gpiof.isOutput (g : Gpiof) (pin : ℕ) : Bool :=
  g.moder.getLsbD (pin * 2) && !g.moder.getLsbD (pin * 2 + 1)

/-- The pins of the matrix are all inputs. -/
def Gpiof.dark (g : Gpiof) : Prop := ∀ pin < 11, g.isInput pin = true

/-- The port drives an LED: of its pair, one pin is an output at the high level, and the other one
an output at the low level. -/
def Gpiof.drives (g : Gpiof) (led : ℕ) : Bool :=
  charliePairs[led]?.any fun pair =>
    g.isOutput pair.1 && g.odr.getLsbD pair.1 && g.isOutput pair.2 && !g.odr.getLsbD pair.2

/-! ### The pairs and the port -/

theorem charliePairs_pins : ∀ pair ∈ charliePairs, pair.1 < 11 ∧ pair.2 < 11 ∧ pair.1 ≠ pair.2 := by
  decide

theorem charliePairs_nodup : charliePairs.Nodup := by decide +kernel

theorem getLsbD_bit (w k j : ℕ) :
    ((1 : BitVec w) <<< k).getLsbD j = (decide (j < w) && decide (j = k)) := by
  rw [BitVec.getLsbD_shiftLeft]
  rcases Nat.lt_trichotomy j k with hlt | rfl | hgt
  · simp [hlt, Nat.ne_of_lt hlt]
  · simpa using Nat.zero_lt_of_lt
  · have hsub : j - k ≠ 0 := by omega
    simp [Nat.ne_of_gt hgt, hsub]

/-- The modes of the matrix pins are the low bits of `MODER`. -/
theorem getLsbD_modeMask : ∀ j < 24, (0xff000000 : U32).getLsbD j = false := by decide

namespace Gpiof

variable {g : Gpiof} {high low pin : ℕ}

theorem dark_allInput (g : Gpiof) : (gpiofAllInput g).dark := by
  intro pin hpin
  simp only [isInput, gpiofAllInput, BitVec.getLsbD_and,
    getLsbD_modeMask (pin * 2) (by omega), getLsbD_modeMask (pin * 2 + 1) (by omega)]
  simp

/-- Setting levels opens no pin. -/
theorem dark.setPair (h : g.dark) (high low : ℕ) : (g.setPair high low).dark := h

theorem isOutput_openPair (h : g.dark) (hpin : pin < 11) :
    (g.openPair high low).isOutput pin = (decide (pin = high) || decide (pin = low)) := by
  have hin := h pin hpin
  simp only [isInput, Bool.and_eq_true, Bool.not_eq_true'] at hin
  simp only [isOutput, openPair, BitVec.getLsbD_or, getLsbD_bit, hin.1, hin.2]
  have hodd (k : ℕ) : ¬ pin * 2 + 1 = k * 2 := by omega
  have heven (k : ℕ) : pin * 2 = k * 2 ↔ pin = k := by omega
  simp [hodd, heven, show pin * 2 < 32 by omega]

theorem level_setPair (hhigh : high < 11) (hpin : pin < 11) :
    (g.setPair high low).odr.getLsbD pin =
      (g.odr.getLsbD pin && !decide (pin = low) || decide (pin = high)) := by
  simp only [setPair, writeBsrr, BitVec.getLsbD_or, BitVec.getLsbD_and, BitVec.getLsbD_not,
    BitVec.getLsbD_setWidth, BitVec.getLsbD_ushiftRight, getLsbD_bit]
  have hset : ¬ pin = low + 16 := by omega
  have hreset : ¬ 16 + pin = high := by omega
  have hsame : 16 + pin = low + 16 ↔ pin = low := by omega
  simp [hset, hreset, hsame, show pin < 16 by omega, show pin < 32 by omega,
    show 16 + pin < 32 by omega]

/-- A dark port drives nothing. -/
theorem dark.drives (h : g.dark) (led : ℕ) : g.drives led = false := by
  unfold Gpiof.drives
  cases hpair : charliePairs[led]? with
  | none => rfl
  | some pair =>
      obtain ⟨hhigh, -, -⟩ := charliePairs_pins pair (List.mem_of_getElem? hpair)
      have hin := h pair.1 hhigh
      simp only [isInput, Bool.and_eq_true, Bool.not_eq_true'] at hin
      simp [isOutput, hin.1]

/-- **One pair.**  The port drives the LED whose pair was set and opened, and no other. -/
theorem drives_pair (h : g.dark) {index : ℕ} (hpair : charliePairs[index]? = some (high, low))
    (led : ℕ) : ((g.setPair high low).openPair high low).drives led = decide (led = index) := by
  obtain ⟨hhigh, hlow, hne⟩ := charliePairs_pins _ (List.mem_of_getElem? hpair)
  unfold Gpiof.drives
  cases hled : charliePairs[led]? with
  | none =>
      have hne : led ≠ index := by
        rintro rfl
        cases hled.symm.trans hpair
      simp [hne]
  | some pair =>
      obtain ⟨hhigh', hlow', hne'⟩ := charliePairs_pins pair (List.mem_of_getElem? hled)
      have hsame : led = index ↔ pair = (high, low) := by
        constructor
        · rintro rfl
          exact Option.some.inj (hled.symm.trans hpair)
        · rintro rfl
          obtain ⟨hlt, -⟩ := List.getElem?_eq_some_iff.mp hled
          exact ((List.getElem?_inj hlt charliePairs_nodup).mp (hled.trans hpair.symm))
      have hodr : ((g.setPair high low).openPair high low).odr = (g.setPair high low).odr := rfl
      rw [Option.any_some, isOutput_openPair (h.setPair high low) hhigh',
        isOutput_openPair (h.setPair high low) hlow', hodr, level_setPair hhigh hhigh',
        level_setPair hhigh hlow', Bool.eq_iff_iff, decide_eq_true_iff, hsame, Prod.ext_iff]
      simp only [Bool.and_eq_true, Bool.or_eq_true, Bool.not_eq_true', decide_eq_true_iff]
      constructor
      · rintro ⟨⟨⟨hout, hlevel⟩, hout'⟩, hlevel'⟩
        -- a pin at the high level is not the pin that was reset, and the other way round
        have hfirst : pair.1 = high := by
          rcases hout with hout | hout
          · exact hout
          · rcases hlevel with ⟨-, hnot⟩ | hlevel
            · exact absurd hout (of_decide_eq_false hnot)
            · exact hlevel
        refine ⟨hfirst, hout'.resolve_left fun hsecond => hne' (hfirst.trans hsecond.symm)⟩
      · rintro ⟨hfirst, hsecond⟩
        rw [hfirst, hsecond]
        exact ⟨⟨⟨.inl rfl, .inr rfl⟩, .inr rfl⟩, by simp [hne.symm]⟩

end Gpiof

/-! ### The bitmap -/

/-- The first `n` cells are in the bitmap, and are counted. -/
structure PackedTo (rows : FaceRows) (n : ℕ) (s : Vector U8 matrixBytes × U32) : Prop where
  bits : ∀ led < numMatrixLeds, litBit s.1 led = (decide (led < n) && isLit rows led)
  count : s.2 = BitVec.ofNat 32 ((List.range n).countP (isLit rows))

/-- Setting the bit of one LED leaves those of the others. -/
theorem litBit_set (packed : Vector U8 matrixBytes) {led n : ℕ} (hn : n < numMatrixLeds) {byte : U8}
    (hbyte : packed[n / 8]? = some byte) :
    litBit (packed.setIfInBounds (n / 8) (byte ||| (1 : U8) <<< (n % 8))) led =
      (litBit packed led || decide (led = n)) := by
  have hsize : n / 8 < matrixBytes := by rw [numMatrixLeds] at hn; rw [matrixBytes]; omega
  have hdiv : led = n ↔ n / 8 = led / 8 ∧ led % 8 = n % 8 := by omega
  rw [litBit, litBit, Vector.getElem?_setIfInBounds]
  by_cases hsame : n / 8 = led / 8
  · rw [if_pos hsame, if_pos hsize, ← hsame, hbyte, Option.getD_some, Option.getD_some,
      BitVec.getLsbD_or, getLsbD_bit]
    have hlt : led % 8 < 8 := Nat.mod_lt _ (by decide)
    simp [hdiv, hsame, hlt]
  · rw [if_neg hsame]
    simp [hdiv, hsame]

namespace PackedTo

variable {rows : FaceRows} {n : ℕ} {s : Vector U8 matrixBytes × U32}

theorem countP_succ (rows : FaceRows) (n : ℕ) :
    (List.range (n + 1)).countP (isLit rows) =
      (List.range n).countP (isLit rows) + (isLit rows n).toNat := by
  rw [List.range_succ, List.countP_append, List.countP_singleton]
  cases isLit rows n <;> rfl

theorem skip (h : PackedTo rows n s) (hdark : isLit rows n = false) :
    PackedTo rows (n + 1) s where
  bits led hled := by
    rw [h.bits led hled]
    rcases Nat.lt_trichotomy led n with hlt | rfl | hgt
    · simp [hlt, Nat.lt_succ_of_lt hlt]
    · simp [hdark]
    · simp [Nat.not_lt.mpr hgt.le, Nat.not_lt.mpr (Nat.succ_le_of_lt hgt)]
  count := by rw [h.count, countP_succ, hdark]; rfl

theorem mark (h : PackedTo rows n s) (hn : n < numMatrixLeds) (hlit : isLit rows n = true)
    {byte : U8} (hbyte : s.1[n / 8]? = some byte) :
    PackedTo rows (n + 1)
      (s.1.setIfInBounds (n / 8) (byte ||| (1 : U8) <<< (n % 8)), s.2 + 1) where
  bits led hled := by
    rw [litBit_set s.1 hn hbyte, h.bits led hled]
    rcases Nat.lt_trichotomy led n with hlt | rfl | hgt
    · simp [hlt, Nat.lt_succ_of_lt hlt, Nat.ne_of_lt hlt]
    · simp [hlit]
    · simp [Nat.not_lt.mpr hgt.le, Nat.not_lt.mpr (Nat.succ_le_of_lt hgt), Nat.ne_of_gt hgt]
  count := by
    rw [countP_succ, hlit, BitVec.ofNat_add, ← h.count]
    rfl

end PackedTo

/-- One turn of the inner loop. -/
theorem writeCell_packs {rows : FaceRows} {row col : ℕ} (hrow : row < 8) (hcol : col < 13)
    {s : Vector U8 matrixBytes × U32} (h : PackedTo rows (row * 13 + col) s) :
    ∃ t, writeCell rows row s col = some t ∧ PackedTo rows (row * 13 + col + 1) t := by
  have hled : row * 13 + col < numMatrixLeds := by rw [numMatrixLeds]; omega
  have hsize : (row * 13 + col) / 8 < matrixBytes := by rw [matrixBytes]; omega
  have hlit : isLit rows (row * 13 + col) = decide (rows[row][col] = 0x23) := by
    have hdiv : (row * 13 + col) / 13 = row := by omega
    have hmod : (row * 13 + col) % 13 = col := by omega
    rw [isLit, hdiv, hmod, Vector.getElem?_eq_getElem hrow, Option.bind_some,
      Vector.getElem?_eq_getElem hcol]
    rfl
  have hbyte : s.1[(row * 13 + col) / 8]? = some s.1[(row * 13 + col) / 8] :=
    Vector.getElem?_eq_getElem hsize
  by_cases hcell : rows[row][col] = 0x23
  · refine ⟨_, ?_, h.mark hled (hlit.trans (decide_eq_true hcell)) hbyte⟩
    simp [writeCell, Vector.getElem?_eq_getElem hrow, Vector.getElem?_eq_getElem hcol, hcell, hbyte]
  · refine ⟨s, ?_, h.skip (hlit.trans (decide_eq_false hcell))⟩
    simp only [writeCell, Vector.getElem?_eq_getElem hrow, Vector.getElem?_eq_getElem hcol,
      Option.bind_eq_bind, Option.bind_some, if_neg hcell]

/-- **The bitmap of a face.** -/
theorem packFace_eq (rows : FaceRows) :
    ∃ packed, packFace rows = some (packed, BitVec.ofNat 32 (litCells rows)) ∧
      ∀ led < numMatrixLeds, litBit packed led = isLit rows led := by
  have hstart : PackedTo rows (0 * 13) (Vector.replicate matrixBytes 0, 0) :=
    { bits := fun led hled => by
        rw [litBit, Vector.getElem?_replicate]
        split <;> simp
      count := rfl }
  obtain ⟨⟨packed, bits⟩, hpack, h⟩ := foldlM_range (n := 8)
    (f := fun s row => (List.range 13).foldlM (writeCell rows row) s)
    (I := fun row s => PackedTo rows (row * 13) s)
    (fun row s hrow hs => by
      obtain ⟨t, ht, h⟩ := foldlM_range (n := 13) (f := writeCell rows row)
        (I := fun col s => PackedTo rows (row * 13 + col) s)
        (fun col s hcol hs => writeCell_packs hrow hcol hs) hs
      exact ⟨t, ht, (Nat.succ_mul row 13).symm ▸ h⟩) hstart
  obtain rfl : bits = BitVec.ofNat 32 (litCells rows) := h.count
  refine ⟨packed, hpack, fun led hled => ?_⟩
  have := h.bits led hled
  rwa [decide_eq_true (show led < 8 * 13 from hled), Bool.true_and] at this

/-- `write_face` changes nothing but the bitmap and two markers. -/
theorem writeFace_eq (s : MatrixState) (rows : FaceRows) :
    ∃ packed markers, writeFace s rows =
        some { s with renderer := { s.renderer with packed }, markers } ∧
      (∀ led < numMatrixLeds, litBit packed led = isLit rows led) ∧
      markers.matrixBits = BitVec.ofNat 32 (litCells rows) := by
  obtain ⟨packed, hpack, hbits⟩ := packFace_eq rows
  have hmarkers : ∃ markers,
      publishMatrixMarkers packed (BitVec.ofNat 32 (litCells rows)) s.markers = some markers ∧
        markers.matrixBits = BitVec.ofNat 32 (litCells rows) := by
    have hread (i : ℕ) (hi : i < matrixBytes) : packed[i]? = some packed[i] :=
      Vector.getElem?_eq_getElem hi
    rw [publishMatrixMarkers, hread 0 (by decide), hread 1 (by decide), hread 2 (by decide),
      hread 3 (by decide)]
    exact ⟨_, rfl, rfl⟩
  obtain ⟨markers, hpublish, hcount⟩ := hmarkers
  refine ⟨packed, markers, ?_, hbits, hcount⟩
  simp [writeFace, hpack, hpublish]

/-! ### The scan -/

theorem matrixBit_eq (packed : Vector U8 matrixBytes) {index : ℕ} (h : index < numMatrixLeds) :
    matrixBit packed index = some (litBit packed index) := by
  have hsize : index / 8 < matrixBytes := by rw [numMatrixLeds] at h; rw [matrixBytes]; omega
  rw [matrixBit, if_neg (Nat.not_le.mpr h), litBit, Vector.getElem?_eq_getElem hsize]
  have hbit (b : U8) (k : ℕ) : (((b >>> k) &&& 1) != 0) = b.getLsbD k := by
    have hshift := BitVec.getLsbD_ushiftRight b k 0
    rw [Nat.add_zero] at hshift
    change ((b >>> k &&& 1#8) != 0) = _
    rw [BitVec.and_one_eq_setWidth_ofBool_getLsbD, hshift]
    cases b.getLsbD k <;> rfl
  exact congrArg some (hbit _ _)

theorem nextLitFrom_eq (packed : Vector U8 matrixBytes) (start offset left : ℕ) :
    nextLitFrom packed start offset left =
      some (((List.range' offset left).map fun k => (start + k) % numMatrixLeds).find?
        (litBit packed)) := by
  induction left generalizing offset with
  | zero => rfl
  | succ left ih =>
      have hlt : (start + offset) % numMatrixLeds < numMatrixLeds := Nat.mod_lt _ (by decide)
      rw [nextLitFrom, matrixBit_eq packed hlt, List.range'_succ, List.map_cons,
        Option.bind_eq_bind, Option.bind_some, ih]
      cases hlit : litBit packed ((start + offset) % numMatrixLeds) with
      | true => rw [List.find?_cons_of_pos hlit]; rfl
      | false => rw [List.find?_cons_of_neg (by simp [hlit])]; rfl

/-- **The scan** looks at the places of the circle, from its start on. -/
theorem nextLitIndex_eq (packed : Vector U8 matrixBytes) (start : ℕ) :
    nextLitIndex packed start =
      some ((Cyclic.around numMatrixLeds start).find? (litBit packed)) := by
  rw [nextLitIndex, nextLitFrom_eq, ← List.range_eq_range', Cyclic.around]

/-! ### One tick -/

/-- Where the next tick starts to look. -/
def MatrixState.start (s : MatrixState) : ℕ :=
  if s.renderer.scanIndex.toNat < numMatrixLeds then s.renderer.scanIndex.toNat else 0

/-- A tick that finds a lit LED drives it with its last write, and nothing before that. -/
structure Lights (s t : MatrixState) (ws : List Gpiof) (index : ℕ) : Prop where
  packed : t.renderer.packed = s.renderer.packed
  start : t.start = (index + 1) % numMatrixLeds
  only : ∀ g ∈ ws, ∀ led, g.drives led = true → led = index
  shown : ∀ led, t.gpiof.drives led = decide (led = index)

/-- A tick that finds none leaves the port dark. -/
structure Darkens (s t : MatrixState) (ws : List Gpiof) : Prop where
  packed : t.renderer.packed = s.renderer.packed
  dark : ∀ g ∈ ws, g.dark

/-- **One tick.** -/
theorem refreshMatrix_eq (s : MatrixState) : ∃ t ws, refreshMatrix s = some (t, ws) ∧
    match (Cyclic.around numMatrixLeds s.start).find? (litBit s.renderer.packed) with
    | some index => Lights s t ws index
    | none => Darkens s t ws := by
  have hscan := nextLitIndex_eq s.renderer.packed s.start
  cases hfind : (Cyclic.around numMatrixLeds s.start).find? (litBit s.renderer.packed) with
  | none =>
      rw [hfind] at hscan
      have htick : refreshMatrix s = some
          ({ renderer := { s.renderer with scanIndex := 0 }, gpiof := gpiofAllInput s.gpiof
             markers := { s.markers with scanTicks := s.markers.scanTicks + 1, scanIndex := 0 } },
            [gpiofAllInput s.gpiof]) := by
        rw [refreshMatrix]
        dsimp only
        rw [← MatrixState.start, hscan]
        rfl
      exact ⟨_, _, htick, rfl, fun g hg => List.mem_singleton.mp hg ▸ Gpiof.dark_allInput s.gpiof⟩
  | some index =>
      rw [hfind] at hscan
      have hlt : index < numMatrixLeds :=
        (Cyclic.mem_marked.mp (List.mem_filter.mpr
          ⟨List.mem_of_find?_eq_some hfind, List.find?_some hfind⟩)).1
      obtain ⟨⟨high, low⟩, hpair⟩ : ∃ pair, charliePairs[index]? = some pair :=
        ⟨_, List.getElem?_eq_getElem hlt⟩
      have hdark := Gpiof.dark_allInput s.gpiof
      have hnext : (index + 1) % numMatrixLeds < numMatrixLeds := Nat.mod_lt _ (by decide)
      have hscanIndex : (BitVec.ofNat 8 ((index + 1) % numMatrixLeds)).toNat =
          (index + 1) % numMatrixLeds := by
        rw [BitVec.toNat_ofNat]
        exact Nat.mod_eq_of_lt (Nat.lt_trans hnext (by decide))
      let g := (gpiofAllInput s.gpiof).setPair high low
      have htick : ∃ markers, refreshMatrix s = some
          ({ renderer := { s.renderer with
               scanIndex := BitVec.ofNat 8 ((index + 1) % numMatrixLeds) }
             gpiof := g.openPair high low, markers },
            [gpiofAllInput s.gpiof, g, g.openPair high low]) := by
        rw [refreshMatrix]
        dsimp only
        rw [← MatrixState.start, hscan, Option.bind_eq_bind, Option.bind_some]
        dsimp only
        rw [turnLed, hpair]
        exact ⟨_, rfl⟩
      obtain ⟨markers, htick⟩ := htick
      refine ⟨_, _, htick, rfl, ?_, ?_, Gpiof.drives_pair hdark hpair⟩
      · rw [MatrixState.start, hscanIndex, if_pos hnext]
      · intro g' hg' led hdrives
        simp only [List.mem_cons, List.not_mem_nil, or_false] at hg'
        rcases hg' with rfl | rfl | rfl
        · rw [hdark.drives] at hdrives
          cases hdrives
        · rw [(hdark.setPair high low).drives] at hdrives
          cases hdrives
        · rw [Gpiof.drives_pair hdark hpair] at hdrives
          exact of_decide_eq_true hdrives

/-! ### Windows of ticks -/

/-- A tick can always be taken. -/
theorem next_refresh (s : MatrixState) : ∃ t ws, matrixMachine.next s .refresh = some t ∧
    writes s .refresh = ws ∧ shows s .refresh = [t.gpiof] ∧
    match (Cyclic.around numMatrixLeds s.start).find? (litBit s.renderer.packed) with
    | some index => Lights s t ws index
    | none => Darkens s t ws := by
  obtain ⟨t, ws, htick, h⟩ := refreshMatrix_eq s
  refine ⟨t, ws, ?_, ?_, ?_, h⟩
  · change (refreshMatrix s).map Prod.fst = some t
    rw [htick]
    rfl
  · rw [writes, htick]
    rfl
  · rw [shows, htick]
    rfl

/-- Every index is in bounds. -/
theorem next_total (s : MatrixState) (a : MatrixAction) : ∃ t, matrixMachine.next s a = some t := by
  cases a with
  | refresh =>
      obtain ⟨t, -, ht, -⟩ := next_refresh s
      exact ⟨t, ht⟩
  | writeFace rows =>
      obtain ⟨packed, markers, h, -⟩ := writeFace_eq s rows
      exact ⟨_, h⟩

theorem next_packed {s t : MatrixState} (h : matrixMachine.next s .refresh = some t) :
    t.renderer.packed = s.renderer.packed := by
  obtain ⟨t', ws, ht, -, -, hcase⟩ := next_refresh s
  cases ht.symm.trans h
  split at hcase
  · exact hcase.packed
  · exact hcase.packed

theorem ticks_along (n : ℕ) (s : MatrixState) :
    matrixMachine.Along (fun _ a => a = .refresh) s (ticks n) := by
  induction n generalizing s with
  | zero => trivial
  | succ n ih => exact ⟨rfl, fun t _ => ih t⟩

theorem ticks_packed {n : ℕ} {s t : MatrixState} (h : matrixMachine.exec s (ticks n) = some t) :
    t.renderer.packed = s.renderer.packed :=
  Machine.exec_invariant (I := fun u => u.renderer.packed = s.renderer.packed)
    (fun _ _ _ hI ha hu => by subst ha; exact (next_packed hu).trans hI) rfl (ticks_along n s) h

/-- **A window of ticks** leaves the bitmap as it is: what each tick that finds it so writes is all
that the window writes. -/
theorem forall_mem_ticks {n : ℕ} {s t : MatrixState} {Q : Gpiof → Prop}
    (h : matrixMachine.exec s (ticks n) = some t)
    (tick : ∀ u : MatrixState, u.renderer.packed = s.renderer.packed →
      ∀ g ∈ writes u .refresh, Q g) :
    ∀ g ∈ matrixMachine.collect writes s (ticks n), Q g := by
  refine Machine.forall_mem_collect (I := fun u => u.renderer.packed = s.renderer.packed)
    (P := fun _ a => a = .refresh)
    (fun _ _ _ hI ha hu => by subst ha; exact (next_packed hu).trans hI) (fun u a hu g hg => ?_) rfl
    (ticks_along n s) h
  cases a with
  | writeFace rows => cases hg
  | refresh => exact tick u hu g hg

/-- **Never an unlit LED.** -/
theorem ticks_only {n : ℕ} {s t : MatrixState} (h : matrixMachine.exec s (ticks n) = some t) :
    ∀ g ∈ matrixMachine.collect writes s (ticks n), ∀ led, g.drives led = true →
      led < numMatrixLeds ∧ litBit s.renderer.packed led = true := by
  refine forall_mem_ticks h fun u hu g hg led hled => ?_
  obtain ⟨v, ws, -, hws, -, hcase⟩ := next_refresh u
  rw [hws] at hg
  cases hfind : (Cyclic.around numMatrixLeds u.start).find? (litBit u.renderer.packed) with
  | none =>
      rw [hfind] at hcase
      rw [(hcase.dark g hg).drives] at hled
      cases hled
  | some index =>
      rw [hfind] at hcase
      obtain rfl := hcase.only g hg led hled
      rw [← hu]
      exact Cyclic.mem_marked.mp (List.mem_filter.mpr
        ⟨List.mem_of_find?_eq_some hfind, List.find?_some hfind⟩)

/-- **All inputs**, when no LED is lit. -/
theorem ticks_dark {n : ℕ} {s t : MatrixState} (h : matrixMachine.exec s (ticks n) = some t)
    (hnone : ∀ led < numMatrixLeds, litBit s.renderer.packed led = false) :
    ∀ g ∈ matrixMachine.collect writes s (ticks n), g.dark := by
  refine forall_mem_ticks h fun u hu g hg => ?_
  obtain ⟨v, ws, -, hws, -, hcase⟩ := next_refresh u
  rw [hws] at hg
  cases hfind : (Cyclic.around numMatrixLeds u.start).find? (litBit u.renderer.packed) with
  | none =>
      rw [hfind] at hcase
      exact hcase.dark g hg
  | some index =>
      obtain ⟨hlt, hlit⟩ := Cyclic.mem_marked.mp (List.mem_filter.mpr
        ⟨List.mem_of_find?_eq_some hfind, List.find?_some hfind⟩)
      rw [hu, hnone index hlt] at hlit
      cases hlit

/-- **Each in turn.**  What the ticks leave shown is what scans find in turn. -/
theorem ticks_show (n : ℕ) (s : MatrixState)
    (hsome : ∃ led < numMatrixLeds, litBit s.renderer.packed led = true) :
    List.Forall₂ (fun g index => ∀ led, g.drives led = decide (led = index))
      (matrixMachine.collect shows s (ticks n))
      (Cyclic.picks (litBit s.renderer.packed) numMatrixLeds n s.start) := by
  induction n generalizing s with
  | zero => exact .nil
  | succ n ih =>
      obtain ⟨t, ws, ht, -, hshow, hcase⟩ := next_refresh s
      have hpacked := next_packed ht
      cases hfind : (Cyclic.around numMatrixLeds s.start).find? (litBit s.renderer.packed) with
      | none =>
          obtain ⟨led, hlt, hlit⟩ := hsome
          have hmem : led ∈ Cyclic.marked (litBit s.renderer.packed) numMatrixLeds s.start :=
            Cyclic.mem_marked.mpr ⟨hlt, hlit⟩
          rw [Cyclic.marked, List.filter_eq_nil_iff.mpr (List.find?_eq_none.mp hfind)] at hmem
          cases hmem
      | some index =>
          rw [hfind] at hcase
          rw [ticks, List.replicate_succ, Machine.collect_cons ht, hshow, Cyclic.picks, hfind]
          have hrest := ih t (hpacked.symm ▸ hsome)
          rw [hpacked, hcase.start] at hrest
          exact .cons hcase.shown hrest

theorem countP_of_forall₂ {gs : List Gpiof} {is : List ℕ} (led : ℕ)
    (h : List.Forall₂ (fun g index => ∀ led, g.drives led = decide (led = index)) gs is) :
    gs.countP (·.drives led) = is.count led := by
  induction h with
  | nil => rfl
  | cons hfirst _ ih =>
      rw [List.countP_cons, List.count_cons, ih, hfirst led]
      simp only [decide_eq_true_iff, beq_iff_eq, @eq_comm _ led]

/-- As many places of the circle are marked as cells are lit. -/
theorem length_marked {packed : Vector U8 matrixBytes} {rows : FaceRows}
    (h : ∀ led < numMatrixLeds, litBit packed led = isLit rows led) (start : ℕ) :
    (Cyclic.marked (litBit packed) numMatrixLeds start).length = litCells rows := by
  rw [(Cyclic.marked_perm _ _ start).length_eq, ← List.countP_eq_length_filter, litCells]
  refine List.countP_congr fun led hled => ?_
  rw [h led (List.mem_range.mp hled)]

/-- **The scan of the matrix.**  After any run, and a face written at any moment of the scan, in any
window of ticks no LED is driven whose cell is not lit, and every pin is an input when no cell is;
and as many ticks as there are lit cells, from any moment on, show each of their LEDs exactly once.
No index is out of bounds. -/
theorem matrix_scan (s : MatrixState) (as : List MatrixAction) (rows : FaceRows) (n : ℕ) :
    ∃ u v w, matrixMachine.exec s (as ++ [.writeFace rows]) = some u ∧
      matrixMachine.exec u (ticks n) = some v ∧
      matrixMachine.exec v (ticks (litCells rows)) = some w ∧
      (∀ g ∈ matrixMachine.collect writes u (ticks n), ∀ led, g.drives led = true →
        isLit rows led = true) ∧
      (litCells rows = 0 → ∀ g ∈ matrixMachine.collect writes u (ticks n), g.dark) ∧
      ∀ led < numMatrixLeds, isLit rows led = true →
        (matrixMachine.collect shows v (ticks (litCells rows))).countP (·.drives led) = 1 := by
  obtain ⟨r, hr⟩ := matrixMachine.exec_total next_total s as
  obtain ⟨packed, markers, hwrite, hbits, -⟩ := writeFace_eq r rows
  obtain ⟨u, hu, hupacked⟩ : ∃ u, matrixMachine.next r (.writeFace rows) = some u ∧
      u.renderer.packed = packed := ⟨_, hwrite, rfl⟩
  obtain ⟨v, hv⟩ := matrixMachine.exec_total next_total u (ticks n)
  obtain ⟨w, hw⟩ := matrixMachine.exec_total next_total v (ticks (litCells rows))
  have hexec : matrixMachine.exec s (as ++ [.writeFace rows]) = some u :=
    Machine.exec_append.mpr ⟨r, hr, Machine.exec_cons.mpr ⟨u, hu, rfl⟩⟩
  refine ⟨u, v, w, hexec, hv, hw, fun g hg led hdrives => ?_, fun hzero => ?_,
    fun led hled hlit => ?_⟩
  · obtain ⟨hlt, hbit⟩ := ticks_only hv g hg led hdrives
    rw [← hbits led hlt, ← hupacked]
    exact hbit
  · refine ticks_dark hv fun led hlt => ?_
    rw [hupacked, hbits led hlt]
    have hnone := List.countP_eq_zero.mp hzero led (List.mem_range.mpr hlt)
    exact Bool.eq_false_iff.mpr hnone
  · have hvpacked : v.renderer.packed = packed := (ticks_packed hv).trans hupacked
    have hbit : litBit v.renderer.packed led = true := by
      rw [hvpacked, hbits led hled]
      exact hlit
    have hlen : litCells rows =
        (Cyclic.marked (litBit v.renderer.packed) numMatrixLeds v.start).length := by
      rw [hvpacked]
      exact (length_marked hbits v.start).symm
    rw [countP_of_forall₂ led (ticks_show (litCells rows) v ⟨led, hled, hbit⟩),
      Cyclic.picks_eq_take _ _ hlen.le, List.take_of_length_le hlen.ge]
    exact List.count_eq_one_of_mem (Cyclic.nodup_marked _ _ _)
      (Cyclic.mem_marked.mpr ⟨hled, hbit⟩)

end HibanaPico.UnoQ
