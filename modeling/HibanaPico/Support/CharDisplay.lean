import HibanaPico.Support.Cells
import Mathlib.Order.Basic

/-!
# Support — CharDisplay

The controller of a character display of two rows, as its instruction set documents it.

* `CharDisplay`: what the instructions and the characters do to the settings, the display memory
  and the address counter, for any implementation.
* `Ready`: the settings under which characters are put side by side where they are seen.
* `cells_type`: a text typed on a ready controller.
* `plainDisplay`: an implementation.
* `line_write`: two texts written to the two rows stand there, whatever stood there before.
-/

namespace HibanaPico.Support

/-- What the controller is set to: two lines; the display on; the address counter up after each
character; the display shifted after each; and whether the rows stand where they began. -/
structure DisplaySettings where
  twoLines : Bool
  shows : Bool
  increments : Bool
  shifts : Bool
  unshifted : Bool
  deriving DecidableEq, Repr

/-- The controller: `instruct` takes an instruction, `put` a character.  The rows begin at the
addresses `0x00` and `0x40`. -/
structure CharDisplay (σ : Type*) where
  instruct : σ → BitVec 8 → σ
  put : σ → BitVec 8 → σ
  settings : σ → DisplaySettings
  cells : σ → Cells (BitVec 8)
  address : σ → ℕ
  settings_functionSet : ∀ s, settings (instruct s 0x28) = { settings s with twoLines := true }
  settings_off : ∀ s, settings (instruct s 0x08) = { settings s with shows := false }
  settings_on : ∀ s, settings (instruct s 0x0c) = { settings s with shows := true }
  settings_entryMode : ∀ s,
    settings (instruct s 0x06) = { settings s with increments := true, shifts := false }
  settings_clear : ∀ s,
    settings (instruct s 0x01) = { settings s with increments := true, unshifted := true }
  settings_seek : ∀ s a, a &&& 0x80 = 0 → settings (instruct s (0x80 ||| a)) = settings s
  address_seek : ∀ s a, a &&& 0x80 = 0 → address (instruct s (0x80 ||| a)) = a.toNat
  cells_seek : ∀ s a, a &&& 0x80 = 0 → cells (instruct s (0x80 ||| a)) = cells s
  settings_put : ∀ s b, (settings s).shifts = false → settings (put s b) = settings s
  address_put : ∀ s b, (settings s).increments = true → address s % 0x40 + 1 < 0x28 →
    address (put s b) = address s + 1
  cells_put : ∀ s b, cells (put s b) = Function.update (cells s) (address s) b

namespace CharDisplay

variable {σ : Type*} (D : CharDisplay σ) {s : σ}

/-- Two lines, switched on, from left to right, and not shifted. -/
def Ready (s : σ) : Prop := D.settings s = ⟨true, true, true, false, true⟩

/-- A text, character by character. -/
def type (s : σ) (text : List (BitVec 8)) : σ := text.foldl D.put s

/-- What stands in the row that begins at an address. -/
def line (s : σ) (start columns : ℕ) : List (BitVec 8) := (D.cells s).slice start columns

/-- The two rows written: each sought, and its text typed. -/
def write (s : σ) (first second : List (BitVec 8)) : σ :=
  D.type (D.instruct (D.type (D.instruct s 0x80) first) 0xc0) second

@[simp] theorem type_nil (s : σ) : D.type s [] = s := rfl

@[simp] theorem type_cons (s : σ) (b : BitVec 8) (text : List (BitVec 8)) :
    D.type s (b :: text) = D.type (D.put s b) text := rfl

theorem Ready.seek {a : BitVec 8} (h : D.Ready s) (ha : a &&& 0x80 = 0) :
    D.Ready (D.instruct s (0x80 ||| a)) :=
  (D.settings_seek s a ha).trans h

theorem Ready.put {b : BitVec 8} (h : D.Ready s) : D.Ready (D.put s b) :=
  (D.settings_put s b (congrArg DisplaySettings.shifts h)).trans h

theorem ready_type {text : List (BitVec 8)} (h : D.Ready s) : D.Ready (D.type s text) := by
  induction text generalizing s with
  | nil => exact h
  | cons b text ih => exact ih (h.put D)

/-- A text that does not run over the end of its row fills the cells from the address on. -/
theorem cells_type {text : List (BitVec 8)} (h : D.Ready s)
    (hroom : D.address s % 0x40 + text.length < 0x28) :
    D.cells (D.type s text) = (D.cells s).store (D.address s) text := by
  induction text generalizing s with
  | nil => exact (Cells.store_nil _ _).symm
  | cons b text ih =>
      rw [List.length_cons] at hroom
      have haddress : D.address (D.put s b) = D.address s + 1 :=
        D.address_put s b (congrArg DisplaySettings.increments h) (by omega)
      rw [type_cons, ih (h.put D) (by omega), haddress, D.cells_put, Cells.store_cons]

/-- A row sought and a text typed into it. -/
theorem cells_seek_type {a : BitVec 8} {text : List (BitVec 8)} (h : D.Ready s)
    (ha : a &&& 0x80 = 0) (hroom : a.toNat % 0x40 + text.length < 0x28) :
    D.cells (D.type (D.instruct s (0x80 ||| a)) text) = (D.cells s).store a.toNat text := by
  have haddress := D.address_seek s a ha
  rw [← haddress] at hroom
  rw [D.cells_type (h.seek D ha) hroom, haddress, D.cells_seek s a ha]

/-- Both texts stand in their rows, whatever stood there. -/
theorem line_write {first second : List (BitVec 8)} (h : D.Ready s)
    (hfirst : first.length < 0x28) (hsecond : second.length < 0x28) :
    D.line (D.write s first second) 0 first.length = first ∧
      D.line (D.write s first second) 0x40 second.length = second := by
  have hready : D.Ready (D.type (D.instruct s 0x80) first) :=
    D.ready_type (h.seek (a := 0) D (by decide))
  have hcells₁ : D.cells (D.type (D.instruct s 0x80) first) = (D.cells s).store 0 first :=
    D.cells_seek_type (a := 0) h (by decide) ((Nat.zero_add _).trans_lt hfirst)
  have hcells₂ : D.cells (D.write s first second) =
      ((D.cells s).store 0 first).store 0x40 second := by
    rw [← hcells₁]
    exact D.cells_seek_type (a := 0x40) hready (by decide) ((Nat.zero_add _).trans_lt hsecond)
  rw [line, line, hcells₂]
  constructor
  · rw [Cells.slice_store_of_outside (by omega), Cells.slice_store]
  · exact Cells.slice_store _ _ _

end CharDisplay

/-! ### A controller -/

/-- The registers of a controller that does what the instruction set says and nothing else. -/
structure DisplayRegisters where
  settings : DisplaySettings
  cells : Cells (BitVec 8)
  address : ℕ

namespace DisplayRegisters

/-- The settings after an instruction other than an address. -/
def set (x : DisplaySettings) (c : BitVec 8) : DisplaySettings :=
  if c = 0x28 then { x with twoLines := true }
  else if c = 0x08 then { x with shows := false }
  else if c = 0x0c then { x with shows := true }
  else if c = 0x06 then { x with increments := true, shifts := false }
  else if c = 0x01 then { x with increments := true, unshifted := true }
  else x

def instruct (s : DisplayRegisters) (c : BitVec 8) : DisplayRegisters :=
  if c &&& 0x80 ≠ 0 then { s with address := (c &&& 0x7f).toNat }
  else if c = 0x01 then ⟨set s.settings c, fun _ => 0x20, 0⟩
  else { s with settings := set s.settings c }

def put (s : DisplayRegisters) (b : BitVec 8) : DisplayRegisters :=
  { s with
    cells := Function.update s.cells s.address b
    address := if s.settings.increments then s.address + 1 else s.address - 1
    settings := { s.settings with unshifted := s.settings.unshifted && !s.settings.shifts } }

theorem instruct_seek (s : DisplayRegisters) {a : BitVec 8} (h : a &&& 0x80 = 0) :
    s.instruct (0x80 ||| a) = { s with address := a.toNat } := by
  have hbits : ∀ a : BitVec 8, a &&& 0x80 = 0 →
      (0x80 ||| a) &&& 0x80 ≠ 0 ∧ (0x80 ||| a) &&& 0x7f = a := by decide +kernel
  obtain ⟨hhigh, hlow⟩ := hbits a h
  rw [instruct, if_pos hhigh, hlow]

end DisplayRegisters

/-- A controller of two rows. -/
def plainDisplay : CharDisplay DisplayRegisters where
  instruct := DisplayRegisters.instruct
  put := DisplayRegisters.put
  settings := DisplayRegisters.settings
  cells := DisplayRegisters.cells
  address := DisplayRegisters.address
  settings_functionSet _ := rfl
  settings_off _ := rfl
  settings_on _ := rfl
  settings_entryMode _ := rfl
  settings_clear _ := rfl
  settings_seek s a h := by rw [s.instruct_seek h]
  address_seek s a h := by rw [s.instruct_seek h]
  cells_seek s a h := by rw [s.instruct_seek h]
  settings_put s b h := by
    rw [DisplayRegisters.put, h, Bool.not_false, Bool.and_true]
  address_put s b h _ := if_pos h
  cells_put _ _ := rfl

end HibanaPico.Support
