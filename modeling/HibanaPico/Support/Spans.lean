import Mathlib.Data.Nat.Basic

/-!
# Support — Spans

Stretches of memory, and an arena cut into slots of one size.

* `Span.apart_slot`: two slots of an arena share no byte.
* `Span.within_slot`: a slot lies in the arena that holds so many of them.
* `Span.Apart.of_within`: what lies in spans that share no byte shares none.
-/

namespace HibanaPico.Support

/-- A stretch of memory: where it starts, and its bytes. -/
structure Span where
  start : ℕ
  size : ℕ
  deriving DecidableEq, Repr

namespace Span

variable {s t u v : Span} {base size i j n align : ℕ}

def stop (s : Span) : ℕ := s.start + s.size

/-- Every byte of the one is a byte of the other. -/
def Within (s t : Span) : Prop := t.start ≤ s.start ∧ s.stop ≤ t.stop

/-- The two share no byte. -/
def Apart (s t : Span) : Prop := s.stop ≤ t.start ∨ t.stop ≤ s.start

instance (s t : Span) : Decidable (s.Within t) := inferInstanceAs (Decidable (_ ∧ _))

instance (s t : Span) : Decidable (s.Apart t) := inferInstanceAs (Decidable (_ ∨ _))

/-- The slots of an arena, one behind the other. -/
def slot (base size i : ℕ) : Span := ⟨base + i * size, size⟩

/-- What starts where a span does, and is no longer. -/
theorem within_of_le {start len : ℕ} (h : len ≤ size) : Within ⟨start, len⟩ ⟨start, size⟩ :=
  ⟨Nat.le_refl _, Nat.add_le_add_left h start⟩

theorem Within.trans (h : s.Within t) (h' : t.Within u) : s.Within u :=
  ⟨Nat.le_trans h'.1 h.1, Nat.le_trans h.2 h'.2⟩

theorem Apart.symm (h : s.Apart t) : t.Apart s := Or.symm h

/-- What lies in spans that share no byte shares none. -/
theorem Apart.of_within (h : t.Apart v) (hs : s.Within t) (hu : u.Within v) : s.Apart u :=
  h.imp (fun h => Nat.le_trans hs.2 (Nat.le_trans h hu.1))
    fun h => Nat.le_trans hu.2 (Nat.le_trans h hs.1)

/-- **Two slots share no byte.** -/
theorem apart_slot (h : i ≠ j) : (slot base size i).Apart (slot base size j) := by
  have before {i j : ℕ} (lt : i < j) : base + i * size + size ≤ base + j * size := by
    have := Nat.mul_le_mul_right size (Nat.succ_le_of_lt lt)
    rw [Nat.succ_mul] at this
    omega
  exact (Nat.lt_or_gt_of_ne h).imp before before

/-- A slot lies in its arena. -/
theorem within_slot (h : i < n) : (slot base size i).Within ⟨base, n * size⟩ := by
  have := Nat.mul_le_mul_right size (Nat.succ_le_of_lt h)
  rw [Nat.succ_mul] at this
  refine ⟨Nat.le_add_right _ _, ?_⟩
  show base + i * size + size ≤ base + n * size
  omega

/-- The slots of an aligned arena are aligned. -/
theorem dvd_slot (hbase : align ∣ base) (hsize : align ∣ size) (i : ℕ) :
    align ∣ (slot base size i).start :=
  Nat.dvd_add hbase (Nat.dvd_mul_left_of_dvd hsize i)

/-- Slots of some size that start at one place are one slot. -/
theorem slot_start_inj (pos : 0 < size) (h : (slot base size i).start = (slot base size j).start) :
    i = j :=
  Nat.eq_of_mul_eq_mul_right pos (Nat.add_left_cancel h)

end Span

end HibanaPico.Support
