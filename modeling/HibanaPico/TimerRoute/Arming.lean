import Mathlib.Algebra.Group.Nat.Defs
import Mathlib.Order.Bounds.Basic
import HibanaPico.TimerRoute.Alarm

/-!
# Timer route — Arming

The arithmetic of `timer_route_arm`, the same on both boards: the timeout in ticks, cut to 32 bits
and at least one, is added to the counter that was read, and written to `ALARM0` some ticks later.
The counter is 32 bits wide and the comparator looks for equality; it does not know whether a tick
is past.

* `delayTicks`, `alarmTarget`: what is added, and what is written.
* `FirstFires`: the first tick at which the counter is at the alarm, from a look on.
* `firstFires_armed`, `firstFires_late`: an alarm written in time, and one written too late.
* `alarm_arming`: when it fires.
* `armedRight_iff`: exactly when it fires neither before the timeout nor late.
-/

namespace HibanaPico.TimerRoute
open HibanaPico.Transport

abbrev U64 := BitVec 64

/-- `u64::saturating_mul`. -/
def saturatingMul (a b : U64) : U64 :=
  if a.toNat * b.toNat < 2 ^ 64 then a * b else BitVec.allOnes 64

/-- `delay_ticks`: `max(min(timeout_ms.saturating_mul(TICKS_PER_MS), u32::MAX) as u32, 1)`. -/
def delayTicks (timeoutMs : U64) : U32 :=
  let ticks := saturatingMul timeoutMs (BitVec.ofNat 64 timerTicksPerMs)
  let delay : U64 := if ticks ≤ 0xffffffff#64 then ticks else 0xffffffff#64
  let delay : U32 := delay.setWidth 32
  if delay ≤ 1 then 1 else delay

/-- What `timer_route_arm` writes to `ALARM0`, with the counter that it has read. -/
def alarmTarget (timerawl : U32) (timeoutMs : U64) : U32 := timerawl + delayTicks timeoutMs

/-- The first tick after the read at which the comparator looks for the alarm, when it is written so
many ticks after the read: the tick of the write, or the one after it. -/
def firstLook (atWrite : Bool) (d : ℕ) : ℕ := if atWrite then d else d + 1

/-- The first tick from `look` on, counted from the read, at which the counter is at the alarm. -/
def FirstFires (timerawl alarm : U32) (look : ℕ) : ℕ → Prop :=
  IsLeast {e | look ≤ e ∧ timerawl + BitVec.ofNat 32 e = alarm}

/-- The timeout that was asked for, in ticks. -/
def requestedTicks (timeoutMs : U64) : ℕ := timeoutMs.toNat * timerTicksPerMs

/-- The alarm fires no earlier than the timeout, and no later than the timeout or the tick after its
write. -/
def ArmedRight (atWrite : Bool) (timerawl : U32) (timeoutMs : U64) (d : ℕ) : Prop :=
  ∃ e, FirstFires timerawl (alarmTarget timerawl timeoutMs) (firstLook atWrite d) e ∧
    requestedTicks timeoutMs ≤ e ∧ e ≤ max (requestedTicks timeoutMs) (d + 1)

/-! ### The ticks that are added -/

theorem toNat_saturatingMul (a b : U64) :
    (saturatingMul a b).toNat = min (a.toNat * b.toNat) (2 ^ 64 - 1) := by
  unfold saturatingMul
  split
  · rename_i hfits
    rw [BitVec.toNat_mul, Nat.mod_eq_of_lt hfits, Nat.min_eq_left (Nat.le_sub_one_of_lt hfits)]
  · rename_i hover
    rw [BitVec.toNat_allOnes, Nat.min_eq_right ((Nat.sub_le _ _).trans (Nat.not_lt.mp hover))]

/-- The ticks are those of `timeoutTicks`, and at least one. -/
theorem toNat_delayTicks (timeoutMs : U64) :
    (delayTicks timeoutMs).toNat = max (timeoutTicks timeoutMs.toNat) 1 := by
  have hmul := toNat_saturatingMul timeoutMs (BitVec.ofNat 64 timerTicksPerMs)
  have hper : (BitVec.ofNat 64 timerTicksPerMs).toNat = timerTicksPerMs := rfl
  rw [hper] at hmul
  unfold delayTicks timeoutTicks u32Max
  dsimp only
  generalize saturatingMul timeoutMs (BitVec.ofNat 64 timerTicksPerMs) = ticks at *
  have hcut : (if ticks ≤ 0xffffffff#64 then ticks else 0xffffffff#64).toNat =
      min (timeoutMs.toNat * timerTicksPerMs) 4294967295 := by
    split
    · rename_i hle
      have hle' : ticks.toNat ≤ 4294967295 := hle
      omega
    · rename_i hgt
      have hgt' : 4294967295 < ticks.toNat := Nat.not_le.mp hgt
      change 4294967295 = _
      omega
  generalize (if ticks ≤ 0xffffffff#64 then ticks else 0xffffffff#64) = delay at *
  have hnarrow : (delay.setWidth 32).toNat =
      min (timeoutMs.toNat * timerTicksPerMs) 4294967295 := by
    rw [BitVec.toNat_setWidth, hcut]
    exact Nat.mod_eq_of_lt (by omega)
  split
  · rename_i hle
    have hle' : (delay.setWidth 32).toNat ≤ 1 := hle
    change 1 = _
    omega
  · rename_i hgt
    have hgt' : 1 < (delay.setWidth 32).toNat := Nat.not_le.mp hgt
    omega

/-- The counter is at the alarm once in each of its periods. -/
theorem counter_eq_alarm {timerawl : U32} {timeoutMs : U64} {e : ℕ} :
    timerawl + BitVec.ofNat 32 e = alarmTarget timerawl timeoutMs ↔
      e % 2 ^ 32 = (delayTicks timeoutMs).toNat := by
  unfold alarmTarget
  rw [BitVec.add_right_inj, ← BitVec.toNat_inj, BitVec.toNat_ofNat]

/-! ### When the alarm fires -/

/-- **An alarm written in time** fires after its ticks. -/
theorem firstFires_armed {timerawl : U32} {timeoutMs : U64} {look : ℕ}
    (hlook : look ≤ (delayTicks timeoutMs).toNat) :
    FirstFires timerawl (alarmTarget timerawl timeoutMs) look (delayTicks timeoutMs).toNat := by
  refine ⟨⟨hlook, counter_eq_alarm.mpr (Nat.mod_eq_of_lt (delayTicks timeoutMs).isLt)⟩, ?_⟩
  rintro e ⟨-, he⟩
  rw [← counter_eq_alarm.mp he]
  exact Nat.mod_le _ _

/-- **An alarm written too late** fires when the counter comes round to it. -/
theorem firstFires_late (timerawl : U32) (timeoutMs : U64) (look : ℕ) :
    FirstFires timerawl (alarmTarget timerawl timeoutMs) look
      (look + (delayTicks timeoutMs - BitVec.ofNat 32 look).toNat) := by
  have hlt := (delayTicks timeoutMs).isLt
  have hgap : (delayTicks timeoutMs - BitVec.ofNat 32 look).toNat =
      (4294967296 - look % 4294967296 + (delayTicks timeoutMs).toNat) % 4294967296 := by
    rw [BitVec.toNat_sub, BitVec.toNat_ofNat]
  refine ⟨⟨Nat.le_add_right _ _, counter_eq_alarm.mpr ?_⟩, ?_⟩
  · rw [hgap]
    omega
  · rintro e ⟨hle, he⟩
    have he' := counter_eq_alarm.mp he
    rw [hgap]
    omega

/-- **When the alarm fires**: never before the timeout, if it fits the counter; and when the counter
is not past the alarm at its first look, after the ticks of the timeout, cut to 32 bits and at least
one. -/
theorem alarm_arming (atWrite : Bool) (timerawl : U32) (timeoutMs : U64) (d : ℕ) :
    ∃ e, FirstFires timerawl (alarmTarget timerawl timeoutMs) (firstLook atWrite d) e ∧
      min (requestedTicks timeoutMs) u32Max ≤ e ∧
      (firstLook atWrite d ≤ max (min (requestedTicks timeoutMs) u32Max) 1 →
        e = max (min (requestedTicks timeoutMs) u32Max) 1 ∧
          e ≤ max (requestedTicks timeoutMs) (d + 1)) := by
  have hticks : (delayTicks timeoutMs).toNat =
      max (min (requestedTicks timeoutMs) u32Max) 1 := toNat_delayTicks timeoutMs
  rcases Nat.lt_or_ge (delayTicks timeoutMs).toNat (firstLook atWrite d) with hlate | hlook
  · have hfires := firstFires_late timerawl timeoutMs (firstLook atWrite d)
    refine ⟨_, hfires, ?_, fun hle => absurd hle (Nat.not_le.mpr (hticks ▸ hlate))⟩
    refine le_trans ?_ (hlate.le.trans (Nat.le_add_right _ _))
    rw [hticks]
    exact le_max_left _ _
  · refine ⟨_, firstFires_armed hlook, ?_, fun _ => ⟨hticks, ?_⟩⟩
    · rw [hticks]
      exact le_max_left _ _
    · rw [hticks]
      omega

/-- **Exactly when** the alarm fires neither before the timeout nor late: the timeout fits the
counter and the alarm is written in time, or the counter happens to come round to it within the tick
after the write. -/
theorem armedRight_iff (atWrite : Bool) (timerawl : U32) (timeoutMs : U64) (d : ℕ) :
    ArmedRight atWrite timerawl timeoutMs d ↔
      requestedTicks timeoutMs ≤ u32Max ∧
          firstLook atWrite d ≤ (delayTicks timeoutMs).toNat ∨
        (delayTicks timeoutMs).toNat < firstLook atWrite d ∧
          firstLook atWrite d +
              (delayTicks timeoutMs - BitVec.ofNat 32 (firstLook atWrite d)).toNat ≤ d + 1 ∧
          requestedTicks timeoutMs ≤ firstLook atWrite d +
            (delayTicks timeoutMs - BitVec.ofNat 32 (firstLook atWrite d)).toNat := by
  have hticks : (delayTicks timeoutMs).toNat =
      max (min (requestedTicks timeoutMs) u32Max) 1 := toNat_delayTicks timeoutMs
  unfold ArmedRight
  unfold u32Max at *
  rcases Nat.lt_or_ge (delayTicks timeoutMs).toNat (firstLook atWrite d) with hlate | hlook
  · have hfires := firstFires_late timerawl timeoutMs (firstLook atWrite d)
    have hnot : ¬ firstLook atWrite d ≤ (delayTicks timeoutMs).toNat := Nat.not_le.mpr hlate
    rw [and_iff_right hlate, or_iff_right fun h => hnot h.2]
    have hmod := counter_eq_alarm.mp hfires.1.2
    constructor
    · rintro ⟨e, he, hsoon, hlast⟩
      obtain rfl := he.unique hfires
      refine ⟨?_, hsoon⟩
      -- the timeout is an even number of ticks, the counter's last tick an odd one
      have heven : requestedTicks timeoutMs % 2 = 0 := by
        unfold requestedTicks timerTicksPerMs
        omega
      omega
    · rintro ⟨hlast, hsoon⟩
      exact ⟨_, hfires, hsoon, hlast.trans (le_max_right _ _)⟩
  · have hfires := @firstFires_armed timerawl timeoutMs _ hlook
    have hnot : ¬ (delayTicks timeoutMs).toNat < firstLook atWrite d := Nat.not_lt.mpr hlook
    rw [and_iff_left hlook, or_iff_left fun h => hnot h.1]
    constructor
    · rintro ⟨e, he, hsoon, -⟩
      obtain rfl := he.unique hfires
      omega
    · intro hfits
      exact ⟨_, hfires, by omega, by omega⟩

/-- A timeout of 5,000,000 ms ends after 4,294,967,295 ticks of its 5,000,000,000, and an alarm of
one millisecond that is written 1002 ticks after the read fires a period of the counter later. -/
theorem armed_wrong :
    (∀ atWrite, ¬ ArmedRight atWrite 0 5000000 0) ∧ ∀ atWrite, ¬ ArmedRight atWrite 0 1 1002 := by
  refine ⟨fun atWrite => ?_, fun atWrite => ?_⟩
  · rw [armedRight_iff]
    cases atWrite <;> decide
  · rw [armedRight_iff]
    cases atWrite <;> decide

end HibanaPico.TimerRoute
