/-
This file is about the conversions between cycles and durations. They are the
truncating divisions of a product of 64 bits, so they are the exact ones as long
as the product does not wrap, and the product of a negative duration always
does. A duration survives the way to cycles and back up to one tick, at every
frequency that counts at least one cycle a tick.
-/

import TrafficGenerator.Cycles
import TrafficGenerator.ScaledDivision

namespace TrafficGenerator

open ScaledDivision

/-! ### The two conversions as numbers -/

theorem DurationUnit.perSecond_pos (tick : DurationUnit) : 0 < tick.perSecond.toNat := by
  cases tick <;> decide

theorem DurationUnit.perSecond_le (tick : DurationUnit) : tick.perSecond.toNat ≤ 1000000000 := by
  cases tick <;> decide

theorem toNat_ofInt_natCast (count : ℕ) : (UInt64.ofInt (count : Int)).toNat = count % 2 ^ 64 := by
  unfold UInt64.ofInt
  rw [UInt64.toNat_ofNat']
  omega

/-- A duration that is not negative is multiplied modulo the word size. -/
theorem Cycles.toNat_fromDuration (hz : UInt64) (tick : DurationUnit) (count : ℕ) :
    (Cycles.fromDuration hz tick count).toNat =
      count * hz.toNat % 2 ^ 64 / tick.perSecond.toNat := by
  unfold Cycles.fromDuration
  rw [UInt64.toNat_div, UInt64.toNat_mul, toNat_ofInt_natCast, Nat.mod_mul_mod]

/-- It is the exact number of cycles when the product fits. -/
theorem Cycles.toNat_fromDuration_of_fits {hz : UInt64} {count : ℕ} (tick : DurationUnit)
    (fits : count * hz.toNat < 2 ^ 64) :
    (Cycles.fromDuration hz tick count).toNat =
      rescale count hz.toNat tick.perSecond.toNat := by
  rw [Cycles.toNat_fromDuration, Nat.mod_eq_of_lt fits]
  rfl

/-- And only then. -/
theorem Cycles.toNat_fromDuration_eq_iff {hz : UInt64} {count : ℕ} (tick : DurationUnit) :
    (Cycles.fromDuration hz tick count).toNat =
      rescale count hz.toNat tick.perSecond.toNat ↔ count * hz.toNat < 2 ^ 64 := by
  rw [Cycles.toNat_fromDuration]
  exact mod_div_eq_div_iff _ tick.perSecond_pos (tick.perSecond_le.trans (by decide))

/-- A negative duration becomes the complement of its product. -/
theorem Cycles.toNat_fromDuration_neg (hz : UInt64) (tick : DurationUnit) (count : ℕ) :
    (Cycles.fromDuration hz tick (-(count : Int))).toNat =
      (2 ^ 64 - count * hz.toNat % 2 ^ 64) % 2 ^ 64 / tick.perSecond.toNat := by
  unfold Cycles.fromDuration
  rw [UInt64.ofInt_neg, UInt64.neg_mul, UInt64.toNat_div, UInt64.toNat_neg, UInt64.toNat_mul,
    toNat_ofInt_natCast, Nat.mod_mul_mod]
  rfl

theorem Cycles.toNat_toDuration (hz : UInt64) (tick : DurationUnit) (num : Cycles) :
    (Cycles.toDuration hz tick num).toNat =
      num.toNat * tick.perSecond.toNat % 2 ^ 64 / hz.toNat := by
  unfold Cycles.toDuration
  rw [UInt64.toNat_div, UInt64.toNat_mul]

theorem Cycles.toNat_toDuration_of_fits {hz : UInt64} (tick : DurationUnit) {num : Cycles}
    (fits : num.toNat * tick.perSecond.toNat < 2 ^ 64) :
    (Cycles.toDuration hz tick num).toNat =
      rescale num.toNat tick.perSecond.toNat hz.toNat := by
  rw [Cycles.toNat_toDuration, Nat.mod_eq_of_lt fits]
  rfl

/-! ### There and back -/

/-- The `count()` of the duration `to` returns, a signed number. -/
def Cycles.countOf (hz : UInt64) (tick : DurationUnit) (num : Cycles) : Int :=
  (Cycles.toDuration hz tick num).toInt64.toInt

theorem toInt_toInt64 (num : UInt64) : num.toInt64.toInt =
    if num.toNat < 2 ^ 63 then (num.toNat : Int) else (num.toNat : Int) - 2 ^ 64 := by
  have signed := BitVec.toInt_eq_toNat_cond num.toBitVec
  have whole : num.toBitVec.toNat = num.toNat := rfl
  rw [whole] at signed
  exact signed.trans (by split <;> split <;> omega)

/-- The sign is lost on no duration that the signed count has room for. -/
theorem Cycles.countOf_of_fits {hz : UInt64} (tick : DurationUnit) {num : Cycles}
    (fits : num.toNat * tick.perSecond.toNat < 2 ^ 64)
    (small : rescale num.toNat tick.perSecond.toNat hz.toNat < 2 ^ 63) :
    Cycles.countOf hz tick num = rescale num.toNat tick.perSecond.toNat hz.toNat := by
  unfold Cycles.countOf
  rw [toInt_toInt64, Cycles.toNat_toDuration_of_fits tick fits, if_pos small]

/-- A duration in the range of the conversion: its count is a signed 64-bit number, not
negative, and its product with the frequency does not overflow. -/
structure Convertible (hz : UInt64) (count : Int) : Prop where
  nonneg : 0 ≤ count
  representable : count < 2 ^ 63
  fits : count * hz.toNat < 2 ^ 64

theorem Convertible.mono {hz : UInt64} {first second : Int} (convertible : Convertible hz second)
    (nonneg : 0 ≤ first) (order : first ≤ second) : Convertible hz first where
  nonneg := nonneg
  representable := Int.lt_of_le_of_lt order convertible.representable
  fits := Int.lt_of_le_of_lt (Int.mul_le_mul_of_nonneg_right order (Int.natCast_nonneg _))
    convertible.fits

theorem Convertible.exists_nat {hz : UInt64} {count : Int} (convertible : Convertible hz count) :
    ∃ num : ℕ, count = num ∧ num < 2 ^ 63 ∧ num * hz.toNat < 2 ^ 64 := by
  obtain ⟨num, rfl⟩ := Int.eq_ofNat_of_zero_le convertible.nonneg
  exact ⟨num, rfl, by exact_mod_cast convertible.representable,
    by exact_mod_cast convertible.fits⟩

/-- The cycles of a duration in range, and of no longer one, convert back without overflow. -/
theorem Convertible.countOf {hz : UInt64} (tick : DurationUnit) {count : ℕ} {num : Cycles}
    (convertible : Convertible hz count) (within : num ≤ Cycles.fromDuration hz tick count) :
    num.toNat * tick.perSecond.toNat < 2 ^ 64 ∧
      Cycles.countOf hz tick num = rescale num.toNat tick.perSecond.toNat hz.toNat := by
  obtain ⟨_, same, representable, fits⟩ := convertible.exists_nat
  obtain rfl := Int.ofNat.inj same
  have atMost : num.toNat ≤ rescale count hz.toNat tick.perSecond.toNat :=
    Cycles.toNat_fromDuration_of_fits tick fits ▸ UInt64.le_iff_toNat_le.mp within
  have product : num.toNat * tick.perSecond.toNat ≤ count * hz.toNat :=
    (Nat.mul_le_mul_right _ atMost).trans (rescale_mul_le _ _ _)
  have fitsBack := Nat.lt_of_le_of_lt product fits
  refine ⟨fitsBack, Cycles.countOf_of_fits tick fitsBack (Nat.lt_of_le_of_lt ?_ representable)⟩
  exact (rescale_mono _ _ atMost).trans (rescale_rescale_le _ _ _)

/-- A duration survives the conversion to cycles and back up to one tick, and whole when the
frequency is a multiple of the ticks per second; nothing overflows, and neither conversion
changes the order. -/
theorem fromDuration_toDuration (tick : DurationUnit) {hz : UInt64} {count : Int}
    (frequency : tick.perSecond ≤ hz) (convertible : Convertible hz count) :
    let num := Cycles.fromDuration hz tick count
    (Cycles.countOf hz tick num = count ∨ Cycles.countOf hz tick num = count - 1) ∧
      num.toNat * tick.perSecond.toNat < 2 ^ 64 ∧
      (tick.perSecond.toNat ∣ hz.toNat → Cycles.countOf hz tick num = count) ∧
      (∀ shorter, 0 ≤ shorter → shorter ≤ count → Cycles.fromDuration hz tick shorter ≤ num) ∧
      ∀ first second, first ≤ second → second ≤ num →
        Cycles.countOf hz tick first ≤ Cycles.countOf hz tick second := by
  intro num
  have lower : tick.perSecond.toNat ≤ hz.toNat := UInt64.le_iff_toNat_le.mp frequency
  have positive := Nat.lt_of_lt_of_le tick.perSecond_pos lower
  obtain ⟨count, rfl, -, fits⟩ := convertible.exists_nat
  obtain ⟨fitsBack, back⟩ := convertible.countOf tick (UInt64.le_refl num)
  have whole : num.toNat = rescale count hz.toNat tick.perSecond.toNat :=
    Cycles.toNat_fromDuration_of_fits tick fits
  refine ⟨?_, fitsBack, fun multiple => ?_, fun shorter nonneg order => ?_,
    fun first second order within => ?_⟩
  · have most := rescale_rescale_le count hz.toNat tick.perSecond.toNat
    have least := le_rescale_rescale count tick.perSecond_pos lower
    rw [back, whole]
    omega
  · rw [back, whole, rescale_rescale_of_dvd count positive multiple]
  · obtain ⟨short, rfl, -, shortFits⟩ := (convertible.mono nonneg order).exists_nat
    rw [UInt64.le_iff_toNat_le, whole, Cycles.toNat_fromDuration_of_fits tick shortFits]
    exact rescale_mono _ _ (by exact_mod_cast order)
  · rw [(convertible.countOf tick within).2,
      (convertible.countOf tick (UInt64.le_trans order within)).2]
    exact_mod_cast rescale_mono _ _ (UInt64.le_iff_toNat_le.mp order)

/-- At one and a half cycles a microsecond, one microsecond is lost and the next one is not. -/
theorem fromDuration_toDuration_inexact :
    let back := fun count =>
      Cycles.countOf 1500000 .microseconds (Cycles.fromDuration 1500000 .microseconds count)
    (back 1 = 0 ∧ back 2 = 2) ∧
      (back 1 = 1 ∨ back 1 = 1 - 1) ∧ (back 2 = 2 ∨ back 2 = 2 - 1) :=
  ⟨by decide,
    (fromDuration_toDuration .microseconds (by decide) ⟨by decide, by decide, by decide⟩).1,
    (fromDuration_toDuration .microseconds (by decide) ⟨by decide, by decide, by decide⟩).1⟩

end TrafficGenerator
