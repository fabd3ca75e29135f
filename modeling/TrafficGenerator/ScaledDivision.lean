/-
This file is the general part of a conversion between two rates: a count of one
unit becomes a count of the other by a product and a truncating division. Over
unbounded numbers the conversion is monotone, and converting to a rate that is
not lower and back loses at most one. A machine takes the product modulo a word
size first, and then the quotient is the right one exactly when the product fits
the word.
-/

import Mathlib.Algebra.Order.Ring.Nat

namespace ScaledDivision

/-- A count at one rate as a count at another. -/
def rescale (count rate unit : ℕ) : ℕ := count * rate / unit

theorem rescale_mono {first second : ℕ} (rate unit : ℕ) (order : first ≤ second) :
    rescale first rate unit ≤ rescale second rate unit := by
  unfold rescale
  exact Nat.div_le_div_right (Nat.mul_le_mul_right rate order)

/-- What the division takes away is less than one unit. -/
theorem rescale_mul_le (count rate unit : ℕ) : rescale count rate unit * unit ≤ count * rate :=
  Nat.div_mul_le_self (count * rate) unit

theorem lt_rescale_mul_add (count rate : ℕ) {unit : ℕ} (positive : 0 < unit) :
    count * rate < rescale count rate unit * unit + unit :=
  Nat.lt_div_mul_add positive

/-! ### There and back -/

theorem rescale_rescale_le (count rate unit : ℕ) :
    rescale (rescale count rate unit) unit rate ≤ count :=
  Nat.div_le_of_le_mul (Nat.mul_comm count rate ▸ rescale_mul_le count rate unit)

/-- Through a rate that is not lower at most one is lost. -/
theorem le_rescale_rescale (count : ℕ) {rate unit : ℕ} (positive : 0 < unit) (lower : unit ≤ rate) :
    count ≤ rescale (rescale count rate unit) unit rate + 1 := by
  have ratePositive : 0 < rate := Nat.lt_of_lt_of_le positive lower
  have below : count * rate < (rescale (rescale count rate unit) unit rate + 1 + 1) * rate := by
    calc count * rate < rescale count rate unit * unit + unit :=
          lt_rescale_mul_add count rate positive
      _ ≤ rescale count rate unit * unit + rate := Nat.add_le_add_left lower _
      _ < rescale (rescale count rate unit) unit rate * rate + rate + rate :=
          Nat.add_lt_add_right (lt_rescale_mul_add _ unit ratePositive) rate
      _ = (rescale (rescale count rate unit) unit rate + 1 + 1) * rate := by
          rw [Nat.add_mul, Nat.add_mul, Nat.one_mul]
  exact Nat.lt_succ_iff.mp (Nat.lt_of_mul_lt_mul_right below)

/-- Nothing is lost when the one rate is a multiple of the other. -/
theorem rescale_rescale_of_dvd (count : ℕ) {rate unit : ℕ} (positive : 0 < rate)
    (multiple : unit ∣ rate) : rescale (rescale count rate unit) unit rate = count := by
  unfold rescale
  rw [Nat.div_mul_cancel (Nat.dvd_mul_left_of_dvd multiple count), Nat.mul_div_cancel _ positive]

/-! ### The quotient of a product that is kept modulo a word size -/

/-- A wrapped product has the right quotient exactly when it has not wrapped. -/
theorem mod_div_eq_div_iff (num : ℕ) {size unit : ℕ} (positive : 0 < unit) (fits : unit ≤ size) :
    num % size / unit = num / unit ↔ num < size := by
  constructor
  · intro same
    by_contra wraps
    have carried : num % size + unit ≤ num := by
      have split := Nat.mod_add_div num size
      have once : size ≤ size * (num / size) :=
        Nat.le_mul_of_pos_right size (Nat.div_pos (Nat.le_of_not_lt wraps)
          (Nat.lt_of_lt_of_le positive fits))
      omega
    have larger := Nat.div_le_div_right (c := unit) carried
    rw [Nat.add_div_right _ positive, same] at larger
    exact Nat.not_succ_le_self _ larger
  · intro small
    rw [Nat.mod_eq_of_lt small]

/-- Two numbers have the same quotient exactly when no multiple of the unit lies between them. -/
theorem div_eq_div_iff_multiples {low high unit : ℕ} (order : low ≤ high) (positive : 0 < unit) :
    high / unit = low / unit ↔ ∀ multiple, multiple * unit ≤ high → multiple * unit ≤ low := by
  constructor
  · intro same multiple below
    rw [← Nat.le_div_iff_mul_le positive, ← same, Nat.le_div_iff_mul_le positive]
    exact below
  · intro none
    refine Nat.le_antisymm ?_ (Nat.div_le_div_right order)
    exact (Nat.le_div_iff_mul_le positive).mpr (none _ (Nat.div_mul_le_self high unit))

/-- One always does when they are a unit apart. -/
theorem div_ne_div_of_add_le {low high unit : ℕ} (apart : low + unit ≤ high)
    (positive : 0 < unit) : high / unit ≠ low / unit := by
  have larger := Nat.div_le_div_right (c := unit) apart
  rw [Nat.add_div_right _ positive] at larger
  omega

/-- Wrapping never makes the quotient larger. -/
theorem mod_div_le_div (num size unit : ℕ) : num % size / unit ≤ num / unit :=
  Nat.div_le_div_right (Nat.mod_le num size)

end ScaledDivision
