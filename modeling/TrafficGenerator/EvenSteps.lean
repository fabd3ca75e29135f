/-
This file is the general part of spreading a number of starts evenly over a
period: start after start, a fixed step is added, and the step is at most the
ideal one. Every start is early by as many times the rounding error as there are
steps before it, so the last one decides whether all are within one ideal step
of their ideal places.
-/

import Mathlib.Algebra.Order.Field.Rat
import Mathlib.Algebra.Order.AbsoluteValue.Basic
import Mathlib.Tactic.FieldSimp
import Mathlib.Tactic.Ring
import Mathlib.Tactic.Positivity

namespace EvenSteps

/-- Starts spread over a period: in order, within the period, and each within one ideal step of
its ideal place. -/
structure EvenlySpread (period count : ℕ) (offset : ℕ → ℕ) : Prop where
  increasing : ∀ first second, first < second → second < count → offset first < offset second
  within : ∀ pos < count, offset pos < period
  near : ∀ pos < count, |(offset pos : ℚ) - pos * period / count| < (period : ℚ) / count

/-- Only the offsets of the starts matter. -/
theorem EvenlySpread.congr {period count : ℕ} {offset other : ℕ → ℕ}
    (spread : EvenlySpread period count offset) (same : ∀ pos < count, offset pos = other pos) :
    EvenlySpread period count other where
  increasing first second before among := by
    rw [← same first (before.trans among), ← same second among]
    exact spread.increasing first second before among
  within pos among := same pos among ▸ spread.within pos among
  near pos among := same pos among ▸ spread.near pos among

/-- The distance from the ideal place over unbounded integers. -/
theorem near_iff {period count offset pos : ℕ} (some : 0 < count) :
    |(offset : ℚ) - pos * period / count| < (period : ℚ) / count ↔
      |((offset * count : ℕ) : ℤ) - (pos * period : ℕ)| < period := by
  have positive : (0 : ℚ) < count := by exact_mod_cast some
  have scaled : (offset : ℚ) - pos * period / count =
      ((offset * count : ℕ) - (pos * period : ℕ)) / count := by
    push_cast
    field_simp
  rw [scaled, abs_div, abs_of_pos positive, div_lt_div_iff_of_pos_right positive]
  exact_mod_cast Iff.rfl

/-- A start after some steps is early by as many rounding errors. -/
theorem near_step_iff {period count step pos : ℕ} (some : 0 < count)
    (fits : count * step ≤ period) :
    |((pos * step : ℕ) : ℚ) - pos * period / count| < (period : ℚ) / count ↔
      pos * (period - count * step) < period := by
  rw [near_iff some]
  have early : ((pos * step * count : ℕ) : ℤ) - (pos * period : ℕ) =
      -((pos * (period - count * step) : ℕ) : ℤ) := by
    push_cast [fits]
    ring
  rw [early, abs_neg, Nat.abs_cast]
  exact Int.ofNat_lt

/-- Equal steps that fit the period are an even spread exactly when the rounding errors before
the last start add up to less than the period. -/
theorem evenlySpread_steps_iff {period count step : ℕ} (some : 0 < count)
    (fits : count * step ≤ period) :
    EvenlySpread period count (fun pos => pos * step) ↔
      (count - 1) * (period - count * step) < period := by
  constructor
  · intro spread
    exact (near_step_iff some fits).mp (spread.near (count - 1) (Nat.sub_one_lt_of_lt some))
  · intro last
    have steps : ∀ pos < count, 0 < pos → 0 < step := by
      rintro pos among later
      by_contra none
      obtain rfl := Nat.eq_zero_of_not_pos none
      rw [Nat.mul_zero, Nat.sub_zero] at last
      have whole : period ≤ (count - 1) * period := Nat.le_mul_of_pos_left period (by omega)
      omega
    refine ⟨fun first second before among => ?_, fun pos among => ?_, fun pos among => ?_⟩
    · exact Nat.mul_lt_mul_of_pos_right before (steps second among (by omega))
    · rcases Nat.eq_zero_or_pos pos with rfl | later
      · exact Nat.lt_of_le_of_lt (by rw [Nat.zero_mul]; exact Nat.zero_le _) last
      · exact Nat.lt_of_lt_of_le
          (Nat.mul_lt_mul_of_pos_right among (steps pos among later)) fits
    · refine (near_step_iff some fits).mpr (Nat.lt_of_le_of_lt ?_ last)
      exact Nat.mul_le_mul_right _ (Nat.le_sub_one_of_lt among)

end EvenSteps
