import FlOp.Core.Numbers
import FlOp.Library.RelativeError
import Mathlib.Data.Int.Log

/-! # Binary floating point

Arithmetic with a significand of a fixed number of bits, rounded to nearest with ties to even; the
exponent is not bounded. Division and comparison follow the IEEE rules for zero and `nan`.
-/

namespace FlOp.Core

open Library

/-- The nearest number with so many significant bits. -/
def roundBits (bits : ℕ) (x : ℚ) : ℚ :=
  let ulp : ℚ := 2 ^ (Int.log 2 |x| + 1 - bits)
  roundHalfEven (x / ulp) * ulp

theorem abs_roundBits_sub_le (bits : ℕ) (x : ℚ) :
    |roundBits bits x - x| ≤ 1 / 2 ^ bits * |x| := by
  by_cases zero : x = 0
  · simp [roundBits, zero, roundHalfEven]
  · set ulp : ℚ := 2 ^ (Int.log 2 |x| + 1 - bits) with unfolded
    have positive : 0 < ulp := zpow_pos (by norm_num) _
    have scaled : roundBits bits x - x = (roundHalfEven (x / ulp) - x / ulp) * ulp := by
      rw [sub_mul, div_mul_cancel₀ x positive.ne', roundBits]
    have leading : (2 : ℚ) ^ Int.log 2 |x| ≤ |x| := by
      exact_mod_cast Int.zpow_log_le_self (by norm_num) (abs_pos.mpr zero)
    have halved : 1 / 2 * ulp = 1 / 2 ^ bits * 2 ^ Int.log 2 |x| := by
      rw [unfolded, zpow_sub₀ two_ne_zero, zpow_add₀ two_ne_zero, zpow_natCast]
      ring
    rw [scaled, abs_mul, abs_of_pos positive]
    calc |roundHalfEven (x / ulp) - x / ulp| * ulp ≤ 1 / 2 * ulp :=
          mul_le_mul_of_nonneg_right (abs_roundHalfEven_sub_le _) positive.le
      _ = 1 / 2 ^ bits * 2 ^ Int.log 2 |x| := halved
      _ ≤ 1 / 2 ^ bits * |x| := mul_le_mul_of_nonneg_left leading (by positivity)

/-- The relative precision of `float32`. -/
def singleUnit : ℚ := 1 / 2 ^ 24

theorem singleUnit_nonneg : 0 ≤ singleUnit := by norm_num [singleUnit]

theorem singleUnit_lt_one : singleUnit < 1 := by norm_num [singleUnit]

/-- `float32`. -/
def single : Rounding singleUnit where
  round := roundBits 24
  precise := abs_roundBits_sub_le 24

/-- `float64`, here with no more than the precision of `float32`. -/
def double : Rounding singleUnit where
  round := roundBits 53
  precise x := (abs_roundBits_sub_le 53 x).trans
    (mul_le_mul_of_nonneg_right (by norm_num [singleUnit]) (abs_nonneg x))

example : (double.round (1 / 10), single.round 100) =
    (3602879701896397 / 36028797018963968, 100) := by
  decide +kernel

namespace PyFloat

/-- `a <= b`, false where either side is `nan`. -/
def le : PyFloat → PyFloat → Bool
  | of a, of b => decide (a ≤ b)
  | _, _ => false

@[simp] theorem nan_le (a : PyFloat) : nan.le a = false := rfl

@[simp] theorem le_nan (a : PyFloat) : a.le nan = false := by cases a <;> rfl

@[simp] theorem number_le_number (x y : ℚ) : (number x).le (number y) = true ↔ x ≤ y := by
  simp [number, le]

end PyFloat

end FlOp.Core
