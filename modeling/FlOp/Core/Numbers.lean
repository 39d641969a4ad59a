import Mathlib.Algebra.Order.Ring.Rat
import Mathlib.Data.Rat.Floor
import Mathlib.Order.WithBot
import Mathlib.Tactic.NormNum

/-! # Numbers

Decimal rounding of exact rationals, and the comparisons of Python's `float`.
-/

namespace FlOp.Core

/-- The nearest integer; a half goes to the even neighbour. -/
def roundHalfEven (x : ℚ) : ℤ :=
  let low := ⌊x⌋
  let rest := x - low
  if rest < 1 / 2 then low
  else if 1 / 2 < rest then low + 1
  else if low % 2 = 0 then low else low + 1

/-- `round(x, digits)`. -/
def roundTo (digits : ℕ) (x : ℚ) : ℚ := roundHalfEven (x * 10 ^ digits) / 10 ^ digits

theorem floor_le_roundHalfEven (x : ℚ) : ⌊x⌋ ≤ roundHalfEven x := by
  simp only [roundHalfEven]
  split_ifs <;> omega

theorem roundHalfEven_le_floor_add_one (x : ℚ) : roundHalfEven x ≤ ⌊x⌋ + 1 := by
  simp only [roundHalfEven]
  split_ifs <;> omega

theorem roundHalfEven_mono {x y : ℚ} (le : x ≤ y) : roundHalfEven x ≤ roundHalfEven y := by
  rcases (Int.floor_le_floor le).lt_or_eq with lower | same
  · have high := roundHalfEven_le_floor_add_one x
    have low := floor_le_roundHalfEven y
    omega
  · simp only [roundHalfEven, same]
    split_ifs <;> first | omega | linarith

/-- What rounds to a number or less: everything below the next half, and the half itself where it
goes down. -/
def RoundsAtMost (k : ℤ) (x : ℚ) : Prop := x < k + 1 / 2 ∨ (x = k + 1 / 2 ∧ k % 2 = 0)

theorem roundHalfEven_le_iff {x : ℚ} {k : ℤ} : roundHalfEven x ≤ k ↔ RoundsAtMost k x := by
  have low := Int.floor_le x
  have high := Int.lt_floor_add_one x
  rw [RoundsAtMost]
  rcases lt_trichotomy ⌊x⌋ k with below | same | above
  · have bound := roundHalfEven_le_floor_add_one x
    have whole : (⌊x⌋ : ℚ) + 1 ≤ k := by exact_mod_cast below
    exact iff_of_true (by omega) (.inl (by linarith))
  · simp only [roundHalfEven, same]
    rw [same] at low
    split_ifs with below above even
    · exact iff_of_true le_rfl (.inl (by linarith))
    · refine iff_of_false (by omega) ?_
      rintro (less | ⟨half, -⟩) <;> linarith
    · exact iff_of_true le_rfl (.inr ⟨by linarith, even⟩)
    · refine iff_of_false (by omega) ?_
      rintro (less | ⟨-, even'⟩)
      · linarith
      · exact even even'
  · have bound := floor_le_roundHalfEven x
    have whole : (k : ℚ) + 1 ≤ ⌊x⌋ := by exact_mod_cast above
    refine iff_of_false (by omega) ?_
    rintro (less | ⟨half, -⟩) <;> linarith

/-- Two numbers round to the same number of whole units, counted as one at least, exactly if no
boundary from one and a half on lies between them. -/
theorem max_one_roundHalfEven_eq_iff {x y : ℚ} :
    max 1 (roundHalfEven x) = max 1 (roundHalfEven y) ↔
      ∀ k : ℤ, 1 ≤ k → (RoundsAtMost k x ↔ RoundsAtMost k y) := by
  simp only [← roundHalfEven_le_iff]
  constructor
  · intro same k positive
    omega
  · intro bounds
    have first := bounds (max 1 (roundHalfEven x)) (le_max_left _ _)
    have second := bounds (max 1 (roundHalfEven y)) (le_max_left _ _)
    omega

@[simp] theorem roundHalfEven_intCast (n : ℤ) : roundHalfEven n = n := by
  simp [roundHalfEven]

theorem roundTo_mono {x y : ℚ} (digits : ℕ) (le : x ≤ y) : roundTo digits x ≤ roundTo digits y := by
  have positive : (0 : ℚ) < 10 ^ digits := pow_pos (by norm_num) digits
  have scaled := roundHalfEven_mono (mul_le_mul_of_nonneg_right le positive.le)
  exact div_le_div_of_nonneg_right (Int.cast_le.mpr scaled) positive.le

/-- Rounding again changes nothing. -/
@[simp] theorem roundTo_roundTo (digits : ℕ) (x : ℚ) :
    roundTo digits (roundTo digits x) = roundTo digits x := by
  have positive : (0 : ℚ) < 10 ^ digits := pow_pos (by norm_num) digits
  conv_lhs => rw [roundTo, roundTo, div_mul_cancel₀ _ positive.ne', roundHalfEven_intCast]
  rfl

/-- Rounding keeps what is not negative so. -/
theorem roundTo_nonneg {x : ℚ} (digits : ℕ) (nonneg : 0 ≤ x) : 0 ≤ roundTo digits x := by
  have scaled : 0 ≤ x * 10 ^ digits := mul_nonneg nonneg (pow_nonneg (by norm_num) digits)
  have low : 0 ≤ ⌊x * 10 ^ digits⌋ := Int.floor_nonneg.mpr scaled
  have rounded : (0 : ℚ) ≤ roundHalfEven (x * 10 ^ digits) :=
    Int.cast_nonneg (low.trans (floor_le_roundHalfEven _))
  exact div_nonneg rounded (pow_nonneg (by norm_num) digits)

theorem abs_roundHalfEven_sub_le (x : ℚ) : |roundHalfEven x - x| ≤ 1 / 2 := by
  have low := Int.floor_le x
  have high := Int.lt_floor_add_one x
  rw [abs_le]
  simp only [roundHalfEven]
  split_ifs with below above even <;> push_cast <;> constructor <;> linarith

/-- Rounding moves a number by half a unit of the last digit at most. -/
theorem abs_roundTo_sub_le (digits : ℕ) (x : ℚ) : |roundTo digits x - x| ≤ 1 / 2 / 10 ^ digits := by
  have positive : (0 : ℚ) < 10 ^ digits := pow_pos (by norm_num) digits
  have scaled : roundTo digits x - x = (roundHalfEven (x * 10 ^ digits) - x * 10 ^ digits) /
      10 ^ digits := by
    rw [roundTo, sub_div, mul_div_cancel_right₀ x positive.ne']
  rw [scaled, abs_div, abs_of_pos positive]
  exact div_le_div_of_nonneg_right (abs_roundHalfEven_sub_le _) positive.le

example : [roundTo 1 (1 / 4), roundTo 1 (7 / 20), roundTo 0 (-5 / 2)] = [1 / 5, 2 / 5, -2] := by
  decide +kernel

/-- A Python `float`: a number or an infinity, or `nan`, which compares with nothing. -/
inductive PyFloat where
  | nan
  | of (value : WithBot (WithTop ℚ))
deriving DecidableEq

namespace PyFloat

/-- A finite `float`. -/
def number (q : ℚ) : PyFloat := of ((q : WithTop ℚ) : WithBot (WithTop ℚ))

/-- `a < b`, false where either side is `nan`. -/
def lt : PyFloat → PyFloat → Bool
  | of a, of b => decide (a < b)
  | _, _ => false

/-- `min(a, b)`: the first argument stays unless the second is smaller. -/
def minimum (a b : PyFloat) : PyFloat := if b.lt a then b else a

@[simp] theorem lt_nan (a : PyFloat) : a.lt nan = false := by cases a <;> rfl

@[simp] theorem nan_lt (a : PyFloat) : nan.lt a = false := rfl

@[simp] theorem of_lt_of (x y : WithBot (WithTop ℚ)) : (of x).lt (of y) = true ↔ x < y :=
  decide_eq_true_iff

@[simp] theorem minimum_nan (a : PyFloat) : minimum a nan = a := rfl

@[simp] theorem nan_minimum (a : PyFloat) : minimum nan a = nan := by simp [minimum]

@[simp] theorem minimum_of_of (x y : WithBot (WithTop ℚ)) :
    minimum (of x) (of y) = of (min x y) := by
  simp only [minimum, of_lt_of]
  split
  · next smaller => rw [min_eq_right smaller.le]
  · next notSmaller => rw [min_eq_left (not_lt.mp notSmaller)]

/-- A minimum that starts from a number is one. -/
theorem minimum_ne_nan {a : PyFloat} (number : a ≠ nan) (b : PyFloat) : minimum a b ≠ nan := by
  cases a with
  | nan => exact absurd rfl number
  | of x => cases b <;> simp

/-- What exceeds one of two bounds exceeds their minimum, unless the first bound is `nan`. -/
theorem minimum_lt {a b x : PyFloat} (number : a ≠ nan) (exceeds : a.lt x ∨ b.lt x) :
    (minimum a b).lt x := by
  cases a with
  | nan => exact absurd rfl number
  | of low =>
    cases x with
    | nan => simp at exceeds
    | of value =>
      cases b with
      | nan => simpa using exceeds
      | of other => simpa using exceeds

/-- Taking the minimum is associative except around a `nan` in the middle, which keeps a smaller
last value from being seen. -/
theorem minimum_assoc_iff (a b c : PyFloat) :
    minimum (minimum a b) c = minimum a (minimum b c) ↔ ¬ (b = nan ∧ c.lt a) := by
  cases a with
  | nan => simp
  | of x =>
    cases b with
    | nan =>
      cases c with
      | nan => simp
      | of z => simp
    | of y =>
      cases c with
      | nan => simp
      | of z => simp [min_assoc]

end PyFloat

end FlOp.Core
