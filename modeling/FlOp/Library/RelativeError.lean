import Mathlib.Algebra.Order.Field.Basic
import Mathlib.Tactic.Linarith
import Mathlib.Tactic.Positivity
import Mathlib.Tactic.Ring

/-! # Arithmetic with a relative error

An operation that rounds its exact result multiplies it by a factor close to one. Factors compose,
so what a chain of operations computes differs from the exact value by a known part of each of its
terms, and a comparison is decided by the exact value wherever that exceeds the difference.
-/

namespace FlOp.Library

variable {K : Type*} [Field K] [LinearOrder K] [IsStrictOrderedRing K]

/-- A rounding: every number moves by a fixed part of itself at most. -/
structure Rounding (unit : K) where
  round : K → K
  precise : ∀ x, |round x - x| ≤ unit * |x|

/-- The part of a number that so many roundings can move it by. -/
def drift (unit : K) (count : ℕ) : K := (1 + unit) ^ count - 1

/-- A factor that so many roundings can amount to. -/
def IsFactor (unit : K) (count : ℕ) (factor : K) : Prop := |factor - 1| ≤ drift unit count

variable {unit : K} {count other : ℕ} {factor partner x : K}

theorem drift_mono (nonneg : 0 ≤ unit) (le : count ≤ other) :
    drift unit count ≤ drift unit other :=
  sub_le_sub_right (pow_le_pow_right₀ (by linarith) le) 1

theorem drift_nonneg (nonneg : 0 ≤ unit) : 0 ≤ drift unit count :=
  sub_nonneg.mpr (one_le_pow₀ (by linarith))

theorem IsFactor.mono (own : IsFactor unit count factor) (nonneg : 0 ≤ unit)
    (le : count ≤ other) : IsFactor unit other factor :=
  le_trans own (drift_mono nonneg le)

theorem IsFactor.abs_le (own : IsFactor unit count factor) : |factor| ≤ (1 + unit) ^ count := by
  have split := abs_add_le (factor - 1) 1
  rw [sub_add_cancel, abs_one] at split
  have moved : |factor - 1| ≤ (1 + unit) ^ count - 1 := own
  linarith

/-- Factors compose. -/
theorem IsFactor.mul (own : IsFactor unit count factor) (nonneg : 0 ≤ unit)
    (also : IsFactor unit other partner) :
    IsFactor unit (count + other) (factor * partner) := by
  have moved : |factor - 1| ≤ (1 + unit) ^ count - 1 := own
  have movedToo : |partner - 1| ≤ (1 + unit) ^ other - 1 := also
  have grown : 1 ≤ (1 + unit) ^ count := one_le_pow₀ (by linarith)
  calc |factor * partner - 1| = |(factor - 1) * partner + (partner - 1)| := by ring_nf
    _ ≤ |(factor - 1) * partner| + |partner - 1| := abs_add_le _ _
    _ = |factor - 1| * |partner| + |partner - 1| := by rw [abs_mul]
    _ ≤ ((1 + unit) ^ count - 1) * (1 + unit) ^ other + ((1 + unit) ^ other - 1) :=
      add_le_add (mul_le_mul moved also.abs_le (abs_nonneg _) (by linarith)) movedToo
    _ = drift unit (count + other) := by rw [drift, pow_add]; ring

/-- What a factor moves a term by. -/
theorem IsFactor.abs_sub_le (own : IsFactor unit count factor) (x : K) :
    |factor * x - x| ≤ drift unit count * |x| := by
  have same : factor * x - x = (factor - 1) * x := by ring
  rw [same, abs_mul]
  exact mul_le_mul_of_nonneg_right own (abs_nonneg x)

/-- A factor of precise roundings is positive. -/
theorem IsFactor.pos (own : IsFactor unit count factor) (small : drift unit count < 1) :
    0 < factor := by
  have low := neg_le_of_abs_le (own.trans_lt small).le
  have strict := (abs_lt.mp (own.trans_lt small)).1
  linarith

namespace Rounding

variable (rounding : Rounding unit)

theorem unit_nonneg (rounding : Rounding unit) : 0 ≤ unit := by
  have bound := rounding.precise 1
  rw [abs_one, mul_one] at bound
  exact (abs_nonneg _).trans bound

/-- Rounding multiplies by a factor. -/
theorem exists_factor (x : K) : ∃ factor, IsFactor unit 1 factor ∧ rounding.round x = factor * x := by
  by_cases zero : x = 0
  · have kept := rounding.precise x
    rw [zero, abs_zero, mul_zero, sub_zero, abs_nonpos_iff] at kept
    refine ⟨1, ?_, by rw [zero, kept, mul_zero]⟩
    rw [IsFactor, sub_self, abs_zero]
    exact drift_nonneg rounding.unit_nonneg
  · refine ⟨rounding.round x / x, ?_, (div_mul_cancel₀ _ zero).symm⟩
    have moved : rounding.round x / x - 1 = (rounding.round x - x) / x := by
      rw [sub_div, div_self zero]
    rw [IsFactor, moved, abs_div, div_le_iff₀ (abs_pos.mpr zero), drift, pow_one,
      add_sub_cancel_left]
    exact rounding.precise x

@[simp] theorem round_zero : rounding.round 0 = 0 := by
  obtain ⟨factor, -, same⟩ := rounding.exists_factor 0
  rw [same, mul_zero]

variable {rounding}

theorem round_pos_iff (small : unit < 1) {x : K} : 0 < rounding.round x ↔ 0 < x := by
  obtain ⟨factor, own, same⟩ := rounding.exists_factor x
  have positive : 0 < factor := own.pos (by simpa [drift] using small)
  rw [same, mul_pos_iff_of_pos_left positive]

theorem round_eq_zero_iff (small : unit < 1) {x : K} : rounding.round x = 0 ↔ x = 0 := by
  obtain ⟨factor, own, same⟩ := rounding.exists_factor x
  have positive : 0 < factor := own.pos (by simpa [drift] using small)
  rw [same, mul_eq_zero, or_iff_right positive.ne']

theorem round_nonpos_iff (small : unit < 1) {x : K} : rounding.round x ≤ 0 ↔ x ≤ 0 := by
  rw [← not_lt, round_pos_iff small, not_lt]

theorem round_neg_iff (small : unit < 1) {x : K} : rounding.round x < 0 ↔ x < 0 := by
  rw [lt_iff_le_and_ne, lt_iff_le_and_ne, round_nonpos_iff small, Ne, Ne, round_eq_zero_iff small]

end Rounding

/-- What the factors of three terms move a comparison by. -/
theorem abs_compare_sub_le {a b c f g h : K} (first : IsFactor unit count f)
    (second : IsFactor unit count g) (third : IsFactor unit count h) :
    |f * a + g * b - h * c - (a + b - c)| ≤ drift unit count * (|a| + |b| + |c|) := by
  have split : f * a + g * b - h * c - (a + b - c) =
      (f * a - a) + (g * b - b) - (h * c - c) := by ring
  have apart := abs_sub ((f * a - a) + (g * b - b)) (h * c - c)
  have together := abs_add_le (f * a - a) (g * b - b)
  have bounds := add_le_add (add_le_add (first.abs_sub_le a) (second.abs_sub_le b))
    (third.abs_sub_le c)
  rw [split, mul_add, mul_add]
  linarith

/-- A value close to another has its sign, if that is not close to zero. -/
theorem nonneg_iff_of_abs_sub_lt {x y bound : K} (close : |x - y| ≤ bound) (clear : bound < |y|) :
    0 ≤ x ↔ 0 ≤ y := by
  have low := (abs_le.mp close).1
  have high := (abs_le.mp close).2
  rcases le_or_gt 0 y with nonneg | negative
  · rw [abs_of_nonneg nonneg] at clear
    exact iff_of_true (by linarith) nonneg
  · rw [abs_of_neg negative] at clear
    exact iff_of_false (by linarith) (not_le.mpr negative)

end FlOp.Library
