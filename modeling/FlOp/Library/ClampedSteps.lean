import Mathlib.Algebra.Order.Archimedean.Basic
import Mathlib.Algebra.Order.Field.Basic
import Mathlib.Logic.Function.Iterate
import Mathlib.Tactic.Linarith

/-! # Clamped steps

A value moves by some amount and is then brought into an interval. The clamp shortens a step that
would leave the interval, but it lengthens or turns one that starts outside of it. A step that is
repeated comes to rest where it first reaches the end of the interval.
-/

namespace FlOp.Library

section Clamp

variable {α : Type*} [LinearOrder α] {low high x : α}

/-- The value of an interval that is closest to `x`. -/
def clamp (low high x : α) : α := max low (min high x)

theorem clamp_of_le (below : x ≤ low) : clamp low high x = low :=
  max_eq_left ((min_le_right high x).trans below)

theorem clamp_of_ge (ordered : low ≤ high) (above : high ≤ x) : clamp low high x = high := by
  rw [clamp, min_eq_left above, max_eq_right ordered]

theorem clamp_of_mem (lower : low ≤ x) (upper : x ≤ high) : clamp low high x = x := by
  rw [clamp, min_eq_right upper, max_eq_right lower]

theorem low_le_clamp (low high x : α) : low ≤ clamp low high x := le_max_left _ _

theorem clamp_le_high (ordered : low ≤ high) (x : α) : clamp low high x ≤ high :=
  max_le ordered (min_le_left _ _)

theorem clamp_eq_low_iff (ordered : low < high) : clamp low high x = low ↔ x ≤ low := by
  rw [clamp, max_eq_left_iff, min_le_iff, or_iff_right ordered.not_ge]

theorem clamp_eq_high_iff (ordered : low < high) : clamp low high x = high ↔ high ≤ x := by
  constructor
  · intro reached
    by_contra! inside
    rcases le_total x low with below | above
    · rw [clamp_of_le below] at reached
      exact ordered.ne reached
    · rw [clamp_of_mem above inside.le] at reached
      exact inside.ne reached
  · exact clamp_of_ge ordered.le

end Clamp

section Steps

variable {α : Type*} [Field α] [LinearOrder α] [IsStrictOrderedRing α] {low high v r : α}

/-- Turning the line around exchanges the two ends of the interval. -/
theorem clamp_neg (ordered : low ≤ high) (x : α) :
    clamp (-high) (-low) (-x) = -clamp low high x := by
  rcases le_total x low with below | above
  · rw [clamp_of_le below, clamp_of_ge (neg_le_neg ordered) (neg_le_neg below)]
  · rcases le_total x high with inside | beyond
    · rw [clamp_of_mem above inside, clamp_of_mem (neg_le_neg inside) (neg_le_neg above)]
    · rw [clamp_of_ge ordered beyond, clamp_of_le (neg_le_neg beyond)]

/-- A clamped step down goes down and no further than the step exactly if it does not start below
the interval and does not end above it. -/
theorem lowered_within_iff (ordered : low ≤ high) (nonneg : 0 ≤ r) :
    (clamp low high (v - r) ≠ v →
      |clamp low high (v - r) - v| ≤ r ∧ clamp low high (v - r) ≤ v) ↔
      low ≤ v ∧ v - r ≤ high := by
  constructor
  · intro within
    constructor
    · by_contra! below
      have lifted := low_le_clamp low high (v - r)
      have falls := (within (below.trans_le lifted).ne').2
      linarith
    · by_contra! beyond
      rw [clamp_of_ge ordered beyond.le] at within
      obtain ⟨reach, -⟩ := within (by linarith : high < v).ne
      have far := neg_le_of_abs_le reach
      linarith
  · rintro ⟨lower, upper⟩ -
    have falls : clamp low high (v - r) ≤ v := max_le lower ((min_le_right _ _).trans (by linarith))
    have reach : v - r ≤ clamp low high (v - r) := by
      rw [clamp, min_eq_right upper]
      exact le_max_right _ _
    exact ⟨abs_le.mpr ⟨by linarith, by linarith⟩, falls⟩

theorem raised_within_iff (ordered : low ≤ high) (nonneg : 0 ≤ r) :
    (clamp low high (v + r) ≠ v →
      |clamp low high (v + r) - v| ≤ r ∧ v ≤ clamp low high (v + r)) ↔
      v ≤ high ∧ low ≤ v + r := by
  have turned := lowered_within_iff (v := -v) (neg_le_neg ordered) nonneg
  have start : -v - r = -(v + r) := (neg_add' v r).symm
  have length : |-clamp low high (v + r) - -v| = |clamp low high (v + r) - v| := by
    rw [neg_sub_neg, abs_sub_comm]
  rw [start, clamp_neg ordered, length] at turned
  simpa only [ne_eq, neg_inj, neg_le_neg_iff] using turned

/-- A clamped step down rests at the low end only. -/
theorem lowered_eq_iff (ordered : low ≤ high) (positive : 0 < r) :
    clamp low high (v - r) = v ↔ v = low := by
  constructor
  · intro rests
    rcases le_total (v - r) low with below | above
    · rw [← rests, clamp_of_le below]
    · have inside := clamp_le_high ordered (v - r)
      rw [rests] at inside
      rw [clamp_of_mem above (by linarith)] at rests
      linarith
  · rintro rfl
    exact clamp_of_le (by linarith)

theorem raised_eq_iff (ordered : low ≤ high) (positive : 0 < r) :
    clamp low high (v + r) = v ↔ v = high := by
  have turned := lowered_eq_iff (v := -v) (neg_le_neg ordered) positive
  have start : -v - r = -(v + r) := (neg_add' v r).symm
  rw [start, clamp_neg ordered] at turned
  simpa only [neg_inj] using turned

/-- A step that is a part of the value, brought into the interval. -/
def relativeStep (low high rate v : α) : α := clamp low high (v + |v| * rate)

variable {rate : α}

/-- Zero lies outside of the interval, so a step that moves up rests at the high end only. -/
theorem relativeStep_eq_self_of_pos (positive : 0 < low) (ordered : low ≤ high)
    (raising : 0 < rate) : relativeStep low high rate v = v ↔ v = high := by
  rcases eq_or_ne v 0 with rfl | nonzero
  · have lifted : relativeStep low high rate 0 = low :=
      clamp_of_le (by rw [abs_zero, zero_mul, add_zero]; exact positive.le)
    rw [lifted]
    exact iff_of_false positive.ne' (positive.trans_le ordered).ne
  · exact raised_eq_iff ordered (mul_pos (abs_pos.mpr nonzero) raising)

theorem relativeStep_eq_self_of_neg (positive : 0 < low) (ordered : low ≤ high)
    (lowering : rate < 0) : relativeStep low high rate v = v ↔ v = low := by
  rcases eq_or_ne v 0 with rfl | nonzero
  · have lifted : relativeStep low high rate 0 = low :=
      clamp_of_le (by rw [abs_zero, zero_mul, add_zero]; exact positive.le)
    rw [lifted, eq_comm]
  · have down : 0 < |v| * -rate := mul_pos (abs_pos.mpr nonzero) (neg_pos.mpr lowering)
    have rests := lowered_eq_iff (v := v) ordered down
    rwa [mul_neg, sub_neg_eq_add] at rests

/-- A second step changes nothing exactly if the first one reached the end it moved to. -/
theorem relativeStep_rests_iff (positive : 0 < low) (ordered : low < high) (rate v : α) :
    relativeStep low high rate (relativeStep low high rate v) = relativeStep low high rate v ↔
      rate = 0 ∨ (rate < 0 ∧ v + |v| * rate ≤ low) ∨ (0 < rate ∧ high ≤ v + |v| * rate) := by
  rcases lt_trichotomy rate 0 with lowering | rfl | raising
  · rw [relativeStep_eq_self_of_neg positive ordered.le lowering, relativeStep,
      clamp_eq_low_iff ordered]
    simp only [lowering.ne, lowering, lowering.not_gt, false_or, true_and, false_and, or_false]
  · have inside := clamp_of_mem (low_le_clamp low high v) (clamp_le_high ordered.le v)
    simp only [relativeStep, mul_zero, add_zero, inside, true_or]
  · rw [relativeStep_eq_self_of_pos positive ordered.le raising, relativeStep,
      clamp_eq_high_iff ordered]
    simp only [raising.ne', raising, raising.not_gt, false_or, true_and, false_and]

/-- Within a negative rate nothing moves. -/
theorem within_iff_eq_of_neg (negative : rate < 0) {w : α} {P : Prop} :
    (w ≠ v → |w - v| ≤ |v| * rate ∧ P) ↔ w = v := by
  constructor
  · intro within
    by_contra moved
    have reach := (within moved).1.trans
      (mul_nonpos_of_nonneg_of_nonpos (abs_nonneg v) negative.le)
    exact moved (sub_eq_zero.mp (abs_nonpos_iff.mp reach))
  · exact fun rests moved => absurd rests moved

/-- When a step up is within its rate and does not go down. -/
theorem relativeStep_raises_iff (positive : 0 < low) (ordered : low ≤ high) (rate v : α) :
    (relativeStep low high rate v ≠ v →
      |relativeStep low high rate v - v| ≤ |v| * rate ∧ v ≤ relativeStep low high rate v) ↔
      if 0 ≤ rate then v ≤ high ∧ low ≤ v + |v| * rate else v = low := by
  split_ifs with nonneg
  · exact raised_within_iff ordered (mul_nonneg (abs_nonneg v) nonneg)
  · have negative := not_le.mp nonneg
    rw [within_iff_eq_of_neg negative, relativeStep_eq_self_of_neg positive ordered negative]

/-- When a step down is within its rate and does not go up. -/
theorem relativeStep_lowers_iff (positive : 0 < low) (ordered : low ≤ high) (rate v : α) :
    (relativeStep low high (-rate) v ≠ v →
      |relativeStep low high (-rate) v - v| ≤ |v| * rate ∧ relativeStep low high (-rate) v ≤ v) ↔
      if 0 ≤ rate then low ≤ v ∧ v - |v| * rate ≤ high else v = high := by
  split_ifs with nonneg
  · rw [relativeStep, mul_neg, ← sub_eq_add_neg]
    exact lowered_within_iff ordered (mul_nonneg (abs_nonneg v) nonneg)
  · have negative := not_le.mp nonneg
    rw [within_iff_eq_of_neg negative,
      relativeStep_eq_self_of_pos positive ordered (neg_pos.mpr negative)]

end Steps

section Repeated

variable {σ : Type*} (step : σ → σ) (s : σ)

/-- Repeated steps change a state at most once exactly if the second step changes nothing. -/
theorem changes_once_iff :
    (∀ i j, step^[i + 1] s ≠ step^[i] s → step^[j + 1] s ≠ step^[j] s → i = j) ↔
      step (step s) = step s := by
  constructor
  · intro once
    by_contra second
    have first : step s ≠ s := by
      intro rests
      rw [rests] at second
      exact second rests
    exact absurd (once 0 1 first second) (by decide)
  · intro rests
    have later (n : ℕ) : step^[n + 1] s = step s := by
      induction n with
      | zero => rfl
      | succ n ih => rw [Function.iterate_succ_apply', ih, rests]
    have only (i : ℕ) (changes : step^[i + 1] s ≠ step^[i] s) : i = 0 := by
      cases i with
      | zero => rfl
      | succ i => exact absurd ((later (i + 1)).trans (later i).symm) changes
    intro i j first second
    rw [only i first, only j second]

variable {α : Type*} [Field α] [LinearOrder α] [IsStrictOrderedRing α] [Archimedean α]
variable {step s}

/-- A state that gets closer to its goal by some amount with every step is there after finitely
many steps. -/
theorem iterate_reaches (distance : σ → α) {goal : σ} {c : α} (positive : 0 < c)
    (nonneg : ∀ s, 0 ≤ distance (step s)) (rests : step goal = goal)
    (closer : ∀ s, step (step s) = goal ∨ distance (step (step s)) ≤ distance (step s) - c) :
    ∃ n, ∀ m, n ≤ m → step^[m] s = goal := by
  have approach (k : ℕ) :
      step^[k + 1] s = goal ∨ distance (step^[k + 1] s) ≤ distance (step s) - k * c := by
    induction k with
    | zero => exact .inr (by simp)
    | succ k ih =>
      rw [Function.iterate_succ_apply']
      rcases ih with there | near
      · exact .inl (by rw [there, rests])
      · rw [Function.iterate_succ_apply'] at near ⊢
        refine (closer _).imp_right fun nearer => ?_
        push_cast
        linarith
  obtain ⟨k, enough⟩ := exists_nat_gt (distance (step s) / c)
  rw [div_lt_iff₀ positive] at enough
  have there : step^[k + 1] s = goal := by
    rcases approach k with there | near
    · exact there
    · have kept := nonneg (step^[k] s)
      rw [Function.iterate_succ_apply'] at near
      linarith
  refine ⟨k + 1, fun m later => ?_⟩
  obtain ⟨more, rfl⟩ := Nat.exists_eq_add_of_le' later
  rw [Function.iterate_add_apply, there]
  exact Function.iterate_fixed rests more

/-- Repeated relative steps come to rest. -/
theorem relativeStep_iterate_rests {low high : α} (positive : 0 < low) (ordered : low < high)
    (rate v : α) : ∃ goal n, ∀ m, n ≤ m → (relativeStep low high rate)^[m] v = goal := by
  have lower (v : α) : low ≤ relativeStep low high rate v := low_le_clamp low high _
  have upper (v : α) : relativeStep low high rate v ≤ high := clamp_le_high ordered.le _
  have next (v : α) : relativeStep low high rate (relativeStep low high rate v) =
      clamp low high (relativeStep low high rate v + relativeStep low high rate v * rate) := by
    rw [relativeStep, abs_of_pos (positive.trans_le (lower v))]
  rcases lt_trichotomy rate 0 with lowering | rfl | raising
  · have drop : 0 < low * -rate := mul_pos positive (neg_pos.mpr lowering)
    refine ⟨low, iterate_reaches (fun v => v - low) drop (fun v => sub_nonneg.mpr (lower v))
      ((relativeStep_eq_self_of_neg positive ordered.le lowering).mpr rfl) fun v => ?_⟩
    have fall := mul_le_mul_of_nonpos_right (lower v) lowering.le
    rcases le_total (relativeStep low high rate v + relativeStep low high rate v * rate) low
      with reached | inside
    · exact .inl (by rw [next, clamp_of_le reached])
    · have below : relativeStep low high rate v + relativeStep low high rate v * rate ≤ high := by
        linarith [upper v]
      right
      rw [next, clamp_of_mem inside below]
      linarith
  · refine ⟨clamp low high v, 1, fun m later => ?_⟩
    have still (v : α) : relativeStep low high 0 v = clamp low high v := by
      rw [relativeStep, mul_zero, add_zero]
    obtain ⟨more, rfl⟩ := Nat.exists_eq_add_of_le' later
    rw [Function.iterate_add_apply, Function.iterate_one, still]
    refine Function.iterate_fixed ?_ more
    rw [still, clamp_of_mem (low_le_clamp low high v) (clamp_le_high ordered.le v)]
  · have rise : 0 < low * rate := mul_pos positive raising
    refine ⟨high, iterate_reaches (fun v => high - v) rise (fun v => sub_nonneg.mpr (upper v))
      ((relativeStep_eq_self_of_pos positive ordered.le raising).mpr rfl) fun v => ?_⟩
    have climb := mul_le_mul_of_nonneg_right (lower v) raising.le
    rcases le_total high (relativeStep low high rate v + relativeStep low high rate v * rate)
      with reached | inside
    · exact .inl (by rw [next, clamp_of_ge ordered.le reached])
    · have above : low ≤ relativeStep low high rate v + relativeStep low high rate v * rate := by
        linarith [lower v]
      right
      rw [next, clamp_of_mem above inside]
      linarith

end Repeated

end FlOp.Library
