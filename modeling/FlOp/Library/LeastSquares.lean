import Mathlib.Algebra.BigOperators.Group.List.Lemmas
import Mathlib.Algebra.Order.BigOperators.Group.List
import Mathlib.Algebra.Order.Field.Basic
import Mathlib.Tactic.FieldSimp
import Mathlib.Tactic.LinearCombination
import Mathlib.Tactic.Linarith
import Mathlib.Tactic.Ring

/-! # Least squares from running sums

A line is fitted to samples from five sums over them, which can be kept running as samples come in.
If two samples lie at different places there is exactly one line with the least squared error.
-/

namespace FlOp.Library

variable {K : Type*} [Field K]

/-- The sums over samples that a line is fitted from. -/
@[ext] structure FitSums (K : Type*) where
  n : K
  x : K
  y : K
  xx : K
  xy : K

namespace FitSums

/-- The sums over no sample. -/
def zero : FitSums K := ⟨0, 0, 0, 0, 0⟩

/-- The sums with one more sample. -/
def add (sums : FitSums K) (sample : K × K) : FitSums K where
  n := sums.n + 1
  x := sums.x + sample.1
  y := sums.y + sample.2
  xx := sums.xx + sample.1 * sample.1
  xy := sums.xy + sample.1 * sample.2

/-- The sums over some samples. -/
def of (samples : List (K × K)) : FitSums K := samples.foldl add zero

/-- How much the places of the samples spread. -/
def spread (sums : FitSums K) : K := sums.n * sums.xx - sums.x * sums.x

def slope (sums : FitSums K) : K := (sums.n * sums.xy - sums.x * sums.y) / sums.spread

def intercept (sums : FitSums K) : K := (sums.y - sums.slope * sums.x) / sums.n

end FitSums

/-- The squared error of a line on some samples. -/
def squaredError (samples : List (K × K)) (a b : K) : K :=
  (samples.map fun sample => (sample.2 - (a + b * sample.1)) ^ 2).sum

/-- The squares of a line over the places of some samples. -/
def squaredLine (samples : List (K × K)) (p q : K) : K :=
  (samples.map fun sample => (p + q * sample.1) ^ 2).sum

section Sums

variable (samples more : List (K × K)) (sample : K × K)

theorem FitSums.of_append : of (samples ++ more) = more.foldl add (of samples) :=
  List.foldl_append

@[simp] theorem FitSums.of_concat : of (samples ++ [sample]) = (of samples).add sample := by
  rw [of_append, List.foldl_cons, List.foldl_nil]

theorem FitSums.n_of : (of samples).n = samples.length := by
  induction samples using List.reverseRecOn with
  | nil => simp [of, zero]
  | append_singleton samples sample ih => simp [add, ih]

theorem FitSums.x_of : (of samples).x = (samples.map Prod.fst).sum := by
  induction samples using List.reverseRecOn with
  | nil => rfl
  | append_singleton samples sample ih => simp [add, ih]

theorem FitSums.y_of : (of samples).y = (samples.map Prod.snd).sum := by
  induction samples using List.reverseRecOn with
  | nil => rfl
  | append_singleton samples sample ih => simp [add, ih]

theorem squaredLine_eq (p q : K) :
    squaredLine samples p q = p ^ 2 * (FitSums.of samples).n +
      2 * p * q * (FitSums.of samples).x + q ^ 2 * (FitSums.of samples).xx := by
  induction samples using List.reverseRecOn with
  | nil => simp [squaredLine, FitSums.of, FitSums.zero]
  | append_singleton samples sample ih =>
    rw [squaredLine, List.map_append, List.sum_append, ← squaredLine, ih, FitSums.of_concat,
      FitSums.add, List.map_singleton, List.sum_singleton]
    ring

theorem squaredError_eq (a b : K) :
    squaredError samples a b = squaredError samples 0 0 - 2 * a * (FitSums.of samples).y -
      2 * b * (FitSums.of samples).xy + squaredLine samples a b := by
  induction samples using List.reverseRecOn with
  | nil => simp [squaredError, squaredLine, FitSums.of, FitSums.zero]
  | append_singleton samples sample ih =>
    rw [squaredError, squaredError, squaredLine] at ih ⊢
    simp only [List.map_append, List.sum_append, List.map_singleton, List.sum_singleton,
      FitSums.of_concat, FitSums.add, ih]
    ring

end Sums

section Ordered

variable [LinearOrder K] [IsStrictOrderedRing K] {samples : List (K × K)}

theorem squaredLine_nonneg (samples : List (K × K)) (p q : K) : 0 ≤ squaredLine samples p q := by
  refine List.sum_nonneg fun term listed => ?_
  obtain ⟨sample, -, rfl⟩ := List.mem_map.mp listed
  exact sq_nonneg _

/-- The squares of a line sum up to zero only if it is zero at every sample. -/
theorem squaredLine_eq_zero {p q : K} (none : squaredLine samples p q = 0) :
    ∀ sample ∈ samples, p + q * sample.1 = 0 := by
  induction samples with
  | nil => simp
  | cons sample rest ih =>
    have parts : (p + q * sample.1) ^ 2 + squaredLine rest p q = 0 := by
      rw [← none, squaredLine, squaredLine, List.map_cons, List.sum_cons]
    have first := sq_nonneg (p + q * sample.1)
    have others := squaredLine_nonneg rest p q
    have zero : (p + q * sample.1) ^ 2 = 0 := by linarith
    exact List.forall_mem_cons.mpr ⟨pow_eq_zero_iff two_ne_zero |>.mp zero, ih (by linarith)⟩

theorem FitSums.n_pos (some : samples ≠ []) : 0 < (of samples).n := by
  rw [n_of]
  exact_mod_cast List.length_pos_iff.mpr some

omit [IsStrictOrderedRing K] in
theorem FitSums.ne_nil_of_spread_pos (spreads : 0 < (of samples).spread) : samples ≠ [] := by
  rintro rfl
  simp [of, zero, spread] at spreads

/-- The spread is the number of samples times the squared distances from their mean. -/
theorem FitSums.spread_eq (some : samples ≠ []) :
    (of samples).spread = (of samples).n *
      squaredLine samples (-((of samples).x / (of samples).n)) 1 := by
  have count := (n_pos some).ne'
  rw [squaredLine_eq, spread]
  field_simp
  ring

/-- Samples spread exactly if two of them lie at different places. -/
theorem FitSums.spread_pos_iff :
    0 < (of samples).spread ↔ ∃ a ∈ samples, ∃ b ∈ samples, a.1 ≠ b.1 := by
  constructor
  · intro spreads
    by_contra same
    push Not at same
    cases samples with
    | nil => simp [of, zero, spread] at spreads
    | cons first rest =>
      have still : squaredLine (first :: rest) (-first.1) 1 = 0 := by
        refine List.sum_eq_zero fun term listed => ?_
        obtain ⟨sample, member, rfl⟩ := List.mem_map.mp listed
        rw [same sample member first List.mem_cons_self]
        ring
      have expanded := squaredLine_eq (first :: rest) (-first.1) 1
      rw [still] at expanded
      have square := sq_nonneg ((of (first :: rest)).x - (of (first :: rest)).n * first.1)
      have below : (of (first :: rest)).spread =
          -((of (first :: rest)).x - (of (first :: rest)).n * first.1) ^ 2 := by
        rw [spread]
        linear_combination -(of (first :: rest)).n * expanded
      linarith
  · rintro ⟨a, listed, b, listedToo, differ⟩
    have some := List.ne_nil_of_mem listed
    rw [spread_eq some]
    refine mul_pos (n_pos some) (lt_of_le_of_ne (squaredLine_nonneg _ _ _) fun none => ?_)
    have atA := squaredLine_eq_zero none.symm a listed
    have atB := squaredLine_eq_zero none.symm b listedToo
    exact differ (by linarith)

/-- The first normal equation: the fitted line passes through the mean. -/
theorem FitSums.normal_first (some : samples ≠ []) :
    (of samples).n * (of samples).intercept + (of samples).x * (of samples).slope =
      (of samples).y := by
  have count := (n_pos some).ne'
  rw [intercept]
  field_simp
  ring

theorem FitSums.normal_second (spreads : 0 < (of samples).spread) :
    (of samples).x * (of samples).intercept + (of samples).xx * (of samples).slope =
      (of samples).xy := by
  have some := ne_nil_of_spread_pos spreads
  have steep : (of samples).slope * (of samples).spread =
      (of samples).n * (of samples).xy - (of samples).x * (of samples).y := by
    rw [slope, div_mul_cancel₀ _ spreads.ne']
  rw [spread] at steep
  refine mul_left_cancel₀ (n_pos some).ne' ?_
  linear_combination (of samples).x * normal_first some + steep

/-- The error of any line exceeds the one of the fitted line by the squared distance of the two
lines at the samples. -/
theorem squaredError_fit (spreads : 0 < (FitSums.of samples).spread) (a b : K) :
    squaredError samples a b =
      squaredError samples (FitSums.of samples).intercept (FitSums.of samples).slope +
        squaredLine samples (a - (FitSums.of samples).intercept)
          (b - (FitSums.of samples).slope) := by
  have first := FitSums.normal_first (FitSums.ne_nil_of_spread_pos spreads)
  have second := FitSums.normal_second spreads
  rw [squaredError_eq samples a b, squaredError_eq samples (FitSums.of samples).intercept]
  simp only [squaredLine_eq]
  linear_combination 2 * (a - (FitSums.of samples).intercept) * first +
    2 * (b - (FitSums.of samples).slope) * second

/-- A line through samples above zero has a part above zero. -/
theorem FitSums.fit_pos (some : samples ≠ [])
    (positive : ∀ sample ∈ samples, 0 ≤ sample.1 ∧ 0 < sample.2) :
    0 < (of samples).intercept ∨ 0 < (of samples).slope := by
  by_contra low
  obtain ⟨flat, falling⟩ := not_or.mp low
  have places : 0 ≤ (of samples).x := by
    rw [x_of]
    refine List.sum_nonneg fun place listed => ?_
    obtain ⟨sample, member, rfl⟩ := List.mem_map.mp listed
    exact (positive sample member).1
  have values : 0 < (of samples).y := by
    rw [y_of]
    refine List.sum_pos _ ?_ (by simpa using some)
    intro value listed
    obtain ⟨sample, member, rfl⟩ := List.mem_map.mp listed
    exact (positive sample member).2
  have first := normal_first some
  have base := mul_nonpos_of_nonneg_of_nonpos (n_pos some).le (not_lt.mp flat)
  have rise := mul_nonpos_of_nonneg_of_nonpos places (not_lt.mp falling)
  linarith

/-- The fitted line is the only one with the least squared error. -/
theorem squaredError_le_iff (spreads : 0 < (FitSums.of samples).spread) {a b : K} :
    (∀ p q, squaredError samples a b ≤ squaredError samples p q) ↔
      a = (FitSums.of samples).intercept ∧ b = (FitSums.of samples).slope := by
  constructor
  · intro least
    have fit := squaredError_fit spreads a b
    have below := least (FitSums.of samples).intercept (FitSums.of samples).slope
    have above := squaredLine_nonneg samples (a - (FitSums.of samples).intercept)
      (b - (FitSums.of samples).slope)
    have zero := squaredLine_eq_zero (le_antisymm (by linarith) above)
    obtain ⟨first, listed, second, listedToo, differ⟩ := FitSums.spread_pos_iff.mp spreads
    have atFirst := zero first listed
    have atSecond := zero second listedToo
    have level : (b - (FitSums.of samples).slope) * (first.1 - second.1) = 0 := by
      linear_combination atFirst - atSecond
    have slopes : b - (FitSums.of samples).slope = 0 :=
      (mul_eq_zero.mp level).resolve_right (sub_ne_zero.mpr differ)
    rw [slopes, zero_mul, add_zero] at atFirst
    exact ⟨sub_eq_zero.mp atFirst, sub_eq_zero.mp slopes⟩
  · rintro ⟨rfl, rfl⟩ p q
    rw [squaredError_fit spreads p q]
    exact le_add_of_nonneg_right (squaredLine_nonneg _ _ _)

end Ordered

end FlOp.Library
