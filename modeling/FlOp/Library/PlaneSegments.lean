import FlOp.Library.PlaneRings

/-! # Segments in the plane

Which way three points turn is a determinant. A point is on a segment if it does not turn off its
line and lies within its bounds, and two segments meet if the ends of each are on both sides of the
other or one has an end on the other. All of this is decided by signs, so whether segments meet does
not depend on the field their points are taken from.
-/

namespace FlOp.Library

variable {K : Type*} [Field K] [LinearOrder K] [IsStrictOrderedRing K] {p a b : K × K}

/-- Positive for a turn to the right at the second point, and zero on a line. -/
def turn (a b c : K × K) : K := (b.2 - a.2) * (c.1 - b.1) - (b.1 - a.1) * (c.2 - b.2)

theorem exists_share {x y z : K} (differ : x ≠ y) (left : min x y ≤ z) (right : z ≤ max x y) :
    ∃ t, 0 ≤ t ∧ t ≤ 1 ∧ z = x + t * (y - x) := by
  have width : y - x ≠ 0 := sub_ne_zero.mpr differ.symm
  refine ⟨(z - x) / (y - x), ?_, ?_, by field_simp; ring⟩
  · rcases lt_or_gt_of_ne differ with less | greater
    · rw [min_eq_left less.le] at left
      exact div_nonneg (by linarith) (by linarith)
    · rw [max_eq_left greater.le] at right
      exact div_nonneg_of_nonpos (by linarith) (by linarith)
  · rcases lt_or_gt_of_ne differ with less | greater
    · rw [max_eq_right less.le] at right
      exact (div_le_one (by linarith)).mpr (by linarith)
    · rw [min_eq_right greater.le] at left
      exact (div_le_one_of_neg (by linarith)).mpr (by linarith)

omit [LinearOrder K] [IsStrictOrderedRing K] in
/-- The turn towards points along a segment goes evenly from one end to the other. -/
theorem turn_between {c d z : K × K} {t : K} (first : z.1 = c.1 + t * (d.1 - c.1))
    (second : z.2 = c.2 + t * (d.2 - c.2)) :
    turn a b z = (1 - t) * turn a b c + t * turn a b d := by
  rw [turn, turn, turn, first, second]
  ring

theorem turn_of_mem (member : p ∈ segment K a b) : turn a b p = 0 := by
  obtain ⟨t, -, -, first, second⟩ := mem_segment_iff.mp member
  rw [turn, first, second]
  ring

/-- Segments whose ends are on both sides of each other meet. -/
theorem meet_of_straddle {p1 q1 p2 q2 : K × K}
    (first : ¬(0 < turn p1 q1 p2 ↔ 0 < turn p1 q1 q2))
    (second : ¬(0 < turn p2 q2 p1 ↔ 0 < turn p2 q2 q1)) :
    ∃ z, z ∈ segment K p1 q1 ∧ z ∈ segment K p2 q2 := by
  have share : ∀ {x y : K}, ¬(0 < x ↔ 0 < y) → x - y ≠ 0 ∧ 0 ≤ x / (x - y) ∧ x / (x - y) ≤ 1 := by
    intro x y apart
    by_cases positive : 0 < x
    · have other : y ≤ 0 := by
        by_contra more
        exact apart (iff_of_true positive (lt_of_not_ge more))
      have gap : 0 < x - y := by linarith
      exact ⟨gap.ne', div_nonneg positive.le gap.le, (div_le_one gap).mpr (by linarith)⟩
    · have other : 0 < y := by
        by_contra less
        exact apart (iff_of_false positive less)
      have gap : x - y < 0 := by linarith
      exact ⟨gap.ne, div_nonneg_of_nonpos (by linarith) gap.le,
        (div_le_one_of_neg gap).mpr (by linarith)⟩
  obtain ⟨gapS, nonnegS, le_oneS⟩ := share first
  obtain ⟨gapT, nonnegT, le_oneT⟩ := share second
  generalize shareS : turn p1 q1 p2 / (turn p1 q1 p2 - turn p1 q1 q2) = s
    at nonnegS le_oneS
  generalize shareT : turn p2 q2 p1 / (turn p2 q2 p1 - turn p2 q2 q1) = t
    at nonnegT le_oneT
  have ratioS : s * (turn p1 q1 p2 - turn p1 q1 q2) = turn p1 q1 p2 := by
    rw [← shareS]
    exact div_mul_cancel₀ _ gapS
  have ratioT : t * (turn p2 q2 p1 - turn p2 q2 q1) = turn p2 q2 p1 := by
    rw [← shareT]
    exact div_mul_cancel₀ _ gapT
  clear shareS shareT
  simp only [turn] at gapS ratioS ratioT
  refine ⟨(p1.1 + t * (q1.1 - p1.1), p1.2 + t * (q1.2 - p1.2)),
    mem_segment_iff.mpr ⟨t, nonnegT, le_oneT, rfl, rfl⟩,
    mem_segment_iff.mpr ⟨s, nonnegS, le_oneS, ?_, ?_⟩⟩
  · apply mul_right_cancel₀ gapS
    dsimp only
    linear_combination (p2.1 - q2.1) * ratioS + (p1.1 - q1.1) * ratioT
  · apply mul_right_cancel₀ gapS
    dsimp only
    linear_combination (p2.2 - q2.2) * ratioS + (p1.2 - q1.2) * ratioT

/-- A point on the line through two others is a share of the way between them. -/
theorem exists_share_of_flat {c : K × K} (differ : a ≠ b) (flat : turn a b c = 0) :
    ∃ t, c.1 = a.1 + t * (b.1 - a.1) ∧ c.2 = a.2 + t * (b.2 - a.2) := by
  rw [turn] at flat
  by_cases wide : a.1 = b.1
  · have tall : b.2 - a.2 ≠ 0 := fun level =>
      differ (Prod.ext wide (sub_eq_zero.mp level).symm)
    refine ⟨(c.2 - a.2) / (b.2 - a.2), ?_, by field_simp; ring⟩
    rw [← wide, sub_self, zero_mul, sub_zero] at flat
    rw [← wide]
    linarith [(mul_eq_zero.mp flat).resolve_left tall]
  · have width : b.1 - a.1 ≠ 0 := sub_ne_zero.mpr (Ne.symm wide)
    refine ⟨(c.1 - a.1) / (b.1 - a.1), by field_simp; ring, ?_⟩
    field_simp
    linear_combination -flat

/-- A segment is its line within its bounds. -/
theorem mem_segment_iff_turn : p ∈ segment K a b ↔ turn a b p = 0 ∧
    (min a.1 b.1 ≤ p.1 ∧ p.1 ≤ max a.1 b.1) ∧ min a.2 b.2 ≤ p.2 ∧ p.2 ≤ max a.2 b.2 := by
  constructor
  · intro member
    obtain ⟨left, right, low, high⟩ := le_max_of_mem_segment member
    exact ⟨turn_of_mem member, ⟨left, right⟩, low, high⟩
  · rintro ⟨flat, ⟨left, right⟩, low, high⟩
    apply mem_segment_iff.mpr
    by_cases same : a = b
    · subst same
      rw [min_self] at left low
      rw [max_self] at right high
      refine ⟨0, le_rfl, zero_le_one, ?_, ?_⟩ <;> linarith
    · obtain ⟨t, first, second⟩ := exists_share_of_flat same flat
      by_cases wide : a.1 = b.1
      · have tall : a.2 ≠ b.2 := fun level => same (Prod.ext wide level)
        obtain ⟨s, nonneg, le_one, height⟩ := exists_share tall low high
        refine ⟨s, nonneg, le_one, ?_, height⟩
        rw [first, wide, sub_self, mul_zero, mul_zero]
      · obtain ⟨s, nonneg, le_one, width⟩ := exists_share wide left right
        have shares : t = s := by
          apply mul_right_cancel₀ (sub_ne_zero.mpr (Ne.symm wide))
          linarith
        exact ⟨s, nonneg, le_one, width, shares ▸ second⟩

/-- Where the ends of a line are on different sides of zero and one, it passes zero inside. -/
private theorem zero_inside {α β : K} (apart : (α < 0 ∧ 1 < β) ∨ (1 < α ∧ β < 0)) :
    α - β ≠ 0 ∧ 0 ≤ α / (α - β) ∧ α / (α - β) ≤ 1 := by
  rcases apart with ⟨low, high⟩ | ⟨high, low⟩
  · exact ⟨by linarith, div_nonneg_of_nonpos low.le (by linarith),
      (div_le_one_of_neg (by linarith)).mpr (by linarith)⟩
  · exact ⟨by linarith, div_nonneg (by linarith) (by linarith),
      (div_le_one (by linarith)).mpr (by linarith)⟩

/-- Of two segments on one line that meet, one has an end on the other. -/
theorem end_on_of_flat {p1 q1 p2 q2 z : K × K} (flatP : turn p1 q1 p2 = 0)
    (flatQ : turn p1 q1 q2 = 0) (first : z ∈ segment K p1 q1)
    (second : z ∈ segment K p2 q2) :
    p2 ∈ segment K p1 q1 ∨ q2 ∈ segment K p1 q1 ∨ p1 ∈ segment K p2 q2 := by
  by_cases same : p1 = q1
  · subst same
    rw [segment_same, Set.mem_singleton_iff] at first
    exact .inr (.inr (first ▸ second))
  obtain ⟨α, p2x, p2y⟩ := exists_share_of_flat same flatP
  obtain ⟨β, q2x, q2y⟩ := exists_share_of_flat same flatQ
  obtain ⟨t, t0, t1, zx, zy⟩ := mem_segment_iff.mp first
  obtain ⟨s, s0, s1, zx', zy'⟩ := mem_segment_iff.mp second
  have share : t = α + s * (β - α) := by
    by_cases wide : q1.1 - p1.1 = 0
    · have tall : q1.2 - p1.2 ≠ 0 := fun level =>
        same (Prod.ext (sub_eq_zero.mp wide).symm (sub_eq_zero.mp level).symm)
      apply mul_right_cancel₀ tall
      rw [zy, p2y, q2y] at zy'
      linear_combination zy'
    · apply mul_right_cancel₀ wide
      rw [zx, p2x, q2x] at zx'
      linear_combination zx'
  by_cases inP : 0 ≤ α ∧ α ≤ 1
  · exact .inl (mem_segment_iff.mpr ⟨α, inP.1, inP.2, p2x, p2y⟩)
  by_cases inQ : 0 ≤ β ∧ β ≤ 1
  · exact .inr (.inl (mem_segment_iff.mpr ⟨β, inQ.1, inQ.2, q2x, q2y⟩))
  -- Both ends of the second segment are off the first one, so they are on different sides of it.
  have apart : (α < 0 ∧ 1 < β) ∨ (1 < α ∧ β < 0) := by
    rw [not_and_or, not_le, not_le] at inP inQ
    rcases inP with low | high <;> rcases inQ with low' | high'
    · have below := (share_bounds (a := α) (b := β) s0 s1).2.trans_lt (max_lt low low')
      linarith
    · exact .inl ⟨low, high'⟩
    · exact .inr ⟨high, low'⟩
    · have above := (lt_min high high').trans_le (share_bounds (a := α) (b := β) s0 s1).1
      linarith
  obtain ⟨gap, inside⟩ := zero_inside apart
  refine .inr (.inr (mem_segment_iff.mpr ⟨α / (α - β), inside.1, inside.2, ?_, ?_⟩))
  · rw [p2x, q2x]
    field_simp
    ring
  · rw [p2y, q2y]
    field_simp
    ring

/-- If segments meet, the ends of the second are on both sides of the first, or on it, or on its
line. -/
theorem straddle_of_meet {p1 q1 p2 q2 z : K × K} (first : z ∈ segment K p1 q1)
    (second : z ∈ segment K p2 q2) (offP : p2 ∉ segment K p1 q1) (offQ : q2 ∉ segment K p1 q1)
    (slanted : ¬(turn p1 q1 p2 = 0 ∧ turn p1 q1 q2 = 0)) :
    ¬(0 < turn p1 q1 p2 ↔ 0 < turn p1 q1 q2) := by
  obtain ⟨s, s0, s1, zx, zy⟩ := mem_segment_iff.mp second
  have balance := turn_between (a := p1) (b := q1) zx zy
  rw [turn_of_mem first] at balance
  have low : 0 < s := by
    refine lt_of_le_of_ne s0 fun zero => offP ?_
    have corner : z = p2 := Prod.ext (by rw [zx, ← zero]; ring) (by rw [zy, ← zero]; ring)
    exact corner ▸ first
  have high : s < 1 := by
    refine lt_of_le_of_ne s1 fun one => offQ ?_
    have corner : z = q2 := Prod.ext (by rw [zx, one]; ring) (by rw [zy, one]; ring)
    exact corner ▸ first
  intro same
  by_cases positive : 0 < turn p1 q1 p2
  · have other := same.mp positive
    nlinarith
  · have other : turn p1 q1 q2 ≤ 0 := le_of_not_gt fun more => positive (same.mpr more)
    push Not at positive
    refine slanted ⟨?_, ?_⟩
    · by_contra nonzero
      have negative := lt_of_le_of_ne positive nonzero
      nlinarith
    · by_contra nonzero
      have negative := lt_of_le_of_ne other nonzero
      nlinarith

/-- Two segments meet if each has its ends on both sides of the other, or one has an end on the
other. -/
theorem segments_meet_iff {p1 q1 p2 q2 : K × K} :
    (∃ z, z ∈ segment K p1 q1 ∧ z ∈ segment K p2 q2) ↔
      (¬(0 < turn p1 q1 p2 ↔ 0 < turn p1 q1 q2) ∧ ¬(0 < turn p2 q2 p1 ↔ 0 < turn p2 q2 q1)) ∨
        p2 ∈ segment K p1 q1 ∨ q2 ∈ segment K p1 q1 ∨ p1 ∈ segment K p2 q2 ∨
          q1 ∈ segment K p2 q2 := by
  constructor
  · rintro ⟨z, first, second⟩
    by_cases onP2 : p2 ∈ segment K p1 q1
    · exact .inr (.inl onP2)
    by_cases onQ2 : q2 ∈ segment K p1 q1
    · exact .inr (.inr (.inl onQ2))
    by_cases onP1 : p1 ∈ segment K p2 q2
    · exact .inr (.inr (.inr (.inl onP1)))
    by_cases onQ1 : q1 ∈ segment K p2 q2
    · exact .inr (.inr (.inr (.inr onQ1)))
    refine .inl ⟨straddle_of_meet first second onP2 onQ2 ?_,
      straddle_of_meet second first onP1 onQ1 ?_⟩
    · rintro ⟨flatP, flatQ⟩
      rcases end_on_of_flat flatP flatQ first second with on | on | on
      · exact onP2 on
      · exact onQ2 on
      · exact onP1 on
    · rintro ⟨flatP, flatQ⟩
      rcases end_on_of_flat flatP flatQ second first with on | on | on
      · exact onP1 on
      · exact onQ1 on
      · exact onP2 on
  · rintro (⟨first, second⟩ | on | on | on | on)
    · exact meet_of_straddle first second
    · exact ⟨p2, on, left_mem_segment K p2 q2⟩
    · exact ⟨q2, on, right_mem_segment K p2 q2⟩
    · exact ⟨p1, left_mem_segment K p1 q1, on⟩
    · exact ⟨q1, right_mem_segment K p1 q1, on⟩

section Cast

variable (K)

/-- A rational point in a larger field. -/
def castPoint (p : ℚ × ℚ) : K × K := (p.1, p.2)

variable {K} {p a b c d : ℚ × ℚ}

theorem turn_castPoint (a b c : ℚ × ℚ) :
    turn (castPoint K a) (castPoint K b) (castPoint K c) = (turn a b c : ℚ) := by
  simp only [turn, castPoint]
  push_cast
  rfl

theorem turn_castPoint_pos :
    0 < turn (castPoint K a) (castPoint K b) (castPoint K c) ↔ 0 < turn a b c := by
  rw [turn_castPoint, Rat.cast_pos]

theorem castPoint_mem_segment :
    castPoint K p ∈ segment K (castPoint K a) (castPoint K b) ↔ p ∈ segment ℚ a b := by
  rw [mem_segment_iff_turn, mem_segment_iff_turn, turn_castPoint, Rat.cast_eq_zero]
  simp only [castPoint]
  norm_cast

/-- Rational segments that meet anywhere meet in a rational point. -/
theorem segments_meet_castPoint :
    (∃ z, z ∈ segment K (castPoint K a) (castPoint K b) ∧
      z ∈ segment K (castPoint K c) (castPoint K d)) ↔
      ∃ z, z ∈ segment ℚ a b ∧ z ∈ segment ℚ c d := by
  rw [segments_meet_iff, segments_meet_iff]
  simp only [turn_castPoint_pos, castPoint_mem_segment]

end Cast

end FlOp.Library
