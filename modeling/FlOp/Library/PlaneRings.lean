import Mathlib.Algebra.CharP.Two
import Mathlib.Algebra.Field.ZMod
import Mathlib.Analysis.Convex.Basic
import Mathlib.Data.ZMod.Basic
import Mathlib.Tactic.FieldSimp
import Mathlib.Tactic.LinearCombination
import Mathlib.Tactic.Linarith
import Mathlib.Tactic.Ring

/-! # Closed rings of points in the plane

A ring is a list of points; its edges join neighbours and its last point to its first one. A point
is in a ring if it lies on an edge or if a horizontal ray from it crosses an odd number of edges,
where an edge counts at its lower end and not at its upper one. Along a segment that meets no edge
the parity of the crossings does not change. So two rings with a point in common either have edges
that meet, or one of them lies within the other.
-/

namespace FlOp.Library

section Edges

variable {α : Type*}

/-- Edges along a path that starts at a point. -/
def pathEdges : α → List α → List (α × α)
  | _, [] => []
  | start, next :: rest => (start, next) :: pathEdges next rest

/-- Edges of a ring, the one that closes it last. -/
def ringEdges : List α → List (α × α)
  | [] => []
  | first :: rest => pathEdges first (rest ++ [first])

theorem pathEdges_append (start middle : α) (before after : List α) :
    pathEdges start (before ++ middle :: after) =
      pathEdges start (before ++ [middle]) ++ pathEdges middle after := by
  induction before generalizing start with
  | nil => rfl
  | cons next rest ih =>
    simp only [List.cons_append, pathEdges]
    rw [ih]

/-- Starting a ring at its next point moves an edge to the end. -/
theorem perm_ringEdges_rotate (ring : List α) (n : ℕ) :
    (ringEdges (ring.rotate n)).Perm (ringEdges ring) := by
  induction n generalizing ring with
  | zero => rw [List.rotate_zero]
  | succ n ih =>
    cases ring with
    | nil => rw [List.rotate_nil]
    | cons first rest =>
      rw [List.rotate_cons_succ]
      refine (ih _).trans ?_
      cases rest with
      | nil => exact .refl _
      | cons second rest =>
        change (pathEdges second ((rest ++ [first]) ++ [second])).Perm
          ((first, second) :: pathEdges second (rest ++ [first]))
        rw [List.append_assoc, List.singleton_append, pathEdges_append]
        exact List.perm_append_singleton _ _

/-- A path walked back has its edges the other way round. -/
theorem perm_pathEdges_reverse (start stop : α) (middle : List α) :
    (pathEdges stop (middle.reverse ++ [start])).Perm
      ((pathEdges start (middle ++ [stop])).map Prod.swap) := by
  induction middle generalizing start with
  | nil => exact .refl _
  | cons next rest ih =>
    rw [List.reverse_cons, List.append_assoc, List.singleton_append, pathEdges_append]
    exact (List.perm_append_singleton _ _).trans ((ih next).cons _)

theorem perm_ringEdges_reverse (ring : List α) :
    (ringEdges ring.reverse).Perm ((ringEdges ring).map Prod.swap) := by
  cases ring with
  | nil => exact .refl _
  | cons first rest =>
    have rotated : (first :: rest.reverse).rotate 1 = (first :: rest).reverse := by
      rw [List.rotate_cons_succ, List.rotate_zero, List.reverse_cons]
    rw [← rotated]
    exact (perm_ringEdges_rotate _ 1).trans (perm_pathEdges_reverse first first rest)

/-- Both ends of an edge of a path are on the path. -/
theorem mem_of_mem_pathEdges {start : α} {path : List α} {edge : α × α}
    (listed : edge ∈ pathEdges start path) : edge.1 ∈ start :: path ∧ edge.2 ∈ path := by
  induction path generalizing start with
  | nil => cases listed
  | cons next rest ih =>
    rcases List.mem_cons.mp listed with rfl | later
    · exact ⟨List.mem_cons_self, List.mem_cons_self⟩
    · obtain ⟨first, second⟩ := ih later
      exact ⟨List.mem_cons_of_mem _ first, List.mem_cons_of_mem _ second⟩

theorem mem_of_mem_ringEdges {ring : List α} {edge : α × α} (listed : edge ∈ ringEdges ring) :
    edge.1 ∈ ring ∧ edge.2 ∈ ring := by
  cases ring with
  | nil => cases listed
  | cons first rest =>
    obtain ⟨start, stop⟩ := mem_of_mem_pathEdges listed
    simp only [List.mem_cons, List.mem_append, List.not_mem_nil, or_false] at start stop ⊢
    exact ⟨by tauto, by tauto⟩

/-- A property that goes along edges goes round a ring. -/
theorem forall_of_ringEdges {P : α → Prop} {ring : List α} {point : α} (listed : point ∈ ring)
    (holds : P point) (along : ∀ edge ∈ ringEdges ring, (P edge.1 ↔ P edge.2)) :
    ∀ other ∈ ring, P other := by
  have onPath : ∀ (path : List α) (start : α), (∀ edge ∈ pathEdges start path,
      (P edge.1 ↔ P edge.2)) → ∀ other ∈ path, P other ↔ P start := by
    intro path
    induction path with
    | nil => exact fun _ _ _ member => absurd member List.not_mem_nil
    | cons next rest ih =>
      intro start along other member
      have first : P start ↔ P next := along (start, next) List.mem_cons_self
      rcases List.mem_cons.mp member with rfl | later
      · exact first.symm
      · have rest := ih next (fun edge listed => along edge (List.mem_cons_of_mem _ listed))
        exact (rest other later).trans first.symm
  cases ring with
  | nil => cases listed
  | cons first rest =>
    have same : ∀ other ∈ first :: rest, P other ↔ P first := by
      intro other member
      refine onPath (rest ++ [first]) first along other ?_
      simp only [List.mem_append, List.mem_cons, List.not_mem_nil, or_false] at member ⊢
      exact member.symm
    exact fun other member => (same other member).mpr ((same point listed).mp holds)

/-- What the ends of the edges contribute cancels out around a ring. -/
theorem sum_ringEdges (weight : α → ZMod 2) (ring : List α) :
    ((ringEdges ring).map fun edge => weight edge.1 + weight edge.2).sum = 0 := by
  have onPath : ∀ (path : List α) (start : α), ((pathEdges start path).map fun edge =>
      weight edge.1 + weight edge.2).sum = weight start + weight (path.getLastD start) := by
    intro path
    induction path with
    | nil => exact fun start => (CharTwo.add_self_eq_zero _).symm
    | cons next rest ih =>
      intro start
      rw [pathEdges, List.map_cons, List.sum_cons, ih next, List.getLastD_cons]
      have twice := CharTwo.add_self_eq_zero (weight next)
      linear_combination twice
  cases ring with
  | nil => rfl
  | cons first rest =>
    rw [ringEdges, onPath, List.getLastD_concat]
    exact CharTwo.add_self_eq_zero _

end Edges

section Lines

variable {K : Type*} [Field K] [LinearOrder K] [IsStrictOrderedRing K] {p q u v z : K × K}

/-- Where the line through two points is at a height. -/
def lineX (u v : K × K) (y : K) : K := (v.1 - u.1) * (y - u.2) / (v.2 - u.2) + u.1

omit [LinearOrder K] [IsStrictOrderedRing K] in
theorem lineX_left (u v : K × K) : lineX u v u.2 = u.1 := by
  rw [lineX, sub_self, mul_zero, zero_div, zero_add]

omit [LinearOrder K] [IsStrictOrderedRing K] in
theorem lineX_comm (slanted : u.2 ≠ v.2) (y : K) : lineX u v y = lineX v u y := by
  have down := sub_ne_zero.mpr slanted
  have up := sub_ne_zero.mpr slanted.symm
  rw [lineX, lineX]
  field_simp
  ring

omit [LinearOrder K] [IsStrictOrderedRing K] in
theorem lineX_right (slanted : u.2 ≠ v.2) : lineX u v v.2 = v.1 := by
  rw [lineX_comm slanted, lineX_left]

omit [LinearOrder K] [IsStrictOrderedRing K] in
theorem lineX_between (u v : K × K) (y₁ y₂ t : K) :
    lineX u v (y₁ + t * (y₂ - y₁)) = lineX u v y₁ + t * (lineX u v y₂ - lineX u v y₁) := by
  simp only [lineX, div_eq_mul_inv]
  ring

theorem mem_segment_iff : z ∈ segment K u v ↔
    ∃ t, 0 ≤ t ∧ t ≤ 1 ∧ z.1 = u.1 + t * (v.1 - u.1) ∧ z.2 = u.2 + t * (v.2 - u.2) := by
  rw [segment_eq_image', Set.mem_image]
  constructor
  · rintro ⟨t, ⟨nonneg, le_one⟩, rfl⟩
    exact ⟨t, nonneg, le_one, rfl, rfl⟩
  · rintro ⟨t, nonneg, le_one, first, second⟩
    exact ⟨t, ⟨nonneg, le_one⟩, Prod.ext first.symm second.symm⟩

/-- Between the heights of its ends an edge reaches its line. -/
theorem lineX_mem_segment {y : K} (low : u.2 ≤ y) (high : y ≤ v.2) (rising : u.2 < v.2) :
    (lineX u v y, y) ∈ segment K u v := by
  have height := sub_pos.mpr rising
  refine mem_segment_iff.mpr ⟨(y - u.2) / (v.2 - u.2), div_nonneg (sub_nonneg.mpr low) height.le,
    (div_le_one height).mpr (sub_le_sub_right high _), ?_, ?_⟩
  · rw [lineX]
    ring
  · change y = _
    field_simp
    ring

theorem eq_lineX_of_mem_segment (slanted : u.2 ≠ v.2) (member : z ∈ segment K u v) :
    z.1 = lineX u v z.2 := by
  obtain ⟨t, -, -, first, second⟩ := mem_segment_iff.mp member
  have height := sub_ne_zero.mpr slanted.symm
  rw [lineX, first, second]
  field_simp
  ring

/-- A share of the way from one number to another is between them. -/
theorem share_bounds {a b t : K} (nonneg : 0 ≤ t) (le_one : t ≤ 1) :
    min a b ≤ a + t * (b - a) ∧ a + t * (b - a) ≤ max a b := by
  constructor
  · rcases le_total a b with le | le
    · rw [min_eq_left le]
      nlinarith
    · rw [min_eq_right le]
      nlinarith
  · rcases le_total a b with le | le
    · rw [max_eq_right le]
      nlinarith
    · rw [max_eq_left le]
      nlinarith

/-- Points of a segment are no higher than its higher end and no lower than its lower one, in
either coordinate. -/
theorem le_max_of_mem_segment (member : z ∈ segment K u v) :
    min u.1 v.1 ≤ z.1 ∧ z.1 ≤ max u.1 v.1 ∧ min u.2 v.2 ≤ z.2 ∧ z.2 ≤ max u.2 v.2 := by
  obtain ⟨t, nonneg, le_one, first, second⟩ := mem_segment_iff.mp member
  rw [first, second]
  exact ⟨(share_bounds nonneg le_one).1, (share_bounds nonneg le_one).2,
    share_bounds nonneg le_one⟩

/-- On a level segment lies what is between its ends. -/
theorem mem_segment_of_level {x y : K} (left : min u.1 v.1 ≤ x) (right : x ≤ max u.1 v.1)
    (levelU : u.2 = y) (levelV : v.2 = y) : (x, y) ∈ segment K u v := by
  have ordered : ∀ {u v : K × K}, u.1 ≤ x → x ≤ v.1 → u.2 = y → v.2 = y →
      (x, y) ∈ segment K u v := by
    intro u v left right levelU levelV
    rcases eq_or_lt_of_le (left.trans right) with same | wide
    · have corner : (x, y) = u := Prod.ext (le_antisymm (right.trans same.ge) left) levelU.symm
      exact corner ▸ left_mem_segment K u v
    · have width := sub_pos.mpr wide
      refine mem_segment_iff.mpr ⟨(x - u.1) / (v.1 - u.1),
        div_nonneg (sub_nonneg.mpr left) width.le,
        (div_le_one width).mpr (sub_le_sub_right right _), ?_, ?_⟩
      · change x = _
        field_simp
        ring
      · rw [levelU, levelV]
        ring
  rcases le_total u.1 v.1 with le | le
  · rw [min_eq_left le] at left
    rw [max_eq_right le] at right
    exact ordered left right levelU levelV
  · rw [min_eq_right le] at left
    rw [max_eq_left le] at right
    rw [segment_symm]
    exact ordered left right levelV levelU

/-- Edges that do not meet keep their sides over the heights they share. -/
theorem same_side {y₁ y₂ : K} (risingP : p.2 < q.2) (risingU : u.2 < v.2)
    (clear : ∀ z ∈ segment K p q, z ∉ segment K u v)
    (low₁ : max p.2 u.2 ≤ y₁) (high₁ : y₁ ≤ min q.2 v.2)
    (low₂ : max p.2 u.2 ≤ y₂) (high₂ : y₂ ≤ min q.2 v.2)
    (side : lineX p q y₁ ≤ lineX u v y₁) : lineX p q y₂ ≤ lineX u v y₂ := by
  by_contra crossed
  push Not at crossed
  -- The gap between the lines changes its sign, so it is zero at a height they share.
  have gap : 0 < (lineX u v y₁ - lineX p q y₁) + (lineX p q y₂ - lineX u v y₂) := by linarith
  let t := (lineX u v y₁ - lineX p q y₁) /
    ((lineX u v y₁ - lineX p q y₁) + (lineX p q y₂ - lineX u v y₂))
  have nonneg : 0 ≤ t := div_nonneg (sub_nonneg.mpr side) gap.le
  have le_one : t ≤ 1 := (div_le_one gap).mpr (by linarith)
  have balanced : t * ((lineX u v y₁ - lineX p q y₁) + (lineX p q y₂ - lineX u v y₂)) =
      lineX u v y₁ - lineX p q y₁ := div_mul_cancel₀ _ gap.ne'
  have low : max p.2 u.2 ≤ y₁ + t * (y₂ - y₁) := by nlinarith
  have high : y₁ + t * (y₂ - y₁) ≤ min q.2 v.2 := by nlinarith
  have meet : lineX p q (y₁ + t * (y₂ - y₁)) = lineX u v (y₁ + t * (y₂ - y₁)) := by
    rw [lineX_between, lineX_between]
    linarith
  rw [max_le_iff] at low
  rw [le_min_iff] at high
  have onFirst := lineX_mem_segment low.1 high.1 risingP
  have onSecond := lineX_mem_segment low.2 high.2 risingU
  rw [← meet] at onSecond
  exact clear _ onFirst onSecond

theorem same_side_iff (y₁ y₂ : K) (risingP : p.2 < q.2) (risingU : u.2 < v.2)
    (clear : ∀ z ∈ segment K p q, z ∉ segment K u v)
    (low₁ : max p.2 u.2 ≤ y₁) (high₁ : y₁ ≤ min q.2 v.2)
    (low₂ : max p.2 u.2 ≤ y₂) (high₂ : y₂ ≤ min q.2 v.2) :
    lineX p q y₁ ≤ lineX u v y₁ ↔ lineX p q y₂ ≤ lineX u v y₂ :=
  ⟨same_side risingP risingU clear low₁ high₁ low₂ high₂,
    same_side risingP risingU clear low₂ high₂ low₁ high₁⟩

/-- A horizontal ray from the point crosses the edge, which counts at its lower end only. -/
def Crosses (p u v : K × K) : Prop := ¬(p.2 < u.2 ↔ p.2 < v.2) ∧ p.1 ≤ lineX u v p.2

instance (p u v : K × K) : Decidable (Crosses p u v) :=
  inferInstanceAs (Decidable (¬(p.2 < u.2 ↔ p.2 < v.2) ∧ p.1 ≤ lineX u v p.2))

/-- Crossings of one edge, counted modulo two. -/
def crossing (p u v : K × K) : ZMod 2 := if Crosses p u v then 1 else 0

/-- A point is to the right of a segment, at a height above its lower end. -/
def beside (p q w : K × K) : ZMod 2 :=
  if p.2 < w.2 ∧ w.2 ≤ q.2 ∧ lineX p q w.2 ≤ w.1 then 1 else 0

omit [IsStrictOrderedRing K] in
theorem crosses_comm : Crosses p u v ↔ Crosses p v u := by
  by_cases level : u.2 = v.2
  · rw [Crosses, Crosses, level]
    tauto
  · rw [Crosses, Crosses, lineX_comm level]
    tauto

omit [IsStrictOrderedRing K] in
theorem crossing_comm : crossing p u v = crossing p v u := by
  rw [crossing, crossing]
  exact if_congr crosses_comm rfl rfl

/-- An edge within the strip of a segment has both ends on one side of it. -/
theorem lineX_le_iff_of_within (rising : u.2 ≤ v.2) (clear : ∀ z ∈ segment K p q, z ∉ segment K u v)
    (low : p.2 ≤ u.2) (positive : p.2 < v.2) (inside : v.2 ≤ q.2) :
    lineX p q u.2 ≤ u.1 ↔ lineX p q v.2 ≤ v.1 := by
  rcases eq_or_lt_of_le rising with flat | rising
  · have onFirst := lineX_mem_segment positive.le inside (positive.trans_le inside)
    rw [flat]
    by_contra apart
    refine clear _ onFirst (mem_segment_of_level ?_ ?_ flat rfl)
    · rw [min_le_iff]
      by_contra outside
      push Not at outside
      exact apart (iff_of_true outside.1.le outside.2.le)
    · rw [le_max_iff]
      by_contra outside
      push Not at outside
      exact apart (iff_of_false outside.1.not_ge outside.2.not_ge)
  · have same := same_side_iff u.2 v.2 (positive.trans_le inside) rising clear
      (max_le low le_rfl) (le_min (rising.le.trans inside) rising.le)
      (max_le positive.le rising.le) (le_min inside le_rfl)
    rwa [lineX_left, lineX_right rising.ne] at same

/-- A segment within the strip of an edge has both ends on one side of it. -/
theorem le_lineX_iff_of_through (level : p.2 ≤ q.2)
    (clear : ∀ z ∈ segment K p q, z ∉ segment K u v) (low : u.2 ≤ p.2) (below : p.2 < v.2)
    (high : q.2 ≤ v.2) : p.1 ≤ lineX u v p.2 ↔ q.1 ≤ lineX u v q.2 := by
  rcases eq_or_lt_of_le level with flat | rising
  · have onSecond := lineX_mem_segment low below.le (low.trans_lt below)
    rw [← flat]
    by_contra apart
    refine clear _ (mem_segment_of_level ?_ ?_ rfl flat.symm) onSecond
    · rw [min_le_iff]
      by_contra outside
      push Not at outside
      exact apart (iff_of_false outside.1.not_ge outside.2.not_ge)
    · rw [le_max_iff]
      by_contra outside
      push Not at outside
      exact apart (iff_of_true outside.1.le outside.2.le)
  · have same := same_side_iff p.2 q.2 rising (low.trans_lt below) clear
      (max_le le_rfl low) (le_min level below.le) (max_le level (low.trans level))
      (le_min le_rfl high)
    rwa [lineX_left, lineX_right rising.ne] at same

/-- Between two points whose segment does not meet an edge, the crossings of the edge change by
the ends that lie beside the segment. -/
theorem crossing_add_crossing (level : p.2 ≤ q.2)
    (clear : ∀ z ∈ segment K p q, z ∉ segment K u v) :
    crossing p u v + crossing q u v = beside p q u + beside p q v := by
  wlog rising : u.2 ≤ v.2 generalizing u v
  · have turned := this (fun z member => segment_symm K u v ▸ clear z member) (le_of_not_ge rising)
    rw [crossing_comm (v := v), crossing_comm (v := v), turned, add_comm]
  by_cases below : v.2 ≤ p.2
  · -- The edge is below both points.
    have p1 : ¬p.2 < u.2 := by linarith
    have p2 : ¬p.2 < v.2 := by linarith
    have q1 : ¬q.2 < u.2 := by linarith
    have q2 : ¬q.2 < v.2 := by linarith
    simp [crossing, Crosses, beside, p1, p2, q1, q2]
  by_cases above : q.2 < u.2
  · -- The edge is above both points.
    have p1 : p.2 < u.2 := by linarith
    have p2 : p.2 < v.2 := by linarith
    have q2 : q.2 < v.2 := by linarith
    have w1 : ¬u.2 ≤ q.2 := by linarith
    have w2 : ¬v.2 ≤ q.2 := by linarith
    simp [crossing, Crosses, beside, p1, p2, above, q2, w1, w2]
  push Not at below above
  by_cases start : p.2 < u.2 <;> by_cases stop : q.2 < v.2
  · -- The edge leaves the strip at its top.
    have p2 : p.2 < v.2 := by linarith
    have w2 : ¬v.2 ≤ q.2 := by linarith
    have same := same_side_iff q.2 u.2 (start.trans_le above)
      (above.trans_lt stop) clear (max_le level above) (le_min le_rfl stop.le)
      (max_le start.le le_rfl) (le_min above rising)
    rw [lineX_right (start.trans_le above).ne, lineX_left] at same
    simp [crossing, Crosses, beside, start, p2, above.not_gt, stop, w2, above, same]
  · -- The edge stays within the strip.
    have p2 : p.2 < v.2 := by linarith
    have inside : v.2 ≤ q.2 := le_of_not_gt stop
    have same := lineX_le_iff_of_within rising clear start.le p2 inside
    simp only [crossing, Crosses, beside, start, p2, above.not_gt, stop, above, inside, same,
      not_true_eq_false, false_and, true_and, if_false, add_zero]
    exact (CharTwo.add_self_eq_zero _).symm
  · -- The edge passes through the whole strip.
    have same := le_lineX_iff_of_through level clear (le_of_not_gt start) below stop.le
    have w2 : ¬v.2 ≤ q.2 := by linarith
    simp only [crossing, Crosses, beside, start, below, above.not_gt, stop, w2, same]
    simp only [iff_true, not_false_eq_true, true_and, false_and, and_false, if_false, add_zero]
    exact CharTwo.add_self_eq_zero _
  · -- The edge comes in from below.
    have inside : v.2 ≤ q.2 := le_of_not_gt stop
    have low := le_of_not_gt start
    have same := same_side_iff p.2 v.2 (below.trans_le inside)
      (low.trans_lt below) clear (max_le le_rfl low) (le_min level below.le)
      (max_le below.le rising) (le_min inside le_rfl)
    rw [lineX_left, lineX_right (low.trans_lt below).ne] at same
    simp [crossing, Crosses, beside, start, below, above.not_gt, stop, inside, same]

/-- The ray reaches an edge that it crosses. -/
theorem Crosses.mem_segment (crosses : Crosses p u v) :
    (lineX u v p.2, p.2) ∈ segment K u v := by
  wlog rising : u.2 ≤ v.2 generalizing u v
  · have slanted : u.2 ≠ v.2 := fun level => crosses.1 (by rw [level])
    rw [lineX_comm slanted, segment_symm]
    exact this (crosses_comm.mp crosses) (le_of_not_ge rising)
  have above : p.2 < v.2 := by
    by_contra below
    have lower : ¬p.2 < u.2 := by linarith
    exact crosses.1 (iff_of_false lower below)
  have below : u.2 ≤ p.2 := by
    by_contra higher
    exact crosses.1 (iff_of_true (lt_of_not_ge higher) above)
  exact lineX_mem_segment below above.le (below.trans_lt above)

end Lines

section Rings

variable {K : Type*} [Field K] [LinearOrder K] [IsStrictOrderedRing K] {p q z : K × K}
  {ring other : List (K × K)}

/-- Crossings of a ring, counted modulo two. -/
def ringParity (p : K × K) (ring : List (K × K)) : ZMod 2 :=
  ((ringEdges ring).map fun edge => crossing p edge.1 edge.2).sum

/-- A point lies on an edge of a ring. -/
def OnRing (p : K × K) (ring : List (K × K)) : Prop :=
  ∃ edge ∈ ringEdges ring, p ∈ segment K edge.1 edge.2

/-- A point lies on a ring or inside it. -/
def InRing (p : K × K) (ring : List (K × K)) : Prop := OnRing p ring ∨ ringParity p ring = 1

/-- The parity does not change along a segment that meets no edge. -/
theorem ringParity_eq (clear : ∀ z ∈ segment K p q, ¬OnRing z ring) :
    ringParity p ring = ringParity q ring := by
  wlog level : p.2 ≤ q.2 generalizing p q
  · have turned : ∀ z ∈ segment K q p, ¬OnRing z ring := fun z member =>
      clear z (segment_symm K q p ▸ member)
    exact (this turned (le_of_not_ge level)).symm
  have edges : ((ringEdges ring).map fun edge =>
      crossing p edge.1 edge.2 + crossing q edge.1 edge.2) =
      (ringEdges ring).map fun edge => beside p q edge.1 + beside p q edge.2 := by
    apply List.map_congr_left
    intro edge listed
    exact crossing_add_crossing level fun z onPath onEdge => clear z onPath ⟨edge, listed, onEdge⟩
  have cancelled := sum_ringEdges (beside p q) ring
  rw [← edges, List.sum_map_add] at cancelled
  exact CharTwo.add_eq_zero.mp cancelled

omit [IsStrictOrderedRing K] in
theorem ringParity_of_perm (perm : (ringEdges other).Perm (ringEdges ring)) :
    ringParity p other = ringParity p ring := (perm.map _).sum_eq

omit [IsStrictOrderedRing K] in
theorem ringParity_of_swap (perm : (ringEdges other).Perm ((ringEdges ring).map Prod.swap)) :
    ringParity p other = ringParity p ring := by
  rw [ringParity, (perm.map _).sum_eq, List.map_map, ringParity]
  congr 1
  apply List.map_congr_left
  intro edge _
  exact crossing_comm

omit [IsStrictOrderedRing K] in
/-- It does not matter at which point a ring starts. -/
theorem inRing_rotate (n : ℕ) : InRing p (ring.rotate n) ↔ InRing p ring := by
  have perm := perm_ringEdges_rotate ring n
  rw [InRing, InRing, ringParity_of_perm perm, OnRing, OnRing]
  simp only [perm.mem_iff]

omit [IsStrictOrderedRing K] in
/-- It does not matter in which direction a ring runs. -/
theorem inRing_reverse : InRing p ring.reverse ↔ InRing p ring := by
  have perm := perm_ringEdges_reverse ring
  rw [InRing, InRing, ringParity_of_swap perm, OnRing, OnRing]
  simp only [perm.mem_iff, List.mem_map]
  constructor
  · rintro (⟨_, ⟨edge, listed, rfl⟩, member⟩ | inside)
    · exact .inl ⟨edge, listed, segment_symm K edge.2 edge.1 ▸ member⟩
    · exact .inr inside
  · rintro (⟨edge, listed, member⟩ | inside)
    · exact .inl ⟨edge.swap, ⟨edge, listed, rfl⟩, segment_symm K edge.1 edge.2 ▸ member⟩
    · exact .inr inside

omit [IsStrictOrderedRing K] in
/-- An odd parity has a crossing. -/
theorem exists_crosses (inside : ringParity p ring = 1) :
    ∃ edge ∈ ringEdges ring, Crosses p edge.1 edge.2 := by
  by_contra none
  push Not at none
  have zero : ringParity p ring = 0 := by
    apply List.sum_eq_zero
    intro value listed
    obtain ⟨edge, member, rfl⟩ := List.mem_map.mp listed
    exact if_neg (none edge member)
  rw [zero] at inside
  exact absurd inside (by decide)

/-- A ring does not lie to the right of a point inside it. -/
theorem exists_left (inside : ringParity p ring = 1) : ∃ w ∈ ring, w.1 ≤ p.1 := by
  by_contra right
  push Not at right
  -- The ray would cross every edge between a point above it and one that is not.
  have edges : ((ringEdges ring).map fun edge => crossing p edge.1 edge.2) =
      (ringEdges ring).map fun edge =>
        (if p.2 < edge.1.2 then 1 else 0) + (if p.2 < edge.2.2 then 1 else 0) := by
    apply List.map_congr_left
    intro edge listed
    obtain ⟨start, stop⟩ := mem_of_mem_ringEdges listed
    have reached : ¬(p.2 < edge.1.2 ↔ p.2 < edge.2.2) → p.1 ≤ lineX edge.1 edge.2 p.2 := by
      intro straddles
      by_contra short
      have far : Crosses (lineX edge.1 edge.2 p.2, p.2) edge.1 edge.2 := ⟨straddles, le_rfl⟩
      have bound := (le_max_of_mem_segment far.mem_segment).1
      rcases min_le_iff.mp bound with near | near
      · exact short ((right _ start).le.trans near)
      · exact short ((right _ stop).le.trans near)
    by_cases first : p.2 < edge.1.2 <;> by_cases second : p.2 < edge.2.2
    · rw [crossing, if_neg fun crosses => crosses.1 (iff_of_true first second), if_pos first,
        if_pos second]
      decide
    · have straddles : ¬(p.2 < edge.1.2 ↔ p.2 < edge.2.2) := fun same => second (same.mp first)
      rw [crossing, if_pos ⟨straddles, reached straddles⟩, if_pos first, if_neg second, add_zero]
    · have straddles : ¬(p.2 < edge.1.2 ↔ p.2 < edge.2.2) := fun same => first (same.mpr second)
      rw [crossing, if_pos ⟨straddles, reached straddles⟩, if_neg first, if_pos second, zero_add]
    · rw [crossing, if_neg fun crosses => crosses.1 (iff_of_false first second), if_neg first,
        if_neg second, add_zero]
  have cancelled := sum_ringEdges (fun w : K × K => if p.2 < w.2 then 1 else 0) ring
  rw [← edges] at cancelled
  exact absurd (inside.symm.trans cancelled) (by decide)

/-- A point in a ring lies between points of the ring, in either coordinate. -/
theorem InRing.bounds (inside : InRing p ring) :
    (∃ w ∈ ring, w.1 ≤ p.1) ∧ (∃ w ∈ ring, p.1 ≤ w.1) ∧ (∃ w ∈ ring, w.2 ≤ p.2) ∧
      ∃ w ∈ ring, p.2 ≤ w.2 := by
  have around : ∀ {edge : (K × K) × (K × K)} {z : K × K}, edge ∈ ringEdges ring →
      z ∈ segment K edge.1 edge.2 → (∃ w ∈ ring, w.1 ≤ z.1) ∧ (∃ w ∈ ring, z.1 ≤ w.1) ∧
        (∃ w ∈ ring, w.2 ≤ z.2) ∧ ∃ w ∈ ring, z.2 ≤ w.2 := by
    intro edge z listed member
    obtain ⟨start, stop⟩ := mem_of_mem_ringEdges listed
    obtain ⟨left, right, low, high⟩ := le_max_of_mem_segment member
    refine ⟨?_, ?_, ?_, ?_⟩
    · exact (min_le_iff.mp left).elim (fun le => ⟨_, start, le⟩) fun le => ⟨_, stop, le⟩
    · exact (le_max_iff.mp right).elim (fun le => ⟨_, start, le⟩) fun le => ⟨_, stop, le⟩
    · exact (min_le_iff.mp low).elim (fun le => ⟨_, start, le⟩) fun le => ⟨_, stop, le⟩
    · exact (le_max_iff.mp high).elim (fun le => ⟨_, start, le⟩) fun le => ⟨_, stop, le⟩
  rcases inside with ⟨edge, listed, member⟩ | odd
  · exact around listed member
  · obtain ⟨edge, listed, crosses⟩ := exists_crosses odd
    obtain ⟨-, ⟨w, point, right⟩, vertical⟩ := around listed crosses.mem_segment
    exact ⟨exists_left odd, ⟨w, point, crosses.2.trans right⟩, vertical⟩

/-- A ray that runs along a level edge reaches one of its ends first. -/
theorem exists_end_on_ray {edge : (K × K) × (K × K)} {x : K} (off : p ∉ segment K edge.1 edge.2)
    (level : edge.1.2 = edge.2.2) (right : p.1 ≤ x) (onEdge : (x, p.2) ∈ segment K edge.1 edge.2) :
    ∃ y, (y = edge.1.1 ∨ y = edge.2.1) ∧ p.1 ≤ y ∧ y ≤ x ∧
      (y, p.2) ∈ segment K edge.1 edge.2 := by
  obtain ⟨first, last, low, high⟩ := le_max_of_mem_segment onEdge
  rw [← level, min_self] at low
  rw [← level, max_self] at high
  have height : edge.1.2 = p.2 := le_antisymm low high
  have onRay {y : K} (behind : y ≤ p.1) (ends : min edge.1.1 edge.2.1 ≤ y) : False :=
    off (mem_segment_of_level (ends.trans behind) (right.trans last) height
      (level.symm.trans height))
  rcases min_le_iff.mp first with before | before
  · refine ⟨edge.1.1, .inl rfl, ?_, before, ?_⟩
    · by_contra behind
      exact onRay (le_of_not_ge behind) (min_le_left _ _)
    · rw [← height]
      exact left_mem_segment K edge.1 edge.2
  · refine ⟨edge.2.1, .inr rfl, ?_, before, ?_⟩
    · by_contra behind
      exact onRay (le_of_not_ge behind) (min_le_right _ _)
    · rw [← height, level]
      exact right_mem_segment K edge.1 edge.2

/-- A ray from a point off some edges meets the edges it reaches first in one point. -/
theorem exists_nearest {edges : List ((K × K) × (K × K))}
    (off : ∀ edge ∈ edges, p ∉ segment K edge.1 edge.2)
    (crossed : ∃ edge ∈ edges, Crosses p edge.1 edge.2) :
    ∃ x, (∃ edge ∈ edges, (x, p.2) ∈ segment K edge.1 edge.2) ∧
      ∀ edge ∈ edges, ∀ z ∈ segment K p (x, p.2), z ∈ segment K edge.1 edge.2 → z = (x, p.2) := by
  classical
  -- Each edge has few places at which the ray can reach it first.
  let places := (edges.flatMap fun edge =>
    [lineX edge.1 edge.2 p.2, edge.1.1, edge.2.1]).toFinset.filter fun x =>
      p.1 ≤ x ∧ ∃ edge ∈ edges, (x, p.2) ∈ segment K edge.1 edge.2
  have mem_places : ∀ {x : K} {edge : (K × K) × (K × K)}, edge ∈ edges → p.1 ≤ x →
      (x, p.2) ∈ segment K edge.1 edge.2 → x ∈ [lineX edge.1 edge.2 p.2, edge.1.1, edge.2.1] →
        x ∈ places := by
    intro x edge listed right member among
    refine Finset.mem_filter.mpr ⟨List.mem_toFinset.mpr ?_, right, edge, listed, member⟩
    exact List.mem_flatMap.mpr ⟨edge, listed, among⟩
  obtain ⟨crossedEdge, listed, crosses⟩ := crossed
  obtain ⟨x, member, least⟩ := places.exists_min_image id
    ⟨_, mem_places listed crosses.2 crosses.mem_segment List.mem_cons_self⟩
  obtain ⟨-, right, reached⟩ := Finset.mem_filter.mp member
  refine ⟨x, reached, fun edge listed z onRay onEdge => ?_⟩
  obtain ⟨left, near, low, high⟩ := le_max_of_mem_segment onRay
  rw [min_self] at low
  rw [max_self] at high
  rw [min_eq_left right] at left
  rw [max_eq_right right] at near
  have height : z.2 = p.2 := le_antisymm high low
  obtain ⟨z₁, z₂⟩ := z
  dsimp only at left near height
  subst height
  -- Some place of this edge is no further than the point.
  have place : ∃ y ∈ places, y ≤ z₁ := by
    by_cases level : edge.1.2 = edge.2.2
    · obtain ⟨y, isEnd, ahead, before, member⟩ :=
        exists_end_on_ray (off edge listed) level left onEdge
      exact ⟨y, mem_places listed ahead member (by simp [isEnd]), before⟩
    · have onLine := eq_lineX_of_mem_segment level onEdge
      dsimp only at onLine
      exact ⟨z₁, mem_places listed left onEdge (by simp [onLine]), le_rfl⟩
  obtain ⟨y, inPlaces, before⟩ := place
  have first : x ≤ y := least y inPlaces
  exact Prod.ext (le_antisymm near (first.trans before)) rfl

/-- Some edges of two rings meet. -/
def RingsTouch (ring other : List (K × K)) : Prop := ∃ z, OnRing z ring ∧ OnRing z other

/-- A ring whose edges stay clear of another ring lies inside it, if one of its points does. -/
theorem forall_inside (clear : ¬RingsTouch ring other) (onRing : OnRing z ring)
    (inside : ringParity z other = 1) : ∀ w ∈ ring, ringParity w other = 1 := by
  have along : ∀ {edge : (K × K) × (K × K)} {p q : K × K}, edge ∈ ringEdges ring →
      p ∈ segment K edge.1 edge.2 → q ∈ segment K edge.1 edge.2 →
        ringParity p other = ringParity q other := by
    intro edge p q listed first second
    apply ringParity_eq
    intro w member onOther
    have within := (convex_segment edge.1 edge.2).segment_subset first second member
    exact clear ⟨w, ⟨edge, listed, within⟩, onOther⟩
  obtain ⟨edge, listed, member⟩ := onRing
  refine forall_of_ringEdges (P := fun w => ringParity w other = 1)
    (mem_of_mem_ringEdges listed).1 ?_ ?_
  · rw [← along listed member (left_mem_segment K _ _)]
    exact inside
  · intro edge listed
    rw [along listed (left_mem_segment K _ _) (right_mem_segment K _ _)]

/-- Two rings with a point in common touch, or one of them lies inside the other. -/
theorem touch_or_inside {p : K × K} (first : InRing p ring) (second : InRing p other) :
    RingsTouch ring other ∨ (∀ w ∈ ring, ringParity w other = 1) ∨
      ∀ w ∈ other, ringParity w ring = 1 := by
  by_cases touch : RingsTouch ring other
  · exact .inl touch
  have touch' : ¬RingsTouch other ring := fun ⟨z, onOther, onRing⟩ => touch ⟨z, onRing, onOther⟩
  refine .inr ?_
  by_cases onRing : OnRing p ring
  · have off : ¬OnRing p other := fun onOther => touch ⟨p, onRing, onOther⟩
    exact .inl (forall_inside touch onRing (second.resolve_left off))
  by_cases onOther : OnRing p other
  · exact .inr (forall_inside touch' onOther (first.resolve_left onRing))
  -- Inside both: the parities still hold where the ray first reaches an edge of one of them.
  have oddRing := first.resolve_left onRing
  have oddOther := second.resolve_left onOther
  obtain ⟨edge, listed, crosses⟩ := exists_crosses oddRing
  have off : ∀ edge ∈ ringEdges ring ++ ringEdges other, p ∉ segment K edge.1 edge.2 := by
    intro edge listed member
    rcases List.mem_append.mp listed with here | there
    · exact onRing ⟨edge, here, member⟩
    · exact onOther ⟨edge, there, member⟩
  obtain ⟨x, ⟨reached, listedReached, member⟩, only⟩ := exists_nearest off
    ⟨edge, List.mem_append_left _ listed, crosses⟩
  rcases List.mem_append.mp listedReached with here | there
  · left
    have clear : ∀ z ∈ segment K p (x, p.2), ¬OnRing z other := by
      rintro z onRay ⟨edge, listed, onEdge⟩
      obtain rfl := only edge (List.mem_append_right _ listed) z onRay onEdge
      exact touch ⟨_, ⟨reached, here, member⟩, edge, listed, onEdge⟩
    refine forall_inside touch ⟨reached, here, member⟩ ?_
    rw [← ringParity_eq clear]
    exact oddOther
  · right
    have clear : ∀ z ∈ segment K p (x, p.2), ¬OnRing z ring := by
      rintro z onRay ⟨edge, listed, onEdge⟩
      obtain rfl := only edge (List.mem_append_left _ listed) z onRay onEdge
      exact touch ⟨_, ⟨edge, listed, onEdge⟩, reached, there, member⟩
    refine forall_inside touch' ⟨reached, there, member⟩ ?_
    rw [← ringParity_eq clear]
    exact oddRing

end Rings

end FlOp.Library
