import FlOp.Library.Ordering
import FlOp.Library.PlaneSegments
import Mathlib.Data.Rat.Defs
import Mathlib.Data.Real.Basic
import Mathlib.Algebra.Order.Ring.Rat

/-! # Polygon intersection

Points are in a polygon by ray casting, boundary inclusive. Two polygons intersect if their
bounding boxes do and two edges meet, or the first vertex of one of them is in the other. Without a
tolerance this holds exactly if some point is in both.
-/

namespace FlOp.Solver

open Library

/-- Longitude and latitude. -/
abbrev Point := ℚ × ℚ

/-- How far a point may be off a segment, in the source. -/
def pointTolerance : ℚ := 1 / 10 ^ 12

/-- Least and greatest coordinates: min x, min y, max x, max y. -/
def bbox (poly : List Point) : ℚ × ℚ × ℚ × ℚ :=
  let xs := poly.map Prod.fst
  let ys := poly.map Prod.snd
  (xs.min?.getD 0, ys.min?.getD 0, xs.max?.getD 0, ys.max?.getD 0)

def bboxIntersects (a b : List Point) : Bool :=
  let (aMinX, aMinY, aMaxX, aMaxY) := bbox a
  let (bMinX, bMinY, bMaxX, bMaxY) := bbox b
  ¬(aMaxX < bMinX ∨ bMaxX < aMinX ∨ aMaxY < bMinY ∨ bMaxY < aMinY)

def pointOnSegment (eps : ℚ) (p a b : Point) : Bool :=
  let cross := (p.2 - a.2) * (b.1 - a.1) - (p.1 - a.1) * (b.2 - a.2)
  if eps < |cross| then false
  else
    min a.1 b.1 - eps ≤ p.1 && p.1 ≤ max a.1 b.1 + eps &&
      min a.2 b.2 - eps ≤ p.2 && p.2 ≤ max a.2 b.2 + eps

/-- The loop over the vertices, each with the one before it. -/
def castRay (eps : ℚ) (point : Point) : Bool → Point → List Point → Bool
  | inside, _, [] => inside
  | inside, prev, cur :: rest =>
    if pointOnSegment eps point prev cur then true
    else
      let dy := prev.2 - cur.2
      let xAtY :=
        (prev.1 - cur.1) * (point.2 - cur.2) / (if dy = 0 then 1 / 10 ^ 12 else dy) + cur.1
      let crosses := (decide (point.2 < cur.2) != decide (point.2 < prev.2)) &&
        decide (point.1 ≤ xAtY)
      castRay eps point (if crosses then !inside else inside) cur rest

/-- Ray-casting point-in-polygon check, boundary inclusive. -/
def pointInPolygon (eps : ℚ) (point : Point) (polygon : List Point) : Bool :=
  match polygon.getLast? with
  | none => false
  | some last => if polygon.length < 3 then false else castRay eps point false last polygon

def edges (poly : List Point) : List (Point × Point) := poly.zip (poly.tail ++ poly.head?.toList)

def orientation (a b c : Point) : ℚ := (b.2 - a.2) * (c.1 - b.1) - (b.1 - a.1) * (c.2 - b.2)

def segmentsIntersect (eps : ℚ) (p1 q1 p2 q2 : Point) : Bool :=
  let o1 := orientation p1 q1 p2
  let o2 := orientation p1 q1 q2
  let o3 := orientation p2 q2 p1
  let o4 := orientation p2 q2 q1
  (decide (0 < o1) != decide (0 < o2) && decide (0 < o3) != decide (0 < o4)) ||
    (pointOnSegment eps p2 p1 q1 || pointOnSegment eps q2 p1 q1 ||
      pointOnSegment eps p1 p2 q2 || pointOnSegment eps q1 p2 q2)

/-- Two polygons overlap, touch, or one contains the other. -/
def polygonsIntersect (eps : ℚ) (a b : List Point) : Bool :=
  match a, b with
  | firstA :: restA, firstB :: restB =>
    let a := firstA :: restA
    let b := firstB :: restB
    if a.length < 3 ∨ b.length < 3 then false
    else if ¬bboxIntersects a b then false
    else if (edges a).any fun (pa1, pa2) =>
        (edges b).any fun (pb1, pb2) => segmentsIntersect eps pa1 pa2 pb1 pb2 then true
    else pointInPolygon eps firstA b || pointInPolygon eps firstB a
  | _, _ => false

section Segments

variable {p a b : Point}

/-- Without a tolerance the test is exact. -/
theorem pointOnSegment_iff : pointOnSegment 0 p a b = true ↔ p ∈ segment ℚ a b := by
  have opposite : (p.2 - a.2) * (b.1 - a.1) - (p.1 - a.1) * (b.2 - a.2) = -turn a b p := by
    rw [turn]
    ring
  rw [pointOnSegment, opposite, mem_segment_iff_turn, abs_neg]
  constructor
  · intro on
    split at on
    · cases on
    · next flat =>
      simp only [Bool.and_eq_true, decide_eq_true_eq, sub_zero, add_zero] at on
      obtain ⟨⟨⟨left, right⟩, low⟩, high⟩ := on
      exact ⟨abs_nonpos_iff.mp (le_of_not_gt flat), ⟨left, right⟩, low, high⟩
  · rintro ⟨flat, ⟨left, right⟩, low, high⟩
    rw [flat, abs_zero, if_neg (lt_irrefl 0)]
    simp only [sub_zero, add_zero, Bool.and_eq_true, decide_eq_true_eq]
    exact ⟨⟨⟨left, right⟩, low⟩, high⟩

/-- Without a tolerance the segment test is exact. -/
theorem segmentsIntersect_iff {p1 q1 p2 q2 : Point} :
    segmentsIntersect 0 p1 q1 p2 q2 = true ↔
      ∃ z, z ∈ segment ℚ p1 q1 ∧ z ∈ segment ℚ p2 q2 := by
  rw [segments_meet_iff]
  simp only [segmentsIntersect, Bool.or_eq_true, Bool.and_eq_true, bne_iff_ne, ne_eq,
    decide_eq_decide, pointOnSegment_iff, or_assoc]
  rfl

/-- Without a tolerance the segment test finds every point of the plane that two closed segments
share, and only these; where there is one, there is a rational one. -/
theorem segmentsIntersect_exact (p1 q1 p2 q2 : Point) :
    (segmentsIntersect 0 p1 q1 p2 q2 = true ↔
      ∃ z, z ∈ segment ℝ (castPoint ℝ p1) (castPoint ℝ q1) ∧
        z ∈ segment ℝ (castPoint ℝ p2) (castPoint ℝ q2)) ∧
    (segmentsIntersect 0 p1 q1 p2 q2 = true ↔
      ∃ z, z ∈ segment ℚ p1 q1 ∧ z ∈ segment ℚ p2 q2) :=
  ⟨segmentsIntersect_iff.trans segments_meet_castPoint.symm, segmentsIntersect_iff⟩

end Segments

section Rings

variable {point : Point} {a b : List Point}

theorem edges_eq (poly : List Point) : edges poly = ringEdges poly := by
  have zipped : ∀ (rest : List Point) (start stop : Point),
      (start :: rest).zip (rest ++ [stop]) = pathEdges start (rest ++ [stop]) := by
    intro rest
    induction rest with
    | nil => exact fun _ _ => rfl
    | cons next rest ih =>
      intro start stop
      rw [List.cons_append, List.zip_cons_cons, ih, pathEdges]
  cases poly with
  | nil => rfl
  | cons first rest => exact zipped rest first first

/-- Crossing an edge as the loop decides it, for a point off the edge. -/
theorem crosses_iff {prev cur : Point} : Crosses point cur prev ↔
    ((decide (point.2 < cur.2) != decide (point.2 < prev.2)) && decide (point.1 ≤
      (prev.1 - cur.1) * (point.2 - cur.2) /
        (if prev.2 - cur.2 = 0 then 1 / 10 ^ 12 else prev.2 - cur.2) + cur.1)) = true := by
  rw [Bool.and_eq_true, bne_iff_ne, ne_eq, decide_eq_decide, decide_eq_true_eq, Crosses]
  apply and_congr_right
  intro straddles
  have slanted : prev.2 - cur.2 ≠ 0 := fun level => straddles (by rw [sub_eq_zero.mp level])
  rw [if_neg slanted, lineX]

/-- The loop finds an edge with the point on it, or counts the crossings. -/
theorem castRay_iff {inside : Bool} {prev : Point} {rest : List Point} :
    castRay 0 point inside prev rest = true ↔
      (∃ edge ∈ pathEdges prev rest, point ∈ segment ℚ edge.1 edge.2) ∨
        (if inside then 1 else 0) +
          ((pathEdges prev rest).map fun edge => crossing point edge.1 edge.2).sum = 1 := by
  induction rest generalizing inside prev with
  | nil => cases inside <;> simp [castRay, pathEdges]
  | cons cur rest ih =>
    simp only [castRay, pathEdges, List.exists_mem_cons_iff, List.map_cons, List.sum_cons]
    split
    · next on => exact iff_of_true rfl (.inl (.inl (pointOnSegment_iff.mp on)))
    · next off =>
      have clear := mt pointOnSegment_iff.mpr off
      rw [ih, or_iff_right clear]
      apply or_congr_right
      rw [crossing_comm, crossing, ← add_assoc]
      by_cases crosses : Crosses point cur prev
      · rw [if_pos (crosses_iff.mp crosses), if_pos crosses]
        cases inside <;> simp [CharTwo.two_eq_zero, one_add_one_eq_two]
      · rw [if_neg (mt crosses_iff.mpr crosses), if_neg crosses, add_zero]

theorem pointInPolygon_iff {polygon : List Point} : pointInPolygon 0 point polygon = true ↔
    3 ≤ polygon.length ∧ InRing point polygon := by
  rcases List.eq_nil_or_concat' polygon with rfl | ⟨before, last, rfl⟩
  · simp [pointInPolygon]
  have around : (pathEdges last (before ++ [last])).Perm (ringEdges (before ++ [last])) := by
    have rotated := perm_ringEdges_rotate (last :: before) 1
    rw [List.rotate_cons_succ, List.rotate_zero] at rotated
    exact rotated.symm
  rw [pointInPolygon, List.getLast?_concat]
  dsimp only
  split
  · next short => exact iff_of_false Bool.false_ne_true fun whole => by omega
  · next long =>
    rw [castRay_iff, and_iff_right (by omega), InRing, OnRing, ringParity, (around.map _).sum_eq]
    simp [around.mem_iff]

/-- Polygons with a point in common have bounding boxes with one. -/
theorem bboxIntersects_of_inRing (inA : InRing point a) (inB : InRing point b) :
    bboxIntersects a b = true := by
  obtain ⟨⟨a1, listedA1, leftA⟩, ⟨a2, listedA2, rightA⟩, ⟨a3, listedA3, lowA⟩,
    a4, listedA4, highA⟩ := inA.bounds
  obtain ⟨⟨b1, listedB1, leftB⟩, ⟨b2, listedB2, rightB⟩, ⟨b3, listedB3, lowB⟩,
    b4, listedB4, highB⟩ := inB.bounds
  have least : ∀ {poly : List Point} {w : Point} (side : Point → ℚ), w ∈ poly →
      (poly.map side).min?.getD 0 ≤ side w := fun side listed =>
    min?_getD_le 0 (List.mem_map_of_mem listed)
  have greatest : ∀ {poly : List Point} {w : Point} (side : Point → ℚ), w ∈ poly →
      side w ≤ (poly.map side).max?.getD 0 := fun side listed =>
    le_max?_getD 0 (List.mem_map_of_mem listed)
  have x1 := (least Prod.fst listedB1).trans
    (leftB.trans (rightA.trans (greatest Prod.fst listedA2)))
  have x2 := (least Prod.fst listedA1).trans
    (leftA.trans (rightB.trans (greatest Prod.fst listedB2)))
  have y1 := (least Prod.snd listedB3).trans (lowB.trans (highA.trans (greatest Prod.snd listedA4)))
  have y2 := (least Prod.snd listedA3).trans (lowA.trans (highB.trans (greatest Prod.snd listedB4)))
  refine decide_eq_true ?_
  rintro (apart | apart | apart | apart) <;> exact absurd apart (not_lt_of_ge (by assumption))

theorem edges_any_iff : ((edges a).any fun (pa1, pa2) =>
    (edges b).any fun (pb1, pb2) => segmentsIntersect 0 pa1 pa2 pb1 pb2) = true ↔
      RingsTouch a b := by
  simp only [List.any_eq_true, segmentsIntersect_iff, edges_eq, RingsTouch, OnRing]
  constructor
  · rintro ⟨first, listed, second, listedToo, z, onFirst, onSecond⟩
    exact ⟨z, ⟨first, listed, onFirst⟩, second, listedToo, onSecond⟩
  · rintro ⟨z, ⟨first, listed, onFirst⟩, second, listedToo, onSecond⟩
    exact ⟨first, listed, second, listedToo, z, onFirst, onSecond⟩

theorem onRing_head (first : Point) (rest : List Point) : OnRing first (first :: rest) := by
  cases rest with
  | nil => exact ⟨(first, first), List.mem_cons_self, left_mem_segment ℚ _ _⟩
  | cons next rest => exact ⟨(first, next), List.mem_cons_self, left_mem_segment ℚ _ _⟩

/-- Without a tolerance, two polygons intersect exactly if some point is in both. -/
theorem polygonsIntersect_iff : polygonsIntersect 0 a b = true ↔
    ∃ p, pointInPolygon 0 p a = true ∧ pointInPolygon 0 p b = true := by
  simp only [pointInPolygon_iff]
  cases a with
  | nil => simp [polygonsIntersect]
  | cons firstA restA =>
    cases b with
    | nil => simp [polygonsIntersect]
    | cons firstB restB =>
      simp only [polygonsIntersect]
      split
      · next short =>
        refine iff_of_false Bool.false_ne_true ?_
        rintro ⟨p, ⟨longA, -⟩, longB, -⟩
        omega
      · next long =>
        have longA : 3 ≤ (firstA :: restA).length := by omega
        have longB : 3 ≤ (firstB :: restB).length := by omega
        simp only [longA, longB, true_and]
        split
        · next apart =>
          refine iff_of_false Bool.false_ne_true ?_
          rintro ⟨p, inA, inB⟩
          exact apart (bboxIntersects_of_inRing inA inB)
        split
        · next touch =>
          obtain ⟨z, onA, onB⟩ := edges_any_iff.mp touch
          exact iff_of_true rfl ⟨z, .inl onA, .inl onB⟩
        · next clear =>
          rw [Bool.or_eq_true, pointInPolygon_iff, pointInPolygon_iff]
          constructor
          · rintro (⟨-, inside⟩ | ⟨-, inside⟩)
            · exact ⟨firstA, .inl (onRing_head firstA restA), inside⟩
            · exact ⟨firstB, inside, .inl (onRing_head firstB restB)⟩
          · rintro ⟨p, inA, inB⟩
            rcases touch_or_inside inA inB with touch | inside | inside
            · exact absurd (edges_any_iff.mpr touch) clear
            · exact .inl ⟨longB, .inr (inside firstA List.mem_cons_self)⟩
            · exact .inr ⟨longA, .inr (inside firstB List.mem_cons_self)⟩

theorem polygonsIntersect_comm : polygonsIntersect 0 a b = polygonsIntersect 0 b a := by
  rw [Bool.eq_iff_iff, polygonsIntersect_iff, polygonsIntersect_iff]
  exact exists_congr fun p => and_comm

/-- Polygons that hold the same points intersect the same polygons. -/
theorem polygonsIntersect_congr {a' : List Point}
    (same : ∀ p, pointInPolygon 0 p a' = true ↔ pointInPolygon 0 p a = true) :
    polygonsIntersect 0 a' b = polygonsIntersect 0 a b := by
  rw [Bool.eq_iff_iff, polygonsIntersect_iff, polygonsIntersect_iff]
  exact exists_congr fun p => and_congr_left fun _ => same p

theorem polygonsIntersect_rotate (n : ℕ) :
    polygonsIntersect 0 (a.rotate n) b = polygonsIntersect 0 a b := by
  apply polygonsIntersect_congr
  intro p
  rw [pointInPolygon_iff, pointInPolygon_iff, List.length_rotate, inRing_rotate]

theorem polygonsIntersect_reverse :
    polygonsIntersect 0 a.reverse b = polygonsIntersect 0 a b := by
  apply polygonsIntersect_congr
  intro p
  rw [pointInPolygon_iff, pointInPolygon_iff, List.length_reverse, inRing_reverse]

end Rings

/-- Whether polygons intersect does not depend on their order, on the vertex a list starts with or
on its direction, and they do exactly if some point is in both. -/
theorem polygonsIntersect_of_presentation (a b : List Point) :
    polygonsIntersect 0 a b = polygonsIntersect 0 b a ∧
    (∀ n, polygonsIntersect 0 (a.rotate n) b = polygonsIntersect 0 a b ∧
      polygonsIntersect 0 a (b.rotate n) = polygonsIntersect 0 a b) ∧
    (polygonsIntersect 0 a.reverse b = polygonsIntersect 0 a b ∧
      polygonsIntersect 0 a b.reverse = polygonsIntersect 0 a b) ∧
    (polygonsIntersect 0 a b = true ↔
      ∃ p, pointInPolygon 0 p a = true ∧ pointInPolygon 0 p b = true) := by
  refine ⟨polygonsIntersect_comm, fun n => ⟨polygonsIntersect_rotate n, ?_⟩,
    ⟨polygonsIntersect_reverse, ?_⟩, polygonsIntersect_iff⟩
  · rw [polygonsIntersect_comm, polygonsIntersect_rotate, polygonsIntersect_comm]
  · rw [polygonsIntersect_comm, polygonsIntersect_reverse, polygonsIntersect_comm]

-- A small square within a large one, and one beside it.
example : polygonsIntersect 0 [(0, 0), (9, 0), (9, 9), (0, 9)] [(1, 1), (1, 2), (2, 2), (2, 1)] ∧
    ¬polygonsIntersect 0 [(0, 0), (0, 3), (9, 9)] [(4, 1), (4, 2), (8, 2), (8, 1)] := by
  decide +kernel

end FlOp.Solver
