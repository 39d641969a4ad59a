import FlOp.Library.PositionGraph
import Mathlib.Algebra.Order.Ring.Rat
import Mathlib.Tactic.Linarith

/-! # Paths around restricted polygons

Distances and the predicates on polygons come from outside. A path between two points follows the
vertices of the polygons in its way; it is found by a search in the graph of the points that see
one another.
-/

namespace FlOp.Core

open Library Library.Dijkstra

/-- Latitude and longitude. -/
abbrev LatLon := ℚ × ℚ

/-- Geodesic distances and the predicates on polygons, with the laws the engine relies on. -/
structure PlanarGeometry (Polygon : Type) where
  haversineKm : LatLon → LatLon → ℚ
  haversineKm_self : ∀ a, haversineKm a a = 0
  haversineKm_pos : ∀ a b, a ≠ b → 0 < haversineKm a b
  haversineKm_comm : ∀ a b, haversineKm a b = haversineKm b a
  haversineKm_triangle : ∀ a b c, haversineKm a c ≤ haversineKm a b + haversineKm b c
  /-- The polygons that a ring stands for once it is repaired. -/
  repaired : List LatLon → List Polygon
  isEmpty : Polygon → Bool
  area : Polygon → ℚ
  contains : Polygon → LatLon → Bool
  /-- The inner part of a segment does not enter the polygon. -/
  staysOutside : LatLon → LatLon → Polygon → Bool
  staysOutside_comm : ∀ a b polygon, staysOutside a b polygon = staysOutside b a polygon
  /-- Vertices of the outer ring, each once. -/
  exterior : Polygon → List LatLon

namespace PlanarGeometry

variable {Polygon : Type} (geometry : PlanarGeometry Polygon)

/-- The polygons of the rings that have an area. -/
def obstacles (rings : List (List LatLon)) : List Polygon :=
  rings.flatMap fun ring =>
    if ring.length < 3 then []
    else (geometry.repaired ring).filter fun polygon =>
      ¬ geometry.isEmpty polygon ∧ 0 < geometry.area polygon

/-- A segment that enters none of the polygons. -/
def Visible (polygons : List Polygon) (a b : LatLon) : Prop :=
  ∀ polygon ∈ polygons, geometry.staysOutside a b polygon

instance (polygons : List Polygon) (a b : LatLon) : Decidable (geometry.Visible polygons a b) :=
  inferInstanceAs (Decidable (∀ polygon ∈ polygons, _))

/-- A point in one of the polygons. -/
def Inside (polygons : List Polygon) (a : LatLon) : Prop :=
  ∃ polygon ∈ polygons, geometry.contains polygon a

instance (polygons : List Polygon) (a : LatLon) : Decidable (geometry.Inside polygons a) :=
  inferInstanceAs (Decidable (∃ polygon ∈ polygons, _))

/-- Vertices of all polygons. -/
def vertices (polygons : List Polygon) : List LatLon := polygons.flatMap geometry.exterior

/-- The endpoints and then every vertex not listed before. -/
def graphPoints (polygons : List Polygon) (start finish : LatLon) : List LatLon :=
  (geometry.vertices polygons).foldl
    (fun points p => if p ∈ points then points else points ++ [p]) [start, finish]

/-- The other points that a point sees, with their distances. -/
def visibilityGraph (polygons : List Polygon) (points : List LatLon) : Dijkstra.Graph ℕ ℚ :=
  fun node => (List.range points.length).filterMap fun other =>
    (points[min node other]?).bind fun left => (points[max node other]?).bind fun right =>
      if node ≠ other ∧ geometry.Visible polygons left right then
        some (other, geometry.haversineKm left right)
      else none

/-- Shortest visible path around polygon interiors; without fuel left there is no answer. -/
def shortestPathAroundPolygons (fuel : ℕ) (start finish : LatLon) (rings : List (List LatLon)) :
    Option (List LatLon) :=
  let polygons := geometry.obstacles rings
  if polygons = [] ∨ start = finish then some [start, finish]
  else if geometry.Inside polygons start ∨ geometry.Inside polygons finish then some []
  else if geometry.Visible polygons start finish then some [start, finish]
  else
    let points := geometry.graphPoints polygons start finish
    (Search.run (geometry.visibilityGraph polygons points) (some 1) fuel (Search.start 0)).bind
      fun result =>
        match result.best.get? 1 with
        | none => some []
        | some _ =>
          (Search.trace 0 result.predecessor fuel 1 []).map fun (_, steps) =>
            (0 :: steps.map Prod.snd).filterMap fun k => points[k]?

/-- Geodesic length of a polyline. -/
def pathDistanceKm (path : List LatLon) : ℚ := chainLength geometry.haversineKm path

/-- Replace the segments of a polyline one after another. -/
def rerouteSegments (fuel : ℕ) (rings : List (List LatLon)) (rerouted : List LatLon) :
    List (LatLon × LatLon) → Option (List LatLon)
  | [] => some rerouted
  | (start, finish) :: rest =>
    (geometry.shortestPathAroundPolygons fuel start finish rings).bind fun segmentPath =>
      if segmentPath = [] then some []
      else rerouteSegments fuel rings (rerouted ++ segmentPath.tail) rest

/-- Replace each blocked segment of a polyline with its path around the polygons. -/
def reroutePathAroundPolygons (fuel : ℕ) (path : List LatLon) (rings : List (List LatLon)) :
    Option (List LatLon) :=
  if path.length < 2 ∨ rings = [] then some path
  else geometry.rerouteSegments fuel rings (path.head?.toList) (path.zip path.tail)

/-- A chain of visible segments through vertices of the polygons, from one point to another. -/
structure Joins (polygons : List Polygon) (start finish : LatLon) (l : List LatLon) : Prop where
  starts : l.head? = some start
  ends : l.getLast? = some finish
  through : ∀ p ∈ l, p = start ∨ p = finish ∨ p ∈ geometry.vertices polygons
  visible : l.IsChain (geometry.Visible polygons)

variable {geometry} {polygons : List Polygon} {start finish : LatLon}

theorem visible_comm {a b : LatLon} :
    geometry.Visible polygons a b ↔ geometry.Visible polygons b a := by
  simp only [Visible, geometry.staysOutside_comm a b]

/-- A chain is no shorter than the direct way. -/
theorem haversineKm_le_chainLength {a b : LatLon} {l : List LatLon}
    (last : (a :: l).getLast? = some b) :
    geometry.haversineKm a b ≤ geometry.pathDistanceKm (a :: l) := by
  induction l generalizing a with
  | nil =>
    obtain rfl := Option.some.inj last
    exact (geometry.haversineKm_self a).le
  | cons c rest ih =>
    rw [List.getLast?_cons_cons] at last
    rw [pathDistanceKm, chainLength_cons_cons]
    exact (geometry.haversineKm_triangle a c b).trans (add_le_add_right (ih last) _)

/-- The points of the graph are the endpoints and the vertices, each once. -/
theorem graphPoints_spec (apart : start ≠ finish) :
    ∃ further, geometry.graphPoints polygons start finish = start :: finish :: further ∧
      (start :: finish :: further).Nodup ∧
      ∀ p, p ∈ start :: finish :: further ↔
        p = start ∨ p = finish ∨ p ∈ geometry.vertices polygons := by
  have steps : ∀ (listed given : List LatLon), given.Nodup → ∃ further,
      listed.foldl (fun points p => if p ∈ points then points else points ++ [p]) given =
        given ++ further ∧ (given ++ further).Nodup ∧
      ∀ p, p ∈ given ++ further ↔ p ∈ given ∨ p ∈ listed := by
    intro listed
    induction listed with
    | nil => exact fun given nodup => ⟨[], by simp, by simpa using nodup, by simp⟩
    | cons first rest ih =>
      intro given nodup
      rw [List.foldl_cons]
      by_cases seen : first ∈ given
      · rw [if_pos seen]
        obtain ⟨further, same, distinct, members⟩ := ih given nodup
        refine ⟨further, same, distinct, fun p => (members p).trans ?_⟩
        rw [List.mem_cons]
        constructor
        · rintro (old | later)
          · exact .inl old
          · exact .inr (.inr later)
        · rintro (old | rfl | later)
          · exact .inl old
          · exact .inl seen
          · exact .inr later
      · rw [if_neg seen]
        have grown : (given ++ [first]).Nodup := by
          rw [List.nodup_append_comm]
          exact List.nodup_cons.mpr ⟨seen, nodup⟩
        obtain ⟨further, same, distinct, members⟩ := ih (given ++ [first]) grown
        refine ⟨first :: further, by simpa using same, by simpa using distinct, fun p => ?_⟩
        have listedIn := members p
        simp only [List.append_assoc, List.singleton_append, List.mem_append,
          List.mem_singleton] at listedIn
        rw [List.mem_append, listedIn, List.mem_cons, or_assoc]
  obtain ⟨further, same, distinct, members⟩ := steps (geometry.vertices polygons) [start, finish]
    (by simpa using apart)
  refine ⟨further, same, distinct, fun p => (members p).trans ?_⟩
  simp only [List.mem_cons, List.not_mem_nil, or_false, or_assoc]

/-- The graph joins the points that see one another. -/
theorem isPositionGraph_visibilityGraph (points : List LatLon) :
    IsPositionGraph (geometry.visibilityGraph polygons points) points
      (geometry.Visible polygons) geometry.haversineKm := by
  intro i j weight
  simp only [visibilityGraph, List.mem_filterMap, List.mem_range, Option.bind_eq_some_iff,
    Option.ite_none_right_eq_some, Option.some.injEq, Prod.mk.injEq]
  constructor
  · rintro ⟨other, -, left, atLeft, right, atRight, ⟨apart, visible⟩, rfl, rfl⟩
    rcases Nat.lt_or_gt_of_ne apart with before | after
    · rw [min_eq_left before.le] at atLeft
      rw [max_eq_right before.le] at atRight
      exact ⟨left, right, atLeft, atRight, apart, visible, rfl⟩
    · rw [min_eq_right after.le] at atLeft
      rw [max_eq_left after.le] at atRight
      exact ⟨right, left, atRight, atLeft, apart, visible_comm.mp visible,
        geometry.haversineKm_comm _ _⟩
  · rintro ⟨a, b, atI, atJ, apart, visible, rfl⟩
    have inside : j < points.length := (List.getElem?_eq_some_iff.mp atJ).1
    refine ⟨j, inside, ?_⟩
    rcases Nat.lt_or_gt_of_ne apart with before | after
    · rw [min_eq_left before.le, max_eq_right before.le]
      exact ⟨a, atI, b, atJ, ⟨apart, visible⟩, rfl, rfl⟩
    · rw [min_eq_right after.le, max_eq_left after.le]
      exact ⟨b, atJ, a, atI, ⟨apart, visible_comm.mp visible⟩, rfl, geometry.haversineKm_comm _ _⟩

section Search

variable {points : List LatLon}

theorem position_unique (nodup : points.Nodup) {i j : ℕ} {a : LatLon} (atI : points[i]? = some a)
    (atJ : points[j]? = some a) : i = j := by
  obtain ⟨inI, rfl⟩ := List.getElem?_eq_some_iff.mp atI
  obtain ⟨inJ, same⟩ := List.getElem?_eq_some_iff.mp atJ
  exact (nodup.getElem_inj_iff.mp same).symm

variable (geometry polygons) in
/-- A search in the graph of distinct points ends with the least total of the target. -/
theorem exists_searched (nodup : points.Nodup) (nonempty : 0 < points.length) :
    ∃ result, Fallible.EndsWith (fun fuel => Search.run
        (geometry.visibilityGraph polygons points) (some 1) fuel (Search.start 0)) result ∧
      (∀ b ∈ result.best.get? 1,
        (∀ steps total, Walk (geometry.visibilityGraph polygons points) 0 1 steps total →
          b ≤ total) ∧
        ∃ steps, Walk (geometry.visibilityGraph polygons points) 0 1 steps b ∧ Fallible.EndsWith
          (fun fuel => Search.trace 0 result.predecessor fuel 1 []) (0, steps)) ∧
      (result.best.get? 1 = none →
        ∀ steps total, ¬ Walk (geometry.visibilityGraph polygons points) 0 1 steps total) := by
  have edges : IsPositionGraph (geometry.visibilityGraph polygons points) points
    (geometry.Visible polygons) geometry.haversineKm := isPositionGraph_visibilityGraph points
  have within : ∀ u ∈ Finset.range points.length, ∀ edge ∈ geometry.visibilityGraph polygons points u,
      edge.1 ∈ Finset.range points.length := by
    intro u _ edge out
    obtain ⟨_, _, _, atEnd, _⟩ := (edges u edge.1 edge.2).mp out
    exact Finset.mem_range.mpr (List.getElem?_eq_some_iff.mp atEnd).1
  have positive : ∀ u, ∀ edge ∈ geometry.visibilityGraph polygons points u, 0 < edge.2 := by
    intro u edge out
    obtain ⟨a, b, atU, atEnd, other, -, weight⟩ := (edges u edge.1 edge.2).mp out
    rw [weight]
    refine geometry.haversineKm_pos a b fun same => ?_
    exact other (position_unique nodup atU (same ▸ atEnd))
  obtain ⟨result, ends, exact⟩ := Search.exists_shortest (some 1)
    (Finset.mem_range.mpr nonempty) within positive
  exact ⟨result, ends, exact 1 (.inr rfl)⟩

/-- A chain that joins the endpoints is a walk between the first two points. -/
theorem Joins.walk {l : List LatLon} (joins : geometry.Joins polygons start finish l)
    (nodup : points.Nodup) (atStart : points[0]? = some start) (atFinish : points[1]? = some finish)
    (members : ∀ p, p = start ∨ p = finish ∨ p ∈ geometry.vertices polygons → p ∈ points) :
    ∃ steps, Walk (geometry.visibilityGraph polygons points) 0 1 steps
      (geometry.pathDistanceKm l) := by
  obtain ⟨starts, ends, through, visible⟩ := joins
  cases l with
  | nil => cases starts
  | cons a rest =>
    obtain rfl := Option.some.inj starts
    have inside : ∀ p ∈ rest, p ∈ points :=
      fun p member => members p (through p (List.mem_cons_of_mem _ member))
    obtain ⟨j, steps, ⟨b, atJ, last⟩, walk⟩ := (isPositionGraph_visibilityGraph points).walk_of_chain
      geometry.haversineKm_self atStart visible inside .nil
    obtain rfl := Option.some.inj (ends.symm.trans last)
    obtain rfl := position_unique nodup atJ atFinish
    rw [zero_add] at walk
    exact ⟨steps, walk⟩

/-- The points of a walk between the first two points are a chain that joins them. -/
theorem joins_of_walk (atStart : points[0]? = some start) (atFinish : points[1]? = some finish)
    (members : ∀ p ∈ points, p = start ∨ p = finish ∨ p ∈ geometry.vertices polygons)
    {steps : List (ℕ × ℕ)} {total : ℚ}
    (walk : Walk (geometry.visibilityGraph polygons points) 0 1 steps total) :
    let path := (0 :: steps.map Prod.snd).filterMap fun k => points[k]?
    geometry.Joins polygons start finish path ∧ geometry.pathDistanceKm path = total := by
  intro path
  obtain ⟨⟨b, atEnd, last⟩, head, chain, long⟩ :=
    (isPositionGraph_visibilityGraph points).chain_of_walk atStart walk
  obtain rfl := Option.some.inj (atFinish.symm.trans atEnd)
  refine ⟨⟨head, last, fun p member => ?_, chain⟩, long⟩
  obtain ⟨k, -, atK⟩ := List.mem_filterMap.mp member
  exact members p (List.mem_of_getElem? atK)

end Search

variable (geometry) in
/-- The answer between different points: none if an endpoint is inside a polygon or no chain joins
them, else a shortest chain. -/
structure ShortestAround (polygons : List Polygon) (start finish : LatLon) (path : List LatLon) :
    Prop where
  none_iff : path = [] ↔ (geometry.Inside polygons start ∨ geometry.Inside polygons finish) ∨
    ∀ l, ¬ geometry.Joins polygons start finish l
  joins : path ≠ [] → geometry.Joins polygons start finish path
  shortest : path ≠ [] → ∀ l, geometry.Joins polygons start finish l →
    geometry.pathDistanceKm path ≤ geometry.pathDistanceKm l

/-- The direct way is the answer where nothing is in it. -/
theorem shortestAround_direct (visible : geometry.Visible polygons start finish)
    (startOutside : ¬ geometry.Inside polygons start)
    (finishOutside : ¬ geometry.Inside polygons finish) :
    geometry.ShortestAround polygons start finish [start, finish] := by
  have joins : geometry.Joins polygons start finish [start, finish] := by
    refine ⟨rfl, rfl, fun p member => ?_, List.isChain_pair.mpr visible⟩
    simp only [List.mem_cons, List.not_mem_nil, or_false] at member
    exact member.imp_right .inl
  refine ⟨⟨fun empty => absurd empty (List.cons_ne_nil _ _), ?_⟩, fun _ => joins, fun _ l other => ?_⟩
  · rintro ((inside | inside) | none)
    · exact absurd inside startOutside
    · exact absurd inside finishOutside
    · exact absurd joins (none _)
  · obtain ⟨starts, ends, -, -⟩ := other
    cases l with
    | nil => cases starts
    | cons a rest =>
      obtain rfl := Option.some.inj starts
      rw [pathDistanceKm, chainLength_cons_cons, chainLength_singleton, add_zero]
      exact haversineKm_le_chainLength ends

/-- Where the direct way is blocked, the search finds a shortest chain. -/
theorem exists_wayAround (polygons : List Polygon) (apart : start ≠ finish)
    (outside : ¬ (geometry.Inside polygons start ∨ geometry.Inside polygons finish)) :
    let points := geometry.graphPoints polygons start finish
    ∃ path, Fallible.EndsWith (fun fuel =>
      (Search.run (geometry.visibilityGraph polygons points) (some 1) fuel (Search.start 0)).bind
        fun result => match result.best.get? 1 with
          | none => some []
          | some _ => (Search.trace 0 result.predecessor fuel 1 []).map fun (_, steps) =>
            (0 :: steps.map Prod.snd).filterMap fun k => points[k]?) path ∧
      geometry.ShortestAround polygons start finish path := by
  intro points
  obtain ⟨further, listed, nodup, members⟩ : ∃ further, points = _ ∧ _ ∧ _ := graphPoints_spec apart
  rw [← listed] at nodup members
  have atStart : points[0]? = some start := by rw [listed]; rfl
  have atFinish : points[1]? = some finish := by rw [listed]; rfl
  have walks : ∀ l, geometry.Joins polygons start finish l → ∃ steps, _ :=
    fun l joins => joins.walk nodup atStart atFinish fun p => (members p).mpr
  obtain ⟨result, ends, least, none⟩ := exists_searched geometry polygons nodup
    (by rw [listed]; exact Nat.succ_pos _)
  cases best : result.best.get? 1 with
  | none =>
    refine ⟨[], ends.bind ?_, ⟨fun _ => .inr fun l joins => ?_, fun _ => rfl⟩,
      fun found => absurd rfl found, fun found => absurd rfl found⟩
    · simp only [best]
      exact .pure []
    · obtain ⟨steps, walk⟩ := walks l joins
      exact none best steps _ walk
  | some b =>
    obtain ⟨below, steps, walk, traced⟩ := least b best
    obtain ⟨joins, long⟩ := joins_of_walk atStart atFinish (fun p => (members p).mp) walk
    refine ⟨_, ends.bind ?_, ⟨fun empty => ?_, ?_⟩, fun _ => joins, fun _ l other => ?_⟩
    · simp only [best]
      exact traced.map _
    · have starts := joins.starts
      rw [empty] at starts
      cases starts
    · rintro (inside | none)
      · exact absurd inside outside
      · exact absurd joins (none _)
    · obtain ⟨steps', walk'⟩ := walks l other
      rw [long]
      exact below steps' _ walk'

/-- Different points get a shortest chain around the polygons, if there is one. -/
theorem exists_shortestPath (rings : List (List LatLon)) (apart : start ≠ finish) :
    ∃ path, Fallible.EndsWith
      (fun fuel => geometry.shortestPathAroundPolygons fuel start finish rings) path ∧
      geometry.ShortestAround (geometry.obstacles rings) start finish path := by
  by_cases unobstructed : geometry.obstacles rings = []
  · refine ⟨[start, finish], .of_forall fun fuel => by
      rw [shortestPathAroundPolygons, if_pos (.inl unobstructed)], ?_⟩
    rw [unobstructed]
    refine shortestAround_direct ?_ ?_ ?_
    · exact fun polygon member => absurd member List.not_mem_nil
    · exact fun ⟨polygon, member, _⟩ => List.not_mem_nil member
    · exact fun ⟨polygon, member, _⟩ => List.not_mem_nil member
  have looked : ¬ (geometry.obstacles rings = [] ∨ start = finish) :=
    not_or.mpr ⟨unobstructed, apart⟩
  by_cases inside : geometry.Inside (geometry.obstacles rings) start ∨
      geometry.Inside (geometry.obstacles rings) finish
  · exact ⟨[], .of_forall fun fuel => by
      rw [shortestPathAroundPolygons, if_neg looked, if_pos inside],
      ⟨fun _ => .inl inside, fun _ => rfl⟩, fun found => absurd rfl found,
      fun found => absurd rfl found⟩
  by_cases visible : geometry.Visible (geometry.obstacles rings) start finish
  · obtain ⟨startOutside, finishOutside⟩ := not_or.mp inside
    exact ⟨[start, finish], .of_forall fun fuel => by
      rw [shortestPathAroundPolygons, if_neg looked, if_neg inside, if_pos visible],
      shortestAround_direct visible startOutside finishOutside⟩
  obtain ⟨path, ends, shortest⟩ := exists_wayAround (geometry.obstacles rings) apart inside
  refine ⟨path, ends.congr fun fuel => ?_, shortest⟩
  rw [shortestPathAroundPolygons, if_neg looked, if_neg inside, if_neg visible]

section Reroute

variable (geometry) (polygons)

/-- Different points that no chain joins, or one of them inside a polygon. -/
def Blocked (a b : LatLon) : Prop :=
  a ≠ b ∧ ((geometry.Inside polygons a ∨ geometry.Inside polygons b) ∨
    ∀ l, ¬ geometry.Joins polygons a b l)

/-- A step of a path that stays where it is or is visible. -/
def StepVisible (a b : LatLon) : Prop := a ≠ b → geometry.Visible polygons a b

/-- What a segment is replaced by: nothing if it is blocked, else a path between its ends. -/
structure Replaces (a b : LatLon) (path : List LatLon) : Prop where
  nil_iff : path = [] ↔ geometry.Blocked polygons a b
  starts : path ≠ [] → path.head? = some a
  ends : path ≠ [] → path.getLast? = some b
  visible : path.IsChain (geometry.StepVisible polygons)

variable {geometry polygons}

theorem exists_replacement (rings : List (List LatLon)) (a b : LatLon) :
    ∃ path, Fallible.EndsWith (fun fuel => geometry.shortestPathAroundPolygons fuel a b rings) path ∧
      geometry.Replaces (geometry.obstacles rings) a b path := by
  by_cases same : a = b
  · subst same
    refine ⟨[a, a], .of_forall fun fuel => by
      rw [shortestPathAroundPolygons, if_pos (.inr rfl)], ?_, fun _ => rfl, fun _ => rfl, ?_⟩
    · exact ⟨fun empty => absurd empty (List.cons_ne_nil _ _), fun blocked => absurd rfl blocked.1⟩
    · exact List.isChain_pair.mpr fun apart => absurd rfl apart
  · obtain ⟨path, ends, shortest⟩ := exists_shortestPath rings same
    refine ⟨path, ends, ?_, fun some => (shortest.joins some).starts,
      fun some => (shortest.joins some).ends, ?_⟩
    · rw [shortest.none_iff, Blocked, and_iff_right same]
    · by_cases none : path = []
      · rw [none]
        exact List.isChain_nil
      · exact (shortest.joins none).visible.imp fun _ _ visible _ => visible

/-- A path that ends where a replacement starts goes on with it. -/
theorem Replaces.join {a b : LatLon} {rerouted tail : List LatLon}
    (replaces : geometry.Replaces polygons a b (a :: tail)) (last : rerouted.getLast? = some a)
    (chain : rerouted.IsChain (geometry.StepVisible polygons)) :
    (rerouted ++ tail).getLast? = some b ∧
      (rerouted ++ tail).IsChain (geometry.StepVisible polygons) := by
  have ends := replaces.ends (List.cons_ne_nil _ _)
  have visible := replaces.visible
  constructor
  · cases tail with
    | nil =>
      obtain rfl := Option.some.inj ends
      rwa [List.append_nil]
    | cons c tail =>
      rw [List.getLast?_cons_cons] at ends
      rw [List.getLast?_append, ends]
      rfl
  · rw [List.isChain_append]
    refine ⟨chain, visible.tail, fun x atEnd y atStart => ?_⟩
    rw [last] at atEnd
    cases atEnd
    cases tail with
    | nil => cases atStart
    | cons c tail =>
      cases atStart
      exact (List.isChain_cons_cons.mp visible).1

/-- The segments that are left are replaced one after another behind the path so far, until one of
them is blocked. -/
theorem exists_rerouted (rings : List (List LatLon)) {a : LatLon} {rest rerouted : List LatLon}
    (last : rerouted.getLast? = some a)
    (chain : rerouted.IsChain (geometry.StepVisible (geometry.obstacles rings))) :
    ∃ result, Fallible.EndsWith
      (fun fuel => geometry.rerouteSegments fuel rings rerouted ((a :: rest).zip rest)) result ∧
      (result = [] ↔ ∃ step ∈ (a :: rest).zip rest,
        geometry.Blocked (geometry.obstacles rings) step.1 step.2) ∧
      (result ≠ [] → rerouted <+: result ∧ result.getLast? = (a :: rest).getLast? ∧
        result.IsChain (geometry.StepVisible (geometry.obstacles rings))) := by
  induction rest generalizing a rerouted with
  | nil =>
    refine ⟨rerouted, .pure rerouted, ?_, fun _ => ⟨List.prefix_rfl, last, chain⟩⟩
    simp only [List.zip_nil_right, List.not_mem_nil, false_and, exists_false, iff_false]
    rintro rfl
    cases last
  | cons b rest ih =>
    obtain ⟨segment, ends, replaces⟩ : ∃ segment, Fallible.EndsWith
        (fun fuel => geometry.shortestPathAroundPolygons fuel a b rings) segment ∧ _ :=
      exists_replacement rings a b
    rw [List.zip_cons_cons]
    by_cases blocked : segment = []
    · have stuck := replaces.nil_iff.mp blocked
      refine ⟨[], ends.bind ?_, ⟨fun _ => ⟨_, List.mem_cons_self, stuck⟩, fun _ => rfl⟩,
        fun some => absurd rfl some⟩
      simp only [if_pos blocked]
      exact .pure []
    · obtain ⟨tail, rfl⟩ : ∃ tail, segment = a :: tail := by
        cases segment with
        | nil => exact absurd rfl blocked
        | cons first tail =>
          exact ⟨tail, congrArg (· :: tail) (Option.some.inj (replaces.starts blocked))⟩
      obtain ⟨grownLast, grown⟩ := replaces.join last chain
      obtain ⟨result, endsRest, nilIff, path⟩ := ih grownLast grown
      refine ⟨result, ends.bind ?_, ?_, fun some => ?_⟩
      · simp only [if_neg blocked]
        exact endsRest
      · rw [nilIff]
        simp only [List.mem_cons, exists_eq_or_imp]
        rw [or_iff_right fun stuck => blocked (replaces.nil_iff.mpr stuck)]
      · obtain ⟨begins, lastResult, visibleResult⟩ := path some
        rw [List.getLast?_cons_cons]
        exact ⟨(List.prefix_append _ _).trans begins, lastResult, visibleResult⟩

/-- Nothing is in the way where there are no polygons. -/
theorem stepVisible_nil {a b : LatLon} : geometry.StepVisible [] a b :=
  fun _ _ member => absurd member List.not_mem_nil

theorem not_blocked_nil {a b : LatLon} : ¬ geometry.Blocked [] a b := by
  have outside : ∀ p, ¬ geometry.Inside [] p := fun p ⟨_, member, _⟩ => List.not_mem_nil member
  rintro ⟨apart, (inside | inside) | none⟩
  · exact outside a inside
  · exact outside b inside
  · have direct := shortestAround_direct (stepVisible_nil apart) (outside a) (outside b)
    exact none _ (direct.joins (List.cons_ne_nil _ _))

/-- A rerouted path has the ends of the given one and enters no polygon, or is empty because one of
its segments is blocked. -/
theorem exists_reroutePath (path : List LatLon) (rings : List (List LatLon)) :
    ∃ rerouted, Fallible.EndsWith
      (fun fuel => geometry.reroutePathAroundPolygons fuel path rings) rerouted ∧
      (rerouted = [] ↔ path = [] ∨ ∃ step ∈ path.zip path.tail,
        geometry.Blocked (geometry.obstacles rings) step.1 step.2) ∧
      (rerouted ≠ [] → rerouted.head? = path.head? ∧ rerouted.getLast? = path.getLast?) ∧
      rerouted.IsChain (geometry.StepVisible (geometry.obstacles rings)) := by
  cases path with
  | nil => exact ⟨[], .pure [], by simp, fun _ => ⟨rfl, rfl⟩, List.isChain_nil⟩
  | cons a rest =>
    obtain ⟨rerouted, ends, nilIff, kept⟩ : ∃ result, Fallible.EndsWith
        (fun fuel => geometry.rerouteSegments fuel rings [a] ((a :: rest).zip rest)) result ∧
          _ ∧ _ :=
      exists_rerouted rings rfl (List.isChain_singleton a)
    by_cases short : (a :: rest).length < 2 ∨ rings = []
    · have plain : (¬ ∃ step ∈ (a :: rest).zip rest,
          geometry.Blocked (geometry.obstacles rings) step.1 step.2) ∧
          (a :: rest).IsChain (geometry.StepVisible (geometry.obstacles rings)) := by
        rcases short with single | rfl
        · obtain rfl : rest = [] := by
            rw [List.length_cons] at single
            exact List.length_eq_zero_iff.mp (by omega)
          exact ⟨by simp, List.isChain_singleton a⟩
        · refine ⟨fun ⟨step, _, blocked⟩ => not_blocked_nil blocked, ?_⟩
          rw [List.isChain_iff_forall_rel_of_append_cons_cons]
          intro _ _ _ _ _
          exact stepVisible_nil
      refine ⟨a :: rest, .of_forall fun fuel => by rw [reroutePathAroundPolygons, if_pos short], ?_,
        fun _ => ⟨rfl, rfl⟩, plain.2⟩
      rw [List.tail_cons, iff_false_left (List.cons_ne_nil a rest), not_or]
      exact ⟨List.cons_ne_nil a rest, plain.1⟩
    · refine ⟨rerouted, ends.congr fun fuel => ?_, ?_, fun some => ?_, ?_⟩
      · rw [reroutePathAroundPolygons, if_neg short]
        rfl
      · rw [nilIff, List.tail_cons, or_iff_right (List.cons_ne_nil a rest)]
      · obtain ⟨⟨tail, rfl⟩, last, -⟩ := kept some
        exact ⟨rfl, last⟩
      · by_cases none : rerouted = []
        · rw [none]
          exact List.isChain_nil
        · exact (kept none).2.2

end Reroute

/-- Around polygons, different points get a shortest chain if there is one; a point is at itself
whatever the polygons are. A rerouted path crosses no polygon, or is empty because one of its
segments is blocked. -/
theorem paths_around_polygons (geometry : PlanarGeometry Polygon) (rings : List (List LatLon)) :
    (∀ start finish, ∃ path enough, (∀ fuel, enough ≤ fuel →
      geometry.shortestPathAroundPolygons fuel start finish rings = some path) ∧
      (start = finish → path = [start, finish]) ∧
      (start ≠ finish → geometry.ShortestAround (geometry.obstacles rings) start finish path)) ∧
    ∀ path, ∃ rerouted enough, (∀ fuel, enough ≤ fuel →
      geometry.reroutePathAroundPolygons fuel path rings = some rerouted) ∧
      (rerouted = [] ↔ path = [] ∨ ∃ step ∈ path.zip path.tail,
        geometry.Blocked (geometry.obstacles rings) step.1 step.2) ∧
      (rerouted ≠ [] → rerouted.head? = path.head? ∧ rerouted.getLast? = path.getLast?) ∧
      rerouted.IsChain (geometry.StepVisible (geometry.obstacles rings)) := by
  constructor
  · intro start finish
    by_cases same : start = finish
    · exact ⟨[start, finish], 0, fun fuel _ => by
        rw [shortestPathAroundPolygons, if_pos (.inr same)], fun _ => rfl,
        fun apart => absurd same apart⟩
    · obtain ⟨path, ⟨enough, found⟩, shortest⟩ := exists_shortestPath rings same
      exact ⟨path, enough, found, fun equal => absurd equal same, fun _ => shortest⟩
  · intro path
    obtain ⟨rerouted, ⟨enough, found⟩, sound⟩ := exists_reroutePath path rings
    exact ⟨rerouted, enough, found, sound⟩

/-- Boxes between two corners, with the distances of a grid. -/
def gridGeometry : PlanarGeometry (LatLon × LatLon) where
  haversineKm a b := |a.1 - b.1| + |a.2 - b.2|
  haversineKm_self a := by simp
  haversineKm_pos a b apart := by
    by_contra! none
    have first := abs_nonneg (a.1 - b.1)
    have second := abs_nonneg (a.2 - b.2)
    have lat : a.1 - b.1 = 0 := abs_eq_zero.mp (by linarith)
    have lon : a.2 - b.2 = 0 := abs_eq_zero.mp (by linarith)
    exact apart (Prod.ext (sub_eq_zero.mp lat) (sub_eq_zero.mp lon))
  haversineKm_comm a b := by rw [abs_sub_comm a.1, abs_sub_comm a.2]
  haversineKm_triangle a b c := by
    have lat := abs_sub_le a.1 b.1 c.1
    have lon := abs_sub_le a.2 b.2 c.2
    linarith
  repaired ring := (ring.head?.bind fun low => ring[2]?.map fun high => (low, high)).toList
  isEmpty _ := false
  area box := (box.2.1 - box.1.1) * (box.2.2 - box.1.2)
  contains box p := box.1.1 < p.1 ∧ p.1 < box.2.1 ∧ box.1.2 < p.2 ∧ p.2 < box.2.2
  staysOutside a b box := (a.1 ≤ box.1.1 ∧ b.1 ≤ box.1.1) ∨ (box.2.1 ≤ a.1 ∧ box.2.1 ≤ b.1) ∨
    (a.2 ≤ box.1.2 ∧ b.2 ≤ box.1.2) ∨ (box.2.2 ≤ a.2 ∧ box.2.2 ≤ b.2)
  staysOutside_comm a b box := by
    rw [decide_eq_decide]
    tauto
  exterior box := [box.1, (box.1.1, box.2.2), box.2, (box.2.1, box.1.2)]

/-- A point inside a square is at itself, although the square contains it. -/
theorem path_stays_inside : ¬ ∃ path enough, (∀ fuel, enough ≤ fuel →
    gridGeometry.shortestPathAroundPolygons fuel (1, 1) (1, 1) [[(0, 0), (0, 2), (2, 2), (2, 0)]] =
      some path) ∧
    gridGeometry.ShortestAround (gridGeometry.obstacles [[(0, 0), (0, 2), (2, 2), (2, 0)]])
      (1, 1) (1, 1) path := by
  rintro ⟨path, enough, found, shortest⟩
  have same := found enough le_rfl
  rw [shortestPathAroundPolygons, if_pos (.inr rfl)] at same
  obtain rfl := Option.some.inj same
  have inside : gridGeometry.Inside
      (gridGeometry.obstacles [[(0, 0), (0, 2), (2, 2), (2, 0)]]) (1, 1) := by decide +kernel
  exact absurd (shortest.none_iff.mpr (.inl (.inl inside))) (List.cons_ne_nil _ _)

/-- Around the same square, the way from one side to the other follows an edge of it. -/
example : gridGeometry.shortestPathAroundPolygons 20 (-1, 1) (3, 1)
    [[(0, 0), (0, 2), (2, 2), (2, 0)]] = some [(-1, 1), (0, 2), (2, 2), (3, 1)] := by
  decide +kernel

end PlanarGeometry

end FlOp.Core
