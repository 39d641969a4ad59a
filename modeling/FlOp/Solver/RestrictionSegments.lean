import FlOp.Core.Constants
import FlOp.Library.Calendar
import FlOp.Library.Ordering

/-! # Timed route restrictions

A restriction is a polygon with the closed intervals in which it is in force, always if it has
none. How a route avoids polygons is left to the geometry.
-/

namespace FlOp.Solver

open FlOp.Core Library

/-- A polygon and its active epoch intervals; without intervals it is always active. -/
structure RouteRestriction (Polygon : Type) where
  polygon : Polygon
  windows : List (ℤ × ℤ) := []

/-- Duration of an arc, and whether it leaves the declared path. -/
structure ArcRoute where
  seconds : ℕ
  detoured : Bool := false
deriving DecidableEq, Repr

variable {Polygon : Type}

/-- The restriction is in force during some part of a closed interval. -/
def RouteRestriction.ActiveDuring (restriction : RouteRestriction Polygon)
    (startEpoch endEpoch : ℤ) : Prop :=
  restriction.windows = [] ∨
    ∃ window ∈ restriction.windows, startEpoch ≤ window.2 ∧ window.1 ≤ endEpoch

instance (restriction : RouteRestriction Polygon) (startEpoch endEpoch : ℤ) :
    Decidable (restriction.ActiveDuring startEpoch endEpoch) :=
  inferInstanceAs (Decidable (_ ∨ _))

/-- Polygons active during any part of an interval. -/
def activePolygons (restrictions : List (RouteRestriction Polygon)) (startEpoch endEpoch : ℤ) :
    List Polygon :=
  (restrictions.filter fun restriction => restriction.ActiveDuring startEpoch endEpoch).map
    (·.polygon)

/-- Polygons without activation windows. -/
def unconditionalPolygons (restrictions : List (RouteRestriction Polygon)) : List Polygon :=
  (restrictions.filter fun restriction => restriction.windows.isEmpty).map (·.polygon)

/-- A half-open part of the horizon, in seconds from the planning origin, and the polygons in
force throughout it. -/
structure RestrictionSegment (Polygon : Type) where
  startOffsetS : ℤ
  endOffsetS : ℤ
  polygons : List Polygon
deriving DecidableEq

/-- The ends of the horizon and the edges of the windows inside it. -/
def horizonCuts (restrictions : List (RouteRestriction Polygon)) (nowEpoch horizonS : ℤ) :
    Finset ℤ :=
  insert 0 <| insert horizonS <| List.toFinset <|
    ((restrictions.flatMap (·.windows)).flatMap fun window =>
      [window.1 - nowEpoch, window.2 - nowEpoch + 1]).filter fun edge => 0 < edge ∧ edge < horizonS

/-- Cut the horizon at every edge of a window. -/
def horizonRestrictionSegments (restrictions : List (RouteRestriction Polygon))
    (nowEpoch : ℤ) (horizonS : ℤ := routingHorizonS) : List (RestrictionSegment Polygon) :=
  let ordered := sorted (horizonCuts restrictions nowEpoch horizonS)
  (ordered.zip ordered.tail).map fun cut =>
    { startOffsetS := cut.1
      endOffsetS := cut.2
      polygons := activePolygons restrictions (nowEpoch + cut.1) (nowEpoch + cut.1) }

theorem bounds_of_mem_horizonCuts {restrictions : List (RouteRestriction Polygon)}
    {nowEpoch horizonS cut : ℤ} (positive : 0 ≤ horizonS)
    (member : cut ∈ horizonCuts restrictions nowEpoch horizonS) : 0 ≤ cut ∧ cut ≤ horizonS := by
  simp only [horizonCuts, Finset.mem_insert, List.mem_toFinset, List.mem_filter,
    decide_eq_true_eq] at member
  rcases member with rfl | rfl | ⟨-, inside⟩
  · exact ⟨le_rfl, positive⟩
  · exact ⟨positive, le_rfl⟩
  · omega

/-- No edge of a window lies inside a segment. -/
theorem edges_outside_segment {restrictions : List (RouteRestriction Polygon)}
    {nowEpoch horizonS : ℤ} {segment : RestrictionSegment Polygon} (positive : 0 ≤ horizonS)
    (member : segment ∈ horizonRestrictionSegments restrictions nowEpoch horizonS)
    {restriction : RouteRestriction Polygon} (listed : restriction ∈ restrictions)
    {window : ℤ × ℤ} (declared : window ∈ restriction.windows) {edge : ℤ}
    (isEdge : edge = window.1 - nowEpoch ∨ edge = window.2 - nowEpoch + 1) :
    edge ≤ segment.startOffsetS ∨ segment.endOffsetS ≤ edge := by
  obtain ⟨⟨start, stop⟩, neighbours, rfl⟩ := List.mem_map.mp member
  obtain ⟨starts, stops, -, between⟩ := between_of_neighbours (pairwise_sorted _) neighbours
  have startBounds := bounds_of_mem_horizonCuts positive (mem_sorted.mp starts)
  have stopBounds := bounds_of_mem_horizonCuts positive (mem_sorted.mp stops)
  by_cases inside : 0 < edge ∧ edge < horizonS
  · apply between edge
    rw [mem_sorted, horizonCuts, Finset.mem_insert, Finset.mem_insert, List.mem_toFinset,
      List.mem_filter, List.mem_flatMap]
    refine .inr (.inr ⟨⟨window, ?_, ?_⟩, decide_eq_true inside⟩)
    · exact List.mem_flatMap.mpr ⟨restriction, listed, declared⟩
    · rcases isEdge with rfl | rfl
      · exact List.mem_cons_self
      · exact List.mem_cons_of_mem _ List.mem_cons_self
  · dsimp only
    omega

/-- Throughout a segment, the polygons in force are the ones at its start. -/
theorem activePolygons_of_segment {restrictions : List (RouteRestriction Polygon)}
    {nowEpoch horizonS : ℤ} {segment : RestrictionSegment Polygon} (positive : 0 ≤ horizonS)
    (member : segment ∈ horizonRestrictionSegments restrictions nowEpoch horizonS)
    {start finish : ℤ} (ordered : start ≤ finish) (after : segment.startOffsetS ≤ start)
    (before : finish < segment.endOffsetS) :
    activePolygons restrictions (nowEpoch + start) (nowEpoch + finish) = segment.polygons := by
  have polygons : segment.polygons = activePolygons restrictions
      (nowEpoch + segment.startOffsetS) (nowEpoch + segment.startOffsetS) := by
    obtain ⟨cut, -, rfl⟩ := List.mem_map.mp member
    rfl
  rw [polygons, activePolygons, activePolygons]
  congr 1
  apply List.filter_congr
  intro restriction listed
  rw [decide_eq_decide]
  unfold RouteRestriction.ActiveDuring
  apply or_congr_right
  constructor
  · rintro ⟨window, declared, _, _⟩
    have opens := edges_outside_segment positive member listed declared (.inl rfl)
    have closes := edges_outside_segment positive member listed declared (.inr rfl)
    exact ⟨window, declared, by omega, by omega⟩
  · rintro ⟨window, declared, _, _⟩
    have opens := edges_outside_segment positive member listed declared (.inl rfl)
    have closes := edges_outside_segment positive member listed declared (.inr rfl)
    exact ⟨window, declared, by omega, by omega⟩

end FlOp.Solver

/-! # Segments of the restriction horizon

The segments are the pieces between neighbouring cuts. A closed window changes the active set at
its start and one second after its end, and both are cuts wherever they fall inside the horizon.
-/

namespace FlOp.Solver

open FlOp.Core Library

variable {Polygon : Type} {restrictions : List (RouteRestriction Polygon)} {nowEpoch horizonS : ℤ}

/-- The offset lies in the half-open segment. -/
def RestrictionSegment.Contains (segment : RestrictionSegment Polygon) (offset : ℤ) : Prop :=
  segment.startOffsetS ≤ offset ∧ offset < segment.endOffsetS

/-- Nonempty segments, each starting where the one before it ends, from one bound to the other. -/
structure Contiguous (segments : List (RestrictionSegment Polygon)) (low high : ℤ) : Prop where
  starts : segments.head?.map (·.startOffsetS) = some low
  ends : segments.getLast?.map (·.endOffsetS) = some high
  nonempty : ∀ segment ∈ segments, segment.startOffsetS < segment.endOffsetS
  meet : ∀ step ∈ segments.zip segments.tail, step.1.endOffsetS = step.2.startOffsetS

/-- The segment between two cuts. -/
def segmentOf (restrictions : List (RouteRestriction Polygon)) (nowEpoch : ℤ) (cut : ℤ × ℤ) :
    RestrictionSegment Polygon where
  startOffsetS := cut.1
  endOffsetS := cut.2
  polygons := activePolygons restrictions (nowEpoch + cut.1) (nowEpoch + cut.1)

theorem horizonRestrictionSegments_eq (restrictions : List (RouteRestriction Polygon))
    (nowEpoch horizonS : ℤ) : horizonRestrictionSegments restrictions nowEpoch horizonS =
      (pieces (horizonCuts restrictions nowEpoch horizonS)).map (segmentOf restrictions nowEpoch) :=
  rfl

theorem zero_mem_horizonCuts : 0 ∈ horizonCuts restrictions nowEpoch horizonS :=
  Finset.mem_insert_self _ _

theorem horizon_mem_horizonCuts : horizonS ∈ horizonCuts restrictions nowEpoch horizonS :=
  Finset.mem_insert_of_mem (Finset.mem_insert_self _ _)

theorem contiguous_horizonRestrictionSegments (positive : 0 < horizonS) :
    Contiguous (horizonRestrictionSegments restrictions nowEpoch horizonS) 0 horizonS := by
  have bounds : ∀ cut ∈ horizonCuts restrictions nowEpoch horizonS, 0 ≤ cut ∧ cut ≤ horizonS :=
    fun _ member => bounds_of_mem_horizonCuts positive.le member
  obtain ⟨first, last⟩ := ends_of_pieces zero_mem_horizonCuts
    (fun cut member => (bounds cut member).1) horizon_mem_horizonCuts
    (fun cut member => (bounds cut member).2) positive
  rw [horizonRestrictionSegments_eq]
  refine ⟨?_, ?_, ?_, ?_⟩
  · rw [List.head?_map, Option.map_map]
    exact first
  · rw [List.getLast?_map, Option.map_map]
    exact last
  · intro segment member
    obtain ⟨piece, listed, rfl⟩ := List.mem_map.mp member
    exact lt_of_mem_pieces listed
  · intro step member
    rw [← List.map_tail, List.zip_map] at member
    obtain ⟨pair, listed, rfl⟩ := List.mem_map.mp member
    exact contiguous_pieces _ pair listed

/-- Each offset of the horizon is in one segment only. -/
theorem existsUnique_segment (positive : 0 < horizonS) {offset : ℤ} (after : 0 ≤ offset)
    (before : offset < horizonS) :
    ∃! segment, segment ∈ horizonRestrictionSegments restrictions nowEpoch horizonS ∧
      segment.Contains offset := by
  have bounds : ∀ cut ∈ horizonCuts restrictions nowEpoch horizonS, 0 ≤ cut ∧ cut ≤ horizonS :=
    fun _ member => bounds_of_mem_horizonCuts positive.le member
  obtain ⟨piece, listed, holds⟩ := exists_piece zero_mem_horizonCuts
    (fun cut member => (bounds cut member).1) horizon_mem_horizonCuts
    (fun cut member => (bounds cut member).2) after before
  rw [horizonRestrictionSegments_eq]
  refine ⟨segmentOf restrictions nowEpoch piece, ⟨List.mem_map_of_mem listed, holds⟩, ?_⟩
  rintro segment ⟨member, contains⟩
  obtain ⟨other, listed', rfl⟩ := List.mem_map.mp member
  rw [eq_of_holds listed' listed contains holds]

/-- A segment lies within the horizon. -/
theorem within_horizon (positive : 0 < horizonS) {segment : RestrictionSegment Polygon}
    (member : segment ∈ horizonRestrictionSegments restrictions nowEpoch horizonS) {offset : ℤ}
    (contains : segment.Contains offset) : 0 ≤ offset ∧ offset < horizonS := by
  obtain ⟨piece, listed, rfl⟩ := List.mem_map.mp member
  have inside : piece ∈ pieces (horizonCuts restrictions nowEpoch horizonS) := listed
  obtain ⟨starts, stops⟩ := ends_of_mem_pieces inside
  have low := (bounds_of_mem_horizonCuts positive.le starts).1
  have high := (bounds_of_mem_horizonCuts positive.le stops).2
  exact ⟨low.trans contains.1, lt_of_lt_of_le contains.2 high⟩

/-- The segments partition the horizon, and in each of them the polygons are those in force at
every second of it. -/
theorem restriction_segments_exact (restrictions : List (RouteRestriction Polygon))
    (nowEpoch horizonS : ℤ) (positive : 0 < horizonS) :
    let segments := horizonRestrictionSegments restrictions nowEpoch horizonS
    Contiguous segments 0 horizonS ∧
      (∀ offset, 0 ≤ offset → offset < horizonS →
        ∃! segment, segment ∈ segments ∧ segment.Contains offset) ∧
      ∀ segment ∈ segments, ∀ offset, segment.Contains offset →
        (0 ≤ offset ∧ offset < horizonS) ∧ segment.polygons =
          activePolygons restrictions (nowEpoch + offset) (nowEpoch + offset) := by
  refine ⟨contiguous_horizonRestrictionSegments positive, ?_, ?_⟩
  · intro offset after before
    exact existsUnique_segment positive after before
  · intro segment member offset contains
    refine ⟨within_horizon positive member contains, ?_⟩
    exact (activePolygons_of_segment positive.le member le_rfl contains.1 contains.2).symm

/-- A single-second window, one that touches it and one that is open beyond the horizon. -/
theorem restriction_segments_touching :
    ∃! segment, segment ∈ horizonRestrictionSegments
        [⟨"dam", [(103, 103), (104, 105)]⟩, ⟨"ford", [(90, 400)]⟩, ⟨"moor", []⟩] 100 20 ∧
      segment.Contains 5 :=
  (restriction_segments_exact [⟨"dam", [(103, 103), (104, 105)]⟩, ⟨"ford", [(90, 400)]⟩,
    ⟨"moor", []⟩] 100 20 (by decide)).2.1 5 (by decide) (by decide)

end FlOp.Solver
