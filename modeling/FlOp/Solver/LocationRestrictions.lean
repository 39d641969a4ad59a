import FlOp.Library.Dict
import FlOp.Library.Listing
import FlOp.Solver.ChainRun
import FlOp.Solver.FleetModel
import FlOp.Solver.Polygons
import FlOp.Solver.WeatherFilter
import Mathlib

/-! # Location restrictions

A site may prohibit operations, declare windows in which no work starts, and be an area that other
sites reach into. Before clustering, each task is kept out, cut down to the share of its work area
that is left, or passed on. Declaring more never lets a task through and never leaves it more work.
-/

namespace FlOp.Solver

open Canonical FlOp.Core Library

/-! ## Rows -/

/-- A ring of longitudes and latitudes, as `parse_polygon` reads it. -/
abbrev Ring := List Point

/-- A site with what it declares; operations are normalized. -/
structure Site extends SiteRow where
  polygon : Ring := []
  restrictedOperations : List String := []
  restrictionWindows : RawWindows := .missing

def Site.point (site : Site) : Point := (site.lon, site.lat)

/-- A task as the restriction pass reads it. -/
structure FieldOrder extends FleetOrder where
  operationType : String := ""
  revenue : ℚ := 0
  penaltyPerDay : ℚ := 0
  workAreaGeometry : Ring := []
  coveredGeometry : Ring := []

/-- The site of each location; a later row of one id wins. -/
def siteMap (sites : List Site) : Dict String Site := .collect (·.locationId) id sites

/-! ## Areas -/

/-- The polygon library: regions of the plane, a ring's own repaired where it is invalid, and their
areas in degrees and on the sphere. -/
structure PolygonLibrary (Region : Type) where
  polygon : Ring → Region
  unaryUnion : List Region → Region
  intersection : Region → Region → Region
  difference : Region → Region → Region
  isEmpty : Region → Bool
  area : Region → ℚ
  geodesicAreaM2 : Region → ℚ

/-- Regions are compared as elements of a Boolean algebra, such as sets up to their boundaries, and
areas grow with them. -/
structure PolygonLibrary.Lawful {Region α : Type} [BooleanAlgebra α]
    (polygons : PolygonLibrary Region) (extent : Region → α) : Prop where
  unaryUnion : ∀ regions,
    IsLUB {part | ∃ region ∈ regions, part = extent region} (extent (polygons.unaryUnion regions))
  intersection : ∀ a b, extent (polygons.intersection a b) = extent a ⊓ extent b
  difference : ∀ a b, extent (polygons.difference a b) = extent a \ extent b
  empty : ∀ region, polygons.isEmpty region = true → polygons.geodesicAreaM2 region = 0
  nonneg : ∀ region, 0 ≤ polygons.geodesicAreaM2 region
  area_mono : ∀ a b, extent a ≤ extent b → polygons.area a ≤ polygons.area b
  geodesicAreaM2_mono : ∀ a b, extent a ≤ extent b →
    polygons.geodesicAreaM2 a ≤ polygons.geodesicAreaM2 b

namespace PolygonLibrary

variable {Region : Type} (polygons : PolygonLibrary Region)

/-- The regions of the rings that have an inside. -/
def regions (rings : List Ring) : List Region :=
  (rings.filter (3 ≤ ·.length)).map polygons.polygon

def nonEmptyRegions (rings : List Ring) : List Region :=
  (polygons.regions rings).filter fun region => !polygons.isEmpty region

def unrestrictedAreaFraction (sitePolygon : Ring) (restrictedPolygons : List Ring) : ℚ :=
  let site := polygons.polygon sitePolygon
  let total := polygons.area site
  let polys := polygons.regions restrictedPolygons
  if sitePolygon.length < 3 ∨ restrictedPolygons.isEmpty then 1
  else if total ≤ 0 then 1
  else if polys.isEmpty then 1
  else
    let covered := polygons.area (polygons.intersection site (polygons.unaryUnion polys))
    max 0 (min 1 ((total - covered) / total))

def polygonRingsAreaKm2 (rings : List Ring) : ℚ :=
  let polys := polygons.nonEmptyRegions rings
  if polys.isEmpty then 0 else polygons.geodesicAreaM2 (polygons.unaryUnion polys) / 10 ^ 6

/-- What is left of a region without the ones taken from it. -/
def remainder (base : Region) (subs : List Region) : Region :=
  if subs.isEmpty then base else polygons.difference base (polygons.unaryUnion subs)

def polygonDifferenceAreaKm2 (baseRing : Ring) (subtractRings : List Ring) : ℚ :=
  let base := polygons.polygon baseRing
  let left := polygons.remainder base (polygons.nonEmptyRegions subtractRings)
  if baseRing.length < 3 then 0
  else if polygons.isEmpty base ∨ polygons.area base ≤ 0 then 0
  else if polygons.isEmpty left then 0
  else polygons.geodesicAreaM2 left / 10 ^ 6

end PolygonLibrary

/-! ## The pass -/

/-- What the pass is configured with: the share of the work that must be left. -/
structure RestrictionSettings where
  minWorkableAreaFraction : ℚ := 1 / 50

/-- `_restricted_overlap`: the rings of the areas that reach into the site, and the area that a
site without a ring lies in. -/
def restrictedOverlap (order : FieldOrder) (site : Site) : List Site → List Ring × Option String
  | [] => ([], none)
  | area :: rest =>
    let later := restrictedOverlap order site rest
    if area.locationId = site.locationId ∨ order.operationType ∉ area.restrictedOperations ∨
        area.polygon = [] then later
    else if site.polygon = [] then
      if pointInPolygon pointTolerance site.point area.polygon then ([], some area.locationId)
      else later
    else if polygonsIntersect pointTolerance site.polygon area.polygon then
      (area.polygon :: later.1, later.2)
    else later

/-- The work area of an order, that of its site where it has none of its own. -/
def FieldOrder.workRing (order : FieldOrder) (site : Site) : Ring :=
  if 3 ≤ order.workAreaGeometry.length then order.workAreaGeometry else site.polygon

def FieldOrder.coveredRings (order : FieldOrder) : List Ring :=
  if 3 ≤ order.coveredGeometry.length then [order.coveredGeometry] else []

/-- Of the work not done yet the share that is not restricted, and of the whole work area the share
that is left to do. -/
def residualClipFractions {Region : Type} (polygons : PolygonLibrary Region) (order : FieldOrder)
    (site : Site) (overlapping : List Ring) : ℚ × ℚ :=
  let workRing := order.workRing site
  let workArea := polygons.polygonRingsAreaKm2 [workRing]
  let uncoveredArea := polygons.polygonDifferenceAreaKm2 workRing order.coveredRings
  let residualArea :=
    polygons.polygonDifferenceAreaKm2 workRing (overlapping ++ order.coveredRings)
  -- An order without any geometry of its own is judged by its site in plain degrees.
  if order.workAreaGeometry.length < 3 ∧ order.coveredGeometry.length < 3 then
    let fraction := polygons.unrestrictedAreaFraction site.polygon overlapping
    (fraction, fraction)
  else if workRing.length < 3 then (1, 1)
  else if workArea ≤ 0 then (1, 1)
  else
    let restrictionFraction := if 0 < uncoveredArea then residualArea / uncoveredArea else 0
    (min 1 restrictionFraction, max 0 (min 1 (residualArea / workArea)))

/-- The work quantity counts area. -/
def FieldOrder.areaLike (order : FieldOrder) : Bool :=
  String.ofList ((strip order.workQuantityUnit.toList).map Char.toLower) ∈ ["", "ha"]

def clipOrderToAreaFraction (order : FieldOrder) (fraction : ℚ) : FieldOrder :=
  { order with
    area := roundTo 6 (order.area * fraction)
    workQuantity :=
      if 0 < order.workQuantity ∧ order.areaLike then roundTo 6 (order.workQuantity * fraction)
      else order.workQuantity
    revenue := roundTo 6 (order.revenue * fraction) }

/-- The order as it is passed on with a share of its work. -/
def FieldOrder.withShare (order : FieldOrder) (share : ℚ) : FieldOrder :=
  if share < 1 then clipOrderToAreaFraction order share else order

/-- What the pass reads beside the rows. -/
structure RestrictionPass (Region : Type) where
  polygons : PolygonLibrary Region
  reader : WindowReader
  settings : RestrictionSettings := {}
  now : Instant

namespace RestrictionPass

variable {Region : Type} (pass : RestrictionPass Region)

def nowEpoch : ℤ := pass.now.truncated

def deadlineEpoch (order : FieldOrder) : ℤ :=
  (pass.reader.fromIsoformat order.deadline).elim (pass.nowEpoch + routingHorizonS)
    Instant.truncated

/-- The shares left to an order by the areas that reach into its site and by its covered ground. -/
def shares (order : FieldOrder) (site : Site) (overlapping : List Ring) : Option (ℚ × ℚ) :=
  if overlapping ≠ [] ∨ 3 ≤ order.coveredGeometry.length then
    some (residualClipFractions pass.polygons order site overlapping)
  else none

/-- What the pass makes of an order: the share of its work that is passed on, or why it is kept
out. -/
def verdict (sites : List Site) (order : FieldOrder) : Except String ℚ :=
  match (siteMap sites).get? order.locationRef with
  | none => .ok 1
  | some site =>
    let overlap := restrictedOverlap order site sites
    let shares := (pass.shares order site overlap.1).getD (1, 1)
    if order.operationType ∈ site.restrictedOperations then
      .error ("operation " ++ order.operationType ++ " prohibited at " ++ order.locationRef)
    else match overlap.2 with
    | some area =>
      .error ("operation " ++ order.operationType ++ " at " ++ order.locationRef ++
        " intersects restricted area " ++ area)
    | none =>
      if (pass.shares order site overlap.1).isSome ∧
          shares.1 ≤ pass.settings.minWorkableAreaFraction then
        .error ("operation " ++ order.operationType ++ " at " ++ order.locationRef ++
          " restricted over " ++ toString (roundHalfEven ((1 - shares.1) * 100)) ++
          "% of the uncovered work area")
      else if pass.reader.allowedStartIntervals order.timeWindows (some site.restrictionWindows)
          pass.nowEpoch (pass.deadlineEpoch order) = [] then
        .error ("restriction windows at " ++ order.locationRef ++
          " block every admissible start before the deadline")
      else .ok shares.2

/-- The orders passed on, and the records of the others. -/
def applyLocationRestrictions (orders : List FieldOrder) (sites : List Site) :
    List FieldOrder × List InfeasibleRecord :=
  (orders.filterMap fun order =>
      match pass.verdict sites order with
      | .ok share => some (order.withShare share)
      | .error _ => none,
    orders.filterMap fun order =>
      match pass.verdict sites order with
      | .ok _ => none
      | .error detail =>
        some { taskId := order.taskId, reasonCode := .restrictedZone, detail := detail })

end RestrictionPass

/-! ## The pass in the chain -/

/-- The row of an order in the later stages. -/
def FieldOrder.toOrderRow (reader : WindowReader) (order : FieldOrder) : OrderRow where
  toTaskRow := order.toTaskRow
  locationRef := order.locationRef
  operationType := order.operationType
  area := order.area
  workQuantity := order.workQuantity
  workQuantityUnit := order.workQuantityUnit
  timeWindows := reader.parseTimeWindows order.timeWindows
  deadline := reader.fromIsoformat order.deadline
  pickupLocationRef := order.pickupLocationRef
  penaltyPerDay := order.penaltyPerDay

theorem toOrderRow_withShare (reader : WindowReader) (order : FieldOrder) (share : ℚ) :
    (order.withShare share).toOrderRow reader =
      { order.toOrderRow reader with
        area := (order.withShare share).area
        workQuantity := (order.withShare share).workQuantity } := by
  simp only [FieldOrder.withShare]
  split_ifs <;> rfl

/-- The screen of the chain is this pass, where it decides as the pass does. -/
theorem screen_eq_applyLocationRestrictions {Region : Type} (pass : RestrictionPass Region)
    (sites : List Site) {verdict : OrderRow → Except String OrderWork} {orders : List FieldOrder}
    (agrees : ∀ order ∈ orders, verdict (order.toOrderRow pass.reader) =
      (pass.verdict sites order).map fun share =>
        ((order.withShare share).area, (order.withShare share).workQuantity)) :
    screen .restrictedZone verdict (orders.map (·.toOrderRow pass.reader)) =
      ((pass.applyLocationRestrictions orders sites).1.map (·.toOrderRow pass.reader),
        (pass.applyLocationRestrictions orders sites).2) := by
  rw [screen, RestrictionPass.applyLocationRestrictions, List.filterMap_map, List.filterMap_map,
    List.map_filterMap]
  refine Prod.ext (List.filterMap_congr fun order listed => ?_)
    (List.filterMap_congr fun order listed => ?_)
  · rw [Function.comp_apply, agrees order listed]
    cases pass.verdict sites order with
    | error detail => rfl
    | ok share => exact congrArg some (toOrderRow_withShare pass.reader order share).symm
  · rw [Function.comp_apply, agrees order listed]
    cases pass.verdict sites order <;> rfl

/-! ## Tighter declarations -/

/-- A row of the same site that declares at least as much. -/
structure Site.Restricts (reader : WindowReader) (site tighter : Site) : Prop where
  locationId : tighter.locationId = site.locationId
  point : tighter.point = site.point
  polygon : tighter.polygon = site.polygon
  operations : ∀ op ∈ site.restrictedOperations, op ∈ tighter.restrictedOperations
  windows : ∀ window ∈ reader.parseTimeWindows site.restrictionWindows, ∀ t, window.Holds t →
    ∃ other ∈ reader.parseTimeWindows tighter.restrictionWindows, other.Holds t

theorem Site.Restricts.refl (reader : WindowReader) (site : Site) : site.Restricts reader site where
  locationId := rfl
  point := rfl
  polygon := rfl
  operations _ listed := listed
  windows window declared _ holds := ⟨window, declared, holds⟩

/-- Sites among which every declaration is kept or tightened. -/
structure Tightens (reader : WindowReader) (sites tighter : List Site) : Prop where
  areas : ∀ site ∈ sites, ∃ other ∈ tighter, site.Restricts reader other
  located : ∀ id site, (siteMap sites).get? id = some site →
    ∃ other, (siteMap tighter).get? id = some other ∧ site.Restricts reader other

/-- Areas under ids of their own only add to what is declared. -/
theorem tightens_append (reader : WindowReader) {sites added : List Site}
    (fresh : ∀ area ∈ added, ∀ site ∈ sites, area.locationId ≠ site.locationId) :
    Tightens reader sites (sites ++ added) where
  areas site listed := ⟨site, List.mem_append_left _ listed, .refl reader site⟩
  located key site found := by
    obtain ⟨listed, member, same, rfl⟩ := Dict.exists_of_get?_collect found
    refine ⟨_, ?_, .refl reader _⟩
    have others : (added.reverse.find? fun area => area.locationId = key) = none :=
      List.find?_eq_none.mpr fun area new equal =>
        fresh area (List.mem_reverse.mp new) listed member
          ((of_decide_eq_true equal).trans same.symm)
    rw [siteMap, Dict.get?_collect, List.reverse_append, List.find?_append, others,
      Option.none_or, ← Dict.get?_collect]
    exact found

/-! ## Overlaps -/

/-- The area restricts the order's operation on other sites. -/
def Site.ReachesOut (area : Site) (order : FieldOrder) (site : Site) : Prop :=
  area.locationId ≠ site.locationId ∧ order.operationType ∈ area.restrictedOperations ∧
    area.polygon ≠ []

section Overlaps

variable {order : FieldOrder} {site : Site} {sites : List Site}

theorem not_reachesOut_iff {area : Site} : ¬ area.ReachesOut order site ↔
    area.locationId = site.locationId ∨ order.operationType ∉ area.restrictedOperations ∨
      area.polygon = [] := by
  rw [Site.ReachesOut]
  tauto

theorem mem_restrictedOverlap {ring : Ring} : ring ∈ (restrictedOverlap order site sites).1 ↔
    site.polygon ≠ [] ∧ ∃ area ∈ sites, area.ReachesOut order site ∧
      polygonsIntersect pointTolerance site.polygon area.polygon = true ∧ area.polygon = ring := by
  induction sites with
  | nil => simp [restrictedOverlap]
  | cons area rest ih =>
    simp only [restrictedOverlap, List.mem_cons, exists_eq_or_imp]
    split_ifs with silent bare inside meets
    · simp [ih, not_reachesOut_iff.mpr silent]
    · simp [bare]
    · simp [ih, bare]
    · have reaches := not_not.mp (mt not_reachesOut_iff.mp silent)
      rw [List.mem_cons, ih, eq_comm (a := ring)]
      simp [bare, reaches, meets]
    · simp [ih, meets]

/-- A site without a ring is kept out by an area that holds its point. -/
theorem isSome_restrictedOverlap : (restrictedOverlap order site sites).2.isSome ↔
    site.polygon = [] ∧ ∃ area ∈ sites, area.ReachesOut order site ∧
      pointInPolygon pointTolerance site.point area.polygon = true := by
  induction sites with
  | nil => simp [restrictedOverlap]
  | cons area rest ih =>
    simp only [restrictedOverlap, List.mem_cons, exists_eq_or_imp]
    split_ifs with silent bare inside meets
    · simp [ih, not_reachesOut_iff.mpr silent]
    · have reaches := not_not.mp (mt not_reachesOut_iff.mp silent)
      simp [bare, reaches, inside]
    · simp [ih, inside]
    · simp [ih, bare]
    · simp [ih, bare]

variable {reader : WindowReader} {tighter : List Site} {other : Site}

theorem Site.ReachesOut.of_restricts {area wider : Site} (reaches : area.ReachesOut order site)
    (areas : area.Restricts reader wider) (restricts : site.Restricts reader other) :
    wider.ReachesOut order other := by
  obtain ⟨apart, prohibited, shaped⟩ := reaches
  refine ⟨?_, areas.operations _ prohibited, areas.polygon ▸ shaped⟩
  rw [areas.locationId, restricts.locationId]
  exact apart

/-- What reaches into a site still does when declarations are tightened. -/
theorem restrictedOverlap_subset (tightens : Tightens reader sites tighter)
    (restricts : site.Restricts reader other) :
    (restrictedOverlap order site sites).1 ⊆ (restrictedOverlap order other tighter).1 := by
  intro ring overlapping
  obtain ⟨shaped, area, listed, reaches, meets, rfl⟩ := mem_restrictedOverlap.mp overlapping
  obtain ⟨wider, kept, areas⟩ := tightens.areas area listed
  refine mem_restrictedOverlap.mpr ⟨restricts.polygon ▸ shaped, wider, kept,
    reaches.of_restricts areas restricts, ?_, areas.polygon⟩
  rw [restricts.polygon, areas.polygon]
  exact meets

theorem isSome_restrictedOverlap_of_tightens (tightens : Tightens reader sites tighter)
    (restricts : site.Restricts reader other)
    (blocked : (restrictedOverlap order site sites).2.isSome) :
    (restrictedOverlap order other tighter).2.isSome := by
  obtain ⟨bare, area, listed, reaches, inside⟩ := isSome_restrictedOverlap.mp blocked
  obtain ⟨wider, kept, areas⟩ := tightens.areas area listed
  refine isSome_restrictedOverlap.mpr ⟨restricts.polygon.trans bare, wider, kept,
    reaches.of_restricts areas restricts, ?_⟩
  rw [restricts.point, areas.polygon]
  exact inside

end Overlaps

/-! ## Shares -/

namespace PolygonLibrary

variable {Region α : Type} [BooleanAlgebra α] {polygons : PolygonLibrary Region}
  {extent : Region → α}

theorem regions_subset {rings more : List Ring} (subset : rings ⊆ more) :
    polygons.regions rings ⊆ polygons.regions more :=
  List.map_subset _ (List.filter_subset _ subset)

theorem nonEmptyRegions_subset {rings more : List Ring} (subset : rings ⊆ more) :
    polygons.nonEmptyRegions rings ⊆ polygons.nonEmptyRegions more :=
  List.filter_subset _ (regions_subset subset)

theorem unrestrictedAreaFraction_le_one (site : Ring) (rings : List Ring) :
    polygons.unrestrictedAreaFraction site rings ≤ 1 := by
  simp only [unrestrictedAreaFraction]
  split_ifs
  · exact le_rfl
  · exact le_rfl
  · exact le_rfl
  · exact max_le zero_le_one (min_le_left _ _)

namespace Lawful

variable (lawful : polygons.Lawful extent)
include lawful

theorem extent_unaryUnion_mono {regions more : List Region} (subset : regions ⊆ more) :
    extent (polygons.unaryUnion regions) ≤ extent (polygons.unaryUnion more) := by
  refine (lawful.unaryUnion regions).2 ?_
  rintro _ ⟨region, listed, rfl⟩
  exact (lawful.unaryUnion more).1 ⟨region, subset listed, rfl⟩

theorem extent_remainder_le (base : Region) {subs more : List Region} (subset : subs ⊆ more) :
    extent (polygons.remainder base more) ≤ extent (polygons.remainder base subs) := by
  simp only [remainder, List.isEmpty_iff]
  split_ifs with none nothing nothing
  · exact le_rfl
  · exact absurd (List.subset_nil.mp (none ▸ subset)) nothing
  · rw [lawful.difference]
    exact sdiff_le
  · rw [lawful.difference, lawful.difference]
    exact sdiff_le_sdiff_left (lawful.extent_unaryUnion_mono subset)

/-- Taking more rings away leaves no more area. -/
theorem polygonDifferenceAreaKm2_antitone (base : Ring) {rings more : List Ring}
    (subset : rings ⊆ more) :
    polygons.polygonDifferenceAreaKm2 base more ≤ polygons.polygonDifferenceAreaKm2 base rings := by
  have wider : polygons.nonEmptyRegions rings ⊆ polygons.nonEmptyRegions more :=
    nonEmptyRegions_subset subset
  have smaller := lawful.geodesicAreaM2_mono _ _
    (lawful.extent_remainder_le (polygons.polygon base) wider)
  have nonneg := lawful.nonneg
    (polygons.remainder (polygons.polygon base) (polygons.nonEmptyRegions rings))
  simp only [polygonDifferenceAreaKm2]
  split_ifs with short flat gone left left
  · exact le_rfl
  · exact le_rfl
  · exact le_rfl
  · positivity
  · rw [lawful.empty _ left] at smaller
    have none : polygons.geodesicAreaM2 (polygons.remainder (polygons.polygon base)
      (polygons.nonEmptyRegions more)) / 10 ^ 6 ≤ 0 / 10 ^ 6 := by gcongr
    simpa using none
  · gcongr

/-- More restricted rings leave no larger share of a site. -/
theorem unrestrictedAreaFraction_antitone (site : Ring) {rings more : List Ring}
    (subset : rings ⊆ more) :
    polygons.unrestrictedAreaFraction site more ≤ polygons.unrestrictedAreaFraction site rings := by
  have wider : polygons.regions rings ⊆ polygons.regions more := regions_subset subset
  have covered := lawful.area_mono
    (polygons.intersection (polygons.polygon site) (polygons.unaryUnion (polygons.regions rings)))
    (polygons.intersection (polygons.polygon site) (polygons.unaryUnion (polygons.regions more)))
    (by
      rw [lawful.intersection, lawful.intersection]
      exact inf_le_inf_left _ (lawful.extent_unaryUnion_mono wider))
  by_cases free : rings = [] ∨ polygons.regions rings = []
  · refine (unrestrictedAreaFraction_le_one site more).trans_eq ?_
    simp only [unrestrictedAreaFraction]
    split_ifs <;> simp_all
  · have restricted : rings ≠ [] := fun none => free (.inl none)
    have restrictedMore : more ≠ [] := fun none => restricted (List.subset_nil.mp (none ▸ subset))
    have shaped : polygons.regions rings ≠ [] := fun none => free (.inr none)
    have shapedMore : polygons.regions more ≠ [] := fun none =>
      shaped (List.subset_nil.mp (none ▸ wider))
    simp only [unrestrictedAreaFraction, List.isEmpty_iff, restricted, restrictedMore, shaped,
      shapedMore, or_false, if_false]
    split_ifs with short flat
    · exact le_rfl
    · exact le_rfl
    · have positive : 0 < polygons.area (polygons.polygon site) := not_le.mp flat
      gcongr

/-- More overlapping rings leave an order no larger shares. -/
theorem residualClipFractions_antitone (order : FieldOrder) (site : Site) {rings more : List Ring}
    (subset : rings ⊆ more) :
    (residualClipFractions polygons order site more).1 ≤
        (residualClipFractions polygons order site rings).1 ∧
      (residualClipFractions polygons order site more).2 ≤
        (residualClipFractions polygons order site rings).2 := by
  have planar := lawful.unrestrictedAreaFraction_antitone site.polygon subset
  have residual := lawful.polygonDifferenceAreaKm2_antitone (order.workRing site)
    (List.append_subset.mpr ⟨List.subset_append_of_subset_left order.coveredRings subset,
      List.subset_append_right _ _⟩)
  simp only [residualClipFractions]
  split_ifs with whole short flat uncovered
  · exact ⟨planar, planar⟩
  · exact ⟨le_rfl, le_rfl⟩
  · exact ⟨le_rfl, le_rfl⟩
  · have measured := not_le.mp flat
    refine ⟨?_, ?_⟩ <;> dsimp only <;> gcongr
  · have measured := not_le.mp flat
    refine ⟨le_rfl, ?_⟩
    dsimp only
    gcongr

end Lawful

theorem residualClipFractions_le_one (order : FieldOrder) (site : Site) (rings : List Ring) :
    (residualClipFractions polygons order site rings).2 ≤ 1 := by
  simp only [residualClipFractions]
  split_ifs
  · exact unrestrictedAreaFraction_le_one _ _
  · exact le_rfl
  · exact le_rfl
  all_goals exact max_le zero_le_one (min_le_left _ _)

theorem residualClipFractions_nonneg (order : FieldOrder) (site : Site) (rings : List Ring) :
    0 ≤ (residualClipFractions polygons order site rings).2 := by
  simp only [residualClipFractions, unrestrictedAreaFraction]
  split_ifs
  all_goals first | exact zero_le_one | exact le_max_left _ _

end PolygonLibrary

/-! ## The verdict -/

namespace RestrictionPass

variable {Region : Type} {pass : RestrictionPass Region}

/-- An order at a known site is passed on if its operation is allowed there, no area holds its
point, enough of its work is left and some start is admissible. -/
structure Admits (pass : RestrictionPass Region) (sites : List Site) (order : FieldOrder)
    (site : Site) : Prop where
  allowed : order.operationType ∉ site.restrictedOperations
  outside : (restrictedOverlap order site sites).2 = none
  workable : ∀ shares ∈ pass.shares order site (restrictedOverlap order site sites).1,
    pass.settings.minWorkableAreaFraction < shares.1
  startable : ∃ t, pass.reader.AdmissibleStart order.timeWindows (some site.restrictionWindows)
    pass.nowEpoch (pass.deadlineEpoch order) t

theorem admits_iff {sites : List Site} {order : FieldOrder} {site : Site} :
    pass.Admits sites order site ↔ order.operationType ∉ site.restrictedOperations ∧
      (restrictedOverlap order site sites).2 = none ∧
      (∀ shares ∈ pass.shares order site (restrictedOverlap order site sites).1,
        pass.settings.minWorkableAreaFraction < shares.1) ∧
      ∃ t, pass.reader.AdmissibleStart order.timeWindows (some site.restrictionWindows)
        pass.nowEpoch (pass.deadlineEpoch order) t :=
  ⟨fun admits => ⟨admits.allowed, admits.outside, admits.workable, admits.startable⟩,
    fun ⟨allowed, outside, workable, startable⟩ => ⟨allowed, outside, workable, startable⟩⟩

/-- The share of the work that is left at a site. -/
def shareAt (pass : RestrictionPass Region) (sites : List Site) (order : FieldOrder)
    (site : Site) : ℚ :=
  ((pass.shares order site (restrictedOverlap order site sites).1).map Prod.snd).getD 1

theorem allowedStartIntervals_eq_nil_iff {reader : WindowReader} {timeWindows : RawWindows}
    {restrictionWindows : Option RawWindows} {nowEpoch deadlineEpoch : ℤ} :
    reader.allowedStartIntervals timeWindows restrictionWindows nowEpoch deadlineEpoch = [] ↔
      ¬ ∃ t, reader.AdmissibleStart timeWindows restrictionWindows nowEpoch deadlineEpoch t := by
  have normal : NormalForm (reader.allowedStartIntervals timeWindows restrictionWindows nowEpoch
      deadlineEpoch) := normalForm_subtractIntervals _ _
  rw [normal.eq_nil_iff, not_exists]
  exact forall_congr' fun t => not_congr (reader.inIntervals_allowedStartIntervals ..)

theorem verdict_ok_iff {sites : List Site} {order : FieldOrder} {share : ℚ} :
    pass.verdict sites order = .ok share ↔
      match (siteMap sites).get? order.locationRef with
      | none => share = 1
      | some site => pass.Admits sites order site ∧ share = pass.shareAt sites order site := by
  rw [verdict]
  cases found : (siteMap sites).get? order.locationRef with
  | none => simp [eq_comm]
  | some site =>
    dsimp only
    rw [admits_iff, shareAt]
    by_cases prohibited : order.operationType ∈ site.restrictedOperations
    · simp [prohibited]
    cases outside : (restrictedOverlap order site sites).2 with
    | some area => simp [prohibited]
    | none =>
      cases left : pass.shares order site (restrictedOverlap order site sites).1 with
      | none =>
        by_cases startable : ∃ t, pass.reader.AdmissibleStart order.timeWindows
          (some site.restrictionWindows) pass.nowEpoch (pass.deadlineEpoch order) t
        · simp [prohibited, allowedStartIntervals_eq_nil_iff, startable, eq_comm (a := share)]
        · simp [prohibited, allowedStartIntervals_eq_nil_iff, startable]
      | some shares =>
        by_cases worn : shares.1 ≤ pass.settings.minWorkableAreaFraction
        · simp [prohibited, worn]
        by_cases startable : ∃ t, pass.reader.AdmissibleStart order.timeWindows
          (some site.restrictionWindows) pass.nowEpoch (pass.deadlineEpoch order) t
        · simp [prohibited, worn, not_le.mp worn, allowedStartIntervals_eq_nil_iff, startable,
            eq_comm (a := share)]
        · simp [prohibited, worn, allowedStartIntervals_eq_nil_iff, startable]

theorem shareAt_le_one (sites : List Site) (order : FieldOrder) (site : Site) :
    pass.shareAt sites order site ≤ 1 := by
  rw [shareAt, shares]
  split_ifs
  · exact PolygonLibrary.residualClipFractions_le_one _ _ _
  · exact le_rfl

theorem shareAt_nonneg (sites : List Site) (order : FieldOrder) (site : Site) :
    0 ≤ pass.shareAt sites order site := by
  rw [shareAt, shares]
  split_ifs
  · exact PolygonLibrary.residualClipFractions_nonneg _ _ _
  · exact zero_le_one

theorem verdict_nonneg {sites : List Site} {order : FieldOrder} {share : ℚ}
    (passed : pass.verdict sites order = .ok share) : 0 ≤ share := by
  rw [verdict_ok_iff] at passed
  cases found : (siteMap sites).get? order.locationRef with
  | none =>
    rw [found] at passed
    exact zero_le_one.trans_eq passed.symm
  | some site =>
    rw [found] at passed
    exact (shareAt_nonneg _ _ _).trans_eq passed.2.symm

section Tightening

variable {α : Type} [BooleanAlgebra α] {extent : Region → α}
  (lawful : pass.polygons.Lawful extent) {sites tighter : List Site}
  (tightens : Tightens pass.reader sites tighter)
include lawful tightens

/-- Where shares are left under tighter declarations, there were at least as large ones, or none of
the work was in question. -/
theorem shares_of_tightens {site other : Site} (order : FieldOrder)
    (restricts : site.Restricts pass.reader other) :
    ∀ before ∈ pass.shares order site (restrictedOverlap order site sites).1,
      ∃ after ∈ pass.shares order other (restrictedOverlap order other tighter).1,
        after.1 ≤ before.1 ∧ after.2 ≤ before.2 := by
  have subset : (restrictedOverlap order site sites).1 ⊆
      (restrictedOverlap order other tighter).1 := restrictedOverlap_subset tightens restricts
  have sameRing : order.workRing other = order.workRing site := by
    rw [FieldOrder.workRing, FieldOrder.workRing, restricts.polygon]
  have sameSite (rings : List Ring) : residualClipFractions pass.polygons order other rings =
      residualClipFractions pass.polygons order site rings := by
    rw [residualClipFractions, residualClipFractions, sameRing, restricts.polygon]
  intro before given
  rw [shares, Option.mem_def, Option.ite_none_right_eq_some] at given
  obtain ⟨touched, left⟩ := given
  obtain rfl := Option.some.inj left
  have touchedToo : (restrictedOverlap order other tighter).1 ≠ [] ∨
      3 ≤ order.coveredGeometry.length :=
    touched.imp_left fun some none => some (List.subset_nil.mp (none ▸ subset))
  refine ⟨_, by rw [shares, if_pos touchedToo]; rfl, ?_⟩
  rw [sameSite]
  exact lawful.residualClipFractions_antitone order site subset

/-- What tighter sites admit, the sites admit, and with at least as much work. -/
theorem admits_of_tightens {order : FieldOrder} {site other : Site}
    (restricts : site.Restricts pass.reader other) (admits : pass.Admits tighter order other) :
    pass.Admits sites order site ∧
      pass.shareAt tighter order other ≤ pass.shareAt sites order site := by
  have compared := shares_of_tightens lawful tightens order restricts
  refine ⟨⟨?_, ?_, ?_, ?_⟩, ?_⟩
  · exact fun prohibited => admits.allowed (restricts.operations _ prohibited)
  · refine Option.not_isSome_iff_eq_none.mp fun blocked => ?_
    have blockedToo := isSome_restrictedOverlap_of_tightens tightens restricts blocked
    rw [admits.outside] at blockedToo
    cases blockedToo
  · intro before given
    obtain ⟨after, left, smaller, -⟩ := compared before given
    exact (admits.workable after left).trans_le smaller
  · obtain ⟨t, inTime, workable, unrestricted⟩ := admits.startable
    refine ⟨t, inTime, workable, ?_⟩
    rintro _ ⟨rfl⟩ window declared holds
    obtain ⟨stricter, declaredToo, holdsToo⟩ := restricts.windows window declared t holds
    exact unrestricted _ rfl stricter declaredToo holdsToo
  · cases given : pass.shares order site (restrictedOverlap order site sites).1 with
    | none =>
      have whole : pass.shareAt sites order site = 1 := by rw [shareAt, given]; rfl
      exact (shareAt_le_one _ _ _).trans_eq whole.symm
    | some before =>
      obtain ⟨after, left, -, smaller⟩ := compared before given
      rw [shareAt, shareAt, given, left]
      exact smaller

/-- An order that is passed on under tighter declarations is passed on without them, with at least
as much work. -/
theorem verdict_of_tightens {order : FieldOrder} {share : ℚ}
    (passed : pass.verdict tighter order = .ok share) :
    ∃ wider, pass.verdict sites order = .ok wider ∧ share ≤ wider := by
  simp only [verdict_ok_iff] at passed ⊢
  cases found : (siteMap sites).get? order.locationRef with
  | none =>
    refine ⟨1, rfl, ?_⟩
    cases foundToo : (siteMap tighter).get? order.locationRef with
    | none =>
      rw [foundToo] at passed
      exact passed.le
    | some other =>
      rw [foundToo] at passed
      exact passed.2.trans_le (shareAt_le_one _ _ _)
  | some site =>
    obtain ⟨other, foundToo, restricts⟩ := tightens.located _ _ found
    rw [foundToo] at passed
    obtain ⟨admits, rfl⟩ := passed
    obtain ⟨admitted, less⟩ := admits_of_tightens lawful tightens restricts admits
    exact ⟨_, ⟨admitted, rfl⟩, less⟩

end Tightening

end RestrictionPass

/-! ## Less work -/

/-- The same order with no more work than another, which may have been cut down already; amounts are
compared as the pass rounds them. -/
structure LessWork (a b : FieldOrder) : Prop where
  rest : a = { b with area := a.area, workQuantity := a.workQuantity, revenue := a.revenue }
  area : 0 ≤ b.area → roundTo 6 a.area ≤ roundTo 6 b.area
  workQuantity : 0 ≤ b.workQuantity → roundTo 6 a.workQuantity ≤ roundTo 6 b.workQuantity
  revenue : 0 ≤ b.revenue → roundTo 6 a.revenue ≤ roundTo 6 b.revenue

/-- An amount as it is passed on with a share. -/
def sharedAmount (share amount : ℚ) : ℚ :=
  if share < 1 then roundTo 6 (amount * share) else amount

theorem roundTo_sharedAmount_le {share wider amount : ℚ} (nonneg : 0 ≤ share)
    (less : share ≤ wider) (left : 0 ≤ sharedAmount wider amount) :
    roundTo 6 (sharedAmount share amount) ≤ roundTo 6 (sharedAmount wider amount) := by
  rcases le_or_gt 0 amount with some | negative
  · have scaled : amount * share ≤ amount * wider := mul_le_mul_of_nonneg_left less some
    simp only [sharedAmount]
    split_ifs with cut cutToo cutToo
    · rw [roundTo_roundTo, roundTo_roundTo]
      exact roundTo_mono 6 scaled
    · rw [roundTo_roundTo]
      exact roundTo_mono 6 (mul_le_of_le_one_right some cut.le)
    · exact absurd (less.trans_lt cutToo) cut
    · exact le_rfl
  · refine roundTo_mono 6 (le_trans ?_ left)
    rw [sharedAmount]
    split_ifs with cut
    · have rounded := roundTo_mono 6 (mul_nonpos_of_nonpos_of_nonneg negative.le nonneg)
      exact rounded.trans_eq (by simp [roundTo, roundHalfEven])
    · exact negative.le

namespace FieldOrder

variable (order : FieldOrder) (share : ℚ)

theorem area_withShare : (order.withShare share).area = sharedAmount share order.area := by
  rw [withShare, sharedAmount]
  split_ifs <;> rfl

theorem revenue_withShare : (order.withShare share).revenue = sharedAmount share order.revenue := by
  rw [withShare, sharedAmount]
  split_ifs <;> rfl

theorem workQuantity_withShare : (order.withShare share).workQuantity =
    if 0 < order.workQuantity ∧ order.areaLike then sharedAmount share order.workQuantity
    else order.workQuantity := by
  rw [withShare, sharedAmount]
  split_ifs with cut counts counts
  · simp only [clipOrderToAreaFraction, if_pos counts]
  · simp only [clipOrderToAreaFraction, if_neg counts]
  · rfl
  · rfl

theorem withShare_eq (wider : ℚ) : order.withShare share =
    { order.withShare wider with
      area := (order.withShare share).area
      workQuantity := (order.withShare share).workQuantity
      revenue := (order.withShare share).revenue } := by
  simp only [withShare]
  split_ifs <;> rfl

variable {share} {wider : ℚ}

/-- A smaller share is less work. -/
theorem lessWork_withShare (nonneg : 0 ≤ share) (less : share ≤ wider) :
    LessWork (order.withShare share) (order.withShare wider) where
  rest := order.withShare_eq share wider
  area left := by
    rw [area_withShare] at left ⊢
    rw [area_withShare]
    exact roundTo_sharedAmount_le nonneg less left
  workQuantity left := by
    rw [workQuantity_withShare] at left ⊢
    rw [workQuantity_withShare]
    split_ifs at left ⊢
    · exact roundTo_sharedAmount_le nonneg less left
    · exact le_rfl
  revenue left := by
    rw [revenue_withShare] at left ⊢
    rw [revenue_withShare]
    exact roundTo_sharedAmount_le nonneg less left

end FieldOrder

/-- Declaring more at the sites passes on fewer orders, each with no more work, and reports every
order that was kept out before. -/
theorem RestrictionPass.restrictions_only_restrict {Region α : Type} [BooleanAlgebra α]
    (pass : RestrictionPass Region) {extent : Region → α} (lawful : pass.polygons.Lawful extent)
    {sites tighter : List Site} (tightens : Tightens pass.reader sites tighter)
    (orders : List FieldOrder) :
    List.SublistForall₂ LessWork (pass.applyLocationRestrictions orders tighter).1
        (pass.applyLocationRestrictions orders sites).1 ∧
      ((pass.applyLocationRestrictions orders sites).2.map (·.taskId)).Sublist
        ((pass.applyLocationRestrictions orders tighter).2.map (·.taskId)) := by
  constructor
  · refine Listing.sublistForall₂_filterMap ?_ orders
    intro order cut passed
    cases verdict : pass.verdict tighter order with
    | error detail => simp [verdict] at passed
    | ok share =>
      obtain ⟨wider, passedToo, less⟩ := verdict_of_tightens lawful tightens verdict
      simp only [verdict, Option.some.injEq] at passed
      subst passed
      refine ⟨order.withShare wider, by simp only [passedToo], ?_⟩
      exact order.lessWork_withShare (verdict_nonneg verdict) less
  · rw [applyLocationRestrictions, applyLocationRestrictions, List.map_filterMap,
      List.map_filterMap]
    refine Listing.sublist_filterMap ?_ orders
    intro order key kept
    cases verdict : pass.verdict tighter order with
    | ok share =>
      obtain ⟨wider, passedToo, -⟩ := verdict_of_tightens lawful tightens verdict
      simp [passedToo] at kept
    | error detail =>
      cases before : pass.verdict sites order with
      | ok share => simp [before] at kept
      | error reason => simpa [before] using kept

/-! ## A zone on the grid -/

/-- The whole numbers from the floor of one number up to that of another. -/
def cellRange (low high : ℚ) : Finset ℤ :=
  (Finset.range (high.floor - low.floor).toNat).image fun n : ℕ => low.floor + n

/-- Regions of unit cells, exact on rectangles with whole corners from the lower left one on; a cell
counts one square kilometre on the sphere. -/
def cellPolygons : PolygonLibrary (Finset (ℤ × ℤ)) where
  polygon
    | [low, _, high, _] => cellRange low.1 high.1 ×ˢ cellRange low.2 high.2
    | _ => ∅
  unaryUnion regions := regions.foldr (· ∪ ·) ∅
  intersection a b := a ∩ b
  difference a b := a \ b
  isEmpty region := region.card = 0
  area region := region.card
  geodesicAreaM2 region := region.card * 10 ^ 6

theorem mem_unaryUnion {regions : List (Finset (ℤ × ℤ))} {cell : ℤ × ℤ} :
    cell ∈ cellPolygons.unaryUnion regions ↔ ∃ region ∈ regions, cell ∈ region := by
  induction regions with
  | nil => simp [cellPolygons]
  | cons region rest ih =>
    have first : cellPolygons.unaryUnion (region :: rest) =
        region ∪ cellPolygons.unaryUnion rest := rfl
    rw [first, Finset.mem_union, ih]
    simp

theorem lawful_cellPolygons :
    cellPolygons.Lawful fun region => (region : Set (ℤ × ℤ)) where
  unaryUnion regions := by
    constructor
    · rintro _ ⟨region, listed, rfl⟩ cell inside
      exact mem_unaryUnion.mpr ⟨region, listed, inside⟩
    · intro bound upper cell inside
      obtain ⟨region, listed, inRegion⟩ := mem_unaryUnion.mp inside
      exact upper ⟨region, listed, rfl⟩ inRegion
  intersection a b := Finset.coe_inter a b
  difference a b := Finset.coe_sdiff a b
  empty region none := by
    have cells : region.card = 0 := of_decide_eq_true none
    simp [cellPolygons, cells]
  nonneg region := by
    simp only [cellPolygons]
    positivity
  area_mono a b inside := Nat.cast_le.mpr (Finset.card_le_card (Finset.coe_subset.mp inside))
  geodesicAreaM2_mono a b inside := by
    have cells := Finset.card_le_card (Finset.coe_subset.mp inside)
    simp only [cellPolygons]
    gcongr

/-- A pass with no windows to read. -/
def cellPass : RestrictionPass (Finset (ℤ × ℤ)) where
  polygons := cellPolygons
  reader := { literalItems := fun _ => none, fromIsoformat := fun _ => none }
  now := 0

def rectangle (x0 y0 x1 y1 : ℚ) : Ring := [(x0, y0), (x1, y0), (x1, y1), (x0, y1)]

def sprayedField : Site where
  locationId := "field-1"
  lat := 2
  lon := 2
  polygon := rectangle 0 0 4 4

def waterZone : Site where
  locationId := "zone-1"
  lat := 2
  lon := 5
  polygon := rectangle 2 0 8 4
  restrictedOperations := ["SPRAY"]

def sprayOrder : FieldOrder where
  taskId := "task-1"
  locationRef := "field-1"
  operationType := "SPRAY"
  area := 10

theorem zone_restricts_spraying :
    List.SublistForall₂ LessWork
        (cellPass.applyLocationRestrictions [sprayOrder] [sprayedField, waterZone]).1
        (cellPass.applyLocationRestrictions [sprayOrder] [sprayedField]).1 ∧
      ((cellPass.applyLocationRestrictions [sprayOrder] [sprayedField]).2.map (·.taskId)).Sublist
        ((cellPass.applyLocationRestrictions [sprayOrder] [sprayedField, waterZone]).2.map
          (·.taskId)) :=
  cellPass.restrictions_only_restrict lawful_cellPolygons
    (show Tightens cellPass.reader [sprayedField] ([sprayedField] ++ [waterZone]) from
      tightens_append _ (by decide)) [sprayOrder]

end FlOp.Solver
