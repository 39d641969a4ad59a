import FlOp.Core.Numbers
import FlOp.Core.Text
import FlOp.Solver.TravelNetwork

/-! # Travel times

Travel links are indexed by location pair for each travel mode, links for any mode are merged into
the network of each specific one, and every network is closed under shortest paths. Pairs that no
network connects are estimated from the distance.
-/

namespace FlOp.Solver

open FlOp.Core Library

/-- Network a link belongs to, or a mover travels on. -/
inductive TravelMode where
  | road
  | air
  | any
deriving DecidableEq, Repr

/-- A known mode in any case and with spaces around it; everything else is `any`. -/
def normaliseMode (mode : Option String) : TravelMode :=
  let value := (strip (mode.getD "any").toList).map Char.toLower
  if value = "road".toList then .road else if value = "air".toList then .air else .any

/-- Distance in kilometres and toll of a direct link. -/
abbrev TravelMeasure := ℚ × ℚ

abbrev TravelMeasureLookup := Dict LinkPair TravelMeasure

/-- Fastest known times over all modes, and the networks of each mode. -/
structure ModeAwareTravelLookup where
  aggregate : TravelPairLookup := .empty
  byMode : Dict TravelMode TravelPairLookup := .empty
  aggregatePaths : TravelPathLookup := .empty
  pathsByMode : Dict TravelMode TravelPathLookup := .empty
  aggregateMeasures : TravelMeasureLookup := .empty
  measuresByMode : Dict TravelMode TravelMeasureLookup := .empty

/-- A plain table of times, or one with networks for each mode. -/
inductive TravelLookup where
  | plain (times : TravelPairLookup)
  | modeAware (lookup : ModeAwareTravelLookup)

namespace ModeAwareTravelLookup

variable (lookup : ModeAwareTravelLookup) (fromRef toRef : String) (travelMode : Option String)

/-- Any link has a toll. -/
def hasTolls : Bool := lookup.aggregateMeasures.values.any fun measure => 0 < measure.2

/-- What is stored for a pair: for a specific mode in its own table and else in the one for any
mode, without one in the aggregate. -/
def resolve {ν : Type} (aggregate : Dict LinkPair ν) (byMode : Dict TravelMode (Dict LinkPair ν))
    (mode : TravelMode) (pair : LinkPair) : Option ν :=
  if mode = .any then aggregate.get? pair
  else ((byMode.getD mode .empty).get? pair).or ((byMode.getD .any .empty).get? pair)

def getSeconds : Option ℤ :=
  resolve lookup.aggregate lookup.byMode (normaliseMode travelMode) (fromRef, toRef)

def getPath : Option TravelPath :=
  resolve lookup.aggregatePaths lookup.pathsByMode (normaliseMode travelMode) (fromRef, toRef)

def getMeasure : Option TravelMeasure :=
  resolve lookup.aggregateMeasures lookup.measuresByMode (normaliseMode travelMode) (fromRef, toRef)

end ModeAwareTravelLookup

/-- A travel-link row, with the vertices of its declared geometry. -/
structure TravelLink where
  linkId : String := ""
  fromLocationRef : String
  toLocationRef : String
  travelTimeS : ℚ
  networkMode : Option String := none
  distanceKm : ℚ := 0
  tollEur : ℚ := 0
  routeGeometry : List LatLon := []

namespace TravelLink

variable (link : TravelLink)

def pair : LinkPair := (link.fromLocationRef, link.toLocationRef)

def mode : TravelMode := normaliseMode link.networkMode

/-- Links without a positive time are not indexed. -/
def Timed : Prop := 0 < link.travelTimeS

instance : Decidable link.Timed := inferInstanceAs (Decidable (_ < _))

/-- Whole seconds, at least one. -/
def seconds : ℤ := max 1 ⌊link.travelTimeS⌋

def measure : TravelMeasure := (max 0 link.distanceKm, max 0 link.tollEur)

end TravelLink

/-- Drop vertices equal to the one before them; a single vertex is no path. -/
def coerceRouteGeometry (raw : List LatLon) : TravelPath :=
  let path := raw.foldl (fun path vertex =>
    if path.getLast? = some vertex then path else path ++ [vertex]) []
  if 2 ≤ path.length then path else []

section Index

variable (settings : TravelSettings) (pathDistanceKm : TravelPath → ℚ)

/-- A declared path is not much longer than the declared distance, if there is one. -/
def routeGeometryMatchesDistance (path : TravelPath) (distanceKm : ℚ) : Bool :=
  distanceKm ≤ 0 ∨ pathDistanceKm path ≤ distanceKm * settings.routeGeometryMaxLengthRatio

/-- The geometry a link contributes, if it can be trusted. -/
def linkPath (link : TravelLink) : TravelPath :=
  let path := coerceRouteGeometry link.routeGeometry
  if routeGeometryMatchesDistance settings pathDistanceKm path link.distanceKm then path else []

/-- Direct links of one mode: their times, geometries and measures. -/
structure LinkIndex where
  times : TravelPairLookup := .empty
  paths : TravelPathLookup := .empty
  measures : TravelMeasureLookup := .empty

/-- Index a link that is faster than those before it. -/
def LinkIndex.add (index : LinkIndex) (link : TravelLink) : LinkIndex :=
  if ∀ existing ∈ index.times.get? link.pair, link.seconds < existing then
    { times := index.times.set link.pair link.seconds
      measures := index.measures.set link.pair link.measure
      paths :=
        let path := linkPath settings pathDistanceKm link
        if path = [] then index.paths.erase link.pair else index.paths.set link.pair path }
  else index

/-- The indexes of all modes: one for links of any mode, and one for each specific mode that has a
link. -/
structure LinkIndexes where
  any : LinkIndex := {}
  byMode : Dict TravelMode LinkIndex := .empty

def LinkIndexes.add (indexes : LinkIndexes) (link : TravelLink) : LinkIndexes :=
  if ¬ link.Timed then indexes
  else if link.mode = .any then { indexes with any := indexes.any.add settings pathDistanceKm link }
  else
    let index := indexes.byMode.getD link.mode {}
    { indexes with
      byMode := indexes.byMode.set link.mode (index.add settings pathDistanceKm link) }

/-- Index all links by mode and location pair. -/
def indexLinks (links : List TravelLink) : LinkIndexes :=
  links.foldl (LinkIndexes.add settings pathDistanceKm) {}

end Index

/-- Take over the entries of a table that are faster, with their geometries. -/
def mergeFaster (given : TravelPairLookup × TravelPathLookup) (times : TravelPairLookup)
    (paths : TravelPathLookup) : TravelPairLookup × TravelPathLookup :=
  times.entries.foldl (fun merged entry =>
    if ∀ existing ∈ merged.1.get? entry.1, entry.2 < existing then
      (merged.1.set entry.1 entry.2,
        match paths.get? entry.1 with
        | some path => merged.2.set entry.1 path
        | none => merged.2.erase entry.1)
    else merged) given

/-- The network of each mode, the one for any mode first. -/
abbrev Networks := List (TravelMode × TravelPairLookup × TravelPathLookup)

/-- Put the networks and the measures of the direct links together. -/
def assembleLookup (indexes : LinkIndexes) (networks : Networks) : ModeAwareTravelLookup :=
  let aggregate := networks.foldl (fun merged network => mergeFaster merged network.2.1 network.2.2)
    (.empty, .empty)
  { aggregate := aggregate.1
    byMode := Dict.collect (·.1) (·.2.1) networks
    aggregatePaths := aggregate.2
    pathsByMode := Dict.collect (·.1) (·.2.2) networks
    aggregateMeasures := (indexes.byMode.values.foldl (fun measures index =>
      measures.update index.measures) Dict.empty).update indexes.any.measures
    measuresByMode := Dict.collect Prod.fst Prod.snd <|
      (TravelMode.any, indexes.any.measures) ::
        indexes.byMode.entries.map fun entry => (entry.1, entry.2.measures) }

/-- Compose the network of a mode: its own links, and those for any mode where it has no faster. -/
def composeMode (settings : TravelSettings) (any : LinkIndex) (fuel : ℕ)
    (entry : TravelMode × LinkIndex) : Option (TravelMode × TravelPairLookup × TravelPathLookup) :=
  let merged := mergeFaster (any.times, any.paths) entry.2.times entry.2.paths
  (composeNetwork merged.1 merged.2 settings fuel).map (entry.1, ·)

/-- Index the travel links and close the networks of all modes under shortest paths. -/
def buildTravelLookup (settings : TravelSettings) (pathDistanceKm : TravelPath → ℚ)
    (links : List TravelLink) (fuel : ℕ) : Option ModeAwareTravelLookup :=
  let indexes := indexLinks settings pathDistanceKm links
  (composeNetwork indexes.any.times indexes.any.paths settings fuel).bind fun anyNetwork =>
    (indexes.byMode.entries.mapM (composeMode settings indexes.any fuel)).map fun networks =>
      assembleLookup indexes ((.any, anyNetwork) :: networks)

namespace TravelLookup

/-- A lookup without times is as good as none; the times over all modes decide for a mode-aware
one. -/
def isEmpty : TravelLookup → Bool
  | plain times => times.entries.isEmpty
  | modeAware lookup => lookup.aggregate.entries.isEmpty

def lookupSeconds (lookup : TravelLookup) (fromRef toRef : String) (travelMode : Option String) :
    Option ℤ :=
  match lookup with
  | plain times => times.get? (fromRef, toRef)
  | modeAware lookup => lookup.getSeconds fromRef toRef travelMode

/-- The lookup has times, and the references name two places. -/
def Answers (lookup : TravelLookup) (fromRef toRef : String) : Prop :=
  ¬ lookup.isEmpty ∧ fromRef ≠ "" ∧ toRef ≠ "" ∧ fromRef ≠ toRef

instance (lookup : TravelLookup) (fromRef toRef : String) :
    Decidable (lookup.Answers fromRef toRef) :=
  inferInstanceAs (Decidable (_ ∧ _))

end TravelLookup

section Queries

variable (travelLookup : Option TravelLookup) (fromRef toRef : String) (travelMode : Option String)

/-- Directed network time of a pair. -/
def networkSeconds : Option ℤ :=
  travelLookup.bind fun lookup =>
    if lookup.Answers fromRef toRef then lookup.lookupSeconds fromRef toRef travelMode else none

/-- Directed network polyline of a pair; a plain table has none. -/
def networkPath : Option TravelPath :=
  match travelLookup with
  | some (.modeAware lookup) => lookup.getPath fromRef toRef travelMode
  | _ => none

def networkMeasure : Option TravelMeasure :=
  match travelLookup with
  | some (.modeAware lookup) =>
    if fromRef = "" ∨ toRef = "" ∨ fromRef = toRef then none
    else lookup.getMeasure fromRef toRef travelMode
  | _ => none

/-- Distance of a direct link that declares one. -/
def networkDistanceKm : Option ℚ :=
  ((networkMeasure travelLookup fromRef toRef travelMode).map Prod.fst).filter (0 < ·)

/-- Toll of a direct link, also where it is zero. -/
def networkTollEur : Option ℚ :=
  (networkMeasure travelLookup fromRef toRef travelMode).map Prod.snd

variable {Polygon : Type} (geometry : PlanarGeometry Polygon) (settings : TravelSettings)

/-- The speed of an estimate: the fallback where none is declared. -/
def safeSpeed (speedKmh : ℚ) : ℚ :=
  if 0 < speedKmh then speedKmh else settings.fallbackTravelSpeedKmh

/-- Geometric travel time in whole seconds, at least one; distances are not negative. -/
def travelTimeSeconds (start finish : LatLon) (speedKmh : ℚ) : ℤ :=
  max 1 ⌊geometry.haversineKm start finish * (3600 / safeSpeed settings speedKmh)⌋

/-- Fallback multiplier: movers in the air fly straight, all others detour. -/
def modeCircuity : ℚ :=
  if normaliseMode travelMode = .air then settings.airTravelCircuity
  else settings.groundTravelCircuity

def haversineS (start finish : LatLon) (speedKmh circuity : ℚ) : ℤ :=
  max 1 (roundHalfEven (travelTimeSeconds geometry settings start finish speedKmh * circuity))

/-- Travel time between two places: the network time of the pair or of the way back, and else an
estimate. A time of zero counts as unknown. -/
def travelSeconds (start finish : LatLon) (fallbackSpeedKmh : ℚ) : ℤ :=
  let known := travelLookup.bind fun lookup =>
    if lookup.Answers fromRef toRef then
      ((lookup.lookupSeconds fromRef toRef travelMode).filter (· ≠ 0)).or
        ((lookup.lookupSeconds toRef fromRef travelMode).filter (· ≠ 0))
    else none
  known.getD <| haversineS geometry settings start finish fallbackSpeedKmh
    (modeCircuity travelMode settings)

end Queries

end FlOp.Solver
