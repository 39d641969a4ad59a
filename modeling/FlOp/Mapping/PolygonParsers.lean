import FlOp.Library.Fallible
import Mathlib.Algebra.Order.Ring.Rat
import Mathlib.Data.List.ReduceOption

/-! # Two polygon parsers

Restrictions and canonical locations each read a polygon from a list of vertices or from its text.
Restrictions also read a GeoJSON polygon, which keeps a closing vertex and any number of vertices,
and they stop at a coordinate that is no number where canonical locations skip the vertex.
-/

namespace FlOp.Mapping

open Library

/-- A dynamic value over a type of floats; tuples count as lists, and of any other object it is
known whether it counts as true and what a loop over it yields. -/
inductive RawValue (F : Type) where
  | null
  | bool (value : Bool)
  | int (value : ℤ)
  | float (value : F)
  | text (value : String)
  | list (items : List (RawValue F))
  | dict (entries : List (RawValue F × RawValue F))
  | other (truthy : Bool) (items : Option (List (RawValue F)))

/-- What reading a polygon can raise. -/
inductive Raised where
  | typeError
  | valueError
  | syntaxError
  | overflowError
  | lookupError
  | otherError
deriving DecidableEq, Repr

/-- `float`, `ast.literal_eval` and the comparison of a float with zero. -/
structure RawReaders (F : Type) where
  toFloat : RawValue F → Except Raised F
  literalEval : String → Except Raised (RawValue F)
  isZero : F → Bool

namespace RawReaders

variable {F : Type} (readers : RawReaders F)

/-- `if value`. -/
def truthy : RawValue F → Bool
  | .null => false
  | .bool value => value
  | .int value => value ≠ 0
  | .float value => !readers.isZero value
  | .text value => value ≠ ""
  | .list items => !items.isEmpty
  | .dict entries => !entries.isEmpty
  | .other truthy _ => truthy

/-- The items of a loop over the value. -/
def iterate : RawValue F → Except Raised (List (RawValue F))
  | .text value => .ok (value.toList.map fun c => .text (String.singleton c))
  | .list items => .ok items
  | .dict entries => .ok (entries.map Prod.fst)
  | .other _ (some items) => .ok items
  | _ => .error .typeError

/-- A key that equals zero. -/
def isZeroKey : RawValue F → Bool
  | .bool value => !value
  | .int value => value = 0
  | .float value => readers.isZero value
  | _ => false

/-- `value[0]`; what other objects have there cannot be iterated over. -/
def itemZero : RawValue F → Except Raised (RawValue F)
  | .text value =>
    match value.toList with
    | [] => .error .lookupError
    | c :: _ => .ok (.text (String.singleton c))
  | .list [] => .error .lookupError
  | .list (item :: _) => .ok item
  | .dict entries =>
    match entries.find? fun entry => readers.isZeroKey entry.1 with
    | some entry => .ok entry.2
    | none => .error .lookupError
  | _ => .error .typeError

def isText (text : String) : RawValue F → Bool
  | .text value => value = text
  | _ => false

/-- `raw.get(key)`. -/
def get (entries : List (RawValue F × RawValue F)) (key : String) : RawValue F :=
  ((entries.find? fun entry => isText key entry.1).map Prod.snd).getD .null

/-- The first two items of a list that has them. -/
def pairOf : RawValue F → Option (RawValue F × RawValue F)
  | .list (first :: second :: _) => some (first, second)
  | _ => none

/-- Two coordinates, read one after the other. -/
def readPair (first second : RawValue F) : Except Raised (F × F) :=
  (readers.toFloat first).bind fun x => (readers.toFloat second).bind fun y => .ok (x, y)

/-- The value to parse: text is evaluated, and there is none if it cannot be or if the value counts
as false. -/
def evaluate (raw : RawValue F) : Except Raised (Option (RawValue F)) :=
  if readers.truthy raw then
    match raw with
    | .text value =>
      match readers.literalEval value with
      | .ok value => .ok (some value)
      | .error .valueError => .ok none
      | .error .syntaxError => .ok none
      | .error other => .error other
    | value => .ok (some value)
  else .ok none

/-- The first and the last of two or more points are equal. -/
def closed [BEq F] (points : List (F × F)) : Bool :=
  match points.head?, points.getLast? with
  | some first, some last => 2 ≤ points.length && first == last
  | _, _ => false

/-- Drop a closing vertex, and everything if fewer than three are left. -/
def openRing [BEq F] (points : List (F × F)) : List (F × F) :=
  let opened := if closed points then points.dropLast else points
  if 3 ≤ opened.length then opened else []

/-- Whether a dictionary is a GeoJSON polygon. -/
def isPolygon (entries : List (RawValue F × RawValue F)) : Bool :=
  isText "Polygon" (get entries "type")

/-- The items of the first ring of a GeoJSON polygon. -/
def outerRing (entries : List (RawValue F × RawValue F)) : Except Raised (List (RawValue F)) :=
  let coordinates := get entries "coordinates"
  let rings := if readers.truthy coordinates then coordinates else .list [.list []]
  (readers.itemZero rings).bind iterate

/-- Vertices of a list of `[lat, lon]` pairs, longitude first. -/
def listPoints (items : List (RawValue F)) : Except Raised (List (F × F)) :=
  (items.filterMap pairOf).mapM fun (lat, lon) => readers.readPair lon lat

/-- Vertices of a list of `[lon, lat]` pairs. -/
def geoJsonPoints (items : List (RawValue F)) : Except Raised (List (F × F)) :=
  (items.filterMap pairOf).mapM fun (lon, lat) => readers.readPair lon lat

/-- `restrictions.parse_polygon`: vertices as longitude and latitude. -/
def parsePolygon [BEq F] (raw : RawValue F) : Except Raised (List (F × F)) :=
  (readers.evaluate raw).bind fun
    | some (.dict entries) =>
      if isPolygon entries then (readers.outerRing entries).bind readers.geoJsonPoints else .ok []
    | some (.list items) => (readers.listPoints items).map openRing
    | _ => .ok []

/-- A vertex of a canonical location; one that is no pair of numbers is skipped. -/
def readVertex (pair : RawValue F × RawValue F) : Except Raised (Option (F × F)) :=
  match readers.readPair pair.1 pair.2 with
  | .ok vertex => .ok (some vertex)
  | .error .typeError => .ok none
  | .error .valueError => .ok none
  | .error other => .error other

/-- `builders.parse_polygon`: vertices as latitude and longitude. -/
def buildPolygon [BEq F] (raw : RawValue F) : Except Raised (List (F × F)) :=
  (readers.evaluate raw).bind fun
    | some (.list items) =>
      ((items.filterMap pairOf).mapM readers.readVertex).map fun vertices =>
        openRing vertices.reduceOption
    | _ => .ok []

/-! ## When they agree -/

/-- The ring of a value in list form, a list or its text. -/
def listForm (raw : RawValue F) : Option (List (RawValue F)) :=
  match readers.evaluate raw with
  | .ok (some (.list ring)) => some ring
  | _ => none

/-- A pair with its coordinates exchanged. -/
def flipped : RawValue F → RawValue F
  | .list (first :: second :: rest) => .list (second :: first :: rest)
  | item => item

/-- A ring of `[lat, lon]` pairs as a GeoJSON polygon. -/
def geoJson (ring : List (RawValue F)) : RawValue F :=
  .dict [(.text "type", .text "Polygon"),
    (.text "coordinates", .list [.list (ring.map flipped)])]

/-- Restrictions read the value without an error, canonical locations read the same vertices, and a
ring in list form has these vertices as a GeoJSON polygon too. -/
def Agrees [BEq F] (raw : RawValue F) : Prop :=
  ∃ points, readers.parsePolygon raw = .ok points ∧
    readers.buildPolygon raw = .ok (points.map Prod.swap) ∧
    ∀ ring, readers.listForm raw = some ring → readers.parsePolygon (geoJson ring) = .ok points

/-- Text can be evaluated; the coordinates of a list are numbers, and it has no pairs or an open
ring of at least three; a GeoJSON polygon has no pairs. -/
def Sound [BEq F] (raw : RawValue F) : Prop :=
  match readers.evaluate raw with
  | .error _ => False
  | .ok (some (.list ring)) =>
    ∃ points, readers.listPoints ring = .ok points ∧
      (points = [] ∨ 3 ≤ points.length ∧ closed points = false)
  | .ok (some (.dict entries)) =>
    isPolygon entries = true →
      ∃ items, readers.outerRing entries = .ok items ∧ items.filterMap pairOf = []
  | .ok _ => True

theorem pairOf_flipped (item : RawValue F) :
    pairOf (flipped item) = (pairOf item).map Prod.swap := by
  cases item with
  | list items =>
    match items with
    | [] => rfl
    | [_] => rfl
    | _ :: _ :: _ => rfl
  | _ => rfl

/-- Flipped pairs have the vertices of the list form. -/
theorem geoJsonPoints_flipped (ring : List (RawValue F)) :
    readers.geoJsonPoints (ring.map flipped) = readers.listPoints ring := by
  rw [geoJsonPoints, listPoints, List.filterMap_map]
  have pairs : ring.filterMap (pairOf ∘ flipped) = (ring.filterMap pairOf).map Prod.swap := by
    rw [List.map_filterMap]
    exact List.filterMap_congr fun item _ => pairOf_flipped item
  rw [pairs]
  generalize ring.filterMap pairOf = found
  induction found with
  | nil => rfl
  | cons pair rest ih => rw [List.map_cons, List.mapM_cons, List.mapM_cons, ih]; rfl

/-- A GeoJSON polygon keeps the vertices of its ring as they are. -/
theorem parsePolygon_geoJson [BEq F] (ring : List (RawValue F)) :
    readers.parsePolygon (geoJson ring) = readers.listPoints ring :=
  readers.geoJsonPoints_flipped ring

/-- A ring is kept as it is exactly if it has no vertices or is open with at least three. -/
theorem openRing_eq_self_iff [BEq F] {points : List (F × F)} :
    openRing points = points ↔ points = [] ∨ 3 ≤ points.length ∧ closed points = false := by
  rw [openRing]
  cases points with
  | nil => exact iff_of_true rfl (.inl rfl)
  | cons first rest =>
    have shorter : (first :: rest).dropLast ≠ first :: rest := fun same => by
      have lengths := congrArg List.length same
      rw [List.length_dropLast, List.length_cons] at lengths
      omega
    by_cases ends : closed (first :: rest) = true
    · rw [if_pos ends]
      refine iff_of_false ?_ fun kept => ?_
      · intro same
        split at same
        · exact shorter same
        · cases same
      · rcases kept with nothing | ⟨-, opened⟩
        · cases nothing
        · rw [ends] at opened
          cases opened
    · rw [if_neg ends]
      by_cases long : 3 ≤ (first :: rest).length
      · rw [if_pos long]
        exact iff_of_true rfl (.inr ⟨long, Bool.not_eq_true _ ▸ ends⟩)
      · rw [if_neg long]
        refine iff_of_false (fun same => by cases same) fun kept => ?_
        rcases kept with nothing | ⟨enough, -⟩
        · cases nothing
        · exact long enough

theorem closed_map_swap [BEq F] (points : List (F × F)) :
    closed (points.map Prod.swap) = closed points := by
  rw [closed, closed, List.head?_map, List.getLast?_map, List.length_map]
  cases points.head? with
  | none => rfl
  | some first =>
    cases points.getLast? with
    | none => rfl
    | some last => exact congrArg (decide (2 ≤ points.length) && ·) (Bool.and_comm _ _)

/-- Opening a ring does not depend on the order of the coordinates. -/
theorem openRing_map_swap [BEq F] (points : List (F × F)) :
    openRing (points.map Prod.swap) = (openRing points).map Prod.swap := by
  rw [openRing, openRing, closed_map_swap]
  cases closed points with
  | false =>
    change (if 3 ≤ (points.map Prod.swap).length then points.map Prod.swap else []) =
      (if 3 ≤ points.length then points else []).map Prod.swap
    rw [List.length_map]
    split <;> rfl
  | true =>
    change (if 3 ≤ (points.map Prod.swap).dropLast.length then (points.map Prod.swap).dropLast
      else []) = (if 3 ≤ points.dropLast.length then points.dropLast else []).map Prod.swap
    rw [← List.map_dropLast, List.length_map]
    split <;> rfl

/-- A pair that has a vertex in one order of its coordinates has it in the other. -/
theorem readVertex_of_readPair {lat lon : RawValue F} {vertex : F × F}
    (read : readers.readPair lon lat = .ok vertex) :
    readers.readVertex (lat, lon) = .ok (some vertex.swap) := by
  obtain ⟨x, first, later⟩ := Fallible.bind_eq_ok.mp read
  obtain ⟨y, second, same⟩ := Fallible.bind_eq_ok.mp later
  obtain rfl := Except.ok.inj same
  have swapped : readers.readPair lat lon = .ok (y, x) :=
    Fallible.bind_eq_ok.mpr ⟨y, second, Fallible.bind_eq_ok.mpr ⟨x, first, rfl⟩⟩
  rw [readVertex, swapped]
  rfl

/-- Canonical locations read every vertex that restrictions read. -/
theorem mapM_readVertex {pairs : List (RawValue F × RawValue F)} {points : List (F × F)}
    (read : pairs.mapM (fun (lat, lon) => readers.readPair lon lat) = .ok points) :
    pairs.mapM readers.readVertex = .ok ((points.map Prod.swap).map some) := by
  rw [List.map_map]
  refine Fallible.mapM_eq_ok.mpr (List.forall₂_map_right_iff.mpr ?_)
  exact (Fallible.mapM_eq_ok.mp read).imp fun _ _ one => readers.readVertex_of_readPair one

/-- List and GeoJSON forms of a ring have the same vertices only if nothing is dropped. -/
theorem agrees_iff_of_list [BEq F] {raw : RawValue F} {ring : List (RawValue F)}
    (evaluated : readers.evaluate raw = .ok (some (.list ring))) :
    readers.Agrees raw ↔ readers.Sound raw := by
  rw [Agrees, Sound, parsePolygon, buildPolygon, listForm, evaluated]
  change (∃ points, (readers.listPoints ring).map openRing = .ok points ∧
    (((ring.filterMap pairOf).mapM readers.readVertex).map fun vertices =>
      openRing vertices.reduceOption) = .ok (points.map Prod.swap) ∧
    ∀ other, some ring = some other → readers.parsePolygon (geoJson other) = .ok points) ↔ _
  constructor
  · rintro ⟨points, read, -, same⟩
    have plain := same ring rfl
    rw [parsePolygon_geoJson] at plain
    rw [plain] at read
    exact ⟨points, plain, openRing_eq_self_iff.mp (Except.ok.inj read)⟩
  · rintro ⟨points, read, kept⟩
    have whole := openRing_eq_self_iff.mpr kept
    refine ⟨points, ?_, ?_, fun other same => ?_⟩
    · rw [read]
      exact congrArg _ whole
    · rw [readers.mapM_readVertex read]
      change Except.ok _ = _
      change Except.ok (openRing (((points.map Prod.swap).map some).filterMap id)) = _
      rw [List.filterMap_map, Function.id_comp, List.filterMap_some, openRing_map_swap, whole]
    · obtain rfl := Option.some.inj same
      rw [parsePolygon_geoJson, read]

/-- Canonical locations have no GeoJSON form, so they agree on polygons without pairs only. -/
theorem agrees_iff_of_dict [BEq F] {raw : RawValue F} {entries : List (RawValue F × RawValue F)}
    (evaluated : readers.evaluate raw = .ok (some (.dict entries))) :
    readers.Agrees raw ↔ readers.Sound raw := by
  rw [Agrees, Sound, parsePolygon, buildPolygon, listForm, evaluated]
  change (∃ points, (if isPolygon entries then
      (readers.outerRing entries).bind readers.geoJsonPoints else .ok []) = .ok points ∧
    Except.ok [] = .ok (points.map Prod.swap) ∧ _) ↔ _
  constructor
  · rintro ⟨points, read, built, -⟩ polygon
    rw [if_pos polygon] at read
    obtain ⟨items, found, listed⟩ := Fallible.bind_eq_ok.mp read
    obtain rfl := List.map_eq_nil_iff.mp (Except.ok.inj built).symm
    have none := Fallible.mapM_eq_ok.mp listed
    exact ⟨items, found, List.forall₂_nil_right_iff.mp none⟩
  · intro empty
    refine ⟨[], ?_, rfl, fun ring form => by cases form⟩
    split
    · rename_i polygon
      obtain ⟨items, found, none⟩ := empty polygon
      rw [found]
      change readers.geoJsonPoints items = _
      rw [geoJsonPoints, none]
      rfl
    · rfl

/-- The parsers agree exactly on sound values: list and GeoJSON forms of a ring have the same
vertices only if nothing is dropped, and canonical locations have no GeoJSON form. -/
theorem agrees_iff [BEq F] (raw : RawValue F) : readers.Agrees raw ↔ readers.Sound raw := by
  cases evaluated : readers.evaluate raw with
  | error raised =>
    rw [Agrees, Sound, parsePolygon, evaluated]
    refine iff_of_false ?_ id
    rintro ⟨points, read, -⟩
    cases read
  | ok value =>
    rcases value with _ | value
    · rw [Agrees, Sound, parsePolygon, buildPolygon, listForm, evaluated]
      exact iff_of_true ⟨[], rfl, rfl, fun ring form => by cases form⟩ trivial
    · cases value with
      | list ring => exact readers.agrees_iff_of_list evaluated
      | dict entries => exact readers.agrees_iff_of_dict evaluated
      | _ =>
        rw [Agrees, Sound, parsePolygon, buildPolygon, listForm, evaluated]
        exact iff_of_true ⟨[], rfl, rfl, fun ring form => by cases form⟩ trivial

/-! ## Rings on which they differ -/

/-- Readers of whole numbers and fractions, the floats being fractions; no text is evaluated. -/
def fractionReaders : RawReaders ℚ where
  toFloat
    | .bool value => .ok (if value then 1 else 0)
    | .int value => .ok value
    | .float value => .ok value
    | .text _ => .error .valueError
    | _ => .error .typeError
  literalEval _ := .error .syntaxError
  isZero value := value = 0

def vertexOf (lat lon : ℤ) : RawValue ℚ := .list [.int lat, .int lon]

/-- A closed ring around a triangle. -/
def closedTriangle : RawValue ℚ :=
  .list [vertexOf 0 0, vertexOf 0 2, vertexOf 2 2, vertexOf 0 0]

/-- A triangle with a fourth vertex whose latitude is a word. -/
def wordyTriangle : RawValue ℚ :=
  .list [vertexOf 0 0, vertexOf 0 2, vertexOf 2 2, .list [.text "north", .int 1]]

/-- The GeoJSON form of a closed triangle has a vertex more, and a word among the coordinates is
skipped by canonical locations only. -/
theorem triangles_disagree :
    (¬ fractionReaders.Agrees closedTriangle ∧
      (fractionReaders.parsePolygon closedTriangle).map List.length = .ok 3 ∧
      (fractionReaders.parsePolygon (geoJson [vertexOf 0 0, vertexOf 0 2, vertexOf 2 2,
        vertexOf 0 0])).map List.length = .ok 4) ∧
    ¬ fractionReaders.Agrees wordyTriangle ∧
      fractionReaders.parsePolygon wordyTriangle = .error .valueError ∧
      (fractionReaders.buildPolygon wordyTriangle).map List.length = .ok 3 := by
  refine ⟨⟨?_, by decide +kernel, by decide +kernel⟩, ?_, by decide +kernel, by decide +kernel⟩
  · rintro ⟨points, read, -, same⟩
    have listed := same [vertexOf 0 0, vertexOf 0 2, vertexOf 2 2, vertexOf 0 0] (by rfl)
    have three : (fractionReaders.parsePolygon closedTriangle).map List.length = .ok 3 := by
      decide +kernel
    have four : (fractionReaders.parsePolygon (geoJson [vertexOf 0 0, vertexOf 0 2,
        vertexOf 2 2, vertexOf 0 0])).map List.length = .ok 4 := by decide +kernel
    rw [read] at three
    rw [listed] at four
    exact absurd ((Except.ok.inj three).symm.trans (Except.ok.inj four)) (by decide)
  · rintro ⟨points, read, -⟩
    have raised : fractionReaders.parsePolygon wordyTriangle = .error .valueError := by
      decide +kernel
    rw [raised] at read
    cases read

end RawReaders

end FlOp.Mapping
