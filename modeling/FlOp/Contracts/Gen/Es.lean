import FlOp.Contracts.Gen.Records

/-! # Elasticsearch mappings

The mapping is a dictionary: a later property of a name replaces an earlier one, and the geo point
made of a latitude and a longitude replaces whatever is declared under its name.
-/

namespace FlOp.Contracts.Gen

open FlOp.Core Library

/-- `_geo_point_field_name`. -/
def geoPointFieldName (latFieldName : String) : String :=
  if latFieldName = "lat" then "location"
  else if endsWith "_lat" latFieldName then dropEnd 4 latFieldName ++ "_location"
  else latFieldName ++ "_location"

/-- The longitude that goes with a latitude. -/
def expectedLon (latName : String) : String :=
  if containsText "_lat" latName then replaceText "_lat" "_lon" latName else "lon"

/-- The coordinates among the properties. -/
structure Coordinates where
  latFields : Dict String String := .empty
  lonFieldNames : List Yaml := []

/-- `properties[key] = value`: a key keeps its place. -/
def setKey (entries : List (Scalar × Yaml)) (key : Scalar) (value : Yaml) :
    List (Scalar × Yaml) :=
  match entries with
  | [] => [(key, value)]
  | entry :: rest =>
    if entry.1.sameKey key then (entry.1, value) :: rest else entry :: setKey rest key value

/-- The mapping of a synthesized geo point. -/
def geoPoint : Yaml :=
  .mapping (Yaml.fields [("type", .text "geo_point"), ("ignore_malformed", .boolean false)])

/-- The geo points that are confirmed by a longitude. -/
def Coordinates.geoNames (coordinates : Coordinates) : List String :=
  (coordinates.latFields.entries.filter fun entry =>
    coordinates.lonFieldNames.any fun name => name.isText (expectedLon entry.1)).map Prod.snd

section Generator

variable (shown : Yaml → String)

/-- One property of the loop over coordinates. -/
def coordinateStep (state : Coordinates) (prop : Block) : Except PyError Coordinates :=
  if (semanticHints shown prop).isLatitude then
    match nameOf prop with
    | .scalar (.text name) =>
      .ok { state with latFields := state.latFields.set name (geoPointFieldName name) }
    | _ => .error .attributeError
  else if (semanticHints shown prop).isLongitude then
    if (nameOf prop).hashable then
      .ok { state with lonFieldNames := state.lonFieldNames ++ [nameOf prop] }
    else .error .typeError
  else .ok state

/-- The type in a mapping: semantics first, then the hint, then the physical type's. -/
def esTypeOf (prop : Block) (fieldHints : Block) (mapped : String) : Yaml :=
  if (semanticHints shown prop).isTimestamp ∨ (semanticHints shown prop).isDate then .text "date"
  else if (semanticHints shown prop).isLatitude ∨ (semanticHints shown prop).isLongitude then
    .text "double"
  else (Yaml.get fieldHints "type" .null).orElse (.text mapped)

/-- What a mapping holds beside the type. -/
def esOptions (prop : Block) (esType : Yaml) : List (String × Yaml) :=
  if esType.isText "keyword" then [("ignore_above", .integer 256)]
  else if esType.isText "date" then
    [("format", .text "strict_date_optional_time||epoch_millis")]
  else if (esType.isText "double" ∨ esType.isText "float") ∧
      (semanticHints shown prop).isLatitude = false ∧
      (semanticHints shown prop).isLongitude = false then
    if isRequired prop then [] else [("null_value", .scalar (.real (.number 0) "0.0"))]
  else if esType.isText "integer" ∨ esType.isText "long" then
    if isRequired prop then [] else [("null_value", .integer 0)]
  else []

/-- `EsGenerator._build_field_mapping`. -/
def esFieldMapping (contractId : String) (prop : Block) : Except PyError Yaml :=
  (requireType shown contractId .es prop).bind fun mapped =>
  (getFieldGenHints .es prop).entriesOf.bind fun fieldHints =>
    let esType := esTypeOf shown prop fieldHints mapped
    (inSet validEsTypes esType).bind fun valid =>
      if valid then .ok (.mapping (Yaml.fields (("type", esType) :: esOptions shown prop esType)))
      else .error (.generationError (contractId ++ ": field '" ++ (nameOf prop).str shown ++
        "' has invalid ES type '" ++ esType.str shown ++ "'"))

/-- One property of the loop that fills the mapping. -/
def esStep (contractId : String) (properties : List (Scalar × Yaml)) (prop : Block) :
    Except PyError (List (Scalar × Yaml)) :=
  (esFieldMapping shown contractId prop).bind fun fieldMapping =>
    match nameOf prop with
    | .scalar name => .ok (setKey properties name fieldMapping)
    | _ => .error .typeError

/-- The index mapping. -/
def esMapping (dynamic : Yaml) (properties : List (Scalar × Yaml)) : Yaml :=
  .mapping (Yaml.fields [("mappings", .mapping (Yaml.fields
    [("dynamic", dynamic), ("properties", .mapping properties)]))])

/-- `EsGenerator.generate`. -/
def esGenerate (odcsDoc : Block) (contractId : String) : Except PyError Yaml :=
  (getSchemaGenHints .es odcsDoc).bind fun hints =>
  (requireKeys contractId .es hints (requiredSchemaKeys .es)).bind fun _ =>
  ((iterSchemaProperties odcsDoc).collect .ok).bind fun props =>
  (props.foldlM (coordinateStep shown) {}).bind fun coordinates =>
  (props.foldlM (esStep shown contractId) []).bind fun properties =>
    dumps (esMapping (Yaml.get hints "dynamic" (.text "strict"))
      (coordinates.geoNames.foldl (fun properties name => setKey properties (.text name) geoPoint)
        properties))

/-- The type that a property's declaration and hints determine. -/
def esType (prop : Block) : Yaml :=
  let mapped :=
    match physicalTypeOf prop with
    | .scalar (.text name) => (physicalTypeToEs name).getD ""
    | _ => ""
  match getFieldGenHints .es prop with
  | .mapping fieldHints => esTypeOf shown prop fieldHints mapped
  | _ => esTypeOf shown prop [] mapped

end Generator

/-- An entry of a mapping: its name and its type. -/
def esEntry (entry : Scalar × Yaml) : Option (Yaml × Yaml) :=
  match entry.2 with
  | .mapping block => some (.scalar entry.1, Yaml.get block "type" .null)
  | _ => none

/-- The entries of an index mapping. -/
def esEntries : Yaml → List (Yaml × Yaml)
  | .mapping top =>
    match Yaml.get top "mappings" .null with
    | .mapping mappings =>
      match Yaml.get mappings "properties" .null with
      | .mapping properties => properties.filterMap esEntry
      | _ => []
    | _ => []
  | _ => []

/-- A document whose index mapping can be written and keeps every property. -/
structure EsClear (shown : Yaml → String) (odcsDoc : Block) : Prop where
  dynamic : ∀ hints, getSchemaGenHints .es odcsDoc = .ok hints →
    (Yaml.get hints "dynamic" (.text "strict")).json.isSome
  named : ∀ prop ∈ (iterSchemaProperties odcsDoc).items, ∃ name, nameOf prop = .text name
  distinct : ((iterSchemaProperties odcsDoc).items.map ownName).Nodup
  apart : ∀ coordinates,
    (iterSchemaProperties odcsDoc).items.foldlM (coordinateStep shown) {} = .ok coordinates →
      ∀ prop ∈ (iterSchemaProperties odcsDoc).items, ∀ name ∈ coordinates.geoNames,
        nameOf prop = .text name → esType shown prop = .text "geo_point"

section Dictionary

/-- A new key is appended. -/
theorem setKey_new {entries : List (Scalar × Yaml)} {name : String} {value : Yaml}
    (new : .text name ∉ entries.map Prod.fst) :
    setKey entries (.text name) value = entries ++ [(.text name, value)] := by
  induction entries with
  | nil => rfl
  | cons entry rest ih =>
    rw [List.map_cons, List.mem_cons, not_or] at new
    have differs : ¬ entry.1.sameKey (.text name) := by
      rw [Scalar.sameKey_text]
      exact Ne.symm new.1
    rw [setKey, if_neg differs, ih new.2, List.cons_append]

/-- The value of a key is replaced. -/
theorem setKey_old {entries : List (Scalar × Yaml)} {name : String} {value : Yaml}
    (distinct : (entries.map Prod.fst).Nodup) (old : .text name ∈ entries.map Prod.fst) :
    setKey entries (.text name) value =
      entries.map fun entry => if entry.1 = .text name then (entry.1, value) else entry := by
  induction entries with
  | nil => cases old
  | cons entry rest ih =>
    obtain ⟨fresh, later⟩ := List.nodup_cons.mp distinct
    rw [setKey, List.map_cons]
    by_cases same : entry.1 = .text name
    · rw [if_pos (Scalar.sameKey_text.mpr same), if_pos same]
      have kept : ∀ other ∈ rest, (if other.1 = .text name then (other.1, value) else other) =
          other := by
        intro other member
        refine if_neg fun again => fresh ?_
        rw [same, ← again]
        exact List.mem_map_of_mem member
      rw [List.map_congr_left kept, List.map_id']
    · rw [if_neg (Scalar.sameKey_text.not.mpr same), if_neg same, ih later]
      exact (List.mem_cons.mp old).resolve_left (Ne.symm same)

/-- Setting names to one value replaces the values of those that are there and appends the
others. -/
theorem foldl_setKey (names : List String) {entries : List (Scalar × Yaml)} (value : Yaml)
    (distinct : (entries.map Prod.fst).Nodup) :
    ∃ others : List String,
      names.foldl (fun entries name => setKey entries (.text name) value) entries =
        (entries.map fun entry =>
          if ∃ name ∈ names, entry.1 = .text name then (entry.1, value) else entry) ++
          others.map (fun name => (.text name, value)) ∧
      ∀ name ∈ others, Scalar.text name ∉ entries.map Prod.fst := by
  induction names generalizing entries with
  | nil => exact ⟨[], by simp, nofun⟩
  | cons first rest ih =>
    rw [List.foldl_cons]
    by_cases old : Scalar.text first ∈ entries.map Prod.fst
    · have keys : (entries.map fun entry =>
          if entry.1 = .text first then (entry.1, value) else entry).map Prod.fst =
          entries.map Prod.fst := by
        rw [List.map_map]
        refine List.map_congr_left fun entry _ => ?_
        rw [Function.comp_apply]
        split_ifs <;> rfl
      rw [setKey_old distinct old]
      obtain ⟨others, final, apart⟩ := ih (keys ▸ distinct)
      rw [keys] at apart
      refine ⟨others, ?_, apart⟩
      rw [final, List.map_map]
      congr 1
      refine List.map_congr_left fun entry _ => ?_
      rw [Function.comp_apply]
      by_cases same : entry.1 = .text first
      · simp [same]
      · simp [same]
    · rw [setKey_new old]
      have longer : ((entries ++ [(Scalar.text first, value)]).map Prod.fst).Nodup := by
        rw [List.map_append, List.map_singleton, List.nodup_append]
        refine ⟨distinct, List.nodup_singleton _, fun key member other single => ?_⟩
        rw [List.mem_singleton.mp single]
        rintro rfl
        exact old member
      obtain ⟨others, final, apart⟩ := ih longer
      refine ⟨first :: others, ?_, ?_⟩
      · rw [final, List.map_append, List.append_assoc, List.map_singleton, List.map_cons,
          List.singleton_append]
        congr 1
        · refine List.map_congr_left fun entry member => ?_
          have differs : entry.1 ≠ .text first := fun same =>
            old (same ▸ List.mem_map_of_mem member)
          simp [differs]
        · congr 1
          split_ifs <;> rfl
      · refine List.forall_mem_cons.mpr ⟨old, fun name member inside => apart name member ?_⟩
        rw [List.map_append]
        exact List.mem_append_left _ inside

end Dictionary

section Correct

variable {shown : Yaml → String} {prop : Block} {contractId : String}

theorem mapped_mem_validEsTypes {name type : String} (typed : physicalTypeToEs name = some type) :
    type ∈ validEsTypes := by
  unfold physicalTypeToEs at typed
  split at typed <;> cases typed <;> decide

/-- The type of a ready property is a valid one. -/
theorem esType_valid (ready : FieldReady .es prop) :
    ∃ type ∈ validEsTypes, esType shown prop = .text type := by
  obtain ⟨name, mapped, declared, typed⟩ := ready.typed
  obtain ⟨hints, own, override⟩ := ready.overridden rfl
  have found : physicalTypeToEs name = some mapped := typed
  unfold esType
  rw [own, declared]
  change ∃ type ∈ validEsTypes, esTypeOf shown prop hints ((physicalTypeToEs name).getD "") = _
  rw [found, Option.getD_some, esTypeOf]
  split_ifs
  · exact ⟨"date", by decide, rfl⟩
  · exact ⟨"double", by decide, rfl⟩
  · rcases override with absent | ⟨type, valid, given⟩
    · refine ⟨mapped, mapped_mem_validEsTypes found, ?_⟩
      rw [Yaml.orElse, absent]
      rfl
    · refine ⟨type, valid, ?_⟩
      rw [given, Yaml.orElse, if_pos]
      have nonempty : ∀ other ∈ validEsTypes, (Yaml.text other).truthy := by decide
      exact nonempty type valid

/-- The mapping of a ready property. -/
def esBlock (shown : Yaml → String) (prop : Block) : List (String × Yaml) :=
  ("type", esType shown prop) :: esOptions shown prop (esType shown prop)

theorem esFieldMapping_eq_ok (ready : FieldReady .es prop) :
    esFieldMapping shown contractId prop = .ok (.mapping (Yaml.fields (esBlock shown prop))) := by
  obtain ⟨name, mapped, declared, typed⟩ := ready.typed
  obtain ⟨hints, own, -⟩ := ready.overridden rfl
  obtain ⟨type, valid, typeIs⟩ : ∃ type ∈ validEsTypes, esType shown prop = .text type :=
    esType_valid ready
  have same : esTypeOf shown prop hints mapped = esType shown prop := by
    have found : physicalTypeToEs name = some mapped := typed
    unfold esType
    rw [own, declared]
    change _ = esTypeOf shown prop hints ((physicalTypeToEs name).getD "")
    rw [found, Option.getD_some]
  have inside : inSet validEsTypes (.text type) = .ok true :=
    congrArg Except.ok (decide_eq_true valid)
  refine Fallible.bind_eq_ok.mpr ⟨mapped, requireType_of_typed declared typed, ?_⟩
  refine Fallible.bind_eq_ok.mpr ⟨hints, by rw [own]; rfl, ?_⟩
  dsimp only
  rw [same, typeIs]
  refine Fallible.bind_eq_ok.mpr ⟨true, inside, ?_⟩
  rw [if_pos rfl, esBlock, typeIs]

/-- The mapping of a property is written as it is. -/
theorem json_esBlock (ready : FieldReady .es prop) :
    (Yaml.mapping (Yaml.fields (esBlock shown prop))).json =
      some (.mapping (Yaml.fields (esBlock shown prop))) := by
  obtain ⟨type, -, typeIs⟩ : ∃ type ∈ validEsTypes, esType shown prop = .text type :=
    esType_valid ready
  have options : ∀ entry ∈ esOptions shown prop (esType shown prop),
      entry.2.json = some entry.2 := by
    intro entry member
    unfold esOptions at member
    split_ifs at member <;> simp only [List.mem_singleton, List.not_mem_nil] at member <;>
      subst member <;> rfl
  refine Yaml.json_fields.mpr ⟨_, ?_, rfl⟩
  refine List.forall₂_same.mpr (List.forall_mem_cons.mpr ⟨⟨rfl, ?_⟩, fun entry member =>
    ⟨rfl, options entry member⟩⟩)
  rw [typeIs]
  exact Yaml.json_text _

theorem json_geoPoint : geoPoint.json = some geoPoint := by
  refine Yaml.json_fields.mpr ⟨_, ?_, rfl⟩
  exact .cons ⟨rfl, Yaml.json_text _⟩ (.cons ⟨rfl, Yaml.json_boolean _⟩ .nil)

/-- The key of a property. -/
def keyOf (prop : Block) : Scalar :=
  match nameOf prop with
  | .scalar name => name
  | _ => .null

theorem keyOf_of_text {name : String} (named : nameOf prop = .text name) :
    keyOf prop = .text name := by
  rw [keyOf, named]
  rfl

/-- Properties with distinct texts for names fill the mapping one after the other. -/
theorem esSteps_eq_ok {props : List Block} {entries : List (Scalar × Yaml)}
    (ready : ∀ prop ∈ props, FieldReady .es prop)
    (named : ∀ prop ∈ props, ∃ name, nameOf prop = .text name)
    (distinct : (entries.map Prod.fst ++ props.map keyOf).Nodup) :
    props.foldlM (esStep shown contractId) entries = .ok (entries ++ props.map fun prop =>
      (keyOf prop, .mapping (Yaml.fields (esBlock shown prop)))) := by
  induction props generalizing entries with
  | nil => rw [List.map_nil, List.append_nil]; rfl
  | cons prop rest ih =>
    obtain ⟨readyHere, readyLater⟩ := List.forall_mem_cons.mp ready
    obtain ⟨⟨name, text⟩, namedLater⟩ := List.forall_mem_cons.mp named
    have key : keyOf prop = .text name := keyOf_of_text text
    rw [List.map_cons] at distinct
    have new : Scalar.text name ∉ entries.map Prod.fst := by
      intro old
      have apart := (List.nodup_append.mp distinct).2.2
      exact apart _ old _ List.mem_cons_self key.symm
    have step : esStep shown contractId entries prop = .ok
        (entries ++ [(.text name, .mapping (Yaml.fields (esBlock shown prop)))]) := by
      refine Fallible.bind_eq_ok.mpr ⟨_, esFieldMapping_eq_ok readyHere, ?_⟩
      rw [text]
      exact congrArg Except.ok (setKey_new new)
    refine Fallible.bind_eq_ok.mpr ⟨_, step, ?_⟩
    rw [ih readyLater namedLater, List.map_cons, key, List.append_assoc, List.singleton_append]
    rw [List.map_append, List.map_singleton, ← key, List.append_assoc, List.singleton_append]
    exact distinct

variable (shown) in
/-- Coordinates with texts for names are found. -/
theorem exists_coordinates {props : List Block} (state : Coordinates)
    (named : ∀ prop ∈ props, ∃ name, nameOf prop = .text name) :
    ∃ coordinates, props.foldlM (coordinateStep shown) state = .ok coordinates := by
  induction props generalizing state with
  | nil => exact ⟨state, rfl⟩
  | cons prop rest ih =>
    obtain ⟨⟨name, text⟩, later⟩ := List.forall_mem_cons.mp named
    obtain ⟨next, step⟩ : ∃ next, coordinateStep shown state prop = .ok next := by
      unfold coordinateStep
      rw [text]
      split_ifs
      · exact ⟨_, rfl⟩
      · exact ⟨_, rfl⟩
      · next hashes => exact absurd rfl hashes
      · exact ⟨_, rfl⟩
    obtain ⟨coordinates, found⟩ := ih next later
    exact ⟨coordinates, Fallible.bind_eq_ok.mpr ⟨next, step, found⟩⟩

/-- Entries with texts for keys are written as they are if their values are. -/
theorem jsonEntries_plain {entries : List (Scalar × Yaml)}
    (plain : ∀ entry ∈ entries, (∃ name, entry.1 = .text name) ∧ entry.2.json = some entry.2) :
    Yaml.jsonEntries entries = some entries := by
  induction entries with
  | nil => rfl
  | cons entry rest ih =>
    obtain ⟨⟨⟨name, text⟩, value⟩, later⟩ := List.forall_mem_cons.mp plain
    obtain ⟨key, held⟩ := entry
    obtain rfl : key = .text name := text
    have same : held.json = some held := value
    rw [Yaml.jsonEntries, Scalar.jsonKey, Option.bind_some, same, ih later]
    rfl

/-- What is written has texts for keys. -/
theorem text_of_jsonEntries {entries written : List (Scalar × Yaml)}
    (run : Yaml.jsonEntries entries = some written) :
    ∀ entry ∈ written, ∃ name, entry.1 = .text name := by
  induction entries generalizing written with
  | nil =>
    obtain rfl := Option.some.inj run
    exact nofun
  | cons entry rest ih =>
    rw [Yaml.jsonEntries] at run
    obtain ⟨name, -, run⟩ := Option.bind_eq_some_iff.mp run
    obtain ⟨first, -, run⟩ := Option.bind_eq_some_iff.mp run
    obtain ⟨others, later, rfl⟩ := Option.map_eq_some_iff.mp run
    exact List.forall_mem_cons.mpr ⟨⟨name, rfl⟩, ih later⟩

/-- The entries of a mapping that is written. -/
theorem esEntries_of_dumps {dynamic artifact : Yaml} {properties : List (Scalar × Yaml)}
    (dumped : dumps (esMapping dynamic properties) = .ok artifact) :
    dynamic.json.isSome ∧ ∃ written, Yaml.jsonEntries properties = some written ∧
      esEntries artifact = written.filterMap esEntry := by
  have written := dumps_eq_ok.mp dumped
  obtain ⟨top, outer, rfl⟩ := Yaml.json_fields.mp written
  have mappings := outer.lookup "mappings"
  have inside := Yaml.isSome_json_fields.mp (Option.isSome_of_eq_some written) _
    List.mem_cons_self
  obtain ⟨value, inner⟩ := Option.isSome_iff_exists.mp inside
  obtain ⟨body, writes, rfl⟩ := Yaml.json_fields.mp inner
  have held := writes.lookup "properties"
  have values := Yaml.isSome_json_fields.mp inside
  obtain ⟨result, here⟩ := Option.isSome_iff_exists.mp
    (values _ (List.mem_cons_of_mem _ List.mem_cons_self))
  have run : (Yaml.jsonEntries properties).map .mapping = some result := here
  obtain ⟨own, entries, rfl⟩ := Option.map_eq_some_iff.mp run
  refine ⟨values _ List.mem_cons_self, own, entries, ?_⟩
  have found : Yaml.lookup (Yaml.fields top) "mappings" = some (.mapping (Yaml.fields body)) :=
    mappings.trans inner
  have listed : Yaml.lookup (Yaml.fields body) "properties" = some (.mapping own) :=
    held.trans here
  rw [esEntries, Yaml.get, found, Option.getD_some]
  change (match Yaml.get (Yaml.fields body) "properties" .null with
    | .mapping properties => properties.filterMap esEntry
    | _ => []) = _
  rw [Yaml.get, listed, Option.getD_some]

/-- A mapping of plain entries is written exactly if `dynamic` is. -/
theorem dumps_esMapping {dynamic written : Yaml} {properties : List (Scalar × Yaml)}
    (plain : Yaml.jsonEntries properties = some properties)
    (dynamicWritten : dynamic.json = some written) :
    ∃ artifact, dumps (esMapping dynamic properties) = .ok artifact := by
  have inner : (Yaml.mapping properties).json = some (.mapping properties) := by
    rw [Yaml.json, plain]
    rfl
  obtain ⟨artifact, found⟩ := Option.isSome_iff_exists.mp (Yaml.isSome_json_fields.mpr
    (fun entry member => by
      rw [List.mem_singleton.mp member]
      refine Yaml.isSome_json_fields.mpr fun entry member => ?_
      rcases List.mem_pair.mp member with rfl | rfl
      · exact Option.isSome_of_eq_some dynamicWritten
      · exact Option.isSome_of_eq_some inner) :
    (esMapping dynamic properties).json.isSome)
  exact ⟨artifact, dumps_eq_ok.mpr found⟩

/-- The keys of properties with distinct texts for names. -/
theorem nodup_keyOf {props : List Block}
    (named : ∀ prop ∈ props, ∃ name, nameOf prop = .text name)
    (distinct : (props.map ownName).Nodup) : (props.map keyOf).Nodup := by
  refine List.Nodup.of_map Yaml.scalar ?_
  rw [List.map_map]
  refine (List.map_congr_left fun prop member => ?_ : props.map ownName = _) ▸ distinct
  obtain ⟨name, text⟩ := named prop member
  rw [ownName_of_text text, Function.comp_apply, keyOf_of_text text]
  rfl

/-- The entry of a property, after the geo points are set. -/
def placed (shown : Yaml → String) (names : List String) (prop : Block) : Scalar × Yaml :=
  (keyOf prop, if ∃ name ∈ names, keyOf prop = .text name then geoPoint
    else .mapping (Yaml.fields (esBlock shown prop)))

/-- The type of that entry. -/
def placedType (shown : Yaml → String) (names : List String) (prop : Block) : Yaml :=
  if ∃ name ∈ names, keyOf prop = .text name then .text "geo_point" else esType shown prop

variable (shown) in
/-- Setting the geo points replaces the properties of their names and appends the others. -/
theorem exists_geoPoints {props : List Block} (names : List String)
    (distinct : (props.map keyOf).Nodup) :
    ∃ others : List String,
      names.foldl (fun properties name => setKey properties (.text name) geoPoint)
        (props.map fun prop => (keyOf prop, .mapping (Yaml.fields (esBlock shown prop)))) =
        props.map (placed shown names) ++ others.map (fun name => (.text name, geoPoint)) ∧
      ∀ name ∈ others, Scalar.text name ∉ props.map keyOf := by
  have keys : (props.map fun prop =>
      (keyOf prop, Yaml.mapping (Yaml.fields (esBlock shown prop)))).map Prod.fst =
      props.map keyOf := by
    rw [List.map_map]
    rfl
  obtain ⟨others, final, apart⟩ := foldl_setKey names geoPoint (keys ▸ distinct)
  rw [keys] at apart
  refine ⟨others, ?_, apart⟩
  rw [final, List.map_map]
  congr 1
  refine List.map_congr_left fun prop _ => ?_
  rw [Function.comp_apply, placed]
  split_ifs <;> rfl

/-- The entries that are left are plain. -/
theorem placed_plain {props : List Block} {names others : List String}
    (ready : ∀ prop ∈ props, FieldReady .es prop)
    (named : ∀ prop ∈ props, ∃ name, nameOf prop = .text name) :
    Yaml.jsonEntries (props.map (placed shown names) ++
        others.map fun name => (.text name, geoPoint)) =
      some (props.map (placed shown names) ++ others.map fun name => (.text name, geoPoint)) := by
  refine jsonEntries_plain fun entry member => ?_
  rcases List.mem_append.mp member with own | other
  · obtain ⟨prop, listed, rfl⟩ := List.mem_map.mp own
    obtain ⟨name, text⟩ := named prop listed
    refine ⟨⟨name, keyOf_of_text text⟩, ?_⟩
    rw [placed]
    split_ifs
    · exact json_geoPoint
    · exact json_esBlock (ready prop listed)
  · obtain ⟨name, -, rfl⟩ := List.mem_map.mp other
    exact ⟨⟨name, rfl⟩, json_geoPoint⟩

theorem filterMap_placed {props : List Block} {names others : List String}
    (named : ∀ prop ∈ props, ∃ name, nameOf prop = .text name) :
    (props.map (placed shown names) ++
        others.map fun name => (Scalar.text name, geoPoint)).filterMap esEntry =
      props.map (fun prop => (ownName prop, placedType shown names prop)) ++
        others.map fun name => (Yaml.text name, Yaml.text "geo_point") := by
  rw [List.filterMap_append, List.filterMap_map, List.filterMap_map]
  congr 1
  · rw [← List.filterMap_eq_map]
    refine List.filterMap_congr fun prop member => ?_
    obtain ⟨name, text⟩ := named prop member
    rw [Function.comp_apply, Function.comp_apply, placed, placedType, ownName_of_text text,
      keyOf_of_text text]
    split_ifs <;> rfl
  · rw [← List.filterMap_eq_map]
    rfl

variable (shown contractId) in
/-- What generation comes down to for a ready document. -/
theorem esGenerate_eq {odcsDoc hints : Block} (ready : Ready odcsDoc .es)
    (found : getSchemaGenHints .es odcsDoc = .ok hints)
    (there : ∀ key ∈ requiredSchemaKeys .es, (Yaml.get hints key .null).truthy) :
    esGenerate shown odcsDoc contractId =
      ((iterSchemaProperties odcsDoc).items.foldlM (coordinateStep shown) {}).bind
        fun coordinates =>
      ((iterSchemaProperties odcsDoc).items.foldlM (esStep shown contractId) []).bind
        fun properties =>
      dumps (esMapping (Yaml.get hints "dynamic" (.text "strict"))
        (coordinates.geoNames.foldl (fun properties name => setKey properties (.text name) geoPoint)
          properties)) := by
  have all : (iterSchemaProperties odcsDoc).collect Except.ok =
      .ok (iterSchemaProperties odcsDoc).items :=
    Yielded.collect_eq_ok.mpr ⟨ready.finite,
      Fallible.mapM_eq_ok.mpr (List.forall₂_same.mpr fun _ _ => rfl)⟩
  rw [esGenerate, found]
  change (requireKeys contractId .es hints (requiredSchemaKeys .es)).bind _ = _
  rw [requireKeys_eq_ok there, all]
  rfl

variable {odcsDoc : Block}

variable (shown contractId) in
/-- With distinct texts for names, the entries of the mapping are known: the properties, and the
geo points of other names. -/
theorem exists_esEntries {hints : Block} (ready : Ready odcsDoc .es)
    (found : getSchemaGenHints .es odcsDoc = .ok hints)
    (there : ∀ key ∈ requiredSchemaKeys .es, (Yaml.get hints key .null).truthy)
    {coordinates : Coordinates}
    (located : (iterSchemaProperties odcsDoc).items.foldlM (coordinateStep shown) {} =
      .ok coordinates)
    (named : ∀ prop ∈ (iterSchemaProperties odcsDoc).items, ∃ name, nameOf prop = .text name)
    (distinct : ((iterSchemaProperties odcsDoc).items.map ownName).Nodup) :
    ∃ (others : List String) (properties : List (Scalar × Yaml)),
      esGenerate shown odcsDoc contractId =
        dumps (esMapping (Yaml.get hints "dynamic" (.text "strict")) properties) ∧
      Yaml.jsonEntries properties = some properties ∧
      properties.filterMap esEntry = (iterSchemaProperties odcsDoc).items.map (fun prop =>
        (ownName prop, placedType shown coordinates.geoNames prop)) ++
          others.map (fun name => (.text name, .text "geo_point")) ∧
      ∀ name ∈ others, Scalar.text name ∉ (iterSchemaProperties odcsDoc).items.map keyOf := by
  have keys := nodup_keyOf named distinct
  obtain ⟨others, final, apart⟩ := exists_geoPoints shown coordinates.geoNames keys
  refine ⟨others, _, ?_, placed_plain ready.fields named, filterMap_placed named, apart⟩
  rw [esGenerate_eq shown contractId ready found there, located,
    esSteps_eq_ok ready.fields named (by simpa using keys)]
  change dumps (esMapping _ (List.foldl _ ([] ++ _) _)) = _
  rw [List.nil_append, final]

/-- Names that are listed in a mapping are texts. -/
theorem named_of_listsOnce {artifact dynamic : Yaml} {properties : List (Scalar × Yaml)}
    (dumped : dumps (esMapping dynamic properties) = .ok artifact)
    (lists : ListsOnce ((iterSchemaProperties odcsDoc).items.map fun prop =>
      (ownName prop, esType shown prop)) (esEntries artifact)) :
    ∀ prop ∈ (iterSchemaProperties odcsDoc).items, ∃ name, nameOf prop = .text name := by
  obtain ⟨-, written, json, own⟩ := esEntries_of_dumps dumped
  intro prop member
  have listed := lists.mem_entries (List.mem_map_of_mem member)
  rw [own] at listed
  obtain ⟨entry, held, same⟩ := List.mem_filterMap.mp listed
  obtain ⟨name, text⟩ := text_of_jsonEntries json entry held
  refine ⟨name, text_of_ownName ?_⟩
  unfold esEntry at same
  split at same
  · rw [← (Prod.mk.inj (Option.some.inj same)).1, text]
    rfl
  · cases same

/-- A property that keeps its type is placed with it. -/
theorem placedType_eq_of_clear (clear : EsClear shown odcsDoc) {coordinates : Coordinates}
    (located : (iterSchemaProperties odcsDoc).items.foldlM (coordinateStep shown) {} =
      .ok coordinates) (member : prop ∈ (iterSchemaProperties odcsDoc).items) :
    placedType shown coordinates.geoNames prop = esType shown prop := by
  rw [placedType]
  split_ifs with geo
  · obtain ⟨name, inside, key⟩ := geo
    obtain ⟨own, text⟩ := clear.named prop member
    rw [keyOf_of_text text] at key
    obtain rfl := Scalar.text.inj key
    rw [clear.apart coordinates located prop member own inside text]
  · rfl

end Correct

/-- The index mapping of a ready document delivers every property once exactly if the document is
clear. -/
theorem es_delivers_iff (shown : Yaml → String) {odcsDoc : Block} (contractId : String)
    (ready : Ready odcsDoc .es) :
    (∃ artifact, esGenerate shown odcsDoc contractId = .ok artifact ∧
      ListsOnce ((iterSchemaProperties odcsDoc).items.map fun prop =>
        (ownName prop, esType shown prop)) (esEntries artifact)) ↔
      EsClear shown odcsDoc := by
  obtain ⟨hints, found, there⟩ := ready.hinted (by decide)
  have names : ((iterSchemaProperties odcsDoc).items.map fun prop =>
      (ownName prop, esType shown prop)).map Prod.fst =
      (iterSchemaProperties odcsDoc).items.map ownName := by
    rw [List.map_map]
    rfl
  constructor
  · rintro ⟨artifact, generated, lists⟩
    have run := generated
    rw [esGenerate_eq shown contractId ready found there] at run
    obtain ⟨coordinates, located, run⟩ := Fallible.bind_eq_ok.mp run
    obtain ⟨properties, -, dumped⟩ := Fallible.bind_eq_ok.mp run
    obtain ⟨dynamic, -⟩ := esEntries_of_dumps dumped
    have named := named_of_listsOnce dumped lists
    have distinct := names ▸ lists.nodup
    refine ⟨fun other same => ?_, named, distinct, fun others same prop member name geo text => ?_⟩
    · obtain rfl := Except.ok.inj (found.symm.trans same)
      exact dynamic
    · obtain rfl := Except.ok.inj (located.symm.trans same)
      obtain ⟨others, entries, generates, plain, typed, -⟩ :=
        exists_esEntries shown contractId ready found there located named distinct
      rw [generates] at generated
      obtain ⟨-, written, json, own⟩ := esEntries_of_dumps generated
      obtain rfl := Option.some.inj (plain.symm.trans json)
      rw [own, typed] at lists
      have held : (ownName prop, placedType shown coordinates.geoNames prop) ∈
          (iterSchemaProperties odcsDoc).items.map fun prop =>
            (ownName prop, placedType shown coordinates.geoNames prop) :=
        List.mem_map_of_mem member
      have only := lists.eq_of_mem (List.mem_map_of_mem member) (List.mem_append_left _ held) rfl
      have typeIs : placedType shown coordinates.geoNames prop = .text "geo_point" :=
        if_pos ⟨name, geo, keyOf_of_text text⟩
      exact (Prod.mk.inj only).2.symm.trans typeIs
  · intro clear
    obtain ⟨coordinates, located⟩ := exists_coordinates shown {} clear.named
    obtain ⟨others, properties, generates, plain, typed, apart⟩ :=
      exists_esEntries shown contractId ready found there located clear.named clear.distinct
    obtain ⟨dynamic, written⟩ := Option.isSome_iff_exists.mp (clear.dynamic hints found)
    obtain ⟨artifact, dumped⟩ := dumps_esMapping plain written
    obtain ⟨-, entries, json, own⟩ := esEntries_of_dumps dumped
    obtain rfl := Option.some.inj (plain.symm.trans json)
    have kept : ∀ prop ∈ (iterSchemaProperties odcsDoc).items,
        (ownName prop, placedType shown coordinates.geoNames prop) =
          (ownName prop, esType shown prop) := fun prop member =>
      congrArg (ownName prop, ·) (placedType_eq_of_clear clear located member)
    refine ⟨artifact, generates.trans dumped, ?_⟩
    rw [own, typed, List.map_congr_left kept]
    refine ListsOnce.of_append (names ▸ clear.distinct) fun other member inside => ?_
    obtain ⟨name, listed, rfl⟩ := List.mem_map.mp member
    rw [names] at inside
    obtain ⟨prop, declared, same⟩ := List.mem_map.mp inside
    refine apart name listed (List.mem_map.mpr ⟨prop, declared, ?_⟩)
    exact keyOf_of_text (text_of_ownName same)

end FlOp.Contracts.Gen
