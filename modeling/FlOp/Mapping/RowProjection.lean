import FlOp.Library.Fallible
import FlOp.Mapping.NestedFields

/-! # The two projections of a row

A physical row reaches the solver in two ways: its columns are renamed as they are, or it is mapped
to a canonical record from which the working row is reconstructed. On every bound field the second
row shows the column of the first in its declared type, or what the policy of the binding makes of a
column without a value.
-/

namespace FlOp.Mapping

open Library FlOp.Core

variable {D : Type}

/-- A table binds each path once, and no path within another or with the term or the material of
another. -/
structure MappingTable.Separate (table : MappingTable) : Prop where
  distinct : (table.bindings.map (·.binding)).Nodup
  apart : table.bindings.Pairwise fun binding other => binding.slot.Apart other.slot

/-- The tables of a section bind canonical paths of its entity, and a shared path with one term. -/
structure Section.Coherent (own : Section D) (tables : List MappingTable) : Prop where
  ownPaths : ∀ table ∈ own.tables tables, ∀ binding ∈ table.bindings,
    canonicalKey binding.binding ≠ none →
      (dottedTokens binding.binding).head? = some (entitySegment own.entity)
  sharedTerms : ∀ table ∈ own.tables tables, ∀ other ∈ own.tables tables,
    ∀ binding ∈ table.bindings, ∀ shared ∈ other.bindings, shared.binding = binding.binding →
      shared.semanticTerm = binding.semanticTerm

/-- The validity of a forecast has a start. -/
def MappingTable.Starts (table : MappingTable) (readers : Readers D)
    (row : Dict String (PyValue D)) : Prop :=
  ∃ binding ∈ table.bindings, binding.binding = "forecast.forecastFor.from" ∧
    ∃ start, binding.coerced readers row = some start ∧ start.truthy

/-- What a field shows of a value; its default stands in for one that is absent. -/
def shownIn (start : Option Default) (value : PyValue D) : PyValue D :=
  value.present.getD (ofDefault (start.getD .null))

/-- A solver value is a raw one, coerced to the kind of its binding and to the type of its path. -/
def SameUpToCoercion (readers : Readers D) (table : MappingTable) (type : FieldType)
    (binding : MetaBinding) (raw shown : PyValue D) : Prop :=
  ∃ value, readers.coerceValue binding.quantityKind raw = some value ∧
    type.form readers table.assetRole value = some shown

/-- The rows of the two projections in the field of one binding. -/
structure FieldAgrees (readers : Readers D) (table : MappingTable) (type : FieldType)
    (row : Dict String (PyValue D)) (binding : MetaBinding) (key : String)
    (start : Option Default) (rawRow solverRow : Dict String (PyValue D)) : Prop where
  renamed : ∀ raw, row.get? binding.sourceField = some raw → rawRow.get? key = some raw
  coerced : ∀ raw, row.get? binding.sourceField = some raw → raw.isMissing = false →
    ∃ shown, SameUpToCoercion readers table type binding raw shown ∧
      solverRow.get? key = some (shownIn start shown)
  filled : ∀ value, (binding.raw row).isMissing → binding.coerced readers row = some value →
    ∃ shown, type.form readers table.assetRole value = some shown ∧
      solverRow.get? key = some (shownIn start shown)
  defaulted : ∀ default, start = some default → row.get? binding.sourceField = none →
    binding.coerced readers row = none → key ∉ ownDefaults →
      rawRow.get? key = some (ofDefault default) ∧ solverRow.get? key = some (ofDefault default)

section Projecting

variable {valueOf : MetaBinding → PyValue D} {bindings : List MetaBinding} {key : String}
  {value : PyValue D}

/-- A projection holds the value that the bindings of a key agree on. -/
theorem get?_project
    (agree : ∀ binding ∈ bindings, canonicalKey binding.binding = some key →
      valueOf binding = value) :
    (project valueOf bindings).get? key =
      if ∃ binding ∈ bindings, canonicalKey binding.binding = some key then value.present
      else none := by
  rw [project, Dict.get?_foldl_step (fun binding => canonicalKey binding.binding = some key)
    value.present]
  · simp
  · intro binding member row
    split
    · next own written keyed present =>
      rw [Dict.get?_set]
      by_cases same : key = own
      · subst same
        rw [if_pos rfl, if_pos keyed, ← agree binding member keyed, present]
        rfl
      · rw [if_neg same, if_neg (fun other => same (Option.some.inj (other.symm.trans keyed)))]
    · next absent =>
      by_cases keyed : canonicalKey binding.binding = some key
      · have missing : value.present = none := by
          rw [← agree binding member keyed]
          cases present : (valueOf binding).present with
          | none => rfl
          | some written => exact absurd present (absent key written keyed)
        rw [if_pos keyed, missing, Option.none_or]
      · rw [if_neg keyed]

theorem get?_projectMany {tables : List MappingTable}
    (agree : ∀ table ∈ tables, ∀ binding ∈ table.bindings,
      canonicalKey binding.binding = some key → valueOf binding = value) :
    (projectMany valueOf tables).get? key =
      if ∃ table ∈ tables, ∃ binding ∈ table.bindings, canonicalKey binding.binding = some key then
        value.present
      else none := by
  rw [projectMany, Dict.get?_foldl_step
    (fun table => ∃ binding ∈ table.bindings, canonicalKey binding.binding = some key)
    value.present]
  · simp
  · intro table member row
    rw [Dict.get?_update, get?_project (agree table member)]
    split <;> simp

/-- Renaming holds the column of the binding of a key. -/
theorem get?_toCanonicalDict {α : Type} {columns : List FieldBinding} {row : Dict String α}
    {binding : FieldBinding} (member : binding ∈ columns)
    (keyed : canonicalKey binding.binding = some key)
    (unique : ∀ other ∈ columns, canonicalKey other.binding = some key → other = binding) :
    (toCanonicalDict columns row).get? key = row.get? binding.sourceField := by
  rw [toCanonicalDict, Dict.get?_foldl_step (fun other => canonicalKey other.binding = some key)
    (row.get? binding.sourceField)]
  · rw [if_pos ⟨binding, member, keyed⟩]
    simp
  · intro other otherMember out
    split
    · next own written otherKeyed held =>
      rw [Dict.get?_set]
      by_cases same : key = own
      · subst same
        obtain rfl := unique other otherMember otherKeyed
        rw [if_pos rfl, if_pos otherKeyed, held]
        rfl
      · rw [if_neg same, if_neg (fun keyed => same (Option.some.inj (keyed.symm.trans otherKeyed)))]
    · next absent =>
      by_cases otherKeyed : canonicalKey other.binding = some key
      · obtain rfl := unique other otherMember otherKeyed
        have missing : row.get? other.sourceField = none := by
          cases held : row.get? other.sourceField with
          | none => rfl
          | some written => exact absurd held (absent key written otherKeyed)
        rw [if_pos otherKeyed, missing, Option.none_or]
      · rw [if_neg otherKeyed]

/-- A filled row holds the default of a field in place of what is missing. -/
theorem RowClass.get?_fromCanonicalDict {α : Type} {ofDefault : Default → α} {cls : RowClass}
    {data filled : Dict String α} (fills : cls.fromCanonicalDict ofDefault data = some filled)
    {start : Option Default} (field : cls.fields.get? key = some start) :
    filled.get? key = some ((data.get? key).getD (ofDefault (start.getD .null))) := by
  unfold RowClass.fromCanonicalDict at fills
  split at fills
  · cases fills
    rw [Dict.get?_eq_some_iff]
    exact List.mem_map.mpr ⟨(key, start), (Dict.get?_eq_some_iff ..).mp field, rfl⟩
  · cases fills

end Projecting

section Rows

variable {readers : Readers D} {registry tables : List MappingTable} {own : Section D}
  {table : MappingTable} {row rawRow solverRow : Dict String (PyValue D)} {emitted : Emitted D}
  {snapshot : Snapshot D} {binding : MetaBinding} {key : String} {start : Option Default}

/-- A resolver looks at the path of a binding and at its term. -/
theorem entityValue_congr {entity : String} {inventory : List InventoryPosition}
    {other : MetaBinding} (path : other.binding = binding.binding)
    (term : other.semanticTerm = binding.semanticTerm) :
    entityValue readers entity inventory emitted other =
      entityValue readers entity inventory emitted binding := by
  simp only [entityValue, assetValue, locationValue, forecastValue, path, term]

/-- A mapped row has gathered the coerced column of every binding. -/
theorem exists_accumulator (separate : table.Separate)
    (mapped : mapRow readers table row = some (some emitted)) :
    ∃ acc, emitRecord readers table acc = some (some emitted) ∧
      ∀ binding ∈ table.bindings, acc.read binding.slot = binding.coerced readers row ∧
        (binding.resolve (binding.raw row) = .null ∨
          ∃ value, binding.coerced readers row = some value) := by
  obtain ⟨outcome, gathered, mapped⟩ := Option.bind_eq_some_iff.mp mapped
  cases outcome with
  | dropped findings => cases mapped
  | kept acc findings =>
    have reads := read_accumulate separate.apart (fun _ _ => Accumulator.read_empty _) gathered
    have coerces := coerced_of_accumulate gathered
    exact ⟨acc, mapped, fun binding member => ⟨reads binding member, coerces binding member⟩⟩

/-- The columns of a contract by canonical keys. -/
theorem get?_rawRow (separate : table.Separate) (coherent : own.Coherent tables)
    (known : own.entity ∈ recordEntities) (selected : table ∈ own.tables tables)
    (loaded : (bindingTables registry).get? table.contractId = some table.toBindingTable)
    (sameClass : contractRowClass.lookup table.contractId = some own.rowClass)
    (renamed : toCanonicalRow ofDefault (bindingTables registry) table.contractId row =
      some rawRow)
    (member : binding ∈ table.bindings) (keyed : canonicalKey binding.binding = some key)
    (field : own.rowClass.fields.get? key = some start) :
    rawRow.get? key =
      some ((row.get? binding.sourceField).getD (ofDefault (start.getD .null))) := by
  obtain ⟨cls, found, filled⟩ := Option.bind_eq_some_iff.mp renamed
  obtain rfl := Option.some.inj (sameClass.symm.trans found)
  rw [RowClass.get?_fromCanonicalDict filled field, loaded]
  have column : binding.toFieldBinding ∈ table.toBindingTable.bindings :=
    List.mem_map_of_mem member
  have ownPath := coherent.ownPaths table selected
  rw [Option.elim_some, get?_toCanonicalDict column keyed]
  intro other otherMember otherKeyed
  obtain ⟨source, sourceMember, rfl⟩ := List.mem_map.mp otherMember
  have path := path_eq_of_key known otherKeyed keyed
    (ownPath source sourceMember (by rw [otherKeyed]; simp))
    (ownPath binding member (by rw [keyed]; simp))
  rw [List.inj_on_of_nodup_map separate.distinct sourceMember member path]

/-- The fields of a reconstructed row. -/
theorem get?_solverRow (coherent : own.Coherent tables) (known : own.entity ∈ recordEntities)
    (selected : table ∈ own.tables tables)
    (projected : own.row readers tables snapshot emitted = some solverRow)
    (member : binding ∈ table.bindings) (keyed : canonicalKey binding.binding = some key)
    (field : own.rowClass.fields.get? key = some start) :
    solverRow.get? key = some (shownIn start
      (entityValue readers own.entity (Snapshot.inventory snapshot) emitted binding)) := by
  have ownPath := coherent.ownPaths table selected binding member (by rw [keyed]; simp)
  have agree : ∀ other ∈ own.tables tables, ∀ shared ∈ other.bindings,
      canonicalKey shared.binding = some key →
        entityValue readers own.entity (Snapshot.inventory snapshot) emitted shared =
          entityValue readers own.entity (Snapshot.inventory snapshot) emitted binding := by
    intro other otherMember shared sharedMember sharedKeyed
    have otherPath := coherent.ownPaths other otherMember shared sharedMember
      (by rw [sharedKeyed]; simp)
    have path := path_eq_of_key known sharedKeyed keyed otherPath ownPath
    exact entityValue_congr path
      (coherent.sharedTerms table selected other otherMember binding member shared sharedMember
        path)
  rw [RowClass.get?_fromCanonicalDict projected field, get?_projectMany agree,
    if_pos ⟨table, selected, binding, member, keyed⟩]
  rfl

/-- The path of the end of a validity. -/
theorem path_of_spanStop {entity path : String} (typed : fieldType entity path = some .spanStop) :
    path = "forecast.forecastFor.to" := by
  rcases fieldType_cases typed with ⟨segment, key, -, -, direct⟩ | ⟨-, same, -⟩ | ⟨-, nested⟩
  · obtain ⟨shown, -, found⟩ := Option.bind_eq_some_iff.mp direct
    obtain ⟨read, -, same⟩ := Option.map_eq_some_iff.mp found
    cases same
  · cases same
  · simpa [nestedTypes] using nested

/-- A start is gathered at its path. -/
theorem exists_start {acc : Accumulator D}
    (reads : ∀ binding ∈ table.bindings, acc.read binding.slot = binding.coerced readers row)
    (starts : table.Starts readers row) :
    ∃ start, acc.read (.field ["forecastFor", "from"]) = some start ∧ start.truthy := by
  obtain ⟨binding, member, path, start, coerced, truthy⟩ := starts
  have tokens : dottedTokens binding.binding = ["forecast", "forecastFor", "from"] := by
    rw [path]
    decide +kernel
  rw [← slot_of_nested tokens (by decide) (by decide)]
  exact ⟨start, (reads binding member).trans coerced, truthy⟩

/-- A column with a value is left to its coercion. -/
theorem coerced_of_present (readers : Readers D) {raw : PyValue D}
    (held : row.get? binding.sourceField = some raw)
    (present : raw.isMissing = false) :
    binding.coerced readers row = readers.coerceValue binding.quantityKind raw ∧
      binding.resolve (binding.raw row) ≠ .null := by
  have read : binding.raw row = raw := by
    rw [MetaBinding.raw, Dict.getD, held]
    rfl
  have kept : binding.resolve raw = raw := by
    unfold MetaBinding.resolve applyMissingValuePolicy
    dsimp only
    rw [if_neg (by simp [present])]
  have noNull : raw ≠ .null := by
    rintro rfl
    cases present
  rw [MetaBinding.coerced, read, kept]
  refine ⟨?_, noNull⟩
  split
  · exact absurd rfl noNull
  · rfl

/-- The two rows agree in a field whose type shows what was gathered. -/
theorem fieldAgrees_of_shown {type : FieldType} {value : PyValue D}
    (rawField : rawRow.get? key =
      some ((row.get? binding.sourceField).getD (ofDefault (start.getD .null))))
    (solverField : solverRow.get? key = some (shownIn start value))
    (shown : type.shown readers table.assetRole (binding.coerced readers row) = some value)
    (coerces : binding.resolve (binding.raw row) = .null ∨
      ∃ value, binding.coerced readers row = some value)
    (starts : ∀ default, start = some default → key ∉ ownDefaults → type.startsFrom default) :
    FieldAgrees readers table type row binding key start rawRow solverRow where
  renamed raw held := by rw [rawField, held, Option.getD_some]
  coerced raw held present := by
    obtain ⟨left, noNull⟩ := coerced_of_present readers held present
    obtain ⟨value, coerced⟩ := coerces.resolve_left noNull
    rw [coerced] at shown
    exact ⟨_, ⟨value, left.symm.trans coerced, shown⟩, solverField⟩
  filled value missing coerced := by
    rw [coerced] at shown
    exact ⟨_, shown, solverField⟩
  defaulted default same absent nothing own := by
    subst same
    rw [nothing] at shown
    obtain rfl := Option.some.inj shown
    rw [rawField, absent, solverField, shownIn]
    exact ⟨rfl, congrArg some (FieldType.unset_of_startsFrom readers _ (starts default rfl own))⟩

/-- The record of a mapped row is in the snapshot of its dataset. -/
theorem mem_snapshot {datasets : List (MappingTable × List (Dict String (PyValue D)))}
    {rows : List (Dict String (PyValue D))}
    (mapped : mapDatasets readers datasets = some snapshot) (dataset : (table, rows) ∈ datasets)
    (member : row ∈ rows) (emits : mapRow readers table row = some (some emitted)) :
    (table.canonicalEntity, emitted) ∈ snapshot := by
  obtain ⟨parts, run, rfl⟩ := Option.map_eq_some_iff.mp mapped
  obtain ⟨part, partMember, mapsDataset⟩ := Fallible.exists_some_of_mapM run dataset
  obtain ⟨outcomes, mapsRows, rfl⟩ := Option.map_eq_some_iff.mp mapsDataset
  obtain ⟨outcome, outcomeMember, made⟩ := Fallible.exists_some_of_mapM mapsRows member
  obtain rfl := Option.some.inj (emits.symm.trans made)
  exact List.mem_flatten.mpr ⟨_, partMember, List.mem_filterMap.mpr ⟨_, outcomeMember, rfl⟩⟩

/-- A record that a section holds has its row in the payload. -/
theorem exists_solverRow {payload : List (String × List (Dict String (PyValue D)))}
    (ownSection : own ∈ sections) (selected : table ∈ own.tables tables)
    (recorded : (own.entity, emitted) ∈ snapshot) (held : own.holds emitted)
    (projected : buildSolverInputs readers tables snapshot = some payload) :
    ∃ rows solverRow, (own.name, rows) ∈ payload ∧ solverRow ∈ rows ∧
      own.row readers tables snapshot emitted = some solverRow := by
  obtain ⟨named, listed, made⟩ := Fallible.exists_some_of_mapM projected ownSection
  obtain ⟨rows, run, rfl⟩ := Option.map_eq_some_iff.mp made
  rw [Section.rows, if_neg (List.ne_nil_of_mem selected)] at run
  have kept : (own.entity, emitted) ∈
      snapshot.filter fun record => record.1 = own.entity ∧ own.holds record.2 :=
    List.mem_filter.mpr ⟨recorded, by simp [held]⟩
  obtain ⟨solverRow, member, row⟩ := Fallible.exists_some_of_mapM run kept
  exact ⟨rows, solverRow, listed, member, row⟩

end Rows

/-- A row that both projections accept is shown alike by both, in every field its table binds. -/
theorem projections_agree {readers : Readers D} {registry tables : List MappingTable}
    {own : Section D} {table : MappingTable} {row rawRow : Dict String (PyValue D)}
    {datasets : List (MappingTable × List (Dict String (PyValue D)))}
    {rows : List (Dict String (PyValue D))} {emitted : Emitted D} {snapshot : Snapshot D}
    {payload : List (String × List (Dict String (PyValue D)))}
    (ownSection : own ∈ sections) (selected : table ∈ own.tables tables)
    (separate : table.Separate) (coherent : own.Coherent tables)
    (loaded : (bindingTables registry).get? table.contractId = some table.toBindingTable)
    (sameClass : contractRowClass.lookup table.contractId = some own.rowClass)
    (mapped : mapDatasets readers datasets = some snapshot) (dataset : (table, rows) ∈ datasets)
    (member : row ∈ rows) (emits : mapRow readers table row = some (some emitted))
    (held : own.holds emitted)
    (ownStock : (Snapshot.inventory snapshot).filter
      (·.inventoryLocationRef = emitted.text "location_id") = emitted.inventory)
    (projected : buildSolverInputs readers tables snapshot = some payload)
    (renamed : toCanonicalRow ofDefault (bindingTables registry) table.contractId row =
      some rawRow) :
    ∃ solverRows solverRow, (own.name, solverRows) ∈ payload ∧ solverRow ∈ solverRows ∧
      own.row readers tables snapshot emitted = some solverRow ∧
      ∀ binding ∈ table.bindings, ∀ key start, canonicalKey binding.binding = some key →
        own.rowClass.fields.get? key = some start →
        binding.binding ≠ "travelLink.tollEur" →
        (binding.binding = "forecast.forecastFor.to" → table.Starts readers row) →
        ∃ type, fieldType own.entity binding.binding = some type ∧
          FieldAgrees readers table type row binding key start rawRow solverRow := by
  obtain ⟨entity, -⟩ : table.canonicalEntity = own.entity ∧ own.takesRole table.assetRole := by
    simpa using (List.mem_filter.mp selected).2
  obtain ⟨acc, emitsRecord, gathered⟩ := exists_accumulator separate emits
  obtain ⟨attributes, attributed, -⟩ := emitRecord_spec emitsRecord
  have known : own.entity ∈ recordEntities := by
    rw [← entity]
    exact mem_recordEntities attributed
  have recorded := mem_snapshot mapped dataset member emits
  rw [entity] at recorded
  obtain ⟨solverRows, solverRow, listed, rowMember, projects⟩ :=
    exists_solverRow ownSection selected recorded held projected
  refine ⟨solverRows, solverRow, listed, rowMember, projects, ?_⟩
  intro binding bound key start keyed field noToll started
  have path := coherent.ownPaths table selected binding bound (by rw [keyed]; simp)
  obtain ⟨type, typed, starts⟩ := exists_fieldType known keyed path noToll
  refine ⟨type, typed, ?_⟩
  have reads := fun binding member => (gathered binding member).1
  have shown := entityValue_shown emitsRecord
    (entity ▸ typed) ownStock (fun stop => exists_start reads (started (path_of_spanStop
      (typed.trans (congrArg some stop)))))
  rw [reads binding bound, entity] at shown
  refine fieldAgrees_of_shown
    (get?_rawRow separate coherent known selected loaded sameClass renamed bound keyed field)
    (get?_solverRow coherent known selected projects bound keyed field) shown
    (gathered binding bound).2 ?_
  intro default same noOwn
  exact starts own.rowClass default (mem_sectionClasses ownSection) (same ▸ field) noOwn

section Vehicles

def travelSpeedBinding : MetaBinding where
  sourceField := "travel_speed_kmh"
  binding := "asset.capabilities.travelSpeed"
  semanticTerm := "urn:xopt:capability:travel-speed"
  canonicalUnit := some "km/h"
  quantityKind := some "speed"
  planningUse := ["routing"]
  missingValuePolicy := some .fallbackToConservativeValue

def loadCapacityBinding : MetaBinding where
  sourceField := "load_capacity_kg"
  binding := "asset.capabilities.loadCapacity"
  semanticTerm := "urn:xopt:capability:load-capacity"
  canonicalUnit := some "kg"
  quantityKind := some "mass"
  planningUse := ["capacity"]
  missingValuePolicy := some .acceptOptional

/-- The mapping of the agricultural vehicles. -/
def vehiclesTable : MappingTable where
  contractId := "vehicles"
  canonicalEntity := "asset"
  assetRole := some "mobile-prime-mover"
  bindings := [
    { sourceField := "vehicle_id", binding := "asset.assetId"
      semanticTerm := "urn:xopt:identity:asset-id", planningUse := ["identity"] },
    { sourceField := "vehicle_type", binding := "asset.assetType"
      semanticTerm := "urn:xopt:attribute:asset-type", planningUse := ["classification"] },
    { sourceField := "rated_power_kw", binding := "asset.capabilities.ratedPower"
      semanticTerm := "urn:xopt:capability:rated-power", canonicalUnit := some "kW"
      quantityKind := some "power", planningUse := ["capacity", "compatibility-filter"]
      qualityPolicyRef := some "dq://assets/rated-power/v1"
      missingValuePolicy := some .rejectForPlanning },
    { sourceField := "fuel_tank_l", binding := "asset.capabilities.fuelTankVolume"
      semanticTerm := "urn:xopt:capability:fuel-tank-volume", canonicalUnit := some "L"
      quantityKind := some "volume", planningUse := ["capacity"]
      missingValuePolicy := some .acceptWithWarning },
    { sourceField := "fuel_consumption_l_per_h"
      binding := "asset.capabilities.fuelConsumptionRate"
      semanticTerm := "urn:xopt:capability:fuel-consumption-rate", canonicalUnit := some "L/h"
      quantityKind := some "flow-rate", planningUse := ["cost"]
      missingValuePolicy := some .acceptWithWarning },
    { sourceField := "current_lat", binding := "asset.location.lat"
      semanticTerm := "urn:xopt:attribute:latitude", canonicalUnit := some "deg"
      quantityKind := some "angle", planningUse := ["geospatial"]
      missingValuePolicy := some .rejectForPlanning },
    { sourceField := "current_lon", binding := "asset.location.lon"
      semanticTerm := "urn:xopt:attribute:longitude", canonicalUnit := some "deg"
      quantityKind := some "angle", planningUse := ["geospatial"]
      missingValuePolicy := some .rejectForPlanning },
    { sourceField := "depot_id", binding := "asset.homeDepotRef"
      semanticTerm := "urn:xopt:relationship:home-depot", planningUse := ["assignment"] },
    travelSpeedBinding,
    loadCapacityBinding]

/-- Readers of values that need no parsing. -/
def typedReaders : Readers Unit where
  parseFloat _ := none
  parseInt _ := none
  literalEval _ := none
  fromIsoformat _ := none
  isoformat _ := ""
  repr _ := ""
  validFloat
    | .float value => some value
    | .int value => some value
    | _ => none
  validTime _ := none

/-- A tractor without a travel speed. -/
def vehicleRow : Dict String (PyValue Unit) :=
  ⟨[("vehicle_id", .text "tractor-1"), ("vehicle_type", .text "tractor"),
    ("rated_power_kw", .int 120), ("current_lat", .float 50), ("current_lon", .float 30),
    ("depot_id", .text "depot-1"), ("load_capacity_kg", .int 900)], by decide⟩

/-- A number of a row. -/
def floatAt (key : String) (row : Dict String (PyValue Unit)) : Option ℚ :=
  match row.get? key with
  | some (.float value) => some value
  | _ => none

/-- The payload of one vehicle. -/
def vehiclePayload : Option (List (String × List (Dict String (PyValue Unit)))) :=
  (mapDatasets typedReaders [(vehiclesTable, [vehicleRow])]).bind
    (buildSolverInputs typedReaders [vehiclesTable])

/-- The column of the load is renamed as it is, and reconstructed as a number. -/
theorem projections_agree_tractor : ∃ rawRow payload rows, ∃ solverRow ∈ rows,
    toCanonicalRow ofDefault (bindingTables [vehiclesTable]) "vehicles" vehicleRow = some rawRow ∧
    vehiclePayload = some payload ∧ ("prime_movers", rows) ∈ payload ∧
    rawRow.get? "load_capacity" = some (.int 900) ∧
    solverRow.get? "load_capacity" = some (.float 900) := by
  have renames : (toCanonicalRow ofDefault (bindingTables [vehiclesTable]) "vehicles"
      vehicleRow).isSome := by decide +kernel
  obtain ⟨rawRow, renamed⟩ := Option.isSome_iff_exists.mp renames
  have emitsHeld : ((mapRow typedReaders vehiclesTable vehicleRow).bind id).map (fun emitted =>
      (emitted.roles, emitted.inventory)) = some (["mobile-prime-mover"], []) := by
    decide +kernel
  obtain ⟨emitted, emits, made⟩ := Option.map_eq_some_iff.mp emitsHeld
  obtain ⟨emits', emits, rfl⟩ := Option.bind_eq_some_iff.mp emits
  obtain ⟨roles, inventory⟩ := Prod.mk.inj made
  have projects : vehiclePayload.isSome := by decide +kernel
  obtain ⟨payload, projected⟩ := Option.isSome_iff_exists.mp projects
  obtain ⟨snapshot, mapped, built⟩ := Option.bind_eq_some_iff.mp projected
  have only : snapshot = [("asset", emitted)] := by
    rw [mapDatasets, List.mapM_cons, List.mapM_nil, mapDataset, List.mapM_cons, List.mapM_nil,
      emits] at mapped
    exact (Option.some.inj mapped).symm
  have primeMovers : assetSection "prime_movers" "mobile-prime-mover" primeMoverRow ∈
      sections (D := Unit) := List.mem_cons_self
  obtain ⟨rows, solverRow, listed, member, -, agree⟩ := projections_agree primeMovers
    (List.mem_cons_self : vehiclesTable ∈ [vehiclesTable])
    ⟨by decide +kernel, by decide +kernel⟩ ⟨by decide +kernel, by decide +kernel⟩
    (by rfl) (by rfl) mapped List.mem_cons_self List.mem_cons_self emits
    (by simp [assetSection, roles]) (by simp [only, Snapshot.inventory, inventory]) built renamed
  obtain ⟨type, typed, fields⟩ := agree loadCapacityBinding (by simp [vehiclesTable])
    "load_capacity" (some (.number 0)) (by decide +kernel) (by decide +kernel) (by decide)
    (fun stop => absurd stop (by decide))
  obtain rfl := Option.some.inj (typed.symm.trans (by decide +kernel :
    fieldType "asset" loadCapacityBinding.binding = some .capability))
  obtain ⟨shown, ⟨value, coerced, form⟩, field⟩ := fields.coerced (.int 900) rfl rfl
  refine ⟨rawRow, payload, rows, solverRow, member, renamed, projected, listed,
    fields.renamed _ rfl, ?_⟩
  cases form
  have coerces : typedReaders.coerceValue loadCapacityBinding.quantityKind (.int 900) =
      some (.float 900) := rfl
  obtain rfl := Option.some.inj (coerces.symm.trans coerced)
  exact field

/-- A missing travel speed falls back to the conservative one in the record, and to the default of
the row class where the columns are renamed. -/
theorem travel_speed_differs :
    (toCanonicalRow ofDefault (bindingTables [vehiclesTable]) "vehicles" vehicleRow).bind
      (floatAt "travel_speed") = some 15 ∧
    (vehiclePayload.bind (·.lookup "prime_movers")).map (·.map (floatAt "travel_speed")) =
      some [some 1] ∧
    ∀ type, fieldType "asset" travelSpeedBinding.binding = some type →
      ¬ SameUpToCoercion typedReaders vehiclesTable type travelSpeedBinding (.float 15)
        (.float 1) := by
  refine ⟨by decide +kernel, by decide +kernel, ?_⟩
  intro type typed
  have capability : fieldType "asset" travelSpeedBinding.binding = some .capability := by
    decide +kernel
  obtain rfl := Option.some.inj (typed.symm.trans capability)
  rintro ⟨value, coerced, shown⟩
  have coerces : typedReaders.coerceValue travelSpeedBinding.quantityKind (.float 15) =
      some (.float 15) := rfl
  obtain rfl := Option.some.inj (coerces.symm.trans coerced)
  cases shown

end Vehicles

end FlOp.Mapping
