import FlOp.Mapping.SolverInputs

/-! # What a working row shows of a column

A path has a type where its resolver shows the attribute that its builder reads from the same path.
The resolver then shows the conversion of the accumulated value to that type, and what the attribute
is without a value where none was accumulated. Every canonical path has a type but the toll of a
link, which no resolver shows.
-/

namespace FlOp.Mapping

open Library FlOp.Core

variable {D : Type}

/-- How the value at a path arrives in a working row. -/
inductive FieldType
  | capability
  | stock (material : String)
  | declared (type : RecordType) (render : Render) (absent : Option Absent)
  | coordinate (key : String)
  | measure (key : String)
  | member (key : String)
  | spanStart
  | spanStop
deriving DecidableEq, Repr

/-- The types of nested paths. -/
def nestedTypes : List (String × FieldType) := [
  ("asset.location.lat", .coordinate "lat"),
  ("asset.location.lon", .coordinate "lon"),
  ("location.inventory.fuel", .stock "fuel"),
  ("location.inventory.fertilizer", .stock "fertilizer"),
  ("location.inventory.energy", .stock "energy"),
  ("forecast.location.lat", .measure "lat"),
  ("forecast.location.lon", .measure "lon"),
  ("forecast.forecastFor.from", .spanStart),
  ("forecast.forecastFor.to", .spanStop),
  ("forecast.value.windSpeed", .member "windSpeed"),
  ("forecast.value.precipitationRate", .member "precipitationRate"),
  ("forecast.value.soilMoisture", .member "soilMoisture")]

/-- The segment with which the paths of an entity begin. -/
def entitySegment (entity : String) : String :=
  if entity = "travel-link" then "travelLink"
  else if entity = "cost-rate" then "costRate"
  else entity

/-- The attribute that is read from a key and shown at it. -/
def directType (entity key : String) : Option FieldType :=
  ((entityResolutions entity).find? fun resolution => resolution.path = [key]).bind fun shown =>
    (((entityAttributes entity).getD []).find? fun own =>
      own.name = shown.name ∧ own.key = key).map fun own =>
        .declared own.type shown.render own.absent

/-- The type of a path of an entity. -/
def fieldType (entity path : String) : Option FieldType :=
  match dottedTokens path with
  | [segment, key] => if segment = entitySegment entity then directType entity key else none
  | segment :: next :: _ =>
    if segment ≠ entitySegment entity then none
    else if entity = "asset" ∧ next ∈ ["capabilities", "availability"] then some .capability
    else nestedTypes.lookup path
  | _ => none

/-- What a working row shows of an accumulated value. -/
def FieldType.form (readers : Readers D) (assetRole : Option String) :
    FieldType → PyValue D → Option (PyValue D)
  | .capability, value => some value
  | .stock _, value => (readers.toFloat value).map .float
  | .declared type render _, value =>
    (readers.convert assetRole type value).map (readers.render render)
  | .coordinate _, value => (readers.validFloat value).map .float
  | .measure _, value => (readers.validFloat value).map .float
  | .member _, value => some value
  | .spanStart, value =>
    if value.truthy then (readers.validTime value).map fun start => .text (readers.isoformat start)
    else some .null
  | .spanStop, .null => some .null
  | .spanStop, value => (readers.validTime value).map fun stop => .text (readers.isoformat stop)

/-- What a working row is given where no value was accumulated. -/
def FieldType.unset (readers : Readers D) (assetRole : Option String) : FieldType → PyValue D
  | .stock _ => .float 0
  | .declared _ render absent =>
    readers.render render (.ofOption (absent.map (·.value assetRole)))
  | _ => .null

/-- The form of an optional value. -/
def FieldType.shown (readers : Readers D) (assetRole : Option String) (type : FieldType) :
    Option (PyValue D) → Option (PyValue D)
  | some value => type.form readers assetRole value
  | none => some (type.unset readers assetRole)

/-- An entry that is found is listed. -/
theorem mem_of_lookup {β : Type} {entries : List (String × β)} {key : String} {value : β}
    (found : entries.lookup key = some value) : (key, value) ∈ entries := by
  obtain ⟨before, after, rfl, -⟩ := List.lookup_eq_some_iff.mp found
  exact List.mem_append_right _ List.mem_cons_self

/-- The entities that have a record. -/
def recordEntities : List String :=
  ["asset", "location", "task", "forecast", "travel-link", "cost-rate"]

theorem mem_recordEntities {entity : String} {attributes : List RecordAttribute}
    (known : entityAttributes entity = some attributes) : entity ∈ recordEntities :=
  List.mem_map_of_mem (f := Prod.fst) (mem_of_lookup known)

section Vocabulary

/-- The canonical paths of each entity, with their working-row keys. -/
def vocabulary : List (String × List (String × String)) := [
  ("asset", canonicalKeys.take 28),
  ("location", (canonicalKeys.drop 28).take 13),
  ("task", (canonicalKeys.drop 41).take 21),
  ("forecast", (canonicalKeys.drop 62).take 8),
  ("travel-link", (canonicalKeys.drop 70).take 8),
  ("cost-rate", canonicalKeys.drop 78)]

theorem flatten_vocabulary : (vocabulary.map Prod.snd).flatten = canonicalKeys := rfl

/-- The entities of the sections, with the classes of their rows. -/
def sectionClasses : List (String × RowClass) :=
  (sections (D := Empty)).map fun own => (own.entity, own.rowClass)

theorem mem_sectionClasses {own : Section D} (member : own ∈ sections) :
    (own.entity, own.rowClass) ∈ sectionClasses :=
  List.mem_map_of_mem (f := fun own : Section D => (own.entity, own.rowClass)) member

/-- The fields whose records have a default of their own. -/
def ownDefaults : List String := ["location_type", "polygon", "priority_class", "status"]

/-- Without a value, a path leaves the default of its field. -/
def FieldType.startsFrom : FieldType → Default → Bool
  | .stock _, default => default = .number 0
  | .declared _ render (some (.text value)), default => render = .plain ∧ default = .text value
  | .declared _ render (some (.number value)), default => render = .plain ∧ default = .number value
  | .declared _ render (some .emptyList), default =>
    (render = .plain ∨ render = .isoIntervals) ∧ default = .emptyList
  | .declared _ _ (some .role), _ => false
  | .declared _ _ (some (.whole _)), _ => false
  | .declared _ _ (some .emptyDict), _ => false
  | _, _ => true

theorem render_null (readers : Readers D) (render : Render) :
    readers.render render .null = .null := by
  cases render <;> rfl

theorem FieldType.unset_of_startsFrom (readers : Readers D) (assetRole : Option String)
    {type : FieldType} {default : Default} (starts : type.startsFrom default) :
    (type.unset readers assetRole).present.getD (ofDefault default) = ofDefault default := by
  unfold FieldType.startsFrom at starts
  split at starts
  · obtain rfl := of_decide_eq_true starts
    rfl
  · obtain ⟨rfl, rfl⟩ := of_decide_eq_true starts
    rfl
  · obtain ⟨rfl, rfl⟩ := of_decide_eq_true starts
    rfl
  · obtain ⟨rfl | rfl, rfl⟩ := of_decide_eq_true starts <;> rfl
  · cases starts
  · cases starts
  · cases starts
  · next noStock noText noNumber noList noRole noWhole noDict =>
    cases type with
    | stock material => exact absurd rfl (noStock material)
    | declared type render absent =>
      have null : (FieldType.declared type render absent).unset readers assetRole = .null := by
        cases absent with
        | none => exact render_null readers render
        | some absent =>
          cases absent with
          | null => exact render_null readers render
          | text value => exact absurd rfl (noText type render value)
          | role => exact absurd rfl (noRole type render)
          | whole value => exact absurd rfl (noWhole type render value)
          | number value => exact absurd rfl (noNumber type render value)
          | emptyList => exact absurd rfl (noList type render)
          | emptyDict => exact absurd rfl (noDict type render)
      rw [null]
      rfl
    | _ => rfl

/-- Every canonical path is a path of its entity and has a type, except for the toll of a link; the
records start from the defaults of the working rows, except for those with their own. -/
theorem vocabulary_typed : ∀ part ∈ vocabulary, ∀ entry ∈ part.2,
    (dottedTokens entry.1).head? = some (entitySegment part.1) ∧
    (entry.1 ≠ "travelLink.tollEur" → ∃ type ∈ fieldType part.1 entry.1,
      ∀ rows ∈ sectionClasses, rows.1 = part.1 →
        ∀ start ∈ rows.2.fields.get? entry.2, ∀ default ∈ start, entry.2 ∉ ownDefaults →
          type.startsFrom default) := by
  decide +kernel

/-- The keys of an entity's paths are distinct. -/
theorem nodup_vocabulary : ∀ part ∈ vocabulary, (part.2.map Prod.snd).Nodup := by
  decide +kernel

/-- A path of an entity is in its part of the vocabulary. -/
theorem exists_part {entity path key : String} (known : entity ∈ recordEntities)
    (keyed : canonicalKey path = some key)
    (own : (dottedTokens path).head? = some (entitySegment entity)) :
    ∃ part ∈ vocabulary, part.1 = entity ∧ (path, key) ∈ part.2 := by
  have listed : (path, key) ∈ (vocabulary.map Prod.snd).flatten := by
    rw [flatten_vocabulary]
    exact mem_of_lookup keyed
  obtain ⟨entries, located, member⟩ := List.mem_flatten.mp listed
  obtain ⟨part, partMember, rfl⟩ := List.mem_map.mp located
  have segments : ∀ first ∈ vocabulary, ∀ entity ∈ recordEntities,
      entitySegment first.1 = entitySegment entity → first.1 = entity := by
    decide
  have head := (vocabulary_typed part partMember _ member).1
  exact ⟨part, partMember, segments part partMember entity known
    (Option.some.inj (head.symm.trans own)), member⟩

/-- The type of a canonical path of an entity. -/
theorem exists_fieldType {entity path key : String} (known : entity ∈ recordEntities)
    (keyed : canonicalKey path = some key)
    (own : (dottedTokens path).head? = some (entitySegment entity))
    (noToll : path ≠ "travelLink.tollEur") :
    ∃ type, fieldType entity path = some type ∧
      ∀ cls default, (entity, cls) ∈ sectionClasses → cls.fields.get? key = some (some default) →
        key ∉ ownDefaults → type.startsFrom default := by
  obtain ⟨part, partMember, rfl, member⟩ := exists_part known keyed own
  obtain ⟨type, typed, starts⟩ := (vocabulary_typed part partMember _ member).2 noToll
  exact ⟨type, typed, fun cls default listed field => starts _ listed rfl _ field _ rfl⟩

/-- A key of an entity belongs to one path. -/
theorem path_eq_of_key {entity path other key : String} (known : entity ∈ recordEntities)
    (keyed : canonicalKey path = some key) (otherKeyed : canonicalKey other = some key)
    (own : (dottedTokens path).head? = some (entitySegment entity))
    (otherOwn : (dottedTokens other).head? = some (entitySegment entity)) : path = other := by
  obtain ⟨part, partMember, rfl, member⟩ := exists_part known keyed own
  obtain ⟨otherPart, otherPartMember, same, otherMember⟩ := exists_part known otherKeyed otherOwn
  have parts : (vocabulary.map Prod.fst).Nodup := by decide
  obtain rfl := List.inj_on_of_nodup_map parts otherPartMember partMember same
  have entries := List.inj_on_of_nodup_map (nodup_vocabulary _ partMember) member otherMember rfl
  exact congrArg Prod.fst entries

end Vocabulary

section Building

variable {readers : Readers D} {assetRole : Option String} {fields : List (String × PyValue D)}

/-- An attribute is the conversion of what its key holds, or what it is without a value. -/
theorem RecordAttribute.read_cases {own : RecordAttribute} {value : PyValue D}
    (read : own.read readers assetRole fields = some value) :
    (lookupEntry fields own.key = none ∧ own.absent.map (·.value assetRole) = some value) ∨
      ∃ held, lookupEntry fields own.key = some held ∧
        readers.convert assetRole own.type held = some value := by
  unfold RecordAttribute.read at read
  cases held : lookupEntry fields own.key with
  | none =>
    rw [held] at read
    exact .inl ⟨rfl, read⟩
  | some given =>
    rw [held] at read
    exact .inr ⟨given, rfl, read⟩

/-- Each attribute of a built record holds what it reads. -/
theorem read_of_buildRecord {attributes : List RecordAttribute}
    (distinct : (attributes.map (·.name)).Nodup) {record : List (String × PyValue D)}
    (built : buildRecord readers assetRole fields attributes = some record) :
    ∀ own ∈ attributes, own.read readers assetRole fields =
      some (.ofOption (lookupEntry record own.name)) := by
  induction attributes generalizing record with
  | nil => exact fun _ member => absurd member List.not_mem_nil
  | cons first rest ih =>
    obtain ⟨fresh, distinct⟩ := List.nodup_cons.mp distinct
    obtain ⟨value, reads, later⟩ := Option.bind_eq_some_iff.mp built
    obtain ⟨others, builtLater, rfl⟩ := Option.map_eq_some_iff.mp later
    refine List.forall_mem_cons.mpr ⟨?_, fun own member => ?_⟩
    · rw [reads, lookupEntry, List.find?_cons_of_pos (by simp)]
      rfl
    · have differs : first.name ≠ own.name := fun same =>
        fresh (List.mem_map.mpr ⟨own, member, same.symm⟩)
      rw [lookupEntry, List.find?_cons_of_neg (by simpa using differs)]
      exact ih distinct builtLater own member

/-- The attributes of an entity have names of their own. -/
theorem nodup_entityAttributes {entity : String} {attributes : List RecordAttribute}
    (known : entityAttributes entity = some attributes) : (attributes.map (·.name)).Nodup := by
  have all : ∀ entry ∈ [("asset", assetAttributes), ("location", locationAttributes),
      ("task", taskAttributes), ("forecast", forecastAttributes),
      ("travel-link", travelLinkAttributes), ("cost-rate", costRateAttributes)],
      (entry.2.map (·.name)).Nodup := by
    decide +kernel
  exact all _ (mem_of_lookup known)

variable {table : MappingTable} {acc : Accumulator D} {emitted : Emitted D}

/-- What an emitted record is made of. -/
theorem emitRecord_spec (emits : emitRecord readers table acc = some (some emitted)) :
    ∃ attributes, entityAttributes table.canonicalEntity = some attributes ∧
      (∀ own ∈ attributes,
        own.read readers table.assetRole acc.attributes = some (emitted.get own.name)) ∧
      (table.canonicalEntity = "asset" → emitted.capabilities = acc.capabilities) ∧
      (table.canonicalEntity = "location" → inventoryPositions readers
        (emitted.text "location_id") acc.inventory = some emitted.inventory) := by
  unfold emitRecord at emits
  split at emits
  · cases emits
  · next attributes known =>
    obtain ⟨record, built, emits⟩ := Option.bind_eq_some_iff.mp emits
    have reads := read_of_buildRecord (nodup_entityAttributes known) built
    refine ⟨attributes, known, ?_⟩
    split at emits
    · next asset =>
      cases emits
      exact ⟨reads, fun _ => rfl, fun location => absurd (asset.symm.trans location) (by decide)⟩
    · next noAsset =>
      split at emits
      · obtain ⟨inventory, stocked, made⟩ := Option.map_eq_some_iff.mp emits
        cases made
        exact ⟨reads, fun asset => absurd asset noAsset, fun _ => stocked⟩
      · next noLocation =>
        cases emits
        exact ⟨reads, fun asset => absurd asset noAsset, fun location =>
          absurd location noLocation⟩

end Building

section Direct

variable {readers : Readers D} {table : MappingTable} {acc : Accumulator D} {emitted : Emitted D}
  {inventory : List InventoryPosition} {binding : MetaBinding} {segment key : String}

/-- Segments that are routed or resolved in a way of their own. -/
def reservedSegments : List String :=
  ["capabilities", "availability", "state", "inventory", "value"]

theorem entitySegment_unreserved :
    ∀ entity ∈ recordEntities, entitySegment entity ∉ reservedSegments := by
  decide

theorem resolutions_unreserved : ∀ entity ∈ recordEntities,
    ∀ resolution ∈ entityResolutions entity, ∀ key, resolution.path = [key] →
      key ∉ reservedSegments := by
  have keys : ∀ entity ∈ recordEntities, ∀ resolution ∈ entityResolutions entity,
      resolution.path.length = 1 → ∀ key ∈ resolution.path, key ∉ reservedSegments := by
    decide +kernel
  intro entity known resolution member key same
  refine keys entity known resolution member (by rw [same]; rfl) key ?_
  rw [same]
  exact List.mem_singleton_self key

/-- A path of two segments without a reserved one is an attribute of its own. -/
theorem slot_of_two_tokens (tokens : dottedTokens binding.binding = [segment, key])
    (plainSegment : segment ∉ reservedSegments) (plainKey : key ∉ reservedSegments) :
    binding.slot = .field [key] := by
  simp only [reservedSegments, List.mem_cons, List.not_mem_nil, or_false, not_or]
    at plainSegment plainKey
  unfold MetaBinding.slot
  simp only [tokens, List.mem_cons, List.not_mem_nil, or_false, List.take_succ_cons,
    List.take_zero, List.cons.injEq, and_true]
  rw [if_neg, if_neg]
  · rfl
  · rintro (⟨-, stocked⟩ | ⟨-, stocked⟩)
    · exact plainKey.2.2.2.1 stocked
    · exact plainKey.2.2.2.1 stocked
  · rintro ((own | own) | (own | own) | (own | own))
    · exact plainSegment.1 own.symm
    · exact plainKey.1 own.symm
    · exact plainSegment.2.1 own.symm
    · exact plainKey.2.1 own.symm
    · exact plainSegment.2.2.1 own.symm
    · exact plainKey.2.2.1 own.symm

/-- Such a path is resolved in the table of its entity. -/
theorem entityValue_of_two_tokens {entity : String}
    (tokens : dottedTokens binding.binding = [segment, key])
    (plainSegment : segment ∉ reservedSegments) (plainKey : key ∉ reservedSegments) :
    entityValue readers entity inventory emitted binding =
      emitted.resolve readers (entityResolutions entity) [key] := by
  simp only [reservedSegments, List.mem_cons, List.not_mem_nil, or_false, not_or]
    at plainSegment plainKey
  unfold entityValue
  split
  · next asset =>
    subst asset
    unfold assetValue
    simp only [tokens, List.mem_cons, List.not_mem_nil, or_false, List.tail_cons]
    rw [if_neg]
    · rfl
    · rintro ((own | own) | (own | own))
      · exact plainSegment.1 own.symm
      · exact plainKey.1 own.symm
      · exact plainSegment.2.1 own.symm
      · exact plainKey.2.1 own.symm
  · split
    · next location =>
      subst location
      unfold locationValue
      simp only [tokens, List.tail_cons, List.take_succ_cons, List.take_zero, List.cons.injEq,
        and_true]
      rw [if_neg plainKey.2.2.2.1]
      rfl
    · split
      · next forecast =>
        subst forecast
        unfold forecastValue
        simp only [tokens, List.tail_cons, List.take_succ_cons, List.take_zero, List.cons.injEq,
          and_true]
        rw [if_neg plainKey.2.2.2.2]
        rfl
      · rw [tokens]
        rfl

/-- A row shows the conversion of the attribute that is read from the key of its path. -/
theorem entityValue_direct (emits : emitRecord readers table acc = some (some emitted))
    (tokens : dottedTokens binding.binding = [segment, key])
    (named : segment = entitySegment table.canonicalEntity) {type : FieldType}
    (typed : directType table.canonicalEntity key = some type) :
    type.shown readers table.assetRole (acc.read binding.slot) =
      some (entityValue readers table.canonicalEntity inventory emitted binding) := by
  obtain ⟨attributes, known, reads, -⟩ := emitRecord_spec emits
  have entity := mem_recordEntities known
  obtain ⟨shown, resolves, found⟩ := Option.bind_eq_some_iff.mp typed
  obtain ⟨own, owned, rfl⟩ := Option.map_eq_some_iff.mp found
  rw [known] at owned
  obtain ⟨sameName, sameKey⟩ : own.name = shown.name ∧ own.key = key := by
    simpa using List.find?_some owned
  have read := reads own (List.mem_of_find?_eq_some owned)
  have plainSegment : segment ∉ reservedSegments := by
    rw [named]
    exact entitySegment_unreserved _ entity
  have plainKey : key ∉ reservedSegments :=
    resolutions_unreserved _ entity shown (List.mem_of_find?_eq_some resolves) key
      (by simpa using List.find?_some resolves)
  rw [slot_of_two_tokens tokens plainSegment plainKey,
    entityValue_of_two_tokens tokens plainSegment plainKey, Emitted.resolve, resolves]
  change FieldType.shown readers table.assetRole _ (lookupEntry acc.attributes key) = _
  rw [sameName] at read
  rcases RecordAttribute.read_cases read with ⟨missing, absent⟩ | ⟨value, held, converts⟩
  · rw [sameKey] at missing
    rw [missing]
    change some (readers.render shown.render (.ofOption (own.absent.map _))) = _
    rw [absent]
    rfl
  · rw [sameKey] at held
    rw [held]
    change (readers.convert table.assetRole own.type value).map _ = _
    rw [converts]
    rfl

end Direct

end FlOp.Mapping
