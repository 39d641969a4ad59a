import FlOp.Mapping.FieldTypes

/-! # Capabilities, stock and nested attributes

The values that are not attributes of their own: capabilities are found by their term, stock by its
location and material, and coordinates, measures and validity within dictionaries of the row. Each
arrives in the working row as its type says.
-/

namespace FlOp.Mapping

open Library FlOp.Core

variable {D : Type} {readers : Readers D} {table : MappingTable} {acc : Accumulator D}
  {emitted : Emitted D} {inventory : List InventoryPosition} {binding : MetaBinding}

/-- Capabilities are carried from the row to the asset and found by their term. -/
theorem entityValue_capability (emits : emitRecord readers table acc = some (some emitted))
    (asset : table.canonicalEntity = "asset") (segment : String)
    (named : segment ∈ ["capabilities", "availability"])
    (listed : segment ∈ dottedTokens binding.binding) :
    FieldType.capability.shown readers table.assetRole (acc.read binding.slot) =
      some (entityValue readers table.canonicalEntity inventory emitted binding) := by
  obtain ⟨-, -, -, capabilities, -⟩ := emitRecord_spec emits
  simp only [List.mem_cons, List.not_mem_nil, or_false] at named
  have capability : "capabilities" ∈ dottedTokens binding.binding ∨
      "availability" ∈ dottedTokens binding.binding := by
    rcases named with rfl | rfl
    · exact .inl listed
    · exact .inr listed
  have slot : binding.slot = .capability binding.semanticTerm := by
    unfold MetaBinding.slot
    rw [if_pos (by tauto)]
  rw [slot, asset, entityValue, if_pos rfl, assetValue, if_pos capability, capabilities asset,
    Accumulator.read]
  cases acc.capabilities.find? fun capability =>
    decide (capability.semanticTerm = binding.semanticTerm) with
  | none => rfl
  | some capability => rfl

/-- What an attribute of an entity reads. -/
theorem read_of_emitRecord {entity : String} {attributes : List RecordAttribute}
    (emits : emitRecord readers table acc = some (some emitted))
    (same : table.canonicalEntity = entity) (known : entityAttributes entity = some attributes)
    {own : RecordAttribute} (member : own ∈ attributes) :
    own.read readers table.assetRole acc.attributes = some (emitted.get own.name) := by
  obtain ⟨others, found, reads, -⟩ := emitRecord_spec emits
  rw [same, known] at found
  obtain rfl := Option.some.inj found
  exact reads own member

/-- Reading below a key. -/
theorem read_field_pair (acc : Accumulator D) (key next : String) :
    acc.read (.field [key, next]) =
      ((lookupEntry acc.attributes key).bind (PyValue.nesting D).entries?).bind
        (lookupEntry · next) :=
  rfl

section Coordinates

/-- A coordinate of an asset is validated where the asset has a location. -/
theorem shown_coordinate {name key : String}
    (read : RecordAttribute.read ⟨name, "location", .coordinate key, some .null⟩ readers
      table.assetRole acc.attributes = some (emitted.get name)) :
    (FieldType.coordinate key).shown readers table.assetRole (acc.read (.field ["location", key])) =
      some (emitted.get name) := by
  rw [read_field_pair]
  rcases RecordAttribute.read_cases read with ⟨missing, absent⟩ | ⟨location, held, converts⟩
  · rw [missing]
    exact absent
  · rw [held]
    simp only [Readers.convert] at converts
    cases location with
    | dict entries =>
      change FieldType.shown readers table.assetRole _ (lookupEntry entries key) = _
      split at converts
      · change ((lookupEntry entries key).bind readers.validFloat).map PyValue.float = _ at converts
        cases found : lookupEntry entries key with
        | none =>
          rw [found] at converts
          cases converts
        | some value =>
          rw [found] at converts
          exact converts
      · next empty =>
        have none : entries = [] := by
          simpa [PyValue.truthy] using empty
        rw [none]
        exact converts
    | _ =>
      split at converts
      · cases converts
      · exact converts

end Coordinates

section Measures

/-- A conversion of all values keeps the keys. -/
theorem lookupEntry_mapM (convert : PyValue D → Option (PyValue D))
    {entries converted : List (String × PyValue D)}
    (run : (entries.mapM fun entry => (convert entry.2).map fun value => (entry.1, value)) =
      some converted) (key : String) :
    lookupEntry converted key = (lookupEntry entries key).bind convert ∧
      (lookupEntry entries key).isSome = (lookupEntry converted key).isSome := by
  induction entries generalizing converted with
  | nil =>
    cases run
    exact ⟨rfl, rfl⟩
  | cons entry rest ih =>
    rw [List.mapM_cons] at run
    obtain ⟨first, made, run⟩ := Option.bind_eq_some_iff.mp run
    obtain ⟨others, later, run⟩ := Option.bind_eq_some_iff.mp run
    obtain ⟨value, converts, rfl⟩ := Option.map_eq_some_iff.mp made
    cases run
    by_cases same : entry.1 = key
    · simp [lookupEntry, same, converts]
    · have rest := ih later
      simp only [lookupEntry] at rest ⊢
      rw [List.find?_cons_of_neg (by simpa using same),
        List.find?_cons_of_neg (by simpa using same)]
      exact rest

/-- A coordinate of a forecast is validated with its whole location. -/
theorem shown_measure {key : String}
    (read : RecordAttribute.read ⟨"location", "location", .floatDict, some .null⟩ readers
      table.assetRole acc.attributes = some (emitted.get "location")) :
    (FieldType.measure key).shown readers table.assetRole (acc.read (.field ["location", key])) =
      some (readers.render (.part key) (emitted.get "location")) := by
  rw [read_field_pair]
  rcases RecordAttribute.read_cases read with ⟨missing, absent⟩ | ⟨location, held, converts⟩
  · rw [missing, ← Option.some.inj absent]
    rfl
  · rw [held]
    cases location with
    | dict entries =>
      obtain ⟨floats, converted, same⟩ := Option.map_eq_some_iff.mp converts
      have converted : (entries.mapM fun entry => ((readers.validFloat entry.2).map .float).map
          fun value => (entry.1, value)) = some floats := by
        simpa only [Option.map_map, Function.comp_def] using converted
      obtain ⟨found, both⟩ := lookupEntry_mapM (fun value =>
        (readers.validFloat value).map .float) converted key
      rw [← same]
      change FieldType.shown readers table.assetRole _ (lookupEntry entries key) =
        some (.ofOption (lookupEntry floats key))
      cases listed : lookupEntry entries key with
      | none =>
        rw [listed] at found
        rw [found]
        rfl
      | some value =>
        rw [listed] at found both
        cases validated : lookupEntry floats key with
        | none => rw [validated] at both; cases both
        | some float =>
          rw [validated] at found
          exact found.symm
    | _ => cases converts

/-- A forecast carries its measured values as they are. -/
theorem shown_member {key : String}
    (read : RecordAttribute.read ⟨"value", "value", .anyDict, some .emptyDict⟩ readers
      table.assetRole acc.attributes = some (emitted.get "value")) :
    (FieldType.member key).shown readers table.assetRole (acc.read (.field ["value", key])) =
      some (readers.render (.part key) (emitted.get "value")) := by
  rw [read_field_pair]
  rcases RecordAttribute.read_cases read with ⟨missing, absent⟩ | ⟨measured, held, converts⟩
  · rw [missing, ← Option.some.inj absent]
    rfl
  · rw [held]
    cases measured with
    | dict entries =>
      rw [← Option.some.inj converts]
      change FieldType.shown readers table.assetRole _ (lookupEntry entries key) =
        some (.ofOption (lookupEntry entries key))
      cases lookupEntry entries key with
      | none => rfl
      | some value => rfl
    | _ => cases converts

end Measures

section Spans

/-- A validity needs a start; its end may be open. -/
theorem convert_span {entries : List (String × PyValue D)} {span : PyValue D}
    {assetRole : Option String}
    (converts : readers.convert assetRole .span (.dict entries) = some span) :
    (lookupEntry entries "from").filter (·.truthy) = none ∧ span = .null ∨
      ∃ start first stop, lookupEntry entries "from" = some start ∧ start.truthy ∧
        readers.validTime start = some first ∧ span = .interval first stop ∧
        FieldType.spanStop.shown readers assetRole (lookupEntry entries "to") =
          some (readers.render .spanStop span) := by
  simp only [Readers.convert] at converts
  cases started : (lookupEntry entries "from").filter (·.truthy) with
  | none =>
    rw [started] at converts
    exact .inl ⟨rfl, (Option.some.inj converts).symm⟩
  | some start =>
    rw [started] at converts
    obtain ⟨held, truthy⟩ := Option.filter_eq_some_iff.mp started
    obtain ⟨first, valid, converts⟩ := Option.bind_eq_some_iff.mp converts
    refine .inr ⟨start, first, ?_⟩
    split at converts
    · next ends =>
      cases converts
      exact ⟨none, held, truthy, valid, rfl, by rw [ends]; rfl⟩
    · next ends =>
      cases converts
      exact ⟨none, held, truthy, valid, rfl, by rw [ends]; rfl⟩
    · next stop isStop ends =>
      obtain ⟨last, validStop, rfl⟩ := Option.map_eq_some_iff.mp converts
      refine ⟨some last, held, truthy, valid, rfl, ?_⟩
      rw [ends]
      change FieldType.spanStop.form readers assetRole stop = _
      cases stop with
      | null => exact absurd rfl isStop
      | _ => exact congrArg (Option.map _) validStop

/-- The start of a validity is validated where it is given. -/
theorem shown_spanStart
    (read : RecordAttribute.read ⟨"forecast_for", "forecastFor", .span, some .null⟩ readers
      table.assetRole acc.attributes = some (emitted.get "forecast_for")) :
    FieldType.spanStart.shown readers table.assetRole (acc.read (.field ["forecastFor", "from"])) =
      some (readers.render .spanStart (emitted.get "forecast_for")) := by
  rw [read_field_pair]
  rcases RecordAttribute.read_cases read with ⟨missing, absent⟩ | ⟨span, held, converts⟩
  · rw [missing, ← Option.some.inj absent]
    rfl
  · rw [held]
    cases span with
    | dict entries =>
      change FieldType.shown readers table.assetRole _ (lookupEntry entries "from") = _
      rcases convert_span converts with ⟨open', null⟩ |
        ⟨start, first, stop, found, truthy, valid, made, -⟩
      · rw [null]
        cases found : lookupEntry entries "from" with
        | none => rfl
        | some start =>
          rw [found] at open'
          have falsy : ¬ start.truthy = true := by
            simpa [Option.filter] using open'
          exact if_neg falsy
      · rw [found, made]
        change FieldType.spanStart.form readers table.assetRole start = _
        rw [FieldType.form, if_pos truthy, valid]
        rfl
    | _ => cases converts

/-- The end of a validity is validated where its start is given. -/
theorem shown_spanStop
    (read : RecordAttribute.read ⟨"forecast_for", "forecastFor", .span, some .null⟩ readers
      table.assetRole acc.attributes = some (emitted.get "forecast_for"))
    {start : PyValue D} (started : acc.read (.field ["forecastFor", "from"]) = some start)
    (truthy : start.truthy) :
    FieldType.spanStop.shown readers table.assetRole (acc.read (.field ["forecastFor", "to"])) =
      some (readers.render .spanStop (emitted.get "forecast_for")) := by
  rw [read_field_pair] at started ⊢
  rcases RecordAttribute.read_cases read with ⟨missing, -⟩ | ⟨span, held, converts⟩
  · rw [missing] at started
    cases started
  · rw [held] at started ⊢
    cases span with
    | dict entries =>
      change lookupEntry entries "from" = some start at started
      change FieldType.shown readers table.assetRole _ (lookupEntry entries "to") = _
      rcases convert_span converts with ⟨open', -⟩ | ⟨-, -, -, -, -, -, -, ends⟩
      · rw [started] at open'
        simp [Option.filter, truthy] at open'
      · exact ends
    | _ => cases converts

end Spans

section Stock

/-- The stock of a location keeps its entries in their order. -/
theorem find?_inventoryPositions {locationId : String} {entries : List (StockEntry D)}
    {positions : List InventoryPosition}
    (stocked : inventoryPositions readers locationId entries = some positions) (material : String) :
    ((entries.reverse.find? fun entry => entry.material = material).map fun entry =>
        readers.toFloat entry.quantity) =
      (positions.reverse.find? fun position => position.inventoryLocationRef = locationId ∧
        position.materialType = material).map fun position => some position.availableQuantity := by
  induction entries generalizing positions with
  | nil =>
    cases stocked
    rfl
  | cons entry rest ih =>
    obtain ⟨quantity, valid, stocked⟩ := Option.bind_eq_some_iff.mp stocked
    obtain ⟨others, later, rfl⟩ := Option.map_eq_some_iff.mp stocked
    have rest := ih later
    simp only [List.reverse_cons, List.find?_append, Option.map_or, rest]
    by_cases same : entry.material = material
    · simp [same, valid]
    · simp [same]

/-- The stock of a material is what its column holds. -/
theorem shown_stock {material : String}
    (stocked : inventoryPositions readers (emitted.text "location_id") acc.inventory =
      some emitted.inventory)
    (own : inventory.filter (·.inventoryLocationRef = emitted.text "location_id") =
      emitted.inventory) :
    (FieldType.stock material).shown readers table.assetRole (acc.read (.inventory material)) =
      some (.float (stockOf inventory (emitted.text "location_id") material)) := by
  have found := find?_inventoryPositions stocked material
  rw [← own, ← List.filter_reverse, List.find?_filter] at found
  simp only [decide_eq_true_eq, and_self_left] at found
  rw [Accumulator.read, stockOf]
  cases held : acc.inventory.reverse.find? fun entry => entry.material = material with
  | none =>
    rw [held] at found
    have none := Option.map_eq_none_iff.mp found.symm
    rw [none]
    rfl
  | some entry =>
    rw [held] at found
    obtain ⟨position, listed, quantity⟩ := Option.map_eq_some_iff.mp found.symm
    have quantity : some position.availableQuantity = readers.toFloat entry.quantity := quantity
    rw [listed]
    change (readers.toFloat entry.quantity).map _ = _
    rw [← quantity]
    rfl

end Stock

section Paths

variable {path : String} {type : FieldType}

theorem entity_of_entitySegment {entity segment : String} (named : segment = entitySegment entity)
    (plain : segment ∉ ["travelLink", "costRate"]) : entity = segment := by
  unfold entitySegment at named
  split at named
  · exact absurd (by simp [named]) plain
  · split at named
    · exact absurd (by simp [named]) plain
    · exact named.symm

/-- A typed path is an attribute of its own, a capability or nested. -/
theorem fieldType_cases {entity : String} (typed : fieldType entity path = some type) :
    (∃ segment key, dottedTokens path = [segment, key] ∧ segment = entitySegment entity ∧
      directType entity key = some type) ∨
    (entity = "asset" ∧ type = .capability ∧
      ∃ segment ∈ ["capabilities", "availability"], segment ∈ dottedTokens path) ∨
    ((dottedTokens path).head? = some (entitySegment entity) ∧ (path, type) ∈ nestedTypes) := by
  unfold fieldType at typed
  split at typed
  · next segment key tokens =>
    split at typed
    · next named => exact .inl ⟨segment, key, tokens, named, typed⟩
    · cases typed
  · next segment next rest _ tokens =>
    split at typed
    · cases typed
    · next named =>
      split at typed
      · next capability =>
        cases typed
        refine .inr (.inl ⟨capability.1, rfl, next, capability.2, ?_⟩)
        rw [tokens]
        simp
      · refine .inr (.inr ⟨?_, mem_of_lookup typed⟩)
        rw [tokens]
        simpa using named
  · cases typed

/-- A nested path is an attribute below an attribute, or the stock of a location. -/
theorem slot_of_nested {segment key next : String}
    (tokens : dottedTokens binding.binding = [segment, key, next])
    (plain : ∀ token ∈ [segment, key, next], token ∉ ["capabilities", "availability", "state"])
    (noStock : key ≠ "inventory") : binding.slot = .field [key, next] := by
  simp only [List.mem_cons, List.not_mem_nil, or_false, forall_eq_or_imp, forall_eq, not_or]
    at plain
  unfold MetaBinding.slot
  rw [tokens, if_neg, if_neg]
  · rfl
  · simp [noStock]
  · simp only [List.mem_cons, List.not_mem_nil, or_false]
    tauto

/-- A working row shows the coordinates of an asset. -/
theorem entityValue_coordinate (emits : emitRecord readers table acc = some (some emitted))
    (asset : table.canonicalEntity = "asset") {key : String} (named : key ∈ ["lat", "lon"])
    (tokens : dottedTokens binding.binding = ["asset", "location", key]) :
    (FieldType.coordinate key).shown readers table.assetRole (acc.read binding.slot) =
      some (entityValue readers table.canonicalEntity inventory emitted binding) := by
  simp only [List.mem_cons, List.not_mem_nil, or_false] at named
  have reads (own : RecordAttribute) (member : own ∈ assetAttributes) :=
    read_of_emitRecord emits asset rfl member
  rw [asset]
  rcases named with rfl | rfl
  · rw [slot_of_nested tokens (by decide) (by decide),
      shown_coordinate (reads ⟨"location.lat", "location", .coordinate "lat", some .null⟩
        (by decide))]
    simp [entityValue, assetValue, tokens, Emitted.resolve, assetResolutions, Readers.render]
  · rw [slot_of_nested tokens (by decide) (by decide),
      shown_coordinate (reads ⟨"location.lon", "location", .coordinate "lon", some .null⟩
        (by decide))]
    simp [entityValue, assetValue, tokens, Emitted.resolve, assetResolutions, Readers.render]

/-- A working row shows the stock of a location. -/
theorem entityValue_stock (emits : emitRecord readers table acc = some (some emitted))
    (location : table.canonicalEntity = "location") {material : String}
    (tokens : dottedTokens binding.binding = ["location", "inventory", material])
    (plain : material ∉ ["capabilities", "availability", "state"])
    (own : inventory.filter (·.inventoryLocationRef = emitted.text "location_id") =
      emitted.inventory) :
    (FieldType.stock material).shown readers table.assetRole (acc.read binding.slot) =
      some (entityValue readers table.canonicalEntity inventory emitted binding) := by
  obtain ⟨-, -, -, -, stocked⟩ := emitRecord_spec emits
  simp only [List.mem_cons, List.not_mem_nil, or_false, not_or] at plain
  have slot : binding.slot = .inventory material := by
    unfold MetaBinding.slot
    rw [tokens, if_neg]
    · rfl
    · simp only [List.mem_cons, List.not_mem_nil, or_false]
      tauto
  rw [slot, shown_stock (stocked location) own, location]
  simp [entityValue, locationValue, tokens]

/-- A working row shows where, when and what a forecast says. -/
theorem entityValue_forecast (emits : emitRecord readers table acc = some (some emitted))
    (forecast : table.canonicalEntity = "forecast") {key next : String} {type : FieldType}
    (tokens : dottedTokens binding.binding = ["forecast", key, next])
    (plain : next ∉ ["capabilities", "availability", "state"])
    (typed : (key, next, type) ∈ [("location", "lat", .measure "lat"),
      ("location", "lon", .measure "lon"), ("forecastFor", "from", .spanStart),
      ("forecastFor", "to", .spanStop)] ∨ key = "value" ∧ type = .member next)
    (started : type = .spanStop →
      ∃ start, acc.read (.field ["forecastFor", "from"]) = some start ∧ start.truthy) :
    type.shown readers table.assetRole (acc.read binding.slot) =
      some (entityValue readers table.canonicalEntity inventory emitted binding) := by
  have reads (own : RecordAttribute) (member : own ∈ forecastAttributes) :=
    read_of_emitRecord emits forecast rfl member
  have located := reads ⟨"location", "location", .floatDict, some .null⟩ (by decide)
  have valid := reads ⟨"forecast_for", "forecastFor", .span, some .null⟩ (by decide)
  have measured := reads ⟨"value", "value", .anyDict, some .emptyDict⟩ (by decide)
  simp only [List.mem_cons, List.not_mem_nil, or_false, Prod.mk.injEq] at typed
  rw [forecast]
  rcases typed with (⟨rfl, rfl, rfl⟩ | ⟨rfl, rfl, rfl⟩ | ⟨rfl, rfl, rfl⟩ | ⟨rfl, rfl, rfl⟩) |
    ⟨rfl, rfl⟩
  · rw [slot_of_nested tokens (by decide) (by decide), shown_measure located]
    simp [entityValue, forecastValue, tokens, Emitted.resolve, forecastResolutions]
  · rw [slot_of_nested tokens (by decide) (by decide), shown_measure located]
    simp [entityValue, forecastValue, tokens, Emitted.resolve, forecastResolutions]
  · rw [slot_of_nested tokens (by decide) (by decide), shown_spanStart valid]
    simp [entityValue, forecastValue, tokens, Emitted.resolve, forecastResolutions]
  · obtain ⟨start, held, truthy⟩ := started rfl
    rw [slot_of_nested tokens (by decide) (by decide), shown_spanStop valid held truthy]
    simp [entityValue, forecastValue, tokens, Emitted.resolve, forecastResolutions]
  · have tokensPlain : ∀ token ∈ ["forecast", "value", next],
        token ∉ ["capabilities", "availability", "state"] := by
      simp only [List.forall_mem_cons]
      exact ⟨by decide, by decide, plain, by simp⟩
    rw [slot_of_nested tokens tokensPlain (by decide), shown_member measured]
    simp [entityValue, forecastValue, tokens]

/-- The tokens of the nested paths. -/
theorem dottedTokens_nestedTypes : ∀ entry ∈ nestedTypes,
    (∃ key ∈ ["lat", "lon"], entry.2 = .coordinate key ∧
      dottedTokens entry.1 = ["asset", "location", key]) ∨
    (∃ material ∈ ["fuel", "fertilizer", "energy"], entry.2 = .stock material ∧
      dottedTokens entry.1 = ["location", "inventory", material]) ∨
    (∃ own ∈ [("location", "lat", .measure "lat"), ("location", "lon", .measure "lon"),
        ("forecastFor", "from", .spanStart), ("forecastFor", "to", .spanStop)],
      entry.2 = own.2.2 ∧ dottedTokens entry.1 = ["forecast", own.1, own.2.1]) ∨
    (∃ next ∈ ["windSpeed", "precipitationRate", "soilMoisture"], entry.2 = .member next ∧
      dottedTokens entry.1 = ["forecast", "value", next]) := by
  decide +kernel

/-- A working row shows of a typed path what its column was coerced to, in the type of the path. -/
theorem entityValue_shown (emits : emitRecord readers table acc = some (some emitted))
    (typed : fieldType table.canonicalEntity binding.binding = some type)
    (own : inventory.filter (·.inventoryLocationRef = emitted.text "location_id") =
      emitted.inventory)
    (started : type = .spanStop →
      ∃ start, acc.read (.field ["forecastFor", "from"]) = some start ∧ start.truthy) :
    type.shown readers table.assetRole (acc.read binding.slot) =
      some (entityValue readers table.canonicalEntity inventory emitted binding) := by
  rcases fieldType_cases typed with ⟨segment, key, tokens, named, direct⟩ |
    ⟨asset, rfl, segment, named, listed⟩ | ⟨head, nested⟩
  · exact entityValue_direct emits tokens named direct
  · exact entityValue_capability emits asset segment named listed
  · have entity {segment : String} {rest : List String}
        (tokens : dottedTokens binding.binding = segment :: rest)
        (plain : segment ∉ ["travelLink", "costRate"]) : table.canonicalEntity = segment := by
      rw [tokens] at head
      exact entity_of_entitySegment (Option.some.inj head) plain
    rcases dottedTokens_nestedTypes _ nested with ⟨key, named, typed, tokens⟩ |
      ⟨material, known, typed, tokens⟩ | ⟨⟨key, next, own⟩, known, typed, tokens⟩ |
      ⟨next, known, typed, tokens⟩
    · cases typed
      exact entityValue_coordinate emits (entity tokens (by decide)) named tokens
    · cases typed
      have plain : ∀ material ∈ ["fuel", "fertilizer", "energy"],
          material ∉ ["capabilities", "availability", "state"] := by
        decide
      exact entityValue_stock emits (entity tokens (by decide)) tokens (plain material known) own
    · cases typed
      have plain : ∀ next ∈ ["lat", "lon", "from", "to"],
          next ∉ ["capabilities", "availability", "state"] := by
        decide
      have named : next ∈ ["lat", "lon", "from", "to"] := by
        simp only [List.mem_cons, List.not_mem_nil, or_false, Prod.mk.injEq] at known ⊢
        tauto
      exact entityValue_forecast emits (entity tokens (by decide)) tokens (plain next named)
        (.inl known) started
    · cases typed
      have plain : ∀ next ∈ ["windSpeed", "precipitationRate", "soilMoisture"],
          next ∉ ["capabilities", "availability", "state"] := by
        decide
      exact entityValue_forecast emits (entity tokens (by decide)) tokens (plain next known)
        (.inr ⟨rfl, rfl⟩) started

end Paths

end FlOp.Mapping
