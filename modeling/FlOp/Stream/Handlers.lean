import FlOp.Library.KeyedRows
import FlOp.Stream.Apply

/-! # What the handlers do to the rows

Each handler rewrites the rows of single contracts. Its effect is restated here contract by
contract: what happens to the rows of a contract it looks at, and that the others are as before.
-/

namespace FlOp.Stream

open FlOp.Core Library Mapping BindingTable

/-- The rows of a contract; none if it is not loaded. -/
def Sources.rows (sources : Sources) (contractId : String) : List Row :=
  Dict.getD sources contractId []

/-- A contract of this entity is mapped by the table and loaded. -/
def Registry.Loaded (registry : Registry) (entity : String) (sources : Sources)
    (contractId : String) (table : BindingTable) : Prop :=
  registry.tables.get? contractId = some table ∧ table.canonicalEntity = entity ∧
    contractId ∈ sources.keys

variable {registry : Registry} {entity contractId : String} {table : BindingTable}
  {sources : Sources}

theorem mem_contractsFor : (contractId, table) ∈ registry.contractsFor entity sources ↔
    registry.Loaded entity sources contractId table := by
  simp only [Registry.contractsFor, Registry.Loaded, List.mem_filter, decide_eq_true_eq,
    Dict.get?_eq_some_iff]

theorem nodup_contractsFor (registry : Registry) (entity : String) (sources : Sources) :
    ((registry.contractsFor entity sources).map Prod.fst).Nodup :=
  registry.tables.nodupKeys.sublist (List.filter_sublist.map _)

/-- Only the loaded collections matter for the contracts of an entity. -/
theorem contractsFor_congr {other : Sources} (same : ∀ c, c ∈ sources.keys ↔ c ∈ other.keys)
    (registry : Registry) (entity : String) :
    registry.contractsFor entity sources = registry.contractsFor entity other := by
  refine List.filter_congr fun entry _ => ?_
  rw [decide_eq_decide, same]

@[simp] theorem rows_updateRows (update : List Row → List Row) (c : String) :
    (sources.updateRows contractId update).rows c =
      if c = contractId then update (sources.rows c) else sources.rows c := by
  rw [Sources.rows, Sources.updateRows, Dict.getD_set]
  split_ifs with same
  · rw [same]
    rfl
  · rfl

/-- Updating the rows of a loaded contract keeps the loaded collections. -/
theorem mem_keys_updateRows (update : List Row → List Row) (present : contractId ∈ sources.keys)
    (c : String) : c ∈ (sources.updateRows contractId update).keys ↔ c ∈ sources.keys := by
  dsimp only [Sources.updateRows]
  rw [Dict.mem_keys_set]
  exact or_iff_right_of_imp fun same => same ▸ present

/-- A rewrite of the rows of every contract of an entity, one contract after another. -/
structure Rewrites (registry : Registry) (entity : String)
    (rewrite : BindingTable → List Row → List Row) (before after : Sources) : Prop where
  loaded : ∀ {c table}, registry.Loaded entity before c table →
    after.rows c = rewrite table (before.rows c)
  others : ∀ {c}, (∀ table, ¬ registry.Loaded entity before c table) →
    after.rows c = before.rows c
  keys : ∀ c, c ∈ after.keys ↔ c ∈ before.keys

/-- A rewrite of one entity leaves the rows of the others alone. -/
theorem Rewrites.rows_of_ne {rewrite : BindingTable → List Row → List Row} {after : Sources}
    (rewrites : Rewrites registry entity rewrite sources after)
    (mapped : registry.tables.get? contractId = some table)
    (other : table.canonicalEntity ≠ entity) : after.rows contractId = sources.rows contractId := by
  refine rewrites.others fun same loaded => other ?_
  obtain rfl := Option.some.inj (mapped.symm.trans loaded.1)
  exact loaded.2.1

/-- A walk over the contracts of an entity that updates the rows of some of them. -/
theorem rewrites_foldl (rewrite : BindingTable → Option (List Row → List Row))
    (step : Sources → String × BindingTable → Sources)
    (stepped : ∀ sources entry, step sources entry = match rewrite entry.2 with
      | some update => sources.updateRows entry.1 update
      | none => sources) :
    Rewrites registry entity (fun table => (rewrite table).getD id) sources
      ((registry.contractsFor entity sources).foldl step sources) := by
  have one : ∀ item ∈ registry.contractsFor entity sources, ∀ (d : Sources) (c : String),
      Dict.getD (step d item) c [] =
        if c = item.1 then (rewrite item.2).getD id (Dict.getD d c []) else Dict.getD d c [] := by
    intro item _ d c
    rw [stepped]
    cases rewrite item.2 with
    | none => simp
    | some update => exact rows_updateRows update c
  obtain ⟨rewritten, kept⟩ := Dict.getD_foldl_rewrite Prod.fst _
    (nodup_contractsFor registry entity sources) one sources
  refine ⟨fun loaded => rewritten _ (mem_contractsFor.mpr loaded), fun unloaded => ?_, ?_⟩
  · refine kept _ fun member => ?_
    obtain ⟨⟨c, table⟩, listed, rfl⟩ := List.mem_map.mp member
    exact unloaded table (mem_contractsFor.mp listed)
  · intro c
    refine Dict.mem_keys_foldl Prod.fst (fun item _ d present k => ?_)
      (fun item member => (mem_contractsFor.mp member).2.2) c
    rw [stepped]
    cases rewrite item.2 with
    | none => exact Iff.rfl
    | some update => exact mem_keys_updateRows update present k

/-- Rewrite the rows that a reference names. -/
def rewriteNamed (key ref : String) (update : Row → Row) (rows : List Row) : List Row :=
  rows.map fun row => if row.hasKey key ref then update row else row

/-- What `_set_task_started` does to the rows of one contract. -/
def startedRows (taskRef : String) (table : BindingTable) : Option (List Row → List Row) :=
  match named table.entityKeyField, named (table.sourceField taskStatusBinding) with
  | some key, some status => some (rewriteNamed key taskRef fun row => row.start (some status))
  | _, _ => none

theorem rewrites_setTaskStarted (registry : Registry) (work : WorkState) (event : ExecutionEvent) :
    Rewrites registry "task" (fun table => (startedRows event.entityRef table).getD id)
      work.sources (setTaskStarted registry work event).work.sources := by
  refine rewrites_foldl (startedRows event.entityRef) _ fun sources entry => ?_
  unfold startedRows
  cases named entry.2.entityKeyField <;> cases named (entry.2.sourceField taskStatusBinding) <;> rfl

/-- What `_remove_by_key` does to the rows of one contract. -/
def remainingRows (entityRef : String) (table : BindingTable) : Option (List Row → List Row) :=
  (named table.entityKeyField).map fun key rows => rows.filter fun row => !row.hasKey key entityRef

theorem rewrites_removeByKey (registry : Registry) (sources : Sources) (entityRef entity : String) :
    Rewrites registry entity (fun table => (remainingRows entityRef table).getD id)
      sources (removeByKey registry sources entityRef entity) := by
  refine rewrites_foldl (remainingRows entityRef) _ fun sources entry => ?_
  unfold remainingRows
  cases named entry.2.entityKeyField <;> rfl

/-- The work columns of one row after a progress report. -/
def scaledWork (primitives : Primitives) (fields : List String) (fraction : ℚ)
    (remaining : Option ℚ) (row : Row) : Row :=
  match remaining, fields with
  | some quantity, field :: _ => Dict.set row field (primitives.ofFloat (roundTo 2 quantity))
  | some _, [] => row
  | none, fields => fields.foldl (fun row field =>
      match primitives.toFloat (Dict.getD row field (primitives.ofFloat 0)) with
      | some quantity =>
        Dict.set row field (primitives.ofFloat (roundTo 2 (quantity * (1 - fraction))))
      | none => row) row

/-- What `_scale_task_work` does to the rows of one contract. -/
def scaledRows (primitives : Primitives) (taskRef : String) (fraction : ℚ) (remaining : Option ℚ)
    (table : BindingTable) : Option (List Row → List Row) :=
  match named table.entityKeyField, workFields table with
  | some key, first :: others => some <| rewriteNamed key taskRef fun row =>
      Row.start (scaledWork primitives (first :: others) fraction remaining row)
        (named (table.sourceField taskStatusBinding))
  | _, _ => none

theorem rewrites_scaleTaskWork (registry : Registry) (work : WorkState) (taskRef : String)
    (fraction : ℚ) (remaining : Option ℚ) :
    Rewrites registry "task"
      (fun table => (scaledRows registry.primitives taskRef fraction remaining table).getD id)
      work.sources (scaleTaskWork registry work taskRef fraction remaining).sources := by
  refine rewrites_foldl (scaledRows registry.primitives taskRef fraction remaining) _
    fun sources entry => ?_
  unfold scaledRows
  cases named entry.2.entityKeyField with
  | none => rfl
  | some key => cases workFields entry.2 <;> rfl

/-- The work columns of one row after a coverage pass. -/
def uncoveredWork (primitives : Primitives) (originals : Dict String ℚ) (uncovered : ℚ)
    (row : Row) : Row :=
  originals.entries.foldl (fun row original =>
    if original.1 ∈ Dict.keys row then
      Dict.set row original.1 (primitives.ofFloat (roundTo 2 (original.2 * uncovered)))
    else row) row

/-- What `_set_remaining_from_originals` does to the rows of one contract. -/
def uncoveredRows (primitives : Primitives) (taskId : String) (originals : Dict String ℚ)
    (coveredFraction : ℚ) (table : BindingTable) : Option (List Row → List Row) :=
  (named table.entityKeyField).map fun key => rewriteNamed key taskId fun row =>
    Row.start (uncoveredWork primitives originals (max 0 (1 - coveredFraction)) row)
      (named (table.sourceField taskStatusBinding))

theorem rewrites_setRemainingFromOriginals (registry : Registry) (sources : Sources)
    (taskId : String) (originals : Dict String ℚ) (coveredFraction : ℚ) :
    Rewrites registry "task"
      (fun table =>
        (uncoveredRows registry.primitives taskId originals coveredFraction table).getD id)
      sources (setRemainingFromOriginals registry sources taskId originals coveredFraction) := by
  refine rewrites_foldl (uncoveredRows registry.primitives taskId originals coveredFraction) _
    fun sources entry => ?_
  unfold uncoveredRows
  cases named entry.2.entityKeyField <;> rfl

section Upserts

/-- A payload has the key it is written under. -/
theorem hasKey_self (payload : Row) (key : String) :
    payload.hasKey key (payload.value key).shown = true :=
  decide_eq_true rfl

/-- The payload takes the place of the first row with its key, or is added at the end. -/
def upsertRow (rows : List Row) (key : String) (payload : Row) : List Row :=
  upsert (fun row => row.hasKey key (payload.value key).shown) payload rows

theorem replaceRow_getD (rows : List Row) (key : String) (payload : Row) :
    (replaceRow rows key payload).getD (rows ++ [payload]) = upsertRow rows key payload :=
  rfl

/-- The payload of an append with its filler. -/
def filledPayload (payload : Row) (extra : Option (String × String)) : Row :=
  match extra with
  | some (field, filler) =>
    if (Dict.getD payload field (.text "")).shown = "" then Dict.set payload field (.text filler)
    else payload
  | none => payload

/-- What `_append_payload` does to the rows of the contract it picks. -/
def appendedRows (table : BindingTable) (payload : Row) (rows : List Row) : List Row :=
  match named table.entityKeyField with
  | some key => if key ∈ Dict.keys payload then upsertRow rows key payload else rows ++ [payload]
  | none => rows ++ [payload]

theorem appendPayload_eq (registry : Registry) (sources : Sources) (event : ExecutionEvent)
    (entity : String) (extra : Option (String × String)) :
    appendPayload registry sources event entity extra =
      match (registry.contractsFor entity sources).head? with
      | none => sources
      | some (contractId, table) => sources.updateRows contractId
          (appendedRows table (filledPayload event.payload extra)) := by
  unfold appendPayload
  cases contracts : registry.contractsFor entity sources with
  | nil => rfl
  | cons first rest =>
    change Dict.set sources first.1 (Option.getD (match named first.2.entityKeyField with
      | some key => if key ∈ Dict.keys (filledPayload event.payload extra) then
          replaceRow (sources.rows first.1) key (filledPayload event.payload extra) else none
      | none => none) (sources.rows first.1 ++ [filledPayload event.payload extra])) =
      Dict.set sources first.1
        (appendedRows first.2 (filledPayload event.payload extra) (sources.rows first.1))
    unfold appendedRows
    cases named first.2.entityKeyField with
    | none => rfl
    | some key =>
      dsimp only
      split_ifs <;> rfl

/-- Collections a correction may belong to: loaded, and the payload has their key column. -/
def correctionCandidates (registry : Registry) (sources : Sources) (payload : Row) :
    List (String × String) :=
  registry.tables.entries.filterMap fun entry =>
    (named entry.2.entityKeyField).bind fun key =>
      if entry.1 ∈ sources.keys ∧ key ∈ Dict.keys payload then some (entry.1, key) else none

/-- A row of the candidate's collection has the payload's key. -/
def namesRow (sources : Sources) (payload : Row) (candidate : String × String) : Bool :=
  (sources.rows candidate.1).any fun row =>
    row.hasKey candidate.2 (payload.value candidate.2).shown

/-- The collection that a correction goes to: the first candidate with a row of the payload's key,
else the first candidate. -/
def correctionTarget (registry : Registry) (sources : Sources) (payload : Row) :
    Option (String × String) :=
  firstKnown (namesRow sources payload) (correctionCandidates registry sources payload)

theorem isSome_replaceRow (rows : List Row) (key : String) (payload : Row) :
    (replaceRow rows key payload).isSome =
      rows.any fun row => row.hasKey key (payload.value key).shown := by
  rw [replaceRow, Option.isSome_map, List.findIdx?_isSome]

/-- A successful search for a row to replace finds what `upsertRow` makes of its collection. -/
private theorem findSome?_replaceRow (sources : Sources) (payload : Row)
    (candidates : List (String × String)) :
    (candidates.findSome? fun candidate =>
      (replaceRow (sources.rows candidate.1) candidate.2 payload).map fun rows =>
        (candidate.1, rows)) =
    (candidates.find? (namesRow sources payload)).map fun candidate =>
        (candidate.1, upsertRow (sources.rows candidate.1) candidate.2 payload) := by
  induction candidates with
  | nil => rfl
  | cons first rest ih =>
    have search : namesRow sources payload first =
        (replaceRow (sources.rows first.1) first.2 payload).isSome :=
      (isSome_replaceRow (sources.rows first.1) first.2 payload).symm
    rw [List.findSome?_cons, List.find?_cons, search]
    cases replaced : replaceRow (sources.rows first.1) first.2 payload with
    | none => exact ih
    | some rows => simp [← replaceRow_getD, replaced]

theorem upsertEntity_eq (registry : Registry) (work : WorkState) (event : ExecutionEvent) :
    upsertEntity registry work event =
      match correctionTarget registry work.sources event.payload with
      | none => { work := work }
      | some (contractId, key) =>
        { work :=
            { work with
              sources := work.sources.updateRows contractId (upsertRow · key event.payload) }
          bumped := [contractId] } := by
  have search := findSome?_replaceRow work.sources event.payload
    (correctionCandidates registry work.sources event.payload)
  unfold Sources.rows correctionCandidates at search
  unfold upsertEntity correctionTarget firstKnown correctionCandidates
  dsimp only
  rw [search]
  generalize List.filterMap _ registry.tables.entries = candidates
  cases found : candidates.find? (namesRow work.sources event.payload) with
  | some candidate => rfl
  | none =>
    cases candidates with
    | nil => rfl
    | cons first rest =>
      have absent : namesRow work.sources event.payload first = false :=
        Bool.eq_false_iff.mpr (List.find?_eq_none.mp found first List.mem_cons_self)
      have appended : upsertRow (work.sources.rows first.1) first.2 event.payload =
          work.sources.rows first.1 ++ [event.payload] := by
        rw [namesRow, ← isSome_replaceRow, Option.isSome_eq_false_iff,
          Option.isNone_iff_eq_none] at absent
        rw [← replaceRow_getD, absent]
        rfl
      unfold Sources.updateRows
      dsimp only [Option.map_none, Option.none_or, List.head?_cons]
      unfold Sources.rows at appended
      rw [appended]

theorem mem_keys_of_target {payload : Row} {target : String × String}
    (chosen : correctionTarget registry sources payload = some target) :
    target.1 ∈ sources.keys := by
  obtain ⟨entry, -, candidate⟩ := List.mem_filterMap.mp (mem_of_firstKnown chosen)
  obtain ⟨key, -, picked⟩ := Option.bind_eq_some_iff.mp candidate
  split_ifs at picked with loaded
  obtain rfl := Option.some.inj picked
  exact loaded.1

theorem keys_appendPayload (registry : Registry) (sources : Sources) (event : ExecutionEvent)
    (entity : String) (extra : Option (String × String)) (c : String) :
    c ∈ (appendPayload registry sources event entity extra).keys ↔ c ∈ sources.keys := by
  rw [appendPayload_eq]
  cases first : (registry.contractsFor entity sources).head? with
  | none => exact Iff.rfl
  | some contract =>
    have loaded := mem_contractsFor.mp (List.mem_of_head? first)
    exact mem_keys_updateRows _ loaded.2.2 c

/-- What `_merge_inventory` makes of a row. -/
def mergedRow (payload row : Row) : Row :=
  payload.entries.foldl (fun row field => Dict.set row field.1 field.2) row

/-- An inventory adjustment merges its payload into the first row that it names, if any. -/
theorem mergeInventory_cases (registry : Registry) (work : WorkState) (event : ExecutionEvent) :
    (mergeInventory registry work event).work = work ∨
      ∃ c table key, registry.Loaded "location" work.sources c table ∧
        named table.entityKeyField = some key ∧ key ∈ Dict.keys event.payload ∧
        ∃ before row after, work.sources.rows c = before ++ row :: after ∧
          row.hasKey key (event.payload.value key).shown = true ∧
          (∀ earlier ∈ before, earlier.hasKey key (event.payload.value key).shown = false) ∧
          (mergeInventory registry work event).work =
            { work with sources := work.sources.updateRows c fun _ =>
                before ++ mergedRow event.payload row :: after } := by
  unfold mergeInventory
  dsimp only
  generalize search : List.findSome? _ (registry.contractsFor "location" work.sources) = merged
  cases merged with
  | none => exact .inl rfl
  | some result =>
    right
    obtain ⟨⟨c, table⟩, listed, picked⟩ := List.exists_of_findSome?_eq_some search
    obtain ⟨key, column, chosen⟩ := Option.bind_eq_some_iff.mp picked
    dsimp only at chosen
    split_ifs at chosen with present
    obtain ⟨i, position, rfl⟩ := Option.map_eq_some_iff.mp chosen
    obtain ⟨before, row, after, split, earlier, found, modified⟩ := split_of_findIdx? position
    refine ⟨c, table, key, mem_contractsFor.mp listed, column, present, before, row, after, split,
      found, earlier, ?_⟩
    rw [modified]
    rfl

end Upserts

section Columns

variable {key : String} {row : Row}

theorem get?_start {status : Option String} (apart : status ≠ some key) :
    Dict.get? (row.start status) key = Dict.get? row key := by
  cases status with
  | none => rfl
  | some field =>
    have other : key ≠ field := fun same => apart (same ▸ rfl)
    exact (Dict.get?_set _ _ _ _).trans (if_neg other)

theorem get?_scaledWork {primitives : Primitives} {fields : List String} {fraction : ℚ}
    {remaining : Option ℚ} (apart : key ∉ fields) :
    Dict.get? (scaledWork primitives fields fraction remaining row) key = Dict.get? row key := by
  cases remaining with
  | some quantity =>
    cases fields with
    | nil => rfl
    | cons field rest =>
      have other : key ≠ field := fun same => apart (same ▸ List.mem_cons_self)
      exact (Dict.get?_set _ _ _ _).trans (if_neg other)
  | none =>
    unfold scaledWork
    dsimp only
    induction fields generalizing row with
    | nil => rfl
    | cons field rest ih =>
      rw [List.mem_cons, not_or] at apart
      rw [List.foldl_cons, ih apart.2]
      split
      · exact (Dict.get?_set _ _ _ _).trans (if_neg apart.1)
      · rfl

private theorem get?_foldl_uncovered {primitives : Primitives} {uncovered : ℚ}
    {originals : List (String × ℚ)} (apart : key ∉ originals.map Prod.fst) :
    Dict.get? (originals.foldl (fun row original =>
      if original.1 ∈ Dict.keys row then
        Dict.set row original.1 (primitives.ofFloat (roundTo 2 (original.2 * uncovered)))
      else row) row) key = Dict.get? row key := by
  induction originals generalizing row with
  | nil => rfl
  | cons entry rest ih =>
    rw [List.map_cons, List.mem_cons, not_or] at apart
    rw [List.foldl_cons, ih apart.2]
    split_ifs
    · exact (Dict.get?_set _ _ _ _).trans (if_neg apart.1)
    · rfl

theorem get?_uncoveredWork {primitives : Primitives} {originals : Dict String ℚ} {uncovered : ℚ}
    (apart : key ∉ originals.keys) :
    Dict.get? (uncoveredWork primitives originals uncovered row) key = Dict.get? row key :=
  get?_foldl_uncovered apart

/-- A pass adds no columns. -/
theorem keys_uncoveredWork (primitives : Primitives) (originals : Dict String ℚ) (uncovered : ℚ)
    (row : Row) (column : String) :
    column ∈ Dict.keys (uncoveredWork primitives originals uncovered row) ↔
      column ∈ Dict.keys row := by
  unfold uncoveredWork
  generalize originals.entries = entries
  induction entries generalizing row with
  | nil => exact Iff.rfl
  | cons entry rest ih =>
    rw [List.foldl_cons, ih]
    split_ifs with present
    · rw [Dict.mem_keys_set]
      exact or_iff_right_of_imp fun same => same ▸ present
    · exact Iff.rfl

/-- A column with an original is set to what is uncovered of it, if the row has the column. -/
theorem get?_uncoveredWork_of_original {primitives : Primitives} {originals : Dict String ℚ}
    {uncovered original : ℚ} (known : originals.get? key = some original)
    (present : key ∈ Dict.keys row) :
    Dict.get? (uncoveredWork primitives originals uncovered row) key =
      some (primitives.ofFloat (roundTo 2 (original * uncovered))) := by
  obtain ⟨before, after, split⟩ :=
    List.append_of_mem ((Dict.get?_eq_some_iff _ _ _).mp known)
  have nodup := originals.nodupKeys
  rw [split, List.map_append, List.map_cons, List.nodup_middle, List.nodup_cons,
    List.mem_append, not_or] at nodup
  obtain ⟨⟨fresh, later⟩, -⟩ := nodup
  unfold uncoveredWork
  rw [split, List.foldl_append, List.foldl_cons, get?_foldl_uncovered later, if_pos]
  · exact (Dict.get?_set _ _ _ _).trans (if_pos rfl)
  · rwa [Dict.mem_keys_iff, get?_foldl_uncovered fresh, ← Dict.mem_keys_iff]

end Columns

end FlOp.Stream
