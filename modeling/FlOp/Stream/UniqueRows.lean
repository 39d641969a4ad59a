import FlOp.Library.LabeledSystem
import FlOp.Stream.Corrections
import FlOp.Stream.HandledWork

/-! # One row for each key

Rows are looked up by the text of their key column, first match first. Creations, observations,
forecasts and corrections replace the row of their key, adjustments merge into it, and the other
handlers leave the key columns alone, as long as these carry nothing but keys.
-/

namespace FlOp.Stream

open FlOp.Core Library Mapping BindingTable

/-- Event application as a system: every event is applied, whatever ids are published by then. -/
def applySystem (registry : Registry) (sources : Sources) :
    LabeledSystem EventApplicator (List String × ExecutionEvent) :=
  .ofStep (· = { work := { sources := sources } }) fun applicator delivered =>
    some (applicator.apply registry delivered.1 delivered.2).1

/-- The keys of the rows that have a key column, as texts. -/
def keyTexts (key : String) (rows : List Row) : List String :=
  rows.filterMap fun row => (Dict.get? row key).map Value.shown

/-- Every collection has at most one row per key. -/
def UniqueKeys (registry : Registry) (sources : Sources) : Prop :=
  ∀ c key, registry.keyField c = some key → (keyTexts key (sources.rows c)).Nodup

/-- The key column of a task contract is neither its status nor a work column. -/
def Registry.KeysApart (registry : Registry) : Prop :=
  ∀ c table key, registry.tables.get? c = some table → table.canonicalEntity = "task" →
    named table.entityKeyField = some key →
      named (table.sourceField taskStatusBinding) ≠ some key ∧
        ∀ c' other, registry.tables.get? c' = some other → other.canonicalEntity = "task" →
          key ∉ workFields other

/-- The payload an event writes: an observation is stamped with its arrival. -/
def writtenPayload (registry : Registry) (sources : Sources) (event : ExecutionEvent) : Row :=
  match event.eventType with
  | .observationRecorded =>
    filledPayload event.payload (observationIngestedExtra registry sources event)
  | _ => event.payload

/-- The first contract of an entity, if the payload has its key column. -/
def keyedContract (registry : Registry) (sources : Sources) (entity : String) (payload : Row) :
    Option (String × String) :=
  (registry.contractsFor entity sources).head?.bind fun contract =>
    (named contract.2.entityKeyField).bind fun key =>
      if key ∈ Dict.keys payload then some (contract.1, key) else none

/-- The collection and key column that an event writes its payload under. -/
def upsertTarget (registry : Registry) (sources : Sources) (event : ExecutionEvent) :
    Option (String × String) :=
  let payload := writtenPayload registry sources event
  match event.eventType with
  | .orderCreated => keyedContract registry sources "task" payload
  | .forecastUpdated => keyedContract registry sources "forecast" payload
  | .observationRecorded => keyedContract registry sources "observation" payload
  | .entityCorrected => correctionTarget registry sources payload
  | _ => none

/-- The key columns that an event writes or looks up rows under. -/
def writtenKeys (registry : Registry) (sources : Sources) (event : ExecutionEvent) : List String :=
  match event.eventType with
  | .inventoryAdjusted => (registry.contractsFor "location" sources).filterMap fun entry =>
      (named entry.2.entityKeyField).filter (· ∈ Dict.keys event.payload)
  | _ => ((upsertTarget registry sources event).map Prod.snd).toList

/-- No row is written under a key that reads like a missing one. -/
def NamesKeys (registry : Registry) (sources : Sources) (event : ExecutionEvent) : Prop :=
  ∀ key ∈ writtenKeys registry sources event,
    ((writtenPayload registry sources event).value key).shown ≠ "None"

instance (registry : Registry) (sources : Sources) (event : ExecutionEvent) :
    Decidable (NamesKeys registry sources event) :=
  inferInstanceAs (Decidable (∀ key ∈ writtenKeys registry sources event, _))

section Rows

variable {key ref : String} {row payload : Row} {rows : List Row}

@[simp] theorem keyTexts_append (rows others : List Row) :
    keyTexts key (rows ++ others) = keyTexts key rows ++ keyTexts key others :=
  List.filterMap_append

theorem hasKey_iff : row.hasKey key ref = true ↔
    ((Dict.get? row key).map Value.shown).getD "None" = ref := by
  rw [Row.hasKey, decide_eq_true_iff, Row.value, Dict.getD]
  cases Dict.get? row key <;> rfl

/-- Rewriting rows keeps their keys if each row keeps its own. -/
theorem keyTexts_rewriteNamed {update : Row → Row}
    (keeps : ∀ row, Dict.get? (update row) key = Dict.get? row key) (column ref : String) :
    keyTexts key (rewriteNamed column ref update rows) = keyTexts key rows := by
  unfold keyTexts rewriteNamed
  rw [List.filterMap_map]
  refine List.filterMap_congr fun row _ => ?_
  dsimp only [Function.comp_apply]
  split_ifs
  · rw [keeps]
  · rfl

/-- A text that is no missing key names exactly the rows that have it as their key. -/
theorem hasKey_iff_of_real (real : ref ≠ "None") :
    row.hasKey key ref = true ↔ (Dict.get? row key).map Value.shown = some ref := by
  rw [hasKey_iff]
  cases (Dict.get? row key).map Value.shown with
  | none => exact iff_of_false real.symm nofun
  | some text => exact Option.some_inj.symm

theorem get?_of_mem_keys (present : key ∈ Dict.keys payload) :
    Dict.get? payload key = some (payload.value key) := by
  obtain ⟨value, stored⟩ := Option.isSome_iff_exists.mp ((Dict.mem_keys_iff _ _).mp present)
  rw [Row.value, Dict.getD, stored]
  rfl

/-- A payload under its own key leaves the keys distinct. -/
theorem nodup_keyTexts_upsertRow (present : key ∈ Dict.keys payload)
    (real : (payload.value key).shown ≠ "None") (unique : (keyTexts key rows).Nodup) :
    (keyTexts key (upsertRow rows key payload)).Nodup := by
  refine nodup_filterMap_upsert (k := (payload.value key).shown) ?_
    (fun row => hasKey_iff_of_real real) unique
  rw [get?_of_mem_keys present]
  rfl

/-- A payload without the key column adds no key. -/
theorem keyTexts_append_keyless (absent : key ∉ Dict.keys payload) :
    keyTexts key (rows ++ [payload]) = keyTexts key rows := by
  have none : Dict.get? payload key = none := by
    rwa [Dict.mem_keys_iff, Option.not_isSome_iff_eq_none] at absent
  rw [keyTexts_append]
  simp [keyTexts, none]

/-- Merging a payload into the row of its key leaves the keys as they are. -/
theorem keyTexts_mergedRow {before after : List Row} (present : key ∈ Dict.keys payload)
    (real : (payload.value key).shown ≠ "None")
    (found : row.hasKey key (payload.value key).shown = true) :
    keyTexts key (before ++ mergedRow payload row :: after) =
      keyTexts key (before ++ row :: after) := by
  have same : (Dict.get? (mergedRow payload row) key).map Value.shown =
      (Dict.get? row key).map Value.shown := by
    change (Dict.get? (Dict.update row payload) key).map Value.shown = _
    rw [Dict.get?_update, get?_of_mem_keys present, (hasKey_iff_of_real real).mp found]
    rfl
  unfold keyTexts
  rw [List.filterMap_append, List.filterMap_append, List.filterMap_cons, List.filterMap_cons, same]

end Rows

section Collections

variable {registry : Registry} {sources after : Sources} {c key entity : String}
  {table : BindingTable} {payload : Row} {target : String × String}

/-- What holds of every key column is a matter of the mapped contracts. -/
theorem forall_keyField_iff {P : String → String → Prop} :
    (∀ c key, registry.keyField c = some key → P c key) ↔
      ∀ entry ∈ registry.tables.entries, ∀ key ∈ named entry.2.entityKeyField, P entry.1 key := by
  constructor
  · intro all entry listed key column
    exact all entry.1 key (Option.bind_eq_some_iff.mpr
      ⟨entry.2, (Dict.get?_eq_some_iff _ _ _).mpr listed, column⟩)
  · intro all c key column
    obtain ⟨table, mapped, column⟩ := Option.bind_eq_some_iff.mp column
    exact all (c, table) ((Dict.get?_eq_some_iff _ _ _).mp mapped) key column

instance : Decidable (UniqueKeys registry sources) :=
  decidable_of_iff _ forall_keyField_iff.symm

theorem keyField_eq_some_iff : registry.keyField c = some key ↔
    ∃ table, registry.tables.get? c = some table ∧ named table.entityKeyField = some key :=
  Option.bind_eq_some_iff

theorem keysApart_iff : registry.KeysApart ↔
    ∀ entry ∈ registry.tables.entries, entry.2.canonicalEntity = "task" →
      ∀ key ∈ named entry.2.entityKeyField,
        named (entry.2.sourceField taskStatusBinding) ≠ some key ∧
          ∀ other ∈ registry.tables.entries, other.2.canonicalEntity = "task" →
            key ∉ workFields other.2 := by
  simp only [Registry.KeysApart, Dict.get?_eq_some_iff, Prod.forall, Option.mem_def]
  constructor
  · intro apart c table mapped task key column
    exact apart c table key mapped task column
  · intro apart c table key mapped task column
    exact apart c table mapped task key column

instance : Decidable registry.KeysApart := decidable_of_iff _ keysApart_iff.symm

/-- A rewrite of an entity's contracts keeps keys unique if it does so for each of them. -/
theorem UniqueKeys.rewrite {rewrite : BindingTable → List Row → List Row}
    (unique : UniqueKeys registry sources)
    (rewrites : Rewrites registry entity rewrite sources after)
    (keeps : ∀ c table key, registry.tables.get? c = some table → table.canonicalEntity = entity →
      named table.entityKeyField = some key → ∀ rows, (keyTexts key rows).Nodup →
        (keyTexts key (rewrite table rows)).Nodup) : UniqueKeys registry after := by
  intro c key column
  obtain ⟨table, mapped, named⟩ := keyField_eq_some_iff.mp column
  by_cases loaded : ∃ table, registry.Loaded entity sources c table
  · obtain ⟨other, loaded⟩ := loaded
    obtain rfl := Option.some.inj (mapped.symm.trans loaded.1)
    rw [rewrites.loaded loaded]
    exact keeps c table key mapped loaded.2.1 named _ (unique c key column)
  · rw [rewrites.others fun table here => loaded ⟨table, here⟩]
    exact unique c key column

/-- An update of one collection keeps keys unique if it does so there. -/
theorem UniqueKeys.updateRows (unique : UniqueKeys registry sources)
    (update : List Row → List Row)
    (keeps : ∀ key, registry.keyField c = some key → (keyTexts key (sources.rows c)).Nodup →
      (keyTexts key (update (sources.rows c))).Nodup) :
    UniqueKeys registry (sources.updateRows c update) := by
  intro other key column
  rw [rows_updateRows]
  split_ifs with here
  · subst here
    exact keeps key column (unique _ key column)
  · exact unique other key column

theorem UniqueKeys.removeByKey (unique : UniqueKeys registry sources) (ref entity : String) :
    UniqueKeys registry (removeByKey registry sources ref entity) := by
  refine unique.rewrite (rewrites_removeByKey registry sources ref entity) ?_
  intro c table key _ _ column rows nodup
  simp only [remainingRows, column, Option.map_some, Option.getD_some]
  exact nodup.sublist (List.filter_sublist.filterMap _)

/-- The picked contract is loaded, and identified by the key column. -/
theorem keyedContract_eq_some
    (picked : keyedContract registry sources entity payload = some target) :
    ∃ table, (registry.contractsFor entity sources).head? = some (target.1, table) ∧
      registry.Loaded entity sources target.1 table ∧ named table.entityKeyField = some target.2 ∧
      target.2 ∈ Dict.keys payload := by
  obtain ⟨⟨c, table⟩, first, rest⟩ := Option.bind_eq_some_iff.mp picked
  obtain ⟨key, column, chosen⟩ := Option.bind_eq_some_iff.mp rest
  split_ifs at chosen with present
  obtain rfl := Option.some.inj chosen
  exact ⟨table, first, mem_contractsFor.mp (List.mem_of_head? first), column, present⟩

theorem UniqueKeys.appendPayload (unique : UniqueKeys registry sources) {event : ExecutionEvent}
    {extra : Option (String × String)}
    (names : ∀ target ∈ keyedContract registry sources entity (filledPayload event.payload extra),
      ((filledPayload event.payload extra).value target.2).shown ≠ "None") :
    UniqueKeys registry (Stream.appendPayload registry sources event entity extra) := by
  rw [appendPayload_eq]
  cases first : (registry.contractsFor entity sources).head? with
  | none => exact unique
  | some contract =>
    obtain ⟨mapped, -, -⟩ := mem_contractsFor.mp (List.mem_of_head? first)
    refine unique.updateRows _ fun key column nodup => ?_
    obtain ⟨table, same, named⟩ := keyField_eq_some_iff.mp column
    obtain rfl := Option.some.inj (mapped.symm.trans same)
    simp only [appendedRows, named]
    split_ifs with present
    · have picked : keyedContract registry sources entity (filledPayload event.payload extra) =
          some (contract.1, key) := by
        simp only [keyedContract, first, Option.bind_some, named, present, if_true]
      exact nodup_keyTexts_upsertRow present (names _ picked) nodup
    · rwa [keyTexts_append_keyless present]

/-- A correction writes under the key it looks rows up by. -/
theorem UniqueKeys.upsertEntity {work : WorkState} (unique : UniqueKeys registry work.sources)
    {event : ExecutionEvent}
    (names : ∀ target ∈ correctionTarget registry work.sources event.payload,
      (event.payload.value target.2).shown ≠ "None") :
    UniqueKeys registry (Stream.upsertEntity registry work event).work.sources := by
  rw [upsertEntity_eq]
  cases chosen : correctionTarget registry work.sources event.payload with
  | none => exact unique
  | some target =>
    have candidate := mem_candidates_of_target chosen
    refine unique.updateRows _ fun key column nodup => ?_
    obtain rfl := Option.some.inj ((keyField_of_mem_candidates candidate).symm.trans column)
    exact nodup_keyTexts_upsertRow (key_mem_of_mem_candidates candidate) (names _ chosen) nodup

theorem NamesKeys.of_target {event : ExecutionEvent} (names : NamesKeys registry sources event)
    (picked : upsertTarget registry sources event = some target) :
    ((writtenPayload registry sources event).value target.2).shown ≠ "None" := by
  refine names target.2 ?_
  unfold writtenKeys
  cases kind : event.eventType with
  | inventoryAdjusted =>
    rw [upsertTarget, kind] at picked
    cases picked
  | taskStarted | taskProgress | taskCompleted | orderCreated | orderCancelled | assetUnavailable
  | forecastUpdated | observationRecorded | entityCorrected => simp [picked]

theorem NamesKeys.of_location {event : ExecutionEvent} (names : NamesKeys registry sources event)
    (kind : event.eventType = .inventoryAdjusted)
    (loaded : registry.Loaded "location" sources c table)
    (column : named table.entityKeyField = some key) (present : key ∈ Dict.keys event.payload) :
    (event.payload.value key).shown ≠ "None" := by
  have listed : key ∈ writtenKeys registry sources event := by
    rw [writtenKeys, kind]
    refine List.mem_filterMap.mpr ⟨(c, table), mem_contractsFor.mpr loaded, ?_⟩
    rw [column]
    exact Option.filter_some_pos (decide_eq_true present)
  simpa only [writtenPayload, kind] using names key listed

/-- An adjustment is merged into the row of its key. -/
theorem UniqueKeys.mergeInventory {work : WorkState} (unique : UniqueKeys registry work.sources)
    {event : ExecutionEvent}
    (names : ∀ c table key, registry.Loaded "location" work.sources c table →
      named table.entityKeyField = some key → key ∈ Dict.keys event.payload →
        (event.payload.value key).shown ≠ "None") :
    UniqueKeys registry (Stream.mergeInventory registry work event).work.sources := by
  rcases mergeInventory_cases registry work event with same | ⟨c, table, key, loaded, named,
    present, before, row, after, split, found, -, merged⟩
  · rwa [same]
  · rw [merged]
    refine unique.updateRows _ fun other column nodup => ?_
    have own : registry.keyField c = some key :=
      keyField_eq_some_iff.mpr ⟨table, loaded.1, named⟩
    obtain rfl := Option.some.inj (own.symm.trans column)
    rwa [keyTexts_mergedRow present (names c table key loaded named present) found, ← split]

end Collections

/-! ## Runs -/

/-- The originals of an entry are work columns of task contracts. -/
def CapturesWork (registry : Registry) (entry : CoverageEntry) : Prop :=
  ∀ field ∈ entry.originals.keys, ∃ c table, registry.tables.get? c = some table ∧
    table.canonicalEntity = "task" ∧ field ∈ workFields table

/-- Keys are unique, and the coverage collected so far is about work columns. -/
structure KeysKept (registry : Registry) (work : WorkState) : Prop where
  unique : UniqueKeys registry work.sources
  captured : ∀ id entry, work.coverage.get? id = some entry → CapturesWork registry entry

section Captures

variable {registry : Registry} {work : WorkState} {taskId : String} {payload : Row}
  {entry : CoverageEntry}

theorem capturesWork_of_passEntry
    (captured : ∀ entry, work.coverage.get? taskId = some entry → CapturesWork registry entry)
    (counted : passEntry registry work taskId payload = .ok (some entry)) :
    CapturesWork registry entry := by
  obtain ⟨ring, known, -, -, opened, rfl⟩ := passEntry_eq_some counted
  intro field member
  rcases openEntry_eq_some opened with collected | ⟨-, work, capture, -, rfl⟩
  · exact captured known collected field member
  · rcases captureWorkState_eq_ok capture with ⟨c, table, key, row, loaded, -, -, ok⟩ | rfl
    · exact ⟨c, table, loaded.1, loaded.2.1, mem_workFields_of_rowWorkState ok member⟩
    · cases member

end Captures

section Steps

variable {registry : Registry} {work : WorkState}

/-- Rewriting the rows a reference names keeps keys unique if the key column is left alone. -/
private theorem KeysKept.rewriteTasks {after : Sources} (ref : String)
    {rewrite : BindingTable → Option (List Row → List Row)}
    (kept : KeysKept registry work)
    (rewrites : Rewrites registry "task" (fun table => (rewrite table).getD id) work.sources after)
    (named_rows : ∀ c table key, registry.tables.get? c = some table →
      table.canonicalEntity = "task" → named table.entityKeyField = some key →
        rewrite table = none ∨ ∃ update : Row → Row,
          rewrite table = some (rewriteNamed key ref update) ∧
            ∀ row, Dict.get? (update row) key = Dict.get? row key) :
    UniqueKeys registry after := by
  refine kept.unique.rewrite rewrites fun c table key mapped task column rows nodup => ?_
  rcases named_rows c table key mapped task column with none | ⟨update, rewritten, keeps⟩
  · rw [none]
    exact nodup
  · rw [rewritten, Option.getD_some, keyTexts_rewriteNamed keeps]
    exact nodup

variable (apart : registry.KeysApart)
include apart

private theorem KeysKept.setTaskStarted (kept : KeysKept registry work) (event : ExecutionEvent) :
    KeysKept registry (Stream.setTaskStarted registry work event).work := by
  refine ⟨?_, kept.captured⟩
  refine kept.rewriteTasks event.entityRef (rewrites_setTaskStarted registry work event)
    fun c table key mapped task column => ?_
  have status := (apart c table key mapped task column).1
  unfold startedRows
  rw [column]
  cases bound : named (table.sourceField taskStatusBinding) with
  | none => exact .inl rfl
  | some field =>
    rw [bound] at status
    exact .inr ⟨_, rfl, fun row => get?_start status⟩

private theorem KeysKept.scaleTaskWork (kept : KeysKept registry work) (taskRef : String)
    (fraction : ℚ) (remaining : Option ℚ) :
    KeysKept registry (Stream.scaleTaskWork registry work taskRef fraction remaining) := by
  refine ⟨?_, kept.captured⟩
  refine kept.rewriteTasks taskRef
    (rewrites_scaleTaskWork registry work taskRef fraction remaining)
    fun c table key mapped task column => ?_
  obtain ⟨status, columns⟩ := apart c table key mapped task column
  have fields := columns c table mapped task
  unfold scaledRows
  rw [column]
  cases bound : workFields table with
  | nil => exact .inl rfl
  | cons first others =>
    rw [bound] at fields
    exact .inr ⟨_, rfl, fun row => (get?_start status).trans (get?_scaledWork fields)⟩

private theorem KeysKept.passedWork (kept : KeysKept registry work) (taskId : String)
    {entry : CoverageEntry} (captures : CapturesWork registry entry) :
    KeysKept registry (Stream.passedWork registry work taskId entry) := by
  unfold Stream.passedWork
  dsimp only
  split_ifs
  · refine ⟨kept.unique.removeByKey taskId "task", fun id other found => ?_⟩
    rw [Dict.get?_erase] at found
    split_ifs at found
    exact kept.captured id other found
  · constructor
    · refine kept.rewriteTasks taskId
        (rewrites_setRemainingFromOriginals registry work.sources taskId entry.originals _)
        fun c table key mapped task column => ?_
      obtain ⟨status, columns⟩ := apart c table key mapped task column
      have fields : key ∉ entry.originals.keys := by
        intro member
        obtain ⟨other, otherTable, otherMapped, otherTask, inFields⟩ := captures key member
        exact columns other otherTable otherMapped otherTask inFields
      unfold uncoveredRows
      rw [column]
      exact .inr ⟨_, rfl, fun row => (get?_start status).trans (get?_uncoveredWork fields)⟩
    · intro id other found
      rw [Dict.get?_set] at found
      split_ifs at found
      · obtain rfl := Option.some.inj found
        exact captures
      · exact kept.captured id other found

private theorem KeysKept.scalarWork (kept : KeysKept registry work) (event : ExecutionEvent) :
    KeysKept registry (Stream.scalarWork registry work event) := by
  unfold Stream.scalarWork
  dsimp only
  split
  · exact kept
  · split_ifs
    · exact ⟨kept.unique.removeByKey event.entityRef "task", kept.captured⟩
    · exact kept.scaleTaskWork apart event.entityRef _ _

private theorem KeysKept.readingWork (kept : KeysKept registry work) (taskRef : String)
    (reading : Value) : KeysKept registry (Stream.readingWork registry work taskRef reading) := by
  unfold Stream.readingWork
  split
  · exact kept
  · split_ifs
    · exact ⟨kept.unique.removeByKey taskRef "task", kept.captured⟩
    · exact kept.scaleTaskWork apart taskRef _ _

omit apart in
private theorem KeysKept.recordedWork (kept : KeysKept registry work) {event : ExecutionEvent}
    (kind : event.eventType = .observationRecorded)
    (names : NamesKeys registry work.sources event) :
    KeysKept registry (Stream.recordedWork registry work event) := by
  have written (target : String × String) := @NamesKeys.of_target _ _ target _ names
  simp only [upsertTarget, writtenPayload, kind] at written
  exact ⟨kept.unique.appendPayload written, kept.captured⟩

/-- One event keeps the keys unique, whatever its type. -/
theorem KeysKept.workAfter (kept : KeysKept registry work) {event : ExecutionEvent}
    (names : NamesKeys registry work.sources event) :
    KeysKept registry (Stream.workAfter registry work event) := by
  have written (target : String × String) := @NamesKeys.of_target _ _ target _ names
  unfold Stream.workAfter handledWork leftBehind
  cases kind : event.eventType with
  | taskStarted => exact kept.setTaskStarted apart event
  | taskProgress =>
    cases counted : passEntry registry work event.entityRef event.payload with
    | error raised => simpa [counted, Except.map] using kept
    | ok entry =>
      cases entry with
      | some entry =>
        exact kept.passedWork apart event.entityRef
          (capturesWork_of_passEntry (kept.captured _) counted)
      | none => exact kept.scalarWork apart event
  | taskCompleted | orderCancelled => exact ⟨kept.unique.removeByKey _ _, kept.captured⟩
  | assetUnavailable => exact ⟨kept.unique.removeByKey _ _, kept.captured⟩
  | orderCreated =>
    simp only [upsertTarget, writtenPayload, kind] at written
    have unique : UniqueKeys registry (appendPayload registry work.sources event "task" none) :=
      kept.unique.appendPayload written
    exact ⟨unique, kept.captured⟩
  | forecastUpdated =>
    simp only [upsertTarget, writtenPayload, kind] at written
    dsimp only [updateForecast]
    split_ifs
    · exact kept
    · have unique :
          UniqueKeys registry (appendPayload registry work.sources event "forecast" none) :=
        kept.unique.appendPayload written
      exact ⟨unique, kept.captured⟩
  | observationRecorded =>
    have recorded := kept.recordedWork kind names
    dsimp only
    cases reading : telemetryReading registry (Stream.recordedWork registry work event).sources
        event.payload with
    | none => exact recorded
    | some target =>
      dsimp only
      cases counted : passEntry registry (Stream.recordedWork registry work event) target.1
          event.payload with
      | error raised => exact recorded
      | ok entry =>
        cases entry with
        | some entry =>
          exact recorded.passedWork apart target.1
            (capturesWork_of_passEntry (recorded.captured _) counted)
        | none => exact recorded.readingWork apart target.1 _
  | entityCorrected =>
    simp only [upsertTarget, writtenPayload, kind] at written
    refine ⟨kept.unique.upsertEntity written, ?_⟩
    rw [upsertEntity_eq]
    cases correctionTarget registry work.sources event.payload <;> exact kept.captured
  | inventoryAdjusted =>
    refine ⟨kept.unique.mergeInventory fun c table key => names.of_location kind, ?_⟩
    rcases mergeInventory_cases registry work event with same | ⟨_, _, _, -, -, -, _, _, _, -, -, -,
      merged⟩
    · rw [same]
      exact kept.captured
    · rw [merged]
      exact kept.captured

end Steps

/-- In every run whose payloads name keys, keys are unique after every event. -/
theorem KeysKept.of_reachable {registry : Registry} (apart : registry.KeysApart)
    {sources : Sources} (unique : UniqueKeys registry sources) {applicator : EventApplicator}
    (run : (applySystem registry sources).ReachableWhere
      (fun applicator delivered => NamesKeys registry applicator.work.sources delivered.2)
      applicator) : KeysKept registry applicator.work := by
  refine run.invariant (fun applicator => KeysKept registry applicator.work) ?_ ?_
  · rintro _ rfl
    exact ⟨unique, fun id entry found => by cases found⟩
  · intro s delivered t kept names stepped
    obtain rfl := Option.some.inj stepped
    rw [work_apply]
    split_ifs
    · exact kept
    · exact kept.workAfter apart names

end FlOp.Stream
