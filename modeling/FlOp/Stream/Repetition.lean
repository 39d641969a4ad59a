import FlOp.Stream.UniqueRows

/-! # Writing a row twice

An upsert that is repeated meets the row it wrote. That takes the same collection, which a
correction picks by the rows it knows, and the same payload, which for an observation depends on
when it arrived.
-/

namespace FlOp.Stream

open FlOp.Core Library Mapping BindingTable

/-- The row of the payload's key, as it was written. -/
def Holds (sources : Sources) (target : String × String) (payload : Row) : Prop :=
  (sources.rows target.1).find? (fun row => row.hasKey target.2 (payload.value target.2).shown) =
    some payload

/-- An event that writes the same payload again. -/
structure Repeats (registry : Registry) (sources : Sources) (payload : Row)
    (event again : ExecutionEvent) : Prop where
  eventType : again.eventType = event.eventType
  payload : writtenPayload registry sources again = payload

section Targets

variable {registry : Registry} {sources other : Sources} {work : WorkState}
  {event again : ExecutionEvent} {target : String × String} {entity : String} {payload : Row}

theorem keyedContract_congr (same : ∀ c, c ∈ sources.keys ↔ c ∈ other.keys) :
    keyedContract registry sources entity payload =
      keyedContract registry other entity payload := by
  unfold keyedContract
  rw [contractsFor_congr same]

/-- An append to the picked contract is an upsert under its key column. -/
theorem rows_appendPayload {extra : Option (String × String)}
    (picked : keyedContract registry sources entity (filledPayload event.payload extra) =
      some target) :
    (appendPayload registry sources event entity extra).rows target.1 =
      upsertRow (sources.rows target.1) target.2 (filledPayload event.payload extra) := by
  obtain ⟨table, first, -, column, present⟩ := keyedContract_eq_some picked
  rw [appendPayload_eq, first]
  simp only [rows_updateRows, if_true, appendedRows, column, present]

/-- What progress an observation reports is not written to the collection it is recorded in. -/
theorem rows_workAfter_of_observation {c : String} {table : BindingTable}
    (recorded : event.eventType = .observationRecorded)
    (loaded : registry.Loaded "observation" sources c table) :
    (workAfter registry work event).sources.rows c =
      (recordedWork registry work event).sources.rows c := by
  have other : table.canonicalEntity ≠ "task" := by
    rw [loaded.2.1]
    decide
  unfold workAfter handledWork leftBehind
  rw [recorded]
  dsimp only
  cases telemetryReading registry (recordedWork registry work event).sources event.payload with
  | none => rfl
  | some reading =>
    dsimp only
    cases passEntry registry (recordedWork registry work event) reading.1 event.payload with
    | error raised => rfl
    | ok entry =>
      cases entry with
      | some entry => exact rows_passedWork loaded.1 other
      | none => exact rows_readingWork loaded.1 other

/-- An event that writes its payload upserts it. -/
theorem rows_workAfter_of_target (picked : upsertTarget registry work.sources event = some target) :
    (workAfter registry work event).sources.rows target.1 =
      upsertRow (work.sources.rows target.1) target.2
        (writtenPayload registry work.sources event) := by
  unfold upsertTarget at picked
  cases kind : event.eventType with
  | orderCreated =>
    simp only [kind, writtenPayload] at picked
    simp only [workAfter, handledWork, kind, writtenPayload]
    exact rows_appendPayload picked
  | forecastUpdated =>
    simp only [kind, writtenPayload] at picked
    obtain ⟨-, -, -, -, present⟩ := keyedContract_eq_some picked
    have filled : event.payload.entries ≠ [] := by
      intro empty
      rw [Dict.keys, empty] at present
      cases present
    simp only [workAfter, handledWork, kind, writtenPayload, updateForecast, if_neg filled]
    exact rows_appendPayload picked
  | observationRecorded =>
    simp only [kind, writtenPayload] at picked
    obtain ⟨table, -, loaded, -⟩ := keyedContract_eq_some picked
    rw [rows_workAfter_of_observation kind loaded]
    simp only [writtenPayload, kind]
    exact rows_appendPayload picked
  | entityCorrected =>
    simp only [kind, writtenPayload] at picked
    simp only [workAfter, handledWork, kind, writtenPayload, upsertEntity_eq, picked,
      rows_updateRows, if_true]
  | taskStarted | taskProgress | taskCompleted | orderCancelled | assetUnavailable
  | inventoryAdjusted =>
    rw [kind] at picked
    cases picked

/-- A correction leaves the rows of the other collections alone. -/
private theorem namesRow_workAfter (kind : event.eventType = .entityCorrected)
    (picked : correctionTarget registry work.sources event.payload = some target)
    {candidate : String × String}
    (listed : candidate ∈ correctionCandidates registry work.sources event.payload)
    (other : candidate ≠ target) :
    namesRow (workAfter registry work event).sources event.payload candidate =
      namesRow work.sources event.payload candidate := by
  have apart : candidate.1 ≠ target.1 := by
    intro same
    have columns := keyField_of_mem_candidates (mem_candidates_of_target picked)
    rw [← same, keyField_of_mem_candidates listed] at columns
    exact other (Prod.ext same (Option.some.inj columns))
  simp only [namesRow, workAfter, handledWork, kind, upsertEntity_eq, picked, rows_updateRows,
    if_neg apart]

theorem correctionCandidates_congr (same : ∀ c, c ∈ sources.keys ↔ c ∈ other.keys) :
    correctionCandidates registry sources payload =
      correctionCandidates registry other payload := by
  unfold correctionCandidates
  simp only [same]

end Targets

section Repeated

variable {registry : Registry} {work : WorkState} {event again : ExecutionEvent}
  {target : String × String}

/-- The written row is the one that its key finds. -/
theorem holds_workAfter (picked : upsertTarget registry work.sources event = some target) :
    Holds (workAfter registry work event).sources target
      (writtenPayload registry work.sources event) := by
  unfold Holds
  rw [rows_workAfter_of_target picked]
  exact find?_upsert (Row.hasKey · target.2 _) (hasKey_self _ target.2) _

/-- Another event with the same payload goes to the same collection. -/
theorem upsertTarget_workAfter (picked : upsertTarget registry work.sources event = some target)
    (repeats : Repeats registry (workAfter registry work event).sources
      (writtenPayload registry work.sources event) event again) :
    upsertTarget registry (workAfter registry work event).sources again = some target := by
  have keys := keys_workAfter registry work event
  unfold upsertTarget at picked ⊢
  dsimp only at picked ⊢
  rw [repeats.payload, repeats.eventType]
  cases kind : event.eventType with
  | orderCreated | forecastUpdated | observationRecorded =>
    rw [kind] at picked
    dsimp only at picked ⊢
    rwa [keyedContract_congr keys]
  | entityCorrected =>
    simp only [kind, writtenPayload] at picked ⊢
    unfold correctionTarget
    rw [correctionCandidates_congr keys]
    refine firstKnown_again picked ?_ fun candidate listed other =>
      namesRow_workAfter kind picked listed other
    have corrected : upsertTarget registry work.sources event = some target := by
      simpa only [upsertTarget, kind, writtenPayload] using picked
    have holds := holds_workAfter corrected
    simp only [Holds, writtenPayload, kind] at holds
    exact List.any_eq_true.mpr ⟨_, List.mem_of_find?_eq_some holds, hasKey_self _ _⟩
  | taskStarted | taskProgress | taskCompleted | orderCancelled | assetUnavailable
  | inventoryAdjusted =>
    rw [kind] at picked
    cases picked

/-- Writing what is there already leaves the collection as it is, and only that does. -/
theorem rows_workAfter_eq_self_iff
    (picked : upsertTarget registry work.sources event = some target) :
    (workAfter registry work event).sources.rows target.1 = work.sources.rows target.1 ↔
      Holds work.sources target (writtenPayload registry work.sources event) := by
  rw [rows_workAfter_of_target picked]
  exact upsert_eq_self_iff

end Repeated

/-- In every run whose payloads name keys each collection has at most one row per key. A write is
found under its key, a repetition right after it leaves the collection as it is, and a later one
does so exactly if the row of the key is still as it was written. -/
theorem unique_and_repeatable {registry : Registry} (apart : registry.KeysApart)
    {sources : Sources} (unique : UniqueKeys registry sources) {applicator : EventApplicator}
    (run : (applySystem registry sources).ReachableWhere
      (fun applicator delivered => NamesKeys registry applicator.work.sources delivered.2)
      applicator) :
    UniqueKeys registry applicator.work.sources ∧
      ∀ published event target, ¬ Replayed applicator.seenEventIds published event →
        upsertTarget registry applicator.work.sources event = some target →
        let payload := writtenPayload registry applicator.work.sources event
        let next := (applicator.apply registry published event).1
        (next.work.sources.rows target.1 = applicator.work.sources.rows target.1 ↔
          Holds applicator.work.sources target payload) ∧
        Holds next.work.sources target payload ∧
        ∀ published again, Repeats registry next.work.sources payload event again →
          upsertTarget registry next.work.sources again = some target ∧
          (next.apply registry published again).1.work.sources.rows target.1 =
            next.work.sources.rows target.1 := by
  refine ⟨(KeysKept.of_reachable apart unique run).unique, ?_⟩
  intro published event target fresh picked
  have applied : (applicator.apply registry published event).1.work =
      workAfter registry applicator.work event := by
    rw [work_apply, if_neg fresh]
  dsimp only
  rw [applied]
  have holds := holds_workAfter picked
  refine ⟨rows_workAfter_eq_self_iff picked, holds, fun published again repeats => ?_⟩
  have same := upsertTarget_workAfter picked repeats
  refine ⟨same, ?_⟩
  rw [work_apply, applied]
  split_ifs
  · rfl
  · refine (rows_workAfter_eq_self_iff same).mpr ?_
    rw [repeats.payload]
    exact holds

/-- Orders, with a status, and readings stamped with their arrival. -/
def shopRegistry : Registry where
  tables := (Dict.empty.set "orders" {
      canonicalEntity := "task"
      bindings := [
        { sourceField := "order_id", binding := "task.taskId", planningUse := ["identity"] },
        { sourceField := "status", binding := "task.status" }] }).set "readings" {
    canonicalEntity := "observation"
    bindings := [
      { sourceField := "reading_id", binding := "observation.observationId"
        planningUse := ["identity"] },
      { sourceField := "arrived", binding := "observation.ingestedAt" }] }
  primitives := plainPrimitives

/-- The same orders, identified by the column that carries their status. -/
def statusRegistry : Registry where
  tables := Dict.empty.set "orders" {
    canonicalEntity := "task"
    bindings := [
      { sourceField := "status", binding := "task.taskId", planningUse := ["identity"] },
      { sourceField := "status", binding := "task.status" }] }
  primitives := plainPrimitives

/-- The source rows after some events, delivered without earlier runs. -/
def rowsAfter (registry : Registry) (sources : Sources) (events : List ExecutionEvent) : Sources :=
  (events.foldl (fun applicator event => (applicator.apply registry [] event).1)
    ({ work := { sources := sources } } : EventApplicator)).work.sources

def emptyShop : Sources := (Dict.empty.set "orders" []).set "readings" []

/-- An order without an id, and one whose id reads like a missing one. -/
def unnamedOrders : Sources :=
  (Dict.empty.set "orders" [.empty, Dict.empty.set "order_id" (.text "None")]).set "readings" []

def twoOrders : Sources :=
  Dict.empty.set "orders"
    [Dict.empty.set "status" (.text "o1"), Dict.empty.set "status" (.text "o2")]

def created (eventId : String) (payload : Row) : ExecutionEvent where
  eventId := eventId
  eventType := .orderCreated
  payload := payload

def started (eventId entityRef : String) : ExecutionEvent where
  eventId := eventId
  eventType := .taskStarted
  entityRef := entityRef

def recorded (eventId ingestedAt : String) : ExecutionEvent where
  eventId := eventId
  eventType := .observationRecorded
  payload := Dict.empty.set "reading_id" (.text "r1")
  ingestedAt := ingestedAt

def orderOne : Row := Dict.empty.set "order_id" (.text "o1")

theorem unique_and_repeatable_order :
    UniqueKeys shopRegistry
      (({ work := { sources := emptyShop } } : EventApplicator).apply shopRegistry []
        (created "c1" orderOne)).1.work.sources := by
  have unique : UniqueKeys shopRegistry emptyShop := by decide +kernel
  refine (unique_and_repeatable (by decide +kernel) unique ?_).1
  exact .step (l := ([], created "c1" orderOne)) (.initial rfl) (by decide +kernel) rfl

/-- Keys repeat after a payload whose key reads like a missing one, and in a contract whose status
column is its key. A collection changes when a creation without a key, a reading with another
arrival, or the creation of a task that has started since, is repeated. -/
theorem keys_repeat_and_repetitions_change :
    (UniqueKeys shopRegistry unnamedOrders ∧ ¬ UniqueKeys shopRegistry
      (rowsAfter shopRegistry unnamedOrders
        [created "c1" (Dict.empty.set "order_id" .null)])) ∧
    (UniqueKeys statusRegistry twoOrders ∧ ¬ UniqueKeys statusRegistry
      (rowsAfter statusRegistry twoOrders [started "s1" "o1", started "s2" "o2"])) ∧
    rowsAfter shopRegistry emptyShop [created "c1" .empty, created "c2" .empty] ≠
      rowsAfter shopRegistry emptyShop [created "c1" .empty] ∧
    rowsAfter shopRegistry emptyShop [recorded "c1" "09:00", recorded "c2" "10:00"] ≠
      rowsAfter shopRegistry emptyShop [recorded "c1" "09:00"] ∧
    rowsAfter shopRegistry emptyShop [created "c1" orderOne, started "s1" "o1",
        created "c2" orderOne] ≠
      rowsAfter shopRegistry emptyShop [created "c1" orderOne, started "s1" "o1"] := by
  decide +kernel

end FlOp.Stream
