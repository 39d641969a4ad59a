import FlOp.Core.Numbers
import FlOp.Mapping.CanonicalRows
import FlOp.Stream.Coverage
import FlOp.Stream.Dedup
import Mathlib.Data.Finset.Insert

/-! # Applying execution events

An event mutates the working source rows through the bindings of their contracts. What a handler
does depends on the rows and the coverage collected so far alone; completions, reports and
watermarks are what it hands on. An id seen in this run or published earlier is skipped.
-/

namespace FlOp.Stream

open FlOp.Core Library Mapping BindingTable

def startedValue : Value := .text "started"

def taskStatusBinding : String := "task.status"

def taskDeadlineBinding : String := "task.deadline"

def taskWorkQuantityBindings : List String := ["task.workQuantity", "task.areaHa"]

def taskAreaBinding : String := "task.areaHa"

def taskWorkAreaGeometryBinding : String := "task.workAreaGeometry"

def observationMetricBinding : String := "observation.metric"

def observationValueBinding : String := "observation.value"

def observationEntityRefBinding : String := "observation.entityRef"

def observationIngestedBinding : String := "observation.ingestedAt"

def payloadRemainingQuantity : String := "remaining_quantity"

def payloadCompletedFraction : String := "completed_fraction"

def metricWorkProgress : String := "work-progress"

def workProgressCompletePct : ℚ := 100

/-- Collected passes of one task and the work it had before the first of them. -/
structure CoverageEntry where
  rings : List Ring
  originals : Dict String ℚ
  originalAreaHa : ℚ
  nPasses : ℕ
deriving DecidableEq

/-- A finished task: its outcome and the commitment it had. -/
structure Completion where
  taskId : String
  completedAt : String
  via : String
  deadline : Value
deriving DecidableEq, Repr

structure CoverageReport where
  taskId : String
  observedAt : String
  nPasses : ℕ
  originalAreaHa : ℚ
  state : CoverageState
deriving DecidableEq, Repr

/-- The mutable working data: source rows and the coverage collected for open tasks. -/
structure WorkState where
  sources : Sources
  coverage : Dict String CoverageEntry := .empty
deriving DecidableEq

/-- What a handler leaves behind. -/
structure Effect where
  work : WorkState
  completions : List Completion := []
  coverageReports : List CoverageReport := []
  /-- Contracts a handler advances the watermark of by itself. -/
  bumped : List String := []

/-- What event application is configured with: the mapped contracts in registry order. -/
structure Registry where
  tables : Dict String BindingTable
  primitives : Primitives
  coverageCompleteFraction : ℚ := 99 / 100

section Resolution

/-- Contracts of one canonical entity that are present in the sources. -/
def Registry.contractsFor (registry : Registry) (entity : String) (sources : Sources) :
    List (String × BindingTable) :=
  registry.tables.entries.filter fun entry =>
    entry.2.canonicalEntity = entity ∧ entry.1 ∈ sources.keys

/-- Distinct physical columns carrying the task's work, preferred first. -/
def workFields (table : BindingTable) : List String :=
  (taskWorkQuantityBindings.filterMap table.sourceField).foldl
    (fun fields field => if field ∈ fields then fields else fields ++ [field]) []

/-- The row has the given text in its key column. -/
def Row.hasKey (row : Row) (key ref : String) : Bool := (row.value key).shown = ref

/-- Rewrite the rows of one contract. -/
def Sources.updateRows (sources : Sources) (contractId : String)
    (update : List Row → List Row) : Sources :=
  Dict.set sources contractId (update (Dict.getD sources contractId []))

/-- Rewrite the rows of one contract that a reference names. -/
def Sources.updateNamed (sources : Sources) (contractId key ref : String) (update : Row → Row) :
    Sources :=
  sources.updateRows contractId fun rows =>
    rows.map fun row => if row.hasKey key ref then update row else row

/-- Mark a row as started, if its contract binds a status column. -/
def Row.start (row : Row) (status : Option String) : Row :=
  match status with
  | some field => Dict.set row field startedValue
  | none => row

end Resolution

section Handlers

variable (registry : Registry)

def setTaskStarted (work : WorkState) (event : ExecutionEvent) : Effect :=
  let sources := (registry.contractsFor "task" work.sources).foldl (fun sources entry =>
    match named entry.2.entityKeyField, named (entry.2.sourceField taskStatusBinding) with
    | some key, some status =>
      sources.updateNamed entry.1 key event.entityRef fun row => row.start (some status)
    | _, _ => sources) work.sources
  { work := { work with sources := sources } }

def removeByKey (sources : Sources) (entityRef entity : String) : Sources :=
  (registry.contractsFor entity sources).foldl (fun sources entry =>
    match named entry.2.entityKeyField with
    | some key => sources.updateRows entry.1 fun rows =>
        rows.filter fun row => !row.hasKey key entityRef
    | none => sources) sources

/-- The deadline of the task's row; the last contract that has the row decides. -/
def completionDeadline (sources : Sources) (taskRef : String) : Value :=
  (registry.contractsFor "task" sources).foldl (fun deadline entry =>
    match named entry.2.entityKeyField, entry.2.sourceField taskDeadlineBinding with
    | some key, some field =>
      match (Dict.getD sources entry.1 []).find? fun row => row.hasKey key taskRef with
      | some row => row.value field
      | none => deadline
    | _, _ => deadline) .null

/-- Remove a finished task, capturing its commitments first. -/
def completeTask (work : WorkState) (taskRef completedAt via : String) : Effect where
  work := { work with sources := removeByKey registry work.sources taskRef "task" }
  completions := [{
    taskId := taskRef
    completedAt := completedAt
    via := via
    deadline := completionDeadline registry work.sources taskRef }]

/-- Shrink a task's remaining work to an exact amount or by the completed share. -/
def scaleTaskWork (work : WorkState) (taskRef : String) (fraction : ℚ) (remaining : Option ℚ) :
    WorkState :=
  let primitives := registry.primitives
  let scale (fields : List String) (row : Row) : Row :=
    match remaining, fields with
    | some quantity, field :: _ =>
      Dict.set row field (primitives.ofFloat (roundTo 2 quantity))
    | some _, [] => row
    | none, fields => fields.foldl (fun row field =>
        match primitives.toFloat (Dict.getD row field (primitives.ofFloat 0)) with
        | some quantity =>
          Dict.set row field (primitives.ofFloat (roundTo 2 (quantity * (1 - fraction))))
        | none => row) row
  let sources := (registry.contractsFor "task" work.sources).foldl (fun sources entry =>
    match named entry.2.entityKeyField, workFields entry.2 with
    | some key, first :: others =>
      sources.updateNamed entry.1 key taskRef fun row =>
        Row.start (scale (first :: others) row) (named (entry.2.sourceField taskStatusBinding))
    | _, _ => sources) work.sources
  { work with sources := sources }

/-- A row's number, zero where the value is empty, absent where it cannot be read. -/
def rowFloat (row : Row) (field : String) : Option ℚ :=
  let value := row.value field
  if value.truthy then registry.primitives.toFloat value else some 0

/-- The work columns of one row and the area its coverage is measured against. -/
def rowWorkState (table : BindingTable) (row : Row) : Except Raised (Dict String ℚ × ℚ) :=
  let readable := (workFields table).filterMap fun field =>
    (rowFloat registry row field).map fun quantity => (field, quantity)
  let originals := Dict.collect Prod.fst Prod.snd readable
  let geometryArea := match table.sourceField taskWorkAreaGeometryBinding with
    | some field => workAreaAreaHa registry.primitives (row.value field)
    | none => .ok 0
  geometryArea.map fun geometryArea =>
    let area := match table.sourceField taskAreaBinding with
      | some field =>
        if geometryArea ≤ 0 then (rowFloat registry row field).getD 0 else geometryArea
      | none => geometryArea
    let area := match workFields table with
      | field :: _ => if area ≤ 0 then originals.getD field 0 else area
      | [] => area
    (originals, area)

/-- Originals of the first row that a task reference names. -/
def captureWorkState (sources : Sources) (taskId : String) : Except Raised (Dict String ℚ × ℚ) :=
  let located := (registry.contractsFor "task" sources).findSome? fun entry =>
    (named entry.2.entityKeyField).bind fun key =>
      ((Dict.getD sources entry.1 []).find? fun row => row.hasKey key taskId).map fun row =>
        (entry.2, row)
  match located with
  | some (table, row) => rowWorkState registry table row
  | none => .ok (.empty, 0)

/-- Set each work column to its original value times the uncovered share. -/
def setRemainingFromOriginals (sources : Sources) (taskId : String) (originals : Dict String ℚ)
    (coveredFraction : ℚ) : Sources :=
  let uncovered := max 0 (1 - coveredFraction)
  (registry.contractsFor "task" sources).foldl (fun sources entry =>
    match named entry.2.entityKeyField with
    | some key => sources.updateNamed entry.1 key taskId fun row =>
        Row.start
          (originals.entries.foldl (fun row original =>
            if original.1 ∈ Dict.keys row then
              Dict.set row original.1
                (registry.primitives.ofFloat (roundTo 2 (original.2 * uncovered)))
            else row) row)
          (named (entry.2.sourceField taskStatusBinding))
    | none => sources) sources

/-- Accumulate one covered pass; absent when the payload's geometry cannot be used. -/
def applyCoveragePass (work : WorkState) (taskId : String) (payload : Row) (observedAt : String) :
    Except Raised (Option Effect) := do
  let some ring ← passRingFromPayload registry.primitives payload | return none
  let known ← match work.coverage.get? taskId with
    | some entry => pure (some entry)
    | none => do
      let (originals, originalAreaHa) ← captureWorkState registry work.sources taskId
      pure <| if originalAreaHa ≤ 0 then none else some
        { rings := [], originals := originals, originalAreaHa := originalAreaHa, nPasses := 0 }
  let some entry := known | return none
  let entry := { entry with rings := entry.rings ++ [ring], nPasses := entry.nPasses + 1 }
  let state := coverageState registry.primitives entry.rings entry.originalAreaHa
  let report : CoverageReport :=
    { taskId := taskId
      observedAt := observedAt
      nPasses := entry.nPasses
      originalAreaHa := roundTo 4 entry.originalAreaHa
      state := state }
  if registry.coverageCompleteFraction ≤ state.coveredFraction then
    let completed := completeTask registry work taskId observedAt "coverage"
    return some { completed with
      work := { completed.work with coverage := work.coverage.erase taskId }
      coverageReports := [report] }
  else
    return some
      { work :=
          { sources := setRemainingFromOriginals registry work.sources taskId entry.originals
              state.coveredFraction
            coverage := work.coverage.set taskId entry }
        coverageReports := [report] }

/-- Partial completion: a coverage pass, an exact remaining amount or a completed share. -/
def applyTaskProgress (work : WorkState) (event : ExecutionEvent) : Except Raised Effect := do
  let primitives := registry.primitives
  let pass ← if hasCoveragePayload event.payload then
      applyCoveragePass registry work event.entityRef event.payload event.observedAt
    else pure none
  match pass with
  | some effect => return effect
  | none =>
    let remaining := primitives.toFloat (event.payload.value payloadRemainingQuantity)
    let fraction := match remaining with
      | some _ => some 0
      | none => primitives.toFloat
          (Dict.getD event.payload payloadCompletedFraction (primitives.ofFloat 0))
    match fraction with
    | none => return { work := work }
    | some fraction =>
      if (∃ quantity ∈ remaining, quantity ≤ 0) ∨ 1 ≤ fraction then
        return completeTask registry work event.entityRef event.observedAt "progress"
      else return { work := scaleTaskWork registry work event.entityRef fraction remaining }

/-- Replace the first row with the payload's key; absent when there is none. -/
def replaceRow (rows : List Row) (key : String) (payload : Row) : Option (List Row) :=
  (rows.findIdx? fun row => row.hasKey key (payload.value key).shown).map fun i =>
    rows.set i payload

/-- Add or correct one row of the entity's first contract; `extra` fills a blank column. -/
def appendPayload (sources : Sources) (event : ExecutionEvent) (entity : String)
    (extra : Option (String × String)) : Sources :=
  match registry.contractsFor entity sources with
  | [] => sources
  | (contractId, table) :: _ =>
    let payload := match extra with
      | some (field, filler) =>
        if (Dict.getD event.payload field (.text "")).shown = "" then
          Dict.set event.payload field (.text filler)
        else event.payload
      | none => event.payload
    let rows := Dict.getD sources contractId []
    let replaced := match named table.entityKeyField with
      | some key => if key ∈ Dict.keys payload then replaceRow rows key payload else none
      | none => none
    Dict.set sources contractId (replaced.getD (rows ++ [payload]))

/-- Arrival column and time stamped on an event-derived observation row. -/
def observationIngestedExtra (sources : Sources) (event : ExecutionEvent) :
    Option (String × String) :=
  let ingested := if event.ingestedAt = "" then event.observedAt else event.ingestedAt
  if ingested = "" then none
  else match registry.contractsFor "observation" sources with
    | [] => none
    | (_, table) :: _ =>
      (table.sourceField observationIngestedBinding).map fun field => (field, ingested)

/-- The task and the value column of a work-progress observation. -/
def progressReading (table : BindingTable) (payload : Row) : Option (String × String) := do
  let metricField ← table.sourceField observationMetricBinding
  let valueField ← table.sourceField observationValueBinding
  let refField ← table.sourceField observationEntityRefBinding
  let rawMetric := (Dict.getD payload metricField (.text "")).shown
  let taskRef := (Dict.getD payload refField (.text "")).shown
  if table.metricCodes.getD rawMetric rawMetric ≠ metricWorkProgress ∨ taskRef = "" then none
  else some (taskRef, valueField)

/-- Telemetry-derived task progress. -/
def deriveProgressFromTelemetry (work : WorkState) (event : ExecutionEvent) :
    Except Raised Effect := do
  match (registry.contractsFor "observation" work.sources).findSome? fun entry =>
      progressReading entry.2 event.payload with
  | none => return { work := work }
  | some (taskRef, valueField) =>
    let pass ← if hasCoveragePayload event.payload then
        applyCoveragePass registry work taskRef event.payload event.observedAt
      else pure none
    match pass with
    | some effect => return effect
    | none =>
      match registry.primitives.toFloat (event.payload.value valueField) with
      | none => return { work := work }
      | some progressPct =>
        if workProgressCompletePct ≤ progressPct then
          return completeTask registry work taskRef event.observedAt "telemetry"
        else
          let fraction := max 0 progressPct / workProgressCompletePct
          return { work := scaleTaskWork registry work taskRef fraction none }

/-- Record an observation and derive task progress from it. -/
def appendObservation (work : WorkState) (event : ExecutionEvent) : Except Raised Effect :=
  deriveProgressFromTelemetry registry
    { work with
      sources := appendPayload registry work.sources event "observation"
        (observationIngestedExtra registry work.sources event) } event

/-- Replace, or add, a corrected row in a contract whose key column the payload has. -/
def upsertEntity (work : WorkState) (event : ExecutionEvent) : Effect :=
  let candidates := registry.tables.entries.filterMap fun entry =>
    (named entry.2.entityKeyField).bind fun key =>
      if entry.1 ∈ work.sources.keys ∧ key ∈ Dict.keys event.payload then some (entry.1, key)
      else none
  let corrected := candidates.findSome? fun candidate =>
    (replaceRow (Dict.getD work.sources candidate.1 []) candidate.2 event.payload).map fun rows =>
      (candidate.1, rows)
  match corrected, candidates with
  | some (contractId, rows), _ =>
    { work := { work with sources := work.sources.set contractId rows }
      bumped := [contractId] }
  | none, (contractId, _) :: _ =>
    { work :=
        { work with sources := work.sources.updateRows contractId fun rows =>
            rows ++ [event.payload] }
      bumped := [contractId] }
  | none, [] => { work := work }

/-- Merge the payload into the first location row it names. -/
def mergeInventory (work : WorkState) (event : ExecutionEvent) : Effect :=
  let merged := (registry.contractsFor "location" work.sources).findSome? fun entry =>
    (named entry.2.entityKeyField).bind fun key =>
      let rows := Dict.getD work.sources entry.1 []
      if key ∈ Dict.keys event.payload then
        (rows.findIdx? fun row => row.hasKey key (event.payload.value key).shown).map fun i =>
          (entry.1, rows.modify i fun row =>
            event.payload.entries.foldl (fun row field => Dict.set row field.1 field.2) row)
      else none
  match merged with
  | some (contractId, rows) =>
    { work := { work with sources := work.sources.set contractId rows } }
  | none => { work := work }

/-- Upsert a forecast row; without a payload the event only triggers a replan. -/
def updateForecast (work : WorkState) (event : ExecutionEvent) : Effect :=
  if event.payload.entries = [] then { work := work }
  else
    { work := { work with sources := appendPayload registry work.sources event "forecast" none } }

/-- The handler of an event. -/
def handle (work : WorkState) (event : ExecutionEvent) : Except Raised Effect :=
  match event.eventType with
  | .taskStarted => .ok (setTaskStarted registry work event)
  | .taskProgress => applyTaskProgress registry work event
  | .taskCompleted => .ok (completeTask registry work event.entityRef event.observedAt "event")
  | .orderCreated => .ok
      { work := { work with sources := appendPayload registry work.sources event "task" none } }
  | .orderCancelled => .ok
      { work := { work with
          sources := removeByKey registry work.sources event.entityRef "task" } }
  | .assetUnavailable => .ok
      { work := { work with
          sources := removeByKey registry work.sources event.entityRef "asset" } }
  | .forecastUpdated => .ok (updateForecast registry work event)
  | .observationRecorded => appendObservation registry work event
  | .entityCorrected => .ok (upsertEntity registry work event)
  | .inventoryAdjusted => .ok (mergeInventory registry work event)

/-- The working data when a handler raises: an observation has been recorded before progress is
derived from it, every other handler that can raise does so first. -/
def leftBehind (work : WorkState) (event : ExecutionEvent) : WorkState :=
  match event.eventType with
  | .observationRecorded =>
    { work with
      sources := appendPayload registry work.sources event "observation"
        (observationIngestedExtra registry work.sources event) }
  | _ => work

end Handlers

/-- The canonical entity an event type mutates; a correction resolves its contract itself. -/
def EventType.entity : EventType → Option String
  | .taskStarted | .taskProgress | .taskCompleted | .orderCreated | .orderCancelled => some "task"
  | .assetUnavailable => some "asset"
  | .inventoryAdjusted => some "location"
  | .forecastUpdated => some "forecast"
  | .observationRecorded => some "observation"
  | .entityCorrected => none

/-- Event application between two events: the working data and what it has handed on. -/
structure EventApplicator where
  work : WorkState
  seenEventIds : Finset String := ∅
  watermarks : Dict String Timestamp := .empty
  completions : List Completion := []
  coverageReports : List CoverageReport := []

/-- Advance one contract's visibility horizon; mixed kinds of times cannot be compared. -/
def bumpWatermark (watermarks : Dict String Timestamp) (contractId : String)
    (observed : Timestamp) : Except Raised (Dict String Timestamp) :=
  match watermarks.get? contractId with
  | none => .ok (watermarks.set contractId observed)
  | some current =>
    if current.aware ≠ observed.aware then .error .typeError
    else if current.instant < observed.instant then .ok (watermarks.set contractId observed)
    else .ok watermarks

/-- Advance the horizons in turn, as far as that succeeds. -/
def bumpWatermarks (observed : Timestamp) :
    List String → Dict String Timestamp → Dict String Timestamp × Except Raised Unit
  | [], watermarks => (watermarks, .ok ())
  | contractId :: rest, watermarks =>
    match bumpWatermark watermarks contractId observed with
    | .ok advanced => bumpWatermarks observed rest advanced
    | .error raised => (watermarks, .error raised)

/-- Advance the horizon of every contract an event touched to its observed time. -/
def advanceWatermarks (registry : Registry) (watermarks : Dict String Timestamp) (effect : Effect)
    (event : ExecutionEvent) : Dict String Timestamp × Except Raised Unit :=
  let contracts := match event.eventType.entity with
    | some entity => (registry.contractsFor entity effect.work.sources).map Prod.fst
    | none => effect.bumped
  match registry.primitives.parseTime event.observedAt with
  | some observed => bumpWatermarks observed contracts watermarks
  | none => (watermarks, .ok ())

/-- An event whose id was applied in this run or published by an earlier one. -/
def Replayed (seen : Finset String) (published : List String) (event : ExecutionEvent) : Prop :=
  event.eventId ≠ "" ∧ (event.eventId ∈ seen ∨ event.eventId ∈ published)

instance (seen : Finset String) (published : List String) (event : ExecutionEvent) :
    Decidable (Replayed seen published event) :=
  inferInstanceAs (Decidable (_ ∧ _))

/-- Apply one event and tell whether it was applied; `published` are the ids in the store. -/
def EventApplicator.apply (registry : Registry) (published : List String)
    (applicator : EventApplicator) (event : ExecutionEvent) :
    EventApplicator × Except Raised Bool :=
  if Replayed applicator.seenEventIds published event then (applicator, .ok false)
  else
    let seen := if event.eventId = "" then applicator.seenEventIds
      else insert event.eventId applicator.seenEventIds
    match handle registry applicator.work event with
    | .error raised =>
      ({ applicator with
          work := leftBehind registry applicator.work event
          seenEventIds := seen },
        .error raised)
    | .ok effect =>
      let (watermarks, advanced) := advanceWatermarks registry applicator.watermarks effect event
      ({ work := effect.work
         seenEventIds := seen
         watermarks := watermarks
         completions := applicator.completions ++ effect.completions
         coverageReports := applicator.coverageReports ++ effect.coverageReports },
        advanced.map fun _ => true)

namespace EventApplicator

variable {registry : Registry} {published : List String} {applicator next : EventApplicator}
  {event : ExecutionEvent} {applied : Bool}

/-- Without earlier runs, exactly the ids of the events are seen, also of one that raises. -/
theorem mem_seen_apply {id : String} :
    id ∈ (applicator.apply registry [] event).1.seenEventIds ↔
      id ∈ applicator.seenEventIds ∨ id ≠ "" ∧ id = event.eventId := by
  unfold EventApplicator.apply
  by_cases replayed : Replayed applicator.seenEventIds [] event
  · rw [if_pos replayed]
    have known := replayed.2.resolve_right List.not_mem_nil
    grind
  · rw [if_neg replayed]
    have seen : id ∈ (if event.eventId = "" then applicator.seenEventIds
        else insert event.eventId applicator.seenEventIds) ↔
          id ∈ applicator.seenEventIds ∨ id ≠ "" ∧ id = event.eventId := by
      split_ifs <;> grind
    cases handle registry applicator.work event <;> exact seen

/-- An event is skipped without a trace, or its handler ran once on the working data. -/
theorem apply_cases (returned : applicator.apply registry published event = (next, .ok applied)) :
    applied = false ∧ Replayed applicator.seenEventIds published event ∧ next = applicator ∨
      applied = true ∧ ¬ Replayed applicator.seenEventIds published event ∧
        (∀ id, id ∈ next.seenEventIds ↔
          id ∈ applicator.seenEventIds ∨ id ≠ "" ∧ id = event.eventId) ∧
        ∃ effect, handle registry applicator.work event = .ok effect ∧
          next.work = effect.work := by
  by_cases replayed : Replayed applicator.seenEventIds published event
  · rw [EventApplicator.apply, if_pos replayed] at returned
    obtain ⟨same, skipped⟩ := Prod.mk.inj returned
    exact .inl ⟨(Except.ok.inj skipped).symm, replayed, same.symm⟩
  · rw [EventApplicator.apply, if_neg replayed] at returned
    right
    cases handled : handle registry applicator.work event with
    | error raised => simp [handled] at returned
    | ok effect =>
      rw [handled] at returned
      obtain ⟨rfl, -⟩ := Prod.mk.inj returned
      have outcome : (advanceWatermarks registry applicator.watermarks effect event).2.map
          (fun _ => true) = .ok applied := (Prod.mk.inj returned).2
      refine ⟨?_, replayed, fun id => ?_, effect, rfl, rfl⟩
      · cases advanced : (advanceWatermarks registry applicator.watermarks effect event).2 with
        | error raised => simp [advanced, Except.map] at outcome
        | ok _ => simpa [advanced, Except.map] using outcome.symm
      · dsimp only
        split_ifs <;> grind

end EventApplicator

end FlOp.Stream
