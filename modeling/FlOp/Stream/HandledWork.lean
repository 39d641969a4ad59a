import FlOp.Library.Fallible
import FlOp.Stream.Handlers

/-! # The working data after an event

What handlers hand on apart, an event turns the working data into new ones: a coverage pass is
counted in the entry of its task, other reports finish a task or scale its work, and the rest
upserts, merges or removes rows.
-/

namespace FlOp.Stream

open FlOp.Core Library Mapping BindingTable

section Progress

variable (registry : Registry)

/-- One pass more. -/
def CoverageEntry.add (entry : CoverageEntry) (ring : Ring) : CoverageEntry :=
  { entry with rings := entry.rings ++ [ring], nPasses := entry.nPasses + 1 }

/-- The collected passes of a task, or new ones if it has work to measure them against. -/
def openEntry (work : WorkState) (taskId : String) : Except Raised (Option CoverageEntry) :=
  match work.coverage.get? taskId with
  | some entry => .ok (some entry)
  | none => (captureWorkState registry work.sources taskId).map fun captured =>
    if captured.2 ≤ 0 then none else some
      { rings := [], originals := captured.1, originalAreaHa := captured.2, nPasses := 0 }

/-- The covered share of a task's passes. -/
def CoverageEntry.coveredFraction (primitives : Primitives) (entry : CoverageEntry) : ℚ :=
  (coverageState primitives entry.rings entry.originalAreaHa).coveredFraction

/-- The working data after a pass: the task is finished, or its work is what is uncovered. -/
def passedWork (work : WorkState) (taskId : String) (entry : CoverageEntry) : WorkState :=
  let covered := entry.coveredFraction registry.primitives
  if registry.coverageCompleteFraction ≤ covered then
    { sources := removeByKey registry work.sources taskId "task"
      coverage := work.coverage.erase taskId }
  else
    { sources := setRemainingFromOriginals registry work.sources taskId entry.originals covered
      coverage := work.coverage.set taskId entry }

/-- The entry a payload's pass is counted in, the pass included; none if there is no usable pass
or no work to measure it against. -/
def passEntry (work : WorkState) (taskId : String) (payload : Row) :
    Except Raised (Option CoverageEntry) :=
  if hasCoveragePayload payload then
    (passRingFromPayload registry.primitives payload).bind fun
    | none => .ok none
    | some ring => (openEntry registry work taskId).map fun entry => entry.map (·.add ring)
  else .ok none

/-- The working data after a progress report without a pass. -/
def scalarWork (work : WorkState) (event : ExecutionEvent) : WorkState :=
  let primitives := registry.primitives
  let remaining := primitives.toFloat (event.payload.value payloadRemainingQuantity)
  let fraction := match remaining with
    | some _ => some 0
    | none => primitives.toFloat
        (Dict.getD event.payload payloadCompletedFraction (primitives.ofFloat 0))
  match fraction with
  | none => work
  | some fraction =>
    if (∃ quantity ∈ remaining, quantity ≤ 0) ∨ 1 ≤ fraction then
      { work with sources := removeByKey registry work.sources event.entityRef "task" }
    else scaleTaskWork registry work event.entityRef fraction remaining

/-- The working data after a progress reading without a pass. -/
def readingWork (work : WorkState) (taskRef : String) (reading : Value) : WorkState :=
  match registry.primitives.toFloat reading with
  | none => work
  | some progressPct =>
    if workProgressCompletePct ≤ progressPct then
      { work with sources := removeByKey registry work.sources taskRef "task" }
    else scaleTaskWork registry work taskRef (max 0 progressPct / workProgressCompletePct) none

/-- The working data with an observation recorded. -/
def recordedWork (work : WorkState) (event : ExecutionEvent) : WorkState :=
  { work with
    sources := appendPayload registry work.sources event "observation"
      (observationIngestedExtra registry work.sources event) }

/-- The task and value column of the first contract that reads an observation as progress. -/
def telemetryReading (sources : Sources) (payload : Row) : Option (String × String) :=
  (registry.contractsFor "observation" sources).findSome? fun entry =>
    progressReading entry.2 payload

/-- The working data after an event: what its handler makes of them. -/
def handledWork (work : WorkState) (event : ExecutionEvent) : Except Raised WorkState :=
  match event.eventType with
  | .taskStarted => .ok (setTaskStarted registry work event).work
  | .taskProgress => (passEntry registry work event.entityRef event.payload).map fun
    | some entry => passedWork registry work event.entityRef entry
    | none => scalarWork registry work event
  | .taskCompleted | .orderCancelled => .ok
      { work with sources := removeByKey registry work.sources event.entityRef "task" }
  | .orderCreated => .ok
      { work with sources := appendPayload registry work.sources event "task" none }
  | .assetUnavailable => .ok
      { work with sources := removeByKey registry work.sources event.entityRef "asset" }
  | .forecastUpdated => .ok (updateForecast registry work event).work
  | .observationRecorded =>
    let recorded := recordedWork registry work event
    match telemetryReading registry recorded.sources event.payload with
    | none => .ok recorded
    | some (taskRef, valueField) =>
      (passEntry registry recorded taskRef event.payload).map fun
      | some entry => passedWork registry recorded taskRef entry
      | none => readingWork registry recorded taskRef (event.payload.value valueField)
  | .entityCorrected => .ok (upsertEntity registry work event).work
  | .inventoryAdjusted => .ok (mergeInventory registry work event).work

variable {registry}

/-- What a counted pass hands on. -/
private def passedEffect (registry : Registry) (work : WorkState) (taskId observedAt : String)
    (entry : CoverageEntry) : Effect :=
  let state := coverageState registry.primitives entry.rings entry.originalAreaHa
  let report : CoverageReport :=
    { taskId := taskId
      observedAt := observedAt
      nPasses := entry.nPasses
      originalAreaHa := roundTo 4 entry.originalAreaHa
      state := state }
  if registry.coverageCompleteFraction ≤ state.coveredFraction then
    let completed := completeTask registry work taskId observedAt "coverage"
    { completed with
      work := { completed.work with coverage := work.coverage.erase taskId }
      coverageReports := [report] }
  else
    { work :=
        { sources := setRemainingFromOriginals registry work.sources taskId entry.originals
            state.coveredFraction
          coverage := work.coverage.set taskId entry }
      coverageReports := [report] }

private theorem work_passedEffect (work : WorkState) (taskId observedAt : String)
    (entry : CoverageEntry) :
    (passedEffect registry work taskId observedAt entry).work =
      passedWork registry work taskId entry := by
  unfold passedEffect passedWork CoverageEntry.coveredFraction
  dsimp only
  split_ifs <;> rfl

/-- The two ways a counted pass ends. -/
private theorem passedEffect_eq (work : WorkState) (taskId observedAt : String)
    (entry : CoverageEntry) :
    (let state := coverageState registry.primitives entry.rings entry.originalAreaHa
     let report : CoverageReport :=
      { taskId := taskId
        observedAt := observedAt
        nPasses := entry.nPasses
        originalAreaHa := roundTo 4 entry.originalAreaHa
        state := state }
     if registry.coverageCompleteFraction ≤ state.coveredFraction then
       let completed := completeTask registry work taskId observedAt "coverage"
       (.ok (some { completed with
          work := { completed.work with coverage := work.coverage.erase taskId }
          coverageReports := [report] }) : Except Raised (Option Effect))
     else
       .ok (some
        { work :=
            { sources := setRemainingFromOriginals registry work.sources taskId entry.originals
                state.coveredFraction
              coverage := work.coverage.set taskId entry }
          coverageReports := [report] })) =
      .ok (some (passedEffect registry work taskId observedAt entry)) := by
  unfold passedEffect
  dsimp only
  split_ifs <;> rfl

/-- A pass is counted in its entry or not at all. -/
private theorem applyCoveragePass_eq (work : WorkState) (taskId : String) (payload : Row)
    (observedAt : String) :
    applyCoveragePass registry work taskId payload observedAt =
      (passRingFromPayload registry.primitives payload).bind fun
      | none => .ok none
      | some ring => (openEntry registry work taskId).map fun entry =>
          entry.map fun entry => passedEffect registry work taskId observedAt (entry.add ring) := by
  unfold applyCoveragePass openEntry
  cases passRingFromPayload registry.primitives payload with
  | error raised => rfl
  | ok usable =>
    cases usable with
    | none => rfl
    | some ring =>
      cases work.coverage.get? taskId with
      | some entry =>
        simp only [Except.map, Except.bind, bind, pure, Except.pure, Option.map_some]
        exact passedEffect_eq work taskId observedAt (entry.add ring)
      | none =>
        cases captureWorkState registry work.sources taskId with
        | error raised => rfl
        | ok captured =>
          obtain ⟨originals, area⟩ := captured
          by_cases unmeasured : area ≤ 0
          · simp only [Except.map, Except.bind, bind, pure, Except.pure, unmeasured, if_true,
              Option.map_none]
          · simp only [Except.map, Except.bind, bind, pure, Except.pure, unmeasured, if_false,
              Option.map_some]
            exact passedEffect_eq work taskId observedAt
              (CoverageEntry.add ⟨[], originals, area, 0⟩ ring)

/-- The pass of a report, counted in its entry. -/
private theorem applyCoveragePass_of_payload {payload : Row}
    (geometry : hasCoveragePayload payload = true) (work : WorkState) (taskId observedAt : String) :
    applyCoveragePass registry work taskId payload observedAt =
      (passEntry registry work taskId payload).map fun entry =>
        entry.map (passedEffect registry work taskId observedAt) := by
  rw [applyCoveragePass_eq, passEntry, if_pos geometry]
  cases passRingFromPayload registry.primitives payload with
  | error raised => rfl
  | ok usable =>
    cases usable with
    | none => rfl
    | some ring =>
      cases openEntry registry work taskId with
      | error raised => rfl
      | ok entry => simp only [Except.bind, Except.map, Option.map_map, Function.comp_def]

/-- A report without a pass finishes the task or scales its work. -/
private theorem scalarWork_eq (work : WorkState) (event : ExecutionEvent) :
    Except.map (·.work) (
      let primitives := registry.primitives
      let remaining := primitives.toFloat (event.payload.value payloadRemainingQuantity)
      let fraction := match remaining with
        | some _ => some 0
        | none => primitives.toFloat
            (Dict.getD event.payload payloadCompletedFraction (primitives.ofFloat 0))
      match fraction with
      | none => (.ok { work := work } : Except Raised Effect)
      | some fraction =>
        if (∃ quantity ∈ remaining, quantity ≤ 0) ∨ 1 ≤ fraction then
          .ok (completeTask registry work event.entityRef event.observedAt "progress")
        else .ok { work := scaleTaskWork registry work event.entityRef fraction remaining }) =
      .ok (scalarWork registry work event) := by
  unfold scalarWork
  dsimp only
  cases (match registry.primitives.toFloat (event.payload.value payloadRemainingQuantity) with
    | some _ => some 0
    | none => registry.primitives.toFloat
        (Dict.getD event.payload payloadCompletedFraction (registry.primitives.ofFloat 0))) with
  | none => rfl
  | some fraction =>
    dsimp only
    split_ifs <;> rfl

private theorem readingWork_eq (work : WorkState) (taskRef observedAt : String)
    (reading : Value) :
    Except.map (·.work) (
      match registry.primitives.toFloat reading with
      | none => (.ok { work := work } : Except Raised Effect)
      | some progressPct =>
        if workProgressCompletePct ≤ progressPct then
          .ok (completeTask registry work taskRef observedAt "telemetry")
        else
          let fraction := max 0 progressPct / workProgressCompletePct
          .ok { work := scaleTaskWork registry work taskRef fraction none }) =
      .ok (readingWork registry work taskRef reading) := by
  unfold readingWork
  cases registry.primitives.toFloat reading with
  | none => rfl
  | some progressPct =>
    dsimp only
    split_ifs <;> rfl

private theorem applyTaskProgress_map (work : WorkState) (event : ExecutionEvent) :
    (applyTaskProgress registry work event).map (·.work) =
      (passEntry registry work event.entityRef event.payload).map fun
      | some entry => passedWork registry work event.entityRef entry
      | none => scalarWork registry work event := by
  unfold applyTaskProgress
  by_cases geometry : hasCoveragePayload event.payload = true
  · simp only [geometry, if_true, applyCoveragePass_of_payload geometry]
    cases passEntry registry work event.entityRef event.payload with
    | error raised => rfl
    | ok counted =>
      cases counted with
      | some entry => exact congrArg _ (work_passedEffect _ _ _ _)
      | none => exact scalarWork_eq work event
  · simp only [geometry, passEntry, Bool.false_eq_true, if_false]
    exact scalarWork_eq work event

private theorem deriveProgressFromTelemetry_map (work : WorkState) (event : ExecutionEvent) :
    (deriveProgressFromTelemetry registry work event).map (·.work) =
      match telemetryReading registry work.sources event.payload with
      | none => .ok work
      | some (taskRef, valueField) =>
        (passEntry registry work taskRef event.payload).map fun
        | some entry => passedWork registry work taskRef entry
        | none => readingWork registry work taskRef (event.payload.value valueField) := by
  unfold deriveProgressFromTelemetry telemetryReading
  cases (registry.contractsFor "observation" work.sources).findSome? fun entry =>
      progressReading entry.2 event.payload with
  | none => rfl
  | some reading =>
    obtain ⟨taskRef, valueField⟩ := reading
    dsimp only
    by_cases geometry : hasCoveragePayload event.payload = true
    · simp only [geometry, if_true, applyCoveragePass_of_payload geometry]
      cases passEntry registry work taskRef event.payload with
      | error raised => rfl
      | ok counted =>
        cases counted with
        | some entry => exact congrArg _ (work_passedEffect _ _ _ _)
        | none => exact readingWork_eq work taskRef event.observedAt _
    · simp only [geometry, passEntry, Bool.false_eq_true, if_false]
      exact readingWork_eq work taskRef event.observedAt _

/-- The handlers change the working data as stated. -/
theorem handle_map_work (work : WorkState) (event : ExecutionEvent) :
    (handle registry work event).map (·.work) = handledWork registry work event := by
  unfold handle handledWork
  cases event.eventType with
  | taskProgress => exact applyTaskProgress_map work event
  | observationRecorded => exact deriveProgressFromTelemetry_map _ event
  | taskStarted | taskCompleted | orderCreated | orderCancelled | assetUnavailable
  | forecastUpdated | entityCorrected | inventoryAdjusted => rfl

/-- A counted pass writes loaded collections only. -/
theorem keys_passedWork (work : WorkState) (taskId : String) (entry : CoverageEntry) (c : String) :
    c ∈ (passedWork registry work taskId entry).sources.keys ↔ c ∈ work.sources.keys := by
  unfold passedWork
  dsimp only
  split_ifs
  · exact (rewrites_removeByKey registry work.sources taskId "task").keys c
  · exact (rewrites_setRemainingFromOriginals registry work.sources taskId _ _).keys c

theorem keys_recordedWork (work : WorkState) (event : ExecutionEvent) (c : String) :
    c ∈ (recordedWork registry work event).sources.keys ↔ c ∈ work.sources.keys :=
  keys_appendPayload registry work.sources event "observation" _ c

theorem keys_scalarWork (work : WorkState) (event : ExecutionEvent) (c : String) :
    c ∈ (scalarWork registry work event).sources.keys ↔ c ∈ work.sources.keys := by
  unfold scalarWork
  dsimp only
  split
  · exact Iff.rfl
  · split_ifs
    · exact (rewrites_removeByKey registry work.sources event.entityRef "task").keys c
    · exact (rewrites_scaleTaskWork registry work event.entityRef _ _).keys c

theorem keys_readingWork (work : WorkState) (taskRef : String) (reading : Value) (c : String) :
    c ∈ (readingWork registry work taskRef reading).sources.keys ↔ c ∈ work.sources.keys := by
  unfold readingWork
  split
  · exact Iff.rfl
  · split_ifs
    · exact (rewrites_removeByKey registry work.sources taskRef "task").keys c
    · exact (rewrites_scaleTaskWork registry work taskRef _ _).keys c

/-- No event loads or unloads a collection. -/
theorem keys_handledWork {work after : WorkState} {event : ExecutionEvent}
    (handled : handledWork registry work event = .ok after) (c : String) :
    c ∈ after.sources.keys ↔ c ∈ work.sources.keys := by
  unfold handledWork at handled
  cases kind : event.eventType with
  | taskStarted =>
    rw [kind] at handled
    cases handled
    exact (rewrites_setTaskStarted registry work event).keys c
  | taskProgress =>
    simp only [kind] at handled
    cases counted : passEntry registry work event.entityRef event.payload with
    | error raised => simp [counted, Except.map] at handled
    | ok entry =>
      rw [counted] at handled
      cases entry with
      | some entry =>
        cases handled
        exact keys_passedWork work event.entityRef entry c
      | none =>
        cases handled
        exact keys_scalarWork work event c
  | taskCompleted | orderCancelled =>
    rw [kind] at handled
    cases handled
    exact (rewrites_removeByKey registry work.sources event.entityRef "task").keys c
  | orderCreated =>
    rw [kind] at handled
    cases handled
    exact keys_appendPayload registry work.sources event "task" none c
  | assetUnavailable =>
    rw [kind] at handled
    cases handled
    exact (rewrites_removeByKey registry work.sources event.entityRef "asset").keys c
  | forecastUpdated =>
    rw [kind] at handled
    cases handled
    unfold updateForecast
    split_ifs
    · exact Iff.rfl
    · exact keys_appendPayload registry work.sources event "forecast" none c
  | observationRecorded =>
    simp only [kind] at handled
    rw [← keys_recordedWork work event c]
    cases reading : telemetryReading registry (recordedWork registry work event).sources
        event.payload with
    | none =>
      rw [reading] at handled
      cases handled
      exact Iff.rfl
    | some target =>
      simp only [reading] at handled
      cases counted : passEntry registry (recordedWork registry work event) target.1
          event.payload with
      | error raised => simp [counted, Except.map] at handled
      | ok entry =>
        rw [counted] at handled
        cases entry with
        | some entry =>
          cases handled
          exact keys_passedWork _ target.1 entry c
        | none =>
          cases handled
          exact keys_readingWork _ target.1 _ c
  | entityCorrected =>
    rw [kind] at handled
    cases handled
    rw [upsertEntity_eq]
    cases chosen : correctionTarget registry work.sources event.payload with
    | none => exact Iff.rfl
    | some target => exact mem_keys_updateRows _ (mem_keys_of_target chosen) c
  | inventoryAdjusted =>
    rw [kind] at handled
    cases handled
    rcases mergeInventory_cases registry work event with same | ⟨_, _, _, loaded, -, -, _, _, _, -,
      -, -, merged⟩
    · rw [same]
    · rw [merged]
      exact mem_keys_updateRows _ loaded.2.2 c

end Progress

/-- Recording an observation leaves the rows of other entities alone. -/
theorem rows_recordedWork {registry : Registry} {work : WorkState} {event : ExecutionEvent}
    {c : String} {table : BindingTable} (mapped : registry.tables.get? c = some table)
    (other : table.canonicalEntity ≠ "observation") :
    (recordedWork registry work event).sources.rows c = work.sources.rows c := by
  unfold recordedWork
  dsimp only
  rw [appendPayload_eq]
  cases first : (registry.contractsFor "observation" work.sources).head? with
  | none => rfl
  | some contract =>
    have loaded := mem_contractsFor.mp (List.mem_of_head? first)
    rw [rows_updateRows, if_neg]
    rintro rfl
    obtain rfl := Option.some.inj (mapped.symm.trans loaded.1)
    exact other loaded.2.1

/-- Progress is written to task rows only. -/
theorem rows_passedWork {registry : Registry} {work : WorkState} {taskId c : String}
    {entry : CoverageEntry} {table : BindingTable} (mapped : registry.tables.get? c = some table)
    (other : table.canonicalEntity ≠ "task") :
    (passedWork registry work taskId entry).sources.rows c = work.sources.rows c := by
  unfold passedWork
  dsimp only
  split_ifs
  · exact (rewrites_removeByKey registry work.sources taskId "task").rows_of_ne mapped other
  · exact (rewrites_setRemainingFromOriginals registry work.sources taskId _ _).rows_of_ne mapped
      other

theorem rows_readingWork {registry : Registry} {work : WorkState} {taskRef c : String}
    {reading : Value} {table : BindingTable} (mapped : registry.tables.get? c = some table)
    (other : table.canonicalEntity ≠ "task") :
    (readingWork registry work taskRef reading).sources.rows c = work.sources.rows c := by
  unfold readingWork
  split
  · rfl
  · split_ifs
    · exact (rewrites_removeByKey registry work.sources taskRef "task").rows_of_ne mapped other
    · exact (rewrites_scaleTaskWork registry work taskRef _ _).rows_of_ne mapped other

/-- What is captured of a task depends on the task rows alone. -/
theorem captureWorkState_congr {registry : Registry} {sources other : Sources}
    (keys : ∀ c, c ∈ sources.keys ↔ c ∈ other.keys)
    (rows : ∀ c table, registry.Loaded "task" sources c table → sources.rows c = other.rows c)
    (taskId : String) :
    captureWorkState registry sources taskId = captureWorkState registry other taskId := by
  have located (contracts : List (String × BindingTable))
      (same : ∀ entry ∈ contracts, sources.rows entry.1 = other.rows entry.1) :
      (contracts.findSome? fun entry => (named entry.2.entityKeyField).bind fun key =>
        ((sources.rows entry.1).find? fun row => row.hasKey key taskId).map fun row =>
          (entry.2, row)) =
      contracts.findSome? fun entry => (named entry.2.entityKeyField).bind fun key =>
        ((other.rows entry.1).find? fun row => row.hasKey key taskId).map fun row =>
          (entry.2, row) := by
    induction contracts with
    | nil => rfl
    | cons first rest ih =>
      obtain ⟨here, later⟩ := List.forall_mem_cons.mp same
      rw [List.findSome?_cons, List.findSome?_cons, here, ih later]
  have found := located (registry.contractsFor "task" sources) fun entry member =>
    rows entry.1 entry.2 (mem_contractsFor.mp member)
  unfold captureWorkState
  unfold Sources.rows at found
  rw [contractsFor_congr keys] at found ⊢
  rw [found]

/-- A recorded observation changes nothing that a pass is measured against. -/
theorem passEntry_recordedWork (registry : Registry) (work : WorkState) (event : ExecutionEvent)
    (taskId : String) (payload : Row) :
    passEntry registry (recordedWork registry work event) taskId payload =
      passEntry registry work taskId payload := by
  have captured : captureWorkState registry (recordedWork registry work event).sources taskId =
      captureWorkState registry work.sources taskId := by
    refine captureWorkState_congr (keys_recordedWork work event) (fun c table loaded => ?_) taskId
    exact rows_recordedWork loaded.1 (by rw [loaded.2.1]; decide)
  have coverage : (recordedWork registry work event).coverage = work.coverage := rfl
  unfold passEntry openEntry
  rw [captured, coverage]

theorem telemetryReading_recordedWork (registry : Registry) (work : WorkState)
    (event : ExecutionEvent) (payload : Row) :
    telemetryReading registry (recordedWork registry work event).sources payload =
      telemetryReading registry work.sources payload := by
  unfold telemetryReading
  rw [contractsFor_congr (keys_recordedWork work event)]

/-- The task that an event reports progress of. -/
def progressTarget (registry : Registry) (sources : Sources) (event : ExecutionEvent) :
    Option String :=
  match event.eventType with
  | .taskProgress => some event.entityRef
  | .observationRecorded => (telemetryReading registry sources event.payload).map Prod.fst
  | _ => none

/-- The entry an event's pass is counted in, if it has one. -/
def countedEntry (registry : Registry) (work : WorkState) (event : ExecutionEvent) :
    Except Raised (Option CoverageEntry) :=
  match progressTarget registry work.sources event with
  | some taskId => passEntry registry work taskId event.payload
  | none => .ok none

/-- A handler raises exactly if the pass of its event cannot be counted. -/
theorem handledWork_isOk_iff {registry : Registry} {work : WorkState} {event : ExecutionEvent} :
    (∃ after, handledWork registry work event = .ok after) ↔
      ∃ entry, countedEntry registry work event = .ok entry := by
  unfold handledWork countedEntry progressTarget
  cases event.eventType with
  | taskProgress =>
    dsimp only
    cases passEntry registry work event.entityRef event.payload <;> simp [Except.map]
  | observationRecorded =>
    dsimp only
    rw [telemetryReading_recordedWork]
    cases telemetryReading registry work.sources event.payload with
    | none => simp
    | some target =>
      simp only [passEntry_recordedWork, Option.map_some]
      cases passEntry registry work target.1 event.payload <;> simp [Except.map]
  | taskStarted | taskCompleted | orderCreated | orderCancelled | assetUnavailable
  | forecastUpdated | entityCorrected | inventoryAdjusted => simp

section Passes

variable {registry : Registry} {work : WorkState} {sources : Sources} {taskId : String}
  {payload : Row} {entry : CoverageEntry} {captured : Dict String ℚ × ℚ}

/-- A counted pass adds its ring to the entry that is open for the task. -/
theorem passEntry_eq_some (counted : passEntry registry work taskId payload = .ok (some entry)) :
    ∃ ring known, hasCoveragePayload payload = true ∧
      passRingFromPayload registry.primitives payload = .ok (some ring) ∧
      openEntry registry work taskId = .ok (some known) ∧ entry = known.add ring := by
  unfold passEntry at counted
  split_ifs at counted with geometry
  · obtain ⟨pass, usable, opened⟩ := Fallible.bind_eq_ok.mp counted
    cases pass with
    | none => cases opened
    | some ring =>
      obtain ⟨known, opens, added⟩ := Fallible.map_eq_ok.mp opened
      obtain ⟨known, rfl, rfl⟩ := Option.map_eq_some_iff.mp added
      exact ⟨ring, known, geometry, usable, opens, rfl⟩
  · cases counted

/-- The open entry was collected before, or captures the work of the task at its first pass. -/
theorem openEntry_eq_some (opened : openEntry registry work taskId = .ok (some entry)) :
    work.coverage.get? taskId = some entry ∨
      work.coverage.get? taskId = none ∧ ∃ captured,
        captureWorkState registry work.sources taskId = .ok captured ∧ 0 < captured.2 ∧
          entry = ⟨[], captured.1, captured.2, 0⟩ := by
  unfold openEntry at opened
  cases known : work.coverage.get? taskId with
  | some collected =>
    rw [known] at opened
    cases opened
    exact .inl rfl
  | none =>
    rw [known] at opened
    obtain ⟨captured, capture, measured⟩ := Fallible.map_eq_ok.mp opened
    split_ifs at measured with unmeasured
    exact .inr ⟨rfl, captured, capture, not_le.mp unmeasured, (Option.some.inj measured).symm⟩

/-- What is captured is the work of the first row of the task, if there is one. -/
theorem captureWorkState_eq_ok
    (capture : captureWorkState registry sources taskId = .ok captured) :
    (∃ c table key row, registry.Loaded "task" sources c table ∧
      named table.entityKeyField = some key ∧
      (sources.rows c).find? (fun row => row.hasKey key taskId) = some row ∧
      rowWorkState registry table row = .ok captured) ∨ captured = (.empty, 0) := by
  unfold captureWorkState at capture
  dsimp only at capture
  generalize located : List.findSome? _ (registry.contractsFor "task" sources) = found at capture
  cases found with
  | none =>
    cases capture
    exact .inr rfl
  | some tableRow =>
    obtain ⟨⟨c, table⟩, listed, picked⟩ := List.exists_of_findSome?_eq_some located
    obtain ⟨key, column, chosen⟩ := Option.bind_eq_some_iff.mp picked
    obtain ⟨row, first, rfl⟩ := Option.map_eq_some_iff.mp chosen
    exact .inl ⟨c, table, key, row, mem_contractsFor.mp listed, column, first, capture⟩

/-- What is captured is read from the work columns of the row. -/
theorem rowFloat_of_rowWorkState {table : BindingTable} {row : Row}
    (ok : rowWorkState registry table row = .ok captured) {field : String} {original : ℚ}
    (known : captured.1.get? field = some original) :
    field ∈ workFields table ∧ rowFloat registry row field = some original := by
  unfold rowWorkState at ok
  dsimp only at ok
  obtain ⟨area, -, rfl⟩ := Fallible.map_eq_ok.mp ok
  dsimp only at known
  obtain ⟨item, readable, rfl, rfl⟩ := Dict.exists_of_get?_collect known
  obtain ⟨column, inFields, read⟩ := List.mem_filterMap.mp readable
  obtain ⟨quantity, held, rfl⟩ := Option.map_eq_some_iff.mp read
  exact ⟨inFields, held⟩

theorem mem_workFields_of_rowWorkState {table : BindingTable} {row : Row}
    (ok : rowWorkState registry table row = .ok captured) {field : String}
    (member : field ∈ captured.1.keys) : field ∈ workFields table := by
  obtain ⟨original, known⟩ := Option.isSome_iff_exists.mp ((Dict.mem_keys_iff _ _).mp member)
  exact (rowFloat_of_rowWorkState ok known).1

end Passes

/-- The working data after an applied event, also of one that raises. -/
def workAfter (registry : Registry) (work : WorkState) (event : ExecutionEvent) : WorkState :=
  match handledWork registry work event with
  | .ok after => after
  | .error _ => leftBehind registry work event

/-- No event loads or unloads a collection, also none that raises. -/
theorem keys_workAfter (registry : Registry) (work : WorkState) (event : ExecutionEvent)
    (c : String) : c ∈ (workAfter registry work event).sources.keys ↔ c ∈ work.sources.keys := by
  unfold workAfter
  cases handled : handledWork registry work event with
  | ok after => exact keys_handledWork handled c
  | error raised =>
    unfold leftBehind
    cases event.eventType with
    | observationRecorded => exact keys_recordedWork work event c
    | taskStarted | taskProgress | taskCompleted | orderCreated | orderCancelled
    | assetUnavailable | forecastUpdated | entityCorrected | inventoryAdjusted => exact Iff.rfl

theorem work_apply (registry : Registry) (published : List String) (applicator : EventApplicator)
    (event : ExecutionEvent) :
    (applicator.apply registry published event).1.work =
      if Replayed applicator.seenEventIds published event then applicator.work
      else workAfter registry applicator.work event := by
  unfold EventApplicator.apply workAfter
  by_cases replayed : Replayed applicator.seenEventIds published event
  · rw [if_pos replayed, if_pos replayed]
  · rw [if_neg replayed, if_neg replayed, ← handle_map_work]
    cases handle registry applicator.work event <;> rfl

end FlOp.Stream
