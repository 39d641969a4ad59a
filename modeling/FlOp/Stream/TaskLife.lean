import FlOp.Stream.TaskWork

/-! # The life of a task's row

A row of a task appears when an order is created or corrected. Every other event leaves the row
where it is, rewrites it in place or removes it, and coverage is collected by passes alone.
-/

namespace FlOp.Stream

open FlOp.Core Library Mapping BindingTable

/-- The event writes a row of the task: its payload has the task's id in the key column of the
contract of tasks that it goes to. -/
def writesTask (registry : Registry) (sources : Sources) (taskId : String)
    (event : ExecutionEvent) : Bool :=
  let contracts := registry.contractsFor "task" sources
  match event.eventType with
  | .orderCreated => contracts.head?.any fun contract =>
      (named contract.2.entityKeyField).any fun key => event.payload.hasKey key taskId
  | .entityCorrected => (correctionTarget registry sources event.payload).any fun target =>
      event.payload.hasKey target.2 taskId && contracts.any fun contract => contract.1 = target.1
  | _ => false

section Rows

variable {registry : Registry} {sources after : Sources} {work : WorkState} {taskId : String}
  {event : ExecutionEvent}

theorem taskRow_of_rows (keys : ∀ c, c ∈ after.keys ↔ c ∈ sources.keys)
    (same : ∀ c table, registry.Loaded "task" sources c table → after.rows c = sources.rows c) :
    taskRow registry after taskId = taskRow registry sources taskId :=
  taskRow_congr keys fun c table key loaded _ => by rw [same c table loaded]

/-- A rewrite of other entities leaves tasks alone. -/
theorem Rewrites.taskRow_eq {entity : String} {rewrite : BindingTable → List Row → List Row}
    (rewrites : Rewrites registry entity rewrite sources after) (other : "task" ≠ entity) :
    taskRow registry after taskId = taskRow registry sources taskId := by
  refine taskRow_of_rows rewrites.keys fun c table loaded => rewrites.rows_of_ne loaded.1 ?_
  rwa [loaded.2.1]

/-- A row under another key leaves the task where it was. -/
theorem find?_upsertRow_other {rows : List Row} {key : String} {payload : Row}
    (other : payload.hasKey key taskId = false) :
    (upsertRow rows key payload).find? (fun row => row.hasKey key taskId) =
      rows.find? fun row => row.hasKey key taskId := by
  refine find?_upsert_other (Row.hasKey · key taskId) other (fun row named => ?_) rows
  refine Bool.eq_false_iff.mpr fun same => Bool.eq_false_iff.mp other ?_
  exact decide_eq_true ((of_decide_eq_true named).symm.trans (of_decide_eq_true same))

/-- A row of one task, appended, leaves the others. -/
theorem find?_append_other {rows : List Row} {key : String} {payload : Row}
    (other : payload.hasKey key taskId = false) :
    (rows ++ [payload]).find? (fun row => row.hasKey key taskId) =
      rows.find? fun row => row.hasKey key taskId := by
  rw [List.find?_append, List.find?_cons_of_neg (by simp [other])]
  simp

/-- A payload that goes to another entity, or to another task, leaves the task alone. -/
theorem taskRow_appendPayload {entity : String} {extra : Option (String × String)}
    (other : "task" = entity → ∀ contract ∈ (registry.contractsFor "task" sources).head?,
      ∀ key ∈ named contract.2.entityKeyField,
        (filledPayload event.payload extra).hasKey key taskId = false) :
    taskRow registry (appendPayload registry sources event entity extra) taskId =
      taskRow registry sources taskId := by
  refine taskRow_congr (keys_appendPayload registry sources event entity extra)
    fun c table key loaded column => ?_
  rw [appendPayload_eq]
  cases first : (registry.contractsFor entity sources).head? with
  | none => rfl
  | some contract =>
    dsimp only
    rw [rows_updateRows]
    split_ifs with here
    · have picked := mem_contractsFor.mp (List.mem_of_head? first)
      obtain rfl : table = contract.2 := by
        rw [← here] at picked
        exact Option.some.inj (loaded.1.symm.trans picked.1)
      obtain rfl : "task" = entity := loaded.2.1.symm.trans picked.2.1
      have apart := other rfl contract first key column
      rw [appendedRows, column]
      dsimp only
      split_ifs
      · exact find?_upsertRow_other apart
      · exact find?_append_other apart
    · rfl

/-- A correction of another row leaves the task alone. -/
theorem taskRow_upsertEntity (corrects : event.eventType = .entityCorrected)
    (other : writesTask registry work.sources taskId event = false) :
    taskRow registry (upsertEntity registry work event).work.sources taskId =
      taskRow registry work.sources taskId := by
  rw [writesTask, corrects] at other
  dsimp only at other
  rw [upsertEntity_eq]
  cases chosen : correctionTarget registry work.sources event.payload with
  | none => rfl
  | some target =>
    rw [chosen, Option.any_some, Bool.and_eq_false_iff] at other
    refine taskRow_congr (mem_keys_updateRows _ (mem_keys_of_target chosen))
      fun c table key loaded column => ?_
    dsimp only
    rw [rows_updateRows]
    split_ifs with here
    · subst here
      have keyed := keyField_of_mem_candidates (mem_candidates_of_target chosen)
      rw [Registry.keyField, loaded.1, Option.bind_some, column] at keyed
      obtain rfl := Option.some.inj keyed
      rcases other with apart | unlisted
      · exact find?_upsertRow_other apart
      · refine absurd ?_ (Bool.eq_false_iff.mp unlisted)
        exact List.any_eq_true.mpr ⟨(target.1, table), mem_contractsFor.mpr loaded,
          decide_eq_true rfl⟩
    · rfl

/-- An adjustment of an inventory leaves tasks alone. -/
theorem taskRow_mergeInventory :
    taskRow registry (mergeInventory registry work event).work.sources taskId =
      taskRow registry work.sources taskId := by
  rcases mergeInventory_cases registry work event with same | ⟨c, table, _, merged, -, -, _, _, _,
    -, -, -, updated⟩
  · rw [same]
  · rw [updated]
    refine taskRow_of_rows (mem_keys_updateRows _ merged.2.2) fun c' other loaded => ?_
    rw [rows_updateRows, if_neg]
    rintro rfl
    obtain rfl := Option.some.inj (merged.1.symm.trans loaded.1)
    exact absurd (merged.2.1.symm.trans loaded.2.1) (by decide)

end Rows

section Coverage

variable {registry : Registry} {work : WorkState} {taskId : String} {event : ExecutionEvent}

theorem get?_coverage_passedWork (base : WorkState) (entry : CoverageEntry) (id : String) :
    (passedWork registry base taskId entry).coverage.get? id =
      if id = taskId then
        if registry.coverageCompleteFraction ≤ entry.coveredFraction registry.primitives then none
        else some entry
      else base.coverage.get? id := by
  unfold passedWork
  dsimp only
  split_ifs with complete same same
  · rw [Dict.get?_erase, if_pos same]
  · rw [Dict.get?_erase, if_neg same]
  · rw [Dict.get?_set, if_pos same]
  · rw [Dict.get?_set, if_neg same]

/-- Coverage is collected by passes that are counted, and by nothing else. -/
theorem coverage_workAfter (registry : Registry) (work : WorkState) (event : ExecutionEvent) :
    (workAfter registry work event).coverage = work.coverage ∨
      ∃ taskId entry, progressTarget registry work.sources event = some taskId ∧
        passEntry registry work taskId event.payload = .ok (some entry) := by
  cases target : progressTarget registry work.sources event with
  | some taskId =>
    have outcome := progress_outcome target
    generalize workAfter registry work event = after at outcome
    cases outcome with
    | idle | finished | scaled => exact .inl coverage_progressBase
    | passed counted => exact .inr ⟨taskId, _, rfl, counted⟩
  | none =>
    left
    unfold progressTarget at target
    unfold workAfter handledWork leftBehind
    cases kind : event.eventType with
    | taskProgress =>
      rw [kind] at target
      cases target
    | observationRecorded =>
      rw [kind] at target
      have unread := Option.map_eq_none_iff.mp target
      dsimp only
      rw [telemetryReading_recordedWork, unread]
      rfl
    | entityCorrected =>
      dsimp only
      rw [upsertEntity_eq]
      cases correctionTarget registry work.sources event.payload <;> rfl
    | inventoryAdjusted =>
      rcases mergeInventory_cases registry work event with same | ⟨_, _, _, -, -, -, _, _, _, -, -,
        -, merged⟩
      · dsimp only
        rw [same]
      · dsimp only
        rw [merged]
    | forecastUpdated =>
      dsimp only [updateForecast]
      split_ifs <;> rfl
    | taskStarted | taskCompleted | orderCreated | orderCancelled | assetUnavailable => rfl

/-- Whatever is collected is about work columns. -/
theorem captured_workAfter
    (captured : ∀ id entry, work.coverage.get? id = some entry → CapturesWork registry entry)
    (event : ExecutionEvent) :
    ∀ id entry, (workAfter registry work event).coverage.get? id = some entry →
      CapturesWork registry entry := by
  intro id entry known
  rcases coverage_workAfter registry work event with same | ⟨taskId, counted, target, pass⟩
  · exact captured id entry (same ▸ known)
  · rw [workAfter_of_counted target pass, get?_coverage_passedWork] at known
    split_ifs at known with this_task
    · obtain rfl := Option.some.inj known
      exact capturesWork_of_passEntry (captured taskId) pass
    · rw [coverage_progressBase] at known
      exact captured id entry known

/-- What is collected for a task is the matter of its own counted passes. -/
theorem get?_coverage_workAfter_of_uncounted (taskId : String)
    (uncounted : progressTarget registry work.sources event = some taskId →
      ∀ entry, passEntry registry work taskId event.payload ≠ .ok (some entry)) :
    (workAfter registry work event).coverage.get? taskId = work.coverage.get? taskId := by
  rcases coverage_workAfter registry work event with same | ⟨id, entry, target, counted⟩
  · rw [same]
  · have apart : taskId ≠ id := by
      rintro rfl
      exact uncounted target entry counted
    rw [workAfter_of_counted target counted, get?_coverage_passedWork, if_neg apart,
      coverage_progressBase]

theorem progressTarget_of_writesTask
    (writes : writesTask registry work.sources taskId event = true) :
    progressTarget registry work.sources event = none := by
  unfold writesTask at writes
  unfold progressTarget
  cases kind : event.eventType with
  | taskProgress | observationRecorded =>
    rw [kind] at writes
    cases writes
  | taskStarted | taskCompleted | orderCreated | orderCancelled | assetUnavailable
  | forecastUpdated | entityCorrected | inventoryAdjusted => rfl

end Coverage

section Appearance

variable {registry : Registry} {work : WorkState} {taskId : String} {event : ExecutionEvent}

theorem taskRow_removeByKey_eq_none {sources : Sources}
    (none : taskRow registry sources taskId = .none) (taskRef : String) :
    taskRow registry (removeByKey registry sources taskRef "task") taskId = .none := by
  by_cases same : taskId = taskRef
  · rw [same]
    exact taskRow_removeByKey_self registry sources taskRef
  · rw [taskRow_removeByKey_other registry sources same, none]

/-- A progress event makes no row. -/
private theorem taskRow_of_progress (apart : registry.ColumnsApart)
    (captured : ∀ id entry, work.coverage.get? id = some entry → CapturesWork registry entry)
    {id : String} (target : progressTarget registry work.sources event = some id)
    (none : taskRow registry work.sources taskId = .none) :
    taskRow registry (workAfter registry work event).sources taskId = .none := by
  have base_none : taskRow registry (progressBase registry work event).sources taskId = .none := by
    rw [taskRow_progressBase, none]
  have outcome := progress_outcome target
  generalize workAfter registry work event = after at outcome
  cases outcome with
  | idle => exact base_none
  | finished => exact taskRow_removeByKey_eq_none base_none id
  | scaled fraction below reported =>
    rw [taskRow_scaleTaskWork apart, base_none]
    rfl
  | passed counted =>
    unfold passedWork
    dsimp only
    split_ifs
    · exact taskRow_removeByKey_eq_none base_none id
    · rw [taskRow_setRemainingFromOriginals apart _
        (capturesWork_of_passEntry (captured id) counted), base_none]
      rfl

/-- A row of a task appears by a creation or correction of the task only. -/
theorem taskRow_workAfter_eq_none (apart : registry.ColumnsApart)
    (captured : ∀ id entry, work.coverage.get? id = some entry → CapturesWork registry entry)
    (other : writesTask registry work.sources taskId event = false)
    (none : taskRow registry work.sources taskId = .none) :
    taskRow registry (workAfter registry work event).sources taskId = .none := by
  cases target : progressTarget registry work.sources event with
  | some id => exact taskRow_of_progress apart captured target none
  | none =>
    unfold progressTarget at target
    unfold workAfter handledWork leftBehind
    cases kind : event.eventType with
    | taskProgress =>
      rw [kind] at target
      cases target
    | observationRecorded =>
      rw [kind] at target
      dsimp only
      rw [telemetryReading_recordedWork, Option.map_eq_none_iff.mp target]
      exact (taskRow_recordedWork registry work event taskId).trans none
    | taskStarted =>
      dsimp only
      rw [taskRow_setTaskStarted apart, none]
      rfl
    | taskCompleted | orderCancelled => exact taskRow_removeByKey_eq_none none event.entityRef
    | assetUnavailable =>
      have rewrites := rewrites_removeByKey registry work.sources event.entityRef "asset"
      exact (rewrites.taskRow_eq (by decide)).trans none
    | orderCreated =>
      refine (taskRow_appendPayload fun _ contract first key column => ?_).trans none
      rw [writesTask, kind] at other
      have unkeyed := (Option.any_eq_false _ _).mp other contract first
      exact (Option.any_eq_false _ _).mp unkeyed key column
    | forecastUpdated =>
      dsimp only [updateForecast]
      split_ifs
      · exact none
      · exact (taskRow_appendPayload fun task => absurd task (by decide)).trans none
    | entityCorrected => exact (taskRow_upsertEntity kind other).trans none
    | inventoryAdjusted => exact taskRow_mergeInventory.trans none

end Appearance

end FlOp.Stream
