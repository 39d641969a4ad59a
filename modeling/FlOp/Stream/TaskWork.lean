import FlOp.Stream.UniqueRows

/-! # The work of one task

A task is its first row, and its work is what the work columns of that row hold. Progress is
written into the row in place, so the same row is found afterwards.
-/

namespace FlOp.Stream

open FlOp.Core Library Mapping BindingTable

/-- Keys, status and work of task rows are in columns of their own. -/
structure Registry.ColumnsApart (registry : Registry) : Prop where
  keys : registry.KeysApart
  status : ∀ c table status, registry.tables.get? c = some table →
    table.canonicalEntity = "task" → named (table.sourceField taskStatusBinding) = some status →
      ∀ c' other, registry.tables.get? c' = some other → other.canonicalEntity = "task" →
        status ∉ workFields other

theorem columnsApart_iff {registry : Registry} : registry.ColumnsApart ↔ registry.KeysApart ∧
    ∀ entry ∈ registry.tables.entries, entry.2.canonicalEntity = "task" →
      ∀ status ∈ named (entry.2.sourceField taskStatusBinding),
        ∀ other ∈ registry.tables.entries, other.2.canonicalEntity = "task" →
          status ∉ workFields other.2 := by
  constructor
  · intro apart
    refine ⟨apart.keys, fun entry listed task status bound other mapped otherTask => ?_⟩
    exact apart.status entry.1 entry.2 status ((Dict.get?_eq_some_iff _ _ _).mpr listed) task bound
      other.1 other.2 ((Dict.get?_eq_some_iff _ _ _).mpr mapped) otherTask
  · rintro ⟨keys, columns⟩
    refine ⟨keys, fun c table status mapped task bound c' other otherMapped otherTask => ?_⟩
    exact columns (c, table) ((Dict.get?_eq_some_iff _ _ _).mp mapped) task status bound
      (c', other) ((Dict.get?_eq_some_iff _ _ _).mp otherMapped) otherTask

instance {registry : Registry} : Decidable registry.ColumnsApart :=
  decidable_of_iff _ columnsApart_iff.symm

/-- The first row of a task, with the table of its contract. -/
def taskRow (registry : Registry) (sources : Sources) (taskId : String) :
    Option (BindingTable × Row) :=
  (registry.contractsFor "task" sources).findSome? fun entry =>
    (named entry.2.entityKeyField).bind fun key =>
      ((sources.rows entry.1).find? fun row => row.hasKey key taskId).map fun row => (entry.2, row)

/-- The number in a work column, zero where there is none. -/
def columnWork (primitives : Primitives) (row : Row) (field : String) : Option ℚ :=
  primitives.toFloat (Dict.getD row field (primitives.ofFloat 0))

@[simp] theorem toFloat_ofFloat (primitives : Primitives) (x : ℚ) :
    primitives.toFloat (primitives.ofFloat x) = some x :=
  rfl

section Located

variable {registry : Registry} {sources after : Sources} {taskId key ref : String}

theorem captureWorkState_eq (registry : Registry) (sources : Sources) (taskId : String) :
    captureWorkState registry sources taskId = match taskRow registry sources taskId with
      | some (table, row) => rowWorkState registry table row
      | none => .ok (.empty, 0) :=
  rfl

/-- The task's row is in a loaded contract of tasks. -/
theorem taskRow_eq_some {table : BindingTable} {row : Row}
    (found : taskRow registry sources taskId = some (table, row)) :
    ∃ c key, registry.Loaded "task" sources c table ∧ named table.entityKeyField = some key ∧
      (sources.rows c).find? (fun row => row.hasKey key taskId) = some row := by
  obtain ⟨⟨c, other⟩, listed, picked⟩ := List.exists_of_findSome?_eq_some found
  obtain ⟨key, column, chosen⟩ := Option.bind_eq_some_iff.mp picked
  obtain ⟨row', first, same⟩ := Option.map_eq_some_iff.mp chosen
  obtain ⟨rfl, rfl⟩ := Prod.mk.inj same
  exact ⟨c, key, mem_contractsFor.mp listed, column, first⟩

/-- What happens to the first row of the task in each contract happens to the task's row. -/
theorem taskRow_map (update : BindingTable → Row → Row)
    (keys : ∀ c, c ∈ after.keys ↔ c ∈ sources.keys)
    (rewritten : ∀ c table key, registry.Loaded "task" sources c table →
      named table.entityKeyField = some key →
        (after.rows c).find? (fun row => row.hasKey key taskId) =
          ((sources.rows c).find? fun row => row.hasKey key taskId).map (update table)) :
    taskRow registry after taskId =
      (taskRow registry sources taskId).map fun found => (found.1, update found.1 found.2) := by
  unfold taskRow
  rw [contractsFor_congr keys]
  have all : ∀ entry ∈ registry.contractsFor "task" sources, ∀ key,
      named entry.2.entityKeyField = some key →
        (after.rows entry.1).find? (fun row => row.hasKey key taskId) =
          ((sources.rows entry.1).find? fun row => row.hasKey key taskId).map (update entry.2) :=
    fun entry listed key => rewritten entry.1 entry.2 key (mem_contractsFor.mp listed)
  generalize registry.contractsFor "task" sources = contracts at all ⊢
  induction contracts with
  | nil => rfl
  | cons first rest ih =>
    obtain ⟨here, others⟩ := List.forall_mem_cons.mp all
    have later := ih others
    rw [List.findSome?_cons, List.findSome?_cons]
    cases column : named first.2.entityKeyField with
    | none => exact later
    | some key =>
      rw [Option.bind_some, Option.bind_some, here key column]
      cases (sources.rows first.1).find? fun row => row.hasKey key taskId with
      | none => exact later
      | some row => rfl

/-- The task's row is the same if its contracts are. -/
theorem taskRow_congr (keys : ∀ c, c ∈ after.keys ↔ c ∈ sources.keys)
    (same : ∀ c table key, registry.Loaded "task" sources c table →
      named table.entityKeyField = some key →
        (after.rows c).find? (fun row => row.hasKey key taskId) =
          (sources.rows c).find? fun row => row.hasKey key taskId) :
    taskRow registry after taskId = taskRow registry sources taskId := by
  have unchanged := taskRow_map (fun _ row => row) keys fun c table key loaded column => by
    rw [same c table key loaded column, Option.map_id']
  simpa using unchanged

theorem hasKey_of_find? {rows : List Row} {row : Row}
    (found : rows.find? (fun row => row.hasKey key ref) = some row) : row.hasKey key ref = true :=
  List.find?_some (p := fun row : Row => row.hasKey key ref) found

/-- An update that keeps the key column keeps whose row it is. -/
theorem hasKey_rewritten {update : Row → Row}
    (keeps : ∀ row, Dict.get? (update row) key = Dict.get? row key) (row : Row) :
    (if row.hasKey key ref then update row else row).hasKey key taskId =
      row.hasKey key taskId := by
  split_ifs
  · rw [Row.hasKey, Row.hasKey, Row.value, Row.value, Dict.getD, Dict.getD, keeps]
  · rfl

theorem find?_rewriteNamed {update : Row → Row}
    (keeps : ∀ row, Dict.get? (update row) key = Dict.get? row key) (rows : List Row) :
    (rewriteNamed key ref update rows).find? (fun row => row.hasKey key taskId) =
      (rows.find? fun row => row.hasKey key taskId).map fun row =>
        if row.hasKey key ref then update row else row := by
  rw [rewriteNamed, List.find?_map]
  congr 2
  exact funext fun row => hasKey_rewritten keeps row

/-- The first row of a reference is rewritten in place. -/
theorem find?_rewriteNamed_self {update : Row → Row}
    (keeps : ∀ row, Dict.get? (update row) key = Dict.get? row key) (rows : List Row) :
    (rewriteNamed key ref update rows).find? (fun row => row.hasKey key ref) =
      (rows.find? fun row => row.hasKey key ref).map update := by
  rw [find?_rewriteNamed keeps]
  exact Option.map_congr fun row found => if_pos (hasKey_of_find? found)

/-- Rewriting the rows of another reference finds the same row. -/
theorem find?_rewriteNamed_other {update : Row → Row}
    (keeps : ∀ row, Dict.get? (update row) key = Dict.get? row key) (other : taskId ≠ ref)
    (rows : List Row) :
    (rewriteNamed key ref update rows).find? (fun row => row.hasKey key taskId) =
      rows.find? fun row => row.hasKey key taskId := by
  rw [find?_rewriteNamed keeps]
  conv_rhs => rw [← Option.map_id' (x := rows.find? fun row => row.hasKey key taskId)]
  refine Option.map_congr fun row found => if_neg fun named => other ?_
  exact (of_decide_eq_true (hasKey_of_find? found)).symm.trans (of_decide_eq_true named)

/-- Only the row of the reference is found rewritten. -/
theorem find?_rewriteNamed_eq_map {update : Row → Row}
    (keeps : ∀ row, Dict.get? (update row) key = Dict.get? row key) (rows : List Row) :
    (rewriteNamed key ref update rows).find? (fun row => row.hasKey key taskId) =
      (rows.find? fun row => row.hasKey key taskId).map fun row =>
        if taskId = ref then update row else row := by
  split_ifs with same
  · subst same
    exact find?_rewriteNamed_self keeps rows
  · rw [find?_rewriteNamed_other keeps same, Option.map_id']

/-- Rows that do not have the reference stay. -/
theorem find?_filter_other (other : taskId ≠ ref) (rows : List Row) :
    (rows.filter fun row => !row.hasKey key ref).find? (fun row => row.hasKey key taskId) =
      rows.find? fun row => row.hasKey key taskId := by
  rw [List.find?_filter]
  refine congrFun (congrArg _ (funext fun row => ?_)) rows
  cases same : row.hasKey key taskId with
  | false => simp
  | true =>
    have apart : row.hasKey key ref = false := Bool.eq_false_iff.mpr fun named =>
      other ((of_decide_eq_true same).symm.trans (of_decide_eq_true named))
    simp [apart]

end Located

section Columns

variable {primitives : Primitives} {row : Row} {field : String} {fields : List String} {x : ℚ}

/-- The work columns of a contract are distinct. -/
theorem nodup_workFields (table : BindingTable) : (workFields table).Nodup := by
  unfold workFields
  generalize taskWorkQuantityBindings.filterMap table.sourceField = bound
  have keeps : ∀ fields : List String, fields.Nodup → (bound.foldl
      (fun fields field => if field ∈ fields then fields else fields ++ [field]) fields).Nodup := by
    induction bound with
    | nil => exact fun fields nodup => nodup
    | cons field rest ih =>
      intro fields nodup
      rw [List.foldl_cons]
      refine ih _ ?_
      split_ifs with known
      · exact nodup
      · refine List.nodup_append.mpr ⟨nodup, List.nodup_singleton _, fun a member b last => ?_⟩
        rw [List.mem_singleton.mp last]
        exact fun same => known (same ▸ member)
  exact keeps [] List.nodup_nil

theorem columnWork_congr {other : Row} (same : Dict.get? other field = Dict.get? row field) :
    columnWork primitives other field = columnWork primitives row field := by
  rw [columnWork, columnWork, Dict.getD, Dict.getD, same]

/-- A share of the work is taken from each column that can be read. -/
theorem get?_scaledWork_of_mem (primitives : Primitives) (fraction : ℚ) (row : Row)
    (nodup : fields.Nodup) (member : field ∈ fields) :
    Dict.get? (scaledWork primitives fields fraction none row) field =
      match columnWork primitives row field with
      | some x => some (primitives.ofFloat (roundTo 2 (x * (1 - fraction))))
      | none => Dict.get? row field := by
  induction fields generalizing row with
  | nil => cases member
  | cons first rest ih =>
    obtain ⟨fresh, later⟩ := List.nodup_cons.mp nodup
    change Dict.get? (scaledWork primitives rest fraction none
      (match columnWork primitives row first with
      | some x => Dict.set row first (primitives.ofFloat (roundTo 2 (x * (1 - fraction))))
      | none => row)) field = _
    rcases List.mem_cons.mp member with rfl | inRest
    · rw [get?_scaledWork fresh]
      cases columnWork primitives row field with
      | none => rfl
      | some x => exact (Dict.get?_set _ _ _ _).trans (if_pos rfl)
    · have apart : field ≠ first := fun same => fresh (same ▸ inRest)
      rw [ih _ later inRest]
      cases columnWork primitives row first with
      | none => rfl
      | some x =>
        have same : Dict.get? (Dict.set row first
            (primitives.ofFloat (roundTo 2 (x * (1 - fraction))))) field = Dict.get? row field :=
          (Dict.get?_set _ _ _ _).trans (if_neg apart)
        rw [columnWork_congr same, same]

theorem columnWork_scaledWork {fraction : ℚ} (nodup : fields.Nodup) (member : field ∈ fields) :
    columnWork primitives (scaledWork primitives fields fraction none row) field =
      (columnWork primitives row field).map fun x => roundTo 2 (x * (1 - fraction)) := by
  have written := get?_scaledWork_of_mem primitives fraction row nodup member
  cases read : columnWork primitives row field with
  | none =>
    rw [read] at written
    rw [columnWork_congr written, read]
    rfl
  | some x =>
    rw [read] at written
    rw [columnWork, Dict.getD, written]
    rfl

/-- What is captured of a column is what it holds, or zero. -/
theorem rowFloat_eq_some {registry : Registry} (read : rowFloat registry row field = some x) :
    x = 0 ∨ columnWork registry.primitives row field = some x := by
  unfold rowFloat at read
  dsimp only at read
  split_ifs at read with filled
  · right
    cases held : Dict.get? row field with
    | none =>
      rw [Row.value, Dict.getD, held] at filled
      cases filled
    | some value =>
      rw [Row.value, Dict.getD, held] at read
      rw [columnWork, Dict.getD, held]
      exact read
  · exact .inl (Option.some.inj read).symm

theorem columnWork_start {status : Option String} (apart : status ≠ some field) :
    columnWork primitives (row.start status) field = columnWork primitives row field :=
  columnWork_congr (get?_start apart)

end Columns

section Reports

variable {registry : Registry} {work : WorkState} {taskId taskRef : String}

/-- The task's row after it was started. -/
def startedRow (table : BindingTable) (row : Row) : Row :=
  row.start (named (table.sourceField taskStatusBinding))

/-- A task is started in its row, and in no other. -/
theorem taskRow_setTaskStarted (apart : registry.ColumnsApart) (work : WorkState)
    (event : ExecutionEvent) :
    taskRow registry (setTaskStarted registry work event).work.sources taskId =
      (taskRow registry work.sources taskId).map fun found => (found.1,
        if taskId = event.entityRef then startedRow found.1 found.2 else found.2) := by
  have rewrites := rewrites_setTaskStarted registry work event
  refine taskRow_map
    (fun table row => if taskId = event.entityRef then startedRow table row else row)
    rewrites.keys fun c table key loaded column => ?_
  have keeps (row : Row) : Dict.get? (startedRow table row) key = Dict.get? row key :=
    get?_start (apart.keys c table key loaded.1 loaded.2.1 column).1
  have rows : (startedRows event.entityRef table).getD id (work.sources.rows c) =
      rewriteNamed key event.entityRef (startedRow table) (work.sources.rows c) := by
    unfold startedRows startedRow
    rw [column]
    cases named (table.sourceField taskStatusBinding) with
    | none => simp [rewriteNamed, Row.start]
    | some status => rfl
  rw [rewrites.loaded loaded, rows]
  exact find?_rewriteNamed_eq_map keeps _

/-- The task's row after a progress report. -/
def scaledRow (registry : Registry) (fraction : ℚ) (remaining : Option ℚ) (table : BindingTable)
    (row : Row) : Row :=
  if workFields table = [] then row
  else Row.start (scaledWork registry.primitives (workFields table) fraction remaining row)
    (named (table.sourceField taskStatusBinding))

theorem get?_scaledRow (apart : registry.ColumnsApart) {c : String} {table : BindingTable}
    (mapped : registry.tables.get? c = some table) (task : table.canonicalEntity = "task")
    {key : String} (column : named table.entityKeyField = some key) (fraction : ℚ)
    (remaining : Option ℚ) (row : Row) :
    Dict.get? (scaledRow registry fraction remaining table row) key = Dict.get? row key := by
  obtain ⟨status, columns⟩ := apart.keys c table key mapped task column
  unfold scaledRow
  split_ifs
  · rfl
  · exact (get?_start status).trans (get?_scaledWork (columns c table mapped task))

/-- A progress report is written into the row of its task, and into no other. -/
theorem taskRow_scaleTaskWork (apart : registry.ColumnsApart) (work : WorkState) (fraction : ℚ)
    (remaining : Option ℚ) :
    taskRow registry (scaleTaskWork registry work taskRef fraction remaining).sources taskId =
      (taskRow registry work.sources taskId).map fun found => (found.1,
        if taskId = taskRef then scaledRow registry fraction remaining found.1 found.2
        else found.2) := by
  have rewrites := rewrites_scaleTaskWork registry work taskRef fraction remaining
  refine taskRow_map (fun table row =>
    if taskId = taskRef then scaledRow registry fraction remaining table row else row)
    rewrites.keys fun c table key loaded column => ?_
  have keeps := get?_scaledRow apart loaded.1 loaded.2.1 column fraction remaining
  have rows : (scaledRows registry.primitives taskRef fraction remaining table).getD id
      (work.sources.rows c) =
        rewriteNamed key taskRef (scaledRow registry fraction remaining table)
          (work.sources.rows c) := by
    unfold scaledRows scaledRow
    rw [column]
    cases workFields table with
    | nil => simp [rewriteNamed]
    | cons first others => rfl
  rw [rewrites.loaded loaded, rows]
  exact find?_rewriteNamed_eq_map keeps _

/-- A report of a completed share scales every work column. -/
theorem columnWork_scaledRow (apart : registry.ColumnsApart) {c : String} {table : BindingTable}
    (mapped : registry.tables.get? c = some table) (task : table.canonicalEntity = "task")
    {field : String} (carries : field ∈ workFields table) (fraction : ℚ) (row : Row) :
    columnWork registry.primitives (scaledRow registry fraction none table row) field =
      (columnWork registry.primitives row field).map fun x => roundTo 2 (x * (1 - fraction)) := by
  have status : named (table.sourceField taskStatusBinding) ≠ some field := fun bound =>
    apart.status c table field mapped task bound c table mapped task carries
  rw [scaledRow, if_neg (List.ne_nil_of_mem carries), columnWork_start status,
    columnWork_scaledWork (nodup_workFields table) carries]

/-- The task's row after a coverage pass. -/
def uncoveredRow (registry : Registry) (originals : Dict String ℚ) (coveredFraction : ℚ)
    (table : BindingTable) (row : Row) : Row :=
  Row.start (uncoveredWork registry.primitives originals (max 0 (1 - coveredFraction)) row)
    (named (table.sourceField taskStatusBinding))

/-- A coverage pass is written into the row of its task, and into no other. -/
theorem taskRow_setRemainingFromOriginals (apart : registry.ColumnsApart) (sources : Sources)
    {originals : Dict String ℚ} (carried : ∀ field ∈ originals.keys, ∃ c table,
      registry.tables.get? c = some table ∧ table.canonicalEntity = "task" ∧
        field ∈ workFields table) (coveredFraction : ℚ) :
    taskRow registry (setRemainingFromOriginals registry sources taskRef originals coveredFraction)
        taskId =
      (taskRow registry sources taskId).map fun found => (found.1,
        if taskId = taskRef then uncoveredRow registry originals coveredFraction found.1 found.2
        else found.2) := by
  have rewrites := rewrites_setRemainingFromOriginals registry sources taskRef originals
    coveredFraction
  refine taskRow_map (fun table row =>
    if taskId = taskRef then uncoveredRow registry originals coveredFraction table row else row)
    rewrites.keys fun c table key loaded column => ?_
  obtain ⟨status, columns⟩ := apart.keys c table key loaded.1 loaded.2.1 column
  have fields : key ∉ originals.keys := fun member => by
    obtain ⟨other, otherTable, mapped, task, inFields⟩ := carried key member
    exact columns other otherTable mapped task inFields
  have keeps (row : Row) : Dict.get? (uncoveredRow registry originals coveredFraction table row)
      key = Dict.get? row key := (get?_start status).trans (get?_uncoveredWork fields)
  have rows : (uncoveredRows registry.primitives taskRef originals coveredFraction table).getD id
      (sources.rows c) = rewriteNamed key taskRef
        (uncoveredRow registry originals coveredFraction table) (sources.rows c) := by
    unfold uncoveredRows
    rw [column]
    rfl
  rw [rewrites.loaded loaded, rows]
  exact find?_rewriteNamed_eq_map keeps _

/-- A pass sets the columns that have an original, and leaves the other ones. -/
theorem columnWork_uncoveredRow (apart : registry.ColumnsApart) {c c' : String}
    {table other : BindingTable} (mapped : registry.tables.get? c = some table)
    (task : table.canonicalEntity = "task") (otherMapped : registry.tables.get? c' = some other)
    (otherTask : other.canonicalEntity = "task") {field : String}
    (carries : field ∈ workFields other) (originals : Dict String ℚ) (coveredFraction : ℚ)
    (row : Row) :
    columnWork registry.primitives (uncoveredRow registry originals coveredFraction table row)
        field =
      match originals.get? field with
      | some original => if field ∈ Dict.keys row then
          some (roundTo 2 (original * max 0 (1 - coveredFraction)))
        else columnWork registry.primitives row field
      | none => columnWork registry.primitives row field := by
  have status : named (table.sourceField taskStatusBinding) ≠ some field := fun bound =>
    apart.status c table field mapped task bound c' other otherMapped otherTask carries
  rw [uncoveredRow, columnWork_start status]
  cases known : originals.get? field with
  | none =>
    refine columnWork_congr (get?_uncoveredWork ?_)
    rw [Dict.mem_keys_iff, known]
    exact Bool.false_ne_true
  | some original =>
    dsimp only
    split_ifs with present
    · rw [columnWork, Dict.getD, get?_uncoveredWork_of_original known present]
      rfl
    · have absent : Dict.get? row field = none := by
        rwa [Dict.mem_keys_iff, Option.not_isSome_iff_eq_none] at present
      refine columnWork_congr ?_
      have still := keys_uncoveredWork registry.primitives originals
        (max 0 (1 - coveredFraction)) row field
      rw [Dict.mem_keys_iff, Dict.mem_keys_iff, absent] at still
      rw [absent]
      exact Option.not_isSome_iff_eq_none.mp (still.not.mpr Bool.false_ne_true)

theorem taskRow_recordedWork (registry : Registry) (work : WorkState) (event : ExecutionEvent)
    (taskId : String) : taskRow registry (recordedWork registry work event).sources taskId =
      taskRow registry work.sources taskId := by
  refine taskRow_congr (keys_recordedWork work event) fun c table key loaded _ => ?_
  rw [rows_recordedWork loaded.1 (by rw [loaded.2.1]; decide)]

/-- A removed task has no row. -/
theorem taskRow_removeByKey_self (registry : Registry) (sources : Sources) (taskId : String) :
    taskRow registry (removeByKey registry sources taskId "task") taskId = none := by
  have rewrites := rewrites_removeByKey registry sources taskId "task"
  cases found : taskRow registry (removeByKey registry sources taskId "task") taskId with
  | none => rfl
  | some located =>
    obtain ⟨c, key, loaded, column, first⟩ := taskRow_eq_some found
    have before : registry.Loaded "task" sources c located.1 :=
      ⟨loaded.1, loaded.2.1, (rewrites.keys c).mp loaded.2.2⟩
    rw [rewrites.loaded before, remainingRows, column] at first
    have kept := List.of_mem_filter (List.mem_of_find?_eq_some first)
    rw [hasKey_of_find? first] at kept
    cases kept

/-- Removing one task leaves the others. -/
theorem taskRow_removeByKey_other (registry : Registry) (sources : Sources)
    (other : taskId ≠ taskRef) :
    taskRow registry (removeByKey registry sources taskRef "task") taskId =
      taskRow registry sources taskId := by
  have rewrites := rewrites_removeByKey registry sources taskRef "task"
  refine taskRow_congr rewrites.keys fun c table key loaded column => ?_
  rw [rewrites.loaded loaded, remainingRows, column]
  exact find?_filter_other other _

end Reports

section Outcomes

variable (registry : Registry) (work : WorkState) (event : ExecutionEvent) (taskId : String)

/-- The working data that progress is written into: an observation is recorded first. -/
def progressBase : WorkState :=
  match event.eventType with
  | .observationRecorded => recordedWork registry work event
  | _ => work

/-- The amount that an event says is left. -/
def reportedRemaining : Option ℚ :=
  match event.eventType with
  | .taskProgress => registry.primitives.toFloat (event.payload.value payloadRemainingQuantity)
  | _ => none

/-- The share of the task that a progress event says is completed. -/
def reportedFraction : Option ℚ :=
  registry.primitives.toFloat
    (Dict.getD event.payload payloadCompletedFraction (registry.primitives.ofFloat 0))

/-- What a progress event can make of the working data it is written into. -/
inductive ProgressOutcome (base : WorkState) : WorkState → Prop
  | idle : ProgressOutcome base base
  | passed {entry : CoverageEntry}
      (counted : passEntry registry work taskId event.payload = .ok (some entry)) :
      ProgressOutcome base (passedWork registry base taskId entry)
  | finished : ProgressOutcome base
      { base with sources := removeByKey registry base.sources taskId "task" }
  | scaled (fraction : ℚ) (below : fraction < 1)
      (reported : 0 ≤ fraction ∨ event.eventType = .taskProgress ∧
        reportedFraction registry event = some fraction) :
      ProgressOutcome base
        (scaleTaskWork registry base taskId fraction (reportedRemaining registry event))

variable {registry work event taskId}

@[simp] theorem coverage_progressBase :
    (progressBase registry work event).coverage = work.coverage := by
  unfold progressBase
  cases event.eventType <;> rfl

@[simp] theorem taskRow_progressBase :
    taskRow registry (progressBase registry work event).sources taskId =
      taskRow registry work.sources taskId := by
  unfold progressBase
  cases event.eventType with
  | observationRecorded => exact taskRow_recordedWork registry work event taskId
  | taskStarted | taskProgress | taskCompleted | orderCreated | orderCancelled | assetUnavailable
  | forecastUpdated | entityCorrected | inventoryAdjusted => rfl

/-- A pass that is counted decides alone what its event does to the task. -/
theorem workAfter_of_counted (target : progressTarget registry work.sources event = some taskId)
    {entry : CoverageEntry}
    (counted : passEntry registry work taskId event.payload = .ok (some entry)) :
    workAfter registry work event =
      passedWork registry (progressBase registry work event) taskId entry := by
  unfold progressTarget at target
  unfold workAfter handledWork leftBehind progressBase
  cases kind : event.eventType with
  | taskProgress =>
    rw [kind] at target
    obtain rfl := Option.some.inj target
    simp only [counted, Except.map]
  | observationRecorded =>
    rw [kind] at target
    obtain ⟨reading, found, rfl⟩ := Option.map_eq_some_iff.mp target
    simp only [telemetryReading_recordedWork, found, passEntry_recordedWork, counted, Except.map]
  | taskStarted | taskCompleted | orderCreated | orderCancelled | assetUnavailable
  | forecastUpdated | entityCorrected | inventoryAdjusted =>
    rw [kind] at target
    cases target

private theorem outcome_scalarWork (kind : event.eventType = .taskProgress) :
    ProgressOutcome registry work event event.entityRef work (scalarWork registry work event) := by
  have remaining : reportedRemaining registry event =
      registry.primitives.toFloat (event.payload.value payloadRemainingQuantity) := by
    rw [reportedRemaining, kind]
  unfold scalarWork
  dsimp only
  rw [← remaining]
  cases left : reportedRemaining registry event with
  | some quantity =>
    dsimp only
    split_ifs
    · exact .finished
    · rw [← left]
      exact .scaled 0 one_pos (.inl le_rfl)
  | none =>
    have reading : reportedFraction registry event = registry.primitives.toFloat
        (Dict.getD event.payload payloadCompletedFraction (registry.primitives.ofFloat 0)) := rfl
    dsimp only
    rw [← reading]
    cases completed : reportedFraction registry event with
    | none => exact .idle
    | some fraction =>
      dsimp only
      split_ifs with complete
      · exact .finished
      · rw [← left]
        exact .scaled fraction (not_le.mp fun whole => complete (.inr whole))
          (.inr ⟨kind, completed⟩)

private theorem outcome_readingWork (kind : event.eventType = .observationRecorded)
    (base : WorkState) (reading : Value) :
    ProgressOutcome registry work event taskId base (readingWork registry base taskId reading) := by
  have remaining : reportedRemaining registry event = none := by
    rw [reportedRemaining, kind]
  unfold readingWork
  cases registry.primitives.toFloat reading with
  | none => exact .idle
  | some percent =>
    dsimp only
    split_ifs with complete
    · exact .finished
    · rw [← remaining]
      have most : max 0 percent < 100 := max_lt (by norm_num) (not_le.mp complete)
      refine .scaled _ ?_ (.inl (div_nonneg (le_max_left 0 percent) (by decide)))
      rwa [div_lt_one (by decide)]

/-- An event that reports progress of a task finishes it, scales its work, counts its pass or
changes nothing of it. -/
theorem progress_outcome (target : progressTarget registry work.sources event = some taskId) :
    ProgressOutcome registry work event taskId (progressBase registry work event)
      (workAfter registry work event) := by
  unfold progressTarget at target
  unfold workAfter handledWork leftBehind progressBase
  cases kind : event.eventType with
  | taskProgress =>
    rw [kind] at target
    obtain rfl := Option.some.inj target
    dsimp only
    cases counted : passEntry registry work event.entityRef event.payload with
    | error raised => exact .idle
    | ok entry =>
      cases entry with
      | some entry => exact .passed counted
      | none => exact outcome_scalarWork kind
  | observationRecorded =>
    rw [kind] at target
    obtain ⟨reading, found, rfl⟩ := Option.map_eq_some_iff.mp target
    dsimp only
    rw [telemetryReading_recordedWork, found]
    dsimp only
    cases counted : passEntry registry (recordedWork registry work event) reading.1
        event.payload with
    | error raised => exact .idle
    | ok entry =>
      rw [passEntry_recordedWork] at counted
      cases entry with
      | some entry => exact .passed counted
      | none => exact outcome_readingWork kind _ _
  | taskStarted | taskCompleted | orderCreated | orderCancelled | assetUnavailable
  | forecastUpdated | entityCorrected | inventoryAdjusted =>
    rw [kind] at target
    cases target

end Outcomes

end FlOp.Stream
