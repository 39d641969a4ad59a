import FlOp.Stream.Telemetry

/-! # Progress that never goes back

Covered ground is measured against the work a task had before its first pass, a completed share
against the work it has now. Work never grows as long as a pass does not meet work that other
reports have taken below what the earlier passes leave.
-/

namespace FlOp.Stream

open FlOp.Core Library Mapping BindingTable

/-- Areas are not negative, and more rings cover no less. -/
structure AreasGrow (primitives : Primitives) : Prop where
  nonneg : ∀ rings, 0 ≤ primitives.ringsAreaKm2 rings
  grows : ∀ rings ring, primitives.ringsAreaKm2 rings ≤ primitives.ringsAreaKm2 (rings ++ [ring])

/-- An event that reports a share of the task: covered ground, a completed fraction that is not
negative, or a reading. -/
structure ReportsShare (registry : Registry) (sources : Sources) (taskId : String)
    (event : ExecutionEvent) : Prop where
  target : progressTarget registry sources event = some taskId
  relative : reportedRemaining registry event = none
  nonneg : event.eventType = .taskProgress →
    ∀ fraction ∈ reportedFraction registry event, 0 ≤ fraction

/-- No work column of the task's row holds more than before. -/
def NotIncreased (registry : Registry) (taskId : String) (before after : Sources) : Prop :=
  ∀ table row table' row', taskRow registry before taskId = some (table, row) →
    taskRow registry after taskId = some (table', row') → ∀ field ∈ workFields table, ∀ x y,
      columnWork registry.primitives row field = some x →
        columnWork registry.primitives row' field = some y → y ≤ x

/-- The payload has ground covered in a pass. -/
def BringsRing (registry : Registry) (event : ExecutionEvent) : Prop :=
  hasCoveragePayload event.payload = true ∧
    ∃ ring, passRingFromPayload registry.primitives event.payload = .ok (some ring)

/-- The task's row holds at least what its earlier passes leave of the captured work. -/
def LeftByPasses (registry : Registry) (taskId : String) (work : WorkState) : Prop :=
  ∀ entry, work.coverage.get? taskId = some entry →
    ∀ table row, taskRow registry work.sources taskId = some (table, row) →
      ∀ field ∈ workFields table, field ∈ Dict.keys row → ∀ original x,
        entry.originals.get? field = some original →
          columnWork registry.primitives row field = some x →
            roundTo 2 (original * max 0 (1 - entry.coveredFraction registry.primitives)) ≤ x

/-- Work is given in hundredths and not negative, in the row and in what was captured of it. -/
structure Measured (registry : Registry) (taskId : String) (work : WorkState) : Prop where
  columns : ∀ table row, taskRow registry work.sources taskId = some (table, row) →
    ∀ field ∈ workFields table, ∀ x, columnWork registry.primitives row field = some x →
      0 ≤ x ∧ roundTo 2 x = x
  captures : ∀ entry, work.coverage.get? taskId = some entry → CapturesWork registry entry
  originals : ∀ entry, work.coverage.get? taskId = some entry →
    ∀ field original, entry.originals.get? field = some original → 0 ≤ original

section Areas

variable {primitives : Primitives} (areas : AreasGrow primitives)
include areas

theorem coveredFraction_nonneg (entry : CoverageEntry) : 0 ≤ entry.coveredFraction primitives := by
  refine roundTo_nonneg 6 ?_
  split_ifs with measurable
  · refine le_min zero_le_one (div_nonneg (mul_nonneg (areas.nonneg _) ?_) measurable.le)
    decide
  · exact le_rfl

/-- Another pass covers no less. -/
theorem coveredFraction_le_add (entry : CoverageEntry) (ring : Ring) :
    entry.coveredFraction primitives ≤ (entry.add ring).coveredFraction primitives := by
  unfold CoverageEntry.coveredFraction coverageState CoverageEntry.add
  dsimp only
  refine roundTo_mono 6 ?_
  split_ifs with measurable
  · refine min_le_min_left 1 (div_le_div_of_nonneg_right ?_ measurable.le)
    exact mul_le_mul_of_nonneg_right (areas.grows _ _) (by decide)
  · exact le_rfl

theorem uncovered_le_one (entry : CoverageEntry) :
    max 0 (1 - entry.coveredFraction primitives) ≤ 1 := by
  have := coveredFraction_nonneg areas entry
  exact max_le zero_le_one (by linarith)

end Areas

section Steps

variable {registry : Registry} {work : WorkState} {taskId : String} {event : ExecutionEvent}

/-- A share that is taken off leaves less, in hundredths. -/
private theorem scaled_le {x fraction : ℚ} (nonneg : 0 ≤ x) (cents : roundTo 2 x = x)
    (least : 0 ≤ fraction) (most : fraction ≤ 1) :
    0 ≤ roundTo 2 (x * (1 - fraction)) ∧ roundTo 2 (x * (1 - fraction)) ≤ x := by
  refine ⟨roundTo_nonneg 2 (mul_nonneg nonneg (by linarith)), ?_⟩
  refine (roundTo_mono 2 (mul_le_of_le_one_right nonneg (by linarith))).trans_eq cents

/-- The entry a pass is counted in: what it leaves of an original is no more than there is. -/
private theorem passed_le (areas : AreasGrow registry.primitives)
    (measured : Measured registry taskId work) {entry : CoverageEntry}
    (counted : passEntry registry work taskId event.payload = .ok (some entry))
    (left : BringsRing registry event → LeftByPasses registry taskId work) :
    (∀ field original, entry.originals.get? field = some original → 0 ≤ original) ∧
      ∀ table row, taskRow registry work.sources taskId = some (table, row) →
        ∀ field ∈ workFields table, field ∈ Dict.keys row → ∀ original x,
          entry.originals.get? field = some original →
            columnWork registry.primitives row field = some x →
              roundTo 2 (original * max 0 (1 - entry.coveredFraction registry.primitives)) ≤ x := by
  obtain ⟨ring, known, geometry, usable, opened, rfl⟩ := passEntry_eq_some counted
  rcases openEntry_eq_some opened with collected | ⟨-, captured, capture, -, rfl⟩
  · refine ⟨measured.originals known collected, ?_⟩
    intro table row found field carries present original x stored held
    have earlier := left ⟨geometry, ring, usable⟩ known collected table row found field carries
      present original x stored held
    refine (roundTo_mono 2 ?_).trans earlier
    refine mul_le_mul_of_nonneg_left ?_ (measured.originals known collected field original stored)
    exact max_le_max_left 0 (sub_le_sub_left (coveredFraction_le_add areas known ring) 1)
  · rw [captureWorkState_eq] at capture
    cases found : taskRow registry work.sources taskId with
    | none =>
      rw [found] at capture
      cases capture
      exact ⟨nofun, nofun⟩
    | some located =>
      obtain ⟨table, row⟩ := located
      rw [found] at capture
      have captured_le (field : String) (original : ℚ)
          (stored : captured.1.get? field = some original) : 0 ≤ original ∧
            ∀ x, columnWork registry.primitives row field = some x → original ≤ x := by
        obtain ⟨carries, read⟩ := rowFloat_of_rowWorkState capture stored
        rcases rowFloat_eq_some read with rfl | held
        · exact ⟨le_rfl, fun x held => (measured.columns table row found field carries x held).1⟩
        · have nonneg := (measured.columns table row found field carries original held).1
          refine ⟨nonneg, fun x same => ?_⟩
          exact (Option.some.inj (held.symm.trans same)).le
      refine ⟨fun field original stored => (captured_le field original stored).1, ?_⟩
      rintro _ _ same field carries - original x stored held
      obtain ⟨rfl, rfl⟩ := Prod.mk.inj (Option.some.inj same)
      obtain ⟨nonneg, le⟩ := captured_le field original stored
      refine (roundTo_mono 2 ?_).trans_eq (measured.columns table row found field carries x held).2
      exact (mul_le_of_le_one_right nonneg (uncovered_le_one areas _)).trans (le x held)

/-- An update of the task's row that leaves no column with more. -/
private theorem share_of_update (after : WorkState) (update : BindingTable → Row → Row)
    (rows : taskRow registry after.sources taskId =
      (taskRow registry work.sources taskId).map fun found => (found.1, update found.1 found.2))
    (columns : ∀ table row, taskRow registry work.sources taskId = some (table, row) →
      ∀ field ∈ workFields table, ∀ y,
        columnWork registry.primitives (update table row) field = some y →
          0 ≤ y ∧ roundTo 2 y = y ∧
            ∀ x, columnWork registry.primitives row field = some x → y ≤ x)
    (captures : ∀ entry, after.coverage.get? taskId = some entry → CapturesWork registry entry)
    (originals : ∀ entry, after.coverage.get? taskId = some entry →
      ∀ field original, entry.originals.get? field = some original → 0 ≤ original) :
    Measured registry taskId after ∧
      NotIncreased registry taskId work.sources after.sources := by
  have before : ∀ table row', taskRow registry after.sources taskId = some (table, row') →
      ∃ row, taskRow registry work.sources taskId = some (table, row) ∧
        row' = update table row := by
    intro table row' found
    rw [rows] at found
    obtain ⟨⟨other, row⟩, located, same⟩ := Option.map_eq_some_iff.mp found
    obtain ⟨rfl, rfl⟩ := Prod.mk.inj same
    exact ⟨row, located, rfl⟩
  refine ⟨⟨fun table row' found field carries y new => ?_, captures, originals⟩,
    fun table row table' row' located found field carries x y old new => ?_⟩
  · obtain ⟨row, located, rfl⟩ := before table row' found
    obtain ⟨nonneg, cents, -⟩ := columns table row located field carries y new
    exact ⟨nonneg, cents⟩
  · obtain ⟨row, same, rfl⟩ := before table' row' found
    obtain ⟨rfl, rfl⟩ := Prod.mk.inj (Option.some.inj (located.symm.trans same))
    exact (columns _ _ located field carries y new).2.2 x old

private theorem share_of_finished (measured : Measured registry taskId work)
    {coverage : Dict String CoverageEntry} (fewer : ∀ entry, coverage.get? taskId = some entry →
      work.coverage.get? taskId = some entry) :
    Measured registry taskId ⟨removeByKey registry work.sources taskId "task", coverage⟩ ∧
      NotIncreased registry taskId work.sources
        (removeByKey registry work.sources taskId "task") := by
  have gone := taskRow_removeByKey_self registry work.sources taskId
  refine ⟨⟨fun table row found => ?_,
    fun entry known => measured.captures entry (fewer entry known),
    fun entry known => measured.originals entry (fewer entry known)⟩,
    fun table row table' row' _ after => ?_⟩
  · rw [gone] at found
    cases found
  · rw [gone] at after
    cases after

private theorem share_of_scaled (apart : registry.ColumnsApart)
    (measured : Measured registry taskId work) {fraction : ℚ} (least : 0 ≤ fraction)
    (most : fraction ≤ 1) :
    Measured registry taskId (scaleTaskWork registry work taskId fraction none) ∧
      NotIncreased registry taskId work.sources
        (scaleTaskWork registry work taskId fraction none).sources := by
  refine share_of_update _ (scaledRow registry fraction none) ?_ ?_ measured.captures
    measured.originals
  · rw [taskRow_scaleTaskWork apart]
    simp
  · intro table row found field carries y new
    obtain ⟨c, key, loaded, -, -⟩ := taskRow_eq_some found
    rw [columnWork_scaledRow apart loaded.1 loaded.2.1 carries] at new
    obtain ⟨x, old, rfl⟩ := Option.map_eq_some_iff.mp new
    obtain ⟨nonneg, cents⟩ := measured.columns table row found field carries x old
    obtain ⟨still, less⟩ := scaled_le nonneg cents least most
    refine ⟨still, roundTo_roundTo 2 _, fun x' same => ?_⟩
    obtain rfl := Option.some.inj (old.symm.trans same)
    exact less

private theorem share_of_passed (apart : registry.ColumnsApart)
    (measured : Measured registry taskId work) {entry : CoverageEntry}
    (captures : CapturesWork registry entry)
    (nonneg : ∀ field original, entry.originals.get? field = some original → 0 ≤ original)
    (most : ∀ table row, taskRow registry work.sources taskId = some (table, row) →
      ∀ field ∈ workFields table, field ∈ Dict.keys row → ∀ original x,
        entry.originals.get? field = some original →
          columnWork registry.primitives row field = some x →
            roundTo 2 (original * max 0 (1 - entry.coveredFraction registry.primitives)) ≤ x) :
    Measured registry taskId (passedWork registry work taskId entry) ∧
      NotIncreased registry taskId work.sources
        (passedWork registry work taskId entry).sources := by
  unfold passedWork
  dsimp only
  split_ifs with complete
  · refine share_of_finished measured fun other known => ?_
    rw [Dict.get?_erase, if_pos rfl] at known
    cases known
  · have counted_in (other : CoverageEntry)
        (known : (work.coverage.set taskId entry).get? taskId = some other) : other = entry := by
      rw [Dict.get?_set, if_pos rfl] at known
      exact (Option.some.inj known).symm
    refine share_of_update _ (uncoveredRow registry entry.originals
      (entry.coveredFraction registry.primitives)) ?_
      (fun table row found field carries y new => ?_)
        (fun other known => counted_in other known ▸ captures)
          (fun other known => counted_in other known ▸ nonneg)
    · rw [taskRow_setRemainingFromOriginals apart work.sources captures]
      simp
    · obtain ⟨c, key, loaded, -, -⟩ := taskRow_eq_some found
      rw [columnWork_uncoveredRow apart loaded.1 loaded.2.1 loaded.1 loaded.2.1 carries] at new
      have kept : columnWork registry.primitives row field = some y → 0 ≤ y ∧ roundTo 2 y = y ∧
          ∀ x, columnWork registry.primitives row field = some x → y ≤ x := by
        intro same
        obtain ⟨least, cents⟩ := measured.columns table row found field carries y same
        exact ⟨least, cents, fun x old => (Option.some.inj (same.symm.trans old)).le⟩
      cases stored : entry.originals.get? field with
      | none =>
        rw [stored] at new
        exact kept new
      | some original =>
        rw [stored] at new
        dsimp only at new
        split_ifs at new with present
        · obtain rfl := Option.some.inj new
          refine ⟨roundTo_nonneg 2 (mul_nonneg (nonneg field original stored) (le_max_left _ _)),
            roundTo_roundTo 2 _, fun x old => ?_⟩
          exact most table row found field carries present original x stored old
        · exact kept new

/-- A report keeps work measured and takes none back, if a pass meets what the earlier ones
leave. -/
theorem step_share (apart : registry.ColumnsApart) (areas : AreasGrow registry.primitives)
    (measured : Measured registry taskId work)
    (reports : ReportsShare registry work.sources taskId event)
    (left : BringsRing registry event → LeftByPasses registry taskId work) :
    Measured registry taskId (workAfter registry work event) ∧
      NotIncreased registry taskId work.sources (workAfter registry work event).sources := by
  have same_row := @taskRow_progressBase registry work event taskId
  have same_coverage := @coverage_progressBase registry work event
  have outcome := progress_outcome reports.target
  have based : Measured registry taskId (progressBase registry work event) :=
    ⟨fun table row found => measured.columns table row (same_row ▸ found),
      fun entry known => measured.captures entry (same_coverage ▸ known),
      fun entry known => measured.originals entry (same_coverage ▸ known)⟩
  unfold NotIncreased
  rw [← same_row]
  generalize workAfter registry work event = after at outcome ⊢
  cases outcome with
  | idle =>
    refine ⟨based, fun table row table' row' before after field _ x y old new => ?_⟩
    obtain ⟨-, rfl⟩ := Prod.mk.inj (Option.some.inj (before.symm.trans after))
    exact (Option.some.inj (new.symm.trans old)).le
  | finished => exact share_of_finished based fun entry known => known
  | scaled fraction below reported =>
    rw [reports.relative]
    refine share_of_scaled apart based ?_ below.le
    rcases reported with nonneg | ⟨kind, completed⟩
    · exact nonneg
    · exact reports.nonneg kind fraction completed
  | passed counted =>
    obtain ⟨nonneg, most⟩ := passed_le areas measured counted left
    rw [← same_row] at most
    exact share_of_passed apart based (capturesWork_of_passEntry measured.captures counted) nonneg
      most

/-- A pass over covered ground takes work back unless it meets what the earlier passes leave. -/
theorem leftByPasses_of_notIncreased (apart : registry.ColumnsApart)
    (target : progressTarget registry work.sources event = some taskId) {entry : CoverageEntry}
    {ring : Ring} (known : work.coverage.get? taskId = some entry)
    (captures : CapturesWork registry entry)
    (counted : passEntry registry work taskId event.payload = .ok (some (entry.add ring)))
    (covered : (entry.add ring).coveredFraction registry.primitives =
      entry.coveredFraction registry.primitives)
    (unfinished : entry.coveredFraction registry.primitives < registry.coverageCompleteFraction)
    (kept : NotIncreased registry taskId work.sources (workAfter registry work event).sources) :
    LeftByPasses registry taskId work := by
  intro other same table row found field carries present original x stored held
  obtain rfl := Option.some.inj (known.symm.trans same)
  obtain ⟨c, key, loaded, -, -⟩ := taskRow_eq_some found
  have written : taskRow registry (workAfter registry work event).sources taskId = some (table,
      uncoveredRow registry entry.originals (entry.coveredFraction registry.primitives) table
        row) := by
    rw [workAfter_of_counted target counted, passedWork, covered, if_neg unfinished.not_ge]
    dsimp only [CoverageEntry.add]
    rw [taskRow_setRemainingFromOriginals apart _ captures]
    simp [found]
  refine kept table row table _ found written field carries x _ held ?_
  rw [columnWork_uncoveredRow apart loaded.1 loaded.2.1 loaded.1 loaded.2.1 carries, stored]
  exact if_pos present

end Steps

/-- Event application that goes on from some state. -/
def applyFrom (registry : Registry) (start : EventApplicator) :
    LabeledSystem EventApplicator (List String × ExecutionEvent) :=
  .ofStep (· = start) fun applicator delivered =>
    some (applicator.apply registry delivered.1 delivered.2).1

/-- In every run of reports on one task whose passes meet what the earlier passes leave, no report
increases the work of the task. -/
theorem notIncreased_of_leftByPasses {registry : Registry} (apart : registry.ColumnsApart)
    (areas : AreasGrow registry.primitives) {taskId : String} {start : EventApplicator}
    (measured : Measured registry taskId start.work)
    {past : List (LabeledSystem.Transition EventApplicator (List String × ExecutionEvent))}
    {reached : EventApplicator} (run : (applyFrom registry start).Run past reached)
    (allowed : ∀ taken ∈ past,
      ReportsShare registry taken.source.work.sources taskId taken.label.2 ∧
        (BringsRing registry taken.label.2 → LeftByPasses registry taskId taken.source.work)) :
    ∀ taken ∈ past, NotIncreased registry taskId taken.source.work.sources
      taken.target.work.sources := by
  have step : ∀ (s : EventApplicator) (delivered : List String × ExecutionEvent)
      (t : EventApplicator), Measured registry taskId s.work →
        ReportsShare registry s.work.sources taskId delivered.2 ∧
          (BringsRing registry delivered.2 → LeftByPasses registry taskId s.work) →
        (applyFrom registry start).Step s delivered t →
          Measured registry taskId t.work ∧
            NotIncreased registry taskId s.work.sources t.work.sources := by
    rintro s delivered t kept ⟨reports, left⟩ stepped
    obtain rfl := Option.some.inj stepped
    rw [work_apply]
    split_ifs
    · refine ⟨kept, fun table row table' row' before after field _ x y old new => ?_⟩
      obtain ⟨-, rfl⟩ := Prod.mk.inj (Option.some.inj (before.symm.trans after))
      exact (Option.some.inj (new.symm.trans old)).le
    · exact step_share apart areas kept reports left
  refine run.forall_of_invariant (fun s => Measured registry taskId s.work) ?_
    (fun s delivered t kept ok stepped => (step s delivered t kept ok stepped).1)
    (fun s delivered t kept ok stepped => (step s delivered t kept ok stepped).2) allowed
  rintro s rfl
  exact measured

/-- A field of ten hectares, covered from its west side up to some share of its width. -/
def stripPrimitives : Primitives where
  parseFloat _ := none
  showFloat _ := ""
  parseTime _ := none
  parsePolygon polygon :=
    if polygon = .composite "[[0, 0], [0.1, 0], [0.1, 1], [0, 1]]" then
      .ok [(0, 0), (1 / 10, 0), (1 / 10, 1), (0, 1)]
    else if polygon = .composite "[[0, 0], [0.2, 0], [0.2, 1], [0, 1]]" then
      .ok [(0, 0), (1 / 5, 0), (1 / 5, 1), (0, 1)]
    else .ok []
  pathLatLon _ := []
  sweptPolygon _ _ := []
  ringsAreaKm2 rings := (rings.flatten.map Prod.fst).foldr max 0 / 10

theorem areasGrow_strips : AreasGrow stripPrimitives := by
  have least (heights : List ℚ) : 0 ≤ heights.foldr max 0 := by
    induction heights with
    | nil => exact le_rfl
    | cons height rest ih => exact ih.trans (le_max_right _ _)
  have most (heights others : List ℚ) : heights.foldr max 0 ≤ (heights ++ others).foldr max 0 := by
    induction heights with
    | nil => exact least others
    | cons height rest ih => exact max_le_max_left height ih
  constructor
  · exact fun rings => div_nonneg (least _) (by norm_num)
  · intro rings ring
    refine div_le_div_of_nonneg_right ?_ (by norm_num)
    rw [List.flatten_append, List.map_append]
    exact most _ _

def stripRegistry : Registry := { gaugeRegistry with primitives := stripPrimitives }

/-- Progress of the order: ground covered up to a height, or a completed share. -/
def stripEvent (eventId column : String) (value : Value) : ExecutionEvent where
  eventId := eventId
  eventType := .taskProgress
  entityRef := "o1"
  payload := Dict.empty.set column value

def tenthCovered : ExecutionEvent :=
  stripEvent "p1" "covered_polygon" (.composite "[[0, 0], [0.1, 0], [0.1, 1], [0, 1]]")

def halfCompleted : ExecutionEvent := stripEvent "p2" "completed_fraction" (.number (1 / 2) "0.5")

def fifthCovered : ExecutionEvent :=
  stripEvent "p3" "covered_polygon" (.composite "[[0, 0], [0.2, 0], [0.2, 1], [0, 1]]")

/-- The order after some of its progress. -/
def stripsAfter (events : List ExecutionEvent) : EventApplicator :=
  events.foldl (fun applicator event => (applicator.apply stripRegistry [] event).1) (gaugeStart 10)

theorem reportsShare_halfCompleted (sources : Sources) :
    ReportsShare stripRegistry sources "o1" halfCompleted := by
  refine ⟨rfl, rfl, fun _ fraction completed => ?_⟩
  have half : some (1 / 2) = some fraction := completed
  obtain rfl := Option.some.inj half
  norm_num

theorem reportsShare_covered (sources : Sources) (eventId polygon : String) :
    ReportsShare stripRegistry sources "o1"
      (stripEvent eventId "covered_polygon" (.composite polygon)) := by
  refine ⟨rfl, rfl, fun _ fraction completed => ?_⟩
  have none : some 0 = some fraction := completed
  exact (Option.some.inj none).le

/-- The work of the order. -/
def orderWork (applicator : EventApplicator) : Option ℚ :=
  (taskRow stripRegistry applicator.work.sources "o1").bind fun found =>
    columnWork stripPrimitives found.2 "area_ha"

/-- The order has one work column. -/
theorem workFields_strips {sources : Sources} {table : BindingTable} {row : Row}
    (found : taskRow stripRegistry sources "o1" = some (table, row)) :
    workFields table = ["area_ha"] := by
  have all : ∀ entry ∈ stripRegistry.tables.entries, entry.2.canonicalEntity = "task" →
      workFields entry.2 = ["area_ha"] := by decide +kernel
  obtain ⟨c, key, loaded, -, -⟩ := taskRow_eq_some found
  exact all (c, table) ((Dict.get?_eq_some_iff _ _ _).mp loaded.1) loaded.2.1

theorem measured_gaugeStart : Measured stripRegistry "o1" (gaugeStart 10).work := by
  refine ⟨fun table row found field carries x held => ?_, nofun, nofun⟩
  rw [workFields_strips found, List.mem_singleton] at carries
  subst carries
  have ten : orderWork (gaugeStart 10) = some 10 := by decide +kernel
  rw [orderWork, found, Option.bind_some] at ten
  obtain rfl := Option.some.inj (ten.symm.trans held)
  decide +kernel

theorem notIncreased_of_leftByPasses_half :
    NotIncreased stripRegistry "o1" (gaugeSources 10)
      (stripsAfter [halfCompleted]).work.sources := by
  have run : (applyFrom stripRegistry (gaugeStart 10)).Run
      ([] ++ [⟨gaugeStart 10, ([], halfCompleted), stripsAfter [halfCompleted]⟩])
      (stripsAfter [halfCompleted]) := .step (.initial rfl) rfl
  have apart : stripRegistry.ColumnsApart := by decide +kernel
  refine notIncreased_of_leftByPasses apart areasGrow_strips measured_gaugeStart run ?_ _
    (List.mem_singleton_self _)
  rintro taken member
  obtain rfl := List.mem_singleton.mp member
  refine ⟨reportsShare_halfCompleted _, fun brings => ?_⟩
  exact absurd brings.1 (by decide)

/-- A tenth covered, half of the rest completed, and then a fifth covered in all: four and a half
hectares become eight. -/
theorem pass_gives_work_back :
    ∃ past reached, (applyFrom stripRegistry (gaugeStart 10)).Run past reached ∧
      (∀ taken ∈ past,
        ReportsShare stripRegistry taken.source.work.sources "o1" taken.label.2) ∧
      ¬ ∀ taken ∈ past, NotIncreased stripRegistry "o1" taken.source.work.sources
        taken.target.work.sources := by
  refine ⟨_, _, .step (l := ([], fifthCovered)) (.step (l := ([], halfCompleted))
    (.step (l := ([], tenthCovered)) (.initial rfl) rfl) rfl) rfl, fun taken member => ?_,
      fun kept => ?_⟩
  · simp only [List.nil_append, List.cons_append, List.mem_cons, List.not_mem_nil, or_false]
      at member
    rcases member with rfl | rfl | rfl
    · exact reportsShare_covered _ _ _
    · exact reportsShare_halfCompleted _
    · exact reportsShare_covered _ _ _
  · have last := kept _ (List.mem_append_right _ (List.mem_singleton_self _))
    have before : orderWork (stripsAfter [tenthCovered, halfCompleted]) = some (9 / 2) := by
      decide +kernel
    have after : orderWork (stripsAfter [tenthCovered, halfCompleted, fifthCovered]) = some 8 := by
      decide +kernel
    obtain ⟨⟨table, row⟩, found, old⟩ := Option.bind_eq_some_iff.mp before
    obtain ⟨⟨table', row'⟩, found', new⟩ := Option.bind_eq_some_iff.mp after
    have carries : "area_ha" ∈ workFields table := by
      rw [workFields_strips found]
      exact List.mem_singleton_self _
    have le := last table row table' row' found found' "area_ha" carries _ _ old new
    norm_num at le

end FlOp.Stream
