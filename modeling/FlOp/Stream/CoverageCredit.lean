import FlOp.Stream.MonotoneProgress
import FlOp.Stream.TaskLife

/-! # Whose coverage it is

Passes are collected by task id, and the work they are measured against is captured at the first
of them. A ledger beside the run notes what the task's row was created or corrected with, and the
passes received since; collected coverage is compared with it.
-/

namespace FlOp.Stream

open FlOp.Core Library Mapping BindingTable

/-- The work of a task's row at its latest creation or correction, and the passes since. -/
structure Ledger where
  birth : Except Raised (Dict String ℚ × ℚ)
  rings : List Ring

/-- The ground of a pass that an event reports for the task. -/
def receivedRing (registry : Registry) (sources : Sources) (taskId : String)
    (event : ExecutionEvent) : Option Ring :=
  if progressTarget registry sources event = some taskId ∧
      hasCoveragePayload event.payload = true then
    match passRingFromPayload registry.primitives event.payload with
    | .ok ring => ring
    | .error _ => none
  else none

/-- The ledger after an event: opened anew when the task's row is written. -/
def Ledger.after (registry : Registry) (taskId : String) (work : WorkState)
    (event : ExecutionEvent) (ledger : Ledger) : Ledger :=
  if writesTask registry work.sources taskId event then
    { birth := captureWorkState registry (workAfter registry work event).sources taskId
      rings := [] }
  else
    { ledger with
      rings := ledger.rings ++ (receivedRing registry work.sources taskId event).toList }

/-- Event application beside a task's ledger. -/
def ledgerSystem (registry : Registry) (taskId : String) (sources : Sources) :
    LabeledSystem (EventApplicator × Ledger) (List String × ExecutionEvent) :=
  .ofStep
    (· = ({ work := { sources := sources } }, ⟨captureWorkState registry sources taskId, []⟩))
    fun state delivered => some ((state.1.apply registry delivered.1 delivered.2).1,
      if Replayed state.1.seenEventIds delivered.1 delivered.2 then state.2
      else state.2.after registry taskId state.1.work delivered.2)

/-- A pass that is applied leaves of the work at the latest creation or correction what it and the
passes received since do not cover. -/
def CreditsPasses (registry : Registry) (taskId : String) (ledger : Ledger) (work : WorkState)
    (event : ExecutionEvent) (after : Sources) : Prop :=
  ∀ ring, receivedRing registry work.sources taskId event = some ring →
    (∃ entry, passEntry registry work taskId event.payload = .ok (some entry)) →
      ∀ table row, taskRow registry work.sources taskId = some (table, row) →
        ∃ originals area, ledger.birth = .ok (originals, area) ∧
          let covered := (coverageState registry.primitives (ledger.rings ++ [ring])
            area).coveredFraction
          if registry.coverageCompleteFraction ≤ covered then
            taskRow registry after taskId = none
          else ∃ row', taskRow registry after taskId = some (table, row') ∧
            ∀ field original, originals.get? field = some original → field ∈ Dict.keys row →
              columnWork registry.primitives row' field =
                some (roundTo 2 (original * max 0 (1 - covered)))

/-- The task's row is written only while no coverage is collected for it, and a pass that comes
before any is collected meets the row's work as it was written. -/
structure KeepsCredit (registry : Registry) (taskId : String) (ledger : Ledger) (work : WorkState)
    (event : ExecutionEvent) : Prop where
  writes : writesTask registry work.sources taskId event = true →
    work.coverage.get? taskId = none
  first : (receivedRing registry work.sources taskId event).isSome →
    work.coverage.get? taskId = none → (taskRow registry work.sources taskId).isSome →
      captureWorkState registry work.sources taskId = ledger.birth

/-- What is collected for a task that has a row is what its ledger says. -/
structure MatchesLedger (registry : Registry) (taskId : String) (ledger : Ledger)
    (work : WorkState) : Prop where
  captured : ∀ id entry, work.coverage.get? id = some entry → CapturesWork registry entry
  collected : ∀ entry, work.coverage.get? taskId = some entry →
    (taskRow registry work.sources taskId).isSome →
      ledger.birth = .ok (entry.originals, entry.originalAreaHa) ∧ entry.rings = ledger.rings
  unopened : work.coverage.get? taskId = none → (taskRow registry work.sources taskId).isSome →
    ∀ captured, ledger.birth = .ok captured → 0 < captured.2 → ledger.rings = []

section Passes

variable {registry : Registry} {taskId : String} {ledger : Ledger} {work : WorkState}
  {event : ExecutionEvent} {entry : CoverageEntry} {ring : Ring}

theorem receivedRing_eq_some
    (received : receivedRing registry work.sources taskId event = some ring) :
    progressTarget registry work.sources event = some taskId ∧
      hasCoveragePayload event.payload = true ∧
        passRingFromPayload registry.primitives event.payload = .ok (some ring) := by
  unfold receivedRing at received
  split_ifs at received with reports
  refine ⟨reports.1, reports.2, ?_⟩
  cases usable : passRingFromPayload registry.primitives event.payload with
  | error raised =>
    rw [usable] at received
    cases received
  | ok ring =>
    rw [usable] at received
    exact congrArg _ received

/-- A pass of the task is counted in its open entry. -/
theorem passEntry_of_received
    (received : receivedRing registry work.sources taskId event = some ring) :
    passEntry registry work taskId event.payload =
      (openEntry registry work taskId).map fun entry => entry.map (·.add ring) := by
  obtain ⟨-, geometry, usable⟩ := receivedRing_eq_some received
  rw [passEntry, if_pos geometry, usable]
  rfl

theorem received_of_counted (target : progressTarget registry work.sources event = some taskId)
    (counted : passEntry registry work taskId event.payload = .ok (some entry)) :
    ∃ ring, receivedRing registry work.sources taskId event = some ring := by
  obtain ⟨ring, known, geometry, usable, -, -⟩ := passEntry_eq_some counted
  refine ⟨ring, ?_⟩
  rw [receivedRing, if_pos ⟨target, geometry⟩, usable]

/-- The entry a pass is counted in has the work and the passes of the ledger. -/
theorem MatchesLedger.entry_of_counted (step : MatchesLedger registry taskId ledger work)
    (keeps : KeepsCredit registry taskId ledger work event)
    (received : receivedRing registry work.sources taskId event = some ring)
    (counted : passEntry registry work taskId event.payload = .ok (some entry))
    (present : (taskRow registry work.sources taskId).isSome) :
    ledger.birth = .ok (entry.originals, entry.originalAreaHa) ∧
      entry.rings = ledger.rings ++ [ring] := by
  rw [passEntry_of_received received] at counted
  obtain ⟨opened, opens, added⟩ := Fallible.map_eq_ok.mp counted
  obtain ⟨known, rfl, rfl⟩ := Option.map_eq_some_iff.mp added
  rcases openEntry_eq_some opens with collected | ⟨none, captured, capture, positive, rfl⟩
  · obtain ⟨birth, rings⟩ := step.collected known collected present
    exact ⟨birth, congrArg (· ++ [ring]) rings⟩
  · have birth := keeps.first (Option.isSome_of_eq_some received) none present
    rw [capture] at birth
    have unopened := step.unopened none present captured birth.symm positive
    refine ⟨birth.symm, ?_⟩
    rw [unopened]
    rfl

/-- A pass that the task has received without counting it cannot be measured. -/
theorem not_measured (keeps : KeepsCredit registry taskId ledger work event)
    (received : receivedRing registry work.sources taskId event = some ring)
    (uncounted : ∀ entry, passEntry registry work taskId event.payload ≠ .ok (some entry))
    (present : (taskRow registry work.sources taskId).isSome) :
    work.coverage.get? taskId = none ∧
      ∀ captured, ledger.birth = .ok captured → ¬ 0 < captured.2 := by
  rw [passEntry_of_received received] at uncounted
  unfold openEntry at uncounted
  cases known : work.coverage.get? taskId with
  | some entry =>
    rw [known] at uncounted
    exact absurd rfl (uncounted (entry.add ring))
  | none =>
    refine ⟨rfl, fun captured birth positive => ?_⟩
    rw [known, keeps.first (Option.isSome_of_eq_some received) known present, birth] at uncounted
    refine uncounted (CoverageEntry.add ⟨[], captured.1, captured.2, 0⟩ ring) ?_
    simp only [Except.map, if_neg positive.not_ge, Option.map_some]

end Passes

section Steps

variable {registry : Registry} {taskId : String} {ledger : Ledger} {work : WorkState}
  {event : ExecutionEvent}

/-- A pass is credited against the ledger. -/
theorem MatchesLedger.credits (apart : registry.ColumnsApart)
    (step : MatchesLedger registry taskId ledger work)
    (keeps : KeepsCredit registry taskId ledger work event) :
    CreditsPasses registry taskId ledger work event
      (workAfter registry work event).sources := by
  rintro ring received ⟨entry, counted⟩ table row found
  obtain ⟨target, -, -⟩ := receivedRing_eq_some received
  obtain ⟨birth, rings⟩ := step.entry_of_counted keeps received counted
    (Option.isSome_of_eq_some found)
  have captures := capturesWork_of_passEntry (step.captured taskId) counted
  have based : taskRow registry (progressBase registry work event).sources taskId =
      some (table, row) := taskRow_progressBase.trans found
  refine ⟨entry.originals, entry.originalAreaHa, birth, ?_⟩
  rw [workAfter_of_counted target counted, ← rings]
  change if registry.coverageCompleteFraction ≤ entry.coveredFraction registry.primitives then _
    else _
  unfold passedWork
  dsimp only
  split_ifs with complete
  · exact taskRow_removeByKey_self registry _ taskId
  · obtain ⟨c, key, loaded, -, -⟩ := taskRow_eq_some found
    refine ⟨uncoveredRow registry entry.originals (entry.coveredFraction registry.primitives) table
      row, ?_, fun field original known present => ?_⟩
    · rw [taskRow_setRemainingFromOriginals apart _ captures, based]
      simp
    · obtain ⟨c', other, mapped, task, carries⟩ := captures field
        ((Dict.mem_keys_iff _ _).mpr (Option.isSome_of_eq_some known))
      rw [columnWork_uncoveredRow apart loaded.1 loaded.2.1 mapped task carries, known]
      exact if_pos present

/-- A pass that is counted keeps the entry and the ledger together. -/
private theorem MatchesLedger.of_counted
    (step : MatchesLedger registry taskId ledger work)
    (keeps : KeepsCredit registry taskId ledger work event) {ring : Ring}
    (received : receivedRing registry work.sources taskId event = some ring) {entry : CoverageEntry}
    (counted : passEntry registry work taskId event.payload = .ok (some entry))
    (survives : (taskRow registry (Stream.workAfter registry work event).sources taskId).isSome →
      (taskRow registry work.sources taskId).isSome) :
    MatchesLedger registry taskId { ledger with rings := ledger.rings ++ [ring] }
      (Stream.workAfter registry work event) := by
  obtain ⟨target, -, -⟩ := receivedRing_eq_some received
  have after := workAfter_of_counted target counted
  have known : (Stream.workAfter registry work event).coverage.get? taskId =
      if registry.coverageCompleteFraction ≤ entry.coveredFraction registry.primitives then none
      else some entry := by
    rw [after, get?_coverage_passedWork, if_pos rfl]
  refine ⟨captured_workAfter step.captured event, fun other collected present => ?_,
    fun none present => ?_⟩
  · rw [known] at collected
    split_ifs at collected
    obtain rfl := Option.some.inj collected
    exact step.entry_of_counted keeps received counted (survives present)
  · rw [known] at none
    split_ifs at none with complete
    rw [after, passedWork, if_pos complete, taskRow_removeByKey_self] at present
    cases present

/-- An event keeps collected coverage in step with the ledger. -/
theorem MatchesLedger.workAfter (apart : registry.ColumnsApart)
    (step : MatchesLedger registry taskId ledger work)
    (keeps : KeepsCredit registry taskId ledger work event) :
    MatchesLedger registry taskId (ledger.after registry taskId work event)
      (Stream.workAfter registry work event) := by
  have captured := captured_workAfter step.captured event
  unfold Ledger.after
  by_cases writes : writesTask registry work.sources taskId event = true
  · have unrelated := progressTarget_of_writesTask writes
    have none : (Stream.workAfter registry work event).coverage.get? taskId = none := by
      rw [get?_coverage_workAfter_of_uncounted taskId fun target => ?_]
      · exact keeps.writes writes
      · rw [unrelated] at target
        cases target
    rw [if_pos writes]
    refine ⟨captured, fun entry collected => ?_, fun _ _ _ _ _ => rfl⟩
    rw [none] at collected
    cases collected
  · rw [if_neg writes]
    -- no row appears, so what is known of a row after the event was known of it before
    have survives :
        (taskRow registry (Stream.workAfter registry work event).sources taskId).isSome →
          (taskRow registry work.sources taskId).isSome := by
      intro present
      by_contra absent
      rw [Option.not_isSome_iff_eq_none] at absent
      rw [taskRow_workAfter_eq_none apart step.captured (Bool.eq_false_iff.mpr writes) absent]
        at present
      cases present
    cases received : receivedRing registry work.sources taskId event with
    | none =>
      have same := get?_coverage_workAfter_of_uncounted taskId fun target entry counted => by
        obtain ⟨ring, pass⟩ := received_of_counted target counted
        rw [received] at pass
        cases pass
      rw [Option.toList_none, List.append_nil]
      exact ⟨captured, fun entry collected present =>
        step.collected entry (same ▸ collected) (survives present),
        fun none present => step.unopened (same ▸ none) (survives present)⟩
    | some ring =>
      by_cases counted : ∃ entry, passEntry registry work taskId event.payload = .ok (some entry)
      · obtain ⟨entry, counted⟩ := counted
        exact step.of_counted keeps received counted survives
      · have uncounted := not_exists.mp counted
        have same := get?_coverage_workAfter_of_uncounted taskId fun _ => uncounted
        refine ⟨captured, fun entry collected present => ?_, fun none present captured birth
          positive => ?_⟩
        · have unopened := (not_measured keeps received uncounted (survives present)).1
          rw [same, unopened] at collected
          cases collected
        · exact absurd positive
            ((not_measured keeps received uncounted (survives present)).2 captured birth)

end Steps

/-- In every run that keeps credit, each applied pass is credited against the work of the task at
its latest creation or correction and the passes received since. -/
theorem creditsPasses_of_keepsCredit {registry : Registry} (apart : registry.ColumnsApart)
    {taskId : String} {sources : Sources}
    {past : List (LabeledSystem.Transition (EventApplicator × Ledger)
      (List String × ExecutionEvent))} {reached : EventApplicator × Ledger}
    (run : (ledgerSystem registry taskId sources).Run past reached)
    (allowed : ∀ taken ∈ past,
      ¬ Replayed taken.source.1.seenEventIds taken.label.1 taken.label.2 →
        KeepsCredit registry taskId taken.source.2 taken.source.1.work taken.label.2) :
    ∀ taken ∈ past, ¬ Replayed taken.source.1.seenEventIds taken.label.1 taken.label.2 →
      CreditsPasses registry taskId taken.source.2 taken.source.1.work taken.label.2
        taken.target.1.work.sources := by
  have initial : ∀ s, (ledgerSystem registry taskId sources).Initial s →
      MatchesLedger registry taskId s.2 s.1.work := by
    rintro _ rfl
    exact ⟨nofun, nofun, fun _ _ _ _ _ => rfl⟩
  have step : ∀ s (delivered : List String × ExecutionEvent) t,
      MatchesLedger registry taskId s.2 s.1.work →
        (¬ Replayed s.1.seenEventIds delivered.1 delivered.2 →
          KeepsCredit registry taskId s.2 s.1.work delivered.2) →
        (ledgerSystem registry taskId sources).Step s delivered t →
          MatchesLedger registry taskId t.2 t.1.work ∧
            (¬ Replayed s.1.seenEventIds delivered.1 delivered.2 →
              CreditsPasses registry taskId s.2 s.1.work delivered.2 t.1.work.sources) := by
    rintro ⟨applicator, ledger⟩ ⟨published, event⟩ t matching keeps stepped
    obtain rfl := Option.some.inj stepped
    dsimp only at matching keeps ⊢
    rw [work_apply]
    split_ifs with replayed
    · exact ⟨matching, fun fresh => absurd replayed fresh⟩
    · exact ⟨matching.workAfter apart (keeps replayed),
        fun _ => matching.credits apart (keeps replayed)⟩
  exact run.forall_of_invariant (fun s => MatchesLedger registry taskId s.2 s.1.work) initial
    (fun s delivered t matching ok stepped => (step s delivered t matching ok stepped).1)
    (fun s delivered t matching ok stepped => (step s delivered t matching ok stepped).2) allowed

/-- What a credited pass leaves of a column. -/
theorem CreditsPasses.left {registry : Registry} {taskId field : String} {ledger : Ledger}
    {work : WorkState} {event : ExecutionEvent} {after : Sources} {ring : Ring}
    {originals : Dict String ℚ} {area original covered : ℚ}
    (credits : CreditsPasses registry taskId ledger work event after)
    (received : receivedRing registry work.sources taskId event = some ring)
    (counted : (passEntry registry work taskId event.payload).toOption.join.isSome)
    (present : (taskRow registry work.sources taskId).any fun found =>
      field ∈ Dict.keys found.2)
    (birth : ledger.birth.toOption = some (originals, area))
    (known : originals.get? field = some original)
    (share : (coverageState registry.primitives (ledger.rings ++ [ring]) area).coveredFraction =
      covered) (unfinished : covered < registry.coverageCompleteFraction) :
    ((taskRow registry after taskId).bind fun found =>
      columnWork registry.primitives found.2 field) =
        some (roundTo 2 (original * max 0 (1 - covered))) := by
  obtain ⟨entry, passes⟩ : ∃ entry,
      passEntry registry work taskId event.payload = .ok (some entry) := by
    cases pass : passEntry registry work taskId event.payload with
    | error raised => simp [pass, Except.toOption] at counted
    | ok entry =>
      cases entry with
      | none => simp [pass, Except.toOption] at counted
      | some entry => exact ⟨entry, rfl⟩
  obtain ⟨⟨table, row⟩, found, column⟩ := (Option.any_eq_true _ _).mp present
  obtain ⟨originals', whole, same, left⟩ := credits ring received ⟨entry, passes⟩ table row found
  rw [same] at birth
  obtain ⟨rfl, rfl⟩ := Prod.mk.inj (Option.some.inj birth)
  dsimp only at left
  rw [share, if_neg unfinished.not_ge] at left
  obtain ⟨row', located, columns⟩ := left
  rw [located, Option.bind_some]
  exact columns field original known (of_decide_eq_true column)

/-- The order and its ledger after some events. -/
def creditAfter (events : List ExecutionEvent) : EventApplicator × Ledger :=
  events.foldl (fun state event => ((state.1.apply stripRegistry [] event).1,
      if Replayed state.1.seenEventIds [] event then state.2
      else state.2.after stripRegistry "o1" state.1.work event))
    (gaugeStart 10, ⟨captureWorkState stripRegistry (gaugeSources 10) "o1", []⟩)

theorem creditsPasses_of_keepsCredit_tenth :
    CreditsPasses stripRegistry "o1" (creditAfter []).2 (creditAfter []).1.work tenthCovered
      (creditAfter [tenthCovered]).1.work.sources := by
  have run : (ledgerSystem stripRegistry "o1" (gaugeSources 10)).Run
      ([] ++ [⟨creditAfter [], ([], tenthCovered), creditAfter [tenthCovered]⟩])
      (creditAfter [tenthCovered]) := .step (.initial rfl) rfl
  have apart : stripRegistry.ColumnsApart := by decide +kernel
  refine creditsPasses_of_keepsCredit apart run ?_ _ (List.mem_singleton_self _) (by decide)
  rintro taken member -
  obtain rfl := List.mem_singleton.mp member
  refine ⟨fun writes => absurd writes (by decide), fun _ _ _ => rfl⟩

def completed : ExecutionEvent where
  eventId := "d1"
  eventType := .taskCompleted
  entityRef := "o1"

/-- The order, created again with twice the area. -/
def createdAgain : ExecutionEvent where
  eventId := "c1"
  eventType := .orderCreated
  entityRef := "o1"
  payload := (Dict.empty.set "order_id" (.text "o1")).set "area_ha" (.number 20 "20")

/-- A tenth of an order of ten hectares is covered before the order is completed; of an order of
twenty with the same id a tenth is covered then, and eight hectares are left instead of
eighteen. -/
theorem completed_order_keeps_credit :
    ∃ past reached, (ledgerSystem stripRegistry "o1" (gaugeSources 10)).Run past reached ∧
      ¬ ∀ taken ∈ past, ¬ Replayed taken.source.1.seenEventIds taken.label.1 taken.label.2 →
        CreditsPasses stripRegistry "o1" taken.source.2 taken.source.1.work taken.label.2
          taken.target.1.work.sources := by
  have last : (ledgerSystem stripRegistry "o1" (gaugeSources 10)).Step
      (creditAfter [tenthCovered, completed, createdAgain]) ([], fifthCovered)
      (creditAfter [tenthCovered, completed, createdAgain, fifthCovered]) := rfl
  have before : (ledgerSystem stripRegistry "o1" (gaugeSources 10)).Run
      _ (creditAfter [tenthCovered, completed, createdAgain]) :=
    .step (l := ([], createdAgain)) (.step (l := ([], completed)) (.step (l := ([], tenthCovered))
      (.initial rfl) rfl) rfl) rfl
  refine ⟨_, _, .step before last, fun credits => ?_⟩
  have credited := credits _ (List.mem_append_right _ (List.mem_singleton_self _))
    (by decide +kernel)
  have received : receivedRing stripRegistry
      (creditAfter [tenthCovered, completed, createdAgain]).1.work.sources "o1" fifthCovered =
        some [(0, 0), (1 / 5, 0), (1 / 5, 1), (0, 1)] := by decide +kernel
  have birth : (creditAfter [tenthCovered, completed, createdAgain]).2.birth.toOption =
      some (Dict.empty.set "area_ha" 20, 20) := by decide +kernel
  have share : (coverageState stripPrimitives
      ((creditAfter [tenthCovered, completed, createdAgain]).2.rings ++
        [[(0, 0), (1 / 5, 0), (1 / 5, 1), (0, 1)]]) 20).coveredFraction = 1 / 10 := by
    decide +kernel
  have known : (Dict.empty.set "area_ha" (20 : ℚ)).get? "area_ha" = some 20 := by decide +kernel
  have eighteen := credited.left received (by decide +kernel) (by decide +kernel) birth known share
    (by decide +kernel)
  have eight : orderWork (creditAfter [tenthCovered, completed, createdAgain, fifthCovered]).1 =
      some 8 := by decide +kernel
  have clash : some 8 = some (roundTo 2 (20 * max 0 (1 - 1 / 10))) := eight.symm.trans eighteen
  exact absurd clash (by decide +kernel)

end FlOp.Stream
