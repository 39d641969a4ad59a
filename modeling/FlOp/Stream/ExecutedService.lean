import FlOp.Stream.Handlers
import FlOp.Stream.Pipeline
import FlOp.Stream.PrognosisRates
import FlOp.Stream.Publication

/-! # Executed service and withdrawals

A session applies batches of events and builds a revision after each that applied something. The
completion of a service task is noted, but it removes no row and the next reconciliation does not
see it: a task that disappears after its execution is recorded as withdrawn.
-/

namespace FlOp.Stream

open Canonical FlOp.Core Library Mapping Rolling Solver

instance (prev rev : Rolling.Revision) : Decidable (Reconciled prev rev) :=
  decidable_of_iff (_ ∧ _)
    ⟨fun both => ⟨both.1, both.2⟩, fun reconciled => ⟨reconciled.1, reconciled.2⟩⟩

/-- A session between two batches. -/
structure StreamSession where
  applicator : EventApplicator
  last : Rolling.Revision
  outcomes : List OutcomeRecord := []
  /-- Service tasks completed since they are derived; kept for statements, no step reads it. -/
  executed : Finset String := ∅

/-- One batch: the ids published before it, its events and the revision built after it. -/
structure DrainedBatch where
  published : List String
  events : List Delivery
  revision : Option Rolling.Revision

/-- What the drain of all sessions shares: contracts, and the types of a snapshot's assets. -/
structure DrainSetup where
  registry : Registry
  typesOf : PlanningSnapshot → Dict String String

namespace DrainSetup

variable (setup : DrainSetup)

/-- The tasks a batch completes. -/
def completedIds (s : StreamSession) (batch : DrainedBatch) : Finset String :=
  match applyBatch setup.registry batch.published s.applicator batch.events with
  | some (final, _) => (final.completions.map (·.taskId)).toFinset
  | none => ∅

/-- Derived service tasks completed by the end of a batch, before its revision is built. -/
def executedBy (s : StreamSession) (batch : DrainedBatch) : Finset String :=
  s.executed ∪ setup.completedIds s batch ∩ derivedIds s.last.snapshot

/-- Apply one batch and build its revision, if any event was applied; undefined if one raises. -/
def drain (s : StreamSession) (batch : DrainedBatch) : Option StreamSession :=
  match applyBatch setup.registry batch.published s.applicator batch.events with
  | none => none
  | some (final, applied) =>
    -- completions and coverage reports have gone to their logs
    let applicator := { final with completions := [], coverageReports := [] }
    let executed := setup.executedBy s batch
    match applied, batch.revision with
    | [], none => some { s with applicator := applicator, executed := executed }
    | _ :: _, some rev =>
      if Reconciled s.last rev then
        some {
          applicator := applicator
          last := rev
          outcomes := s.outcomes ++
            [recordPrognosisOutcomes rev.plan (setup.typesOf rev.snapshot)]
          executed := executed ∩ derivedIds rev.snapshot }
      else none
    | _, _ => none

/-- Sessions start with a baseline, before any event. -/
def session : LabeledSystem StreamSession DrainedBatch :=
  .ofStep (fun s => s.outcomes = [] ∧ s.executed = ∅) setup.drain

/-- The revision after the batch withdraws no task that was executed while derived. -/
def Spares (s : StreamSession) (batch : DrainedBatch) : Prop :=
  ∀ rev, batch.revision = some rev →
    ∀ id ∈ setup.executedBy s batch, id ∉ actionTaskIds rev.plan .serviceWithdrawn

/-- The executed tasks that the last plan lists are still in the snapshot of the revision. -/
def ExecutedRemain (s : StreamSession) (batch : DrainedBatch) : Prop :=
  ∀ rev, batch.revision = some rev → ∀ id ∈ setup.executedBy s batch,
    id ∈ serviceTaskIds s.last.plan → id ∈ rev.snapshot.taskIds

/-- Everything one step can do. -/
inductive Drained (s : StreamSession) (batch : DrainedBatch) : StreamSession → Prop
  | quiet {applicator : EventApplicator} (nothing : batch.revision = none) :
      Drained s batch
        { s with applicator := applicator, executed := setup.executedBy s batch }
  | built {applicator : EventApplicator} {rev : Rolling.Revision}
      (revised : batch.revision = some rev) (reconciled : Reconciled s.last rev) :
      Drained s batch
        { applicator := applicator
          last := rev
          outcomes := s.outcomes ++ [recordPrognosisOutcomes rev.plan (setup.typesOf rev.snapshot)]
          executed := setup.executedBy s batch ∩ derivedIds rev.snapshot }

variable {setup} {s t : StreamSession} {batch : DrainedBatch}

theorem drained (taken : setup.drain s batch = some t) : setup.Drained s batch t := by
  rw [drain] at taken
  cases called : applyBatch setup.registry batch.published s.applicator batch.events with
  | none =>
    rw [called] at taken
    cases taken
  | some returned =>
    obtain ⟨final, applied⟩ := returned
    rw [called] at taken
    cases applied with
    | nil =>
      cases revised : batch.revision with
      | none =>
        simp only [revised] at taken
        obtain rfl := Option.some.inj taken
        exact .quiet revised
      | some rev => simp [revised] at taken
    | cons first rest =>
      cases revised : batch.revision with
      | none => simp [revised] at taken
      | some rev =>
        simp only [revised] at taken
        split_ifs at taken with reconciled
        obtain rfl := Option.some.inj taken
        exact .built revised reconciled

/-- One batch spares the executed tasks exactly if the listed ones among them remain. -/
theorem spares_iff (taken : setup.drain s batch = some t) :
    setup.Spares s batch ↔ setup.ExecutedRemain s batch := by
  cases drained taken with
  | quiet nothing =>
    refine iff_of_true (fun rev revised => ?_) (fun rev revised => ?_)
    · rw [nothing] at revised
      cases revised
    · rw [nothing] at revised
      cases revised
  | @built _ rev revised reconciled =>
    constructor
    · intro spares other same id done listed
      obtain rfl := Option.some.inj (revised.symm.trans same)
      by_contra gone
      exact spares _ revised id done (reconciled.mem_withdrawn.mpr ⟨listed, gone⟩)
    · intro remain other same id done withdrawn
      obtain rfl := Option.some.inj (revised.symm.trans same)
      obtain ⟨listed, gone⟩ := reconciled.mem_withdrawn.mp withdrawn
      exact gone (remain _ revised id done listed)

/-- The executed tasks of a session are those that some batch completed while they were derived
and that every revision since derives. -/
theorem mem_executed_iff {past : List (LabeledSystem.Transition StreamSession DrainedBatch)}
    (run : setup.session.Run past s) {id : String} :
    id ∈ s.executed ↔ ∃ before taken after, past = before ++ taken :: after ∧
      id ∈ setup.completedIds taken.source taken.label ∧
      id ∈ derivedIds taken.source.last.snapshot ∧
      ∀ later ∈ taken :: after, ∀ rev, later.label.revision = some rev →
        id ∈ derivedIds rev.snapshot := by
  induction run with
  | initial start =>
    rw [start.2]
    refine iff_of_false (Finset.notMem_empty id) ?_
    rintro ⟨before, taken, after, same, -⟩
    cases before <;> cases same
  | @step past s t batch run step ih =>
    have derived : id ∈ t.executed ↔ id ∈ setup.executedBy s batch ∧
        ∀ rev, batch.revision = some rev → id ∈ derivedIds rev.snapshot := by
      cases drained step with
      | quiet nothing =>
        refine (and_iff_left fun rev revised => ?_).symm
        rw [nothing] at revised
        cases revised
      | @built _ rev revised _ =>
        rw [Finset.mem_inter, revised]
        refine and_congr_right fun _ => ⟨fun here other same => ?_, fun all => all rev rfl⟩
        exact Option.some.inj same ▸ here
    rw [derived, executedBy, Finset.mem_union, Finset.mem_inter, ih]
    constructor
    · rintro ⟨⟨before, taken, after, rfl, done, active, since⟩ | ⟨done, active⟩, now⟩
      · refine ⟨before, taken, after ++ [⟨s, batch, t⟩], by simp, done, active, ?_⟩
        intro later member
        rw [← List.cons_append, List.mem_append, List.mem_singleton] at member
        rcases member with earlier | rfl
        · exact since later earlier
        · exact now
      · refine ⟨past, ⟨s, batch, t⟩, [], rfl, done, active, fun later member => ?_⟩
        obtain rfl := List.mem_singleton.mp member
        exact now
    · rintro ⟨before, taken, after, same, done, active, since⟩
      rcases List.eq_nil_or_concat after with rfl | ⟨rest, last, rfl⟩
      · obtain ⟨rfl, equal⟩ := List.append_inj' same rfl
        obtain rfl := List.singleton_inj.mp equal
        exact ⟨.inr ⟨done, active⟩, since _ List.mem_cons_self⟩
      · rw [List.concat_eq_append, ← List.cons_append, ← List.append_assoc] at same
        obtain ⟨rfl, equal⟩ := List.append_inj' same rfl
        obtain rfl := List.singleton_inj.mp equal
        rw [List.concat_eq_append, ← List.cons_append] at since
        refine ⟨.inl ⟨before, taken, rest, rfl, done, active, fun later member => ?_⟩, ?_⟩
        · exact since later (List.mem_append_left _ member)
        · exact since ⟨s, batch, t⟩ (List.mem_append_right _ (List.mem_singleton_self _))

/-- In a run no revision withdraws a service task that was executed while derived, if and only if
at every revision the executed tasks that the last plan lists remain in the snapshot. -/
theorem executed_spared_iff (setup : DrainSetup)
    {past : List (LabeledSystem.Transition StreamSession DrainedBatch)} {s : StreamSession}
    (run : setup.session.Run past s) :
    (∀ taken ∈ past, setup.Spares taken.source taken.label) ↔
      ∀ taken ∈ past, setup.ExecutedRemain taken.source taken.label :=
  forall₂_congr fun _ member => spares_iff (run.step_of_mem member)

end DrainSetup

/-- Completing a task that has no row, as service tasks, leaves all rows as they are. -/
theorem rows_completeTask_of_no_row {registry : Registry} {work : WorkState} {taskRef : String}
    (rowless : ∀ c table key, registry.Loaded "task" work.sources c table →
      BindingTable.named table.entityKeyField = some key → ∀ row ∈ work.sources.rows c,
        row.hasKey key taskRef = false) (completedAt via : String) (c : String) :
    (completeTask registry work taskRef completedAt via).work.sources.rows c =
      work.sources.rows c := by
  have rewrites := rewrites_removeByKey registry work.sources taskRef "task"
  by_cases loaded : ∃ table, registry.Loaded "task" work.sources c table
  · obtain ⟨table, loaded⟩ := loaded
    change (removeByKey registry work.sources taskRef "task").rows c = _
    rw [rewrites.loaded loaded, remainingRows]
    cases keyed : BindingTable.named table.entityKeyField with
    | none => rfl
    | some key =>
      refine List.filter_eq_self.mpr fun row member => ?_
      rw [rowless c table key loaded keyed row member]
      rfl
  · exact rewrites.others fun table here => loaded ⟨table, here⟩

/-- Work orders, and assets of unknown type. -/
def orderDrain : DrainSetup where
  registry := orderRegistry
  typesOf _ := .empty

/-- A session whose baseline derives service for one station. -/
def probeSession : StreamSession where
  applicator := { work := { sources := orderSetup.sources } }
  last := padDeployment.publish none (stationReplan ["probe-1"] 0)

/-- The station's service is completed; the next revision derives service for the given ones. -/
def servicedBatch (stations : List String) : DrainedBatch where
  published := []
  events := [({ eventId := "e1", eventType := .taskCompleted, entityRef := "service-probe-1" }, 0)]
  revision := some (padDeployment.publish (some probeSession.last) (stationReplan stations 600))

/-- The run of one batch. -/
theorem servicedBatch_run {stations : List String} {t : StreamSession}
    (taken : orderDrain.drain probeSession (servicedBatch stations) = some t) :
    orderDrain.session.Run [⟨probeSession, servicedBatch stations, t⟩] t :=
  .step (show orderDrain.session.Run [] probeSession from .initial ⟨rfl, rfl⟩) taken

/-- A serviced station whose readings still ask for service. -/
theorem executed_spared_iff_probe :
    ∃ t, (∀ taken ∈ [(⟨probeSession, servicedBatch ["probe-1"], t⟩ :
        LabeledSystem.Transition StreamSession DrainedBatch)],
          orderDrain.Spares taken.source taken.label) ↔
      ∀ taken ∈ [(⟨probeSession, servicedBatch ["probe-1"], t⟩ :
        LabeledSystem.Transition StreamSession DrainedBatch)],
          orderDrain.ExecutedRemain taken.source taken.label := by
  have runs : (orderDrain.drain probeSession (servicedBatch ["probe-1"])).isSome = true := by
    decide +kernel
  exact ⟨_, DrainSetup.executed_spared_iff orderDrain
    (servicedBatch_run (Option.some_get runs).symm)⟩

/-- The service of a station is executed and its readings recover: the completed task is recorded
as withdrawn. -/
theorem serviced_station_is_withdrawn :
    ¬ ∀ (setup : DrainSetup) (past : List (LabeledSystem.Transition StreamSession DrainedBatch))
      (s : StreamSession), setup.session.Run past s →
        ∀ taken ∈ past, setup.Spares taken.source taken.label := by
  intro spared
  have runs : (orderDrain.drain probeSession (servicedBatch [])).isSome = true := by
    decide +kernel
  have spares := spared orderDrain _ _ (servicedBatch_run (Option.some_get runs).symm) _
    List.mem_cons_self _ rfl
  have executed : "service-probe-1" ∈ orderDrain.executedBy probeSession (servicedBatch []) := by
    decide +kernel
  have withdrawn : "service-probe-1" ∈ actionTaskIds (padDeployment.publish
      (some probeSession.last) (stationReplan [] 600)).plan .serviceWithdrawn := by
    decide +kernel
  exact spares _ executed withdrawn

end FlOp.Stream
