import FlOp.Stream.Bookkeeping

/-! # Publishing each event once

A crash between writing a revision and recording its ids publishes the events again after a
restart. Along all other runs every id is published once, and what is committed is published.
-/

namespace FlOp.Stream

open Library

/-- A crash leaves no written revision with unrecorded ids behind. -/
def CrashesRecorded (s : Pipeline) : Action → Prop
  | .crash => s.unrecorded = []
  | _ => True

instance (s : Pipeline) : ∀ action, Decidable (CrashesRecorded s action)
  | .crash => inferInstanceAs (Decidable (s.unrecorded = []))
  | .start _ _ | .poll _ | .apply _ | .write | .record | .commit =>
    inferInstanceAs (Decidable True)

/-- No id was applied by two revisions, and a written one is recorded or about to be. -/
structure ExactlyOnce (s : Pipeline) : Prop where
  published_recorded : eventIds (entries s.published) ⊆ s.recorded ++ s.unrecorded
  nodup : (eventIds (entries (s.published ++ s.pending))).Nodup

namespace ExactlyOnce

variable {setup : Setup} {s t : Pipeline}

/-- The ids a batch applies were applied by no revision before. -/
theorem fresh_batch (books : Bookkeeping setup s) (once : ExactlyOnce s) {process : Process}
    (live : s.process = some process) {k : ℕ} {final : EventApplicator}
    {applied : List Delivery} (remembers : StoreRemembers setup s (.apply k))
    (batch : applyBatch setup.registry process.store.ids process.applicator
      (setup.batch process k) = some (final, applied)) :
    (eventIds (entries (s.published ++ s.pending))).Disjoint (eventIds applied) := by
  obtain ⟨-, fresh, -, subset, -⟩ := batchApplied batch
  intro id old new
  have known : id ∈ process.knownIds s.recorded := by
    rw [entries_append, eventIds_append] at old
    have written := once.published_recorded
    simp only [Pipeline.pending, Pipeline.unrecorded, live] at old written
    rcases List.mem_append.mp old with published | built
    · exact List.mem_append_left _ (written published)
    · exact List.mem_append_right _ built
  obtain ⟨unseen, unpublished⟩ := fresh id new
  obtain ⟨-, delivery, member, rfl⟩ := mem_eventIds.mp new
  rcases books.seen_or_stored live remembers (subset member) known with seen | stored
  · exact unseen seen
  · exact unpublished stored

theorem step {action : Action} (books : Bookkeeping setup s) (once : ExactlyOnce s)
    (remembers : StoreRemembers setup s action) (crashes : CrashesRecorded s action)
    (taken : setup.step s action = some t) : ExactlyOnce t := by
  obtain ⟨published_recorded, nodup⟩ := once
  cases setup.stepped taken with
  | start idle =>
    simp only [Pipeline.unrecorded, Pipeline.pending, idle] at published_recorded nodup
    refine ⟨by simpa [Pipeline.unrecorded, Setup.freshProcess] using published_recorded, ?_⟩
    simpa [Pipeline.pending, Setup.freshProcess] using nodup
  | poll live =>
    simp only [Pipeline.unrecorded, Pipeline.pending, live] at published_recorded nodup
    exact ⟨published_recorded, nodup⟩
  | apply live batch =>
    have fresh := fresh_batch books ⟨published_recorded, nodup⟩ live remembers batch
    simp only [Pipeline.unrecorded, Pipeline.pending, live] at published_recorded nodup fresh
    refine ⟨published_recorded, ?_⟩
    simp only [Pipeline.pending, ← List.append_assoc]
    rw [entries_append, Setup.entries_revisionsOf, eventIds_append]
    exact nodup.append (batchApplied batch).nodup fresh
  | write live built =>
    simp only [Pipeline.unrecorded, Pipeline.pending, live, built] at published_recorded nodup
    refine ⟨?_, ?_⟩
    · simp only [Pipeline.unrecorded, entries_append, eventIds_append, ← List.append_assoc]
      apply List.append_subset.mpr
      refine ⟨List.subset_append_of_subset_left _ published_recorded, ?_⟩
      apply List.subset_append_of_subset_right
      simp [Revision.appliedEventIds]
    · simpa [Pipeline.pending] using nodup
  | @record process live written =>
    have recorded_now := (books.tracked _ live).unrecorded_subset (books.stored live)
    simp only [Pipeline.unrecorded, Pipeline.pending, live] at published_recorded nodup
    refine ⟨?_, nodup⟩
    simp only [Pipeline.unrecorded, List.append_nil]
    apply List.Subset.trans published_recorded
    exact List.append_subset.mpr ⟨List.subset_append_left _ _, recorded_now⟩
  | @commit process live drained written recorded =>
    simp only [Pipeline.unrecorded, live, recorded] at published_recorded
    simp only [Pipeline.pending, live, written] at nodup
    constructor
    all_goals cases loop : process.loop
    · simpa [loop, Pipeline.unrecorded] using published_recorded
    · simpa [loop, Pipeline.unrecorded, recorded] using published_recorded
    · simpa [loop, Pipeline.pending] using nodup
    · simpa [loop, Pipeline.pending, written] using nodup
  | crash live =>
    simp only [CrashesRecorded] at crashes
    rw [crashes] at published_recorded
    refine ⟨published_recorded, ?_⟩
    rw [entries_append, eventIds_append] at nodup
    simpa [Pipeline.pending] using nodup.of_append_left

end ExactlyOnce

/-- What the pipeline promises: an id is published once, and what is committed is published. -/
structure EffectivelyOnce (setup : Setup) (s : Pipeline) : Prop where
  once : s.published.Pairwise fun earlier later =>
    earlier.appliedEventIds.Disjoint later.appliedEventIds
  kept : ∀ delivery ∈ setup.log.zipIdx, delivery.2 < s.committed →
    ∃ revision ∈ s.published,
      delivery ∈ revision.applied ∨ delivery.1.eventId ∈ revision.appliedEventIds

theorem ExactlyOnce.once {s : Pipeline} (exactly : ExactlyOnce s) :
    s.published.Pairwise fun earlier later =>
      earlier.appliedEventIds.Disjoint later.appliedEventIds := by
  have nodup := exactly.nodup
  rw [entries_append, eventIds_append] at nodup
  have flat : eventIds (entries s.published) = s.published.flatMap Revision.appliedEventIds := by
    induction s.published with
    | nil => rfl
    | cons revision rest ih =>
      rw [entries_cons, eventIds_append, ih, List.flatMap_cons, Revision.appliedEventIds]
  rw [flat] at nodup
  exact (List.nodup_flatMap.mp nodup.of_append_left).2

theorem Bookkeeping.kept {setup : Setup} {s : Pipeline} (books : Bookkeeping setup s)
    {delivery : Delivery} (member : delivery ∈ setup.log.zipIdx)
    (before : delivery.2 < s.committed) :
    ∃ revision ∈ s.published,
      delivery ∈ revision.applied ∨ delivery.1.eventId ∈ revision.appliedEventIds := by
  have accounted := books.committed delivery member before
  unfold Accounted at accounted
  split_ifs at accounted with blank
  · obtain ⟨revision, written, applied⟩ := List.mem_flatMap.mp accounted
    exact ⟨revision, written, .inl applied⟩
  · obtain ⟨-, other, entry, same⟩ := mem_eventIds.mp (books.recorded_published accounted)
    obtain ⟨revision, written, applied⟩ := List.mem_flatMap.mp entry
    refine ⟨revision, written, .inr ?_⟩
    exact mem_eventIds.mpr ⟨blank, other, applied, same⟩

/-- Publication is effectively once along every run whose crashes leave no written revision
unrecorded and whose store remembers what it recorded. -/
theorem effectivelyOnce_of_reachable (setup : Setup) {s : Pipeline}
    (run : setup.pipeline.ReachableWhere
      (fun s action => StoreRemembers setup s action ∧ CrashesRecorded s action) s) :
    EffectivelyOnce setup s := by
  have books : ∀ s, setup.pipeline.ReachableWhere
      (fun s action => StoreRemembers setup s action ∧ CrashesRecorded s action) s →
      Bookkeeping setup s :=
    fun s run => .of_reachable run fun _ _ allowed => allowed.1
  have exactly : ExactlyOnce s := by
    apply run.invariant_using ExactlyOnce books
    · rintro s rfl
      exact ⟨by simp, by simp [Pipeline.pending]⟩
    · intro s action t books once allowed taken
      exact once.step books allowed.1 allowed.2 taken
  exact ⟨exactly.once, fun delivery member before => (books s run).kept member before⟩

/-- A contract of work orders, and primitives that read nothing. -/
def orderRegistry : Registry where
  tables := Dict.empty.set "orders" {
    canonicalEntity := "task"
    bindings := [{ sourceField := "order", binding := "task.id", planningUse := ["identity"] }] }
  primitives := {
    parseFloat := fun _ => none
    showFloat := fun _ => ""
    parseTime := fun _ => none
    parsePolygon := fun _ => .error .valueError
    pathLatLon := fun _ => []
    sweptPolygon := fun _ _ => []
    ringsAreaKm2 := fun _ => 0 }

/-- One open order and the event of its completion. -/
def orderSetup : Setup where
  registry := orderRegistry
  sources := Dict.empty.set "orders" [Dict.empty.set "order" (.text "o1")]
  log := [{ eventId := "e1", eventType := .taskCompleted, entityRef := "o1" }]
  maxIds := 100

/-- A watcher publishes its baseline and the completion, and stops before `rest`. -/
def watchUntilWritten (rest : List Action) : List Action :=
  [.start .watch 0, .write, .poll 1, .apply 1, .write] ++ rest

/-- A crash between recording and committing: the redelivered event is suppressed. -/
theorem effectivelyOnce_of_reachable_order :
    ∃ s, LabeledSystem.exec
        (fun s action => StoreRemembers orderSetup s action ∧ CrashesRecorded s action)
        orderSetup.step
        (watchUntilWritten [.record, .crash, .start .watch 0, .write, .poll 1, .apply 1, .commit])
        {} = some s ∧
      EffectivelyOnce orderSetup s := by
  refine ⟨_, (Option.some_get (by decide +kernel)).symm, ?_⟩
  apply effectivelyOnce_of_reachable orderSetup
  exact LabeledSystem.ReachableWhere.exec (.initial rfl) (Option.some_get _).symm

/-- A crash between writing and recording: the restarted watcher publishes the event again. -/
theorem unrecorded_event_is_published_again :
    ¬ ∀ (setup : Setup) (s : Pipeline), setup.pipeline.Reachable s → EffectivelyOnce setup s := by
  intro promised
  have published : (LabeledSystem.exec (fun _ _ => True) orderSetup.step
      (watchUntilWritten (.crash :: watchUntilWritten [])) {}).map
        (fun s => s.published.map Revision.appliedEventIds) =
      some [[], ["e1"], [], ["e1"]] := by
    decide +kernel
  obtain ⟨s, executed, revisions⟩ := Option.map_eq_some_iff.mp published
  have once := (promised orderSetup s
    (LabeledSystem.ReachableWhere.exec (.initial rfl) executed)).once
  rw [← List.pairwise_map (R := List.Disjoint), revisions] at once
  have twice : ["e1"].Disjoint ["e1"] := by
    have later := (List.pairwise_cons.mp (List.pairwise_cons.mp once).2).1
    exact later _ (List.mem_cons_of_mem _ List.mem_cons_self)
  exact twice List.mem_cons_self List.mem_cons_self

end FlOp.Stream
