import FlOp.Stream.Pipeline

/-! # What the pipeline knows of its events

Every id a process has met is recorded, written or waiting to be written, and every event it has
passed is accounted for by its id or, without one, by itself. The id store backs this up as long
as ids survive the file and the retention bound.
-/

namespace FlOp.Stream

/-- What applying a batch does to the ids: the applied ones are fresh and become seen, and every
event of the batch is applied or a replay. -/
structure BatchApplied (published : List String) (before after : EventApplicator)
    (deliveries applied : List Delivery) : Prop where
  seen : ∀ id, id ∈ after.seenEventIds ↔ id ∈ before.seenEventIds ∨ id ∈ eventIds applied
  fresh : ∀ id ∈ eventIds applied, id ∉ before.seenEventIds ∧ id ∉ published
  nodup : (eventIds applied).Nodup
  subset : applied ⊆ deliveries
  covered : ∀ delivery ∈ deliveries,
    delivery ∈ applied ∨ Replayed after.seenEventIds published delivery.1

theorem batchApplied {registry : Registry} {published : List String}
    {before after : EventApplicator} {deliveries applied : List Delivery}
    (returned : applyBatch registry published before deliveries = some (after, applied)) :
    BatchApplied published before after deliveries applied := by
  induction deliveries generalizing before applied with
  | nil =>
    obtain ⟨rfl, rfl⟩ := Prod.mk.inj (Option.some.inj returned)
    exact ⟨by simp, by simp, by simp, by simp, by simp⟩
  | cons delivery rest ih =>
    unfold applyBatch at returned
    split at returned
    · next next called =>
      obtain ⟨⟨final, later⟩, recursion, same⟩ := Option.map_eq_some_iff.mp returned
      obtain ⟨rfl, rfl⟩ := Prod.mk.inj same
      obtain ⟨seen, fresh, nodup, subset, covered⟩ := ih recursion
      obtain ⟨absurdity, -⟩ | ⟨-, unseen, marked, -⟩ := EventApplicator.apply_cases called
      · contradiction
      have ids : ∀ id, id ∈ eventIds (delivery :: later) ↔
          id ≠ "" ∧ id = delivery.1.eventId ∨ id ∈ eventIds later := by
        intro id
        simp only [mem_eventIds, List.mem_cons]
        grind
      constructor
      · intro id
        rw [seen, marked, ids, or_assoc]
      · intro id member
        rcases (ids id).mp member with ⟨nonempty, rfl⟩ | member
        · exact not_or.mp fun known => unseen ⟨nonempty, known⟩
        · obtain ⟨new, unpublished⟩ := fresh id member
          exact ⟨fun known => new ((marked id).mpr (.inl known)), unpublished⟩
      · by_cases blank : delivery.1.eventId = ""
        · simpa [eventIds, blank] using nodup
        · have first : eventIds (delivery :: later) = delivery.1.eventId :: eventIds later := by
            simp [eventIds, blank]
          rw [first]
          refine List.nodup_cons.mpr ⟨fun member => ?_, nodup⟩
          exact (fresh _ member).1 ((marked _).mpr (.inr ⟨blank, rfl⟩))
      · exact List.cons_subset_cons delivery subset
      · intro other member
        rcases List.mem_cons.mp member with rfl | member
        · exact .inl List.mem_cons_self
        · exact (covered other member).imp_left (List.mem_cons_of_mem delivery)
    · next next called =>
      obtain ⟨seen, fresh, nodup, subset, covered⟩ := ih returned
      obtain ⟨-, replayed, rfl⟩ | ⟨absurdity, -⟩ := EventApplicator.apply_cases called
      · refine ⟨seen, fresh, nodup, List.subset_cons_of_subset delivery subset, ?_⟩
        intro other member
        rcases List.mem_cons.mp member with rfl | member
        · exact .inr ⟨replayed.1, replayed.2.imp_left fun known => (seen _).mpr (.inl known)⟩
        · exact covered other member
      · contradiction
    · contradiction

/-- An event is accounted for by its id, or by itself if it has none. -/
def Accounted (applied : List Delivery) (ids : List String) (delivery : Delivery) : Prop :=
  if delivery.1.eventId = "" then delivery ∈ applied else delivery.1.eventId ∈ ids

theorem Accounted.mono {applied more : List Delivery} {ids known : List String}
    {delivery : Delivery} (accounted : Accounted applied ids delivery)
    (applied_subset : applied ⊆ more) (ids_subset : ids ⊆ known) :
    Accounted more known delivery := by
  unfold Accounted at accounted ⊢
  split_ifs with blank
  · rw [if_pos blank] at accounted
    exact applied_subset accounted
  · rw [if_neg blank] at accounted
    exact ids_subset accounted

/-- Ids that a process answers for: recorded, written or waiting to be written. -/
def Process.knownIds (process : Process) (recorded : List String) : List String :=
  recorded ++ process.unrecorded ++ eventIds (entries process.pending)

/-- What a process knows about the ids it has met and the events it has passed. -/
structure Tracked (log : List ExecutionEvent) (recorded : List String)
    (published : List Revision) (process : Process) : Prop where
  seen_known : ∀ id ∈ process.applicator.seenEventIds, id ∈ process.knownIds recorded
  unrecorded_seen : ∀ id ∈ process.unrecorded, id ∈ process.applicator.seenEventIds
  unrecorded_published : process.unrecorded ⊆ eventIds (entries published)
  pending_seen : ∀ id ∈ eventIds (entries process.pending),
    id ∈ process.applicator.seenEventIds
  passed : ∀ delivery ∈ log.zipIdx, delivery.2 < process.position →
    Accounted (entries (published ++ process.pending)) (process.knownIds recorded) delivery

/-- What the durable data say about each other, and about the process working on them. -/
structure Bookkeeping (setup : Setup) (s : Pipeline) : Prop where
  journaled : ∃ ids, Journaled setup.maxIds s.recorded s.storeFile ids ∧
    ∀ process, s.process = some process → process.store.ids = ids
  recorded_published : s.recorded ⊆ eventIds (entries s.published)
  committed : ∀ delivery ∈ setup.log.zipIdx, delivery.2 < s.committed →
    Accounted (entries s.published) s.recorded delivery
  tracked : ∀ process, s.process = some process →
    Tracked setup.log s.recorded s.published process

namespace Tracked

variable {log : List ExecutionEvent} {recorded : List String} {published : List Revision}
  {process : Process}

/-- Applying a batch: fresh ids wait to be written, replays are known already. -/
theorem apply {setup : Setup} {k : ℕ} {final : EventApplicator} {applied : List Delivery}
    (tracked : Tracked setup.log recorded published process)
    (stored : process.store.ids ⊆ recorded)
    (batch : applyBatch setup.registry process.store.ids process.applicator
      (setup.batch process k) = some (final, applied)) :
    Tracked setup.log recorded published { process with
      position := process.position + k
      applicator := { final with completions := [], coverageReports := [] }
      pending := process.pending ++ Setup.revisionsOf applied } := by
  obtain ⟨seen, -, -, -, covered⟩ := batchApplied batch
  have known : ∀ id, id ∈ final.seenEventIds →
      id ∈ process.knownIds recorded ++ eventIds applied := by
    intro id member
    apply List.mem_append.mpr
    exact ((seen id).mp member).imp_left (tracked.seen_known id)
  have knownIds : Process.knownIds { process with
      position := process.position + k
      applicator := { final with completions := [], coverageReports := [] }
      pending := process.pending ++ Setup.revisionsOf applied } recorded =
      process.knownIds recorded ++ eventIds applied := by
    simp [Process.knownIds]
  constructor
  · intro id member
    rw [knownIds]
    exact known id member
  · intro id member
    exact (seen id).mpr (.inl (tracked.unrecorded_seen id member))
  · exact tracked.unrecorded_published
  · intro id member
    simp only [entries_append, Setup.entries_revisionsOf, eventIds_append,
      List.mem_append] at member
    exact (seen id).mpr (member.imp_left (tracked.pending_seen id))
  · intro delivery member before
    rw [knownIds]
    by_cases old : delivery.2 < process.position
    · refine (tracked.passed delivery member old).mono ?_ (List.subset_append_left _ _)
      simp
    · have inBatch := (setup.mem_batch (k := k)).mpr ⟨member, not_lt.mp old, before⟩
      unfold Accounted
      rcases covered delivery inBatch with applies | ⟨nonempty, replay⟩
      · split_ifs with blank
        · simp [applies]
        · exact List.mem_append_right _ (mem_eventIds.mpr ⟨blank, delivery, applies, rfl⟩)
      · rw [if_neg nonempty]
        rcases replay with replay | replay
        · exact known _ replay
        · apply List.mem_append_left
          simp [Process.knownIds, stored replay]

/-- Writing a revision moves its ids from the built ones to the written ones. -/
theorem write {revision : Revision} {rest : List Revision}
    (tracked : Tracked log recorded published process)
    (built : process.pending = revision :: rest) :
    Tracked log recorded (published ++ [revision]) { process with
      pending := rest
      unrecorded := process.unrecorded ++ revision.appliedEventIds } := by
  have knownIds : Process.knownIds { process with
      pending := rest
      unrecorded := process.unrecorded ++ revision.appliedEventIds } recorded =
      process.knownIds recorded := by
    simp [Process.knownIds, built, Revision.appliedEventIds]
  have pending_seen := tracked.pending_seen
  rw [built, entries_cons, eventIds_append] at pending_seen
  constructor
  · intro id member
    rw [knownIds]
    exact tracked.seen_known id member
  · intro id member
    rcases List.mem_append.mp member with old | new
    · exact tracked.unrecorded_seen id old
    · exact pending_seen id (List.mem_append_left _ new)
  · rw [entries_append, eventIds_append]
    apply List.append_subset.mpr
    refine ⟨List.subset_append_of_subset_left _ tracked.unrecorded_published, ?_⟩
    apply List.subset_append_of_subset_right
    simp [Revision.appliedEventIds]
  · intro id member
    exact pending_seen id (List.mem_append_right _ member)
  · intro delivery member before
    have accounted := tracked.passed delivery member before
    rw [built] at accounted
    rw [knownIds, List.append_assoc]
    exact accounted

/-- Ids are only left out of the record if the store knew them, so none is lost. -/
theorem unrecorded_subset (tracked : Tracked log recorded published process)
    (stored : process.store.ids ⊆ recorded) :
    process.unrecorded ⊆ recorded ++ newIds process.store.ids process.unrecorded := by
  intro id member
  have nonempty := (mem_eventIds.mp (tracked.unrecorded_published member)).1
  by_cases old : id ∈ process.store.ids
  · exact List.mem_append_left _ (stored old)
  · exact List.mem_append_right _ (mem_newIds.mpr ⟨member, nonempty, old⟩)

/-- Recording moves the written ids to the recorded ones. -/
theorem record {store : EventDedupStore} (tracked : Tracked log recorded published process)
    (stored : process.store.ids ⊆ recorded) :
    Tracked log (recorded ++ newIds process.store.ids process.unrecorded) published
      { process with store := store, unrecorded := [] } := by
  have known : process.knownIds recorded ⊆ Process.knownIds
      { process with store := store, unrecorded := [] }
      (recorded ++ newIds process.store.ids process.unrecorded) := by
    simp only [Process.knownIds, List.append_nil]
    refine List.append_subset.mpr ⟨?_, List.subset_append_right _ _⟩
    apply List.subset_append_of_subset_left
    exact List.append_subset.mpr
      ⟨List.subset_append_left _ _, tracked.unrecorded_subset stored⟩
  constructor
  · intro id member
    exact known (tracked.seen_known id member)
  · simp
  · simp
  · exact tracked.pending_seen
  · intro delivery member before
    exact (tracked.passed delivery member before).mono (List.Subset.refl _) known

end Tracked

/-- The id store holds what it should when it is asked: recorded ids load from the file as they
were written, and a recorded event that comes again is retained or was seen by the process. -/
def StoreRemembers (setup : Setup) (s : Pipeline) : Action → Prop
  | .start _ _ => ∀ id ∈ s.recorded, LineSafe id
  | .apply k => ∀ process ∈ s.process, ∀ delivery ∈ setup.batch process k,
      delivery.1.eventId ∈ s.recorded →
        delivery.1.eventId ∈ EventDedupStore.newest setup.maxIds s.recorded ∨
          delivery.1.eventId ∈ process.applicator.seenEventIds
  | _ => True

instance (setup : Setup) (s : Pipeline) : ∀ action, Decidable (StoreRemembers setup s action)
  | .start _ _ => inferInstanceAs (Decidable (∀ id ∈ s.recorded, LineSafe id))
  | .apply k => inferInstanceAs (Decidable (∀ process ∈ s.process,
      ∀ delivery ∈ setup.batch process k, _))
  | .poll _ | .write | .record | .commit | .crash => inferInstanceAs (Decidable True)

namespace Bookkeeping

variable {setup : Setup} {s t : Pipeline}

theorem initial : Bookkeeping setup {} where
  journaled := ⟨[], .empty _, by simp⟩
  recorded_published := by simp
  committed := by simp
  tracked := by simp

/-- What the store of a live process knows was recorded. -/
theorem stored (books : Bookkeeping setup s) {process : Process}
    (live : s.process = some process) : process.store.ids ⊆ s.recorded := by
  obtain ⟨ids, journaled, loaded⟩ := books.journaled
  intro id member
  rw [loaded process live] at member
  exact journaled.mem_recorded member

/-- An id of the next batch that the process answers for is seen or in the store. -/
theorem seen_or_stored (books : Bookkeeping setup s) {process : Process}
    (live : s.process = some process) {k : ℕ} (remembers : StoreRemembers setup s (.apply k))
    {delivery : Delivery} (member : delivery ∈ setup.batch process k)
    (known : delivery.1.eventId ∈ process.knownIds s.recorded) :
    delivery.1.eventId ∈ process.applicator.seenEventIds ∨
      delivery.1.eventId ∈ process.store.ids := by
  have tracked := books.tracked _ live
  rcases List.mem_append.mp known with written | built
  · rcases List.mem_append.mp written with recorded | waiting
    · rcases remembers process live delivery member recorded with recent | seen
      · obtain ⟨ids, journaled, loaded⟩ := books.journaled
        rw [loaded process live]
        exact .inr (journaled.known_of_recent recent)
      · exact .inl seen
    · exact .inl (tracked.unrecorded_seen _ waiting)
  · exact .inl (tracked.pending_seen _ built)

theorem step {action : Action} (books : Bookkeeping setup s)
    (remembers : StoreRemembers setup s action) (taken : setup.step s action = some t) :
    Bookkeeping setup t := by
  obtain ⟨ids, journaled, loaded⟩ := books.journaled
  cases setup.stepped taken with
  | @start loop n idle =>
    refine ⟨⟨ids, journaled, ?_⟩, books.recorded_published, books.committed, ?_⟩
    · intro process live
      obtain rfl := Option.some.inj live
      exact journaled.load remembers
    · intro process live
      obtain rfl := Option.some.inj live
      constructor
      · simp [Setup.freshProcess]
      · simp [Setup.freshProcess]
      · simp [Setup.freshProcess]
      · simp [Setup.freshProcess, entries, eventIds]
      · intro delivery member before
        refine (books.committed delivery member before).mono ?_ ?_
        · simp
        · simp [Process.knownIds, Setup.freshProcess]
  | poll live =>
    have tracked := books.tracked _ live
    have same := loaded _ live
    refine ⟨⟨ids, journaled, ?_⟩, books.recorded_published, books.committed, ?_⟩
    · intro process reading
      obtain rfl := Option.some.inj reading
      exact same
    · intro process reading
      obtain rfl := Option.some.inj reading
      exact ⟨tracked.seen_known, tracked.unrecorded_seen, tracked.unrecorded_published,
        tracked.pending_seen, tracked.passed⟩
  | apply live batch =>
    have same := loaded _ live
    refine ⟨⟨ids, journaled, ?_⟩, books.recorded_published, books.committed, ?_⟩
    · intro process applying
      obtain rfl := Option.some.inj applying
      exact same
    · intro process applying
      obtain rfl := Option.some.inj applying
      exact (books.tracked _ live).apply (books.stored live) batch
  | write live built =>
    have same := loaded _ live
    refine ⟨⟨ids, journaled, ?_⟩, ?_, ?_, ?_⟩
    · intro process writing
      obtain rfl := Option.some.inj writing
      exact same
    · rw [entries_append, eventIds_append]
      exact List.subset_append_of_subset_left _ books.recorded_published
    · intro delivery member before
      refine (books.committed delivery member before).mono ?_ (List.Subset.refl _)
      rw [entries_append]
      exact List.subset_append_left _ _
    · intro process writing
      obtain rfl := Option.some.inj writing
      exact (books.tracked _ live).write built
  | @record process live written =>
    have tracked := books.tracked _ live
    have same := loaded _ live
    refine ⟨⟨_, (same ▸ journaled).recordPublished setup.maxIds process.unrecorded, ?_⟩,
      ?_, ?_, ?_⟩
    · intro next recording
      obtain rfl := Option.some.inj recording
      rfl
    · refine List.append_subset.mpr ⟨books.recorded_published, fun id new => ?_⟩
      exact tracked.unrecorded_published (mem_newIds.mp new).1
    · intro delivery member before
      exact (books.committed delivery member before).mono (List.Subset.refl _)
        (List.subset_append_left _ _)
    · intro next recording
      obtain rfl := Option.some.inj recording
      exact tracked.record (books.stored live)
  | @commit process live drained written recorded =>
    have tracked := books.tracked _ live
    refine ⟨⟨ids, journaled, ?_⟩, books.recorded_published, ?_, ?_⟩
    · intro next committing
      obtain ⟨-, rfl⟩ : process.loop = .watch ∧ process = next := by simpa using committing
      exact loaded _ live
    · intro delivery member before
      have accounted := tracked.passed delivery member (drained ▸ before)
      rw [Process.knownIds, written, recorded] at accounted
      simpa using accounted
    · intro next committing
      obtain ⟨-, rfl⟩ : process.loop = .watch ∧ process = next := by simpa using committing
      exact tracked
  | crash live =>
    exact ⟨⟨ids, journaled, by simp⟩, books.recorded_published, books.committed, by simp⟩

/-- The books are in order along every run whose store remembers what it recorded. -/
theorem of_reachable {ok : Pipeline → Action → Prop} (run : setup.pipeline.ReachableWhere ok s)
    (remembers : ∀ s action, ok s action → StoreRemembers setup s action) :
    Bookkeeping setup s := by
  apply run.invariant (Bookkeeping setup)
  · rintro s rfl
    exact .initial
  · intro s action t books allowed taken
    exact books.step (remembers s action allowed) taken

end Bookkeeping

end FlOp.Stream
