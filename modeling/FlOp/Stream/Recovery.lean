import FlOp.Stream.Publication

/-! # Recovering the working data

The rows that events mutate live in memory. A restarted process begins with the data directory
again and is delivered what was not committed, less what the id store suppresses; this compares
its rows with those of a process that applied the whole log and never stopped.
-/

namespace FlOp.Stream

open Library

namespace Setup

variable (setup : Setup)

/-- Event application as it stands after `n` events without a crash, each id applied once. -/
def replayTo (n : ℕ) : EventApplicator :=
  (setup.log.take n).foldl (fun applicator event =>
    (applicator.apply setup.registry [] event).1) { work := { sources := setup.sources } }

/-- The event at an offset leaves the working data of the uninterrupted process as they were. -/
def Inert (offset : ℕ) : Prop := (setup.replayTo (offset + 1)).work = (setup.replayTo offset).work

instance (offset : ℕ) : Decidable (setup.Inert offset) := inferInstanceAs (Decidable (_ = _))

variable {setup}

@[simp] theorem replayTo_zero : setup.replayTo 0 = { work := { sources := setup.sources } } := rfl

theorem replayTo_succ {offset : ℕ} {event : ExecutionEvent}
    (logged : setup.log[offset]? = some event) :
    setup.replayTo (offset + 1) =
      ((setup.replayTo offset).apply setup.registry [] event).1 := by
  rw [replayTo, List.take_add_one, logged, Option.toList_some, List.foldl_append, List.foldl_cons,
    List.foldl_nil, replayTo]

/-- Beyond the log nothing changes. -/
theorem replayTo_of_none {offset : ℕ} (beyond : setup.log[offset]? = none) (k : ℕ) :
    setup.replayTo (offset + k) = setup.replayTo offset := by
  have length := List.getElem?_eq_none_iff.mp beyond
  rw [replayTo, replayTo, List.take_of_length_le length, List.take_of_length_le (by omega)]

/-- The uninterrupted process has seen exactly the ids of its events. -/
theorem mem_seen_replayTo_succ {offset : ℕ} {event : ExecutionEvent}
    (logged : setup.log[offset]? = some event) {id : String} :
    id ∈ (setup.replayTo (offset + 1)).seenEventIds ↔
      id ∈ (setup.replayTo offset).seenEventIds ∨ id ≠ "" ∧ id = event.eventId := by
  rw [replayTo_succ logged]
  exact EventApplicator.mem_seen_apply

theorem seen_replayTo_mono {m n : ℕ} (le : m ≤ n) :
    (setup.replayTo m).seenEventIds ⊆ (setup.replayTo n).seenEventIds := by
  induction n, le using Nat.le_induction with
  | base => exact Finset.Subset.refl _
  | succ n _ ih =>
    intro id member
    cases logged : setup.log[n]? with
    | none =>
      rw [replayTo_of_none logged]
      exact ih member
    | some event => exact (mem_seen_replayTo_succ logged).mpr (.inl (ih member))

/-- An id is only seen through an event of the log. -/
theorem exists_of_mem_seen {n : ℕ} {id : String}
    (seen : id ∈ (setup.replayTo n).seenEventIds) :
    id ≠ "" ∧ ∃ delivery ∈ setup.log.zipIdx, delivery.2 < n ∧ delivery.1.eventId = id := by
  induction n with
  | zero => simp at seen
  | succ n ih =>
    cases logged : setup.log[n]? with
    | none =>
      rw [replayTo_of_none logged] at seen
      obtain ⟨nonempty, delivery, member, before, same⟩ := ih seen
      exact ⟨nonempty, delivery, member, before.trans n.lt_succ_self, same⟩
    | some event =>
      rcases (mem_seen_replayTo_succ logged).mp seen with earlier | ⟨nonempty, same⟩
      · obtain ⟨nonempty, delivery, member, before, same⟩ := ih earlier
        exact ⟨nonempty, delivery, member, before.trans n.lt_succ_self, same⟩
      · exact ⟨nonempty, (event, n), List.mem_zipIdx_iff_getElem?.mpr logged, n.lt_succ_self,
          same.symm⟩

/-- An event whose id came before changes nothing. -/
theorem inert_of_seen {offset : ℕ} {event : ExecutionEvent}
    (logged : setup.log[offset]? = some event) (nonempty : event.eventId ≠ "")
    (seen : event.eventId ∈ (setup.replayTo offset).seenEventIds) : setup.Inert offset := by
  have replayed : Replayed (setup.replayTo offset).seenEventIds [] event :=
    ⟨nonempty, .inl seen⟩
  rw [Inert, replayTo_succ logged, EventApplicator.apply, if_pos replayed]

/-- An event that is handled by both processes from the same working data. -/
theorem work_replayTo_succ {offset : ℕ} {event : ExecutionEvent} {effect : Effect}
    (logged : setup.log[offset]? = some event)
    (fresh : ¬ Replayed (setup.replayTo offset).seenEventIds [] event)
    (handled : handle setup.registry (setup.replayTo offset).work event = .ok effect) :
    (setup.replayTo (offset + 1)).work = effect.work := by
  rw [replayTo_succ logged, EventApplicator.apply, if_neg fresh, handled]

end Setup

/-- A process is in step with the uninterrupted one at an offset. -/
structure InStep (setup : Setup) (applicator : EventApplicator) (offset : ℕ) : Prop where
  work : applicator.work = (setup.replayTo offset).work
  seen : applicator.seenEventIds ⊆ (setup.replayTo offset).seenEventIds

namespace InStep

variable {setup : Setup} {applicator final next : EventApplicator} {offset : ℕ}
  {store : List String} {event : ExecutionEvent} {applied : Bool}

/-- One event keeps a process in step, if the store suppresses inert events only and nothing
that came before is applied again. -/
theorem apply (inStep : InStep setup applicator offset)
    (logged : setup.log[offset]? = some event)
    (inert : event.eventId ∈ store → setup.Inert offset)
    (remembered : event.eventId ∈ (setup.replayTo offset).seenEventIds →
      event.eventId ∈ applicator.seenEventIds ∨ event.eventId ∈ store)
    (called : applicator.apply setup.registry store event = (next, .ok applied)) :
    InStep setup next (offset + 1) := by
  have later : (setup.replayTo offset).seenEventIds ⊆ (setup.replayTo (offset + 1)).seenEventIds :=
    Setup.seen_replayTo_mono offset.le_succ
  obtain ⟨-, ⟨nonempty, known⟩, rfl⟩ | ⟨-, fresh, marked, effect, handled, work⟩ :=
    EventApplicator.apply_cases called
  · have unchanged : setup.Inert offset := by
      rcases known with seen | stored
      · exact Setup.inert_of_seen logged nonempty (inStep.seen seen)
      · exact inert stored
    exact ⟨inStep.work.trans unchanged.symm, inStep.seen.trans later⟩
  · have first : ¬ Replayed (setup.replayTo offset).seenEventIds [] event := by
      rintro ⟨nonempty, seen | published⟩
      · exact fresh ⟨nonempty, remembered seen⟩
      · exact List.not_mem_nil published
    rw [inStep.work] at handled
    refine ⟨work.trans (Setup.work_replayTo_succ logged first handled).symm, fun id member => ?_⟩
    rw [Setup.mem_seen_replayTo_succ logged]
    exact ((marked id).mp member).imp_left fun old => inStep.seen old

/-- After an event its id is known, and so is what was known before. -/
private theorem known_apply
    (called : applicator.apply setup.registry store event = (next, .ok applied)) {id : String}
    (known : id ∈ applicator.seenEventIds ∨ id ∈ store ∨ id ≠ "" ∧ id = event.eventId) :
    id ∈ next.seenEventIds ∨ id ∈ store := by
  obtain ⟨-, ⟨-, replayed⟩, rfl⟩ | ⟨-, -, marked, -⟩ := EventApplicator.apply_cases called
  · rcases known with seen | stored | ⟨-, rfl⟩
    · exact .inl seen
    · exact .inr stored
    · exact replayed
  · rcases known with seen | stored | new
    · exact .inl ((marked id).mpr (.inl seen))
    · exact .inr stored
    · exact .inl ((marked id).mpr (.inr new))

/-- A batch of consecutive events keeps a process in step. -/
theorem applyBatch {k : ℕ} {deliveries : List Delivery}
    (inStep : InStep setup applicator offset)
    (inert : ∀ delivery ∈ (setup.log.zipIdx.drop offset).take k,
      delivery.1.eventId ∈ store → setup.Inert delivery.2)
    (remembered : ∀ delivery ∈ (setup.log.zipIdx.drop offset).take k,
      delivery.1.eventId ∈ (setup.replayTo offset).seenEventIds →
        delivery.1.eventId ∈ applicator.seenEventIds ∨ delivery.1.eventId ∈ store)
    (returned : Stream.applyBatch setup.registry store applicator
      ((setup.log.zipIdx.drop offset).take k) = some (final, deliveries)) :
    InStep setup final (offset + k) := by
  induction k generalizing offset applicator deliveries with
  | zero =>
    obtain ⟨rfl, -⟩ := Prod.mk.inj (Option.some.inj returned)
    exact inStep
  | succ k ih =>
    cases logged : setup.log[offset]? with
    | none =>
      have beyond : setup.log.zipIdx.drop offset = [] := by
        rw [List.drop_eq_nil_iff, List.length_zipIdx]
        exact List.getElem?_eq_none_iff.mp logged
      rw [beyond] at returned
      obtain ⟨rfl, -⟩ := Prod.mk.inj (Option.some.inj returned)
      exact ⟨Setup.replayTo_of_none logged _ ▸ inStep.work,
        Setup.replayTo_of_none logged _ ▸ inStep.seen⟩
    | some event =>
      have first : (setup.log.zipIdx.drop offset).take (k + 1) =
          (event, offset) :: (setup.log.zipIdx.drop (offset + 1)).take k := by
        obtain ⟨within, rfl⟩ := List.getElem?_eq_some_iff.mp logged
        have length : offset < setup.log.zipIdx.length := by
          rw [List.length_zipIdx]
          exact within
        rw [List.drop_eq_getElem_cons length, List.take_succ_cons, List.getElem_zipIdx,
          Nat.zero_add]
      rw [first] at inert remembered returned
      have advance : ∀ {next applied},
          applicator.apply setup.registry store event = (next, .ok applied) →
          InStep setup next (offset + 1) ∧
            ∀ delivery ∈ (setup.log.zipIdx.drop (offset + 1)).take k,
              delivery.1.eventId ∈ (setup.replayTo (offset + 1)).seenEventIds →
                delivery.1.eventId ∈ next.seenEventIds ∨ delivery.1.eventId ∈ store := by
        intro next applied called
        refine ⟨inStep.apply logged (inert _ List.mem_cons_self)
          (remembered _ List.mem_cons_self) called, fun delivery member seen => ?_⟩
        apply known_apply called
        rcases (Setup.mem_seen_replayTo_succ logged).mp seen with old | new
        · have known := remembered delivery (List.mem_cons_of_mem _ member) old
          exact known.imp_right .inl
        · exact .inr (.inr new)
      have later := fun delivery member => inert delivery (List.mem_cons_of_mem _ member)
      rw [Nat.add_comm k 1, ← Nat.add_assoc]
      unfold Stream.applyBatch at returned
      split at returned
      · next next called =>
        obtain ⟨⟨_, _⟩, recursion, same⟩ := Option.map_eq_some_iff.mp returned
        obtain ⟨rfl, -⟩ := Prod.mk.inj same
        obtain ⟨inStep, remembered⟩ := advance called
        exact ih inStep later remembered recursion
      · next next called =>
        obtain ⟨inStep, remembered⟩ := advance called
        exact ih inStep later remembered returned
      · contradiction

end InStep

/-- A restart loses nothing: what is committed changed the working data by nothing in all, and
neither did any recorded event that is delivered again. -/
def RestartsUnchanged (setup : Setup) (s : Pipeline) : Action → Prop
  | .start _ _ => (setup.replayTo s.committed).work = { sources := setup.sources } ∧
      ∀ delivery ∈ setup.log.zipIdx, s.committed ≤ delivery.2 →
        delivery.1.eventId ∈ s.recorded → setup.Inert delivery.2
  | _ => True

instance (setup : Setup) (s : Pipeline) : ∀ action, Decidable (RestartsUnchanged setup s action)
  | .start _ _ => inferInstanceAs (Decidable (_ ∧ ∀ delivery ∈ setup.log.zipIdx, _))
  | .poll _ | .apply _ | .write | .record | .commit | .crash =>
    inferInstanceAs (Decidable True)

/-- A process is in step, and what the store suppresses from here on is inert. -/
structure Caught (setup : Setup) (s : Pipeline) (process : Process) : Prop where
  inStep : InStep setup process.applicator process.position
  inert : ∀ delivery ∈ setup.log.zipIdx, process.position ≤ delivery.2 →
    delivery.1.eventId ∈ s.recorded → setup.Inert delivery.2

theorem caught_step {setup : Setup} {s t : Pipeline} {action : Action}
    (books : Bookkeeping setup s)
    (caught : ∀ process, s.process = some process → Caught setup s process)
    (remembers : StoreRemembers setup s action) (unchanged : RestartsUnchanged setup s action)
    (taken : setup.step s action = some t) :
    ∀ process, t.process = some process → Caught setup t process := by
  cases setup.stepped taken with
  | start idle =>
    intro process started
    obtain rfl := Option.some.inj started
    exact ⟨⟨unchanged.1.symm, by simp [Setup.freshProcess]⟩, unchanged.2⟩
  | poll live =>
    intro process reading
    obtain ⟨inStep, inert⟩ := caught _ live
    obtain rfl := Option.some.inj reading
    exact ⟨inStep, inert⟩
  | @apply process k final applied live batch =>
    intro next applying
    obtain ⟨inStep, inert⟩ := caught _ live
    have tracked := books.tracked _ live
    obtain rfl := Option.some.inj applying
    have applied_inStep : InStep setup final (process.position + k) := by
      apply inStep.applyBatch _ _ batch
      · intro delivery member known
        obtain ⟨logged, reached, -⟩ := setup.mem_batch.mp member
        exact inert delivery logged reached (books.stored live known)
      · intro delivery member seen
        obtain ⟨nonempty, earlier, logged, before, same⟩ := Setup.exists_of_mem_seen seen
        have accounted := tracked.passed earlier logged before
        rw [Accounted, if_neg (same ▸ nonempty), same] at accounted
        exact books.seen_or_stored live remembers member accounted
    refine ⟨⟨applied_inStep.work, applied_inStep.seen⟩, ?_⟩
    intro delivery member reached recorded
    exact inert delivery member ((Nat.le_add_right _ _).trans reached) recorded
  | write live built =>
    intro process writing
    obtain ⟨inStep, inert⟩ := caught _ live
    obtain rfl := Option.some.inj writing
    exact ⟨inStep, inert⟩
  | @record process live written =>
    intro next recording
    obtain ⟨inStep, inert⟩ := caught _ live
    have tracked := books.tracked _ live
    obtain rfl := Option.some.inj recording
    refine ⟨inStep, fun delivery member reached recorded => ?_⟩
    rcases List.mem_append.mp recorded with old | new
    · exact inert delivery member reached old
    · obtain ⟨waiting, nonempty, -⟩ := mem_newIds.mp new
      have seen := inStep.seen (tracked.unrecorded_seen _ waiting)
      exact Setup.inert_of_seen (List.mem_zipIdx_iff_getElem?.mp member) nonempty
        (Setup.seen_replayTo_mono reached seen)
  | @commit process live drained written recorded =>
    intro next committing
    obtain ⟨-, rfl⟩ : process.loop = .watch ∧ process = next := by simpa using committing
    obtain ⟨inStep, inert⟩ := caught _ live
    exact ⟨inStep, inert⟩
  | crash live => simp

/-- The rows of a process are those that every event up to its position leaves behind. -/
def Recovered (setup : Setup) (s : Pipeline) : Prop :=
  ∀ process ∈ s.process,
    process.applicator.work.sources = (setup.replayTo process.position).work.sources

instance (setup : Setup) (s : Pipeline) : Decidable (Recovered setup s) :=
  inferInstanceAs (Decidable (∀ process ∈ s.process, _))

/-- No event loses its effect along every run whose restarts find the data directory up to date
and whose store remembers what it recorded. -/
theorem recovered_of_reachable (setup : Setup) {s : Pipeline}
    (run : setup.pipeline.ReachableWhere
      (fun s action => StoreRemembers setup s action ∧ RestartsUnchanged setup s action) s) :
    Recovered setup s := by
  have books : ∀ s, setup.pipeline.ReachableWhere
      (fun s action => StoreRemembers setup s action ∧ RestartsUnchanged setup s action) s →
      Bookkeeping setup s :=
    fun s run => .of_reachable run fun _ _ allowed => allowed.1
  have caught : ∀ process, s.process = some process → Caught setup s process := by
    apply run.invariant_using
      (fun s => ∀ process, s.process = some process → Caught setup s process) books
    · rintro s rfl process live
      contradiction
    · intro s action t books caught allowed taken
      exact caught_step books caught allowed.1 allowed.2 taken
  intro process live
  rw [(caught process live).inStep.work]

/-- The log of one work order, its completion after a mere trigger to plan again. -/
def triggerSetup : Setup where
  registry := orderRegistry
  sources := orderSetup.sources
  log := { eventId := "f1", eventType := .forecastUpdated } :: orderSetup.log
  maxIds := 100

/-- A watcher restarts after committing a trigger; the completion still takes the order away. -/
theorem recovered_of_reachable_trigger :
    ∃ s, LabeledSystem.exec
        (fun s action => StoreRemembers triggerSetup s action ∧
          RestartsUnchanged triggerSetup s action)
        triggerSetup.step
        (watchUntilWritten ([.record, .commit, .crash] ++ watchUntilWritten [])) {} = some s ∧
      Recovered triggerSetup s := by
  refine ⟨_, (Option.some_get (by decide +kernel)).symm, ?_⟩
  apply recovered_of_reachable triggerSetup
  exact LabeledSystem.ReachableWhere.exec (.initial rfl) (Option.some_get _).symm

/-- The completed order is back after a restart: its event is committed and not delivered again. -/
theorem completed_order_returns :
    ¬ ∀ (setup : Setup) (s : Pipeline), setup.pipeline.Reachable s → Recovered setup s := by
  intro promised
  have lost : (LabeledSystem.exec (fun _ _ => True) orderSetup.step
      (watchUntilWritten [.record, .commit, .crash, .start .watch 0]) {}).any
        (fun s => ¬ Recovered orderSetup s) := by
    decide +kernel
  obtain ⟨s, executed, different⟩ := (Option.any_eq_true _ _).mp lost
  have same := promised orderSetup s (LabeledSystem.ReachableWhere.exec (.initial rfl) executed)
  exact of_decide_eq_true different same

end FlOp.Stream
