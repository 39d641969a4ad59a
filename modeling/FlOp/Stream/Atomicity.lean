import FlOp.Stream.Corrections
import FlOp.Stream.HandledWork

/-! # Half-applied events

The id of an event is marked before its handler runs, and the watermarks are compared after it.
An event is applied as a whole or not at all exactly if neither of them raises.
-/

namespace FlOp.Stream

open FlOp.Core Library Mapping BindingTable

/-! ## Watermarks -/

section Watermarks

/-- Contracts whose visibility horizon an event advances. -/
def touchedContracts (registry : Registry) (sources : Sources) (event : ExecutionEvent) :
    List String :=
  match event.eventType.entity with
  | some entity => (registry.contractsFor entity sources).map Prod.fst
  | none => ((correctionTarget registry sources event.payload).map Prod.fst).toList

/-- The observed time and the horizons it is compared with are of one kind. -/
def Comparable (registry : Registry) (applicator : EventApplicator) (event : ExecutionEvent) :
    Prop :=
  ∀ observed ∈ registry.primitives.parseTime event.observedAt,
    ∀ c ∈ touchedContracts registry applicator.work.sources event,
      ∀ current ∈ applicator.watermarks.get? c, current.aware = observed.aware

/-- No horizon moves back. -/
def NotLower (before after : Dict String Timestamp) : Prop :=
  ∀ c current, before.get? c = some current → ∃ reached, after.get? c = some reached ∧
    reached.aware = current.aware ∧ current.instant ≤ reached.instant

theorem NotLower.refl (watermarks : Dict String Timestamp) : NotLower watermarks watermarks :=
  fun _ current found => ⟨current, found, rfl, le_rfl⟩

theorem NotLower.trans {a b c : Dict String Timestamp} (first : NotLower a b)
    (second : NotLower b c) : NotLower a c := by
  intro contract current found
  obtain ⟨middle, atMiddle, kind, le⟩ := first contract current found
  obtain ⟨reached, atLast, sameKind, later⟩ := second contract middle atMiddle
  exact ⟨reached, atLast, sameKind.trans kind, le.trans later⟩

/-- Advancing one horizon raises for times of two kinds and otherwise moves it on. -/
private theorem bumpWatermark_spec (watermarks : Dict String Timestamp) (contractId : String)
    (observed : Timestamp) :
    match bumpWatermark watermarks contractId observed with
    | .ok advanced => NotLower watermarks advanced ∧
        (∀ current ∈ watermarks.get? contractId, current.aware = observed.aware) ∧
        ∀ c reached, advanced.get? c = some reached →
          watermarks.get? c = some reached ∨ reached = observed
    | .error _ => ∃ current ∈ watermarks.get? contractId, current.aware ≠ observed.aware := by
  unfold bumpWatermark
  cases known : watermarks.get? contractId with
  | none =>
    refine ⟨fun c current found => ?_, by simp, fun c reached found => ?_⟩
    · have other : c ≠ contractId := by
        rintro rfl
        rw [known] at found
        cases found
      exact ⟨current, by rw [Dict.get?_set, if_neg other, found], rfl, le_rfl⟩
    · rw [Dict.get?_set] at found
      split_ifs at found
      · exact .inr (Option.some.inj found).symm
      · exact .inl found
  | some current =>
    dsimp only
    by_cases mixed : current.aware ≠ observed.aware
    · rw [if_pos mixed]
      exact ⟨current, rfl, mixed⟩
    · rw [if_neg mixed]
      have kind := not_not.mp mixed
      by_cases later : current.instant < observed.instant
      · rw [if_pos later]
        refine ⟨fun c old found => ?_, by simpa using kind, fun c reached found => ?_⟩
        · by_cases here : c = contractId
          · subst here
            obtain rfl := Option.some.inj (known.symm.trans found)
            exact ⟨observed, by rw [Dict.get?_set, if_pos rfl], kind.symm, later.le⟩
          · exact ⟨old, by rw [Dict.get?_set, if_neg here, found], rfl, le_rfl⟩
        · rw [Dict.get?_set] at found
          split_ifs at found
          · exact .inr (Option.some.inj found).symm
          · exact .inl found
      · rw [if_neg later]
        exact ⟨.refl _, by simpa using kind, fun c reached found => .inl found⟩

/-- Horizons advance in turn exactly if the time can be compared with each of them. -/
private theorem bumpWatermarks_spec (observed : Timestamp) (contracts : List String)
    (watermarks : Dict String Timestamp) :
    NotLower watermarks (bumpWatermarks observed contracts watermarks).1 ∧
      ((bumpWatermarks observed contracts watermarks).2 = .ok () ↔
        ∀ c ∈ contracts, ∀ current ∈ watermarks.get? c, current.aware = observed.aware) := by
  induction contracts generalizing watermarks with
  | nil => exact ⟨.refl _, by simp [bumpWatermarks]⟩
  | cons first rest ih =>
    have spec := bumpWatermark_spec watermarks first observed
    unfold bumpWatermarks
    cases bumped : bumpWatermark watermarks first observed with
    | error raised =>
      rw [bumped] at spec
      obtain ⟨current, found, mixed⟩ := spec
      refine ⟨.refl _, iff_of_false (fun ends => by cases ends) fun same => mixed ?_⟩
      exact same first List.mem_cons_self current found
    | ok advanced =>
      rw [bumped] at spec
      obtain ⟨notLower, here, origin⟩ := spec
      obtain ⟨later, outcome⟩ := ih advanced
      refine ⟨notLower.trans later, outcome.trans ?_⟩
      rw [List.forall_mem_cons]
      constructor
      · intro same
        refine ⟨here, fun c member current found => ?_⟩
        obtain ⟨reached, now, kind, -⟩ := notLower c current found
        rw [← kind]
        exact same c member reached now
      · rintro ⟨-, same⟩ c member reached found
        rcases origin c reached found with old | rfl
        · exact same c member reached old
        · rfl

end Watermarks

/-! ## Handlers that raise -/

/-- The shapes an event's pass depends on can be read: that of the pass, and for a usable first
pass also the work area of its task. -/
def Readable (registry : Registry) (work : WorkState) (event : ExecutionEvent) : Prop :=
  ∀ taskId ∈ progressTarget registry work.sources event, hasCoveragePayload event.payload = true →
    ∃ pass, passRingFromPayload registry.primitives event.payload = .ok pass ∧
      (pass.isSome → work.coverage.get? taskId = none →
        ∃ captured, captureWorkState registry work.sources taskId = .ok captured)

theorem countedEntry_isOk_iff {registry : Registry} {work : WorkState} {event : ExecutionEvent} :
    (∃ entry, countedEntry registry work event = .ok entry) ↔ Readable registry work event := by
  unfold countedEntry Readable
  cases progressTarget registry work.sources event with
  | none => simp
  | some taskId =>
    simp only [Option.mem_some_iff, forall_eq', passEntry]
    split_ifs with geometry
    · simp only [geometry, true_imp_iff]
      cases passRingFromPayload registry.primitives event.payload with
      | error raised => simp [Except.bind]
      | ok pass =>
        cases pass with
        | none => simp [Except.bind]
        | some ring =>
          simp only [Except.bind, openEntry]
          cases work.coverage.get? taskId with
          | some entry => simp [Except.map]
          | none =>
            cases captureWorkState registry work.sources taskId <;> simp [Except.map]
    · simp [geometry]

/-! ## All or nothing -/

/-- What an event that is applied leaves behind: its effect, its id and no lower watermark. -/
structure AppliedWhole (registry : Registry) (event : ExecutionEvent)
    (before after : EventApplicator) : Prop where
  effect : ∃ effect, handle registry before.work event = .ok effect ∧ after.work = effect.work
  marked : event.eventId ∈ after.seenEventIds
  watermarks : NotLower before.watermarks after.watermarks

/-- What an event that raises leaves behind: the rows, the seen ids and the watermarks it met. -/
structure Untouched (before after : EventApplicator) : Prop where
  sources : after.work.sources = before.work.sources
  seen : after.seenEventIds = before.seenEventIds
  watermarks : after.watermarks = before.watermarks

/-- An event is applied as a whole, skipped or refused, and the same event again is skipped. -/
structure AllOrNothing (registry : Registry) (published : List String)
    (applicator : EventApplicator) (event : ExecutionEvent) : Prop where
  outcome : match applicator.apply registry published event with
    | (next, .ok true) => AppliedWhole registry event applicator next
    | (next, .ok false) => next = applicator
    | (next, .error _) => Untouched applicator next
  again : let next := (applicator.apply registry published event).1
    next.apply registry published event = (next, .ok false)

/-- The contracts an event touches are known before it is handled. -/
private theorem advanceWatermarks_eq {registry : Registry} {work : WorkState}
    {event : ExecutionEvent} {effect : Effect} (handled : handle registry work event = .ok effect)
    (watermarks : Dict String Timestamp) :
    advanceWatermarks registry watermarks effect event =
      match registry.primitives.parseTime event.observedAt with
      | some observed =>
        bumpWatermarks observed (touchedContracts registry work.sources event) watermarks
      | none => (watermarks, .ok ()) := by
  have after : handledWork registry work event = .ok effect.work := by
    rw [← handle_map_work, handled]
    rfl
  unfold advanceWatermarks touchedContracts
  cases kind : event.eventType with
  | entityCorrected =>
    simp only [handle, kind, upsertEntity_eq, Except.ok.injEq] at handled
    rw [← handled]
    cases correctionTarget registry work.sources event.payload <;> rfl
  | taskStarted | taskProgress | taskCompleted | orderCreated | orderCancelled
  | assetUnavailable | forecastUpdated | observationRecorded | inventoryAdjusted =>
    cases registry.primitives.parseTime event.observedAt with
    | none => rfl
    | some observed =>
      dsimp only [EventType.entity]
      rw [contractsFor_congr (keys_handledWork after)]

private theorem advanceWatermarks_spec {registry : Registry} {applicator : EventApplicator}
    {event : ExecutionEvent} {effect : Effect}
    (handled : handle registry applicator.work event = .ok effect) :
    NotLower applicator.watermarks
        (advanceWatermarks registry applicator.watermarks effect event).1 ∧
      ((advanceWatermarks registry applicator.watermarks effect event).2 = .ok () ↔
        Comparable registry applicator event) := by
  rw [advanceWatermarks_eq handled]
  unfold Comparable
  cases registry.primitives.parseTime event.observedAt with
  | none => exact ⟨.refl _, by simp⟩
  | some observed =>
    simp only [Option.mem_some_iff, forall_eq']
    exact bumpWatermarks_spec observed _ _

section Outcome

variable {registry : Registry} {published : List String} {applicator : EventApplicator}
  {event : ExecutionEvent}

/-- A skipped event is skipped again. -/
private theorem allOrNothing_of_replayed
    (replayed : Replayed applicator.seenEventIds published event) :
    AllOrNothing registry published applicator event := by
  have skipped : applicator.apply registry published event = (applicator, .ok false) := by
    rw [EventApplicator.apply, if_pos replayed]
  refine ⟨?_, ?_⟩
  · rw [skipped]
  · rw [skipped]
    exact skipped

/-- The id of a fresh event is marked before anything can raise. -/
private theorem seen_apply (fresh : ¬ Replayed applicator.seenEventIds published event) :
    (applicator.apply registry published event).1.seenEventIds =
      if event.eventId = "" then applicator.seenEventIds
      else insert event.eventId applicator.seenEventIds := by
  rw [EventApplicator.apply, if_neg fresh]
  cases handle registry applicator.work event <;> rfl

/-- What applying a fresh event returns. -/
private theorem outcome_apply (fresh : ¬ Replayed applicator.seenEventIds published event) :
    (applicator.apply registry published event).2 = .ok true ↔
      Readable registry applicator.work event ∧ Comparable registry applicator event := by
  rw [← countedEntry_isOk_iff, ← handledWork_isOk_iff, ← handle_map_work, EventApplicator.apply,
    if_neg fresh]
  cases handled : handle registry applicator.work event with
  | error raised => simp [Except.map]
  | ok effect =>
    obtain ⟨-, compared⟩ := advanceWatermarks_spec handled
    rw [← compared]
    cases advanced : (advanceWatermarks registry applicator.watermarks effect event).2 with
    | error raised => simp [Except.map, advanced]
    | ok _ => simp [Except.map, advanced]

/-- An event that was not seen and raises has marked its id all the same. -/
private theorem not_untouched (registry : Registry)
    (fresh : ¬ Replayed applicator.seenEventIds published event) (identified : event.eventId ≠ "") :
    ¬ Untouched applicator (applicator.apply registry published event).1 := by
  intro untouched
  have seen := untouched.seen
  rw [seen_apply fresh, if_neg identified, Finset.insert_eq_self] at seen
  exact fresh ⟨identified, .inl seen⟩

/-- A fresh event that raises is not applied all or nothing. -/
private theorem not_allOrNothing (fresh : ¬ Replayed applicator.seenEventIds published event)
    (raises : (applicator.apply registry published event).2 ≠ .ok true) :
    ¬ AllOrNothing registry published applicator event := by
  rintro ⟨outcome, again⟩
  have identified : event.eventId ≠ "" := by
    obtain ⟨-, skipped, -⟩ | ⟨called, -⟩ := EventApplicator.apply_cases again
    · exact skipped.1
    · cases called
  have untouched := not_untouched registry fresh identified
  cases called : applicator.apply registry published event with
  | mk next returned =>
    rw [called] at outcome untouched raises
    cases returned with
    | error raised => exact untouched outcome
    | ok applied =>
      cases applied with
      | true => exact raises rfl
      | false => exact untouched (by rw [outcome]; exact ⟨rfl, rfl, rfl⟩)

end Outcome

/-- Times that end in `Z` have an offset. -/
def clockRegistry : Registry where
  tables := Dict.empty.set "orders" {
    canonicalEntity := "task"
    bindings := [
      { sourceField := "order_id", binding := "task.taskId", planningUse := ["identity"] },
      { sourceField := "status", binding := "task.status" }] }
  primitives :=
    { plainPrimitives with
      parseTime := fun time => some ⟨0, time = "2026-05-01T08:00:00Z"⟩ }

def openOrders : EventApplicator where
  work := {
    sources := Dict.empty.set "orders"
      [Dict.empty.set "order_id" (.text "o1"), Dict.empty.set "order_id" (.text "o2")] }

/-- Two orders, of which the first has been started at a time with an offset. -/
def startedOrders : EventApplicator :=
  (openOrders.apply clockRegistry [] {
    eventId := "s1"
    eventType := .taskStarted
    entityRef := "o1"
    observedAt := "2026-05-01T08:00:00Z" }).1

end FlOp.Stream
