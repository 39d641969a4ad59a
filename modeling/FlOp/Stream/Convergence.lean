import FlOp.Library.Batches
import FlOp.Library.Fallible
import FlOp.Stream.Apply

/-! # Sessions and the convergence window

A session drains polls of events. Events of a poll whose observed times are close are applied
together, and a batch that applied something is replanned once. The window and the polls decide
how often is replanned; what is applied, and what the last revision was built from, they do not.
-/

namespace FlOp.Stream.Convergence

open Library Batches

/-- What a session takes from outside: contracts, snapshot builder and adapter, and how a time
difference is rounded to a float. -/
structure StreamDriver (σ π ρ : Type*) where
  registry : Registry
  buildFromSources : Sources → Timestamp → String → Option (Dict String Timestamp) → σ
  plan : σ → Timestamp → Option (π × ρ) → π
  serviceReasons : σ → ρ
  totalSeconds : ℚ → ℚ

/-- A revision of a session; the last three fields are kept for statements. -/
structure StreamRevision (σ π : Type*) where
  event : Option ExecutionEvent
  plan : π
  nCoalescedEvents : ℕ := 1
  appliedEventIds : List String := []
  snapshot : σ
  now : Timestamp
  builtFrom : Sources × Dict String Timestamp

/-- A session between two polls, with the logs it writes; the previous plan and its service
reasons are set together. -/
structure StreamSession (π ρ : Type*) where
  effectiveAt : Timestamp
  applicator : EventApplicator
  /-- The ids in the dedup store. -/
  published : List String := []
  previous : Option (π × ρ) := none
  completionLog : List (Completion × Option π) := []
  coverageLog : List CoverageReport := []

namespace StreamDriver

variable {σ π ρ : Type*} (driver : StreamDriver σ π ρ)

/-- `_event_now`. -/
def eventNow (event : ExecutionEvent) (fallback : Timestamp) : Timestamp :=
  if event.observedAt = "" then fallback
  else (driver.registry.primitives.parseTime event.observedAt).getD fallback

/-- The time between two events in seconds; mixed kinds of times cannot be subtracted. -/
def gap (later earlier : Timestamp) : Except Raised ℚ :=
  if later.aware = earlier.aware then .ok (driver.totalSeconds (later.instant - earlier.instant))
  else .error .typeError

/-- Put the rest of the events into the current batch or the next ones. -/
def coalesceFrom (windowS : ℚ) (fallback : Timestamp) :
    List ExecutionEvent → ExecutionEvent → List ExecutionEvent →
      Except Raised (List (List ExecutionEvent))
  | current, _, [] => .ok [current]
  | current, last, event :: rest =>
    (driver.gap (driver.eventNow event fallback) (driver.eventNow last fallback)).bind fun gap =>
      if |gap| ≤ windowS then coalesceFrom windowS fallback (current ++ [event]) event rest
      else (coalesceFrom windowS fallback [event] event rest).map (current :: ·)

/-- `_coalesce`. -/
def coalesce (events : List ExecutionEvent) (windowS : ℚ) (fallback : Timestamp) :
    Except Raised (List (List ExecutionEvent)) :=
  if windowS ≤ 0 then .ok (events.map fun event => [event])
  else
    match events with
    | [] => .ok []
    | first :: rest => driver.coalesceFrom windowS fallback [first] first rest

/-- Apply one event; no result where the handler raises. -/
def applyEvent (published : List String) (applicator : EventApplicator) (event : ExecutionEvent) :
    Option (EventApplicator × Bool) :=
  match applicator.apply driver.registry published event with
  | (next, .ok applied) => some (next, applied)
  | (_, .error _) => none

/-- The non-empty ids of the events that were applied. -/
def appliedIds (batch : List ExecutionEvent) (applied : List Bool) : List String :=
  ((batch.zip applied).filter fun pair => pair.2 ∧ pair.1.eventId ≠ "").map
    fun pair => pair.1.eventId

/-- `_baseline` and `StreamSession.start`. -/
def start (session : StreamSession π ρ) : StreamRevision σ π × StreamSession π ρ :=
  let sources := session.applicator.work.sources
  let snapshot := driver.buildFromSources sources session.effectiveAt "stream://initial" none
  let plan := driver.plan snapshot session.effectiveAt none
  ({ event := none
     plan := plan
     snapshot := snapshot
     now := session.effectiveAt
     builtFrom := (sources, session.applicator.watermarks) },
    { session with previous := some (plan, driver.serviceReasons snapshot) })

section Drain

-- what `on_revision` makes of the dedup store
variable (onRevision : List String → StreamRevision σ π → List String)

/-- One batch of `StreamSession.drain`. -/
def drainBatch (session : StreamSession π ρ) (batch : List ExecutionEvent) :
    Option (StreamSession π ρ × List (StreamRevision σ π)) :=
  (runBatch (driver.applyEvent session.published) session.applicator batch).map
    fun (applicator, applied) =>
      let drained := { session with
        applicator := { applicator with completions := [], coverageReports := [] }
        completionLog := session.completionLog ++ applicator.completions.map
          fun completion => (completion, session.previous.map Prod.fst)
        coverageLog := session.coverageLog ++ applicator.coverageReports }
      match batch.getLast? with
      | some lastEvent =>
        if true ∈ applied then
          let snapshot := driver.buildFromSources applicator.work.sources session.effectiveAt
            ("stream://" ++ lastEvent.eventId) (some applicator.watermarks)
          let now := driver.eventNow lastEvent session.effectiveAt
          let plan := driver.plan snapshot now session.previous
          let revision : StreamRevision σ π :=
            { event := some lastEvent
              plan := plan
              nCoalescedEvents := applied.count true
              appliedEventIds := appliedIds batch applied
              snapshot := snapshot
              now := now
              builtFrom := (applicator.work.sources, applicator.watermarks) }
          ({ drained with
              previous := some (plan, driver.serviceReasons snapshot)
              published := onRevision session.published revision },
            [revision])
        else (drained, [])
      | none => (drained, [])

def drainBatches : StreamSession π ρ → List (List ExecutionEvent) →
    Option (StreamSession π ρ × List (StreamRevision σ π))
  | session, [] => some (session, [])
  | session, batch :: rest =>
    (driver.drainBatch onRevision session batch).bind fun (next, revisions) =>
      (drainBatches next rest).map fun (final, later) => (final, revisions ++ later)

/-- `StreamSession.drain`; no result where it raises, as it does before `start`. -/
def drain (windowS : ℚ) (session : StreamSession π ρ) (events : List ExecutionEvent) :
    Option (StreamSession π ρ × List (StreamRevision σ π)) :=
  if session.previous.isNone then none
  else
    match driver.coalesce events windowS session.effectiveAt with
    | .ok batches => driver.drainBatches onRevision session batches
    | .error _ => none

/-- The polls of a watcher, one after the other; a rolling run has one. -/
def drainAll (windowS : ℚ) : StreamSession π ρ → List (List ExecutionEvent) →
    Option (StreamSession π ρ × List (StreamRevision σ π))
  | session, [] => some (session, [])
  | session, events :: rest =>
    (driver.drain onRevision windowS session events).bind fun (next, revisions) =>
      (drainAll windowS next rest).map fun (final, later) => (final, revisions ++ later)

end Drain

/-! ## Batches of a poll -/

section Coalescing

variable {driver} {windowS wider : ℚ} {fallback : Timestamp} {events : List ExecutionEvent}
  {batches : List (List ExecutionEvent)}

/-- An event converges with the one before it. -/
def joins (driver : StreamDriver σ π ρ) (windowS : ℚ) (fallback : Timestamp)
    (earlier later : ExecutionEvent) : Bool :=
  match driver.gap (driver.eventNow later fallback) (driver.eventNow earlier fallback) with
  | .ok gap => decide (0 < windowS ∧ |gap| ≤ windowS)
  | .error _ => false

theorem joins_mono (longer : windowS ≤ wider) {earlier later : ExecutionEvent}
    (joined : driver.joins windowS fallback earlier later = true) :
    driver.joins wider fallback earlier later = true := by
  rw [joins] at joined ⊢
  split at joined
  · obtain ⟨positive, within⟩ := of_decide_eq_true joined
    exact decide_eq_true ⟨positive.trans_le longer, within.trans longer⟩
  · cases joined

theorem coalesceFrom_eq (positive : 0 < windowS) {current : List ExecutionEvent}
    {last : ExecutionEvent} (ends : current.getLast? = some last)
    (chain : current.IsChain fun a b => driver.joins windowS fallback a b)
    (made : driver.coalesceFrom windowS fallback current last events = .ok batches) :
    batches = (current ++ events).splitBy (driver.joins windowS fallback) := by
  have filled : current ≠ [] := fun empty => by simp [empty] at ends
  induction events generalizing current last batches with
  | nil =>
    rw [List.append_nil, List.splitBy_of_isChain filled chain]
    exact (Except.ok.inj made).symm
  | cons event rest ih =>
    rw [coalesceFrom] at made
    cases between : driver.gap (driver.eventNow event fallback) (driver.eventNow last fallback) with
    | error raised =>
      rw [between] at made
      cases made
    | ok gap =>
      rw [between, Except.bind] at made
      have joined : driver.joins windowS fallback last event = decide (|gap| ≤ windowS) := by
        simp [joins, between, positive]
      by_cases within : |gap| ≤ windowS
      · rw [if_pos within] at made
        have linked : (current ++ [event]).IsChain
            fun a b => driver.joins windowS fallback a b := by
          refine List.isChain_append.mpr ⟨chain, List.isChain_singleton event, ?_⟩
          intro x isLast y isFirst
          obtain rfl := Option.some.inj (ends.symm.trans isLast)
          obtain rfl := Option.some.inj isFirst
          rw [joined]
          exact decide_eq_true within
        have whole := ih List.getLast?_concat linked made
          (List.append_ne_nil_of_left_ne_nil filled _)
        rwa [List.append_assoc] at whole
      · rw [if_neg within] at made
        obtain ⟨later, followed, rfl⟩ := Fallible.map_eq_ok.mp made
        have cut : ∀ x ∈ current.getLast?, driver.joins windowS fallback x event = false := by
          intro x isLast
          obtain rfl := Option.some.inj (ends.symm.trans isLast)
          rw [joined]
          exact decide_eq_false within
        rw [List.splitBy_append_cons rest cut, List.splitBy_of_isChain filled chain,
          ih rfl (List.isChain_singleton event) followed (List.cons_ne_nil event [])]
        rfl

/-- Where nothing is joined every event is a batch of its own. -/
theorem splitBy_apart {α : Type*} {r : α → α → Bool} (apart : ∀ a b, r a b = false)
    (items : List α) : items.splitBy r = items.map fun item => [item] := by
  induction items with
  | nil => rfl
  | cons item rest ih =>
    have cut := List.splitBy_append (l := [item]) (m := rest) fun x _ y _ => apart x y
    rw [List.singleton_append, ih, List.splitBy_of_isChain (List.cons_ne_nil item [])
      (List.isChain_singleton item)] at cut
    exact cut

/-- Coalescing cuts the events of a poll exactly where one does not converge with the last. -/
theorem coalesce_eq (made : driver.coalesce events windowS fallback = .ok batches) :
    batches = events.splitBy (driver.joins windowS fallback) := by
  unfold coalesce at made
  by_cases positive : windowS ≤ 0
  · rw [if_pos positive] at made
    have apart (a b : ExecutionEvent) : driver.joins windowS fallback a b = false := by
      rw [joins]
      split
      · exact decide_eq_false fun both => absurd both.1 (not_lt.mpr positive)
      · rfl
    rw [splitBy_apart apart]
    exact (Except.ok.inj made).symm
  · rw [if_neg positive] at made
    cases events with
    | nil => exact (Except.ok.inj made).symm
    | cons first rest =>
      exact coalesceFrom_eq (not_le.mp positive) rfl (List.isChain_singleton first) made

end Coalescing

/-! ## Applying events -/

section Applying

variable {driver} {store published : List String} {applicator next : EventApplicator}
  {event : ExecutionEvent} {batch : List ExecutionEvent} {flag : Bool} {applied : List Bool}

/-- A store that was only told of events this session applied. -/
structure Told (published store : List String) (seen : Finset String) : Prop where
  keeps : ∀ id ∈ published, id ∈ store
  only : ∀ id ∈ store, id ∈ published ∨ id ∈ seen

theorem Told.mono {seen more : Finset String} (told : Told published store seen)
    (grows : seen ⊆ more) : Told published store more where
  keeps := told.keeps
  only id member := (told.only id member).imp_right fun old => grows old

/-- What a session tells the store of does not decide on later events. -/
theorem Told.applyEvent (told : Told published store applicator.seenEventIds) :
    driver.applyEvent store applicator event = driver.applyEvent published applicator event := by
  have same : Replayed applicator.seenEventIds store event ↔
      Replayed applicator.seenEventIds published event := by
    refine and_congr_right fun _ => ⟨?_, ?_⟩
    · rintro (seen | stored)
      · exact .inl seen
      · exact (told.only _ stored).symm
    · rintro (seen | stored)
      · exact .inl seen
      · exact .inr (told.keeps _ stored)
  rw [StreamDriver.applyEvent, StreamDriver.applyEvent, EventApplicator.apply,
    EventApplicator.apply]
  simp only [same]

theorem applyEvent_eq_some :
    driver.applyEvent published applicator event = some (next, flag) ↔
      applicator.apply driver.registry published event = (next, .ok flag) := by
  rw [applyEvent]
  cases called : applicator.apply driver.registry published event with
  | mk final outcome =>
    cases outcome with
    | error raised => simp
    | ok done => simp

/-- An event that is not applied changes nothing. -/
theorem quiet_applyEvent : Quiet (driver.applyEvent published) := by
  intro applicator event next returned
  obtain ⟨-, -, same⟩ | ⟨absurdity, -⟩ :=
    EventApplicator.apply_cases (applyEvent_eq_some.mp returned)
  · exact same
  · cases absurdity

theorem seen_applyEvent
    (returned : driver.applyEvent published applicator event = some (next, flag)) :
    applicator.seenEventIds ⊆ next.seenEventIds ∧
      (flag = true → event.eventId ≠ "" → event.eventId ∈ next.seenEventIds) := by
  obtain ⟨rfl, -, rfl⟩ | ⟨-, -, seen, -⟩ :=
    EventApplicator.apply_cases (applyEvent_eq_some.mp returned)
  · exact ⟨Finset.Subset.refl _, fun absurdity => by cases absurdity⟩
  · exact ⟨fun id old => (seen id).mpr (.inl old), fun _ named => (seen _).mpr (.inr ⟨named, rfl⟩)⟩

theorem seen_runBatch (ran : runBatch (driver.applyEvent published) applicator batch =
      some (next, applied)) :
    applicator.seenEventIds ⊆ next.seenEventIds ∧
      ∀ id ∈ appliedIds batch applied, id ∈ next.seenEventIds := by
  induction batch generalizing applicator applied with
  | nil =>
    obtain ⟨rfl, rfl⟩ := Prod.mk.inj (Option.some.inj ran)
    exact ⟨Finset.Subset.refl _, by simp [appliedIds]⟩
  | cons event rest ih =>
    obtain ⟨middle, flag, flags, stepped, later, rfl⟩ := runBatch_cons_eq_some.mp ran
    obtain ⟨grows, here⟩ := seen_applyEvent stepped
    obtain ⟨keeps, others⟩ := ih later
    refine ⟨grows.trans keeps, fun id member => ?_⟩
    simp only [appliedIds, List.zip_cons_cons, List.mem_map, List.mem_filter, List.mem_cons,
      decide_eq_true_eq] at member
    obtain ⟨pair, ⟨rfl | later, changed, named⟩, rfl⟩ := member
    · exact keeps (here changed named)
    · refine others _ ?_
      simp only [appliedIds, List.mem_map, List.mem_filter, decide_eq_true_eq]
      exact ⟨pair, ⟨later, changed, named⟩, rfl⟩

theorem appliedIds_append {more : List ExecutionEvent} {flags : List Bool}
    (length : applied.length = batch.length) :
    appliedIds (batch ++ more) (applied ++ flags) =
      appliedIds batch applied ++ appliedIds more flags := by
  rw [appliedIds, List.zip_append length.symm, List.filter_append, List.map_append]
  rfl

theorem appliedIds_of_unchanged (unchanged : true ∉ applied) : appliedIds batch applied = [] := by
  rw [appliedIds, List.map_eq_nil_iff, List.filter_eq_nil_iff]
  intro pair member both
  exact unchanged ((of_decide_eq_true both).1 ▸ (List.of_mem_zip member).2)

theorem Told.runBatch (told : Told published store applicator.seenEventIds) :
    runBatch (driver.applyEvent store) applicator batch =
      runBatch (driver.applyEvent published) applicator batch := by
  induction batch generalizing applicator with
  | nil => rfl
  | cons event rest ih =>
    rw [Batches.runBatch, Batches.runBatch, told.applyEvent]
    cases stepped : driver.applyEvent published applicator event with
    | none => rfl
    | some pair =>
      obtain ⟨next, flag⟩ := pair
      rw [Option.bind_some, Option.bind_some]
      dsimp only
      rw [ih (told.mono (seen_applyEvent stepped).1)]

/-- What was collected earlier stands before what is collected now. -/
def prepend (completions : List Completion) (reports : List CoverageReport)
    (applicator : EventApplicator) : EventApplicator :=
  { applicator with
    completions := completions ++ applicator.completions
    coverageReports := reports ++ applicator.coverageReports }

variable (completions : List Completion) (reports : List CoverageReport)

@[simp] theorem prepend_work :
    (prepend completions reports applicator).work = applicator.work := rfl

@[simp] theorem prepend_seenEventIds :
    (prepend completions reports applicator).seenEventIds = applicator.seenEventIds := rfl

@[simp] theorem prepend_watermarks :
    (prepend completions reports applicator).watermarks = applicator.watermarks := rfl

/-- Applying an event only adds to what was collected. -/
theorem applyEvent_prepend :
    driver.applyEvent published (prepend completions reports applicator) event =
      (driver.applyEvent published applicator event).map fun (next, flag) =>
        (prepend completions reports next, flag) := by
  rw [applyEvent, applyEvent, EventApplicator.apply, EventApplicator.apply, prepend_work,
    prepend_seenEventIds, prepend_watermarks]
  by_cases replayed : Replayed applicator.seenEventIds published event
  · rw [if_pos replayed, if_pos replayed]
    rfl
  · rw [if_neg replayed, if_neg replayed]
    cases handled : handle driver.registry applicator.work event with
    | error raised => simp [prepend]
    | ok effect =>
      cases advanced : (advanceWatermarks driver.registry applicator.watermarks effect event).2 with
      | error raised => simp [prepend, advanced, Except.map]
      | ok _ => simp [prepend, advanced, Except.map, List.append_assoc]

theorem runBatch_prepend :
    runBatch (driver.applyEvent published) (prepend completions reports applicator) batch =
      (runBatch (driver.applyEvent published) applicator batch).map fun (next, applied) =>
        (prepend completions reports next, applied) := by
  induction batch generalizing applicator with
  | nil => rfl
  | cons event rest ih =>
    rw [Batches.runBatch, Batches.runBatch, applyEvent_prepend]
    cases driver.applyEvent published applicator event with
    | none => rfl
    | some pair =>
      obtain ⟨next, flag⟩ := pair
      rw [Option.map_some, Option.bind_some, Option.bind_some]
      dsimp only
      rw [ih, Option.map_map, Option.map_map]
      rfl

end Applying

/-! ## Sessions -/

section Sessions

variable {driver} {onRevision : List String → StreamRevision σ π → List String}
  {published : List String} {session next final : StreamSession π ρ} {windowS : ℚ}
  {batch : List ExecutionEvent} {batches polls : List (List ExecutionEvent)}
  {revisions : List (StreamRevision σ π)}

/-- All that a session applied and collected, also what has gone to the logs. -/
def soFar (session : StreamSession π ρ) : EventApplicator :=
  prepend (session.completionLog.map Prod.fst) session.coverageLog session.applicator

/-- `on_revision` keeps what the store holds and adds at most the ids of the revision. -/
def Records (onRevision : List String → StreamRevision σ π → List String) : Prop :=
  ∀ store revision, (∀ id ∈ store, id ∈ onRevision store revision) ∧
    ∀ id ∈ onRevision store revision, id ∈ store ∨ id ∈ revision.appliedEventIds

/-- Every revision is planned on the one before it. -/
def Continuous (driver : StreamDriver σ π ρ) :
    Option (π × ρ) → List (StreamRevision σ π) → Prop
  | _, [] => True
  | previous, revision :: rest =>
    revision.plan = driver.plan revision.snapshot revision.now previous ∧
      Continuous driver (some (revision.plan, driver.serviceReasons revision.snapshot)) rest

/-- What the revision of a batch is: built from what the batch left, and known by its events. -/
structure Rebuilt (driver : StreamDriver σ π ρ) (session next : StreamSession π ρ)
    (batch : List ExecutionEvent) (applied : List Bool) (revision : StreamRevision σ π) : Prop where
  event : ∃ last, batch.getLast? = some last ∧ revision.event = some last ∧
    revision.now = driver.eventNow last session.effectiveAt ∧
    revision.snapshot = driver.buildFromSources revision.builtFrom.1 session.effectiveAt
      ("stream://" ++ last.eventId) (some revision.builtFrom.2)
  builtFrom : revision.builtFrom = (next.applicator.work.sources, next.applicator.watermarks)
  plan : revision.plan = driver.plan revision.snapshot revision.now session.previous
  previous : next.previous = some (revision.plan, driver.serviceReasons revision.snapshot)
  ids : revision.appliedEventIds = appliedIds batch applied
  count : revision.nCoalescedEvents = applied.count true

theorem drainBatch_spec (records : Records onRevision)
    (told : Told published session.published session.applicator.seenEventIds)
    (ran : driver.drainBatch onRevision session batch = some (next, revisions)) :
    ∃ applied, runBatch (driver.applyEvent published) (soFar session) batch =
        some (soFar next, applied) ∧
      Told published next.published next.applicator.seenEventIds ∧
      next.effectiveAt = session.effectiveAt ∧
      (true ∉ applied ∧ revisions = [] ∧ next.previous = session.previous ∨
        true ∈ applied ∧ ∃ revision, revisions = [revision] ∧
          Rebuilt driver session next batch applied revision) := by
  rw [drainBatch, told.runBatch] at ran
  obtain ⟨⟨applicator, applied⟩, batched, same⟩ := Option.map_eq_some_iff.mp ran
  obtain ⟨grows, marked⟩ := seen_runBatch batched
  have whole : runBatch (driver.applyEvent published) (soFar session) batch =
      some (prepend (session.completionLog.map Prod.fst) session.coverageLog applicator,
        applied) := by
    rw [soFar, runBatch_prepend, batched]
    rfl
  have logged (previous : Option π) :
      prepend ((session.completionLog ++ applicator.completions.map
          fun completion => (completion, previous)).map Prod.fst)
        (session.coverageLog ++ applicator.coverageReports)
        { applicator with completions := [], coverageReports := [] } =
      prepend (session.completionLog.map Prod.fst) session.coverageLog applicator := by
    simp [prepend, Function.comp_def]
  cases ends : batch.getLast? with
  | none =>
    obtain rfl := List.getLast?_eq_none_iff.mp ends
    obtain ⟨rfl, rfl⟩ := Prod.mk.inj (Option.some.inj batched)
    obtain ⟨rfl, rfl⟩ := Prod.mk.inj same
    refine ⟨[], whole.trans ?_, told, rfl, .inl ⟨List.not_mem_nil, rfl, rfl⟩⟩
    exact congrArg some (Prod.ext (logged _).symm rfl)
  | some last =>
    rw [ends] at same
    dsimp only at same
    by_cases moved : true ∈ applied
    · rw [if_pos moved] at same
      obtain ⟨rfl, rfl⟩ := Prod.mk.inj same
      refine ⟨applied, whole.trans (congrArg some (Prod.ext (logged _).symm rfl)), ?_, rfl,
        .inr ⟨moved, _, rfl, ⟨last, ends, rfl, rfl, rfl⟩, rfl, rfl, rfl, rfl, rfl⟩⟩
      obtain ⟨keeps, only⟩ := records session.published _
      refine ⟨fun id member => keeps id (told.keeps id member), fun id member => ?_⟩
      obtain stored | here := only id member
      · exact (told.only id stored).imp_right fun old => grows old
      · exact .inr (marked id here)
    · rw [if_neg moved] at same
      obtain ⟨rfl, rfl⟩ := Prod.mk.inj same
      exact ⟨applied, whole.trans (congrArg some (Prod.ext (logged _).symm rfl)), told.mono grows,
        rfl, .inl ⟨moved, rfl, rfl⟩⟩

/-- The data a revision would be built from. -/
def dataOf (applicator : EventApplicator) : Sources × Dict String Timestamp :=
  (applicator.work.sources, applicator.watermarks)

/-- What a session has drained: everything as if the events came one by one, with a revision for
each batch that applied something. -/
structure Drained (driver : StreamDriver σ π ρ) (published : List String)
    (session final : StreamSession π ρ) (batches : List (List ExecutionEvent))
    (revisions : List (StreamRevision σ π)) : Prop where
  told : Told published final.published final.applicator.seenEventIds
  checkpoints : ∃ states, Batches.checkpoints (driver.applyEvent published) (soFar session)
    batches = some (soFar final, states) ∧ revisions.map (·.builtFrom) = states.map dataOf
  applied : ∃ flags, runBatch (driver.applyEvent published) (soFar session) batches.flatten =
      some (soFar final, flags) ∧
    revisions.flatMap (·.appliedEventIds) = appliedIds batches.flatten flags ∧
    (revisions.map (·.nCoalescedEvents)).sum = flags.count true
  continuous : Continuous driver session.previous revisions
  built : ∀ revision ∈ revisions, ∃ last, revision.event = some last ∧
    revision.now = driver.eventNow last session.effectiveAt ∧
    revision.snapshot = driver.buildFromSources revision.builtFrom.1 session.effectiveAt
      ("stream://" ++ last.eventId) (some revision.builtFrom.2)

theorem drainBatches_cons_eq_some :
    driver.drainBatches onRevision session (batch :: batches) = some (final, revisions) ↔
      ∃ next now later, driver.drainBatch onRevision session batch = some (next, now) ∧
        driver.drainBatches onRevision next batches = some (final, later) ∧
        revisions = now ++ later := by
  rw [drainBatches, Option.bind_eq_some_iff]
  constructor
  · rintro ⟨⟨next, now⟩, first, mapped⟩
    obtain ⟨⟨last, later⟩, followed, same⟩ := Option.map_eq_some_iff.mp mapped
    obtain ⟨rfl, rfl⟩ := Prod.mk.inj same
    exact ⟨next, now, later, first, followed, rfl⟩
  · rintro ⟨next, now, later, first, followed, rfl⟩
    exact ⟨(next, now), first, Option.map_eq_some_iff.mpr ⟨(final, later), followed, rfl⟩⟩

/-- A batch that applied nothing leaves the session to the batches after it. -/
theorem Drained.skip {applied : List Bool}
    (ran : runBatch (driver.applyEvent published) (soFar session) batch =
      some (soFar next, applied))
    (unchanged : true ∉ applied) (previous : next.previous = session.previous)
    (effective : next.effectiveAt = session.effectiveAt)
    (rest : Drained driver published next final batches revisions) :
    Drained driver published session final (batch :: batches) revisions := by
  obtain ⟨states, seen, data⟩ := rest.checkpoints
  obtain ⟨flags, later, ids, count⟩ := rest.applied
  refine ⟨rest.told, ⟨states, ?_, data⟩, ⟨applied ++ flags, ?_, ?_, ?_⟩, ?_, ?_⟩
  · refine checkpoints_cons_eq_some.mpr ⟨soFar next, applied, states, ran, seen, ?_⟩
    rw [if_neg unchanged]
  · exact runBatch_append_eq_some.mpr ⟨soFar next, applied, flags, ran, later, rfl⟩
  · rw [List.flatten_cons, appliedIds_append (length_runBatch ran),
      appliedIds_of_unchanged unchanged, List.nil_append, ids]
  · rw [List.count_append, List.count_eq_zero.mpr unchanged, Nat.zero_add, count]
  · rw [← previous]
    exact rest.continuous
  · rw [← effective]
    exact rest.built

/-- A batch that applied something is rebuilt once. -/
theorem Drained.rebuilt {applied : List Bool} {revision : StreamRevision σ π}
    (ran : runBatch (driver.applyEvent published) (soFar session) batch =
      some (soFar next, applied))
    (moved : true ∈ applied) (rebuilt : Rebuilt driver session next batch applied revision)
    (effective : next.effectiveAt = session.effectiveAt)
    (rest : Drained driver published next final batches revisions) :
    Drained driver published session final (batch :: batches) (revision :: revisions) := by
  obtain ⟨states, seen, data⟩ := rest.checkpoints
  obtain ⟨flags, later, ids, count⟩ := rest.applied
  refine ⟨rest.told, ⟨soFar next :: states, ?_, ?_⟩, ⟨applied ++ flags, ?_, ?_, ?_⟩, ?_, ?_⟩
  · refine checkpoints_cons_eq_some.mpr ⟨soFar next, applied, states, ran, seen, ?_⟩
    rw [if_pos moved]
  · rw [List.map_cons, List.map_cons, data, rebuilt.builtFrom]
    rfl
  · exact runBatch_append_eq_some.mpr ⟨soFar next, applied, flags, ran, later, rfl⟩
  · rw [List.flatten_cons, appliedIds_append (length_runBatch ran), List.flatMap_cons,
      rebuilt.ids, ids]
  · rw [List.count_append, List.map_cons, List.sum_cons, rebuilt.count, count]
  · have later := rest.continuous
    rw [rebuilt.previous] at later
    exact ⟨rebuilt.plan, later⟩
  · obtain ⟨last, -, event, now, snapshot⟩ := rebuilt.event
    have later := rest.built
    rw [effective] at later
    exact List.forall_mem_cons.mpr ⟨⟨last, event, now, snapshot⟩, later⟩

theorem drainBatches_drained (records : Records onRevision)
    (told : Told published session.published session.applicator.seenEventIds)
    (ran : driver.drainBatches onRevision session batches = some (final, revisions)) :
    Drained driver published session final batches revisions := by
  induction batches generalizing session revisions with
  | nil =>
    obtain ⟨rfl, rfl⟩ := Prod.mk.inj (Option.some.inj ran)
    exact ⟨told, ⟨[], rfl, rfl⟩, ⟨[], rfl, rfl, rfl⟩, trivial, by simp⟩
  | cons batch rest ih =>
    obtain ⟨next, now, later, first, followed, rfl⟩ := drainBatches_cons_eq_some.mp ran
    obtain ⟨applied, batched, known, effective, outcome⟩ := drainBatch_spec records told first
    have others := ih known followed
    obtain ⟨unchanged, rfl, previous⟩ | ⟨moved, revision, rfl, rebuilt⟩ := outcome
    · exact others.skip batched unchanged previous effective
    · exact others.rebuilt batched moved rebuilt effective

theorem drainBatches_append
    {more : List (List ExecutionEvent)} {now later : List (StreamRevision σ π)}
    (first : driver.drainBatches onRevision session batches = some (next, now))
    (followed : driver.drainBatches onRevision next more = some (final, later)) :
    driver.drainBatches onRevision session (batches ++ more) = some (final, now ++ later) := by
  induction batches generalizing session now with
  | nil =>
    obtain ⟨rfl, rfl⟩ := Prod.mk.inj (Option.some.inj first)
    exact followed
  | cons batch rest ih =>
    obtain ⟨middle, here, others, stepped, ran, rfl⟩ := drainBatches_cons_eq_some.mp first
    refine drainBatches_cons_eq_some.mpr ⟨middle, here, others ++ later, stepped, ih ran, ?_⟩
    rw [List.append_assoc]

/-- The time a session is planned for does not change. -/
theorem effectiveAt_drainBatches
    (ran : driver.drainBatches onRevision session batches = some (final, revisions)) :
    final.effectiveAt = session.effectiveAt := by
  induction batches generalizing session revisions with
  | nil => rw [(Prod.mk.inj (Option.some.inj ran)).1]
  | cons batch rest ih =>
    obtain ⟨next, now, later, first, followed, rfl⟩ := drainBatches_cons_eq_some.mp ran
    rw [ih followed]
    rw [drainBatch] at first
    obtain ⟨⟨applicator, applied⟩, -, same⟩ := Option.map_eq_some_iff.mp first
    dsimp only at same
    split at same
    · split at same
      · rw [← (Prod.mk.inj same).1]
      · rw [← (Prod.mk.inj same).1]
    · rw [← (Prod.mk.inj same).1]

/-- Polls are drained as the batches that each of them is coalesced into. -/
theorem drainAll_eq
    (ran : driver.drainAll onRevision windowS session polls = some (final, revisions)) :
    driver.drainBatches onRevision session
      (polls.flatMap (List.splitBy (driver.joins windowS session.effectiveAt))) =
        some (final, revisions) := by
  induction polls generalizing session revisions with
  | nil => exact ran
  | cons events rest ih =>
    rw [drainAll, Option.bind_eq_some_iff] at ran
    obtain ⟨⟨next, now⟩, drained, mapped⟩ := ran
    obtain ⟨⟨last, later⟩, followed, same⟩ := Option.map_eq_some_iff.mp mapped
    obtain ⟨rfl, rfl⟩ := Prod.mk.inj same
    rw [drain] at drained
    split_ifs at drained
    split at drained
    · next batches made =>
      rw [coalesce_eq made] at drained
      have others := ih followed
      rw [effectiveAt_drainBatches drained] at others
      exact drainBatches_append drained others
    · cases drained

/-- The baseline applies nothing, so a started session was told of nothing. -/
theorem told_start (session : StreamSession π ρ) :
    Told session.published (driver.start session).2.published
      (driver.start session).2.applicator.seenEventIds :=
  ⟨fun _ member => member, fun _ member => .inl member⟩

/-- However the events come in polls and converge, a session applies them as if they came one by
one, its revisions apply each of these events once and in order and continue each other, and the
last of them is built from the data the session has. -/
theorem drainAll_current (records : Records onRevision)
    (ran : driver.drainAll onRevision windowS (driver.start session).2 polls =
      some (final, revisions)) :
    let baseline := (driver.start session).1
    (∃ flags, runBatch (driver.applyEvent session.published) (soFar session) polls.flatten =
        some (soFar final, flags) ∧
      revisions.flatMap (·.appliedEventIds) = appliedIds polls.flatten flags ∧
      (revisions.map (·.nCoalescedEvents)).sum = flags.count true) ∧
    Continuous driver none (baseline :: revisions) ∧
    (revisions.getLastD baseline).builtFrom = dataOf final.applicator ∧
    ∀ revision ∈ revisions, ∃ last, revision.event = some last ∧
      revision.now = driver.eventNow last session.effectiveAt ∧
      revision.snapshot = driver.buildFromSources revision.builtFrom.1 session.effectiveAt
        ("stream://" ++ last.eventId) (some revision.builtFrom.2) := by
  have drained := drainBatches_drained records (told_start session) (drainAll_eq ran)
  refine ⟨?_, ⟨rfl, drained.continuous⟩, ?_, drained.built⟩
  · have applied := drained.applied
    rw [flatten_flatMap_splitBy] at applied
    exact applied
  · obtain ⟨states, seen, data⟩ := drained.checkpoints
    have last := getLastD_checkpoints quiet_applyEvent seen
    have mapped : (revisions.map (·.builtFrom)).getLastD (dataOf session.applicator) =
        dataOf final.applicator := by
      have started : dataOf session.applicator = dataOf (soFar (driver.start session).2) := rfl
      rw [data, started, List.getLastD_map, last]
      rfl
    have baseline : dataOf session.applicator = (driver.start session).1.builtFrom := rfl
    rw [baseline, List.getLastD_map] at mapped
    exact mapped

/-- A longer window and fewer polls end with the same data and publish some of the same states. -/
theorem drainAll_coarser {others : List String → StreamRevision σ π → List String}
    {wider : ℚ} {fewer : List (List ExecutionEvent)} {other : StreamSession π ρ}
    {coarser : List (StreamRevision σ π)} (records : Records onRevision)
    (othersRecord : Records others) (longer : windowS ≤ wider) (coarsens : Coarsens polls fewer)
    (ran : driver.drainAll onRevision windowS (driver.start session).2 polls =
      some (final, revisions))
    (ranFewer : driver.drainAll others wider (driver.start session).2 fewer =
      some (other, coarser)) :
    soFar other = soFar final ∧
      (coarser.map (·.builtFrom)).Sublist (revisions.map (·.builtFrom)) := by
  obtain ⟨states, seen, data⟩ :=
    (drainBatches_drained records (told_start session) (drainAll_eq ran)).checkpoints
  obtain ⟨fewerStates, fewerSeen, fewerData⟩ :=
    (drainBatches_drained othersRecord (told_start session) (drainAll_eq ranFewer)).checkpoints
  have batches : Coarsens
      (polls.flatMap (List.splitBy (driver.joins windowS session.effectiveAt)))
      (fewer.flatMap (List.splitBy (driver.joins wider session.effectiveAt))) :=
    coarsens.splitBy fun _ _ => joins_mono longer
  obtain ⟨kept, once, sub⟩ := batches.checkpoints quiet_applyEvent seen
  obtain ⟨same, rfl⟩ := Prod.mk.inj (Option.some.inj (once.symm.trans fewerSeen))
  refine ⟨same.symm, ?_⟩
  rw [data, fewerData]
  exact sub.map dataOf

end Sessions

/-! ## A session of three events -/

/-- No contracts, a second for each character of a time, and plans that are numbered. -/
def numberedDriver : StreamDriver (Sources × Option (Dict String Timestamp)) ℕ Unit where
  registry :=
    { tables := .empty
      primitives :=
        { parseFloat := fun _ => none
          showFloat := fun _ => ""
          parseTime := fun text => some ⟨text.length, true⟩
          parsePolygon := fun _ => .error .valueError
          pathLatLon := fun _ => []
          sweptPolygon := fun _ _ => []
          ringsAreaKm2 := fun _ => 0 } }
  buildFromSources sources _ _ watermarks := (sources, watermarks)
  plan _ _ previous := (previous.map fun parent => parent.1 + 1).getD 0
  serviceReasons _ := ()
  totalSeconds := id

def newSession : StreamSession ℕ Unit where
  effectiveAt := ⟨0, true⟩
  applicator := { work := { sources := .empty } }

def startedAt (eventId observedAt : String) : ExecutionEvent where
  eventId := eventId
  eventType := .taskStarted
  observedAt := observedAt

/-- The second event converges with the first; the third comes again in the next poll. -/
def twoPolls : List (List ExecutionEvent) :=
  [[startedAt "e1" ".", startedAt "e2" "..", startedAt "e3" "......"], [startedAt "e3" "......"]]

theorem records_append : Records fun store (revision : StreamRevision
    (Sources × Option (Dict String Timestamp)) ℕ) => store ++ revision.appliedEventIds :=
  fun _ _ =>
    ⟨fun _ member => List.mem_append_left _ member, fun _ member => List.mem_append.mp member⟩

theorem drainAll_current_twoPolls : ∃ final revisions,
    numberedDriver.drainAll (fun store revision => store ++ revision.appliedEventIds) 2
      (numberedDriver.start newSession).2 twoPolls = some (final, revisions) ∧
    revisions.map (·.appliedEventIds) = [["e1", "e2"], ["e3"]] ∧
    Continuous numberedDriver none ((numberedDriver.start newSession).1 :: revisions) := by
  have evaluated : (numberedDriver.drainAll
      (fun store revision => store ++ revision.appliedEventIds) 2
      (numberedDriver.start newSession).2 twoPolls).map
        (fun drained => drained.2.map (·.appliedEventIds)) = some [["e1", "e2"], ["e3"]] := by
    decide +kernel
  obtain ⟨⟨final, revisions⟩, ran, ids⟩ := Option.map_eq_some_iff.mp evaluated
  exact ⟨final, revisions, ran, ids, (drainAll_current records_append ran).2.1⟩

/-- Without a window each poll on its own publishes more states than one poll with a long one. -/
theorem drainAll_coarser_twoPolls : ∃ final other revisions coarser,
    numberedDriver.drainAll (fun store revision => store ++ revision.appliedEventIds) 0
      (numberedDriver.start newSession).2 twoPolls = some (final, revisions) ∧
    numberedDriver.drainAll (fun store _ => store) 10
      (numberedDriver.start newSession).2 [twoPolls.flatten] = some (other, coarser) ∧
    revisions.length = 3 ∧ coarser.length = 1 ∧ soFar other = soFar final ∧
    (coarser.map (·.builtFrom)).Sublist (revisions.map (·.builtFrom)) := by
  have apart : (numberedDriver.drainAll
      (fun store revision => store ++ revision.appliedEventIds) 0
      (numberedDriver.start newSession).2 twoPolls).map
        (fun drained => drained.2.length) = some 3 := by
    decide +kernel
  have together : (numberedDriver.drainAll (fun store _ => store) 10
      (numberedDriver.start newSession).2 [twoPolls.flatten]).map
        (fun drained => drained.2.length) = some 1 := by
    decide +kernel
  obtain ⟨⟨final, revisions⟩, ran, many⟩ := Option.map_eq_some_iff.mp apart
  obtain ⟨⟨other, coarser⟩, ranFewer, one⟩ := Option.map_eq_some_iff.mp together
  have silent : Records fun store (_ : StreamRevision
      (Sources × Option (Dict String Timestamp)) ℕ) => store :=
    fun _ _ => ⟨fun _ member => member, fun _ member => .inl member⟩
  exact ⟨final, other, revisions, coarser, ran, ranFewer, many, one,
    drainAll_coarser records_append silent (by norm_num) ⟨[twoPolls], rfl, rfl⟩ ran ranFewer⟩

end StreamDriver

end FlOp.Stream.Convergence
