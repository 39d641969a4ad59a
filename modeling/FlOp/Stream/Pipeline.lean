import FlOp.Library.LabeledSystem
import FlOp.Stream.Apply

/-! # Publishing revisions from a broker

A process reads events from the broker and applies them batch by batch. It writes a revision for
each batch that applied something, records the ids of the revision and then commits what it read.
Revision files, the id file and the committed offset survive a crash; all else is rebuilt.
-/

namespace FlOp.Stream

open Library

/-- An event and its offset in the broker's log. -/
abbrev Delivery := ExecutionEvent × ℕ

/-- The non-empty ids of some deliveries. -/
def eventIds (deliveries : List Delivery) : List String :=
  (deliveries.map fun delivery => delivery.1.eventId).filter (· ≠ "")

/-- A revision, known by the events it applied; the baseline applies none. -/
structure Revision where
  applied : List Delivery := []
deriving DecidableEq

def Revision.appliedEventIds (revision : Revision) : List String := eventIds revision.applied

/-- All events that some revisions applied. -/
def entries (revisions : List Revision) : List Delivery := revisions.flatMap Revision.applied

section Deliveries

variable {id : String} {deliveries others : List Delivery} {revisions later : List Revision}

theorem mem_eventIds :
    id ∈ eventIds deliveries ↔ id ≠ "" ∧ ∃ delivery ∈ deliveries, delivery.1.eventId = id := by
  simp only [eventIds, List.mem_filter, List.mem_map, decide_eq_true_eq]
  exact and_comm

@[simp] theorem eventIds_nil : eventIds [] = [] := rfl

@[simp] theorem eventIds_append :
    eventIds (deliveries ++ others) = eventIds deliveries ++ eventIds others := by
  simp [eventIds]

@[simp] theorem entries_nil : entries [] = [] := rfl

@[simp] theorem entries_append :
    entries (revisions ++ later) = entries revisions ++ entries later :=
  List.flatMap_append

@[simp] theorem entries_cons (revision : Revision) :
    entries (revision :: revisions) = revision.applied ++ entries revisions :=
  List.flatMap_cons

end Deliveries

/-- Apply a batch in order; defined as long as no event raises. Returns what was applied. -/
def applyBatch (registry : Registry) (published : List String) :
    EventApplicator → List Delivery → Option (EventApplicator × List Delivery)
  | applicator, [] => some (applicator, [])
  | applicator, delivery :: rest =>
    match applicator.apply registry published delivery.1 with
    | (next, .ok true) =>
      (applyBatch registry published next rest).map fun (final, applied) =>
        (final, delivery :: applied)
    | (next, .ok false) => applyBatch registry published next rest
    | (_, .error _) => none

/-- Which loop a process runs: one backlog and out, or cycle after cycle. -/
inductive Loop where
  | rolling
  | watch
deriving DecidableEq, Repr

/-- The part of the pipeline that a crash loses. -/
structure Process where
  loop : Loop
  /-- Offset of the next event to apply. -/
  position : ℕ
  /-- Offset up to which events were read from the broker. -/
  readTo : ℕ
  applicator : EventApplicator
  store : EventDedupStore
  /-- Revisions that are built but not written yet. -/
  pending : List Revision := [{}]
  /-- Applied ids of written revisions that are not recorded yet. -/
  unrecorded : List String := []

/-- Everything durable, and the process working on it, if any. -/
structure Pipeline where
  committed : ℕ := 0
  storeFile : List Char := []
  /-- All ids recorded so far, oldest first; kept for statements, no step reads it. -/
  recorded : List String := []
  published : List Revision := []
  process : Option Process := none

namespace Pipeline

def pending (s : Pipeline) : List Revision :=
  match s.process with
  | some process => process.pending
  | none => []

def unrecorded (s : Pipeline) : List String :=
  match s.process with
  | some process => process.unrecorded
  | none => []

end Pipeline

/-- What can happen next. A stop between any two steps is a crash, and so is an event that
raises; how many events coalesce into one batch is left open. -/
inductive Action where
  | start (loop : Loop) (n : ℕ)
  | poll (n : ℕ)
  | apply (k : ℕ)
  | write
  | record
  | commit
  | crash
deriving DecidableEq, Repr

/-- What all processes share: contracts, data directory, broker log and retention bound. -/
structure Setup where
  registry : Registry
  sources : Sources
  log : List ExecutionEvent
  maxIds : ℕ

namespace Setup

variable (setup : Setup)

/-- A process as it starts: fresh working data, and the baseline still to be written. -/
def freshProcess (s : Pipeline) (loop : Loop) (n : ℕ) : Process where
  loop := loop
  position := s.committed
  readTo := s.committed + n
  applicator := { work := { sources := setup.sources } }
  store := .load s.storeFile

/-- The next events of a process. -/
def batch (process : Process) (k : ℕ) : List Delivery :=
  (setup.log.zipIdx.drop process.position).take k

theorem mem_batch {process : Process} {k : ℕ} {delivery : Delivery} :
    delivery ∈ setup.batch process k ↔ delivery ∈ setup.log.zipIdx ∧
      process.position ≤ delivery.2 ∧ delivery.2 < process.position + k := by
  have at_offset : ∀ i, setup.log.zipIdx[i]? = some delivery → i = delivery.2 := by
    intro i found
    rw [List.getElem?_zipIdx, Option.map_eq_some_iff] at found
    obtain ⟨event, -, rfl⟩ := found
    exact (Nat.zero_add i).symm
  have found : ∀ j, (setup.batch process k)[j]? =
      if j < k then setup.log.zipIdx[process.position + j]? else none := by
    intro j
    rw [batch, List.getElem?_take, List.getElem?_drop]
  constructor
  · intro member
    obtain ⟨j, read⟩ := List.mem_iff_getElem?.mp member
    rw [found] at read
    split_ifs at read with within
    have offset := at_offset _ read
    refine ⟨List.mem_iff_getElem?.mpr ⟨_, read⟩, ?_, ?_⟩ <;> omega
  · rintro ⟨member, reached, within⟩
    obtain ⟨i, read⟩ := List.mem_iff_getElem?.mp member
    have offset := at_offset i read
    apply List.mem_iff_getElem?.mpr
    refine ⟨i - process.position, ?_⟩
    rw [found, if_pos (by omega), Nat.add_sub_of_le (by omega)]
    exact read

/-- A batch that applied nothing yields no revision. -/
def revisionsOf (applied : List Delivery) : List Revision :=
  if applied = [] then [] else [{ applied := applied }]

@[simp] theorem entries_revisionsOf (applied : List Delivery) :
    entries (revisionsOf applied) = applied := by
  unfold revisionsOf
  split_ifs with none
  · rw [none, entries_nil]
  · rw [entries_cons, entries_nil, List.append_nil]

/-- One step of a live process, as its loop orders them. -/
def processStep (s : Pipeline) (process : Process) : Action → Option Pipeline
  | .start _ _ => none
  | .poll n =>
    if process.loop = .watch ∧ process.readTo = s.committed ∧ process.pending = [] ∧
        process.unrecorded = [] ∧ process.readTo + n ≤ setup.log.length then
      some { s with process := some { process with readTo := process.readTo + n } }
    else none
  | .apply k =>
    if 0 < k ∧ process.position + k ≤ process.readTo ∧
        (process.loop = .watch → process.pending = [] ∧ process.unrecorded = []) then
      (applyBatch setup.registry process.store.ids process.applicator
          (setup.batch process k)).map fun (final, applied) =>
        { s with process := some { process with
            position := process.position + k
            -- completions and coverage reports go to their own logs after each batch
            applicator := { final with completions := [], coverageReports := [] }
            pending := process.pending ++ revisionsOf applied } }
    else none
  | .write =>
    match process.pending with
    | revision :: rest =>
      -- a rolling run writes its revisions once all events are applied
      if process.loop = .rolling → process.position = process.readTo then
        some { s with
          published := s.published ++ [revision]
          process := some { process with
            pending := rest
            unrecorded := process.unrecorded ++ revision.appliedEventIds } }
      else none
    | [] => none
  | .record =>
    if process.pending = [] then
      let (file, store) :=
        process.store.recordPublished setup.maxIds s.storeFile process.unrecorded
      some { s with
        storeFile := file
        recorded := s.recorded ++ newIds process.store.ids process.unrecorded
        process := some { process with store := store, unrecorded := [] } }
    else none
  | .commit =>
    if process.position = process.readTo ∧ process.pending = [] ∧ process.unrecorded = [] then
      some { s with
        committed := process.readTo
        process := if process.loop = .watch then some process else none }
    else none
  | .crash => some { s with process := none }

/-- One step; without a process, only one can start. A watcher polls later. -/
def step (s : Pipeline) (action : Action) : Option Pipeline :=
  match s.process, action with
  | some process, action => setup.processStep s process action
  | none, .start loop n =>
    if s.committed + n ≤ setup.log.length ∧ (loop = .watch → n = 0) then
      some { s with process := some (setup.freshProcess s loop n) }
    else none
  | none, _ => none

/-- Runs of the pipeline, from before its first process. -/
def pipeline : LabeledSystem Pipeline Action := .ofStep (· = {}) setup.step

/-- Everything one step can do, with the facts it relies on. -/
inductive Stepped (s : Pipeline) : Action → Pipeline → Prop
  | start {loop : Loop} {n : ℕ} (idle : s.process = none) :
      Stepped s (.start loop n) { s with process := some (setup.freshProcess s loop n) }
  | poll {process : Process} {n : ℕ} (live : s.process = some process) :
      Stepped s (.poll n)
        { s with process := some { process with readTo := process.readTo + n } }
  | apply {process : Process} {k : ℕ} {final : EventApplicator} {applied : List Delivery}
      (live : s.process = some process)
      (batch : applyBatch setup.registry process.store.ids process.applicator
        (setup.batch process k) = some (final, applied)) :
      Stepped s (.apply k) { s with process := some { process with
        position := process.position + k
        applicator := { final with completions := [], coverageReports := [] }
        pending := process.pending ++ revisionsOf applied } }
  | write {process : Process} {revision : Revision} {rest : List Revision}
      (live : s.process = some process) (built : process.pending = revision :: rest) :
      Stepped s .write { s with
        published := s.published ++ [revision]
        process := some { process with
          pending := rest
          unrecorded := process.unrecorded ++ revision.appliedEventIds } }
  | record {process : Process} (live : s.process = some process)
      (written : process.pending = []) :
      Stepped s .record { s with
        storeFile := (process.store.recordPublished setup.maxIds s.storeFile
          process.unrecorded).1
        recorded := s.recorded ++ newIds process.store.ids process.unrecorded
        process := some { process with
          store := (process.store.recordPublished setup.maxIds s.storeFile
            process.unrecorded).2
          unrecorded := [] } }
  | commit {process : Process} (live : s.process = some process)
      (drained : process.position = process.readTo) (written : process.pending = [])
      (recorded : process.unrecorded = []) :
      Stepped s .commit { s with
        committed := process.readTo
        process := if process.loop = .watch then some process else none }
  | crash {process : Process} (live : s.process = some process) :
      Stepped s .crash { s with process := none }

theorem stepped {s t : Pipeline} {action : Action} (taken : setup.step s action = some t) :
    setup.Stepped s action t := by
  cases live : s.process with
  | none =>
    cases action with
    | start loop n =>
      simp only [step, live] at taken
      split_ifs at taken
      obtain rfl := Option.some.inj taken
      exact .start live
    | _ => simp [step, live] at taken
  | some process =>
    simp only [step, live] at taken
    cases action with
    | start loop n => contradiction
    | poll n =>
      simp only [processStep] at taken
      split_ifs at taken
      obtain rfl := Option.some.inj taken
      exact .poll live
    | apply k =>
      simp only [processStep] at taken
      split_ifs at taken
      obtain ⟨⟨final, applied⟩, batch, rfl⟩ := Option.map_eq_some_iff.mp taken
      exact .apply live batch
    | write =>
      simp only [processStep] at taken
      split at taken
      · split_ifs at taken
        obtain rfl := Option.some.inj taken
        exact .write live ‹_›
      · contradiction
    | record =>
      simp only [processStep] at taken
      split_ifs at taken with written
      obtain rfl := Option.some.inj taken
      exact .record live written
    | commit =>
      simp only [processStep] at taken
      split at taken
      · obtain ⟨drained, written, recorded⟩ := ‹_ ∧ _›
        obtain rfl := Option.some.inj taken
        exact .commit live drained written recorded
      · contradiction
    | crash =>
      obtain rfl := Option.some.inj taken
      exact .crash live

end Setup

end FlOp.Stream
