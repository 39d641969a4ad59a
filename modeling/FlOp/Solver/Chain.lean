import FlOp.Library.Ordering
import FlOp.Solver.TaskRelations
import Mathlib.Data.String.Basic

/-! # The solver chain

The routing stages of the chain are third-party search: what they return for one call is a
value carrying the facts its packages and records are built with. The chain's own
bookkeeping around them (dependency cascade, outcome enforcement, group collapse and
reservation settlement) is modelled.
-/

namespace FlOp.Solver

open Canonical FlOp.Core Library

/-- The arguments of one chain run that its bookkeeping and its packages depend on. -/
structure SolverCall where
  tasks : List TaskRow
  heldWindows : Dict String (List (ℤ × ℤ)) := .empty
  now : Instant

/-- What the weather, window, restriction, allocation and routing stages made of one call. -/
structure SolverStages (call : SolverCall) where
  /-- Orders left by the weather, time-window and restriction filters. -/
  admitted : List TaskRow
  /-- The records of those filters. -/
  excluded : List InfeasibleRecord
  dispatch : List DispatchPackage
  /-- The records of allocation, material admission and routing. -/
  infeasible : List InfeasibleRecord
  reservations : List MaterialReservation := []
  nClusters : ℕ := 0
  nGreedyAssignments : ℕ := 0
  admitted_sublist : admitted.Sublist call.tasks
  excluded_given : ∀ record ∈ excluded, ∃ row ∈ call.tasks, row.taskId = record.taskId
  dispatch_given : ∀ package ∈ dispatch, ∃ row ∈ call.tasks, row.taskId = package.taskId
  infeasible_given : ∀ record ∈ infeasible, ∃ row ∈ call.tasks,
    row.taskId = record.taskId ∨
      row.alternativeGroupRef ≠ "" ∧ row.alternativeGroupRef = record.taskId
  dispatch_start : ∀ package ∈ dispatch, (call.now.truncated : ℚ) ≤ package.scheduledStart

/-- The answer that serves orders in given windows, none of them before the planning origin and
each by a drone of its own, and reports the other orders infeasible. -/
def SolverStages.serving (window : String → Option (Instant × Instant)) (call : SolverCall) :
    SolverStages call where
  admitted := call.tasks
  excluded := []
  dispatch := call.tasks.filterMap fun row => (window row.taskId).map fun times =>
    { dispatchId := "dispatch-" ++ row.taskId
      taskId := row.taskId
      primeAssetId := "drone-" ++ row.taskId
      relatedAssetId := ""
      scheduledStart := max times.1 call.now.truncated
      scheduledEnd := max times.2 call.now.truncated }
  infeasible := (call.tasks.filter fun row => (window row.taskId).isNone).map fun row =>
    { taskId := row.taskId, reasonCode := .noCompatibleBundle }
  admitted_sublist := .refl _
  excluded_given := by simp
  dispatch_given := by
    intro package member
    obtain ⟨row, given, served⟩ := List.mem_filterMap.mp member
    obtain ⟨times, -, rfl⟩ := Option.map_eq_some_iff.mp served
    exact ⟨row, given, rfl⟩
  infeasible_given := by
    intro record member
    obtain ⟨row, given, rfl⟩ := List.mem_map.mp member
    exact ⟨row, (List.mem_filter.mp given).1, .inl rfl⟩
  dispatch_start := by
    intro package member
    obtain ⟨row, -, served⟩ := List.mem_filterMap.mp member
    obtain ⟨times, -, rfl⟩ := Option.map_eq_some_iff.mp served
    exact le_max_right _ _

/-- The answer that serves nothing. -/
abbrev SolverStages.unserved (call : SolverCall) : SolverStages call :=
  .serving (fun _ => none) call

structure SolverChainResult where
  dispatch : List DispatchPackage
  infeasible : List InfeasibleRecord
  nClusters : ℕ
  nGreedyAssignments : ℕ
  materialReservations : List MaterialReservation

/-- The alternative group of every order; a repeated id keeps its last group. -/
def groupByTask (orders : List TaskRow) : Dict String String :=
  Dict.collect (·.taskId) (·.alternativeGroupRef) orders

def membersByGroup (orders : List TaskRow) : Dict String (List String) :=
  Dict.groupBy Prod.snd Prod.fst ((groupByTask orders).entries.filter fun entry => entry.2 ≠ "")

/-- Groups with a dispatched member. -/
def servedGroups (dispatch : List DispatchPackage) (orders : List TaskRow) : Finset String :=
  (dispatch.map fun package => (groupByTask orders).getD package.taskId "").toFinset.erase ""

/-- The group a failure record belongs to, empty for none. A record under a group's own name
belongs to that group unless a task of this id has a group of its own. -/
def failureGroup (orders : List TaskRow) (record : InfeasibleRecord) : String :=
  let group := (groupByTask orders).getD record.taskId ""
  if group = "" ∧ record.taskId ∈ (membersByGroup orders).keys then record.taskId else group

/-- The one reason all records share, else unknown. -/
def sharedReason (records : List InfeasibleRecord) : ReasonCode :=
  match (records.map (·.reasonCode)).dedup with
  | [reason] => reason
  | _ => .unknown

/-- The one record that reports a failed group. -/
def groupRecord (group : String) (records : List InfeasibleRecord) : InfeasibleRecord where
  taskId := group
  clusterId := (records.head?.map (·.clusterId)).getD ""
  reasonCode := sharedReason records
  detail := "No delivery alternative was assigned for " ++ group ++ ": " ++
    ", ".intercalate (sorted (records.map (·.taskId)).toFinset)

/-- Suppress sibling variant failures and report one record per failed group. -/
def collapseAlternativeInfeasible (dispatch : List DispatchPackage)
    (infeasible : List InfeasibleRecord) (allOrders : List TaskRow) : List InfeasibleRecord :=
  if (membersByGroup allOrders).keys = [] then infeasible
  else
    let served := servedGroups dispatch allOrders
    let group := failureGroup allOrders
    let collapsed := infeasible.filter fun record => group record = ""
    let groupedFailures := Dict.groupBy group id <|
      infeasible.filter fun record => group record ≠ "" ∧ group record ∉ served
    collapsed ++ (sortBy Prod.fst groupedFailures.entries).map fun entry =>
      groupRecord entry.1 entry.2

/-- Settle admission-time reservations against the final dispatch. -/
def finalizeMaterialReservations (reservations : List MaterialReservation)
    (dispatch : List DispatchPackage) : List MaterialReservation :=
  let dispatched := Dict.collect (·.taskId) id dispatch
  reservations.map fun reservation =>
    match dispatched.get? reservation.taskId with
    | some package =>
      { reservation with
        status := .confirmed
        reservedFrom := some package.scheduledStart
        reservedTo := some package.scheduledEnd }
    | none => { reservation with status := .released }

/-- The chain around the stages it calls. -/
def runSolverChain (call : SolverCall) (stages : SolverStages call) : SolverChainResult :=
  let cascade := applyDependencyFilter stages.admitted
    (stages.excluded.map (·.taskId)).toFinset
  let orders := cascade.1
  let outcomes := enforceDependencyOutcomes stages.dispatch
    (stages.excluded ++ cascade.2 ++ stages.infeasible) orders
  { dispatch := outcomes.1
    infeasible := collapseAlternativeInfeasible outcomes.1 outcomes.2 call.tasks
    nClusters := stages.nClusters
    nGreedyAssignments := stages.nGreedyAssignments
    materialReservations := finalizeMaterialReservations stages.reservations outcomes.1 }

section Groups

variable {orders : List TaskRow}

theorem mem_keys_membersByGroup {group : String} :
    group ∈ (membersByGroup orders).keys ↔
      group ≠ "" ∧ ∃ taskId, (groupByTask orders).get? taskId = some group := by
  rw [membersByGroup, Dict.mem_keys_groupBy]
  simp only [List.mem_filter, decide_eq_true_eq, Prod.exists, Dict.get?_eq_some_iff]
  constructor
  · rintro ⟨taskId, _, ⟨member, nonempty⟩, rfl⟩
    exact ⟨nonempty, taskId, member⟩
  · rintro ⟨nonempty, taskId, member⟩
    exact ⟨taskId, group, ⟨member, nonempty⟩, rfl⟩

/-- A dispatched task serves the group its id is filed under. -/
theorem mem_servedGroups {dispatch : List DispatchPackage} {package : DispatchPackage}
    {group : String} (dispatched : package ∈ dispatch) (nonempty : group ≠ "")
    (filed : (groupByTask orders).get? package.taskId = some group) :
    group ∈ servedGroups dispatch orders := by
  refine Finset.mem_erase.mpr ⟨nonempty, List.mem_toFinset.mpr (List.mem_map.mpr ?_)⟩
  exact ⟨package, dispatched, by rw [Dict.getD, filed, Option.getD_some]⟩

private theorem get?_of_getD_ne_empty {taskId group : String}
    (filed : (groupByTask orders).getD taskId "" = group) (nonempty : group ≠ "") :
    (groupByTask orders).get? taskId = some group := by
  cases found : (groupByTask orders).get? taskId with
  | none => exact absurd (by simpa [Dict.getD, found] using filed.symm) nonempty
  | some other => simpa [Dict.getD, found] using filed

/-- Records are filed under groups that have members. -/
theorem failureGroup_mem_keys {record : InfeasibleRecord}
    (grouped : failureGroup orders record ≠ "") :
    failureGroup orders record ∈ (membersByGroup orders).keys := by
  simp only [failureGroup] at grouped ⊢
  split_ifs at grouped ⊢ with named
  · exact named.2
  · exact mem_keys_membersByGroup.mpr ⟨grouped, _, get?_of_getD_ne_empty rfl grouped⟩

/-- A record filed under no group names neither a group nor a task of one. -/
theorem failureGroup_eq_empty {record : InfeasibleRecord}
    (ungrouped : failureGroup orders record = "") :
    record.taskId ∉ (membersByGroup orders).keys ∧
      (groupByTask orders).getD record.taskId "" = "" := by
  simp only [failureGroup] at ungrouped
  split_ifs at ungrouped with named
  · exact absurd ungrouped (mem_keys_membersByGroup.mp named.2).1
  · exact ⟨fun keyed => named ⟨ungrouped, keyed⟩, ungrouped⟩

/-- What the collapse reports is either a group without a dispatched member or a record it
passed on, which then names no group. -/
theorem mem_collapseAlternativeInfeasible {dispatch : List DispatchPackage}
    {infeasible : List InfeasibleRecord} {record : InfeasibleRecord}
    (member : record ∈ collapseAlternativeInfeasible dispatch infeasible orders) :
    (record.taskId ∈ (membersByGroup orders).keys ∧ record.taskId ∉ servedGroups dispatch orders) ∨
      (record ∈ infeasible ∧ record.taskId ∉ (membersByGroup orders).keys ∧
        (groupByTask orders).getD record.taskId "" = "") := by
  simp only [collapseAlternativeInfeasible] at member
  split_ifs at member with groupless
  · have ungrouped : failureGroup orders record = "" := by
      by_contra grouped
      have keyed := failureGroup_mem_keys grouped
      rw [groupless] at keyed
      exact List.not_mem_nil keyed
    exact .inr ⟨member, failureGroup_eq_empty ungrouped⟩
  · rcases List.mem_append.mp member with passed | failed
    · obtain ⟨old, ungrouped⟩ := List.mem_filter.mp passed
      exact .inr ⟨old, failureGroup_eq_empty (by simpa using ungrouped)⟩
    · obtain ⟨⟨group, records⟩, entry, rfl⟩ := List.mem_map.mp failed
      have keyed := List.mem_map_of_mem (f := Prod.fst) ((mem_sortBy _ _).mp entry)
      obtain ⟨failure, failureMember, rfl⟩ := (Dict.mem_keys_groupBy _ _ _ group).mp keyed
      obtain ⟨-, unserved⟩ := List.mem_filter.mp failureMember
      rw [decide_eq_true_eq] at unserved
      exact .inl ⟨failureGroup_mem_keys unserved.1, unserved.2⟩

end Groups

section Chain

variable {call : SolverCall} (stages : SolverStages call)

theorem runSolverChain_dispatch_sublist :
    (runSolverChain call stages).dispatch.Sublist stages.dispatch := by
  simp only [runSolverChain]
  exact enforceDependencyOutcomes_sublist _ _ _

/-- The chain dispatches only tasks it was given. -/
theorem runSolverChain_dispatch_given {package : DispatchPackage}
    (dispatched : package ∈ (runSolverChain call stages).dispatch) :
    ∃ row ∈ call.tasks, row.taskId = package.taskId :=
  stages.dispatch_given package ((runSolverChain_dispatch_sublist stages).subset dispatched)

/-- No dispatched task starts before the planning origin. -/
theorem runSolverChain_dispatch_start {package : DispatchPackage}
    (dispatched : package ∈ (runSolverChain call stages).dispatch) :
    (call.now.truncated : ℚ) ≤ package.scheduledStart :=
  stages.dispatch_start package ((runSolverChain_dispatch_sublist stages).subset dispatched)

/-- No dispatched task outlives an unserved predecessor among the solved orders. -/
theorem runSolverChain_serves_predecessors :
    ∀ package ∈ (runSolverChain call stages).dispatch,
      ¬ (Precedence.ofOrders (applyDependencyFilter stages.admitted
        (stages.excluded.map (·.taskId)).toFinset).1).Violates
          ((runSolverChain call stages).dispatch.map (·.taskId)) package := by
  simp only [runSolverChain]
  exact enforceDependencyOutcomes_closed _ _ _

/-- A reported record names an unserved group of the given orders, or else a given order or its
group, and then no group that has members. -/
theorem runSolverChain_infeasible {record : InfeasibleRecord}
    (reported : record ∈ (runSolverChain call stages).infeasible) :
    (record.taskId ∈ (membersByGroup call.tasks).keys ∧
        record.taskId ∉ servedGroups (runSolverChain call stages).dispatch call.tasks) ∨
      (record.taskId ∉ (membersByGroup call.tasks).keys ∧
        (groupByTask call.tasks).getD record.taskId "" = "" ∧
          ∃ row ∈ call.tasks, row.taskId = record.taskId ∨
            row.alternativeGroupRef ≠ "" ∧ row.alternativeGroupRef = record.taskId) := by
  simp only [runSolverChain] at reported ⊢
  rcases mem_collapseAlternativeInfeasible reported with unserved | ⟨passed, unkeyed, groupless⟩
  · exact .inl unserved
  refine .inr ⟨unkeyed, groupless, ?_⟩
  rcases enforceDependencyOutcomes_records passed with old | ⟨package, dispatched, same⟩
  · rcases List.mem_append.mp old with filtered | failed
    · rcases List.mem_append.mp filtered with excluded | cascaded
      · obtain ⟨row, given, same⟩ := stages.excluded_given record excluded
        exact ⟨row, given, .inl same⟩
      · obtain ⟨row, admitted, same⟩ := applyDependencyFilter_records cascaded
        exact ⟨row, stages.admitted_sublist.subset admitted, .inl same⟩
    · exact stages.infeasible_given record failed
  · obtain ⟨row, given, sameRow⟩ := stages.dispatch_given package dispatched
    exact ⟨row, given, .inl (sameRow.trans same)⟩

end Chain

end FlOp.Solver
