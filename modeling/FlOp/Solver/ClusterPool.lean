import FlOp.Library.Ordering
import FlOp.Solver.Clusters
import FlOp.Solver.Rows
import Mathlib.Data.Prod.Lex
import Mathlib.Data.String.Basic

/-! # Solving clusters in a process pool

Futures are collected in the order in which they complete, until all are in or the overall
timeout fires. The timeout branch writes records for the futures that are not done; a future that
is done but was not yet handed out by then is in neither part. Operator-sharing groups go through
the same loop, except a lone group, which is solved in the calling process.
-/

namespace FlOp.Solver

open Canonical FlOp.Core Library

inductive SolveStatus where
  | solved
  | noSolution
  | empty
  | inputError
  | workerError
  | poolTimeout
deriving DecidableEq, Repr

/-- The solve record of one cluster. -/
structure SolveTelemetry where
  clusterId : String
  status : SolveStatus
  nTasks : ℕ
  hitTimeLimit : Bool := false
  timeLimitS : Option ℤ := none
  detail : String := ""
deriving DecidableEq, Repr

/-- What solving some clusters reports. -/
structure ClusterResult where
  dispatch : List DispatchPackage := []
  infeasible : List InfeasibleRecord := []
  telemetry : List SolveTelemetry := []
deriving DecidableEq

namespace ClusterResult

/-- Extend one result by the next. -/
def append (first second : ClusterResult) : ClusterResult where
  dispatch := first.dispatch ++ second.dispatch
  infeasible := first.infeasible ++ second.infeasible
  telemetry := first.telemetry ++ second.telemetry

/-- The results of several clusters, one after the other. -/
def concat (results : List ClusterResult) : ClusterResult := results.foldr append { }

/-- The tasks reported, dispatched or infeasible. -/
def reported (result : ClusterResult) : List String :=
  result.dispatch.map (·.taskId) ++ result.infeasible.map (·.taskId)

theorem reported_append (first second : ClusterResult) :
    (first.append second).reported.Perm (first.reported ++ second.reported) := by
  simp only [reported, append, List.map_append, List.append_assoc]
  apply List.Perm.append_left
  rw [← List.append_assoc, ← List.append_assoc]
  exact List.perm_append_comm.append_right _

theorem reported_concat (results : List ClusterResult) :
    (concat results).reported.Perm (results.flatMap reported) := by
  induction results with
  | nil => exact .refl _
  | cons result rest ih => exact (reported_append _ _).trans (ih.append_left _)

end ClusterResult

/-- A part of the pool reports every task once if it is clean; otherwise it does not return, or
leaves tasks out. -/
structure Accounts (solved : Option ClusterResult) (tasks : List String) (clean : Prop) : Prop where
  sound : clean → ∃ result, solved = some result ∧ result.reported.Perm tasks
  lossy : ∀ result, solved = some result →
    ∃ unseen, (result.reported ++ unseen).Perm tasks ∧ (unseen = [] → clean)

namespace Accounts

variable {first second : Option ClusterResult} {tasks others : List String}
  {clean cleanOthers : Prop}

/-- A part that always returns a full report. -/
theorem full {result : ClusterResult} (whole : result.reported.Perm tasks) (holds : clean) :
    Accounts (some result) tasks clean where
  sound _ := ⟨result, rfl, whole⟩
  lossy := by
    rintro _ ⟨⟩
    exact ⟨[], by rwa [List.append_nil], fun _ => holds⟩

/-- A part that never returns. -/
theorem never (fails : ¬clean) : Accounts none tasks clean where
  sound holds := absurd holds fails
  lossy _ solved := by cases solved

theorem congr (accounts : Accounts first tasks clean) (same : tasks.Perm others)
    (iff : clean ↔ cleanOthers) : Accounts first others cleanOthers where
  sound holds := by
    obtain ⟨result, solved, whole⟩ := accounts.sound (iff.mpr holds)
    exact ⟨result, solved, whole.trans same⟩
  lossy result solved := by
    obtain ⟨unseen, whole, clean⟩ := accounts.lossy result solved
    exact ⟨unseen, whole.trans same, fun none => iff.mp (clean none)⟩

/-- Two parts, one after the other. -/
theorem append (accounts : Accounts first tasks clean)
    (accountsOthers : Accounts second others cleanOthers) :
    Accounts (first.bind fun result => second.map result.append) (tasks ++ others)
      (clean ∧ cleanOthers) where
  sound := by
    rintro ⟨holds, holdsOthers⟩
    obtain ⟨result, rfl, whole⟩ := accounts.sound holds
    obtain ⟨other, rfl, wholeOther⟩ := accountsOthers.sound holdsOthers
    exact ⟨_, rfl, (ClusterResult.reported_append _ _).trans (whole.append wholeOther)⟩
  lossy joined solved := by
    obtain ⟨result, rfl, rest⟩ := Option.bind_eq_some_iff.mp solved
    obtain ⟨other, rfl, rfl⟩ := Option.map_eq_some_iff.mp rest
    obtain ⟨unseen, whole, clean⟩ := accounts.lossy result rfl
    obtain ⟨unseenOther, wholeOther, cleanOther⟩ := accountsOthers.lossy other rfl
    refine ⟨unseen ++ unseenOther, ?_, fun none => ?_⟩
    · refine List.Perm.trans ?_ (whole.append wholeOther)
      refine ((ClusterResult.reported_append _ _).append_right _).trans ?_
      rw [List.append_assoc, List.append_assoc]
      apply List.Perm.append_left
      rw [← List.append_assoc, ← List.append_assoc]
      exact List.perm_append_comm.append_right _
    · obtain ⟨none, noneOther⟩ := List.append_eq_nil_iff.mp none
      exact ⟨clean none, cleanOther noneOther⟩

/-- On distinct tasks, a part reports each of them once exactly when it is clean. -/
theorem once_iff (accounts : Accounts first tasks clean) (nodup : tasks.Nodup) :
    (∃ result, first = some result ∧ ∀ id ∈ tasks, result.reported.count id = 1) ↔ clean := by
  constructor
  · rintro ⟨result, solved, once⟩
    obtain ⟨unseen, whole, clean⟩ := accounts.lossy result solved
    apply clean
    apply List.eq_nil_iff_forall_not_mem.mpr
    intro id member
    have known : id ∈ tasks := whole.subset (List.mem_append_right _ member)
    have counts := whole.count_eq id
    rw [List.count_append, once id known, List.count_eq_one_of_mem nodup known] at counts
    have absent : unseen.count id = 0 := by omega
    exact List.count_eq_zero.mp absent member
  · intro holds
    obtain ⟨result, solved, whole⟩ := accounts.sound holds
    refine ⟨result, solved, fun id known => ?_⟩
    rw [whole.count_eq, List.count_eq_one_of_mem nodup known]

end Accounts

/-- One record for each task of a cluster. -/
def failureRecords (cluster : ClusterSpec) (reasonCode : ReasonCode) (detail : String) :
    List InfeasibleRecord :=
  cluster.taskIds.map fun id => ⟨id, cluster.clusterId, reasonCode, detail⟩

theorem taskId_failureRecords (cluster : ClusterSpec) (reasonCode : ReasonCode)
    (detail : String) :
    (failureRecords cluster reasonCode detail).map (·.taskId) = cluster.taskIds := by
  rw [failureRecords, List.map_map]
  exact List.map_id _

/-- The tasks of several clusters. -/
def clusterTasks (clusters : List ClusterSpec) : List String := clusters.flatMap (·.taskIds)

/-- Records and telemetry for a group whose worker crashed or came too late. -/
def markGroupFailed (ordered : List ClusterSpec) (status : SolveStatus) (detail : String) :
    ClusterResult where
  infeasible := ordered.flatMap fun cluster => failureRecords cluster .unknown detail
  telemetry := ordered.map fun cluster =>
    { clusterId := cluster.clusterId, status := status, nTasks := cluster.taskIds.length
      detail := detail }

theorem reported_markGroupFailed (ordered : List ClusterSpec) (status : SolveStatus)
    (detail : String) : (markGroupFailed ordered status detail).reported = clusterTasks ordered := by
  simp only [ClusterResult.reported, markGroupFailed, List.map_nil, List.nil_append,
    List.map_flatMap, taskId_failureRecords, clusterTasks]

/-- A unit of work for the pool: its tasks and the reports that stand in for a crashed or a late
worker, which name each of them once. -/
structure PoolJob (J : Type) where
  taskIds : J → List String
  crashed : J → String → ClusterResult
  late : J → ℤ → ClusterResult
  reported_crashed : ∀ job detail, (crashed job detail).reported = taskIds job
  reported_late : ∀ job timeoutS, (late job timeoutS).reported = taskIds job

/-- Jobs of `_solve_parallel_batch`. -/
def clusterJob : PoolJob ClusterSpec where
  taskIds := ClusterSpec.taskIds
  crashed cluster detail :=
    { infeasible := failureRecords cluster .unknown detail
      telemetry := [{ clusterId := cluster.clusterId, status := .workerError
                      nTasks := cluster.taskIds.length, detail := detail }] }
  late cluster timeoutS :=
    let detail := s!"worker did not complete within {timeoutS}s"
    { infeasible := failureRecords cluster .optimizationTradeoff detail
      telemetry := [{ clusterId := cluster.clusterId, status := .poolTimeout
                      nTasks := cluster.taskIds.length, hitTimeLimit := true
                      timeLimitS := some timeoutS, detail := detail }] }
  reported_crashed _ _ := taskId_failureRecords _ _ _
  reported_late _ _ := taskId_failureRecords _ _ _

/-- Jobs of `_solve_groups_parallel`. -/
def groupJob : PoolJob (List ClusterSpec) where
  taskIds := clusterTasks
  crashed ordered detail := markGroupFailed ordered .workerError detail
  late ordered timeoutS :=
    markGroupFailed ordered .workerError s!"group did not complete within {timeoutS}s"
  reported_crashed _ _ := reported_markGroupFailed _ _ _
  reported_late _ _ := reported_markGroupFailed _ _ _

/-- How a future ends. -/
inductive Fate where
  | returned (result : ClusterResult)
  | crashed (detail : String)

/-- A future the timeout finds not yet handed out: done by then, or unfinished; a cancelled or
running worker may stop later or never. -/
inductive Straggler where
  | done (fate : Fate)
  | unfinished (stops : Bool)

/-- The pool can be left once the worker has stopped. -/
def Straggler.stops : Straggler → Bool
  | done _ => true
  | unfinished stops => stops

/-- One execution of the pool on some jobs: whether all of them were submitted before a worker
process died, the futures handed out in order of completion, and those the timeout finds. -/
structure PoolRun {J : Type} (returns : J → ClusterResult → Prop) (jobs : List J) where
  submitted : Bool
  arrivals : List (J × Fate)
  stragglers : List (J × Straggler)
  accounts : (arrivals.map Prod.fst ++ stragglers.map Prod.fst).Perm jobs
  honest : ∀ job result, (job, .returned result) ∈ arrivals → returns job result

namespace PoolRun

variable {J : Type} {returns : J → ClusterResult → Prop} {jobs : List J}

/-- The report of a future that was handed out. -/
def arrivalResult (job : PoolJob J) : J × Fate → ClusterResult
  | (_, .returned result) => result
  | (j, .crashed detail) => job.crashed j detail

/-- The report the timeout branch writes for a future. -/
def stragglerResult (job : PoolJob J) (timeoutS : ℤ) : J × Straggler → ClusterResult
  | (_, .done _) => { }
  | (j, .unfinished _) => job.late j timeoutS

/-- The collecting loop; leaving the pool waits for the workers that still run. -/
def collect (job : PoolJob J) (timeoutS : ℤ) (run : PoolRun returns jobs) :
    Option ClusterResult :=
  if run.submitted = true ∧ ∀ entry ∈ run.stragglers, entry.2.stops = true then
    some (.concat (run.arrivals.map (arrivalResult job) ++
      run.stragglers.map (stragglerResult job timeoutS)))
  else none

/-- Tasks of the futures that were done but not handed out when the timeout fired. -/
def unseen (job : PoolJob J) (run : PoolRun returns jobs) : List String :=
  run.stragglers.flatMap fun
    | (j, .done _) => job.taskIds j
    | (_, .unfinished _) => []

/-- All jobs are submitted, every worker stops, and a future that is done is handed out, unless
it has no tasks. -/
structure Clean (job : PoolJob J) (run : PoolRun returns jobs) : Prop where
  submitted : run.submitted = true
  stops : ∀ entry ∈ run.stragglers, entry.2.stops = true
  seen : ∀ j fate, (j, .done fate) ∈ run.stragglers → job.taskIds j = []

theorem unseen_eq_nil_iff (job : PoolJob J) (run : PoolRun returns jobs) :
    run.unseen job = [] ↔ ∀ j fate, (j, .done fate) ∈ run.stragglers → job.taskIds j = [] := by
  rw [unseen, List.flatMap_eq_nil_iff]
  constructor
  · intro none j fate member
    exact none (j, .done fate) member
  · rintro seen ⟨j, straggler⟩ member
    cases straggler with
    | done fate => exact seen j fate member
    | unfinished => rfl

/-- Every job is an arrival or a straggler. -/
theorem perm_shares {β : Type} (share : J → List β) (run : PoolRun returns jobs) :
    (run.arrivals.flatMap (fun entry => share entry.1) ++
      run.stragglers.flatMap fun entry => share entry.1).Perm (jobs.flatMap share) := by
  have permuted := run.accounts.flatMap_right share
  rwa [List.flatMap_append, List.flatMap_map, List.flatMap_map] at permuted

/-- Reported and unseen tasks together are the tasks of the jobs. -/
theorem perm_reported {job : PoolJob J} {timeoutS : ℤ} {run : PoolRun returns jobs}
    {result : ClusterResult}
    (exact_returns : ∀ j result, returns j result → result.reported.Perm (job.taskIds j))
    (collected : run.collect job timeoutS = some result) :
    (result.reported ++ run.unseen job).Perm (jobs.flatMap job.taskIds) := by
  unfold collect at collected
  split at collected
  · cases collected
    have arrived : ((run.arrivals.map (arrivalResult job)).flatMap ClusterResult.reported).Perm
        (run.arrivals.flatMap fun entry => job.taskIds entry.1) := by
      rw [List.flatMap_map]
      apply List.Perm.flatMap_left
      rintro ⟨j, fate⟩ member
      cases fate with
      | returned result => exact exact_returns j result (run.honest j result member)
      | crashed detail => exact .of_eq (job.reported_crashed j detail)
    have straggled :
        ((run.stragglers.map (stragglerResult job timeoutS)).flatMap ClusterResult.reported ++
          run.unseen job).Perm (run.stragglers.flatMap fun entry => job.taskIds entry.1) := by
      rw [List.flatMap_map, unseen]
      refine (List.flatMap_append_perm _ _ _).trans (.of_eq ?_)
      apply List.flatMap_congr
      rintro ⟨j, straggler⟩ -
      cases straggler with
      | done fate => rfl
      | unfinished stops => simp [stragglerResult, job.reported_late]
    have whole := (ClusterResult.reported_concat (run.arrivals.map (arrivalResult job) ++
      run.stragglers.map (stragglerResult job timeoutS))).append_right (run.unseen job)
    rw [List.flatMap_append, List.append_assoc] at whole
    exact (whole.trans (arrived.append straggled)).trans (run.perm_shares job.taskIds)
  · cases collected

/-- A run reports every task once if it is clean. -/
theorem accounts_collect {job : PoolJob J} (timeoutS : ℤ) (run : PoolRun returns jobs)
    (exact_returns : ∀ j result, returns j result → result.reported.Perm (job.taskIds j)) :
    Accounts (run.collect job timeoutS) (jobs.flatMap job.taskIds) (run.Clean job) where
  sound := by
    rintro ⟨submitted, stops, seen⟩
    obtain ⟨result, collected⟩ : ∃ result, run.collect job timeoutS = some result :=
      ⟨_, if_pos ⟨submitted, stops⟩⟩
    refine ⟨result, collected, ?_⟩
    have whole := perm_reported exact_returns collected
    rwa [(unseen_eq_nil_iff job run).mpr seen, List.append_nil] at whole
  lossy result collected := by
    refine ⟨run.unseen job, perm_reported exact_returns collected, fun none => ?_⟩
    unfold collect at collected
    split at collected
    · next closed => exact ⟨closed.1, closed.2, (unseen_eq_nil_iff job run).mp none⟩
    · cases collected

end PoolRun

/-- Committed intervals per operator, from the dispatches of a cluster. -/
def operatorIntervals (dispatch : List DispatchPackage) : Dict String (List (ℤ × ℤ)) :=
  Dict.groupBy (·.operatorAssetId)
    (fun package => (package.scheduledStart.truncated, package.scheduledEnd.truncated))
    (dispatch.filter fun package => package.operatorAssetId ≠ "" ∧
      package.scheduledStart.truncated < package.scheduledEnd.truncated)

/-- Held windows of shared operators, with the intervals a solved cluster committed. -/
def feedForward (shared : List String) (held : Dict String (List (ℤ × ℤ)))
    (dispatch : List DispatchPackage) : Dict String (List (ℤ × ℤ)) :=
  (operatorIntervals dispatch).entries.foldl (fun held entry =>
    if entry.1 ∈ shared then held.set entry.1 (held.getD entry.1 [] ++ entry.2) else held) held

/-- Solving one cluster under held operator windows; an exception carries its text. -/
abbrev ClusterWorker := ClusterSpec → Dict String (List (ℤ × ℤ)) → Except String ClusterResult

/-- Solve the clusters of one group in order, feeding committed intervals forward. -/
def solveGroup (worker : ClusterWorker) (held : Dict String (List (ℤ × ℤ))) :
    List ClusterSpec → Except String ClusterResult
  | [] => .ok { }
  | cluster :: rest =>
    match worker cluster held with
    | .error detail => .error detail
    | .ok result =>
      match solveGroup worker
          (feedForward cluster.sharedBackupOperators held result.dispatch) rest with
      | .error detail => .error detail
      | .ok others => .ok (result.append others)

/-- A worker that returns reports every task of its cluster once. -/
def ClusterReturns (cluster : ClusterSpec) (result : ClusterResult) : Prop :=
  result.reported.Perm cluster.taskIds

/-- What a group worker returns, from what its cluster solves return. -/
def GroupReturns (solves : ClusterSpec → ClusterResult → Prop) (ordered : List ClusterSpec)
    (result : ClusterResult) : Prop :=
  ∃ worker : ClusterWorker,
    (∀ cluster held result, worker cluster held = .ok result → solves cluster result) ∧
    solveGroup worker .empty ordered = .ok result

theorem perm_solveGroup {worker : ClusterWorker}
    (honest : ∀ cluster held result, worker cluster held = .ok result →
      ClusterReturns cluster result)
    {held : Dict String (List (ℤ × ℤ))} {ordered : List ClusterSpec} {result : ClusterResult}
    (solved : solveGroup worker held ordered = .ok result) :
    result.reported.Perm (clusterTasks ordered) := by
  induction ordered generalizing held result with
  | nil =>
    cases solved
    exact .refl _
  | cons cluster rest ih =>
    unfold solveGroup at solved
    cases head : worker cluster held with
    | error detail =>
      rw [head] at solved
      cases solved
    | ok first =>
      rw [head] at solved
      dsimp only at solved
      cases tail : solveGroup worker
          (feedForward cluster.sharedBackupOperators held first.dispatch) rest with
      | error detail =>
        rw [tail] at solved
        cases solved
      | ok others =>
        rw [tail] at solved
        cases solved
        exact (ClusterResult.reported_append _ _).trans
          ((honest cluster held first head).append (ih tail))

theorem GroupReturns.perm {ordered : List ClusterSpec} {result : ClusterResult}
    (returns : GroupReturns ClusterReturns ordered result) :
    result.reported.Perm (clusterTasks ordered) := by
  obtain ⟨worker, honest, solved⟩ := returns
  exact perm_solveGroup honest solved

/-- Clusters with an id each. -/
structure NamedClusters where
  clusters : List ClusterSpec
  distinct : (clusters.map (·.clusterId)).Nodup

namespace NamedClusters

variable (named : NamedClusters)

def byId : Dict String ClusterSpec := Dict.collect (·.clusterId) id named.clusters

/-- The sharing groups, if groups are to be solved sequentially. -/
def groups (sequential : Bool) : List (List String) :=
  if sequential then operatorSharingGroups named.clusters else []

/-- The clusters outside every group. -/
def independent (sequential : Bool) : List ClusterSpec :=
  named.clusters.filter fun cluster => cluster.clusterId ∉ (named.groups sequential).flatten

/-- The clusters of a group in value order, the highest penalty first. -/
def ordered (group : List String) : List ClusterSpec :=
  (sortBy (fun clusterId => toLex
    (-((named.byId.get? clusterId).elim 0 (·.totalPenaltyPerDay)), clusterId)) group).filterMap
      named.byId.get?

def prepared (sequential : Bool) : List (List ClusterSpec) :=
  (named.groups sequential).map named.ordered

variable {named}

theorem byId_of_mem {cluster : ClusterSpec} (member : cluster ∈ named.clusters) :
    named.byId.get? cluster.clusterId = some cluster := by
  have found := (Dict.isSome_get?_collect (·.clusterId) id named.clusters cluster.clusterId).mpr
    ⟨cluster, member, rfl⟩
  obtain ⟨other, located⟩ := Option.isSome_iff_exists.mp found
  obtain ⟨_, present, same, rfl⟩ := Dict.exists_of_get?_collect located
  rw [byId, located]
  exact congrArg some (List.inj_on_of_nodup_map named.distinct present member same)

theorem groups_spec (sequential : Bool) :
    (named.groups sequential).flatten.Nodup ∧
      (named.groups sequential).flatten ⊆ named.clusters.map (·.clusterId) := by
  unfold groups
  split
  · exact operatorSharingGroups_spec named.distinct
  · exact ⟨List.nodup_nil, List.nil_subset _⟩

/-- Looking up distinct cluster ids gives the clusters that have them. -/
theorem perm_filterMap_byId {ids : List String} (nodup : ids.Nodup)
    (known : ids ⊆ named.clusters.map (·.clusterId)) :
    (ids.filterMap named.byId.get?).Perm
      (named.clusters.filter fun cluster => cluster.clusterId ∈ ids) := by
  have listed : ((named.clusters.filter fun cluster => cluster.clusterId ∈ ids).map
      (·.clusterId)).Perm ids := by
    apply (List.perm_ext_iff_of_nodup
      (named.distinct.sublist (List.filter_sublist.map _)) nodup).mpr
    intro id
    simp only [List.mem_map, List.mem_filter, decide_eq_true_eq]
    constructor
    · rintro ⟨cluster, ⟨-, inside⟩, rfl⟩
      exact inside
    · intro member
      obtain ⟨cluster, present, rfl⟩ := List.mem_map.mp (known member)
      exact ⟨cluster, ⟨present, member⟩, rfl⟩
  refine (listed.symm.filterMap named.byId.get?).trans (.of_eq ?_)
  rw [List.filterMap_map]
  calc (named.clusters.filter fun cluster => cluster.clusterId ∈ ids).filterMap
        (named.byId.get? ∘ (·.clusterId))
      = (named.clusters.filter fun cluster => cluster.clusterId ∈ ids).filterMap some :=
        List.filterMap_congr fun cluster member => byId_of_mem (List.mem_of_mem_filter member)
    _ = _ := List.filterMap_some

/-- Independent clusters and groups together are the clusters. -/
theorem perm_jobs (sequential : Bool) :
    (named.independent sequential ++ (named.prepared sequential).flatten).Perm
      named.clusters := by
  obtain ⟨nodup, known⟩ := named.groups_spec sequential
  have grouped : (named.prepared sequential).flatten.Perm
      (named.clusters.filter fun cluster =>
        cluster.clusterId ∈ (named.groups sequential).flatten) := by
    refine List.Perm.trans ?_ (perm_filterMap_byId nodup known)
    rw [List.filterMap_flatten, prepared, ← List.flatMap_def, ← List.flatMap_def]
    apply List.Perm.flatMap_left
    intro group _
    exact (perm_sortBy _ group).filterMap _
  refine (List.Perm.append_left _ grouped).trans ?_
  have split := List.filter_append_perm
    (fun cluster : ClusterSpec => decide (cluster.clusterId ∈ (named.groups sequential).flatten))
    named.clusters
  simp only [← decide_not] at split
  exact List.perm_append_comm.trans split

end NamedClusters

/-- The clusters handed to the pool: each id once, as the clustering numbers them, and no task in
two places. -/
structure ClusterBatch where
  clusters : List ClusterSpec
  distinct : (clusters.map (·.clusterId)).Nodup
  disjoint : (clusterTasks clusters).Nodup

namespace ClusterBatch

variable (batch : ClusterBatch)

def byId : Dict String ClusterSpec := Dict.collect (·.clusterId) id batch.clusters

/-- The sharing groups, if groups are to be solved sequentially. -/
def groups (sequential : Bool) : List (List String) :=
  if sequential then operatorSharingGroups batch.clusters else []

/-- The clusters outside every group. -/
def independent (sequential : Bool) : List ClusterSpec :=
  batch.clusters.filter fun cluster => cluster.clusterId ∉ (batch.groups sequential).flatten

/-- The clusters of a group in value order, the highest penalty first. -/
def ordered (group : List String) : List ClusterSpec :=
  (sortBy (fun clusterId => toLex
    (-((batch.byId.get? clusterId).elim 0 (·.totalPenaltyPerDay)), clusterId)) group).filterMap
      batch.byId.get?

def prepared (sequential : Bool) : List (List ClusterSpec) :=
  (batch.groups sequential).map batch.ordered

variable {batch}

/-- The batch without its condition on tasks. -/
def named (batch : ClusterBatch) : NamedClusters := ⟨batch.clusters, batch.distinct⟩

/-- Independent clusters and groups together are the clusters of the batch. -/
theorem perm_jobs (sequential : Bool) :
    (batch.independent sequential ++ (batch.prepared sequential).flatten).Perm
      batch.clusters :=
  batch.named.perm_jobs sequential

end ClusterBatch

/-- The solution of the sharing groups: in the calling process if there is only one. -/
inductive GroupsRun (solves : ClusterSpec → ClusterResult → Prop)
    (prepared : List (List ClusterSpec)) where
  | none (empty : prepared = [])
  | lone {ordered : List ClusterSpec} (only : prepared = [ordered]) (fate : Fate)
      (honest : ∀ result, fate = .returned result → GroupReturns solves ordered result)
  | pooled (several : 2 ≤ prepared.length) (run : PoolRun (GroupReturns solves) prepared)

namespace GroupsRun

variable {solves : ClusterSpec → ClusterResult → Prop} {prepared : List (List ClusterSpec)}

/-- `_solve_sequential_groups`; an exception of a lone group is not caught. -/
def solve (timeoutS : ℤ) : GroupsRun solves prepared → Option ClusterResult
  | .none _ => some { }
  | .lone _ (.returned result) _ => some result
  | .lone _ (.crashed _) _ => Option.none
  | .pooled _ run => run.collect groupJob timeoutS

/-- A lone group does not crash, and several groups run cleanly. -/
def Clean : GroupsRun solves prepared → Prop
  | .none _ => True
  | .lone _ (.returned _) _ => True
  | .lone _ (.crashed _) _ => False
  | .pooled _ run => run.Clean groupJob

theorem clusterTasks_flatten (prepared : List (List ClusterSpec)) :
    clusterTasks prepared.flatten = prepared.flatMap groupJob.taskIds := by
  induction prepared with
  | nil => rfl
  | cons ordered rest ih =>
    rw [List.flatten_cons, clusterTasks, List.flatMap_append, List.flatMap_cons, ← ih]
    rfl

theorem accounts_solve (timeoutS : ℤ) (run : GroupsRun ClusterReturns prepared) :
    Accounts (run.solve timeoutS) (clusterTasks prepared.flatten) run.Clean := by
  cases run with
  | none empty =>
    apply Accounts.full _ trivial
    rw [empty]
    exact .refl _
  | @lone ordered only fate honest =>
    cases fate with
    | returned result =>
      apply Accounts.full _ trivial
      rw [clusterTasks_flatten, only, List.flatMap_singleton]
      exact (honest result rfl).perm
    | crashed detail => exact Accounts.never False.elim
  | pooled several run =>
    rw [clusterTasks_flatten]
    exact run.accounts_collect timeoutS fun _ _ returns => returns.perm

end GroupsRun

/-- One execution of the pool on a batch, from what its cluster solves return. -/
structure PoolExecution (solves : ClusterSpec → ClusterResult → Prop) (batch : ClusterBatch)
    (sequential : Bool) where
  parallel : PoolRun solves (batch.independent sequential)
  grouped : GroupsRun solves (batch.prepared sequential)
  timeoutS : ℤ
  groupTimeoutS : ℤ

namespace PoolExecution

variable {solves : ClusterSpec → ClusterResult → Prop} {batch : ClusterBatch} {sequential : Bool}

/-- `_solve_parallel_batch`; without clusters no pool is opened. -/
def solveParallelBatch (execution : PoolExecution solves batch sequential) : Option ClusterResult :=
  if batch.independent sequential = [] then some { }
  else execution.parallel.collect clusterJob execution.timeoutS

/-- Solve all clusters, those outside every group in parallel and then the groups. -/
def poolSolve (execution : PoolExecution solves batch sequential) : Option ClusterResult :=
  if batch.clusters = [] then some { }
  else
    execution.solveParallelBatch.bind fun result =>
      (execution.grouped.solve execution.groupTimeoutS).map result.append

/-- Both parts run cleanly; nothing has to be clean about a pool that is not opened. -/
structure Clean (execution : PoolExecution solves batch sequential) : Prop where
  parallel : batch.independent sequential = [] ∨ execution.parallel.Clean clusterJob
  grouped : execution.grouped.Clean

theorem accounts_solveParallelBatch (execution : PoolExecution ClusterReturns batch sequential) :
    Accounts execution.solveParallelBatch (clusterTasks (batch.independent sequential))
      (batch.independent sequential = [] ∨ execution.parallel.Clean clusterJob) := by
  unfold solveParallelBatch
  split
  · next none => exact Accounts.full (by simp [none, clusterTasks, ClusterResult.reported]) (.inl none)
  · next some =>
    have accounts : Accounts (execution.parallel.collect clusterJob execution.timeoutS) _ _ :=
      execution.parallel.accounts_collect execution.timeoutS fun _ _ returns => returns
    exact accounts.congr (.refl _) (or_iff_right some).symm

theorem clean_iff (execution : PoolExecution solves batch sequential) :
    execution.Clean ↔
      (batch.independent sequential = [] ∨ execution.parallel.Clean clusterJob) ∧
        execution.grouped.Clean :=
  ⟨fun clean => ⟨clean.parallel, clean.grouped⟩, fun ⟨parallel, grouped⟩ => ⟨parallel, grouped⟩⟩

/-- Without clusters there are no groups either. -/
theorem clean_of_nil (execution : PoolExecution solves batch sequential)
    (none : batch.clusters = []) :
    execution.Clean where
  parallel := by
    left
    rw [ClusterBatch.independent, none, List.filter_nil]
  grouped := by
    have empty : batch.prepared sequential = [] := by
      rw [ClusterBatch.prepared, ClusterBatch.groups, none]
      cases sequential <;> rfl
    cases execution.grouped with
    | none => trivial
    | lone only => simp [empty] at only
    | pooled several => simp [empty] at several

theorem accounts_poolSolve (execution : PoolExecution ClusterReturns batch sequential) :
    Accounts execution.poolSolve (clusterTasks batch.clusters) execution.Clean := by
  have parts := execution.accounts_solveParallelBatch.append
    (execution.grouped.accounts_solve execution.groupTimeoutS)
  have tasks : (clusterTasks (batch.independent sequential) ++
      clusterTasks (batch.prepared sequential).flatten).Perm (clusterTasks batch.clusters) := by
    rw [clusterTasks, clusterTasks, ← List.flatMap_append]
    exact (batch.perm_jobs sequential).flatMap_right _
  have whole := parts.congr tasks execution.clean_iff.symm
  unfold poolSolve
  split
  · next none =>
    apply Accounts.full _ (execution.clean_of_nil none)
    rw [none]
    exact .refl _
  · exact whole

end PoolExecution

/-- The pool returns and reports every task of every cluster once. -/
def ReportsOnce (batch : ClusterBatch) (solved : Option ClusterResult) : Prop :=
  ∃ result, solved = some result ∧
    ∀ cluster ∈ batch.clusters, ∀ id ∈ cluster.taskIds, result.reported.count id = 1

/-- The pool reports every task once exactly for clean executions. -/
theorem poolSolve_reportsOnce_iff {batch : ClusterBatch} {sequential : Bool}
    (execution : PoolExecution ClusterReturns batch sequential) :
    ReportsOnce batch execution.poolSolve ↔ execution.Clean := by
  rw [← execution.accounts_poolSolve.once_iff batch.disjoint]
  have members : ∀ result : ClusterResult,
      (∀ cluster ∈ batch.clusters, ∀ id ∈ cluster.taskIds, result.reported.count id = 1) ↔
        ∀ id ∈ clusterTasks batch.clusters, result.reported.count id = 1 := by
    intro result
    simp only [clusterTasks, List.mem_flatMap]
    grind
  simp only [ReportsOnce, members]

/-- One cluster of one task. -/
def mowingBatch : ClusterBatch where
  clusters := [{ clusterId := "cluster_000000", taskIds := ["mow-1"] }]
  distinct := by decide
  disjoint := by decide

/-- The worker of the cluster has returned when the timeout fires, but its future was not handed
out yet. -/
def unseenExecution : PoolExecution ClusterReturns mowingBatch false where
  parallel :=
    { submitted := true
      arrivals := []
      stragglers := [({ clusterId := "cluster_000000", taskIds := ["mow-1"] }, .done (.returned
        { infeasible := [⟨"mow-1", "cluster_000000", .optimizationTradeoff, ""⟩] }))]
      accounts := by decide
      honest := by simp }
  grouped := .none rfl
  timeoutS := 120
  groupTimeoutS := 0

/-- The cluster that was done but not handed out is reported nowhere. -/
theorem done_cluster_is_lost :
    ¬ ∀ (batch : ClusterBatch) (sequential : Bool)
        (execution : PoolExecution ClusterReturns batch sequential),
      ReportsOnce batch execution.poolSolve := by
  intro accounted
  obtain ⟨result, solved, once⟩ := accounted mowingBatch false unseenExecution
  have empty : unseenExecution.poolSolve = some { } := by decide
  rw [empty] at solved
  cases solved
  have counted := once _ List.mem_cons_self "mow-1" List.mem_cons_self
  revert counted
  decide

end FlOp.Solver
