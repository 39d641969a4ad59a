import FlOp.Solver.ClusterPool
import FlOp.Solver.TaskLedger

/-! # What the pool reports

A pool that returns reports on its clusters: what the solve of a cluster returned, or a record for
each of its tasks if the worker crashed or came too late. Clusters that were done but not handed
out are missing. If every solve settles the tasks of its cluster, the pool settles the tasks of the
clusters it reports on.
-/

namespace FlOp.Solver

open Library

namespace ClusterResult

@[simp] theorem nil_append (result : ClusterResult) :
    ClusterResult.append { } result = result := rfl

@[simp] theorem append_nil (result : ClusterResult) : result.append { } = result := by
  simp only [append, List.append_nil]

theorem append_assoc (first second third : ClusterResult) :
    (first.append second).append third = first.append (second.append third) := by
  simp only [append, List.append_assoc]

theorem concat_append (results others : List ClusterResult) :
    concat (results ++ others) = (concat results).append (concat others) := by
  induction results with
  | nil => rfl
  | cons result rest ih =>
    change result.append (concat (rest ++ others)) = _
    rw [ih, ← append_assoc]
    rfl

end ClusterResult

/-- A report put together from the reports on some clusters. The solve of a cluster is taken, or
all of its tasks are recorded. -/
inductive Reports (solves : ClusterSpec → ClusterResult → Prop) :
    List ClusterSpec → List ClusterSpec → ClusterResult → Prop where
  | nil : Reports solves [] [] { }
  | solved {cluster : ClusterSpec} {rest taken : List ClusterSpec} {first others : ClusterResult}
      (returned : solves cluster first) (later : Reports solves rest taken others) :
      Reports solves (cluster :: rest) (cluster :: taken) (first.append others)
  | recorded {cluster : ClusterSpec} {rest taken : List ClusterSpec} {first others : ClusterResult}
      (undispatched : first.dispatch = [])
      (records : first.infeasible.map (·.taskId) = cluster.taskIds)
      (later : Reports solves rest taken others) :
      Reports solves (cluster :: rest) taken (first.append others)

namespace Reports

variable {solves : ClusterSpec → ClusterResult → Prop} {clusters others taken : List ClusterSpec}
  {result more : ClusterResult}

theorem append {moreTaken : List ClusterSpec} (reports : Reports solves clusters taken result)
    (reportsMore : Reports solves others moreTaken more) :
    Reports solves (clusters ++ others) (taken ++ moreTaken) (result.append more) := by
  induction reports with
  | nil => exact reportsMore
  | solved returned later ih =>
    rw [List.cons_append, List.cons_append, ClusterResult.append_assoc]
    exact .solved returned ih
  | recorded undispatched records later ih =>
    rw [List.cons_append, ClusterResult.append_assoc]
    exact .recorded undispatched records ih

theorem one {cluster : ClusterSpec} (returned : solves cluster result) :
    Reports solves [cluster] [cluster] result := by
  rw [← result.append_nil]
  exact .solved returned .nil

theorem oneRecorded {cluster : ClusterSpec} (undispatched : result.dispatch = [])
    (records : result.infeasible.map (·.taskId) = cluster.taskIds) :
    Reports solves [cluster] [] result := by
  rw [← result.append_nil]
  exact .recorded undispatched records .nil

theorem markGroupFailed (ordered : List ClusterSpec) (status : SolveStatus) (detail : String) :
    Reports solves ordered [] (Solver.markGroupFailed ordered status detail) := by
  induction ordered with
  | nil => exact .nil
  | cons cluster rest ih =>
    have head : (Solver.markGroupFailed [cluster] status detail).infeasible.map (·.taskId) =
        cluster.taskIds := by
      rw [Solver.markGroupFailed, List.flatMap_singleton, taskId_failureRecords]
    have split : Solver.markGroupFailed (cluster :: rest) status detail =
        (Solver.markGroupFailed [cluster] status detail).append
          (Solver.markGroupFailed rest status detail) := by
      simp only [Solver.markGroupFailed, ClusterResult.append, List.flatMap_cons, List.flatMap_nil,
        List.append_nil, List.map_cons, List.map_nil, List.cons_append, List.nil_append]
    rw [split]
    exact .recorded rfl head ih

/-- A group worker reports on its clusters in order. -/
theorem solveGroup {worker : ClusterWorker} (honest : ∀ cluster held result,
      worker cluster held = .ok result → solves cluster result)
    {held : Dict String (List (ℤ × ℤ))} {ordered : List ClusterSpec}
    (solved : Solver.solveGroup worker held ordered = .ok result) :
    Reports solves ordered ordered result := by
  induction ordered generalizing held result with
  | nil =>
    cases solved
    exact .nil
  | cons cluster rest ih =>
    unfold Solver.solveGroup at solved
    cases head : worker cluster held with
    | error detail =>
      rw [head] at solved
      cases solved
    | ok first =>
      rw [head] at solved
      dsimp only at solved
      cases tail : Solver.solveGroup worker
          (feedForward cluster.sharedBackupOperators held first.dispatch) rest with
      | error detail =>
        rw [tail] at solved
        cases solved
      | ok others =>
        rw [tail] at solved
        cases solved
        exact .solved (honest cluster held first head) (ih tail)

/-- The reports of several jobs, one after the other. -/
theorem flatMap {α : Type*} {items : List α} {clustersOf takenOf : α → List ClusterSpec}
    {resultOf : α → ClusterResult}
    (each : ∀ item ∈ items, Reports solves (clustersOf item) (takenOf item) (resultOf item)) :
    Reports solves (items.flatMap clustersOf) (items.flatMap takenOf)
      (.concat (items.map resultOf)) := by
  induction items with
  | nil => exact .nil
  | cons item rest ih =>
    exact (each item List.mem_cons_self).append
      (ih fun other later => each other (List.mem_cons_of_mem _ later))

/-- The solve of a cluster is taken from one of the clusters reported on. -/
theorem taken_subset (reports : Reports solves clusters taken result) : taken ⊆ clusters := by
  induction reports with
  | nil => exact List.Subset.refl _
  | solved _ _ ih => exact List.cons_subset_cons _ ih
  | recorded _ _ _ ih => exact List.subset_cons_of_subset _ ih

/-- Every package comes from the solve of a cluster. -/
theorem exists_of_dispatch (reports : Reports solves clusters taken result)
    {package : DispatchPackage} (member : package ∈ result.dispatch) :
    ∃ cluster ∈ clusters, ∃ solved, solves cluster solved ∧ package ∈ solved.dispatch := by
  induction reports with
  | nil => cases member
  | @solved cluster rest taken first others returned later ih =>
    rcases List.mem_append.mp member with here | there
    · exact ⟨cluster, List.mem_cons_self, first, returned, here⟩
    · obtain ⟨home, listed, kept⟩ := ih there
      exact ⟨home, List.mem_cons_of_mem _ listed, kept⟩
  | recorded undispatched records later ih =>
    rcases List.mem_append.mp member with here | there
    · rw [undispatched] at here
      cases here
    · obtain ⟨home, listed, kept⟩ := ih there
      exact ⟨home, List.mem_cons_of_mem _ listed, kept⟩

/-- Every record comes from the solve of a cluster or names one of its tasks. -/
theorem exists_of_infeasible (reports : Reports solves clusters taken result)
    {record : InfeasibleRecord} (member : record ∈ result.infeasible) :
    ∃ cluster ∈ clusters, record.taskId ∈ cluster.taskIds ∨
      ∃ solved, solves cluster solved ∧ record ∈ solved.infeasible := by
  induction reports with
  | nil => cases member
  | @solved cluster rest taken first others returned later ih =>
    rcases List.mem_append.mp member with here | there
    · exact ⟨cluster, List.mem_cons_self, .inr ⟨first, returned, here⟩⟩
    · obtain ⟨home, listed, kept⟩ := ih there
      exact ⟨home, List.mem_cons_of_mem _ listed, kept⟩
  | @recorded cluster rest taken first others undispatched records later ih =>
    rcases List.mem_append.mp member with here | there
    · exact ⟨cluster, List.mem_cons_self, .inl (records ▸ List.mem_map_of_mem here)⟩
    · obtain ⟨home, listed, kept⟩ := ih there
      exact ⟨home, List.mem_cons_of_mem _ listed, kept⟩

/-- If every solve settles the tasks of its cluster, up to records it makes again, and no group is
spread over clusters, then the report settles the tasks of all clusters, up to the records that the
solves taken made again. -/
theorem settles {group : String → String} {again : ClusterSpec → List String}
    (reports : Reports solves clusters taken result)
    (each : ∀ cluster ∈ clusters, ∀ solved, solves cluster solved → ∃ recorded,
      (solved.infeasible.map (·.taskId)).Perm (again cluster ++ recorded) ∧
        Settles group cluster.taskIds (solved.dispatch.map (·.taskId)) recorded)
    (nodup : (clusterTasks clusters).Nodup)
    (naming : GroupsNameMembers group (clusterTasks clusters))
    (whole : clusters.Pairwise fun a b => SeparateGroups group a.taskIds b.taskIds) :
    ∃ recorded, (result.infeasible.map (·.taskId)).Perm (taken.flatMap again ++ recorded) ∧
      Settles group (clusterTasks clusters) (result.dispatch.map (·.taskId)) recorded := by
  have step : ∀ {cluster : ClusterSpec} {rest : List ClusterSpec} {first others : ClusterResult}
      {recorded recordedLater : List String},
      (clusterTasks (cluster :: rest)).Nodup →
      GroupsNameMembers group (clusterTasks (cluster :: rest)) →
      (∀ other ∈ rest, SeparateGroups group cluster.taskIds other.taskIds) →
      Settles group cluster.taskIds (first.dispatch.map (·.taskId)) recorded →
      Settles group (clusterTasks rest) (others.dispatch.map (·.taskId)) recordedLater →
      Settles group (clusterTasks (cluster :: rest))
        ((first.append others).dispatch.map (·.taskId)) (recorded ++ recordedLater) := by
    intro cluster rest first others recorded recordedLater nodup naming whole settled later
    simp only [ClusterResult.append, List.map_append]
    refine settled.append later (List.nodup_append'.mp nodup).2.2 naming ?_
    intro id listed other otherListed
    obtain ⟨home, member, inside⟩ := List.mem_flatMap.mp (later.dispatched_known otherListed)
    exact whole home member id (settled.dispatched_known listed) other inside
  induction reports with
  | nil => exact ⟨[], .refl _, .nil group⟩
  | @solved cluster rest taken first others returned later ih =>
    obtain ⟨separate, whole⟩ := List.pairwise_cons.mp whole
    obtain ⟨recordedLater, permLater, settledLater⟩ :=
      ih (fun other member => each other (List.mem_cons_of_mem _ member))
        (List.nodup_append'.mp nodup).2.1 (naming.subset (List.subset_append_right _ _)) whole
    obtain ⟨recorded, perm, settled⟩ := each cluster List.mem_cons_self first returned
    refine ⟨recorded ++ recordedLater, ?_, step nodup naming separate settled settledLater⟩
    simp only [ClusterResult.append, List.map_append, List.flatMap_cons, List.append_assoc]
    refine (perm.append permLater).trans ?_
    rw [List.append_assoc]
    exact (List.perm_append_comm_assoc _ _ _).append_left _
  | @recorded cluster rest taken first others undispatched records later ih =>
    obtain ⟨separate, whole⟩ := List.pairwise_cons.mp whole
    obtain ⟨recordedLater, permLater, settledLater⟩ :=
      ih (fun other member => each other (List.mem_cons_of_mem _ member))
        (List.nodup_append'.mp nodup).2.1 (naming.subset (List.subset_append_right _ _)) whole
    have settled : Settles group cluster.taskIds (first.dispatch.map (·.taskId))
        (first.infeasible.map (·.taskId)) := by
      rw [undispatched, records]
      exact .ofRecorded (List.nodup_append'.mp nodup).1
    refine ⟨first.infeasible.map (·.taskId) ++ recordedLater, ?_,
      step nodup naming separate settled settledLater⟩
    simp only [ClusterResult.append, List.map_append]
    exact (permLater.append_left _).trans (List.perm_append_comm_assoc _ _ _)

end Reports

/-- Every job was submitted and every worker stops. -/
def PoolRun.Returns {J : Type} {returns : J → ClusterResult → Prop} {jobs : List J}
    (run : PoolRun returns jobs) : Prop :=
  run.submitted = true ∧ ∀ entry ∈ run.stragglers, entry.2.stops = true

theorem PoolRun.isSome_collect {J : Type} {returns : J → ClusterResult → Prop} {jobs : List J}
    (job : PoolJob J) (timeoutS : ℤ) (run : PoolRun returns jobs) :
    (run.collect job timeoutS).isSome ↔ run.Returns := by
  unfold collect Returns
  split
  · next closed => exact iff_of_true rfl closed
  · next fails => exact iff_of_false Bool.false_ne_true fails

/-- The clusters of the jobs whose reports were handed out. -/
def PoolRun.taken {J : Type} {returns : J → ClusterResult → Prop} {jobs : List J}
    (clustersOf : J → List ClusterSpec) (run : PoolRun returns jobs) : List ClusterSpec :=
  run.arrivals.flatMap fun
    | (j, .returned _) => clustersOf j
    | (_, .crashed _) => []

section Collect

variable {J : Type} {solves : ClusterSpec → ClusterResult → Prop}
  {returns : J → ClusterResult → Prop} {jobs : List J} {job : PoolJob J}
  {clustersOf : J → List ClusterSpec}

/-- The clusters of a straggler that the timeout branch reports on. -/
def unfinishedClusters (clustersOf : J → List ClusterSpec) : J × Straggler → List ClusterSpec
  | (_, .done _) => []
  | (j, .unfinished _) => clustersOf j

/-- The clusters of a straggler that nobody reports on. -/
def doneClusters (clustersOf : J → List ClusterSpec) : J × Straggler → List ClusterSpec
  | (j, .done _) => clustersOf j
  | (_, .unfinished _) => []

theorem PoolRun.reports_arrivals (run : PoolRun returns jobs)
    (returned : ∀ j result, returns j result →
      Reports solves (clustersOf j) (clustersOf j) result)
    (crashed : ∀ j detail, Reports solves (clustersOf j) [] (job.crashed j detail)) :
    Reports solves (run.arrivals.flatMap fun entry => clustersOf entry.1)
      (run.taken clustersOf) (.concat (run.arrivals.map (arrivalResult job))) := by
  apply Reports.flatMap
  rintro ⟨j, fate⟩ listed
  cases fate with
  | returned result => exact returned j result (run.honest j result listed)
  | crashed detail => exact crashed j detail

theorem PoolRun.reports_stragglers (run : PoolRun returns jobs) (timeoutS : ℤ)
    (late : ∀ j, Reports solves (clustersOf j) [] (job.late j timeoutS)) :
    Reports solves (run.stragglers.flatMap (unfinishedClusters clustersOf)) []
      (.concat (run.stragglers.map (stragglerResult job timeoutS))) := by
  have none : (run.stragglers.flatMap fun _ => ([] : List ClusterSpec)) = [] :=
    List.flatMap_eq_nil_iff.mpr fun _ _ => rfl
  rw [← none]
  apply Reports.flatMap
  rintro ⟨j, straggler⟩ -
  cases straggler with
  | done fate => exact .nil
  | unfinished stops => exact late j

/-- A straggler is reported on or done. -/
theorem perm_stragglers (clustersOf : J → List ClusterSpec) (stragglers : List (J × Straggler)) :
    (stragglers.flatMap (unfinishedClusters clustersOf) ++
      stragglers.flatMap (doneClusters clustersOf)).Perm
        (stragglers.flatMap fun entry => clustersOf entry.1) := by
  refine (List.flatMap_append_perm _ _ _).trans (.of_eq ?_)
  apply List.flatMap_congr
  rintro ⟨j, straggler⟩ -
  cases straggler with
  | done fate => exact List.nil_append _
  | unfinished stops => exact List.append_nil _

/-- A pool that returns reports on the clusters of its jobs, but for those whose futures were done
and not handed out. -/
theorem PoolRun.reports_collect (clustersOf : J → List ClusterSpec) (run : PoolRun returns jobs)
    {timeoutS : ℤ} {result : ClusterResult} (collected : run.collect job timeoutS = some result)
    (returned : ∀ j result, returns j result →
      Reports solves (clustersOf j) (clustersOf j) result)
    (crashed : ∀ j detail, Reports solves (clustersOf j) [] (job.crashed j detail))
    (late : ∀ j, Reports solves (clustersOf j) [] (job.late j timeoutS))
    (tasks : ∀ j, job.taskIds j = clusterTasks (clustersOf j)) :
    ∃ seen unseen, (seen ++ unseen).Perm (jobs.flatMap clustersOf) ∧
      clusterTasks unseen = run.unseen job ∧ Reports solves seen (run.taken clustersOf) result := by
  unfold collect at collected
  split at collected
  · cases collected
    refine ⟨run.arrivals.flatMap (fun entry => clustersOf entry.1) ++
      run.stragglers.flatMap (unfinishedClusters clustersOf),
      run.stragglers.flatMap (doneClusters clustersOf), ?_, ?_, ?_⟩
    · rw [List.append_assoc]
      exact ((perm_stragglers clustersOf run.stragglers).append_left _).trans
        (run.perm_shares clustersOf)
    · rw [clusterTasks, PoolRun.unseen, List.flatMap_assoc]
      apply List.flatMap_congr
      rintro ⟨j, straggler⟩ -
      cases straggler with
      | done fate => exact (tasks j).symm
      | unfinished stops => rfl
    · rw [ClusterResult.concat_append, ← (run.taken clustersOf).append_nil]
      exact (run.reports_arrivals returned crashed).append (run.reports_stragglers timeoutS late)
  · cases collected

end Collect

namespace GroupsRun

variable {solves : ClusterSpec → ClusterResult → Prop} {prepared : List (List ClusterSpec)}

/-- A lone group does not crash, and several groups are solved by a pool that returns. -/
def Returns : GroupsRun solves prepared → Prop
  | .none _ => True
  | .lone _ (.returned _) _ => True
  | .lone _ (.crashed _) _ => False
  | .pooled _ run => run.Returns

/-- Tasks of the groups that were done but not handed out. -/
def unseen : GroupsRun solves prepared → List String
  | .none _ => []
  | .lone _ _ _ => []
  | .pooled _ run => run.unseen groupJob

/-- The clusters whose solves were taken. -/
def taken : GroupsRun solves prepared → List ClusterSpec
  | .none _ => []
  | .lone _ (.returned _) _ => prepared.flatten
  | .lone _ (.crashed _) _ => []
  | .pooled _ run => run.taken id

theorem isSome_solve (timeoutS : ℤ) (run : GroupsRun solves prepared) :
    (run.solve timeoutS).isSome ↔ run.Returns := by
  cases run with
  | none empty => exact iff_of_true rfl trivial
  | lone only fate honest =>
    cases fate with
    | returned result => exact iff_of_true rfl trivial
    | crashed detail => exact iff_of_false Bool.false_ne_true id
  | pooled several run => exact run.isSome_collect groupJob timeoutS

/-- The sharing groups are reported on, but for those that were not handed out. -/
theorem reports_solve {run : GroupsRun solves prepared} {timeoutS : ℤ} {result : ClusterResult}
    (solved : run.solve timeoutS = some result) :
    ∃ seen missed, (seen ++ missed).Perm prepared.flatten ∧ clusterTasks missed = run.unseen ∧
      Reports solves seen run.taken result := by
  have returned : ∀ ordered result, GroupReturns solves ordered result →
      Reports solves ordered ordered result := by
    rintro ordered result ⟨worker, honest, solved⟩
    exact Reports.solveGroup honest solved
  cases run with
  | none empty =>
    cases solved
    exact ⟨[], [], by rw [empty]; exact .refl _, rfl, .nil⟩
  | @lone ordered only fate honest =>
    cases fate with
    | returned _ =>
      cases solved
      have whole : prepared.flatten = ordered := by rw [only, List.flatten_singleton]
      refine ⟨ordered, [], .of_eq ((List.append_nil _).trans whole.symm), rfl, ?_⟩
      rw [taken, whole]
      exact returned ordered result (honest result rfl)
    | crashed detail => cases solved
  | pooled several run =>
    rw [← List.flatMap_id]
    exact run.reports_collect id solved returned
      (fun ordered detail => .markGroupFailed ordered _ detail)
      (fun ordered => .markGroupFailed ordered _ _) fun _ => rfl

end GroupsRun

namespace PoolExecution

variable {solves : ClusterSpec → ClusterResult → Prop} {batch : ClusterBatch} {sequential : Bool}

/-- Both parts of the pool return. -/
def Returns (execution : PoolExecution solves batch sequential) : Prop :=
  (batch.independent sequential = [] ∨ execution.parallel.Returns) ∧ execution.grouped.Returns

/-- Tasks of the clusters that were done when a timeout fired but not handed out. -/
def unseen (execution : PoolExecution solves batch sequential) : List String :=
  (if batch.independent sequential = [] then [] else execution.parallel.unseen clusterJob) ++
    execution.grouped.unseen

/-- The clusters whose solves the pool took. -/
def taken (execution : PoolExecution solves batch sequential) : List ClusterSpec :=
  (if batch.independent sequential = [] then []
    else execution.parallel.taken fun cluster => [cluster]) ++ execution.grouped.taken

/-- Without clusters there are no groups either. -/
theorem grouped_of_nil (execution : PoolExecution solves batch sequential)
    (none : batch.clusters = []) : execution.grouped.Returns ∧ execution.grouped.unseen = [] ∧
      execution.grouped.taken = [] := by
  have empty : batch.prepared sequential = [] := by
    rw [ClusterBatch.prepared, ClusterBatch.groups, none]
    cases sequential <;> rfl
  cases execution.grouped with
  | none => exact ⟨trivial, rfl, rfl⟩
  | lone only => simp [empty] at only
  | pooled several => simp [empty] at several

theorem independent_of_nil (none : batch.clusters = []) : batch.independent sequential = [] := by
  rw [ClusterBatch.independent, none, List.filter_nil]

theorem isSome_poolSolve (execution : PoolExecution solves batch sequential) :
    execution.poolSolve.isSome ↔ execution.Returns := by
  unfold poolSolve
  split
  · next none =>
    exact iff_of_true rfl ⟨.inl (independent_of_nil none), (execution.grouped_of_nil none).1⟩
  · have parallel : execution.solveParallelBatch.isSome ↔
        batch.independent sequential = [] ∨ execution.parallel.Returns := by
      unfold solveParallelBatch
      split
      · next none => exact iff_of_true rfl (.inl none)
      · next some =>
        rw [execution.parallel.isSome_collect, or_iff_right some]
    rw [Returns, ← parallel, ← execution.grouped.isSome_solve execution.groupTimeoutS]
    cases execution.solveParallelBatch <;> simp

/-- The pool reports on the clusters of its batch, but for those that were not handed out. -/
theorem reports_poolSolve {execution : PoolExecution solves batch sequential}
    {result : ClusterResult} (solved : execution.poolSolve = some result) :
    ∃ seen missed, (seen ++ missed).Perm batch.clusters ∧
      clusterTasks missed = execution.unseen ∧ Reports solves seen execution.taken result := by
  have parallel : ∀ first, execution.solveParallelBatch = some first →
      ∃ seen missed, (seen ++ missed).Perm (batch.independent sequential) ∧
        clusterTasks missed = (if batch.independent sequential = [] then []
          else execution.parallel.unseen clusterJob) ∧
        Reports solves seen (if batch.independent sequential = [] then []
          else execution.parallel.taken fun cluster => [cluster]) first := by
    intro first solved
    unfold solveParallelBatch at solved
    split at solved
    · next none =>
      cases solved
      refine ⟨[], [], .of_eq none.symm, (if_pos none).symm, ?_⟩
      rw [if_pos none]
      exact .nil
    · next some =>
      obtain ⟨seen, missed, same, unseen, reports⟩ := execution.parallel.reports_collect
        (fun cluster => [cluster]) solved (fun _ _ => .one)
        (fun _ _ => .oneRecorded rfl (taskId_failureRecords _ _ _))
        (fun _ => .oneRecorded rfl (taskId_failureRecords _ _ _))
        fun cluster => (List.append_nil cluster.taskIds).symm
      rw [List.flatMap_singleton'] at same
      refine ⟨seen, missed, same, unseen.trans (if_neg some).symm, ?_⟩
      rwa [if_neg some]
  unfold poolSolve at solved
  split at solved
  · next none =>
    cases solved
    have alone : batch.independent sequential = [] := independent_of_nil none
    obtain ⟨-, unseenNone, takenNone⟩ := execution.grouped_of_nil none
    refine ⟨[], [], .of_eq none.symm, ?_, ?_⟩
    · rw [unseen, if_pos alone, unseenNone]
      rfl
    · rw [taken, if_pos alone, takenNone]
      exact .nil
  · obtain ⟨first, solvedFirst, rest⟩ := Option.bind_eq_some_iff.mp solved
    obtain ⟨second, solvedSecond, rfl⟩ := Option.map_eq_some_iff.mp rest
    obtain ⟨seen, missed, same, unseenFirst, reports⟩ := parallel first solvedFirst
    obtain ⟨more, moreMissed, sameMore, unseenMore, reportsMore⟩ :=
      GroupsRun.reports_solve solvedSecond
    refine ⟨seen ++ more, missed ++ moreMissed, ?_, ?_, reports.append reportsMore⟩
    · have parts := (same.append sameMore).trans (batch.perm_jobs sequential)
      refine List.Perm.trans (.of_eq ?_) ((List.Perm.append_left seen
        (List.perm_append_comm_assoc more missed moreMissed)).trans ?_)
      · simp only [List.append_assoc]
      · simpa only [List.append_assoc] using parts
    · rw [clusterTasks, List.flatMap_append]
      exact congrArg₂ (· ++ ·) unseenFirst unseenMore

/-- The solves that are taken are those of clusters of the batch. -/
theorem taken_subset {execution : PoolExecution solves batch sequential} {result : ClusterResult}
    (solved : execution.poolSolve = some result) : execution.taken ⊆ batch.clusters := by
  obtain ⟨seen, missed, parts, -, reports⟩ := reports_poolSolve solved
  exact fun cluster member => parts.subset (List.mem_append_left _ (reports.taken_subset member))

end PoolExecution

end FlOp.Solver
