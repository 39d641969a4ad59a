import FlOp.Solver.Allocation
import FlOp.Solver.Material
import FlOp.Solver.OperatorQualification
import FlOp.Solver.PoolReports

/-! # Stages between clustering and the pool

Allocation hands every cluster its resources and moves no task. Operator qualification and material
limits take tasks out of the clusters, each with a record.
-/

namespace FlOp.Solver

open FlOp.Core Library

/-- A stage takes tasks out of the clusters and records them; the clusters keep their ids. -/
structure Excludes (before after : List ClusterSpec) (records : List String) : Prop where
  narrowed : List.Forall₂ (fun first second : ClusterSpec =>
    second.clusterId = first.clusterId ∧ second.taskIds.Sublist first.taskIds) before after
  perm : (clusterTasks after ++ records).Perm (clusterTasks before)

namespace Excludes

variable {before after last : List ClusterSpec} {records more : List String}

theorem refl (clusters : List ClusterSpec) : Excludes clusters clusters [] where
  narrowed := List.forall₂_same.mpr fun _ _ => ⟨rfl, List.Sublist.refl _⟩
  perm := .of_eq (List.append_nil _)

theorem trans (excludes : Excludes before after records) (excludesMore : Excludes after last more) :
    Excludes before last (records ++ more) where
  narrowed := by
    have chained := excludes.narrowed
    have chainedMore := excludesMore.narrowed
    clear excludes excludesMore
    induction chained generalizing last with
    | nil =>
      cases chainedMore
      exact .nil
    | cons head _ ih =>
      cases chainedMore with
      | cons headMore rest =>
        exact .cons ⟨headMore.1.trans head.1, headMore.2.trans head.2⟩ (ih rest)
  perm := by
    refine List.Perm.trans ?_ ((excludesMore.perm.append_right _).trans excludes.perm)
    rw [List.append_assoc]
    exact List.perm_append_comm.append_left _

/-- One cluster after the other. -/
theorem cons {first second : ClusterSpec} (id : second.clusterId = first.clusterId)
    (sublist : second.taskIds.Sublist first.taskIds)
    (perm : (second.taskIds ++ records).Perm first.taskIds) (excludes : Excludes before after more) :
    Excludes (first :: before) (second :: after) (records ++ more) where
  narrowed := .cons ⟨id, sublist⟩ excludes.narrowed
  perm := by
    change ((second.taskIds ++ clusterTasks after) ++ (records ++ more)).Perm
      (first.taskIds ++ clusterTasks before)
    refine List.Perm.trans ?_ (perm.append excludes.perm)
    rw [List.append_assoc, List.append_assoc]
    apply List.Perm.append_left
    exact List.perm_append_comm_assoc _ _ _

theorem clusterIds (excludes : Excludes before after records) :
    after.map (·.clusterId) = before.map (·.clusterId) := by
  have narrowed := excludes.narrowed
  clear excludes
  induction narrowed with
  | nil => rfl
  | cons head _ ih => rw [List.map_cons, List.map_cons, head.1, ih]

theorem nodup (excludes : Excludes before after records) (nodup : (clusterTasks before).Nodup) :
    (clusterTasks after).Nodup :=
  (List.nodup_append'.mp (excludes.perm.nodup_iff.mpr nodup)).1

/-- A group that is not spread over the clusters stays so. -/
theorem whole {group : String → String} (excludes : Excludes before after records)
    (whole : before.Pairwise fun a b => SeparateGroups group a.taskIds b.taskIds) :
    after.Pairwise fun a b => SeparateGroups group a.taskIds b.taskIds := by
  have keep : ∀ (before after : List ClusterSpec), List.Forall₂ (fun first second : ClusterSpec =>
      second.clusterId = first.clusterId ∧ second.taskIds.Sublist first.taskIds) before after →
      ∀ tasks : List String, (∀ old ∈ before, SeparateGroups group tasks old.taskIds) →
        ∀ cluster ∈ after, SeparateGroups group tasks cluster.taskIds := by
    intro before after narrowed tasks separate
    induction narrowed with
    | nil => exact fun cluster member => absurd member List.not_mem_nil
    | cons head _ ih =>
      obtain ⟨first, rest⟩ := List.forall_mem_cons.mp separate
      exact List.forall_mem_cons.mpr
        ⟨first.subset (List.Subset.refl _) head.2.subset, ih rest⟩
  have narrowed := excludes.narrowed
  clear excludes
  induction narrowed with
  | nil => exact .nil
  | cons head rest ih =>
    obtain ⟨separate, whole⟩ := List.pairwise_cons.mp whole
    refine List.pairwise_cons.mpr ⟨fun other member => ?_, ih whole⟩
    exact (keep _ _ rest _ separate other member).subset head.2.subset (List.Subset.refl _)

/-- A stage that changes neither ids nor tasks. -/
theorem map {f : ClusterSpec → ClusterSpec} (excludes : Excludes before after records)
    (id : ∀ cluster, (f cluster).clusterId = cluster.clusterId)
    (tasks : ∀ cluster, (f cluster).taskIds = cluster.taskIds) :
    Excludes before (after.map f) records where
  narrowed := List.forall₂_map_right_iff.mpr (excludes.narrowed.imp fun first second head =>
    ⟨(id second).trans head.1, (tasks second).symm ▸ head.2⟩)
  perm := by
    have same : clusterTasks (after.map f) = clusterTasks after := by
      rw [clusterTasks, List.flatMap_map]
      exact List.flatMap_congr fun cluster _ => tasks cluster
    rw [same]
    exact excludes.perm

end Excludes

section Allocating

/-- Allocation only hands resources to the clusters, in the order in which they choose. -/
theorem allocateResources_allocates (settings : AllocationSettings) (inputs : AllocationInputs)
    (clusters : List DepotCluster)
    (answer : Option (AssignmentSolution settings inputs (penaltySorted clusters))) :
    List.Forall₂ (fun cluster allocated => ∃ resources operatorRef,
      allocated = cluster.allocate resources operatorRef) (penaltySorted clusters)
        (allocateResources settings inputs clusters answer) := by
  have greedy : ∀ (state : AllocationState) (clusters : List DepotCluster),
      List.Forall₂ (fun cluster allocated => ∃ resources operatorRef,
        allocated = cluster.allocate resources operatorRef) clusters
          (allocateClusters settings inputs state clusters) := by
    intro state clusters
    induction clusters generalizing state with
    | nil => exact .nil
    | cons cluster rest ih =>
      refine .cons ?_ (ih _)
      unfold allocateCluster
      dsimp only
      split
      · exact ⟨_, _, rfl⟩
      · exact ⟨_, _, rfl⟩
  unfold allocateResources
  split
  · cases answer with
    | none => exact greedy _ _
    | some solution =>
      refine List.forall₂_map_right_iff.mpr ?_
      have fst : (penaltySorted clusters).zipIdx.map Prod.fst = penaltySorted clusters :=
        List.zipIdx_map_fst 0 _
      conv => arg 2; rw [← fst]
      exact List.forall₂_map_left_iff.mpr (List.forall₂_same.mpr fun _ _ => ⟨_, _, rfl⟩)
  · exact greedy _ _

end Allocating

section Qualifying

namespace QualificationInputs

variable (inputs : QualificationInputs) (main : List String)

/-- Claiming backups records nothing. -/
theorem infeasible_foldl_claimOperation (clusterId : String) (needs : List (String × List String))
    (run : QualificationState × Dict String String) :
    (needs.foldl (inputs.claimOperation main clusterId) run).1.infeasible = run.1.infeasible := by
  induction needs generalizing run with
  | nil => rfl
  | cons need rest ih =>
    rw [List.foldl_cons, ih]
    unfold claimOperation
    split <;> rfl

/-- A qualified cluster keeps or records each of its tasks. -/
theorem excludes_qualifyCluster (state : QualificationState) (cluster : ClusterSpec) :
    ∃ records, (inputs.qualifyCluster main state cluster).1.infeasible = state.infeasible ++ records ∧
      (inputs.qualifyCluster main state cluster).2.clusterId = cluster.clusterId ∧
      (inputs.qualifyCluster main state cluster).2.taskIds.Sublist cluster.taskIds ∧
      ((inputs.qualifyCluster main state cluster).2.taskIds ++ records.map (·.taskId)).Perm
        cluster.taskIds := by
  unfold qualifyCluster
  split
  · refine ⟨_, congrArg (· ++ _) (inputs.infeasible_foldl_claimOperation main _ _ _), rfl,
      List.filter_sublist, ?_⟩
    rw [withoutOperator, List.map_map]
    change ((List.filter _ _) ++ List.map id _).Perm _
    rw [List.map_id]
    simp only [decide_not]
    exact List.filter_append_perm _ _
  · exact ⟨[], (List.append_nil _).symm, rfl, List.Sublist.refl _, .of_eq (List.append_nil _)⟩

theorem excludes_qualifyClusters (state : QualificationState) (clusters : List ClusterSpec) :
    ∃ records, (inputs.qualifyClusters main state clusters).1.infeasible =
        state.infeasible ++ records ∧
      Excludes clusters (inputs.qualifyClusters main state clusters).2
        (records.map (·.taskId)) := by
  induction clusters generalizing state with
  | nil => exact ⟨[], (List.append_nil _).symm, .refl _⟩
  | cons cluster rest ih =>
    obtain ⟨first, recordedFirst, id, sublist, perm⟩ :=
      inputs.excludes_qualifyCluster main state cluster
    obtain ⟨later, recordedLater, excludes⟩ := ih (inputs.qualifyCluster main state cluster).1
    refine ⟨first ++ later, ?_, ?_⟩
    · simp only [qualifyClusters]
      rw [recordedLater, recordedFirst, List.append_assoc]
    · rw [List.map_append]
      exact .cons id sublist perm excludes

end QualificationInputs

/-- Operator qualification records every task it drops. -/
theorem excludes_applyOperatorQualification (inputs : QualificationInputs) (order : SetOrder String)
    (allocated : AllocatedClusters) :
    Excludes allocated.clusters (applyOperatorQualification inputs order allocated).clusters
      ((applyOperatorQualification inputs order allocated).infeasible.map (·.taskId)) := by
  obtain ⟨records, recorded, excludes⟩ := inputs.excludes_qualifyClusters
    (mainClaimed allocated.clusters) {} allocated.clusters
  have stamped : ∀ (claimants : Dict String (List String)) (ids : List String)
      (cluster : ClusterSpec),
      (ids.foldl (stampClaimant claimants) cluster).clusterId = cluster.clusterId ∧
        (ids.foldl (stampClaimant claimants) cluster).taskIds = cluster.taskIds := by
    intro claimants ids cluster
    obtain ⟨stamps, result, -, -⟩ := foldl_stampClaimant claimants ids cluster
    rw [result]
    exact ⟨rfl, rfl⟩
  simp only [applyOperatorQualification, foldl_stampClaimants, recorded]
  exact excludes.map (fun cluster => (stamped _ _ cluster).1) fun cluster => (stamped _ _ cluster).2

end Qualifying

section Charging

/-- Charging the demanding tasks of a cluster keeps or records each of them. -/
theorem foldl_chargeOrder_accounts (cluster : ClusterSpec)
    (demanding : List (OrderRow × MaterialDemandSpec)) (state : MaterialBooks × List String) :
    ∃ kept records, (demanding.foldl (chargeOrder cluster) state).2 = state.2 ++ kept ∧
      (demanding.foldl (chargeOrder cluster) state).1.infeasible = state.1.infeasible ++ records ∧
      (kept ++ records.map (·.taskId)).Perm (demanding.map (·.1.taskId)) := by
  induction demanding generalizing state with
  | nil => exact ⟨[], [], (List.append_nil _).symm, (List.append_nil _).symm, .refl _⟩
  | cons demand rest ih =>
    obtain ⟨kept, records, keeps, recorded, perm⟩ := ih (chargeOrder cluster state demand)
    have step : (chargeOrder cluster state demand).2 = state.2 ++ [demand.1.taskId] ∧
          (chargeOrder cluster state demand).1.infeasible = state.1.infeasible ∨
        (chargeOrder cluster state demand).2 = state.2 ∧
          ∃ record, (chargeOrder cluster state demand).1.infeasible =
            state.1.infeasible ++ [record] ∧ record.taskId = demand.1.taskId := by
      unfold chargeOrder
      dsimp only
      split
      · exact .inl ⟨rfl, rfl⟩
      split
      · exact .inl ⟨rfl, rfl⟩
      · exact .inr ⟨rfl, _, rfl, rfl⟩
    rw [List.foldl_cons]
    rcases step with ⟨keep, same⟩ | ⟨same, record, refuse, named⟩
    · refine ⟨demand.1.taskId :: kept, records, ?_, by rw [recorded, same], perm.cons _⟩
      rw [keeps, keep, List.append_assoc]
      rfl
    · refine ⟨kept, record :: records, by rw [keeps, same], ?_, ?_⟩
      · rw [recorded, refuse, List.append_assoc]
        rfl
      · rw [List.map_cons, named]
        exact List.perm_middle.trans (perm.cons _)

namespace MaterialInputs

variable (inputs : MaterialInputs)

/-- A charged cluster keeps or records each of its tasks. -/
theorem excludes_chargeCluster (books : MaterialBooks) {cluster : ClusterSpec}
    (nodup : cluster.taskIds.Nodup) :
    ∃ records, (inputs.chargeCluster books cluster).1.infeasible = books.infeasible ++ records ∧
      ((inputs.chargeCluster books cluster).2.taskIds ++ records.map (·.taskId)).Perm
        cluster.taskIds := by
  let passthrough := cluster.taskIds.filter fun taskId => (inputs.demandOf taskId).isNone
  obtain ⟨kept, records, keeps, recorded, perm⟩ :=
    foldl_chargeOrder_accounts cluster (inputs.demanding cluster) (books, passthrough)
  refine ⟨records, recorded, ?_⟩
  have demanding : ((inputs.demanding cluster).map (·.1.taskId)).Perm
      (cluster.taskIds.filter fun taskId => (inputs.demandOf taskId).isSome) := by
    refine ((perm_sortBy _ _).map _).trans (.of_eq ?_)
    rw [List.map_filterMap, ← List.filterMap_eq_filter]
    apply List.filterMap_congr
    intro taskId _
    cases found : inputs.demandOf taskId with
    | none => simp [Option.guard, found]
    | some demand => simp [Option.guard, found, taskId_of_demandOf found]
  have parts : (passthrough ++ (kept ++ records.map (·.taskId))).Perm cluster.taskIds := by
    refine ((perm.trans demanding).append_left _).trans ?_
    have split := List.filter_append_perm (fun taskId => (inputs.demandOf taskId).isNone)
      cluster.taskIds
    simp only [Option.not_isNone] at split
    exact split
  rw [← List.append_assoc] at parts
  have distinct := parts.nodup_iff.mpr nodup
  have filtered : (cluster.taskIds.filter fun taskId => taskId ∈ passthrough ++ kept).Perm
      (passthrough ++ kept) := by
    apply (List.perm_ext_iff_of_nodup (nodup.filter _) (List.nodup_append'.mp distinct).1).mpr
    intro taskId
    simp only [List.mem_filter, decide_eq_true_eq, and_iff_right_iff_imp]
    exact fun listed => parts.subset (List.mem_append_left _ listed)
  rw [chargeCluster, keeps]
  exact (filtered.append_right _).trans parts

theorem excludes_chargeClusters (books : MaterialBooks) (clusters : List ClusterSpec)
    (nodup : (clusterTasks clusters).Nodup) :
    ∃ records, (inputs.chargeClusters books clusters).1.infeasible = books.infeasible ++ records ∧
      Excludes clusters (inputs.chargeClusters books clusters).2 (records.map (·.taskId)) := by
  induction clusters generalizing books with
  | nil => exact ⟨[], (List.append_nil _).symm, .refl _⟩
  | cons cluster rest ih =>
    obtain ⟨nodupHead, nodupRest, -⟩ := List.nodup_append'.mp nodup
    obtain ⟨first, recordedFirst, perm⟩ := inputs.excludes_chargeCluster books nodupHead
    obtain ⟨later, recordedLater, excludes⟩ :=
      ih (inputs.chargeCluster books cluster).1 nodupRest
    refine ⟨first ++ later, ?_, ?_⟩
    · simp only [chargeClusters]
      rw [recordedLater, recordedFirst, List.append_assoc]
    · rw [List.map_append]
      exact .cons rfl List.filter_sublist perm excludes

end MaterialInputs

/-- Material limits record every task they drop. -/
theorem excludes_applyMaterialLimits (inputs : MaterialInputs) (depots : List DepotRow)
    {clusters : List ClusterSpec} (nodup : (clusterTasks clusters).Nodup) :
    Excludes clusters (applyMaterialLimits inputs depots clusters).2
      ((applyMaterialLimits inputs depots clusters).1.infeasible.map (·.taskId)) := by
  unfold applyMaterialLimits
  dsimp only
  split
  · exact .refl _
  · obtain ⟨records, recorded, excludes⟩ :=
      inputs.excludes_chargeClusters { remaining := depotInventory depots } clusters nodup
    rw [recorded]
    exact excludes

end Charging

end FlOp.Solver
