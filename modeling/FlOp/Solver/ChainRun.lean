import FlOp.Solver.AlternativeCollapse
import FlOp.Solver.ClusterSolve
import FlOp.Solver.ClusterStages
import FlOp.Solver.Clustering

/-! # A run of the whole chain

Orders pass the weather, window, restriction and dependency filters, are clustered by depot, get
resources, operators and material, and are solved in the pool. What is left open is what the
assignment solver, the routing search and the pool of processes do; a run fixes it.
-/

namespace FlOp.Solver

open Canonical FlOp.Core Library

/-- The work of an order, which a filter may cut down: its area and its quantity. -/
abbrev OrderWork := ℚ × ℚ

def OrderRow.work (order : OrderRow) : OrderWork := (order.area, order.workQuantity)

/-- A filter keeps an order with some work, or excludes it and says why. -/
def screen (reasonCode : ReasonCode) (verdict : OrderRow → Except String OrderWork)
    (orders : List OrderRow) : List OrderRow × List InfeasibleRecord :=
  (orders.filterMap fun order =>
      match verdict order with
      | .ok work => some { order with area := work.1, workQuantity := work.2 }
      | .error _ => none,
    orders.filterMap fun order =>
      match verdict order with
      | .ok _ => none
      | .error detail =>
        some { taskId := order.taskId, reasonCode := reasonCode, detail := detail })

/-- A workable window is left: it is not over, and it does not open after the deadline. -/
def OrderRow.usableWindow (now : Instant) (order : OrderRow) : Bool :=
  order.timeWindows.isEmpty || order.timeWindows.any fun window =>
    window.2.all (now < ·) && order.deadline.all (window.1 ≤ ·)

/-- Split off orders none of whose workable windows can still be met. -/
def applyTimeWindowFilter (now : Instant) (orders : List OrderRow) :
    List OrderRow × List InfeasibleRecord :=
  screen .contractWindowInfeasible (fun order =>
    if order.usableWindow now then .ok order.work
    else .error "no workable time window overlaps [now, deadline]") orders

/-- The rows and the policy of one call. The verdicts on forecasts and on restricted areas, the
distances, the feasible pairs and their scores are arithmetic and geometry of single orders. -/
structure ChainInputs where
  orders : List OrderRow
  sites : List String
  depots : List DepotRow
  vehicles : List AssetRow := []
  implements : List AssetRow := []
  operators : List OperatorRow := []
  heldWindows : Dict String (List (ℤ × ℤ)) := .empty
  now : Instant
  weatherVerdict : OrderRow → Except String Unit := fun _ => .ok ()
  restrictionVerdict : OrderRow → Except String OrderWork := fun order => .ok order.work
  depotDistance : OrderRow → DepotRow → ℚ := fun _ _ => 0
  feasiblePairs : List OrderRow → Dict String (List (ℕ × ℕ)) := fun _ => .empty
  scoreViPair : OrderRow → ℕ → ℕ → ℚ := fun _ _ _ => 0
  freeCapacity : Dict String ℚ := .empty
  upper : String → String
  operationSeconds : OrderRow → AssetRow → ℕ := fun _ _ => 0
  nReloadNodes : ClusterSpec → ℕ := fun _ => 0
  allocation : AllocationSettings := {}
  splitByOperation : Bool := false
  targetSize : ℕ := 50
  targetSize_pos : 0 < targetSize := by exact standardTargetSize_pos
  operatorQualification : Bool := false
  materialDemand : Dict String MaterialDemandSpec := .empty
  sharingSequential : Bool := false
  unique : (orders.map (·.taskId)).Nodup

section Screening

variable (reasonCode : ReasonCode) (verdict : OrderRow → Except String OrderWork)
  (orders : List OrderRow)

/-- A filter keeps or records every order. -/
theorem perm_screen : ((screen reasonCode verdict orders).1.map (·.taskId) ++
    (screen reasonCode verdict orders).2.map (·.taskId)).Perm (orders.map (·.taskId)) := by
  simp only [screen]
  induction orders with
  | nil => exact .refl _
  | cons order rest ih =>
    rw [List.filterMap_cons, List.filterMap_cons]
    cases verdict order with
    | ok work => exact ih.cons _
    | error detail => exact List.perm_middle.trans (ih.cons _)

/-- A filter changes at most the work of an order. -/
theorem sublist_screen : ((screen reasonCode verdict orders).1.map (·.toTaskRow)).Sublist
    (orders.map (·.toTaskRow)) := by
  simp only [screen]
  induction orders with
  | nil => exact List.Sublist.refl _
  | cons order rest ih =>
    rw [List.filterMap_cons]
    cases verdict order with
    | ok work => exact ih.cons_cons _
    | error detail => exact ih.cons _

end Screening

namespace ChainInputs

variable (inputs : ChainInputs)

/-- The task rows of the call. -/
def tasks : List TaskRow := inputs.orders.map (·.toTaskRow)

def call : SolverCall where
  tasks := inputs.tasks
  heldWindows := inputs.heldWindows
  now := inputs.now

def afterWeather : List OrderRow × List InfeasibleRecord :=
  screen .noValidWeatherWindow
    (fun order => (inputs.weatherVerdict order).map fun _ => order.work) inputs.orders

def afterWindows : List OrderRow × List InfeasibleRecord :=
  applyTimeWindowFilter inputs.now inputs.afterWeather.1

def afterRestrictions : List OrderRow × List InfeasibleRecord :=
  screen .restrictedZone inputs.restrictionVerdict inputs.afterWindows.1

/-- The orders the three filters keep. -/
def admitted : List OrderRow := inputs.afterRestrictions.1

/-- The records of the three filters. -/
def excluded : List InfeasibleRecord :=
  inputs.afterWeather.2 ++ inputs.afterWindows.2 ++ inputs.afterRestrictions.2

/-- The dependency filter on the admitted orders. -/
def cascade : List TaskRow × List InfeasibleRecord :=
  applyDependencyFilter (inputs.admitted.map (·.toTaskRow))
    (inputs.excluded.map (·.taskId)).toFinset

/-- The orders that go on to clustering. -/
def solvable : List OrderRow :=
  inputs.admitted.filter fun order => order.toTaskRow ∈ inputs.cascade.1

def clustering : ClusteringInputs where
  orders := inputs.solvable
  sites := inputs.sites
  depots := inputs.depots
  depotDistance := inputs.depotDistance
  splitByOperation := inputs.splitByOperation
  targetSize := inputs.targetSize
  targetSize_pos := inputs.targetSize_pos

def depotClusters : List DepotCluster := buildClusterSpecs inputs.clustering

def allocationInputs : AllocationInputs where
  orders := inputs.solvable
  operators := inputs.operators
  vehicleIndex := Dict.collect (fun row => row.1.assetId) Prod.snd inputs.vehicles.zipIdx
  implementIndex := Dict.collect (fun row => row.1.assetId) Prod.snd inputs.implements.zipIdx
  feasiblePairs := inputs.feasiblePairs inputs.solvable
  scoreViPair := inputs.scoreViPair
  freeCapacity := inputs.freeCapacity

def qualificationInputs : QualificationInputs where
  orderIndex := Dict.collect (·.taskId) id inputs.solvable
  operatorsById := Dict.collect (·.assetId) id inputs.operators
  freeCapacity := inputs.freeCapacity
  now := inputs.now
  upper := inputs.upper
  sharingSequential := inputs.sharingSequential

def materialInputs : MaterialInputs where
  orders := inputs.solvable
  materialDemand := inputs.materialDemand

def solveInputs : SolveInputs where
  orders := inputs.solvable
  vehicles := inputs.vehicles
  implements := inputs.implements
  depots := inputs.depots
  nowEpoch := inputs.now.truncated
  upper := inputs.upper
  operationSeconds := inputs.operationSeconds
  nReloadNodes := inputs.nReloadNodes

theorem unique_tasks : (inputs.tasks.map (·.taskId)).Nodup := by
  rw [tasks, List.map_map]
  exact inputs.unique

theorem sublist_admitted : (inputs.admitted.map (·.toTaskRow)).Sublist inputs.tasks :=
  ((sublist_screen _ _ _).trans (sublist_screen _ _ _)).trans (sublist_screen _ _ _)

/-- The three filters keep or record every order. -/
theorem perm_excluded : (inputs.admitted.map (·.taskId) ++ inputs.excluded.map (·.taskId)).Perm
    (inputs.tasks.map (·.taskId)) := by
  have weather : (inputs.afterWeather.1.map (·.taskId) ++ inputs.afterWeather.2.map (·.taskId)).Perm
      (inputs.orders.map (·.taskId)) := perm_screen _ _ _
  have windows : (inputs.afterWindows.1.map (·.taskId) ++ inputs.afterWindows.2.map (·.taskId)).Perm
      (inputs.afterWeather.1.map (·.taskId)) := perm_screen _ _ _
  have restrictions : (inputs.afterRestrictions.1.map (·.taskId) ++
      inputs.afterRestrictions.2.map (·.taskId)).Perm (inputs.afterWindows.1.map (·.taskId)) :=
    perm_screen _ _ _
  rw [tasks, List.map_map]
  refine List.perm_iff_count.mpr fun id => ?_
  have first := weather.count_eq id
  have second := windows.count_eq id
  have third := restrictions.count_eq id
  simp only [admitted, excluded, List.map_append, List.count_append] at first second third ⊢
  change _ = (inputs.orders.map (·.taskId)).count id
  omega

theorem nodup_admitted : (inputs.admitted.map (·.taskId)).Nodup :=
  (List.nodup_append'.mp (inputs.perm_excluded.nodup_iff.mpr inputs.unique_tasks)).1

/-- The orders that go on are the rows the dependency filter kept. -/
theorem perm_solvable :
    (inputs.solvable.map (·.taskId)).Perm (inputs.cascade.1.map (·.taskId)) := by
  have kept : inputs.cascade.1.Sublist (inputs.admitted.map (·.toTaskRow)) :=
    applyDependencyFilter_sublist _ _
  have rows : (inputs.admitted.map (·.toTaskRow)).Nodup := by
    have nodup := inputs.nodup_admitted
    rw [show (fun order : OrderRow => order.taskId) = (·.taskId) ∘ (·.toTaskRow) from rfl,
      ← List.map_map] at nodup
    exact List.Nodup.of_map _ nodup
  have same : (inputs.solvable.map (·.toTaskRow)).Perm inputs.cascade.1 := by
    have filtered : inputs.solvable.map (·.toTaskRow) =
        (inputs.admitted.map (·.toTaskRow)).filter fun row => row ∈ inputs.cascade.1 := by
      rw [solvable, List.filter_map]
      rfl
    rw [filtered]
    apply (List.perm_ext_iff_of_nodup (rows.filter _) (rows.sublist kept)).mpr
    intro row
    simp only [List.mem_filter, decide_eq_true_eq, and_iff_right_iff_imp]
    exact fun listed => kept.subset listed
  have ids := same.map (·.taskId)
  rwa [List.map_map] at ids

theorem unique_solvable : (inputs.solvable.map (·.taskId)).Nodup :=
  inputs.nodup_admitted.sublist (List.filter_sublist.map _)

/-- An order that goes on has the row of a given task. -/
theorem row_of_solvable {order : OrderRow} (member : order ∈ inputs.solvable) :
    order.toTaskRow ∈ inputs.tasks :=
  inputs.sublist_admitted.subset (List.mem_map_of_mem (List.mem_filter.mp member).1)

/-- The orders that go on but whose site is not known. -/
def unlocated : List OrderRow :=
  inputs.solvable.filter fun order => ¬ inputs.clustering.Located order

/-- A depot is there, unless no order has a known site. -/
def FindsDepots : Prop :=
  inputs.depots ≠ [] ∨ ∀ order ∈ inputs.solvable, ¬ inputs.clustering.Located order

theorem depotClusters_of_no_depots (none : inputs.depots = []) : inputs.depotClusters = [] := by
  have empty : inputs.clustering.clusterOrdersByDepot = .empty := by
    have skipped : ∀ orders : List OrderRow,
        orders.foldl inputs.clustering.assignOrder .empty = .empty := by
      intro orders
      induction orders with
      | nil => rfl
      | cons order rest ih =>
        have kept : inputs.clustering.assignOrder .empty order = .empty := by
          rw [ClusteringInputs.assignOrder, ClusteringInputs.nearestDepot]
          simp only [clustering, none]
          rfl
        rw [List.foldl_cons, kept, ih]
    have start : Dict.collect (·.locationId) (fun _ => []) inputs.clustering.depots =
        (.empty : Dict String (List String)) := by
      simp only [clustering, none]
      rfl
    rw [ClusteringInputs.clusterOrdersByDepot, start, skipped]
  have chunks : inputs.clustering.subclusters = [] := by
    rw [ClusteringInputs.subclusters]
    simp only [empty]
    split <;> rfl
  rw [depotClusters, buildClusterSpecs, chunks]
  rfl

/-- The clusters hold the orders that go on and have a known site. -/
theorem perm_depotClusters (finds : inputs.FindsDepots) :
    (inputs.depotClusters.flatMap (·.taskIds) ++ inputs.unlocated.map (·.taskId)).Perm
      (inputs.solvable.map (·.taskId)) := by
  have located : (inputs.depotClusters.flatMap (·.taskIds)).Perm ((inputs.solvable.filter
      fun order => inputs.clustering.Located order).map (·.taskId)) := by
    by_cases none : inputs.depots = []
    · have unknown := finds.resolve_left (not_not_intro none)
      have noneLocated : (inputs.solvable.filter fun order =>
          inputs.clustering.Located order) = [] := by
        simpa using unknown
      rw [inputs.depotClusters_of_no_depots none, noneLocated]
      exact .refl _
    · exact perm_buildClusterSpecs inputs.unique_solvable none
  have split := (List.filter_append_perm (fun order => decide (inputs.clustering.Located order))
    inputs.solvable).map (·.taskId)
  simp only [List.map_append, ← decide_not] at split
  exact (located.append_right _).trans split

theorem nodup_depotClusters : (inputs.depotClusters.flatMap (·.taskIds)).Nodup := by
  by_cases none : inputs.depots = []
  · rw [inputs.depotClusters_of_no_depots none]
    exact List.nodup_nil
  · exact (perm_buildClusterSpecs inputs.unique_solvable none).nodup_iff.mpr
      (inputs.unique_solvable.sublist (List.filter_sublist.map _))

theorem subset_depotClusters :
    inputs.depotClusters.flatMap (·.taskIds) ⊆ inputs.solvable.map (·.taskId) := by
  by_cases none : inputs.depots = []
  · rw [inputs.depotClusters_of_no_depots none]
    exact List.nil_subset _
  · exact fun id member => (inputs.perm_depotClusters (.inl none)).subset
      (List.mem_append_left _ member)

theorem groupOf_solvable {order : OrderRow} (member : order ∈ inputs.solvable) :
    groupOf inputs.tasks order.taskId = order.alternativeGroupRef :=
  groupOf_of_mem inputs.unique_tasks (inputs.row_of_solvable member)

/-- No group is spread over clusters. -/
theorem separate_depotClusters : inputs.depotClusters.Pairwise fun a b =>
    SeparateGroups (groupOf inputs.tasks) a.taskIds b.taskIds := by
  by_cases none : inputs.depots = []
  · rw [inputs.depotClusters_of_no_depots none]
    exact .nil
  have chunks : inputs.clustering.subclusters.Pairwise fun a b => a.2.Disjoint b.2 := by
    have nodup := inputs.nodup_depotClusters
    rw [List.flatMap_def, depotClusters, taskIds_buildClusterSpecs, ← List.flatMap_def] at nodup
    exact (List.nodup_flatMap.mp nodup).2
  have locatedOf : ∀ chunk ∈ inputs.clustering.subclusters, ∀ id ∈ chunk.2,
      ∃ order ∈ inputs.solvable, order.taskId = id ∧ inputs.clustering.Located order := by
    intro chunk listed id inside
    have held : id ∈ inputs.clustering.subclusters.flatMap Prod.snd :=
      List.mem_flatMap.mpr ⟨chunk, listed, inside⟩
    obtain ⟨order, kept, rfl⟩ := List.mem_map.mp
      ((perm_subclusters inputs.unique_solvable none).subset held)
    obtain ⟨member, located⟩ := List.mem_filter.mp kept
    exact ⟨order, member, rfl, of_decide_eq_true located⟩
  have separate : inputs.clustering.subclusters.Pairwise fun a b =>
      SeparateGroups (groupOf inputs.tasks) a.2 b.2 := by
    refine chunks.imp_of_mem ?_
    intro a b listedA listedB disjoint id idInside other otherInside grouped same
    obtain ⟨order, member, rfl, located⟩ := locatedOf a listedA id idInside
    obtain ⟨order', member', rfl, located'⟩ := locatedOf b listedB other otherInside
    rw [inputs.groupOf_solvable member] at grouped same
    rw [inputs.groupOf_solvable member'] at same
    exact disjoint (alternatives_together inputs.unique_solvable none member member' located
      located' grouped same listedA idInside) otherInside
  have lists : (inputs.depotClusters.map (·.taskIds)).Pairwise
      (SeparateGroups (groupOf inputs.tasks)) := by
    rw [depotClusters, taskIds_buildClusterSpecs]
    exact List.pairwise_map.mpr separate
  exact List.pairwise_map.mp lists

end ChainInputs

/-- What the allocation keeps of the clusters. -/
theorem allocateResources_keeps (settings : AllocationSettings) (inputs : AllocationInputs)
    (clusters : List DepotCluster)
    (answer : Option (AssignmentSolution settings inputs (penaltySorted clusters))) :
    (allocateResources settings inputs clusters answer).map (·.taskIds) =
        (penaltySorted clusters).map (·.taskIds) ∧
      (allocateResources settings inputs clusters answer).map (·.clusterId) =
        (penaltySorted clusters).map (·.clusterId) ∧
      ∀ cluster ∈ allocateResources settings inputs clusters answer,
        cluster.taskOperators = .empty := by
  have keeps : ∀ (before : List DepotCluster) (after : List ClusterSpec),
      List.Forall₂ (fun cluster allocated => ∃ resources operatorRef,
        allocated = DepotCluster.allocate cluster resources operatorRef) before after →
      after.map (·.taskIds) = before.map (·.taskIds) ∧
        after.map (·.clusterId) = before.map (·.clusterId) ∧
        ∀ cluster ∈ after, cluster.taskOperators = .empty := by
    intro before after allocates
    induction allocates with
    | nil => exact ⟨rfl, rfl, nofun⟩
    | cons head _ ih =>
      obtain ⟨resources, operatorRef, rfl⟩ := head
      obtain ⟨tasks, ids, operators⟩ := ih
      refine ⟨by rw [List.map_cons, tasks]; rfl, by rw [List.map_cons, ids]; rfl, ?_⟩
      exact List.forall_mem_cons.mpr ⟨rfl, operators⟩
  exact keeps _ _ (allocateResources_allocates settings inputs clusters answer)

namespace ChainInputs

variable (inputs : ChainInputs)

/-- What the assignment solver may answer. -/
abbrev Assignment := Option
  (AssignmentSolution inputs.allocation inputs.allocationInputs (penaltySorted inputs.depotClusters))

variable (assignment : inputs.Assignment)

/-- The clusters with their resources. -/
def allocated : AllocatedClusters where
  clusters := allocateResources inputs.allocation inputs.allocationInputs inputs.depotClusters
    assignment
  distinct := by
    rw [(allocateResources_keeps _ _ _ _).2.1]
    exact ((perm_sortBy _ _).map _).nodup_iff.mpr (nodup_clusterIds _)
  unqualified := (allocateResources_keeps _ _ _ _).2.2

theorem perm_allocated : (clusterTasks (inputs.allocated assignment).clusters).Perm
    (inputs.depotClusters.flatMap (·.taskIds)) := by
  rw [clusterTasks, List.flatMap_def, allocated, (allocateResources_keeps _ _ _ _).1,
    ← List.flatMap_def]
  exact (perm_sortBy _ _).flatMap_right _

theorem separate_allocated : (inputs.allocated assignment).clusters.Pairwise fun a b =>
    SeparateGroups (groupOf inputs.tasks) a.taskIds b.taskIds := by
  have sorted : (penaltySorted inputs.depotClusters).Pairwise fun a b =>
      SeparateGroups (groupOf inputs.tasks) a.taskIds b.taskIds :=
    ((perm_sortBy _ _).pairwise_iff fun separate => separate.symm).mpr
      inputs.separate_depotClusters
  have lists : ((inputs.allocated assignment).clusters.map (·.taskIds)).Pairwise
      (SeparateGroups (groupOf inputs.tasks)) := by
    rw [allocated, (allocateResources_keeps _ _ _ _).1]
    exact List.pairwise_map.mpr sorted
  exact List.pairwise_map.mp lists

/-- The operator qualification, if the profile enforces it. -/
def qualified (order : SetOrder String) : QualificationOutcome :=
  if inputs.operatorQualification then
    applyOperatorQualification inputs.qualificationInputs order (inputs.allocated assignment)
  else { clusters := (inputs.allocated assignment).clusters, infeasible := [], claims := [] }

/-- The material limits, on the qualified clusters. -/
def charged (order : SetOrder String) : MaterialBooks × List ClusterSpec :=
  applyMaterialLimits inputs.materialInputs inputs.depots (inputs.qualified assignment order).clusters

theorem excludes_qualified (order : SetOrder String) :
    Excludes (inputs.allocated assignment).clusters (inputs.qualified assignment order).clusters
      ((inputs.qualified assignment order).infeasible.map (·.taskId)) := by
  unfold qualified
  split
  · exact excludes_applyOperatorQualification _ _ _
  · exact .refl _

/-- From the allocation to the pool every task is kept or recorded. -/
theorem excludes_charged (order : SetOrder String) :
    Excludes (inputs.allocated assignment).clusters (inputs.charged assignment order).2
      ((inputs.qualified assignment order).infeasible.map (·.taskId) ++
        (inputs.charged assignment order).1.infeasible.map (·.taskId)) := by
  have nodup : (clusterTasks (inputs.allocated assignment).clusters).Nodup :=
    (inputs.perm_allocated assignment).nodup_iff.mpr inputs.nodup_depotClusters
  have qualified := inputs.excludes_qualified assignment order
  exact qualified.trans (excludes_applyMaterialLimits _ _ (qualified.nodup nodup))

/-- The clusters the pool is given. -/
def batch (order : SetOrder String) : ClusterBatch where
  clusters := (inputs.charged assignment order).2
  distinct := by
    rw [(inputs.excludes_charged assignment order).clusterIds]
    exact (inputs.allocated assignment).distinct
  disjoint := (inputs.excludes_charged assignment order).nodup
    ((inputs.perm_allocated assignment).nodup_iff.mpr inputs.nodup_depotClusters)

theorem subset_batch (order : SetOrder String) :
    clusterTasks (inputs.batch assignment order).clusters ⊆ inputs.solvable.map (·.taskId) :=
  fun _ member => inputs.subset_depotClusters ((inputs.perm_allocated assignment).subset
    ((inputs.excludes_charged assignment order).perm.subset (List.mem_append_left _ member)))

/-- The records made on the way from the allocation to the pool are about given orders. -/
theorem subset_charged (order : SetOrder String) :
    (inputs.qualified assignment order).infeasible.map (·.taskId) ++
      (inputs.charged assignment order).1.infeasible.map (·.taskId) ⊆
        inputs.solvable.map (·.taskId) :=
  fun _ member => inputs.subset_depotClusters ((inputs.perm_allocated assignment).subset
    ((inputs.excludes_charged assignment order).perm.subset (List.mem_append_right _ member)))

theorem exists_task {taskId : String} (member : taskId ∈ inputs.solvable.map (·.taskId)) :
    ∃ row ∈ inputs.tasks, row.taskId = taskId := by
  obtain ⟨order, listed, rfl⟩ := List.mem_map.mp member
  exact ⟨order.toTaskRow, inputs.row_of_solvable listed, rfl⟩

instance : Decidable inputs.FindsDepots :=
  inferInstanceAs (Decidable (_ ∨ _))

end ChainInputs

/-- What is left open in a run of the chain: the answers of the assignment solver and of the routing
search, the order in which a set is iterated, and how the pool fares. -/
structure ChainRun (inputs : ChainInputs) where
  assignment : inputs.Assignment
  order : SetOrder String
  search : ClusterSpec → Except String RoutingAnswer
  posted : ∀ cluster, inputs.solveInputs.AnswersPosted cluster (search cluster)
  execution : PoolExecution (fun cluster result =>
    result = inputs.solveInputs.solveClusterInstrumented cluster (search cluster))
      (inputs.batch assignment order) inputs.sharingSequential
  nGreedyAssignments : ℕ := 0

namespace ChainRun

variable {inputs : ChainInputs} (run : ChainRun inputs)

def batch : ClusterBatch := inputs.batch run.assignment run.order

/-- The records of operator qualification and of material limits. -/
def unresourced : List InfeasibleRecord :=
  (inputs.qualified run.assignment run.order).infeasible ++
    (inputs.charged run.assignment run.order).1.infeasible

theorem known {cluster : ClusterSpec} (member : cluster ∈ run.batch.clusters) :
    cluster.taskIds ⊆ inputs.solveInputs.orders.map (·.taskId) :=
  fun _ listed => inputs.subset_batch run.assignment run.order
    (List.mem_flatMap.mpr ⟨cluster, member, listed⟩)

/-- What the stages of the run hand to the bookkeeping of the chain. -/
def stages {result : ClusterResult} (solved : run.execution.poolSolve = some result) :
    SolverStages inputs.call where
  admitted := inputs.admitted.map (·.toTaskRow)
  excluded := inputs.excluded
  dispatch := result.dispatch
  infeasible := run.unresourced ++ result.infeasible
  reservations := (inputs.charged run.assignment run.order).1.reservations
  nClusters := run.batch.clusters.length
  nGreedyAssignments := run.nGreedyAssignments
  admitted_sublist := inputs.sublist_admitted
  excluded_given record member := by
    have listed := inputs.perm_excluded.subset
      (List.mem_append_right _ (List.mem_map_of_mem (f := (·.taskId)) member))
    obtain ⟨row, given, same⟩ := List.mem_map.mp listed
    exact ⟨row, given, same⟩
  dispatch_given package member := by
    obtain ⟨seen, missed, parts, -, reports⟩ := PoolExecution.reports_poolSolve solved
    obtain ⟨cluster, listed, _, rfl, kept⟩ := reports.exists_of_dispatch member
    obtain ⟨⟨order, given, same⟩, -⟩ := SolveInputs.dispatch_given
      (run.known (parts.subset (List.mem_append_left _ listed))) kept
    exact ⟨order.toTaskRow, inputs.row_of_solvable given, same⟩
  infeasible_given record member := by
    rcases List.mem_append.mp member with dropped | reported
    · have listed : record.taskId ∈ run.unresourced.map (·.taskId) := List.mem_map_of_mem dropped
      rw [unresourced, List.map_append] at listed
      obtain ⟨row, given, same⟩ := inputs.exists_task
        (inputs.subset_charged run.assignment run.order listed)
      exact ⟨row, given, .inl same⟩
    · obtain ⟨seen, missed, parts, -, reports⟩ := PoolExecution.reports_poolSolve solved
      obtain ⟨cluster, listed, kept⟩ := reports.exists_of_infeasible reported
      have known := run.known (parts.subset (List.mem_append_left _ listed))
      rcases kept with named | ⟨_, rfl, kept⟩
      · obtain ⟨row, given, same⟩ := inputs.exists_task (known named)
        exact ⟨row, given, .inl same⟩
      · obtain ⟨order, given, same⟩ := SolveInputs.infeasible_given known kept
        exact ⟨order.toTaskRow, inputs.row_of_solvable given, same⟩
  dispatch_start package member := by
    obtain ⟨seen, missed, parts, -, reports⟩ := PoolExecution.reports_poolSolve solved
    obtain ⟨cluster, listed, _, rfl, kept⟩ := reports.exists_of_dispatch member
    exact (SolveInputs.dispatch_given
      (run.known (parts.subset (List.mem_append_left _ listed))) kept).2

/-- The result of the chain, if it returns: an order cannot be assigned where there is no depot, and
the pool may not return. -/
def outcome : Option SolverChainResult :=
  if inputs.FindsDepots then
    match solved : run.execution.poolSolve with
    | none => none
    | some _ => some (runSolverChain inputs.call (run.stages solved))
  else none

end ChainRun

end FlOp.Solver
