import FlOp.Library.Ordering
import FlOp.Solver.Clusters
import FlOp.Solver.Rows
import Mathlib.Data.Prod.Lex
import Mathlib.Data.Rat.Floor
import Mathlib.Data.String.Basic

/-! # Allocating resources to clusters

Before any cluster is solved, vehicles, implements and operators are reserved for all of them: by
a global assignment model, whose solver may return any solution of the posted constraints, or by
a greedy pass in penalty order. Either way an implement and an operator serve one cluster, and a
vehicle at most two.
-/

namespace FlOp.Solver

open Library

/-- How many clusters a vehicle may be reserved for. -/
def maxVehicleAssignments : ℕ := 2

/-- The standard share counts some order. -/
theorem standardOrdersPerResource_pos : 0 < 5 := by
  decide

/-- Limits of the allocation; no order can do without a resource. -/
structure AllocationSettings where
  globalAssignmentEnabled : Bool := true
  maxPairsPerOrder : ℕ := 30
  ordersPerResource : ℕ := 5
  ordersPerResource_pos : 0 < ordersPerResource := by exact standardOrdersPerResource_pos
  minResourcesPerMultiOrderCluster : ℕ := 2
  candidatesPerCluster : ℕ := 100
  pairsPerVehicle : ℕ := 2
  pairsPerImplement : ℕ := 2
  maxModelCandidates : ℕ := 20000

/-- A cluster before allocation. -/
structure DepotCluster where
  clusterId : String
  depotRef : String
  taskIds : List String
  totalPenaltyPerDay : ℚ := 0
deriving DecidableEq, Repr

/-- Hand a cluster its resources; no operator is the empty reference. -/
def DepotCluster.allocate (cluster : DepotCluster) (allocated : Dict String (List String))
    (operatorRef : String) : ClusterSpec where
  clusterId := cluster.clusterId
  depotRef := cluster.depotRef
  taskIds := cluster.taskIds
  allocatedPrimeRelated := allocated
  operatorRef := operatorRef
  totalPenaltyPerDay := cluster.totalPenaltyPerDay

/-- What the allocation knows besides the clusters; the score of a pair is arithmetic that no
limit depends on. -/
structure AllocationInputs where
  orders : List OrderRow
  operators : List OperatorRow
  vehicleIndex : Dict String ℕ
  implementIndex : Dict String ℕ
  feasiblePairs : Dict String (List (ℕ × ℕ))
  scoreViPair : OrderRow → ℕ → ℕ → ℚ
  freeCapacity : Dict String ℚ := .empty

namespace AllocationInputs

variable (inputs : AllocationInputs)

def orderMap : Dict String OrderRow := Dict.collect (·.taskId) id inputs.orders

/-- The orders of a cluster that are known. -/
def clusterOrders (cluster : DepotCluster) : List OrderRow :=
  cluster.taskIds.filterMap inputs.orderMap.get?

def idxToVehicle : Dict ℕ String := Dict.collect Prod.snd Prod.fst inputs.vehicleIndex.entries

def idxToImplement : Dict ℕ String := Dict.collect Prod.snd Prod.fst inputs.implementIndex.entries

/-- The pairs of a cluster with their summed scores, where the pair passes a filter. -/
def scoredPairs (admits : String → String → Bool) (clusterOrders : List OrderRow) :
    Dict (String × String) ℚ :=
  clusterOrders.foldl (fun candidates order =>
    (inputs.feasiblePairs.getD order.taskId []).foldl (fun candidates pair =>
      match inputs.idxToVehicle.get? pair.1, inputs.idxToImplement.get? pair.2 with
      | some vehicle, some implement =>
        if admits vehicle implement then
          candidates.set (vehicle, implement)
            (candidates.getD (vehicle, implement) 0 + inputs.scoreViPair order pair.1 pair.2)
        else candidates
      | _, _ => candidates) candidates) .empty

theorem admits_of_mem_scoredPairs {admits : String → String → Bool}
    {clusterOrders : List OrderRow} {key : String × String}
    (member : key ∈ (inputs.scoredPairs admits clusterOrders).keys) :
    admits key.1 key.2 = true := by
  unfold scoredPairs at member
  have start : ∀ key ∈ (Dict.empty : Dict (String × String) ℚ).keys,
      admits key.1 key.2 = true := by simp
  generalize (Dict.empty : Dict (String × String) ℚ) = candidates at start member
  induction clusterOrders generalizing candidates with
  | nil => exact start key member
  | cons order rest ih =>
    rw [List.foldl_cons] at member
    refine ih _ ?_ member
    clear member ih
    generalize inputs.feasiblePairs.getD order.taskId [] = pairs
    induction pairs generalizing candidates with
    | nil => exact start
    | cons pair pairs ih =>
      rw [List.foldl_cons]
      apply ih
      intro other present
      split at present
      · next vehicle implement _ _ =>
        split at present
        · next admitted =>
          rcases (Dict.mem_keys_set _ _ _ _).mp present with rfl | old
          · exact admitted
          · exact start other old
        · exact start other present
      · exact start other present

end AllocationInputs

/-- The bundles to reserve for one cluster at most. -/
def clusterResourceLimit (settings : AllocationSettings) (clusterOrders : List OrderRow) : ℕ :=
  let desired := (clusterOrders.length + settings.ordersPerResource - 1) / settings.ordersPerResource
  let desired :=
    if 1 < clusterOrders.length then max desired settings.minResourcesPerMultiOrderCluster
    else desired
  min (min clusterOrders.length settings.maxPairsPerOrder) desired

/-- Clusters in the order in which they choose. -/
def penaltySorted (clusters : List DepotCluster) : List DepotCluster :=
  sortBy (fun cluster => toLex (-cluster.totalPenaltyPerDay, cluster.clusterId)) clusters

/-- Candidates from the best score down, ties by vehicle and implement. -/
def bestFirst (candidates : Dict (String × String) ℚ) : List (String × String) :=
  (sortBy (fun entry : (String × String) × ℚ => toLex (-entry.2, toLex (entry.1.1, entry.1.2)))
    candidates.entries).map Prod.fst

theorem mem_bestFirst {candidates : Dict (String × String) ℚ} {key : String × String} :
    key ∈ bestFirst candidates ↔ key ∈ candidates.keys := by
  simp only [bestFirst, Dict.keys, List.mem_map, mem_sortBy]

/-- Implements and operators serve one cluster each, vehicles at most two. -/
structure Exclusive (allocated : List ClusterSpec) : Prop where
  implements : allocated.Pairwise fun a b =>
    a.allocatedPrimeRelated.values.flatten.Disjoint b.allocatedPrimeRelated.values.flatten
  operators : allocated.Pairwise fun a b => a.operatorRef ≠ "" → a.operatorRef ≠ b.operatorRef
  vehicles : ∀ vehicle, (allocated.filter fun cluster =>
    vehicle ∈ cluster.allocatedPrimeRelated.keys).length ≤ maxVehicleAssignments

section Greedy

/-- Global resource claims accumulated cluster by cluster. -/
structure AllocationState where
  claimedImplements : List String := []
  claimedOperators : List String := []
  vehicleAssignmentCount : Dict String ℕ := .empty

def AllocationState.vehicleUses (state : AllocationState) (vehicle : String) : ℕ :=
  state.vehicleAssignmentCount.getD vehicle 0

/-- Scored pairs of a cluster whose implement is free and whose vehicle has uses left. -/
def collectPairCandidates (inputs : AllocationInputs) (clusterOrders : List OrderRow)
    (state : AllocationState) (maxVehicleUses : ℕ) : Dict (String × String) ℚ :=
  inputs.scoredPairs (fun vehicle implement =>
    implement ∉ state.claimedImplements ∧ state.vehicleUses vehicle < maxVehicleUses) clusterOrders

/-- The reservation of one cluster, with the claims it has made. -/
structure Reservation where
  allocated : Dict String (List String) := .empty
  reservedVehicles : List String := []
  reservedImplements : List String := []
  state : AllocationState

/-- Claim one pair. -/
def Reservation.claim (r : Reservation) (vehicle implement : String) : Reservation where
  allocated := r.allocated.set vehicle [implement]
  reservedVehicles := vehicle :: r.reservedVehicles
  reservedImplements := implement :: r.reservedImplements
  state := { r.state with
    claimedImplements := implement :: r.state.claimedImplements
    vehicleAssignmentCount :=
      r.state.vehicleAssignmentCount.set vehicle (r.state.vehicleUses vehicle + 1) }

/-- Reserve candidates, best first, up to the limit and each resource once. -/
def reserveLoop (resourceLimit : ℕ) : List (String × String) → Reservation → Reservation
  | [], r => r
  | (vehicle, implement) :: rest, r =>
    if resourceLimit ≤ r.allocated.entries.length then r
    else if vehicle ∈ r.reservedVehicles ∨ implement ∈ r.reservedImplements then
      reserveLoop resourceLimit rest r
    else reserveLoop resourceLimit rest (r.claim vehicle implement)

def reserveBestCandidates (candidates : Dict (String × String) ℚ) (resourceLimit : ℕ)
    (state : AllocationState) : Reservation :=
  reserveLoop resourceLimit (bestFirst candidates) { state := state }

/-- The unclaimed operator that covers the most operations, from the depot if it has any. -/
def assignOperator (inputs : AllocationInputs) (cluster : DepotCluster)
    (clusterOrders : List OrderRow) (state : AllocationState) : Option OperatorRow :=
  let free := inputs.operators.filter fun operator => operator.assetId ∉ state.claimedOperators
  let atDepot := free.filter fun operator => operator.homeDepotRef = cluster.depotRef
  let operations := (clusterOrders.map (·.operationType)).dedup
  firstMaxBy (fun operator => toLex
    ((operations.filter fun operation => operation ∈ operator.certifiedOperations).length,
      inputs.freeCapacity.getD operator.assetId 1))
    (if atDepot.isEmpty then free else atDepot)

/-- Allocate one cluster: fresh vehicles first, and used ones only where none is left. -/
def allocateCluster (settings : AllocationSettings) (inputs : AllocationInputs)
    (state : AllocationState) (cluster : DepotCluster) : ClusterSpec × AllocationState :=
  let clusterOrders := inputs.clusterOrders cluster
  let fresh := collectPairCandidates inputs clusterOrders state 1
  let candidates :=
    if fresh.entries.isEmpty then
      collectPairCandidates inputs clusterOrders state maxVehicleAssignments
    else fresh
  let r := reserveBestCandidates candidates (clusterResourceLimit settings clusterOrders) state
  match assignOperator inputs cluster clusterOrders r.state with
  | none => (cluster.allocate r.allocated "", r.state)
  | some operator => (cluster.allocate r.allocated operator.assetId,
      { r.state with claimedOperators := operator.assetId :: r.state.claimedOperators })

/-- Allocate the clusters one after the other. -/
def allocateClusters (settings : AllocationSettings) (inputs : AllocationInputs) :
    AllocationState → List DepotCluster → List ClusterSpec
  | _, [] => []
  | state, cluster :: rest =>
    (allocateCluster settings inputs state cluster).1 ::
      allocateClusters settings inputs (allocateCluster settings inputs state cluster).2 rest

/-- Penalty-ordered greedy reservation. -/
def allocateResourcesGreedy (settings : AllocationSettings) (inputs : AllocationInputs)
    (clusters : List DepotCluster) : List ClusterSpec :=
  allocateClusters settings inputs { } (penaltySorted clusters)

/-- What a reservation has claimed since its start: only free implements, and one use of each of
its vehicles, all of which had uses left. -/
structure ReservedFrom (start : AllocationState) (r : Reservation) : Prop where
  reserved : ∀ vehicle, vehicle ∈ r.reservedVehicles ↔ vehicle ∈ r.allocated.keys
  implements : ∀ implement ∈ r.allocated.values.flatten,
    implement ∈ r.state.claimedImplements ∧ implement ∉ start.claimedImplements
  claimed : start.claimedImplements ⊆ r.state.claimedImplements
  operators : r.state.claimedOperators = start.claimedOperators
  uses : ∀ vehicle, r.state.vehicleUses vehicle =
    start.vehicleUses vehicle + if vehicle ∈ r.allocated.keys then 1 else 0
  room : ∀ vehicle ∈ r.allocated.keys, start.vehicleUses vehicle < maxVehicleAssignments

namespace ReservedFrom

variable {start : AllocationState} {r : Reservation}

theorem initial (start : AllocationState) : ReservedFrom start { state := start } where
  reserved _ := .rfl
  implements _ member := absurd member List.not_mem_nil
  claimed := List.Subset.refl _
  operators := rfl
  uses _ := rfl
  room _ member := absurd member List.not_mem_nil

theorem claim (reservedFrom : ReservedFrom start r) {vehicle implement : String}
    (unclaimed : implement ∉ start.claimedImplements)
    (room : start.vehicleUses vehicle < maxVehicleAssignments)
    (fresh : vehicle ∉ r.reservedVehicles) :
    ReservedFrom start (r.claim vehicle implement) where
  reserved other := by
    simp only [Reservation.claim, List.mem_cons, Dict.mem_keys_set, reservedFrom.reserved]
  implements other member := by
    rcases Dict.mem_flatten_set member with new | old
    · obtain rfl := List.mem_singleton.mp new
      exact ⟨List.mem_cons_self, unclaimed⟩
    · obtain ⟨held, free⟩ := reservedFrom.implements other old
      exact ⟨List.mem_cons_of_mem _ held, free⟩
  claimed := List.Subset.trans reservedFrom.claimed (List.subset_cons_self _ _)
  operators := reservedFrom.operators
  uses other := by
    have before := reservedFrom.uses other
    have known := reservedFrom.reserved vehicle
    simp only [AllocationState.vehicleUses, Dict.getD] at before
    simp only [Reservation.claim, AllocationState.vehicleUses, Dict.getD, Dict.get?_set,
      Dict.mem_keys_set]
    by_cases same : other = vehicle
    · subst same
      have absent : other ∉ r.allocated.keys := fun member => fresh (known.mpr member)
      simp only [if_pos, true_or, before, absent, if_false, Option.getD_some]
    · simp only [same, if_false, false_or, before]
  room other member := by
    rcases (Dict.mem_keys_set _ _ _ _).mp member with rfl | old
    · exact room
    · exact reservedFrom.room other old

theorem loop (reservedFrom : ReservedFrom start r) (resourceLimit : ℕ)
    {candidates : List (String × String)}
    (admitted : ∀ key ∈ candidates, key.2 ∉ start.claimedImplements ∧
      start.vehicleUses key.1 < maxVehicleAssignments) :
    ReservedFrom start (reserveLoop resourceLimit candidates r) := by
  induction candidates generalizing r with
  | nil => exact reservedFrom
  | cons key rest ih =>
    obtain ⟨vehicle, implement⟩ := key
    have later := fun other member => admitted other (List.mem_cons_of_mem _ member)
    obtain ⟨unclaimed, room⟩ := admitted (vehicle, implement) List.mem_cons_self
    unfold reserveLoop
    split
    · exact reservedFrom
    · split
      · exact ih reservedFrom later
      · next fresh =>
        rw [not_or] at fresh
        exact ih (reservedFrom.claim unclaimed room fresh.1) later

end ReservedFrom

/-- What allocating one cluster claims: free implements, a free operator and one use of each of
its vehicles. -/
structure Claims (start : AllocationState) (cluster : ClusterSpec) (state : AllocationState) :
    Prop where
  implements : ∀ implement ∈ cluster.allocatedPrimeRelated.values.flatten,
    implement ∈ state.claimedImplements ∧ implement ∉ start.claimedImplements
  claimed : start.claimedImplements ⊆ state.claimedImplements
  operator : cluster.operatorRef = "" ∨
    cluster.operatorRef ∈ state.claimedOperators ∧ cluster.operatorRef ∉ start.claimedOperators
  operators : start.claimedOperators ⊆ state.claimedOperators
  uses : ∀ vehicle, state.vehicleUses vehicle = start.vehicleUses vehicle +
    if vehicle ∈ cluster.allocatedPrimeRelated.keys then 1 else 0
  room : ∀ vehicle ∈ cluster.allocatedPrimeRelated.keys,
    start.vehicleUses vehicle < maxVehicleAssignments

variable (settings : AllocationSettings) (inputs : AllocationInputs)

theorem allocateCluster_claims (state : AllocationState) (cluster : DepotCluster) :
    Claims state (allocateCluster settings inputs state cluster).1
      (allocateCluster settings inputs state cluster).2 := by
  have admitted : ∀ maxUses ≤ maxVehicleAssignments, ∀ key ∈ bestFirst
      (collectPairCandidates inputs (inputs.clusterOrders cluster) state maxUses),
      key.2 ∉ state.claimedImplements ∧ state.vehicleUses key.1 < maxVehicleAssignments := by
    intro maxUses within key member
    have admits := inputs.admits_of_mem_scoredPairs (mem_bestFirst.mp member)
    obtain ⟨unclaimed, room⟩ := of_decide_eq_true admits
    exact ⟨unclaimed, by omega⟩
  unfold allocateCluster
  extract_lets clusterOrders fresh candidates r
  have reserved : ReservedFrom state r := by
    apply (ReservedFrom.initial state).loop
    change ∀ key ∈ bestFirst (if fresh.entries.isEmpty then _ else fresh), _
    split
    · exact admitted maxVehicleAssignments (Nat.le_refl _)
    · exact admitted 1 (by decide)
  split
  · exact {
      implements := reserved.implements
      claimed := reserved.claimed
      operator := .inl rfl
      operators := fun _ member => reserved.operators.symm ▸ member
      uses := reserved.uses
      room := reserved.room }
  · next operator found =>
    have free : operator.assetId ∉ r.state.claimedOperators := by
      have member := mem_of_firstMaxBy found
      split at member
      · exact of_decide_eq_true (List.mem_filter.mp member).2
      · exact of_decide_eq_true (List.mem_filter.mp (List.mem_filter.mp member).1).2
    rw [reserved.operators] at free
    exact {
      implements := reserved.implements
      claimed := reserved.claimed
      operator := .inr ⟨List.mem_cons_self, free⟩
      operators := fun _ member => List.mem_cons_of_mem _ (reserved.operators.symm ▸ member)
      uses := reserved.uses
      room := reserved.room }

/-- From any state, the clusters still to come share no implement and no operator, with one another
or with the claims made so far, and use no vehicle more often than it has uses left. -/
structure SharesFree (state : AllocationState) (allocated : List ClusterSpec) : Prop where
  implements : allocated.Pairwise fun a b =>
    a.allocatedPrimeRelated.values.flatten.Disjoint b.allocatedPrimeRelated.values.flatten
  operators : allocated.Pairwise fun a b => a.operatorRef ≠ "" → a.operatorRef ≠ b.operatorRef
  unclaimed : ∀ cluster ∈ allocated, ∀ implement ∈ cluster.allocatedPrimeRelated.values.flatten,
    implement ∉ state.claimedImplements
  free : ∀ cluster ∈ allocated, cluster.operatorRef ≠ "" →
    cluster.operatorRef ∉ state.claimedOperators
  uses : ∀ vehicle, state.vehicleUses vehicle ≤ maxVehicleAssignments →
    state.vehicleUses vehicle + (allocated.filter fun cluster =>
      vehicle ∈ cluster.allocatedPrimeRelated.keys).length ≤ maxVehicleAssignments

theorem SharesFree.cons {state next : AllocationState} {cluster : ClusterSpec}
    {rest : List ClusterSpec} (claims : Claims state cluster next) (later : SharesFree next rest) :
    SharesFree state (cluster :: rest) where
  implements := List.pairwise_cons.mpr ⟨fun other member implement first second =>
    later.unclaimed other member implement second (claims.implements implement first).1,
    later.implements⟩
  operators := by
    refine List.pairwise_cons.mpr ⟨fun other member named same => ?_, later.operators⟩
    have held := (claims.operator.resolve_left named).1
    rw [same] at named held
    exact later.free other member named held
  unclaimed other member implement held := by
    rcases List.mem_cons.mp member with rfl | old
    · exact (claims.implements implement held).2
    · exact fun before => later.unclaimed other old implement held (claims.claimed before)
  free other member named := by
    rcases List.mem_cons.mp member with rfl | old
    · exact (claims.operator.resolve_left named).2
    · exact fun before => later.free other old named (claims.operators before)
  uses vehicle within := by
    have used := claims.uses vehicle
    have room := claims.room vehicle
    rw [List.filter_cons]
    by_cases takes : vehicle ∈ cluster.allocatedPrimeRelated.keys
    · rw [if_pos takes] at used
      have rest := later.uses vehicle (by rw [used]; exact room takes)
      simp only [takes, decide_true, if_true, List.length_cons]
      omega
    · rw [if_neg takes] at used
      have rest := later.uses vehicle (by omega)
      simp only [takes, decide_false, Bool.false_eq_true, if_false]
      omega

theorem allocateClusters_sharesFree (state : AllocationState) (clusters : List DepotCluster) :
    SharesFree state (allocateClusters settings inputs state clusters) := by
  induction clusters generalizing state with
  | nil => exact ⟨.nil, .nil, by simp [allocateClusters], by simp [allocateClusters],
      fun _ within => by simpa [allocateClusters] using within⟩
  | cons cluster rest ih => exact .cons (allocateCluster_claims settings inputs state cluster) (ih _)

theorem allocateResourcesGreedy_exclusive (clusters : List DepotCluster) :
    Exclusive (allocateResourcesGreedy settings inputs clusters) := by
  have shares := allocateClusters_sharesFree settings inputs { } (penaltySorted clusters)
  refine ⟨shares.implements, shares.operators, fun vehicle => ?_⟩
  have uses := shares.uses vehicle (Nat.zero_le _)
  rwa [show AllocationState.vehicleUses { } vehicle = 0 from rfl, Nat.zero_add] at uses

end Greedy

section Global

/-- A variable of the pair block: a cluster by its position and a candidate of it. -/
structure PairVar where
  cluster : ℕ
  vehicle : String
  implement : String
deriving DecidableEq, Repr

/-- A variable of the operator block: a cluster and a row of the operator table. -/
structure OperatorVar where
  cluster : ℕ
  row : ℕ
  operator : String
deriving DecidableEq, Repr

variable (settings : AllocationSettings) (inputs : AllocationInputs)

/-- Keep the best pairs while spreading them over vehicles and implements. -/
def truncateWithDiversity (candidates : Dict (String × String) ℚ) : List (String × String) :=
  (bestFirst candidates).foldl (fun top key =>
    if settings.candidatesPerCluster ≤ top.length then top
    else if settings.pairsPerVehicle ≤ (top.filter fun other => other.1 = key.1).length then top
    else if settings.pairsPerImplement ≤ (top.filter fun other => other.2 = key.2).length then top
    else top ++ [key]) []

/-- The candidates and the resource limit of a cluster in the model. -/
def clusterCandidates (cluster : DepotCluster) : List (String × String) × ℕ :=
  let clusterOrders := inputs.clusterOrders cluster
  (truncateWithDiversity settings (inputs.scoredPairs (fun _ _ => true) clusterOrders),
    clusterResourceLimit settings clusterOrders)

/-- The variables of the pair block, cluster by cluster. -/
def pairVars (clusters : List DepotCluster) : List PairVar :=
  clusters.zipIdx.flatMap fun entry =>
    (clusterCandidates settings inputs entry.1).1.map fun key => ⟨entry.2, key.1, key.2⟩

/-- The variables of the operator block. -/
def operatorVars (clusters : List DepotCluster) : List OperatorVar :=
  clusters.zipIdx.flatMap fun entry =>
    inputs.operators.zipIdx.map fun operator => ⟨entry.2, operator.2, operator.1.assetId⟩

/-- A solution of the posted constraints, as the values of the variables. -/
structure AssignmentSolution (clusters : List DepotCluster) where
  pair : PairVar → Bool
  operator : OperatorVar → Bool
  clusterLimit : ∀ entry ∈ clusters.zipIdx,
    (((pairVars settings inputs clusters).filter pair).filter fun var =>
      var.cluster = entry.2).length ≤ (clusterCandidates settings inputs entry.1).2
  vehicleOnce : ∀ index vehicle,
    (((pairVars settings inputs clusters).filter pair).filter fun var =>
      var.cluster = index ∧ var.vehicle = vehicle).length ≤ 1
  implementOnce : ∀ implement,
    (((pairVars settings inputs clusters).filter pair).filter fun var =>
      var.implement = implement).length ≤ 1
  vehicleUses : ∀ vehicle,
    (((pairVars settings inputs clusters).filter pair).filter fun var =>
      var.vehicle = vehicle).length ≤ maxVehicleAssignments
  operatorOnce : ∀ index, (((operatorVars inputs clusters).filter operator).filter fun var =>
      var.cluster = index).length ≤ 1
  clusterOnce : ∀ id, (((operatorVars inputs clusters).filter operator).filter fun var =>
      var.operator = id).length ≤ 1

variable {settings inputs}

namespace AssignmentSolution

variable {clusters : List DepotCluster} (solution : AssignmentSolution settings inputs clusters)

/-- The pairs the solution chooses. -/
def chosen : List PairVar := (pairVars settings inputs clusters).filter solution.pair

/-- The operators the solution chooses. -/
def chosenOperators : List OperatorVar := (operatorVars inputs clusters).filter solution.operator

/-- The chosen pairs of one cluster. -/
def allocatedAt (index : ℕ) (candidates : List (String × String)) : Dict String (List String) :=
  ((sortBy (fun key => toLex (key.1, key.2)) candidates).filter fun key =>
    (⟨index, key.1, key.2⟩ : PairVar) ∈ solution.chosen).foldl
      (fun allocated key => allocated.set key.1 [key.2]) .empty

/-- The chosen operator of one cluster; a later row of an operator stands for the earlier ones. -/
def operatorAt (index : ℕ) : String :=
  let vars := Dict.collect (fun var : OperatorVar => (var.cluster, var.operator)) id
    (operatorVars inputs clusters)
  ((vars.values.filter fun var => var.cluster = index ∧ var ∈ solution.chosenOperators).getLast?).elim
    "" (·.operator)

/-- Write the chosen pairs and operators back onto the clusters. -/
def applySolution : List ClusterSpec :=
  clusters.zipIdx.map fun entry => entry.1.allocate
    (solution.allocatedAt entry.2 (clusterCandidates settings inputs entry.1).1)
    (solution.operatorAt entry.2)

variable {solution}

/-- Whatever a cluster is allocated was chosen for it. -/
theorem chosen_of_allocatedAt {index : ℕ} {candidates : List (String × String)} :
    (∀ implement ∈ (solution.allocatedAt index candidates).values.flatten,
      ∃ var ∈ solution.chosen, var.cluster = index ∧ var.implement = implement) ∧
    ∀ vehicle ∈ (solution.allocatedAt index candidates).keys,
      ∃ var ∈ solution.chosen, var.cluster = index ∧ var.vehicle = vehicle := by
  unfold allocatedAt
  have listed : ∀ key ∈ (sortBy (fun key => toLex (key.1, key.2)) candidates).filter fun key =>
      (⟨index, key.1, key.2⟩ : PairVar) ∈ solution.chosen,
      (⟨index, key.1, key.2⟩ : PairVar) ∈ solution.chosen :=
    fun key member => of_decide_eq_true (List.mem_filter.mp member).2
  generalize ((sortBy (fun key => toLex (key.1, key.2)) candidates).filter fun key =>
    (⟨index, key.1, key.2⟩ : PairVar) ∈ solution.chosen) = keys at listed
  have start : (∀ implement ∈ (Dict.empty : Dict String (List String)).values.flatten,
      ∃ var ∈ solution.chosen, var.cluster = index ∧ var.implement = implement) ∧
      ∀ vehicle ∈ (Dict.empty : Dict String (List String)).keys,
        ∃ var ∈ solution.chosen, var.cluster = index ∧ var.vehicle = vehicle := by
    constructor <;> intro _ member <;> exact absurd member List.not_mem_nil
  generalize (Dict.empty : Dict String (List String)) = allocated at start
  induction keys generalizing allocated with
  | nil => exact start
  | cons key rest ih =>
    have chosen := listed key List.mem_cons_self
    refine ih (fun other member => listed other (List.mem_cons_of_mem _ member)) _ ⟨?_, ?_⟩
    · intro implement member
      rcases Dict.mem_flatten_set member with new | old
      · exact ⟨_, chosen, rfl, (List.mem_singleton.mp new).symm⟩
      · exact start.1 implement old
    · intro vehicle member
      rcases (Dict.mem_keys_set _ _ _ _).mp member with rfl | old
      · exact ⟨_, chosen, rfl, rfl⟩
      · exact start.2 vehicle old

theorem chosen_of_operatorAt {index : ℕ} (named : solution.operatorAt index ≠ "") :
    ∃ var ∈ solution.chosenOperators,
      var.cluster = index ∧ var.operator = solution.operatorAt index := by
  unfold operatorAt at named ⊢
  dsimp only at named ⊢
  generalize found : List.getLast? _ = last at named ⊢
  cases last with
  | none => exact absurd rfl named
  | some var =>
    have member := List.mem_filter.mp (List.mem_of_getLast? found)
    obtain ⟨same, chosen⟩ := of_decide_eq_true member.2
    exact ⟨var, chosen, same, rfl⟩

private theorem two_le_length {α : Type*} [DecidableEq α] {l : List α} {a b : α} (first : a ∈ l)
    (second : b ∈ l) (differ : a ≠ b) : 2 ≤ l.length := by
  have distinct : [a, b].Nodup := by simpa using differ
  exact (List.subperm_of_subset distinct
    (List.cons_subset.mpr ⟨first, List.cons_subset.mpr ⟨second, List.nil_subset _⟩⟩)).length_le

theorem nodup_zipIdx_snd (clusters : List DepotCluster) :
    (clusters.zipIdx.map Prod.snd).Nodup := by
  rw [List.zipIdx_map_snd]
  exact List.nodup_range'

/-- A solution of the posted constraints is exclusive. -/
theorem applySolution_exclusive : Exclusive solution.applySolution := by
  have distinct : clusters.zipIdx.Pairwise fun a b => a.2 ≠ b.2 :=
    List.pairwise_map.mp (nodup_zipIdx_snd clusters)
  refine ⟨?_, ?_, ?_⟩
  · refine List.pairwise_map.mpr (distinct.imp fun differ implement first second => ?_)
    have held : ∀ var ∈ solution.chosen, var.implement = implement →
        var ∈ solution.chosen.filter fun var => var.implement = implement :=
      fun var chosen same => List.mem_filter.mpr ⟨chosen, decide_eq_true same⟩
    obtain ⟨a, chosenA, atA, sameA⟩ := chosen_of_allocatedAt.1 implement first
    obtain ⟨b, chosenB, atB, sameB⟩ := chosen_of_allocatedAt.1 implement second
    have both := two_le_length (held a chosenA sameA) (held b chosenB sameB)
      fun same => differ (by rw [← atA, ← atB, same])
    exact absurd (both.trans (solution.implementOnce implement)) (by decide)
  · refine List.pairwise_map.mpr (distinct.imp @fun first second differ named same => ?_)
    change solution.operatorAt first.2 ≠ "" at named
    change solution.operatorAt first.2 = solution.operatorAt second.2 at same
    have held : ∀ var ∈ solution.chosenOperators, var.operator = solution.operatorAt first.2 →
        var ∈ solution.chosenOperators.filter fun var =>
          var.operator = solution.operatorAt first.2 :=
      fun var chosen same => List.mem_filter.mpr ⟨chosen, decide_eq_true same⟩
    obtain ⟨a, chosenA, atA, sameA⟩ := chosen_of_operatorAt named
    obtain ⟨b, chosenB, atB, sameB⟩ := chosen_of_operatorAt (same ▸ named)
    have both := two_le_length (held a chosenA sameA) (held b chosenB (sameB.trans same.symm))
      fun same => differ (by rw [← atA, ← atB, same])
    exact absurd (both.trans (solution.clusterOnce _)) (by decide)
  · intro vehicle
    let users := clusters.zipIdx.filter fun entry => vehicle ∈
      (solution.allocatedAt entry.2 (clusterCandidates settings inputs entry.1).1).keys
    have indices : users.map Prod.snd ⊆
        (solution.chosen.filter fun var => var.vehicle = vehicle).map PairVar.cluster := by
      intro index member
      obtain ⟨entry, used, rfl⟩ := List.mem_map.mp member
      obtain ⟨var, chosen, same, drives⟩ :=
        chosen_of_allocatedAt.2 vehicle (of_decide_eq_true (List.mem_filter.mp used).2)
      exact List.mem_map.mpr ⟨var, List.mem_filter.mpr ⟨chosen, decide_eq_true drives⟩, same⟩
    have nodup : (users.map Prod.snd).Nodup :=
      (nodup_zipIdx_snd clusters).sublist (List.filter_sublist.map _)
    have short := (List.subperm_of_subset nodup indices).length_le
    rw [List.length_map, List.length_map] at short
    rw [applySolution, List.filter_map, List.length_map]
    exact short.trans (solution.vehicleUses vehicle)

end AssignmentSolution

/-- The global model if it is enabled, small enough and solved; the greedy pass otherwise. -/
def allocateResources (settings : AllocationSettings) (inputs : AllocationInputs)
    (clusters : List DepotCluster)
    (answer : Option (AssignmentSolution settings inputs (penaltySorted clusters))) :
    List ClusterSpec :=
  if settings.globalAssignmentEnabled = true ∧
      (pairVars settings inputs (penaltySorted clusters)).length ≤ settings.maxModelCandidates then
    match answer with
    | some solution => solution.applySolution
    | none => allocateResourcesGreedy settings inputs clusters
  else allocateResourcesGreedy settings inputs clusters

/-- Every allocation is exclusive, up to the two uses of a vehicle. -/
theorem allocateResources_exclusive (settings : AllocationSettings) (inputs : AllocationInputs)
    (clusters : List DepotCluster)
    (answer : Option (AssignmentSolution settings inputs (penaltySorted clusters))) :
    Exclusive (allocateResources settings inputs clusters answer) := by
  unfold allocateResources
  split
  · cases answer with
    | some solution => exact solution.applySolution_exclusive
    | none => exact allocateResourcesGreedy_exclusive settings inputs clusters
  · exact allocateResourcesGreedy_exclusive settings inputs clusters

/-- Two orders that one tractor can serve, with a mower and with a sprayer. -/
def tractorInputs : AllocationInputs where
  orders := [{ taskId := "mow-1", operationType := "MOWING" },
    { taskId := "spray-1", operationType := "SPRAYING" }]
  operators := []
  vehicleIndex := Dict.empty.set "tractor-1" 0
  implementIndex := (Dict.empty.set "mower-1" 0).set "sprayer-1" 1
  feasiblePairs := (Dict.empty.set "mow-1" [(0, 0)]).set "spray-1" [(0, 1)]
  scoreViPair _ _ _ := 1

/-- The only tractor is reserved for two clusters. -/
theorem vehicle_in_two_clusters :
    ¬ ∀ (settings : AllocationSettings) (inputs : AllocationInputs) (clusters : List DepotCluster)
      (answer : Option (AssignmentSolution settings inputs (penaltySorted clusters))),
      (allocateResources settings inputs clusters answer).Pairwise fun a b =>
        a.allocatedPrimeRelated.keys.Disjoint b.allocatedPrimeRelated.keys := by
  intro exclusive
  have disjoint := exclusive { globalAssignmentEnabled := false } tractorInputs
    [⟨"cluster_000000", "depot-1", ["mow-1"], 500⟩, ⟨"cluster_000001", "depot-1", ["spray-1"], 100⟩]
    none
  rw [← List.pairwise_map (f := fun cluster : ClusterSpec => cluster.allocatedPrimeRelated.keys)]
    at disjoint
  have keys : (allocateResources { globalAssignmentEnabled := false } tractorInputs
      [⟨"cluster_000000", "depot-1", ["mow-1"], 500⟩,
        ⟨"cluster_000001", "depot-1", ["spray-1"], 100⟩] none).map
      (fun cluster : ClusterSpec => cluster.allocatedPrimeRelated.keys) =
        [["tractor-1"], ["tractor-1"]] := by
    decide +kernel
  rw [keys] at disjoint
  simp at disjoint

end Global

end FlOp.Solver
