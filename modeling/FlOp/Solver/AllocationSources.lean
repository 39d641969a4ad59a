import FlOp.Solver.Allocation

/-! # Where allocated resources come from

The bundles an allocation reserves can serve some order of the call, and the operators it names are
rows of the operator table. Neither the greedy pass nor a solution of the assignment model brings
in anything else.
-/

namespace FlOp.Solver

open Library

/-- The assets a cluster is allocated, and its operator if it has one. -/
def ClusterSpec.resources (cluster : ClusterSpec) : List String :=
  cluster.allocatedPrimeRelated.keys ++ cluster.allocatedPrimeRelated.values.flatten ++
    [cluster.operatorRef].filter (· ≠ "")

namespace AllocationInputs

variable (inputs : AllocationInputs)

/-- The bundles that can serve an order. -/
def bundlesOf (order : OrderRow) : List (String × String) :=
  (inputs.feasiblePairs.getD order.taskId []).filterMap fun pair =>
    (inputs.idxToVehicle.get? pair.1).bind fun vehicle =>
      (inputs.idxToImplement.get? pair.2).map fun implement => (vehicle, implement)

/-- The asset is in a bundle that can serve an order, or it is an operator. -/
def Offers (resource : String) : Prop :=
  (∃ order ∈ inputs.orders, ∃ bundle ∈ inputs.bundlesOf order,
    bundle.1 = resource ∨ bundle.2 = resource) ∨ resource ∈ inputs.operators.map (·.assetId)

instance (resource : String) : Decidable (inputs.Offers resource) :=
  inferInstanceAs (Decidable (_ ∨ _))

/-- Both members of a bundle are offered. -/
def OffersBundle (bundle : String × String) : Prop :=
  inputs.Offers bundle.1 ∧ inputs.Offers bundle.2

variable {inputs}

theorem offersBundle_of_mem {order : OrderRow} (given : order ∈ inputs.orders)
    {bundle : String × String} (member : bundle ∈ inputs.bundlesOf order) :
    inputs.OffersBundle bundle :=
  ⟨.inl ⟨order, given, bundle, member, .inl rfl⟩, .inl ⟨order, given, bundle, member, .inr rfl⟩⟩

theorem mem_orders_of_clusterOrders {cluster : DepotCluster} {order : OrderRow}
    (member : order ∈ inputs.clusterOrders cluster) : order ∈ inputs.orders := by
  obtain ⟨id, -, found⟩ := List.mem_filterMap.mp member
  obtain ⟨other, listed, -, same⟩ := Dict.exists_of_get?_collect found
  exact same ▸ listed

/-- A pair that is scored for orders of the call is offered. -/
theorem offersBundle_of_scoredPairs {admits : String → String → Bool}
    {clusterOrders : List OrderRow} (given : clusterOrders ⊆ inputs.orders)
    {key : String × String} (member : key ∈ (inputs.scoredPairs admits clusterOrders).keys) :
    inputs.OffersBundle key := by
  unfold scoredPairs at member
  have start : ∀ key ∈ (Dict.empty : Dict (String × String) ℚ).keys, inputs.OffersBundle key := by
    simp
  generalize (Dict.empty : Dict (String × String) ℚ) = candidates at start member
  induction clusterOrders generalizing candidates with
  | nil => exact start key member
  | cons order rest ih =>
    obtain ⟨known, later⟩ := List.cons_subset.mp given
    rw [List.foldl_cons] at member
    refine ih later _ ?_ member
    clear member ih
    have served : ∀ pair ∈ inputs.feasiblePairs.getD order.taskId [], ∀ vehicle implement,
        inputs.idxToVehicle.get? pair.1 = some vehicle →
        inputs.idxToImplement.get? pair.2 = some implement →
        inputs.OffersBundle (vehicle, implement) := by
      intro pair listed vehicle implement drives carries
      refine offersBundle_of_mem known (List.mem_filterMap.mpr ⟨pair, listed, ?_⟩)
      rw [drives, carries]
      rfl
    generalize inputs.feasiblePairs.getD order.taskId [] = pairs at served
    induction pairs generalizing candidates with
    | nil => exact start
    | cons pair pairs ih =>
      obtain ⟨first, others⟩ := List.forall_mem_cons.mp served
      rw [List.foldl_cons]
      refine ih _ ?_ others
      intro other present
      split at present
      · next vehicle implement drives carries =>
        split at present
        · rcases (Dict.mem_keys_set _ _ _ _).mp present with rfl | old
          · exact first vehicle implement drives carries
          · exact start other old
        · exact start other present
      · exact start other present

/-- What a cluster is allocated is offered. -/
def Supplies (inputs : AllocationInputs) (allocated : Dict String (List String)) : Prop :=
  (∀ vehicle ∈ allocated.keys, inputs.Offers vehicle) ∧
    ∀ implement ∈ allocated.values.flatten, inputs.Offers implement

theorem Supplies.empty (inputs : AllocationInputs) : inputs.Supplies .empty :=
  ⟨by simp, fun _ member => absurd member List.not_mem_nil⟩

/-- A further offered bundle keeps the allocation supplied. -/
theorem Supplies.set {allocated : Dict String (List String)} (supplies : inputs.Supplies allocated)
    {key : String × String} (offered : inputs.OffersBundle key) :
    inputs.Supplies (allocated.set key.1 [key.2]) := by
  refine ⟨fun vehicle member => ?_, fun implement member => ?_⟩
  · rcases (Dict.mem_keys_set _ _ _ _).mp member with rfl | old
    · exact offered.1
    · exact supplies.1 vehicle old
  · rcases Dict.mem_flatten_set member with new | old
    · obtain rfl := List.mem_singleton.mp new
      exact offered.2
    · exact supplies.2 implement old

/-- A cluster with supplied bundles and an operator of the table draws on nothing else. -/
theorem offers_of_resources {cluster : ClusterSpec}
    (supplies : inputs.Supplies cluster.allocatedPrimeRelated)
    (operator : cluster.operatorRef ≠ "" → inputs.Offers cluster.operatorRef) :
    ∀ resource ∈ cluster.resources, inputs.Offers resource := by
  intro resource member
  rcases List.mem_append.mp member with asset | named
  · rcases List.mem_append.mp asset with vehicle | implement
    · exact supplies.1 resource vehicle
    · exact supplies.2 resource implement
  · obtain ⟨listed, given⟩ := List.mem_filter.mp named
    obtain rfl := List.mem_singleton.mp listed
    exact operator (of_decide_eq_true given)

section Greedy

theorem supplies_reserveLoop (resourceLimit : ℕ) {candidates : List (String × String)}
    (offered : ∀ key ∈ candidates, inputs.OffersBundle key) {r : Reservation}
    (supplies : inputs.Supplies r.allocated) :
    inputs.Supplies (reserveLoop resourceLimit candidates r).allocated := by
  induction candidates generalizing r with
  | nil => exact supplies
  | cons key rest ih =>
    obtain ⟨vehicle, implement⟩ := key
    obtain ⟨first, later⟩ := List.forall_mem_cons.mp offered
    unfold reserveLoop
    split
    · exact supplies
    · split
      · exact ih later supplies
      · exact ih later (supplies.set first)

/-- One cluster of the greedy pass draws on what is offered. -/
theorem offers_allocateCluster (settings : AllocationSettings) (state : AllocationState)
    (cluster : DepotCluster) :
    ∀ resource ∈ (allocateCluster settings inputs state cluster).1.resources,
      inputs.Offers resource := by
  have scored : ∀ maxUses, ∀ key ∈ bestFirst
      (collectPairCandidates inputs (inputs.clusterOrders cluster) state maxUses),
      inputs.OffersBundle key := by
    intro maxUses key member
    exact offersBundle_of_scoredPairs (fun _ => mem_orders_of_clusterOrders)
      (mem_bestFirst.mp member)
  unfold allocateCluster
  extract_lets clusterOrders fresh candidates r
  have reserved : inputs.Supplies r.allocated := by
    refine supplies_reserveLoop _ ?_ (.empty inputs)
    change ∀ key ∈ bestFirst (if fresh.entries.isEmpty then _ else fresh), _
    split
    · exact scored maxVehicleAssignments
    · exact scored 1
  split
  · exact offers_of_resources reserved fun named => absurd rfl named
  · next operator found =>
    refine offers_of_resources reserved fun _ => .inr (List.mem_map_of_mem ?_)
    have member := mem_of_firstMaxBy found
    split at member
    · exact (List.mem_filter.mp member).1
    · exact (List.mem_filter.mp (List.mem_filter.mp member).1).1

theorem offers_allocateClusters (settings : AllocationSettings) (state : AllocationState)
    (clusters : List DepotCluster) :
    ∀ cluster ∈ allocateClusters settings inputs state clusters,
      ∀ resource ∈ cluster.resources, inputs.Offers resource := by
  induction clusters generalizing state with
  | nil => exact fun _ member => absurd member List.not_mem_nil
  | cons cluster rest ih =>
    exact List.forall_mem_cons.mpr ⟨offers_allocateCluster settings state cluster, ih _⟩

end Greedy

section Global

/-- The candidates of the model are scored pairs. -/
theorem subset_truncateWithDiversity (settings : AllocationSettings)
    (candidates : Dict (String × String) ℚ) :
    truncateWithDiversity settings candidates ⊆ candidates.keys := by
  have grown : ∀ (ranked top : List (String × String)), (∀ key ∈ ranked, key ∈ candidates.keys) →
      (∀ key ∈ top, key ∈ candidates.keys) →
      ∀ key ∈ ranked.foldl (fun top key =>
        if settings.candidatesPerCluster ≤ top.length then top
        else if settings.pairsPerVehicle ≤ (top.filter fun other => other.1 = key.1).length then top
        else if settings.pairsPerImplement ≤ (top.filter fun other => other.2 = key.2).length then
          top
        else top ++ [key]) top, key ∈ candidates.keys := by
    intro ranked
    induction ranked with
    | nil => exact fun top _ kept => kept
    | cons first rest ih =>
      intro top listed kept
      obtain ⟨head, later⟩ := List.forall_mem_cons.mp listed
      refine ih _ later ?_
      dsimp only
      split_ifs
      · exact kept
      · exact kept
      · exact kept
      · exact List.forall_mem_append.mpr ⟨kept, List.forall_mem_singleton.mpr head⟩
  exact fun key => grown _ [] (fun _ => mem_bestFirst.mp) (fun _ member => absurd member
    List.not_mem_nil) key

theorem offers_applySolution {settings : AllocationSettings} {clusters : List DepotCluster}
    (solution : AssignmentSolution settings inputs clusters) :
    ∀ cluster ∈ solution.applySolution, ∀ resource ∈ cluster.resources, inputs.Offers resource := by
  have chosen : ∀ var ∈ solution.chosen, inputs.OffersBundle (var.vehicle, var.implement) := by
    intro var member
    obtain ⟨entry, -, listed⟩ := List.mem_flatMap.mp (List.mem_filter.mp member).1
    obtain ⟨key, candidate, rfl⟩ := List.mem_map.mp listed
    exact offersBundle_of_scoredPairs (fun _ => mem_orders_of_clusterOrders)
      (subset_truncateWithDiversity settings _ candidate)
  intro cluster member
  obtain ⟨entry, -, rfl⟩ := List.mem_map.mp member
  refine offers_of_resources ⟨fun vehicle drives => ?_, fun implement carried => ?_⟩ fun named => ?_
  · obtain ⟨var, taken, -, rfl⟩ := AssignmentSolution.chosen_of_allocatedAt.2 vehicle drives
    exact (chosen var taken).1
  · obtain ⟨var, taken, -, rfl⟩ := AssignmentSolution.chosen_of_allocatedAt.1 implement carried
    exact (chosen var taken).2
  · obtain ⟨var, taken, -, same⟩ := AssignmentSolution.chosen_of_operatorAt named
    obtain ⟨entry, -, listed⟩ := List.mem_flatMap.mp (List.mem_filter.mp taken).1
    obtain ⟨operator, row, rfl⟩ := List.mem_map.mp listed
    refine .inr (List.mem_map.mpr ⟨operator.1, ?_, same⟩)
    exact List.fst_mem_of_mem_zipIdx row

end Global

/-- Every resource of an allocation is offered. -/
theorem offers_allocateResources (settings : AllocationSettings) (inputs : AllocationInputs)
    (clusters : List DepotCluster)
    (answer : Option (AssignmentSolution settings inputs (penaltySorted clusters))) :
    ∀ cluster ∈ allocateResources settings inputs clusters answer,
      ∀ resource ∈ cluster.resources, inputs.Offers resource := by
  unfold allocateResources
  split
  · cases answer with
    | some solution => exact offers_applySolution solution
    | none => exact offers_allocateClusters settings _ _
  · exact offers_allocateClusters settings _ _

end AllocationInputs

end FlOp.Solver
