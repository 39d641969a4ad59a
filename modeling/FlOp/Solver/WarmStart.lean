import FlOp.Library.KeyedRows
import FlOp.Solver.ClusterSolve
import FlOp.Solver.LoadDimension
import Mathlib.Data.List.MinMax
import Mathlib.Order.Lex

/-! # Warm-start routes

The search is seeded with routes that are built order by order: each order goes to a compatible
bundle, with a reload visit before it where the compartment would overflow. The builder keeps the
depot-carried mass of each route since its last reload; paired mass it does not keep. A seed that
the routing model does not admit is dropped without a word.
-/

namespace FlOp.Solver

open Library

/-- What the warm start reads of an order. -/
structure WarmOrder extends LoadOrder where
  taskId : String
  operationType : String := ""
  alternativeGroupRef : String := ""

/-- An allocated bundle with the compartments of its vehicle. -/
structure WarmVehicle extends RoutingVehicle where
  load : LoadVehicle := {}

/-- The orders and the bundles of one cluster, with the number of reload visits in its nodes. -/
structure WarmContext where
  clusterOrders : List WarmOrder
  routingVehicles : List WarmVehicle
  nReloadNodes : ℕ
  upper : String → String

/-- A route under construction: its stops, the mass of each material loaded since its last reload,
and its number of tasks. -/
structure SeedRoute where
  vehicle : WarmVehicle
  stops : List RoutingNode := []
  loads : Dict String ℚ := .empty
  taskCount : ℕ := 0

/-- The routes so far, the reload visits on them and the alternative groups they serve. -/
structure SeedState where
  routes : List SeedRoute
  usedReloadNodes : List RoutingNode := []
  servedAlternativeGroups : List String := []

namespace SeedRoute

variable (route : SeedRoute)

def capacityKg (material : String) : ℚ := compartmentCapacityKg route.vehicle.load material

/-- Back at the depot, with every compartment empty. -/
def reloaded (node : RoutingNode) : SeedRoute :=
  { route with stops := route.stops ++ [node], loads := .empty }

end SeedRoute

namespace WarmContext

variable (context : WarmContext)

def cluster : LoadCluster where
  orders := context.clusterOrders.map (·.toLoadOrder)
  vehicles := context.routingVehicles.map (·.load)
  nReloadNodes := context.nReloadNodes

/-- The node table of the cluster. It lists no node twice: a node stands for its position. -/
def nodes : List RoutingNode := context.cluster.nodes

def reloadNodes : List RoutingNode :=
  context.nodes.filter fun
    | .reload _ => true
    | _ => false

/-- The bundle of a route admits the operation of an order. -/
def Compatible (vehicle : WarmVehicle) (order : WarmOrder) : Prop :=
  vehicle.SupportsOperation (context.upper order.operationType)

instance (vehicle : WarmVehicle) (order : WarmOrder) :
    Decidable (context.Compatible vehicle order) :=
  inferInstanceAs (Decidable (vehicle.SupportsOperation _))

/-- A depot-carried order that overflows the compartment asks for a reload visit. -/
def NeedsReload (route : SeedRoute) (order : WarmOrder) (position : ℕ) : Prop :=
  .pickup position ∉ context.nodes ∧
    route.capacityKg order.loadMaterial <
      route.loads.getD order.loadMaterial 0 + loadKg order.loadDemand

instance (route : SeedRoute) (order : WarmOrder) (position : ℕ) :
    Decidable (context.NeedsReload route order position) :=
  inferInstanceAs (Decidable (_ ∧ _))

/-- The stops of an order: its task, and directly before it its pickup if it is paired. -/
def stopsOf (position : ℕ) : List RoutingNode :=
  (if .pickup position ∈ context.nodes then [.pickup position] else []) ++ [.task position]

/-- A route with one more order. Only depot-carried mass stays on it. -/
def visiting (route : SeedRoute) (order : WarmOrder) (position : ℕ) : SeedRoute :=
  { route with
    stops := route.stops ++ context.stopsOf position
    loads :=
      if .pickup position ∉ context.nodes ∧ 0 < loadKg order.loadDemand then
        route.loads.set order.loadMaterial
          (route.loads.getD order.loadMaterial 0 + loadKg order.loadDemand)
      else route.loads
    taskCount := route.taskCount + 1 }

/-- Of the compatible routes whose compartment holds the order at all, the preferred one comes
first, then one that needs no reload, then the one with the fewest tasks. -/
def selectRoute (order : WarmOrder) (position : ℕ) (compatible : List (SeedRoute × ℕ))
    (preferredRoute : Option ℕ) : Option (SeedRoute × ℕ) :=
  (compatible.filter fun entry =>
      loadKg order.loadDemand ≤ entry.1.capacityKg order.loadMaterial).argmin
    fun entry =>
      toLex (decide (some entry.2 ≠ preferredRoute),
        toLex (decide (context.NeedsReload entry.1 order position),
          toLex (entry.1.taskCount, entry.2)))

/-- The state after a reload visit on a route. -/
def reload (state : SeedState) (chosen : SeedRoute × ℕ) (node : RoutingNode) : SeedState :=
  { state with
    routes := state.routes.set chosen.2 (chosen.1.reloaded node)
    usedReloadNodes := node :: state.usedReloadNodes }

/-- The state after an order on a route. -/
def place (state : SeedState) (chosen : SeedRoute × ℕ) (order : WarmOrder) (position : ℕ) :
    SeedState :=
  { state with
    routes := state.routes.set chosen.2 (context.visiting chosen.1 order position)
    servedAlternativeGroups :=
      if order.alternativeGroupRef = "" then state.servedAlternativeGroups
      else order.alternativeGroupRef :: state.servedAlternativeGroups }

section Build

variable (greedyAssignment : Dict String (ℤ × ℤ)) (vehicleIndex : Dict String ℤ)

/-- The asset at each index of the allocation; of assets with one index the last. -/
def sourceVehicleIds : Dict ℤ String := Dict.collect Prod.snd Prod.fst vehicleIndex.entries

/-- The route of each allocated vehicle. -/
def vehicleIdToRoute : Dict String ℕ :=
  Dict.collect (·.1.prime.assetId) (·.2) context.routingVehicles.zipIdx

/-- The route of the vehicle that the greedy assignment gives a task, if it is compatible. -/
def preferredRoute (taskId : String) (compatible : List ℕ) : Option ℕ := do
  let greedy ← greedyAssignment.get? taskId
  let preferredVehicle := (sourceVehicleIds vehicleIndex).getD greedy.1 ""
  let route ← context.vehicleIdToRoute.get? preferredVehicle
  if route ∈ compatible then some route else none

/-- The route that an order goes to; none if a member of its group is served, or no compatible
vehicle could ever hold it. -/
def chosenRoute (state : SeedState) (order : WarmOrder) (position : ℕ) : Option (SeedRoute × ℕ) :=
  if order.alternativeGroupRef ≠ "" ∧ order.alternativeGroupRef ∈ state.servedAlternativeGroups then
    none
  else
    let compatible := state.routes.zipIdx.filter fun entry =>
      context.Compatible entry.1.vehicle order
    context.selectRoute order position compatible
      (context.preferredRoute greedyAssignment vehicleIndex order.taskId
        (compatible.map Prod.snd))

/-- One order: it is skipped if no reload visit is left where it needs one. -/
def placeOrder (state : SeedState) (entry : WarmOrder × ℕ) : SeedState :=
  match context.chosenRoute greedyAssignment vehicleIndex state entry.1 entry.2 with
  | none => state
  | some chosen =>
    if context.NeedsReload chosen.1 entry.1 entry.2 then
      match context.reloadNodes.find? fun node => node ∉ state.usedReloadNodes with
      | none => state
      | some node =>
        context.place (reload state chosen node) (chosen.1.reloaded node, chosen.2) entry.1 entry.2
    else context.place state chosen entry.1 entry.2

/-- The state before the order at a position; at the end of the orders, the final one. -/
def stateBefore (position : ℕ) : SeedState :=
  (context.clusterOrders.zipIdx.take position).foldl
    (context.placeOrder greedyAssignment vehicleIndex)
    { routes := context.routingVehicles.map fun vehicle => { vehicle } }

def buildCapacityAwareInitialRoutes : List (List RoutingNode) :=
  (context.stateBefore greedyAssignment vehicleIndex context.clusterOrders.length).routes.map
    (·.stops)

end Build

end WarmContext

namespace LoadCluster

variable (cluster : LoadCluster)

/-- A route of plain tasks, reload visits, and pairs with nothing between pickup and delivery. -/
inductive DirectPairs : List RoutingNode → Prop
  | nil : DirectPairs []
  | reload {visit rest} : DirectPairs rest → DirectPairs (.reload visit :: rest)
  | plain {order rest} : ¬ cluster.Paired order → DirectPairs rest →
      DirectPairs (.task order :: rest)
  | pair {order rest} : cluster.Paired order → DirectPairs rest →
      DirectPairs (.pickup order :: .task order :: rest)

/-- The depot-carried units that count after a stop. -/
def unitsAfter (material : String) (units : ℤ) : RoutingNode → ℤ
  | .reload _ => 0
  | .task order =>
    if cluster.Paired order then units else units + cluster.quantity material order
  | _ => units

/-- The depot-carried units that count after some stops. -/
def tripUnits (material : String) (units : ℤ) (stops : List RoutingNode) : ℤ :=
  stops.foldl (cluster.unitsAfter material) units

section Counts

variable {cluster} {prime : LoadVehicle} {material : String} {units : ℤ}
  {stops rest : List RoutingNode} {order : ℕ}

theorem DirectPairs.append (first : cluster.DirectPairs stops) (second : cluster.DirectPairs rest) :
    cluster.DirectPairs (stops ++ rest) := by
  induction first with
  | nil => exact second
  | reload _ ih => exact .reload ih
  | plain unpaired _ ih => exact .plain unpaired ih
  | pair paired _ ih => exact .pair paired ih

/-- The pickup of a pair is directly before its delivery. -/
theorem DirectPairs.pickup_before (direct : cluster.DirectPairs stops)
    (visited : .pickup order ∈ stops ∨ .task order ∈ stops ∧ cluster.Paired order) :
    [.pickup order, .task order] <:+: stops := by
  induction direct with
  | nil => simp at visited
  | reload _ ih => exact List.infix_cons (ih (by simpa using visited))
  | @plain other rest unpaired _ ih =>
    apply List.infix_cons
    apply ih
    rcases visited with picked | ⟨delivered, paired⟩
    · exact .inl (by simpa using picked)
    · rcases List.mem_cons.mp delivered with same | later
      · cases same
        exact absurd paired unpaired
      · exact .inr ⟨later, paired⟩
  | @pair other rest paired _ ih =>
    by_cases same : order = other
    · subst same
      exact (List.prefix_append [.pickup order, .task order] rest).isInfix
    · apply List.infix_cons
      apply List.infix_cons
      apply ih
      simpa [same] using visited

theorem Posted.bounds (posted : cluster.Posted prime material units stops) :
    0 ≤ units ∧ units ≤ capacityUnits prime material := by
  cases stops with
  | nil => exact posted
  | cons node rest => exact posted.1

theorem posted_plain (unpaired : ¬ cluster.Paired order) :
    cluster.Posted prime material units (.task order :: rest) ↔
      (0 ≤ units ∧ units ≤ capacityUnits prime material) ∧
        cluster.Posted prime material (units + cluster.quantity material order) rest := by
  simp [Posted, SlackAllowed, demand, unpaired]

theorem posted_pair (paired : cluster.Paired order) :
    cluster.Posted prime material units (.pickup order :: .task order :: rest) ↔
      units + cluster.quantity material order ≤ capacityUnits prime material ∧
        cluster.Posted prime material units rest := by
  have counted := cluster.quantity_nonneg material order
  simp only [Posted, SlackAllowed, demand, if_pos paired, exists_eq_left, add_zero,
    add_neg_cancel_right]
  constructor
  · rintro ⟨-, ⟨-, fits⟩, later⟩
    exact ⟨fits, later⟩
  · rintro ⟨fits, later⟩
    have bounds := later.bounds
    exact ⟨bounds, ⟨by omega, fits⟩, later⟩

theorem capacityUnits_le_maxCapacity (member : prime ∈ cluster.vehicles) (material : String) :
    capacityUnits prime material ≤ cluster.maxCapacity material := by
  have largest : ∀ (capacities : List ℤ), ∀ units ∈ capacities, units ≤ capacities.foldr max 0 := by
    intro capacities
    induction capacities with
    | nil => exact fun _ absent => absurd absent List.not_mem_nil
    | cons first rest ih =>
      intro units listed
      rcases List.mem_cons.mp listed with rfl | later
      · exact le_max_left _ _
      · exact (ih units later).trans (le_max_right _ _)
  exact largest _ _ (List.mem_map_of_mem member)

/-- With less counted before it, a route stays posted. -/
theorem DirectPairs.posted_mono (direct : cluster.DirectPairs stops)
    (member : prime ∈ cluster.vehicles) {fewer : ℤ} (nonneg : 0 ≤ fewer) (le : fewer ≤ units)
    (posted : cluster.Posted prime material units stops) :
    cluster.Posted prime material fewer stops := by
  have bounds := posted.bounds
  induction direct generalizing fewer units with
  | nil => exact ⟨nonneg, le.trans bounds.2⟩
  | reload _ ih =>
    obtain ⟨-, slack, -, later⟩ := posted
    have most := capacityUnits_le_maxCapacity member material
    -- The count falls to zero, and zero is no more than what it fell to.
    refine ⟨⟨nonneg, by omega⟩, cluster.maxCapacity material - fewer, ⟨by omega, by omega⟩, ?_⟩
    have empty : fewer + cluster.demand material (.reload ‹ℕ›) +
        (cluster.maxCapacity material - fewer) = 0 := by
      rw [demand]
      omega
    rw [empty]
    exact ih le_rfl later.bounds.1 later later.bounds
  | plain unpaired _ ih =>
    obtain ⟨-, later⟩ := (posted_plain unpaired).mp posted
    have counted := cluster.quantity_nonneg material ‹ℕ›
    exact (posted_plain unpaired).mpr
      ⟨⟨nonneg, by omega⟩, ih (by omega) (by omega) later later.bounds⟩
  | pair paired _ ih =>
    obtain ⟨fits, later⟩ := (posted_pair paired).mp posted
    exact (posted_pair paired).mpr ⟨by omega, ih nonneg le later later.bounds⟩

/-- A reload visit lets the count fall to zero. -/
theorem DirectPairs.posted_reload (direct : cluster.DirectPairs rest)
    (member : prime ∈ cluster.vehicles) {visit : ℕ} :
    cluster.Posted prime material units (.reload visit :: rest) ↔
      (0 ≤ units ∧ units ≤ capacityUnits prime material) ∧
        cluster.Posted prime material 0 rest := by
  constructor
  · intro posted
    obtain ⟨bounds, slack, -, later⟩ := posted
    exact ⟨bounds, direct.posted_mono member le_rfl later.bounds.1 later⟩
  · rintro ⟨bounds, later⟩
    have most := capacityUnits_le_maxCapacity member material
    refine ⟨bounds, cluster.maxCapacity material - units, ⟨by omega, by omega⟩, ?_⟩
    have empty : units + cluster.demand material (.reload visit) +
        (cluster.maxCapacity material - units) = 0 := by
      rw [demand]
      omega
    rwa [empty]

/-- A longer route is posted if its first part is, and the rest is from the units then counted. -/
theorem DirectPairs.posted_append (first : cluster.DirectPairs stops)
    (second : cluster.DirectPairs rest) (member : prime ∈ cluster.vehicles) :
    cluster.Posted prime material units (stops ++ rest) ↔
      cluster.Posted prime material units stops ∧
        cluster.Posted prime material (cluster.tripUnits material units stops) rest := by
  induction first generalizing units with
  | nil => exact ⟨fun posted => ⟨posted.bounds, posted⟩, And.right⟩
  | reload direct ih =>
    rw [List.cons_append, (direct.append second).posted_reload member, ih,
      direct.posted_reload member]
    exact and_assoc.symm
  | @plain order stops unpaired direct ih =>
    rw [List.cons_append, posted_plain unpaired, ih, posted_plain unpaired, tripUnits, tripUnits,
      List.foldl_cons, unitsAfter, if_neg unpaired]
    exact and_assoc.symm
  | @pair order stops paired direct ih =>
    rw [List.cons_append, List.cons_append, posted_pair paired, ih, posted_pair paired, tripUnits,
      tripUnits, List.foldl_cons, List.foldl_cons]
    simp only [unitsAfter, if_pos paired]
    exact and_assoc.symm

end Counts

end LoadCluster

namespace WarmContext

variable (context : WarmContext)

/-- Routes that keep what the routing model asks of visits, alternatives, bundles, pairs and loads;
the stops of each bundle are in its place. -/
structure Feasible (routes : List (List RoutingNode)) : Prop where
  listed : routes.flatten ⊆ context.nodes
  visitedOnce : routes.flatten.Nodup
  oneAlternative : ∀ first second, .task first ∈ routes.flatten → .task second ∈ routes.flatten →
    ∀ one ∈ context.clusterOrders[first]?, ∀ other ∈ context.clusterOrders[second]?,
      one.alternativeGroupRef ≠ "" → one.alternativeGroupRef = other.alternativeGroupRef →
        first = second
  supported : List.Forall₂ (fun vehicle stops => ∀ position, .task position ∈ stops →
    ∀ order ∈ context.clusterOrders[position]?, context.Compatible vehicle order)
      context.routingVehicles routes
  pickedUp : ∀ stops ∈ routes, ∀ position,
    .pickup position ∈ stops ∨ .task position ∈ stops ∧ context.cluster.Paired position →
      [.pickup position, .task position] <:+: stops
  withinCapacity : List.Forall₂ (fun vehicle stops => ∀ material ∈ context.cluster.loadMaterials,
    context.cluster.Posted vehicle.load material 0 stops) context.routingVehicles routes

/-- A paired order fits beside the depot-carried units that count on the route. -/
def PairFits (route : SeedRoute) (order : WarmOrder) (position : ℕ) : Prop :=
  context.cluster.Paired position → 0 < loadKg order.loadDemand →
    context.cluster.tripUnits order.loadMaterial 0 route.stops +
      context.cluster.quantity order.loadMaterial position ≤
        capacityUnits route.vehicle.load order.loadMaterial

/-- What holds of each route under construction. -/
structure RouteSound (route : SeedRoute) : Prop where
  direct : context.cluster.DirectPairs route.stops
  supported : ∀ position, .task position ∈ route.stops →
    ∀ order ∈ context.clusterOrders[position]?, context.Compatible route.vehicle order
  covered : ∀ material, (context.cluster.tripUnits material 0 route.stops : ℚ) ≤
    route.loads.getD material 0 * scaleMassUnitsPerKg

variable {context} {route : SeedRoute} {order : WarmOrder} {position : ℕ}

theorem pickup_mem_nodes :
    .pickup position ∈ context.nodes ↔ context.cluster.Paired position := by
  rw [nodes, LoadCluster.nodes, pickup_mem_buildNodeTable, List.getElem?_map]
  simp [LoadCluster.Paired]

theorem task_mem_nodes (found : context.clusterOrders[position]? = some order) :
    .task position ∈ context.nodes := by
  apply task_mem_buildNodeTable
  rw [List.length_map, cluster, List.length_map]
  exact (List.getElem?_eq_some_iff.mp found).1

theorem stopsOf_subset (found : context.clusterOrders[position]? = some order) :
    context.stopsOf position ⊆ context.nodes := by
  intro node member
  rw [stopsOf] at member
  split_ifs at member with paired
  · rcases List.mem_cons.mp member with rfl | delivery
    · exact paired
    · exact List.mem_singleton.mp delivery ▸ task_mem_nodes found
  · exact List.mem_singleton.mp member ▸ task_mem_nodes found

theorem mem_stopsOf {node : RoutingNode} (member : node ∈ context.stopsOf position) :
    node = .pickup position ∨ node = .task position := by
  rw [stopsOf] at member
  split_ifs at member
  · simpa using member
  · exact .inr (by simpa using member)

theorem nodup_stopsOf : (context.stopsOf position).Nodup := by
  rw [stopsOf]
  split_ifs <;> simp

theorem direct_stopsOf : context.cluster.DirectPairs (context.stopsOf position) := by
  rw [stopsOf]
  split_ifs with paired
  · exact .pair (pickup_mem_nodes.mp paired) .nil
  · exact .plain (fun named => paired (pickup_mem_nodes.mpr named)) .nil

theorem massKg_eq (found : context.clusterOrders[position]? = some order) (material : String) :
    context.cluster.massKg material position =
      if order.loadMaterial = material then loadKg order.loadDemand else 0 := by
  simp [LoadCluster.massKg, cluster, List.getElem?_map, found]

/-- An order counts for its own material only, and only with a load. -/
theorem quantity_eq_zero (found : context.clusterOrders[position]? = some order) {material : String}
    (none : order.loadMaterial = material → ¬ 0 < loadKg order.loadDemand) :
    context.cluster.quantity material position = 0 := by
  have massless : context.cluster.massKg material position = 0 := by
    rw [massKg_eq found]
    split_ifs with same
    · exact le_antisymm (not_lt.mp (none same)) (le_max_left _ _)
    · rfl
  rw [LoadCluster.quantity, massless, zero_mul, Int.floor_zero]

theorem quantity_le (found : context.clusterOrders[position]? = some order) :
    (context.cluster.quantity order.loadMaterial position : ℚ) ≤
      loadKg order.loadDemand * scaleMassUnitsPerKg := by
  rw [LoadCluster.quantity, massKg_eq found, if_pos rfl]
  exact Int.floor_le _

theorem tripUnits_append (cluster : LoadCluster) (material : String)
    (stops rest : List RoutingNode) : cluster.tripUnits material 0 (stops ++ rest) =
      cluster.tripUnits material (cluster.tripUnits material 0 stops) rest :=
  List.foldl_append

/-- The units that count after the stops of an order. -/
theorem tripUnits_stopsOf (material : String) (units : ℤ) :
    context.cluster.tripUnits material units (context.stopsOf position) =
      if .pickup position ∈ context.nodes then units
      else units + context.cluster.quantity material position := by
  rw [stopsOf]
  split_ifs with paired
  · simp [LoadCluster.tripUnits, LoadCluster.unitsAfter, pickup_mem_nodes.mp paired]
  · simp [LoadCluster.tripUnits, LoadCluster.unitsAfter, mt pickup_mem_nodes.mpr paired]

/-- What an order needs of a route that is posted: room for its units beside those that count. -/
theorem posted_stopsOf {prime : LoadVehicle} {material : String} {units : ℤ}
    (bounds : 0 ≤ units ∧ units ≤ capacityUnits prime material) :
    context.cluster.Posted prime material units (context.stopsOf position) ↔
      units + context.cluster.quantity material position ≤ capacityUnits prime material := by
  have counted := context.cluster.quantity_nonneg material position
  rw [stopsOf]
  split_ifs with paired
  · exact (LoadCluster.posted_pair (pickup_mem_nodes.mp paired)).trans (and_iff_left bounds)
  · refine (LoadCluster.posted_plain (mt pickup_mem_nodes.mpr paired)).trans ?_
    exact ⟨fun posted => posted.2.2, fun fits => ⟨bounds, by omega, fits⟩⟩

theorem RouteSound.reloaded (sound : context.RouteSound route) (visit : ℕ) :
    context.RouteSound (route.reloaded (.reload visit)) where
  direct := sound.direct.append (.reload .nil)
  supported earlier member := sound.supported earlier (by simpa [SeedRoute.reloaded] using member)
  covered material := by
    rw [SeedRoute.reloaded, tripUnits_append]
    simp [LoadCluster.tripUnits, LoadCluster.unitsAfter, Dict.getD]

theorem RouteSound.visiting (sound : context.RouteSound route)
    (found : context.clusterOrders[position]? = some order)
    (compatible : context.Compatible route.vehicle order) :
    context.RouteSound (context.visiting route order position) where
  direct := sound.direct.append direct_stopsOf
  supported earlier member other listed := by
    rcases List.mem_append.mp member with before | now
    · exact sound.supported earlier before other listed
    · rcases mem_stopsOf now with same | same <;> cases same
      obtain rfl := Option.some.inj (found.symm.trans listed)
      exact compatible
  covered material := by
    have before := sound.covered material
    have counted := quantity_le found
    simp only [WarmContext.visiting, tripUnits_append, tripUnits_stopsOf]
    by_cases paired : .pickup position ∈ context.nodes
    · simpa [paired] using before
    · rw [if_neg paired, Int.cast_add]
      by_cases loaded : 0 < loadKg order.loadDemand
      · rw [if_pos ⟨paired, loaded⟩, Dict.getD_set]
        split_ifs with same
        · subst same
          rw [add_mul]
          exact add_le_add before counted
        · rw [quantity_eq_zero found fun equal => absurd equal.symm same, Int.cast_zero, add_zero]
          exact before
      · rw [if_neg fun both => loaded both.2, quantity_eq_zero found fun _ => loaded,
          Int.cast_zero, add_zero]
        exact before

variable (context) in
/-- The count of every material stays within the vehicle's compartment along a route. -/
def RoutePosted (route : SeedRoute) : Prop :=
  ∀ material ∈ context.cluster.loadMaterials,
    context.cluster.Posted route.vehicle.load material 0 route.stops

/-- A depot-carried order that needs no reload fits by the units, too. -/
theorem RouteSound.plain_fits (sound : context.RouteSound route)
    (found : context.clusterOrders[position]? = some order)
    (plain : .pickup position ∉ context.nodes) (fits : ¬ context.NeedsReload route order position) :
    context.cluster.tripUnits order.loadMaterial 0 route.stops +
      context.cluster.quantity order.loadMaterial position ≤
        capacityUnits route.vehicle.load order.loadMaterial := by
  have covered := sound.covered order.loadMaterial
  have counted := quantity_le found
  have room : route.loads.getD order.loadMaterial 0 + loadKg order.loadDemand ≤
      route.capacityKg order.loadMaterial := not_lt.mp fun overflow => fits ⟨plain, overflow⟩
  rw [capacityUnits, Int.le_floor, Int.cast_add]
  calc (context.cluster.tripUnits order.loadMaterial 0 route.stops : ℚ) +
        context.cluster.quantity order.loadMaterial position
      ≤ (route.loads.getD order.loadMaterial 0 + loadKg order.loadDemand) *
          scaleMassUnitsPerKg := by rw [add_mul]; exact add_le_add covered counted
    _ ≤ _ := mul_le_mul_of_nonneg_right room (by decide +kernel)

section Posting

variable (sound : context.RouteSound route) (member : route.vehicle.load ∈ context.cluster.vehicles)

include sound member

/-- The count at the end of a posted route is within the compartment. -/
theorem RouteSound.bounds {material : String}
    (posted : context.cluster.Posted route.vehicle.load material 0 route.stops) :
    0 ≤ context.cluster.tripUnits material 0 route.stops ∧
      context.cluster.tripUnits material 0 route.stops ≤
        capacityUnits route.vehicle.load material := by
  rw [← List.append_nil route.stops, sound.direct.posted_append .nil member] at posted
  exact posted.2

theorem RouteSound.posted_reloaded {visit : ℕ} :
    context.RoutePosted (route.reloaded (.reload visit)) ↔ context.RoutePosted route := by
  refine forall₂_congr fun material _ => ?_
  refine (sound.direct.posted_append (.reload .nil) member).trans (and_iff_left_of_imp ?_)
  intro posted
  have bounds := sound.bounds member posted
  refine (LoadCluster.DirectPairs.nil.posted_reload member).mpr ⟨bounds, le_rfl, ?_⟩
  exact bounds.1.trans bounds.2

/-- A route stays within the compartment with one more order exactly if a pair fits. -/
theorem RouteSound.posted_visiting (found : context.clusterOrders[position]? = some order)
    (fits : ¬ context.NeedsReload route order position) :
    context.RoutePosted (context.visiting route order position) ↔
      context.RoutePosted route ∧ context.PairFits route order position := by
  have extended : ∀ material, context.cluster.Posted route.vehicle.load material 0
      (route.stops ++ context.stopsOf position) ↔
        context.cluster.Posted route.vehicle.load material 0 route.stops ∧
          context.cluster.tripUnits material 0 route.stops +
            context.cluster.quantity material position ≤
              capacityUnits route.vehicle.load material := by
    intro material
    refine (sound.direct.posted_append direct_stopsOf member).trans
      (and_congr_right fun posted => ?_)
    exact posted_stopsOf (sound.bounds member posted)
  constructor
  · intro posted
    refine ⟨fun material listed => ((extended material).mp (posted material listed)).1, ?_⟩
    intro _ loaded
    have listed : order.loadMaterial ∈ context.cluster.loadMaterials := by
      rw [LoadCluster.loadMaterials, List.mem_dedup, List.mem_map]
      refine ⟨order.toLoadOrder, List.mem_filter.mpr ⟨?_, decide_eq_true loaded⟩, rfl⟩
      exact List.mem_map_of_mem (List.mem_of_getElem? found)
    exact ((extended _).mp (posted _ listed)).2
  · rintro ⟨posted, pair⟩ material listed
    refine (extended material).mpr ⟨posted material listed, ?_⟩
    by_cases counts : order.loadMaterial = material ∧ 0 < loadKg order.loadDemand
    · obtain ⟨rfl, loaded⟩ := counts
      by_cases paired : context.cluster.Paired position
      · exact pair paired loaded
      · exact sound.plain_fits found (mt pickup_mem_nodes.mp paired) fits
    · rw [quantity_eq_zero found fun same loaded => counts ⟨same, loaded⟩, add_zero]
      exact (sound.bounds member (posted material listed)).2

end Posting

/-- All stops of the routes so far. -/
def stopsSoFar (state : SeedState) : List RoutingNode := state.routes.flatMap (·.stops)

variable (context) in
/-- What holds when the orders before a position have been considered. -/
structure Sound (considered : ℕ) (state : SeedState) : Prop where
  vehicles : state.routes.map (·.vehicle) = context.routingVehicles
  routes : ∀ route ∈ state.routes, context.RouteSound route
  visitedOnce : (stopsSoFar state).Nodup
  listed : stopsSoFar state ⊆ context.nodes
  earlier : ∀ position, .task position ∈ stopsSoFar state ∨ .pickup position ∈ stopsSoFar state →
    position < considered
  reloads : ∀ visit, .reload visit ∈ stopsSoFar state → .reload visit ∈ state.usedReloadNodes
  served : ∀ position, .task position ∈ stopsSoFar state →
    ∀ order ∈ context.clusterOrders[position]?, order.alternativeGroupRef ≠ "" →
      order.alternativeGroupRef ∈ state.servedAlternativeGroups
  oneAlternative : ∀ first second,
    .task first ∈ stopsSoFar state → .task second ∈ stopsSoFar state →
    ∀ one ∈ context.clusterOrders[first]?, ∀ other ∈ context.clusterOrders[second]?,
      one.alternativeGroupRef ≠ "" → one.alternativeGroupRef = other.alternativeGroupRef →
        first = second

section Steps

variable {state : SeedState} {considered : ℕ} {chosen : SeedRoute × ℕ}

theorem Sound.member (sound : context.Sound considered state) {route : SeedRoute}
    (listed : route ∈ state.routes) : route.vehicle.load ∈ context.cluster.vehicles := by
  rw [cluster, ← sound.vehicles, List.map_map]
  exact List.mem_map_of_mem listed

theorem Sound.skip (sound : context.Sound considered state) :
    context.Sound (considered + 1) state :=
  { sound with earlier := fun position visited =>
      Nat.lt_succ_of_lt (sound.earlier position visited) }

/-- A reload visit goes to the end of its route. -/
theorem perm_reload (found : state.routes[chosen.2]? = some chosen.1) (node : RoutingNode) :
    (stopsSoFar (reload state chosen node)).Perm (stopsSoFar state ++ [node]) :=
  perm_flatMap_set found rfl

theorem perm_place (found : state.routes[chosen.2]? = some chosen.1) (order : WarmOrder)
    (position : ℕ) : (stopsSoFar (context.place state chosen order position)).Perm
      (stopsSoFar state ++ context.stopsOf position) :=
  perm_flatMap_set found rfl

/-- An unused reload visit can be made. -/
theorem Sound.reload (sound : context.Sound considered state)
    (found : state.routes[chosen.2]? = some chosen.1) {visit : ℕ}
    (offered : .reload visit ∈ context.nodes) (unused : .reload visit ∉ state.usedReloadNodes) :
    context.Sound considered (reload state chosen (.reload visit)) := by
  have perm := perm_reload found (.reload visit)
  have kept : ∀ node, node ≠ .reload visit →
      (node ∈ stopsSoFar (WarmContext.reload state chosen (.reload visit)) ↔
        node ∈ stopsSoFar state) := by
    intro node other
    rw [perm.mem_iff, List.mem_append, List.mem_singleton, or_iff_left other]
  have task := fun position => kept (.task position) (by simp)
  have pickup := fun position => kept (.pickup position) (by simp)
  refine ⟨?_, ?_, ?_, ?_, ?_, ?_, ?_, ?_⟩
  · have vehicle : (chosen.1.reloaded (.reload visit)).vehicle = chosen.1.vehicle := rfl
    exact (map_set_of_eq found vehicle).trans sound.vehicles
  · intro route member
    rcases List.mem_or_eq_of_mem_set member with old | rfl
    · exact sound.routes route old
    · exact (sound.routes _ (List.mem_of_getElem? found)).reloaded visit
  · rw [perm.nodup_iff, List.nodup_append_comm]
    exact List.nodup_cons.mpr ⟨fun visited => unused (sound.reloads visit visited),
      sound.visitedOnce⟩
  · intro node member
    rcases List.mem_append.mp (perm.mem_iff.mp member) with old | new
    · exact sound.listed old
    · exact List.mem_singleton.mp new ▸ offered
  · intro position visited
    rw [task, pickup] at visited
    exact sound.earlier position visited
  · intro other member
    rcases List.mem_append.mp (perm.mem_iff.mp member) with old | new
    · exact List.mem_cons_of_mem _ (sound.reloads other old)
    · exact List.mem_singleton.mp new ▸ List.mem_cons_self
  · intro position member
    exact sound.served position ((task position).mp member)
  · intro first second one other
    exact sound.oneAlternative first second ((task first).mp one) ((task second).mp other)

theorem mem_place (found : state.routes[chosen.2]? = some chosen.1) {node : RoutingNode}
    (member : node ∈ stopsSoFar (context.place state chosen order position)) :
    node ∈ stopsSoFar state ∨ node = .pickup position ∨ node = .task position :=
  (List.mem_append.mp ((perm_place found order position).mem_iff.mp member)).imp_right mem_stopsOf

theorem task_mem_place (found : state.routes[chosen.2]? = some chosen.1) {other : ℕ}
    (member : .task other ∈ stopsSoFar (context.place state chosen order position)) :
    .task other ∈ stopsSoFar state ∨ other = position := by
  simpa using mem_place found member

/-- The stops of an order are not made before its turn. -/
theorem Sound.notMem_stopsOf (sound : context.Sound position state) {node : RoutingNode}
    (old : node ∈ stopsSoFar state) : node ∉ context.stopsOf position := by
  intro own
  rcases mem_stopsOf own with rfl | rfl
  · exact lt_irrefl _ (sound.earlier position (.inr old))
  · exact lt_irrefl _ (sound.earlier position (.inl old))

theorem Sound.earlier_place (sound : context.Sound position state)
    (found : state.routes[chosen.2]? = some chosen.1) (other : ℕ)
    (visited : .task other ∈ stopsSoFar (context.place state chosen order position) ∨
      .pickup other ∈ stopsSoFar (context.place state chosen order position)) :
    other < position + 1 := by
  rcases visited with delivered | picked
  · rcases task_mem_place found delivered with old | rfl
    · exact Nat.lt_succ_of_lt (sound.earlier other (.inl old))
    · exact Nat.lt_succ_self _
  · rcases mem_place found picked with old | same | same
    · exact Nat.lt_succ_of_lt (sound.earlier other (.inr old))
    · cases same
      exact Nat.lt_succ_self _
    · cases same

theorem Sound.served_place (sound : context.Sound position state)
    (found : state.routes[chosen.2]? = some chosen.1)
    (listed : context.clusterOrders[position]? = some order) (other : ℕ)
    (member : .task other ∈ stopsSoFar (context.place state chosen order position)) :
    ∀ earlier ∈ context.clusterOrders[other]?, earlier.alternativeGroupRef ≠ "" →
      earlier.alternativeGroupRef ∈
        (context.place state chosen order position).servedAlternativeGroups := by
  intro earlier row named
  rw [WarmContext.place]
  rcases task_mem_place found member with old | rfl
  · have known := sound.served other old earlier row named
    split_ifs
    · exact known
    · exact List.mem_cons_of_mem _ known
  · obtain rfl := Option.some.inj (listed.symm.trans row)
    rw [if_neg named]
    exact List.mem_cons_self

/-- A group without a member on the routes gets its only one. -/
theorem Sound.oneAlternative_place (sound : context.Sound position state)
    (found : state.routes[chosen.2]? = some chosen.1)
    (listed : context.clusterOrders[position]? = some order)
    (unserved : order.alternativeGroupRef ≠ "" →
      order.alternativeGroupRef ∉ state.servedAlternativeGroups)
    (first second : ℕ)
    (one : .task first ∈ stopsSoFar (context.place state chosen order position))
    (other : .task second ∈ stopsSoFar (context.place state chosen order position)) :
    ∀ oneRow ∈ context.clusterOrders[first]?, ∀ otherRow ∈ context.clusterOrders[second]?,
      oneRow.alternativeGroupRef ≠ "" →
        oneRow.alternativeGroupRef = otherRow.alternativeGroupRef → first = second := by
  intro oneRow oneListed otherRow otherListed named same
  have apart : ∀ earlier, .task earlier ∈ stopsSoFar state →
      ∀ row ∈ context.clusterOrders[earlier]?, row.alternativeGroupRef ≠ "" →
        row.alternativeGroupRef ≠ order.alternativeGroupRef := by
    intro earlier old row rowListed rowNamed equal
    exact unserved (equal ▸ rowNamed) (equal ▸ sound.served earlier old row rowListed rowNamed)
  rcases task_mem_place found one with old | rfl <;>
    rcases task_mem_place found other with recent | rfl
  · exact sound.oneAlternative first second old recent oneRow oneListed otherRow otherListed named
      same
  · obtain rfl := Option.some.inj (listed.symm.trans otherListed)
    exact absurd same (apart first old oneRow oneListed named)
  · obtain rfl := Option.some.inj (listed.symm.trans oneListed)
    exact absurd same.symm (apart second recent otherRow otherListed (same ▸ named))
  · rfl

/-- An order whose group is not served can be placed on a compatible route. -/
theorem Sound.place (sound : context.Sound position state)
    (found : state.routes[chosen.2]? = some chosen.1)
    (listed : context.clusterOrders[position]? = some order)
    (compatible : context.Compatible chosen.1.vehicle order)
    (unserved : order.alternativeGroupRef ≠ "" →
      order.alternativeGroupRef ∉ state.servedAlternativeGroups) :
    context.Sound (position + 1) (context.place state chosen order position) where
  vehicles := by
    have vehicle : (context.visiting chosen.1 order position).vehicle = chosen.1.vehicle := rfl
    exact (map_set_of_eq found vehicle).trans sound.vehicles
  routes route member := by
    rcases List.mem_or_eq_of_mem_set member with old | rfl
    · exact sound.routes route old
    · exact (sound.routes _ (List.mem_of_getElem? found)).visiting listed compatible
  visitedOnce := by
    rw [(perm_place found order position).nodup_iff]
    exact sound.visitedOnce.append nodup_stopsOf fun node old own => sound.notMem_stopsOf old own
  listed node member := by
    rcases List.mem_append.mp ((perm_place found order position).mem_iff.mp member) with old | own
    · exact sound.listed old
    · exact stopsOf_subset listed own
  earlier := sound.earlier_place found
  reloads visit member := sound.reloads visit (by simpa using mem_place found member)
  served := sound.served_place found listed
  oneAlternative := sound.oneAlternative_place found listed unserved

/-- A reload visit fits on every route. -/
theorem Sound.posted_reload (sound : context.Sound considered state)
    (found : state.routes[chosen.2]? = some chosen.1) (visit : ℕ) :
    (∀ route ∈ (WarmContext.reload state chosen (.reload visit)).routes,
      context.RoutePosted route) ↔ ∀ route ∈ state.routes, context.RoutePosted route := by
  have listed := List.mem_of_getElem? found
  have kept : context.RoutePosted (chosen.1.reloaded (.reload visit)) ↔
      context.RoutePosted chosen.1 ∧ True :=
    ((sound.routes _ listed).posted_reloaded (sound.member listed)).trans
      (and_iff_left trivial).symm
  exact (forall_mem_set_iff found kept).trans (and_iff_left trivial)

theorem Sound.posted_place (sound : context.Sound considered state)
    (found : state.routes[chosen.2]? = some chosen.1)
    (listed : context.clusterOrders[position]? = some order)
    (fits : ¬ context.NeedsReload chosen.1 order position) :
    (∀ route ∈ (context.place state chosen order position).routes, context.RoutePosted route) ↔
      (∀ route ∈ state.routes, context.RoutePosted route) ∧
        context.PairFits chosen.1 order position := by
  have member := List.mem_of_getElem? found
  exact forall_mem_set_iff found
    ((sound.routes _ member).posted_visiting (sound.member member) listed fits)

section Choice

variable {greedyAssignment : Dict String (ℤ × ℤ)} {vehicleIndex : Dict String ℤ}

/-- The chosen route is compatible and could hold the order, whose group is not served. -/
theorem chosenRoute_spec (selected :
    context.chosenRoute greedyAssignment vehicleIndex state order position = some chosen) :
    state.routes[chosen.2]? = some chosen.1 ∧ context.Compatible chosen.1.vehicle order ∧
      loadKg order.loadDemand ≤ chosen.1.capacityKg order.loadMaterial ∧
      (order.alternativeGroupRef ≠ "" →
        order.alternativeGroupRef ∉ state.servedAlternativeGroups) := by
  rw [chosenRoute] at selected
  split_ifs at selected with served
  have candidate := List.argmin_mem (Option.mem_def.mpr selected)
  obtain ⟨compatible, holds⟩ := List.mem_filter.mp candidate
  obtain ⟨entry, admits⟩ := List.mem_filter.mp compatible
  exact ⟨List.mem_zipIdx_iff_getElem?.mp entry, of_decide_eq_true admits, of_decide_eq_true holds,
    fun named old => served ⟨named, old⟩⟩

/-- What one order does: nothing, if it is not paired or no route is chosen; else it is placed on
the chosen route, perhaps after a reload visit. -/
theorem placeOrder_cases (state : SeedState) (order : WarmOrder) (position : ℕ) :
    (context.placeOrder greedyAssignment vehicleIndex state (order, position) = state ∧
      ∀ chosen ∈ context.chosenRoute greedyAssignment vehicleIndex state order position,
        .pickup position ∉ context.nodes) ∨
    ∃ chosen, context.chosenRoute greedyAssignment vehicleIndex state order position = some chosen ∧
      ((¬ context.NeedsReload chosen.1 order position ∧
          context.placeOrder greedyAssignment vehicleIndex state (order, position) =
            context.place state chosen order position) ∨
        (.pickup position ∉ context.nodes ∧ ∃ visit, .reload visit ∈ context.nodes ∧
          .reload visit ∉ state.usedReloadNodes ∧
          context.placeOrder greedyAssignment vehicleIndex state (order, position) =
            context.place (WarmContext.reload state chosen (.reload visit))
              (chosen.1.reloaded (.reload visit), chosen.2) order position)) := by
  rw [placeOrder]
  cases selected : context.chosenRoute greedyAssignment vehicleIndex state order position with
  | none => exact .inl ⟨rfl, fun chosen found => nomatch found⟩
  | some chosen =>
    dsimp only
    split_ifs with needs
    · cases offered : context.reloadNodes.find? fun node => node ∉ state.usedReloadNodes with
      | none => exact .inl ⟨rfl, fun _ _ => needs.1⟩
      | some node =>
        have unused : node ∉ state.usedReloadNodes := by simpa using List.find?_some offered
        obtain ⟨listed, kind⟩ := List.mem_filter.mp (List.mem_of_find?_eq_some offered)
        cases node with
        | reload visit => exact .inr ⟨chosen, rfl, .inr ⟨needs.1, visit, listed, unused, rfl⟩⟩
        | depot => cases kind
        | pickup other => cases kind
        | task other => cases kind
    · exact .inr ⟨chosen, rfl, .inl ⟨needs, rfl⟩⟩

/-- An order keeps the invariant, and the capacities exactly if it fits as a pair. -/
theorem Sound.placeOrder (sound : context.Sound position state)
    (listed : context.clusterOrders[position]? = some order) :
    context.Sound (position + 1)
        (context.placeOrder greedyAssignment vehicleIndex state (order, position)) ∧
      ((∀ route ∈ (context.placeOrder greedyAssignment vehicleIndex state (order, position)).routes,
          context.RoutePosted route) ↔
        (∀ route ∈ state.routes, context.RoutePosted route) ∧
          ∀ chosen ∈ context.chosenRoute greedyAssignment vehicleIndex state order position,
            context.PairFits chosen.1 order position) := by
  rcases placeOrder_cases state order position with
    ⟨same, plain⟩ | ⟨chosen, selected, ⟨fits, same⟩ | ⟨plain, visit, offered, unused, same⟩⟩
  · rw [same]
    refine ⟨sound.skip, (and_iff_left fun chosen selected paired => ?_).symm⟩
    exact absurd (pickup_mem_nodes.mpr paired) (plain chosen selected)
  · obtain ⟨found, compatible, -, unserved⟩ := chosenRoute_spec selected
    rw [same, selected]
    simp only [Option.mem_def, Option.some.injEq, forall_eq']
    exact ⟨sound.place found listed compatible unserved, sound.posted_place found listed fits⟩
  · obtain ⟨found, compatible, holds, unserved⟩ := chosenRoute_spec selected
    have after := sound.reload found offered unused
    have within : chosen.2 < state.routes.length := (List.getElem?_eq_some_iff.mp found).1
    have here : (WarmContext.reload state chosen (.reload visit)).routes[chosen.2]? =
        some (chosen.1.reloaded (.reload visit)) := List.getElem?_set_self within
    -- An empty compartment holds the order without another reload.
    have fits : ¬ context.NeedsReload (chosen.1.reloaded (.reload visit)) order position := by
      rintro ⟨-, overflow⟩
      have empty : (chosen.1.reloaded (.reload visit)).loads.getD order.loadMaterial 0 = 0 := rfl
      rw [empty, zero_add] at overflow
      exact absurd holds (not_le.mpr overflow)
    have unpaired : ∀ route, context.PairFits route order position := fun route paired =>
      absurd (pickup_mem_nodes.mpr paired) plain
    rw [same, selected]
    simp only [Option.mem_def, Option.some.injEq, forall_eq']
    refine ⟨after.place here listed compatible unserved, ?_⟩
    rw [after.posted_place here listed fits, sound.posted_reload found]
    simp only [unpaired]

end Choice

end Steps

section Run

variable (context) (greedyAssignment : Dict String (ℤ × ℤ)) (vehicleIndex : Dict String ℤ)

theorem stateBefore_zero : context.stateBefore greedyAssignment vehicleIndex 0 =
    { routes := context.routingVehicles.map fun vehicle => { vehicle } } := by
  rw [stateBefore, List.take_zero, List.foldl_nil]

variable {context} in
theorem stateBefore_succ (listed : context.clusterOrders[position]? = some order) :
    context.stateBefore greedyAssignment vehicleIndex (position + 1) =
      context.placeOrder greedyAssignment vehicleIndex
        (context.stateBefore greedyAssignment vehicleIndex position) (order, position) := by
  have entry : context.clusterOrders.zipIdx[position]? = some (order, position) := by
    simp [List.getElem?_zipIdx, listed]
  rw [stateBefore, List.take_add_one, entry, Option.toList_some, List.foldl_append]
  rfl

/-- At each of the first steps a paired order that is placed fits beside the depot-carried units
that count on the chosen route. -/
def PairsFit (considered : ℕ) : Prop :=
  ∀ position < considered, ∀ order ∈ context.clusterOrders[position]?,
    ∀ chosen ∈ context.chosenRoute greedyAssignment vehicleIndex
      (context.stateBefore greedyAssignment vehicleIndex position) order position,
      context.PairFits chosen.1 order position

/-- Empty routes are within every compartment. -/
theorem sound_start : context.Sound 0 (context.stateBefore greedyAssignment vehicleIndex 0) ∧
    ∀ route ∈ (context.stateBefore greedyAssignment vehicleIndex 0).routes,
      context.RoutePosted route := by
  have empty : ∀ route ∈ (context.stateBefore greedyAssignment vehicleIndex 0).routes,
      route.stops = [] ∧ route.loads = .empty := by
    rw [stateBefore_zero]
    simp
  have none : stopsSoFar (context.stateBefore greedyAssignment vehicleIndex 0) = [] :=
    List.flatMap_eq_nil_iff.mpr fun route member => (empty route member).1
  constructor
  · refine ⟨?_, fun route member => ⟨?_, ?_, ?_⟩, ?_, ?_, ?_, ?_, ?_, ?_⟩
    · rw [stateBefore_zero, List.map_map]
      exact List.map_id _
    · exact (empty route member).1 ▸ .nil
    · rw [(empty route member).1]
      simp
    · rw [(empty route member).1, (empty route member).2]
      simp [LoadCluster.tripUnits, Dict.getD]
    all_goals simp [none]
  · intro route member material _
    rw [(empty route member).1]
    refine ⟨le_rfl, Int.floor_nonneg.mpr ?_⟩
    exact mul_nonneg (LoadCluster.compartmentCapacityKg_nonneg _ _) (by decide +kernel)

/-- In every run the invariant holds, and the capacities exactly if all pairs fitted. -/
theorem sound_stateBefore (considered : ℕ) (within : considered ≤ context.clusterOrders.length) :
    context.Sound considered (context.stateBefore greedyAssignment vehicleIndex considered) ∧
      ((∀ route ∈ (context.stateBefore greedyAssignment vehicleIndex considered).routes,
          context.RoutePosted route) ↔
        context.PairsFit greedyAssignment vehicleIndex considered) := by
  induction considered with
  | zero =>
    obtain ⟨sound, posted⟩ := sound_start context greedyAssignment vehicleIndex
    exact ⟨sound, iff_of_true posted fun position early => absurd early (Nat.not_lt_zero _)⟩
  | succ considered ih =>
    obtain ⟨sound, posted⟩ := ih (Nat.le_of_succ_le within)
    have listed := List.getElem?_eq_getElem (Nat.lt_of_succ_le within)
    obtain ⟨after, step⟩ := sound.placeOrder listed
    rw [stateBefore_succ greedyAssignment vehicleIndex listed]
    refine ⟨after, step.trans ?_⟩
    rw [posted, PairsFit, PairsFit]
    simp only [Nat.forall_lt_succ_right, listed, Option.mem_def, Option.some.injEq, forall_eq']

end Run

/-- Routes under construction are feasible once their counts stay within the compartments. -/
theorem Sound.feasible_iff {state : SeedState} {considered : ℕ}
    (sound : context.Sound considered state) :
    context.Feasible (state.routes.map (·.stops)) ↔
      ∀ route ∈ state.routes, context.RoutePosted route := by
  have flat : (state.routes.map (·.stops)).flatten = stopsSoFar state := List.flatMap_def.symm
  have each : ∀ holds : WarmVehicle → List RoutingNode → Prop,
      List.Forall₂ holds context.routingVehicles (state.routes.map (·.stops)) ↔
        ∀ route ∈ state.routes, holds route.vehicle route.stops := by
    intro holds
    rw [← sound.vehicles, List.forall₂_map_left_iff, List.forall₂_map_right_iff,
      List.forall₂_same]
  constructor
  · intro feasible
    exact (each _).mp feasible.withinCapacity
  · intro posted
    refine ⟨?_, ?_, ?_, ?_, ?_, (each _).mpr posted⟩
    · exact flat ▸ sound.listed
    · exact flat ▸ sound.visitedOnce
    · rw [flat]
      exact sound.oneAlternative
    · exact (each _).mpr fun route member => (sound.routes route member).supported
    · intro stops member position visited
      obtain ⟨route, listed, rfl⟩ := List.mem_map.mp member
      exact (sound.routes route listed).direct.pickup_before visited

/-- The warm-start routes are feasible exactly if every paired order that is placed fits beside the
depot-carried units that count on its route. -/
theorem warm_start_feasible_iff (context : WarmContext) (greedyAssignment : Dict String (ℤ × ℤ))
    (vehicleIndex : Dict String ℤ) :
    context.Feasible (context.buildCapacityAwareInitialRoutes greedyAssignment vehicleIndex) ↔
      context.PairsFit greedyAssignment vehicleIndex context.clusterOrders.length := by
  obtain ⟨sound, posted⟩ := sound_stateBefore context greedyAssignment vehicleIndex _ le_rfl
  exact sound.feasible_iff.trans posted

end WarmContext

/-- Eighty of a hundred kilograms are carried from the depot when fifty more are picked up. -/
def mixedContext : WarmContext where
  clusterOrders := [
    { taskId := "field", loadDemand := 80, loadMaterial := "seed" },
    { taskId := "hub", loadDemand := 50, loadMaterial := "seed", pickupLocationRef := "mill" }]
  routingVehicles := [
    { prime := { assetId := "truck" }, related := { assetId := "trailer" },
      load := { loadCapacity := 100 } }]
  nReloadNodes := 1
  upper := id

theorem pair_overflows :
    ¬ ∀ (context : WarmContext) (greedyAssignment : Dict String (ℤ × ℤ))
      (vehicleIndex : Dict String ℤ),
      context.Feasible (context.buildCapacityAwareInitialRoutes greedyAssignment vehicleIndex) := by
  intro always
  have feasible := always mixedContext .empty .empty
  have routes : mixedContext.buildCapacityAwareInitialRoutes .empty .empty =
      [[.task 0, .pickup 1, .task 1]] := by decide +kernel
  rw [routes] at feasible
  obtain ⟨posted, -⟩ := List.forall₂_cons.mp feasible.withinCapacity
  obtain ⟨-, _, rfl, -, _, rfl, overflow⟩ := posted "seed" (by decide +kernel)
  exact absurd overflow.bounds (by decide +kernel)

end FlOp.Solver
