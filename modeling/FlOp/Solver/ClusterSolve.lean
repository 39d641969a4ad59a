import FlOp.Solver.ClusterPool
import FlOp.Solver.OperatorQualification
import FlOp.Solver.RoutingModel
import FlOp.Solver.TaskLedger
import FlOp.Solver.TimedRestrictions

/-! # Solving one cluster

A worker looks up the orders, the depot and the allocated bundles of its cluster, sets aside the
orders that no bundle can serve, and routes the others. The stops of the routes become dispatch
packages. An order without alternatives that is on no route gets a record of its own; of
alternatives none of which is on a route, one record names the group.
-/

namespace FlOp.Solver

open Canonical FlOp.Core Library

/-- A vehicle or an implement with its normalized operations; none listed means any. -/
structure AssetRow where
  assetId : String
  compatibleOperations : List String := []
deriving DecidableEq, Repr

/-- An allocated vehicle with its implement. -/
structure RoutingVehicle where
  prime : AssetRow
  related : AssetRow
deriving DecidableEq, Repr

/-- Both members of the bundle admit the operation. -/
def RoutingVehicle.SupportsOperation (bundle : RoutingVehicle) (operation : String) : Prop :=
  (bundle.prime.compatibleOperations = [] ∨ operation ∈ bundle.prime.compatibleOperations) ∧
    (bundle.related.compatibleOperations = [] ∨ operation ∈ bundle.related.compatibleOperations)

instance (bundle : RoutingVehicle) (operation : String) :
    Decidable (bundle.SupportsOperation operation) :=
  inferInstanceAs (Decidable (_ ∧ _))

/-- The rows a worker is given. How long an operation takes is arithmetic on its rows, and how
many reload visits are offered depends on the loads. -/
structure SolveInputs where
  orders : List OrderRow
  vehicles : List AssetRow
  implements : List AssetRow
  depots : List DepotRow
  nowEpoch : ℤ
  upper : String → String
  operationSeconds : OrderRow → AssetRow → ℕ
  nReloadNodes : ClusterSpec → ℕ

/-- What a cluster is routed with, and the orders set aside before. -/
structure ClusterContext where
  orders : List OrderRow
  vehicles : List RoutingVehicle
  setAside : List OrderRow
deriving DecidableEq, Repr

/-- A solution of the routing model, with what its packages carry besides. -/
structure RoutesFound where
  routes : RoutingSolution
  dispatchId : Visit → String
  marginEur : Visit → ℚ

/-- The outcome of a search: a solution, or none within the time limit. -/
structure RoutingAnswer where
  found : Option RoutesFound
  hitTimeLimit : Bool := false
  timeLimitS : ℤ := 60

namespace SolveInputs

variable (inputs : SolveInputs)

def orderMap : Dict String OrderRow := Dict.collect (·.taskId) id inputs.orders

/-- The allocated vehicles, each with the first of its implements. -/
def routingVehicles (allocated : Dict String (List String)) : List RoutingVehicle :=
  let vehicleMap := Dict.collect AssetRow.assetId id inputs.vehicles
  let implementMap := Dict.collect AssetRow.assetId id inputs.implements
  allocated.entries.filterMap fun entry => do
    let prime ← vehicleMap.get? entry.1
    let related ← implementMap.get? (← entry.2.head?)
    return ⟨prime, related⟩

/-- Some bundle admits the operation of the order. -/
def Supported (vehicles : List RoutingVehicle) (order : OrderRow) : Prop :=
  ∃ bundle ∈ vehicles, bundle.SupportsOperation (inputs.upper order.operationType)

instance (vehicles : List RoutingVehicle) (order : OrderRow) :
    Decidable (inputs.Supported vehicles order) :=
  inferInstanceAs (Decidable (∃ bundle ∈ vehicles, _))

def unsupportedRecord (cluster : ClusterSpec) (order : OrderRow) : InfeasibleRecord where
  taskId := order.taskId
  clusterId := cluster.clusterId
  reasonCode := .noCompatibleBundle
  detail := "allocated bundle cannot serve operation " ++ inputs.upper order.operationType ++
    " for task " ++ order.taskId

/-- Prepare a cluster for routing, or record its tasks at once. -/
def prepareClusterContext (cluster : ClusterSpec) : Except (List InfeasibleRecord) ClusterContext :=
  let orders := cluster.taskIds.filterMap inputs.orderMap.get?
  let vehicles := inputs.routingVehicles cluster.allocatedPrimeRelated
  let compatible := orders.filter fun order => inputs.Supported vehicles order
  let setAside := orders.filter fun order => ¬ inputs.Supported vehicles order
  if cluster.taskIds = [] then .error []
  else if orders = [] then
    .error (failureRecords cluster .unknown "orders not found in dataset")
  else if cluster.depotRef ∉ inputs.depots.map (·.locationId) then
    .error (failureRecords cluster .locationDataInvalid
      ("depot " ++ cluster.depotRef ++ " not found"))
  else if vehicles = [] then
    .error (failureRecords cluster .noCompatibleBundle
      "allocation pre-pass found no feasible pairs")
  else if compatible = [] then .error (setAside.map (inputs.unsupportedRecord cluster))
  else .ok ⟨compatible, vehicles, setAside⟩

/-- The routing graph of a cluster. -/
def nodes (cluster : ClusterSpec) (context : ClusterContext) : List RoutingNode :=
  buildNodeTable (context.orders.map (·.pickupLocationRef)) (inputs.nReloadNodes cluster)

end SolveInputs

/-- The order served at a visit, if it is one of a task node. -/
def visitedOrder (nodes : List RoutingNode) (orders : List OrderRow) (visit : Visit) :
    Option OrderRow :=
  match nodes[visit.node]? with
  | some (.task order) => orders[order]?
  | _ => none

namespace SolveInputs

variable (inputs : SolveInputs)

/-- The package of one served order; its task may have an operator of its own. -/
def dispatchPackage (cluster : ClusterSpec) (found : RoutesFound) (bundle : RoutingVehicle)
    (visit : Visit) (order : OrderRow) : DispatchPackage :=
  let start : Instant := inputs.nowEpoch + (visit.cumul : ℤ)
  { dispatchId := found.dispatchId visit
    taskId := order.taskId
    clusterId := cluster.clusterId
    primeAssetId := bundle.prime.assetId
    relatedAssetId := bundle.related.assetId
    operatorAssetId := cluster.servingOperator order.taskId
    scheduledStart := start
    scheduledEnd := start + inputs.operationSeconds order bundle.related
    estimatedMarginEur := found.marginEur visit }

/-- One package for each task node on a route. -/
def extractDispatchPackages (cluster : ClusterSpec) (context : ClusterContext)
    (found : RoutesFound) : List DispatchPackage :=
  (context.vehicles.zip found.routes).flatMap fun route => route.2.filterMap fun visit =>
    (visitedOrder (inputs.nodes cluster context) context.orders visit).map
      (inputs.dispatchPackage cluster found route.1 visit)

end SolveInputs

def unservedRecord (clusterId taskId : String) : InfeasibleRecord where
  taskId := taskId
  clusterId := clusterId
  reasonCode := .optimizationTradeoff
  detail := "OR-Tools routing did not assign this order to any vehicle"

def unservedGroupRecord (clusterId : String) (group : String × List String) : InfeasibleRecord where
  taskId := group.1
  clusterId := clusterId
  reasonCode := .optimizationTradeoff
  detail := "OR-Tools routing did not assign any alternative for " ++ group.1 ++ ": " ++
    ", ".intercalate group.2

/-- Records for the orders on no route; alternatives share one record. -/
def unservedOrders (clusterId : String) (orders : List OrderRow) (served : List String) :
    List InfeasibleRecord :=
  let groupMembers := Dict.groupBy (·.alternativeGroupRef) (·.taskId)
    (orders.filter fun order => order.alternativeGroupRef ≠ "")
  ((orders.filter fun order => order.alternativeGroupRef = "" ∧ order.taskId ∉ served).map
      fun order => unservedRecord clusterId order.taskId) ++
    ((sortBy Prod.fst groupMembers.entries).filter fun group => ∀ id ∈ group.2, id ∉ served).map
      (unservedGroupRecord clusterId)

namespace SolveInputs

variable (inputs : SolveInputs)

/-- Route a prepared cluster. Without a solution every task of the cluster is recorded, those set
aside among them. -/
def routeContext (cluster : ClusterSpec) (context : ClusterContext) (answer : RoutingAnswer) :
    ClusterResult :=
  match answer.found with
  | none =>
    let detail := "OR-Tools found no feasible solution within time limit"
    { infeasible := failureRecords cluster .optimizationTradeoff detail
      telemetry := [{ clusterId := cluster.clusterId, status := .noSolution
                      nTasks := context.orders.length, hitTimeLimit := answer.hitTimeLimit
                      timeLimitS := some answer.timeLimitS, detail := detail }] }
  | some found =>
    let dispatch := inputs.extractDispatchPackages cluster context found
    { dispatch := dispatch
      infeasible := unservedOrders cluster.clusterId context.orders (dispatch.map (·.taskId))
      telemetry := [{ clusterId := cluster.clusterId, status := .solved
                      nTasks := context.orders.length, hitTimeLimit := answer.hitTimeLimit
                      timeLimitS := some answer.timeLimitS }] }

/-- Prepare and solve one cluster. -/
def solveClusterInner (cluster : ClusterSpec) (answer : RoutingAnswer) : ClusterResult :=
  match inputs.prepareClusterContext cluster with
  | .error records =>
    { infeasible := records
      telemetry := [{ clusterId := cluster.clusterId
                      status := if records = [] then .empty else .inputError
                      nTasks := cluster.taskIds.length
                      detail := (records.head?.map (·.detail)).getD "no tasks" }] }
  | .ok context =>
    let routed := inputs.routeContext cluster context answer
    { routed with
      infeasible := context.setAside.map (inputs.unsupportedRecord cluster) ++ routed.infeasible }

/-- Solve one cluster; an exception is caught and recorded for all of its tasks. -/
def solveClusterInstrumented (cluster : ClusterSpec) : Except String RoutingAnswer → ClusterResult
  | .error detail =>
    { infeasible := failureRecords cluster .unknown ("unhandled exception: " ++ detail)
      telemetry := [{ clusterId := cluster.clusterId, status := .workerError
                      nTasks := cluster.taskIds.length, detail := detail }] }
  | .ok answer => inputs.solveClusterInner cluster answer

end SolveInputs

/-- What the posted model asks of the routes: each node but the depot is visited at most once, and
at most one of a group of alternatives is. -/
structure PostedRoutes (nodes : List RoutingNode) (orders : List OrderRow)
    (routes : RoutingSolution) : Prop where
  once : ((routes.flatten.map (·.node)).filter fun node => node ≠ 0).Nodup
  oneAlternative : ∀ first ∈ routes.flatten.filterMap (visitedOrder nodes orders),
    ∀ second ∈ routes.flatten.filterMap (visitedOrder nodes orders),
      first.alternativeGroupRef ≠ "" → first.alternativeGroupRef = second.alternativeGroupRef →
        first = second

section Routes

variable {nodes : List RoutingNode} {orders : List OrderRow} {routes : RoutingSolution}

theorem visitedOrder_eq_some {visit : Visit} {order : OrderRow}
    (visited : visitedOrder nodes orders visit = some order) :
    ∃ index, nodes[visit.node]? = some (.task index) ∧ orders[index]? = some order := by
  unfold visitedOrder at visited
  split at visited
  · next index found => exact ⟨index, found, visited⟩
  · cases visited

/-- No order is visited twice. -/
theorem nodup_visited (posted : PostedRoutes nodes orders routes) (table : nodes.Nodup)
    (depot : nodes.head? = some .depot) (unique : (orders.map (·.taskId)).Nodup) :
    ((routes.flatten.filterMap (visitedOrder nodes orders)).map (·.taskId)).Nodup := by
  have tasks : routes.flatten.filterMap (visitedOrder nodes orders) =
      (routes.flatten.filter fun visit => visit.node ≠ 0).filterMap
        (visitedOrder nodes orders) := by
    rw [List.filterMap_filter]
    apply List.filterMap_congr
    intro visit _
    split
    · rfl
    · next start =>
      have zero : visit.node = 0 := by simpa using start
      rw [visitedOrder, zero, ← List.head?_eq_getElem?, depot]
  have once : ((routes.flatten.filter fun visit => visit.node ≠ 0).map (·.node)).Nodup := by
    have posted := posted.once
    rwa [List.filter_map] at posted
  rw [tasks, List.map_filterMap]
  refine List.Pairwise.filterMap _ ?_ (List.pairwise_map.mp once)
  intro first second differ id firstId other secondId
  obtain ⟨order, visited, rfl⟩ := Option.map_eq_some_iff.mp firstId
  obtain ⟨order', visited', rfl⟩ := Option.map_eq_some_iff.mp secondId
  obtain ⟨index, node, found⟩ := visitedOrder_eq_some visited
  obtain ⟨index', node', found'⟩ := visitedOrder_eq_some visited'
  intro same
  apply differ
  have equal : order = order' := List.inj_on_of_nodup_map unique
    (List.mem_of_getElem? found) (List.mem_of_getElem? found') same
  subst equal
  have sameIndex : index = index' :=
    (List.getElem?_inj (List.getElem?_eq_some_iff.mp found).1 (List.Nodup.of_map _ unique)).mp
      (found.trans found'.symm)
  subst sameIndex
  exact (List.getElem?_inj (List.getElem?_eq_some_iff.mp node).1 table).mp
    (node.trans node'.symm)

end Routes

section Unserved

variable {group : String → String} {clusterId : String} {orders visited : List OrderRow}
  {served : List String}

/-- The groups that get a record are those of the orders with no member served. -/
theorem mem_unserved_groups {name : String} :
    name ∈ ((((sortBy Prod.fst (Dict.groupBy (·.alternativeGroupRef) (·.taskId)
        (orders.filter fun order => order.alternativeGroupRef ≠ "")).entries).filter
          fun group => ∀ id ∈ group.2, id ∉ served).map
            (unservedGroupRecord clusterId)).map (·.taskId)) ↔
      ∃ order ∈ orders, order.alternativeGroupRef = name ∧ name ≠ "" ∧
        ∀ other ∈ orders, other.alternativeGroupRef = name → other.taskId ∉ served := by
  rw [List.map_map]
  simp only [List.mem_map, List.mem_filter, mem_sortBy, decide_eq_true_eq, Function.comp_apply]
  constructor
  · rintro ⟨⟨key, members⟩, ⟨listed, unserved⟩, rfl⟩
    obtain ⟨order, member, same⟩ :=
      (Dict.mem_keys_groupBy _ _ _ key).mp (List.mem_map_of_mem (f := Prod.fst) listed)
    obtain ⟨known, grouped⟩ := List.mem_filter.mp member
    have nonempty : key ≠ "" := same ▸ of_decide_eq_true grouped
    refine ⟨order, known, same, nonempty, fun other otherKnown otherSame => unserved _ ?_⟩
    rw [Dict.mem_entries_groupBy listed]
    refine List.mem_map_of_mem (List.mem_filter.mpr ⟨List.mem_filter.mpr ⟨otherKnown, ?_⟩, ?_⟩)
    · exact decide_eq_true (otherSame ▸ nonempty)
    · exact decide_eq_true otherSame
  · rintro ⟨order, known, same, nonempty, unserved⟩
    have keyed := (Dict.mem_keys_groupBy (·.alternativeGroupRef) (·.taskId)
      (orders.filter fun order => order.alternativeGroupRef ≠ "") name).mpr
        ⟨order, List.mem_filter.mpr ⟨known, decide_eq_true (same ▸ nonempty)⟩, same⟩
    obtain ⟨⟨key, members⟩, listed, rfl⟩ := List.mem_map.mp keyed
    refine ⟨(key, members), ⟨listed, fun id member => ?_⟩, rfl⟩
    rw [Dict.mem_entries_groupBy listed] at member
    obtain ⟨other, inside, rfl⟩ := List.mem_map.mp member
    obtain ⟨inside, otherSame⟩ := List.mem_filter.mp inside
    exact unserved other (List.mem_filter.mp inside).1 (of_decide_eq_true otherSame)

/-- The tasks named by the records: orders of their own and groups that are not served. -/
theorem mem_unservedOrders {id : String} :
    id ∈ (unservedOrders clusterId orders served).map (·.taskId) ↔
      (∃ order ∈ orders, order.alternativeGroupRef = "" ∧ order.taskId = id ∧ id ∉ served) ∨
        ∃ order ∈ orders, order.alternativeGroupRef = id ∧ id ≠ "" ∧
          ∀ other ∈ orders, other.alternativeGroupRef = id → other.taskId ∉ served := by
  rw [unservedOrders, List.map_append, List.mem_append, mem_unserved_groups, List.map_map]
  refine or_congr_left ?_
  simp only [List.mem_map, List.mem_filter, decide_eq_true_eq, Function.comp_apply, unservedRecord]
  constructor
  · rintro ⟨order, ⟨inside, single, unserved⟩, rfl⟩
    exact ⟨order, inside, single, rfl, unserved⟩
  · rintro ⟨order, inside, single, rfl, unserved⟩
    exact ⟨order, ⟨inside, single, unserved⟩, rfl⟩

/-- An order without alternatives has one record if it is on no route, and none otherwise. -/
theorem count_unservedOrders
    (groups : ∀ order ∈ orders, group order.taskId = order.alternativeGroupRef)
    (unique : (orders.map (·.taskId)).Nodup)
    (naming : GroupsNameMembers group (orders.map (·.taskId))) {order : OrderRow}
    (inside : order ∈ orders) (single : order.alternativeGroupRef = "") :
    ((unservedOrders clusterId orders served).map (·.taskId)).count order.taskId =
      if order.taskId ∈ served then 0 else 1 := by
  have unlabelled : order.taskId ∉ ((((sortBy Prod.fst (Dict.groupBy (·.alternativeGroupRef)
      (·.taskId) (orders.filter fun order => order.alternativeGroupRef ≠ "")).entries).filter
        fun group => ∀ id ∈ group.2, id ∉ served).map
          (unservedGroupRecord clusterId)).map (·.taskId)) := by
    intro label
    obtain ⟨other, otherInside, same, nonempty, -⟩ := mem_unserved_groups.mp label
    have named := groups other otherInside
    have labelled := naming other.taskId (List.mem_map_of_mem otherInside)
      (by rwa [named, same]) (by rw [named, same]; exact List.mem_map_of_mem inside)
    rw [named, same, groups order inside, single] at labelled
    exact nonempty labelled.symm
  rw [unservedOrders, List.map_append, List.count_append, List.count_eq_zero.mpr unlabelled,
    Nat.add_zero, List.map_map]
  change ((orders.filter _).map (·.taskId)).count order.taskId = _
  split_ifs with listed
  · refine List.count_eq_zero.mpr fun recorded => ?_
    obtain ⟨other, kept, same⟩ := List.mem_map.mp recorded
    have unserved := (of_decide_eq_true (List.mem_filter.mp kept).2).2
    rw [same] at unserved
    exact unserved listed
  · refine List.count_eq_one_of_mem (unique.sublist (List.filter_sublist.map _)) ?_
    exact List.mem_map_of_mem (List.mem_filter.mpr ⟨inside, decide_eq_true ⟨single, listed⟩⟩)

/-- Routing settles its orders: those on a route are dispatched, the others are recorded. -/
theorem settles_unservedOrders
    (groups : ∀ order ∈ orders, group order.taskId = order.alternativeGroupRef)
    (unique : (orders.map (·.taskId)).Nodup)
    (naming : GroupsNameMembers group (orders.map (·.taskId))) (known : visited ⊆ orders)
    (once : (visited.map (·.taskId)).Nodup)
    (oneAlternative : ∀ first ∈ visited, ∀ second ∈ visited, first.alternativeGroupRef ≠ "" →
      first.alternativeGroupRef = second.alternativeGroupRef → first = second) :
    Settles group (orders.map (·.taskId)) (visited.map (·.taskId))
      ((unservedOrders clusterId orders (visited.map (·.taskId))).map (·.taskId)) where
  dispatched_known := List.map_subset _ known
  recorded_known id member := by
    rcases mem_unservedOrders.mp member with
      ⟨order, inside, -, rfl, -⟩ | ⟨order, inside, same, nonempty, -⟩
    · exact .inl (List.mem_map_of_mem inside)
    · have named := groups order inside
      exact .inr ⟨order.taskId, List.mem_map_of_mem inside, by rwa [named, same],
        by rw [named, same]⟩
  alone task member single := by
    obtain ⟨order, inside, rfl⟩ := List.mem_map.mp member
    rw [groups order inside] at single
    rw [count_unservedOrders groups unique naming inside single]
    split_ifs with served
    · rw [List.count_eq_one_of_mem once served]
    · rw [List.count_eq_zero.mpr served]
  together name nonempty := by
    rw [List.countP_map]
    refine countP_le_one _ (List.Nodup.of_map _ once) fun first firstIn second secondIn => ?_
    simp only [Function.comp_apply, decide_eq_true_eq]
    rw [groups first (known firstIn), groups second (known secondIn)]
    intro firstNamed secondNamed
    exact oneAlternative first firstIn second secondIn (firstNamed ▸ nonempty)
      (firstNamed.trans secondNamed.symm)
  reported task member grouped := by
    obtain ⟨order, inside, rfl⟩ := List.mem_map.mp member
    rw [groups order inside] at grouped ⊢
    by_cases served : ∃ other ∈ orders, other.alternativeGroupRef = order.alternativeGroupRef ∧
        other.taskId ∈ visited.map (·.taskId)
    · obtain ⟨other, otherInside, same, listed⟩ := served
      exact .inl ⟨other.taskId, listed, by rw [groups other otherInside, same]⟩
    · refine .inr ⟨order.alternativeGroupRef, ?_, .inl rfl⟩
      refine mem_unservedOrders.mpr (.inr ⟨order, inside, rfl, grouped, ?_⟩)
      exact fun other otherInside same listed => served ⟨other, otherInside, same, listed⟩

end Unserved

namespace SolveInputs

/-- The routes an answer brings satisfy the model posted for the cluster. -/
def AnswersPosted (inputs : SolveInputs) (cluster : ClusterSpec)
    (answer : Except String RoutingAnswer) : Prop :=
  ∀ context, inputs.prepareClusterContext cluster = .ok context →
    ∀ routed, answer = .ok routed → ∀ found ∈ routed.found,
      PostedRoutes (inputs.nodes cluster context) context.orders found.routes

/-- Where no solution is found, no order without alternatives had been set aside. -/
def SetsAsideAlternatives (inputs : SolveInputs) (cluster : ClusterSpec)
    (answer : Except String RoutingAnswer) : Prop :=
  ∀ context, inputs.prepareClusterContext cluster = .ok context →
    ∀ routed, answer = .ok routed → routed.found = none →
      ∀ order ∈ context.setAside, order.alternativeGroupRef ≠ ""

/-- The orders recorded when they are set aside and again when no solution is found. -/
def recordedTwice (inputs : SolveInputs) (cluster : ClusterSpec) :
    Except String RoutingAnswer → List OrderRow
  | .error _ => []
  | .ok answer =>
    match answer.found, inputs.prepareClusterContext cluster with
    | none, .ok context => context.setAside
    | _, _ => []

variable {inputs : SolveInputs} {cluster : ClusterSpec} {group : String → String}

theorem setsAsideAlternatives_iff {answer : Except String RoutingAnswer} :
    inputs.SetsAsideAlternatives cluster answer ↔
      ∀ order ∈ inputs.recordedTwice cluster answer, order.alternativeGroupRef ≠ "" := by
  unfold SetsAsideAlternatives recordedTwice
  cases answer with
  | error detail => simp
  | ok answer =>
    cases solved : answer.found with
    | some found => simp [solved]
    | none =>
      cases ready : inputs.prepareClusterContext cluster with
      | error records => simp
      | ok context => simp [solved]

theorem of_get?_orderMap {id : String} {order : OrderRow}
    (found : inputs.orderMap.get? id = some order) :
    order ∈ inputs.orders ∧ order.taskId = id := by
  obtain ⟨row, member, same, rfl⟩ := Dict.exists_of_get?_collect found
  exact ⟨member, same⟩

/-- Known tasks are looked up in their order. -/
theorem taskIds_filterMap_orderMap {taskIds : List String}
    (known : taskIds ⊆ inputs.orders.map (·.taskId)) :
    (taskIds.filterMap inputs.orderMap.get?).map (·.taskId) = taskIds := by
  rw [List.map_filterMap]
  calc taskIds.filterMap (fun taskId => (inputs.orderMap.get? taskId).map (·.taskId))
      = taskIds.filterMap some := by
        apply List.filterMap_congr
        intro taskId member
        obtain ⟨row, listed, same⟩ := List.mem_map.mp (known member)
        have keyed := (Dict.isSome_get?_collect (·.taskId) id inputs.orders taskId).mpr
          ⟨row, listed, same⟩
        obtain ⟨order, found⟩ := Option.isSome_iff_exists.mp keyed
        rw [orderMap, found, Option.map_some]
        exact congrArg some (of_get?_orderMap found).2
    _ = taskIds := List.filterMap_some

/-- What the preparation makes of the tasks of a cluster. -/
def PreparesTasks (inputs : SolveInputs) (cluster : ClusterSpec) :
    Except (List InfeasibleRecord) ClusterContext → Prop
  | .error records => records.map (·.taskId) = cluster.taskIds
  | .ok context =>
    (context.orders ++ context.setAside).Perm (cluster.taskIds.filterMap inputs.orderMap.get?)

/-- The preparation records all tasks of a cluster or keeps all of them. -/
theorem preparesTasks (known : cluster.taskIds ⊆ inputs.orders.map (·.taskId)) :
    PreparesTasks inputs cluster (inputs.prepareClusterContext cluster) := by
  unfold prepareClusterContext
  dsimp only
  split
  · next empty => exact empty.symm
  split
  · exact taskId_failureRecords _ _ _
  split
  · exact taskId_failureRecords _ _ _
  split
  · exact taskId_failureRecords _ _ _
  split
  · next none =>
    have all : (cluster.taskIds.filterMap inputs.orderMap.get?).filter (fun order => ¬
        inputs.Supported (inputs.routingVehicles cluster.allocatedPrimeRelated) order) =
          cluster.taskIds.filterMap inputs.orderMap.get? := by
      rw [List.filter_eq_self]
      intro order member
      exact decide_eq_true fun supported =>
        List.filter_eq_nil_iff.mp none order member (decide_eq_true supported)
    change (List.map _ (List.map _ _)) = _
    rw [all, List.map_map]
    exact taskIds_filterMap_orderMap known
  · change (List.filter _ _ ++ List.filter _ _).Perm _
    simp only [decide_not]
    exact List.filter_append_perm _ _

/-- A prepared cluster routes and sets aside known orders. -/
theorem mem_orders_of_prepared {context : ClusterContext}
    (known : cluster.taskIds ⊆ inputs.orders.map (·.taskId))
    (ready : inputs.prepareClusterContext cluster = .ok context) :
    ∀ order ∈ context.orders ++ context.setAside, order ∈ inputs.orders := by
  have prepared := preparesTasks known
  rw [ready] at prepared
  intro order member
  obtain ⟨id, -, found⟩ := List.mem_filterMap.mp (prepared.subset member)
  exact (of_get?_orderMap found).1

/-- The packages of a cluster are those of the orders visited by its routes. -/
theorem taskId_extractDispatchPackages (inputs : SolveInputs) (cluster : ClusterSpec)
    (context : ClusterContext) (found : RoutesFound) :
    ∃ visited : List OrderRow, visited.Sublist (found.routes.flatten.filterMap
        (visitedOrder (inputs.nodes cluster context) context.orders)) ∧
      (inputs.extractDispatchPackages cluster context found).map (·.taskId) =
        visited.map (·.taskId) := by
  have kept : ∀ (vehicles : List RoutingVehicle) (routes : RoutingSolution),
      ((vehicles.zip routes).flatMap fun route => route.2.filterMap
        (visitedOrder (inputs.nodes cluster context) context.orders)).Sublist
          (routes.flatten.filterMap
            (visitedOrder (inputs.nodes cluster context) context.orders)) := by
    intro vehicles routes
    induction routes generalizing vehicles with
    | nil => simp
    | cons route rest ih =>
      cases vehicles with
      | nil => exact List.nil_sublist _
      | cons vehicle vehicles =>
        rw [List.zip_cons_cons, List.flatMap_cons, List.flatten_cons, List.filterMap_append]
        exact (List.Sublist.refl _).append (ih vehicles)
  refine ⟨_, kept context.vehicles found.routes, ?_⟩
  simp only [extractDispatchPackages, List.map_flatMap, List.map_filterMap, Option.map_map]
  rfl

/-- Routing a prepared cluster settles the orders it routes, or records every task. -/
theorem settles_routeContext {context : ClusterContext} {answer : RoutingAnswer}
    {found : RoutesFound} (solved : answer.found = some found)
    (posted : PostedRoutes (inputs.nodes cluster context) context.orders found.routes)
    (groups : ∀ order ∈ context.orders, group order.taskId = order.alternativeGroupRef)
    (unique : (context.orders.map (·.taskId)).Nodup)
    (naming : GroupsNameMembers group (context.orders.map (·.taskId))) :
    Settles group (context.orders.map (·.taskId))
      ((inputs.routeContext cluster context answer).dispatch.map (·.taskId))
      ((inputs.routeContext cluster context answer).infeasible.map (·.taskId)) := by
  obtain ⟨visited, some_visited, dispatched⟩ :=
    inputs.taskId_extractDispatchPackages cluster context found
  have once := nodup_visited posted (nodup_buildNodeTable _ _) rfl unique
  have known : ∀ order ∈ found.routes.flatten.filterMap
      (visitedOrder (inputs.nodes cluster context) context.orders), order ∈ context.orders := by
    intro order member
    obtain ⟨visit, -, visited⟩ := List.mem_filterMap.mp member
    obtain ⟨index, -, listed⟩ := visitedOrder_eq_some visited
    exact List.mem_of_getElem? listed
  simp only [routeContext, solved, dispatched]
  exact settles_unservedOrders groups unique naming
    (fun order member => known order (some_visited.subset member))
    (once.sublist (some_visited.map _))
    (fun first firstIn second secondIn => posted.oneAlternative first
      (some_visited.subset firstIn) second (some_visited.subset secondIn))

/-- The orders recorded twice are tasks of the cluster. -/
theorem recordedTwice_given {answer : Except String RoutingAnswer}
    (known : cluster.taskIds ⊆ inputs.orders.map (·.taskId)) {order : OrderRow}
    (twice : order ∈ inputs.recordedTwice cluster answer) :
    order ∈ inputs.orders ∧ order.taskId ∈ cluster.taskIds := by
  have prepared := preparesTasks known
  unfold recordedTwice at twice
  split at twice
  · cases twice
  split at twice
  · next context none ready =>
    rw [ready] at prepared
    obtain ⟨id, listed, found⟩ :=
      List.mem_filterMap.mp (prepared.subset (List.mem_append_right _ twice))
    obtain ⟨given, rfl⟩ := of_get?_orderMap found
    exact ⟨given, listed⟩
  · cases twice

/-- Solving a cluster settles its tasks, up to the records made twice. -/
theorem settles_solveCluster {answer : Except String RoutingAnswer}
    (groups : ∀ order ∈ inputs.orders, group order.taskId = order.alternativeGroupRef)
    (nodup : cluster.taskIds.Nodup) (known : cluster.taskIds ⊆ inputs.orders.map (·.taskId))
    (naming : GroupsNameMembers group cluster.taskIds)
    (posted : inputs.AnswersPosted cluster answer) :
    ∃ recorded, ((inputs.solveClusterInstrumented cluster answer).infeasible.map
        (·.taskId)).Perm ((inputs.recordedTwice cluster answer).map (·.taskId) ++ recorded) ∧
      Settles group cluster.taskIds
        ((inputs.solveClusterInstrumented cluster answer).dispatch.map (·.taskId)) recorded := by
  cases answer with
  | error detail =>
    simp only [solveClusterInstrumented, taskId_failureRecords]
    exact ⟨cluster.taskIds, .refl _, .ofRecorded nodup⟩
  | ok answer =>
    have prepared := preparesTasks known
    simp only [solveClusterInstrumented, solveClusterInner, recordedTwice]
    cases ready : inputs.prepareClusterContext cluster with
    | error records =>
      rw [ready] at prepared
      change records.map (·.taskId) = cluster.taskIds at prepared
      refine ⟨cluster.taskIds, ?_, .ofRecorded nodup⟩
      cases answer.found <;> exact .of_eq prepared
    | ok context =>
      rw [ready] at prepared
      have ids : (context.orders.map (·.taskId) ++ context.setAside.map (·.taskId)).Perm
          cluster.taskIds := by
        rw [← List.map_append]
        exact (prepared.map _).trans (.of_eq (taskIds_filterMap_orderMap known))
      have rows := mem_orders_of_prepared known ready
      obtain ⟨routed, aside, disjoint⟩ := List.nodup_append'.mp (ids.nodup_iff.mpr nodup)
      have records : (context.setAside.map (inputs.unsupportedRecord cluster)).map (·.taskId) =
          context.setAside.map (·.taskId) := by
        rw [List.map_map]
        rfl
      have tagged : GroupsNameMembers group
          (context.orders.map (·.taskId) ++ context.setAside.map (·.taskId)) :=
        naming.subset ids.subset
      simp only [List.map_append, records]
      cases solved : answer.found with
      | none =>
        simp only [routeContext, solved, List.map_nil, taskId_failureRecords]
        exact ⟨cluster.taskIds, .refl _, .ofRecorded nodup⟩
      | some found =>
        have settled := settles_routeContext solved
          (posted context ready answer rfl found solved)
          (fun order listed => groups order (rows order (List.mem_append_left _ listed))) routed
          (tagged.subset (List.subset_append_left _ _))
        have whole := settled.append (Settles.ofRecorded aside) disjoint tagged
          fun _ _ _ none => absurd none List.not_mem_nil
        exact ⟨_, .refl _, whole.perm ids (.of_eq (List.append_nil _)) List.perm_append_comm⟩

/-- A package of a cluster is made for a visit to an order on a route of its context. -/
theorem dispatch_cases {answer : Except String RoutingAnswer} {package : DispatchPackage}
    (member : package ∈ (inputs.solveClusterInstrumented cluster answer).dispatch) :
    ∃ context found route visit order, inputs.prepareClusterContext cluster = .ok context ∧
      route ∈ context.vehicles.zip found.routes ∧ visit ∈ route.2 ∧
      visitedOrder (inputs.nodes cluster context) context.orders visit = some order ∧
      inputs.dispatchPackage cluster found route.1 visit order = package := by
  cases answer with
  | error detail => cases member
  | ok answer =>
    simp only [solveClusterInstrumented, solveClusterInner] at member
    cases ready : inputs.prepareClusterContext cluster with
    | error records =>
      rw [ready] at member
      cases member
    | ok context =>
      rw [ready] at member
      cases solved : answer.found with
      | none => simp [routeContext, solved] at member
      | some found =>
        simp only [routeContext, solved, extractDispatchPackages] at member
        obtain ⟨route, listed, onRoute⟩ := List.mem_flatMap.mp member
        obtain ⟨visit, visited, stop⟩ := List.mem_filterMap.mp onRoute
        obtain ⟨order, known, made⟩ := Option.map_eq_some_iff.mp stop
        exact ⟨context, found, route, visit, order, rfl, listed, visited, known, made⟩

/-- A package of a cluster serves a known order, from the planning origin on. -/
theorem dispatch_given {answer : Except String RoutingAnswer}
    (known : cluster.taskIds ⊆ inputs.orders.map (·.taskId)) {package : DispatchPackage}
    (member : package ∈ (inputs.solveClusterInstrumented cluster answer).dispatch) :
    (∃ order ∈ inputs.orders, order.taskId = package.taskId) ∧
      (inputs.nowEpoch : ℚ) ≤ package.scheduledStart := by
  obtain ⟨context, found, route, visit, order, ready, -, -, visited, rfl⟩ := dispatch_cases member
  obtain ⟨index, -, listed⟩ := visitedOrder_eq_some visited
  refine ⟨⟨order, mem_orders_of_prepared known ready order
    (List.mem_append_left _ (List.mem_of_getElem? listed)), rfl⟩, ?_⟩
  change (inputs.nowEpoch : ℚ) ≤ inputs.nowEpoch + ((visit.cumul : ℤ) : ℚ)
  exact le_add_of_nonneg_right (by exact_mod_cast Nat.zero_le visit.cumul)

/-- A record of a cluster names a task of it, or the group of a known order. -/
theorem infeasible_given {answer : Except String RoutingAnswer}
    (known : cluster.taskIds ⊆ inputs.orders.map (·.taskId)) {record : InfeasibleRecord}
    (member : record ∈ (inputs.solveClusterInstrumented cluster answer).infeasible) :
    ∃ order ∈ inputs.orders, order.taskId = record.taskId ∨
      order.alternativeGroupRef ≠ "" ∧ order.alternativeGroupRef = record.taskId := by
  have ofTask : ∀ id ∈ cluster.taskIds, ∃ order ∈ inputs.orders, order.taskId = id ∨
      order.alternativeGroupRef ≠ "" ∧ order.alternativeGroupRef = id := by
    intro id listed
    obtain ⟨order, given, rfl⟩ := List.mem_map.mp (known listed)
    exact ⟨order, given, .inl rfl⟩
  have ofFailure : ∀ reasonCode detail, record ∈ failureRecords cluster reasonCode detail →
      record.taskId ∈ cluster.taskIds := by
    intro reasonCode detail listed
    rw [← taskId_failureRecords cluster reasonCode detail]
    exact List.mem_map_of_mem listed
  cases answer with
  | error detail => exact ofTask _ (ofFailure _ _ member)
  | ok answer =>
    have prepared := preparesTasks known
    simp only [solveClusterInstrumented, solveClusterInner] at member
    cases ready : inputs.prepareClusterContext cluster with
    | error records =>
      rw [ready] at member prepared
      exact ofTask _ (prepared ▸ List.mem_map_of_mem member)
    | ok context =>
      have rows := mem_orders_of_prepared known ready
      rw [ready] at member
      rcases List.mem_append.mp member with aside | routed
      · obtain ⟨order, listed, rfl⟩ := List.mem_map.mp aside
        exact ⟨order, rows order (List.mem_append_right _ listed), .inl rfl⟩
      · cases solved : answer.found with
        | none =>
          simp only [routeContext, solved] at routed
          exact ofTask _ (ofFailure _ _ routed)
        | some found =>
          simp only [routeContext, solved] at routed
          rcases mem_unservedOrders.mp (List.mem_map_of_mem routed) with
            ⟨order, listed, -, same, -⟩ | ⟨order, listed, same, nonempty, -⟩
          · exact ⟨order, rows order (List.mem_append_left _ listed), .inl same⟩
          · exact ⟨order, rows order (List.mem_append_left _ listed), .inr ⟨same ▸ nonempty, same⟩⟩

end SolveInputs

end FlOp.Solver
