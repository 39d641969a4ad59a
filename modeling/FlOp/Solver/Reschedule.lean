import FlOp.Solver.ChainResources

/-! # Rescheduling after work has started

Orders marked as started are frozen, and only the pending ones are solved again. The call holds no
asset: which orders are frozen is known to the plan diff alone. So a started task keeps its bundle,
its operator and its place before its dependents only where its window is over when the planning
starts, or where no pending order can be given any of them.
-/

namespace FlOp.Solver

open Canonical FlOp.Core Library

/-- Lifecycle status of a task. -/
inductive TaskStatus
  | pending
  | started
  | completed
  | infeasible
deriving DecidableEq, Repr

def TaskStatus.value : TaskStatus → String
  | .pending => "pending"
  | .started => "started"
  | .completed => "completed"
  | .infeasible => "infeasible"

/-- The status of a text, if it is one. -/
def TaskStatus.ofValue (text : String) : Option TaskStatus :=
  [pending, started, completed, infeasible].find? fun status => status.value = text

/-- A row of the order table. Of its other columns the mapping makes a canonical task, unless it
excludes the row; a row without a status has the empty one. -/
structure OrderRecord where
  orderId : String
  status : String
  columns : Option OrderRow
deriving DecidableEq, Repr

/-- The solver row of a record; the task id is the order id. -/
def OrderRecord.row (record : OrderRecord) : Option OrderRow :=
  record.columns.map fun row => { row with taskId := record.orderId }

/-- A change of the work in progress. -/
structure RescheduleEvent where
  type : Option String
  orderId : Option String := none
deriving DecidableEq, Repr

/-- Mark the last record of an id. -/
def markStarted (orderId : String) : List OrderRecord → List OrderRecord
  | [] => []
  | record :: rest =>
    if record.orderId = orderId ∧ orderId ∉ rest.map (·.orderId) then
      { record with status := TaskStatus.started.value } :: rest
    else record :: markStarted orderId rest

/-- Apply one event; an order that is not found is only logged. -/
def applyEvent (orders : List OrderRecord) (event : RescheduleEvent) :
    Except String (List OrderRecord) :=
  if event.type = some "mark_started" then
    match event.orderId with
    | some id => .ok (if id = "" then orders else markStarted id orders)
    | none => .ok orders
  else
    .error ("Unknown event type '" ++ event.type.getD "None" ++
      "'. Supported types: mark_started")

/-- Mutate the order table based on events. -/
def applyEvents (orders : List OrderRecord) (events : List RescheduleEvent) :
    Except String (List OrderRecord) :=
  events.foldlM applyEvent orders

/-- The orders whose work has started, and those still to be planned. -/
structure OrderPartition where
  frozenTaskIds : Finset String := ∅
  remainingOrders : List OrderRecord := []
deriving DecidableEq

/-- Sort one order in by its status; completed and infeasible orders are left out. -/
def OrderPartition.add (parts : OrderPartition) (order : OrderRecord) :
    Except String OrderPartition :=
  match TaskStatus.ofValue order.status with
  | none =>
    .error ("Unknown task status '" ++ order.status ++ "' for task " ++ order.orderId ++
      ". Valid values: ['pending', 'started', 'completed', 'infeasible']")
  | some .started => .ok { parts with frozenTaskIds := insert order.orderId parts.frozenTaskIds }
  | some .pending => .ok { parts with remainingOrders := parts.remainingOrders ++ [order] }
  | some _ => .ok parts

/-- Some vehicle, implement or operator serves both packages. -/
def DispatchPackage.SharesResource (a b : DispatchPackage) : Prop :=
  ∃ id ∈ a.resourceIds, id ∈ b.resourceIds

instance (a b : DispatchPackage) : Decidable (a.SharesResource b) :=
  inferInstanceAs (Decidable (∃ id ∈ a.resourceIds, id ∈ b.resourceIds))

/-- The scheduled windows of two packages overlap. -/
def DispatchPackage.Concurrent (a b : DispatchPackage) : Prop :=
  a.scheduledStart < b.scheduledEnd ∧ b.scheduledStart < a.scheduledEnd

instance (a b : DispatchPackage) : Decidable (a.Concurrent b) :=
  inferInstanceAs (Decidable (_ ∧ _))

/-- The task names its predecessor. -/
def TaskRow.DependsOn (row : TaskRow) (id : String) : Prop :=
  row.dependsOnTaskRef ≠ "" ∧ row.dependsOnTaskRef = id

instance (row : TaskRow) (id : String) : Decidable (row.DependsOn id) :=
  inferInstanceAs (Decidable (_ ∧ _))

/-- The arguments of a reschedule. The fleet is what the other tables project to, with the planning
origin; an order id is the key of the order table. -/
structure Reschedule where
  oldSchedule : List DispatchPackage
  orders : List OrderRecord
  events : List RescheduleEvent := []
  fleet : ChainInputs
  unique : (orders.map (·.orderId)).Nodup

section Keys

variable {orders : List OrderRecord}

theorem orderIds_markStarted (orderId : String) (orders : List OrderRecord) :
    (markStarted orderId orders).map (·.orderId) = orders.map (·.orderId) := by
  induction orders with
  | nil => rfl
  | cons record rest ih =>
    unfold markStarted
    split
    · rfl
    · rw [List.map_cons, List.map_cons, ih]

/-- Events change no order id. -/
theorem orderIds_applyEvents {events : List RescheduleEvent} {marked : List OrderRecord}
    (applied : applyEvents orders events = .ok marked) :
    marked.map (·.orderId) = orders.map (·.orderId) := by
  unfold applyEvents at applied
  induction events generalizing orders with
  | nil =>
    cases applied
    rfl
  | cons event rest ih =>
    rw [List.foldlM_cons] at applied
    cases first : applyEvent orders event with
    | error message =>
      rw [first] at applied
      cases applied
    | ok next =>
      rw [first] at applied
      rw [ih applied]
      unfold applyEvent at first
      split at first
      · split at first
        · cases first
          split
          · rfl
          · exact orderIds_markStarted _ _
        · cases first
          rfl
      · cases first

theorem remaining_add {parts next : OrderPartition} {order : OrderRecord}
    (added : parts.add order = .ok next) :
    next.remainingOrders.Sublist (parts.remainingOrders ++ [order]) := by
  unfold OrderPartition.add at added
  split at added <;> cases added
  · exact List.sublist_append_left _ _
  · exact List.Sublist.refl _
  · exact List.sublist_append_left _ _

/-- The remaining orders are rows of the table, in its order. -/
theorem remaining_sublist {parts next : OrderPartition}
    (added : orders.foldlM OrderPartition.add parts = .ok next) :
    next.remainingOrders.Sublist (parts.remainingOrders ++ orders) := by
  induction orders generalizing parts with
  | nil =>
    cases added
    rw [List.append_nil]
  | cons order rest ih =>
    rw [List.foldlM_cons] at added
    cases first : parts.add order with
    | error message =>
      rw [first] at added
      cases added
    | ok middle =>
      rw [first] at added
      have kept := (ih added).trans ((remaining_add first).append_right rest)
      rwa [List.append_assoc] at kept

end Keys

namespace Reschedule

/-- Apply the events and sort the orders. -/
def prepare (inputs : Reschedule) : Except String OrderPartition := do
  (← applyEvents inputs.orders inputs.events).foldlM OrderPartition.add {}

variable {inputs : Reschedule} {parts : OrderPartition}

theorem remaining_of_prepared (prepared : inputs.prepare = .ok parts) :
    (parts.remainingOrders.map (·.orderId)).Sublist (inputs.orders.map (·.orderId)) := by
  unfold prepare at prepared
  cases applied : applyEvents inputs.orders inputs.events with
  | error message =>
    rw [applied] at prepared
    cases prepared
  | ok marked =>
    rw [applied] at prepared
    rw [← orderIds_applyEvents applied]
    exact (remaining_sublist prepared).map _

end Reschedule

/-- The solver rows of the orders still to be planned. -/
def OrderPartition.rows (parts : OrderPartition) : List OrderRow :=
  parts.remainingOrders.filterMap OrderRecord.row

/-- Projection drops rows and renames none. -/
theorem OrderPartition.taskIds_rows (parts : OrderPartition) :
    (parts.rows.map (·.taskId)).Sublist (parts.remainingOrders.map (·.orderId)) := by
  rw [rows]
  induction parts.remainingOrders with
  | nil => exact List.Sublist.refl _
  | cons order rest ih =>
    cases projected : order.row with
    | none =>
      rw [List.filterMap_cons_none projected]
      exact ih.cons _
    | some row =>
      rw [List.filterMap_cons_some projected]
      obtain ⟨columns, -, rfl⟩ := Option.map_eq_some_iff.mp projected
      exact ih.cons_cons _

namespace Reschedule

variable (inputs : Reschedule) {parts : OrderPartition}

/-- The call of the chain for the remaining orders. Nothing is held, no forecast is read and no
profile constraint is enforced. -/
def call (prepared : inputs.prepare = .ok parts) : ChainInputs :=
  { inputs.fleet with
    orders := parts.rows
    heldWindows := .empty
    freeCapacity := .empty
    weatherVerdict := fun _ => .ok ()
    operatorQualification := false
    materialDemand := .empty
    unique := inputs.unique.sublist (parts.taskIds_rows.trans (remaining_of_prepared prepared)) }

/-- The schedules a reschedule may write. Without remaining orders it is empty; else it is what the
chain dispatches, if the chain returns. -/
inductive Writes (prepared : inputs.prepare = .ok parts) : List DispatchPackage → Prop
  | nothing (finished : parts.remainingOrders = []) : Writes prepared []
  | solved (unfinished : parts.remainingOrders ≠ []) (run : ChainRun (inputs.call prepared))
      {result : SolverChainResult} (outcome : run.outcome = some result) :
      Writes prepared result.dispatch

/-- The old packages of the started tasks. -/
def started (parts : OrderPartition) : List DispatchPackage :=
  inputs.oldSchedule.filter fun old => old.taskId ∈ parts.frozenTaskIds

/-- No new package uses a resource of a started task in the old window of that task, and none of a
dependent starts before the old window ends. -/
def RespectsStarted (parts : OrderPartition) (schedule : List DispatchPackage) : Prop :=
  ∀ old ∈ inputs.started parts, ∀ new ∈ schedule,
    (old.SharesResource new → ¬ old.Concurrent new) ∧
      ∀ order ∈ parts.rows, order.taskId = new.taskId → order.DependsOn old.taskId →
        old.scheduledEnd ≤ new.scheduledStart

/-- The window of each started task is over at the planning origin, unless neither its resources
are offered to the remaining orders nor any of those that go on depends on it. -/
def LeavesStartedAlone (prepared : inputs.prepare = .ok parts) : Prop :=
  ∀ old ∈ inputs.started parts, old.scheduledEnd ≤ ((inputs.call prepared).now.truncated : ℚ) ∨
    (∀ id ∈ old.resourceIds, ¬ (inputs.call prepared).allocationInputs.Offers id) ∧
      ∀ order ∈ (inputs.call prepared).solvable, ¬ order.DependsOn old.taskId

instance (prepared : inputs.prepare = .ok parts) : Decidable (inputs.LeavesStartedAlone prepared) :=
  inferInstanceAs (Decidable (∀ old ∈ _, _ ∨ _ ∧ _))

variable {inputs}

instance (schedule : List DispatchPackage) : Decidable (inputs.RespectsStarted parts schedule) :=
  inferInstanceAs (Decidable (∀ old ∈ _, ∀ new ∈ schedule, _))

theorem unenforced_call (prepared : inputs.prepare = .ok parts) :
    (inputs.call prepared).Unenforced :=
  ⟨rfl, rfl⟩

/-- A remaining order that is dispatched went on with the row it has. -/
theorem dependsOn_solvable (prepared : inputs.prepare = .ok parts) {order other : OrderRow}
    (given : order ∈ parts.rows) (solvable : other ∈ (inputs.call prepared).solvable)
    (same : other.taskId = order.taskId) : other.toTaskRow = order.toTaskRow := by
  have row := (inputs.call prepared).row_of_solvable solvable
  have own : order.toTaskRow ∈ (inputs.call prepared).tasks :=
    List.mem_map_of_mem (f := (·.toTaskRow)) given
  exact List.inj_on_of_nodup_map (inputs.call prepared).unique_tasks row own same

/-- A bundle is at work until two hours after the planning starts, and a second order waits. -/
def mowing : Reschedule where
  oldSchedule := [{
    dispatchId := "dispatch-1"
    taskId := "mow-1"
    primeAssetId := "tractor-1"
    relatedAssetId := "mower-1"
    scheduledStart := -3600
    scheduledEnd := 7200 }]
  orders := [⟨"mow-1", "pending", some { taskId := "mow-1", locationRef := "field-1" }⟩,
    ⟨"mow-2", "pending", some { taskId := "mow-2", locationRef := "field-1" }⟩]
  events := [⟨some "mark_started", some "mow-1"⟩]
  fleet := {
    orders := []
    sites := ["field-1"]
    depots := [{ locationId := "depot-1" }]
    vehicles := [{ assetId := "tractor-1" }]
    implements := [{ assetId := "mower-1" }]
    now := 0
    feasiblePairs := fun _ => Dict.empty.set "mow-2" [(0, 0)]
    upper := id
    allocation := { globalAssignmentEnabled := false }
    unique := .nil }
  unique := by decide

/-- The first order has started, and the second is planned again. -/
def mowingParts : OrderPartition where
  frozenTaskIds := {"mow-1"}
  remainingOrders := [⟨"mow-2", "pending", some { taskId := "mow-2", locationRef := "field-1" }⟩]

theorem mowing_prepared : mowing.prepare = .ok mowingParts := by
  decide +kernel

/-- The one cluster of the reschedule. -/
def mowingCluster : ClusterSpec where
  clusterId := "cluster_000000"
  depotRef := "depot-1"
  taskIds := ["mow-2"]
  allocatedPrimeRelated := Dict.empty.set "tractor-1" ["mower-1"]

/-- The bundle mows ten minutes after the planning starts. -/
def mowingRoutes : RoutesFound where
  routes := [[⟨0, 0⟩, ⟨1, 600⟩, ⟨0, 1200⟩]]
  dispatchId _ := "dispatch-2"
  marginEur _ := 0

/-- The worker of the cluster returns in time. -/
def mowingRun : ChainRun (mowing.call mowing_prepared) where
  assignment := none
  order := .increasing
  search cluster :=
    if cluster = mowingCluster then .ok { found := some mowingRoutes } else .error ""
  posted cluster context ready routed answered found solved := by
    split at answered
    · next same =>
      subst same
      cases answered
      cases solved
      have routable : (mowing.call mowing_prepared).solveInputs.prepareClusterContext
          mowingCluster = .ok ⟨[{ taskId := "mow-2", locationRef := "field-1" }],
            [⟨{ assetId := "tractor-1" }, { assetId := "mower-1" }⟩], []⟩ := by
        decide +kernel
      cases routable.symm.trans ready
      exact ⟨by decide +kernel, by decide +kernel⟩
    · cases answered
  execution :=
    { parallel :=
        { submitted := true
          arrivals := [(mowingCluster, .returned
            ((mowing.call mowing_prepared).solveInputs.solveClusterInstrumented mowingCluster
              (.ok { found := some mowingRoutes })))]
          stragglers := []
          accounts := by decide +kernel
          honest := by
            intro cluster result listed
            obtain ⟨rfl, rfl⟩ := by simpa using listed
            rfl }
      grouped := .none (by decide +kernel)
      timeoutS := 120
      groupTimeoutS := 0 }

theorem mowingRun_solved : mowingRun.execution.poolSolve =
    some ((mowing.call mowing_prepared).solveInputs.solveClusterInstrumented mowingCluster
      (.ok { found := some mowingRoutes })) := by
  decide +kernel

/-- The same reschedule after a first order that was done when the planning starts. -/
def mown : Reschedule :=
  { mowing with oldSchedule := mowing.oldSchedule.map fun old => { old with scheduledEnd := 0 } }

theorem mown_prepared : mown.prepare = .ok mowingParts :=
  mowing_prepared

end Reschedule

end FlOp.Solver
