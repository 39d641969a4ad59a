import FlOp.Rolling.Continuity
import FlOp.Solver.Material

/-! # Material over rolling revisions

A revision repeats the reservations of the work it keeps, while the chain charges the re-solved
tasks against the whole inventory of the snapshot. The two books are joined only in the published
plan, so depots are overdrawn unless admission would have decided the same about what the kept
work leaves.
-/

namespace FlOp.Rolling

open Canonical FlOp.Core Library Solver

/-- The inputs of one rebuild with the depots of its snapshot. What the stages of the chain make
of a call, apart from the admission of material, is left to the search. -/
structure StockedReplan where
  snapshot : PlanningSnapshot
  now : Instant
  stamp : Stamp
  depots : List DepotRow
  materialDemand : Dict String MaterialDemandSpec
  orders : SolverCall → List OrderRow
  clusters : SolverCall → List ClusterSpec
  search : Solver

/-- A published revision and the depots of the snapshot it was built from. -/
structure StockedRevision where
  revision : Revision
  depots : List DepotRow

namespace StockedReplan

variable (stocked : StockedReplan)

def inputs (call : SolverCall) : MaterialInputs where
  orders := stocked.orders call
  materialDemand := stocked.materialDemand

/-- The reservations that admission makes when it starts from the given depots. -/
def admission (depots : List DepotRow) (call : SolverCall) : List MaterialReservation :=
  (applyMaterialLimits (stocked.inputs call) depots (stocked.clusters call)).1.reservations

/-- The rebuild itself: the chain charges against the depots of the snapshot. -/
def replan : Replan where
  snapshot := stocked.snapshot
  now := stocked.now
  solver call :=
    { stocked.search call with reservations := stocked.admission stocked.depots call }
  stamp := stocked.stamp

end StockedReplan

/-- Sessions that record the depots of each snapshot. -/
def Deployment.stockedSession (deployment : Deployment) :
    LabeledSystem (Option StockedRevision) StockedReplan :=
  .ofStep (· = none) fun last stocked => some (some
    { revision := deployment.publish (last.map (·.revision)) stocked.replan
      depots := stocked.depots })

/-- What is reserved of a depot is in its inventory. -/
def MaterialConserved (rev : StockedRevision) : Prop :=
  ∀ depotRef, reservedAt rev.revision.plan.materialReservations depotRef ≤
    (depotInventory rev.depots).getD depotRef 0

/-- What the given reservations leave of each inventory. -/
def lessReserved (reservations : List MaterialReservation) (depots : List DepotRow) :
    List DepotRow :=
  depots.map fun depot =>
    { depot with inventoryMaterial :=
        depot.inventoryMaterial - reservedAt reservations depot.locationId }

section Rebuild

variable (deployment : Deployment) (last : Option StockedRevision) (stocked : StockedReplan)

/-- The continuity of a rebuild. -/
abbrev stockedConfig : RollingConfig := sessionConfig (last.map (·.revision)) stocked.now

/-- The reservations a rebuild repeats from the parent. -/
def carriedReservations : List MaterialReservation :=
  (rollingPartition deployment.settings.rolling deployment.order stocked.snapshot
    (stockedConfig last stocked)).carriedReservations

/-- The chain call of a rebuild. -/
def stockedCall : SolverCall := solveCall deployment stocked.snapshot (stockedConfig last stocked)

/-- The snapshot's inventory covers what is carried, admission would charge the same tasks had it
started from what the carried reservations leave, and no charge is rounded up. -/
structure StockCovers : Prop where
  carried : ∀ depotRef ∈ (carriedReservations deployment last stocked).map
      (·.inventoryLocationRef) ++ stocked.depots.map (·.locationId),
    reservedAt (carriedReservations deployment last stocked) depotRef ≤
      (depotInventory stocked.depots).getD depotRef 0
  sameAdmission : stocked.admission stocked.depots (stockedCall deployment last stocked) =
    stocked.admission (lessReserved (carriedReservations deployment last stocked) stocked.depots)
      (stockedCall deployment last stocked)
  notRoundedUp : ∀ reservation ∈ stocked.admission stocked.depots
      (stockedCall deployment last stocked),
    (stocked.inputs (stockedCall deployment last stocked)).NotRoundedUp reservation.taskId

instance : Decidable (StockCovers deployment last stocked) :=
  decidable_of_iff (_ ∧ _ ∧ _)
    ⟨fun ⟨carried, same, rounded⟩ => ⟨carried, same, rounded⟩,
      fun ⟨carried, same, rounded⟩ => ⟨carried, same, rounded⟩⟩

end Rebuild

section Depots

variable {depots : List DepotRow} {depotRef : String}

/-- Nothing is reserved of a depot that no reservation mentions. -/
theorem reservedAt_eq_zero {reservations : List MaterialReservation}
    (unmentioned : depotRef ∉ reservations.map (·.inventoryLocationRef)) :
    reservedAt reservations depotRef = 0 := by
  induction reservations with
  | nil => rfl
  | cons reservation rest ih =>
    rw [List.map_cons, List.mem_cons, not_or] at unmentioned
    rw [reservedAt_cons, ih unmentioned.2, if_neg fun here => unmentioned.1 here.1.symm, add_zero]

/-- A depot without a row has no inventory. -/
theorem depotInventory_eq_zero (unknown : depotRef ∉ depots.map (·.locationId)) :
    (depotInventory depots).getD depotRef 0 = 0 := by
  have absent : (depotInventory depots).get? depotRef = none := by
    rw [← Option.not_isSome_iff_eq_none, depotInventory, Dict.isSome_get?_collect]
    rintro ⟨depot, member, rfl⟩
    exact unknown (List.mem_map_of_mem member)
  rw [Dict.getD, absent, Option.getD_none]

/-- The inventory that reservations leave at a known depot. -/
theorem depotInventory_lessReserved (reservations : List MaterialReservation)
    (known : depotRef ∈ depots.map (·.locationId)) :
    (depotInventory (lessReserved reservations depots)).getD depotRef 0 =
      (depotInventory depots).getD depotRef 0 - reservedAt reservations depotRef := by
  have present : ((depotInventory depots).get? depotRef).isSome := by
    obtain ⟨depot, member, same⟩ := List.mem_map.mp known
    exact (Dict.isSome_get?_collect _ _ _ _).mpr ⟨depot, member, same⟩
  have moved : (depotInventory (lessReserved reservations depots)).get? depotRef =
      ((depotInventory depots).get? depotRef).map (· - reservedAt reservations depotRef) := by
    simp only [depotInventory, lessReserved, Dict.get?_collect, ← List.map_reverse,
      List.find?_map, Option.map_map, Function.comp_def]
    cases found : depots.reverse.find? fun depot => depot.locationId = depotRef with
    | none => rfl
    | some depot =>
      have here := List.find?_some found
      rw [decide_eq_true_eq] at here
      simp only [Option.map_some, here]
  obtain ⟨inventory, found⟩ := Option.isSome_iff_exists.mp present
  rw [Dict.getD, Dict.getD, moved, found, Option.map_some, Option.getD_some, Option.getD_some]

end Depots

section Step

variable {deployment : Deployment} {last : Option StockedRevision} {stocked : StockedReplan}

/-- Covered carried reservations fit the inventory of every depot. -/
theorem StockCovers.carried_le (covers : StockCovers deployment last stocked) (depotRef : String) :
    reservedAt (carriedReservations deployment last stocked) depotRef ≤
      (depotInventory stocked.depots).getD depotRef 0 := by
  by_cases mentioned : depotRef ∈ (carriedReservations deployment last stocked).map
      (·.inventoryLocationRef) ++ stocked.depots.map (·.locationId)
  · exact covers.carried depotRef mentioned
  · rw [List.mem_append, not_or] at mentioned
    rw [reservedAt_eq_zero mentioned.1, depotInventory_eq_zero mentioned.2]

/-- Admission reserves no more than what the carried reservations leave. -/
theorem StockCovers.admission_le (covers : StockCovers deployment last stocked)
    (depotRef : String) :
    reservedAt (carriedReservations deployment last stocked) depotRef +
        reservedAt (stocked.admission stocked.depots (stockedCall deployment last stocked))
          depotRef ≤
      (depotInventory stocked.depots).getD depotRef 0 := by
  have fits := covers.carried_le depotRef
  have notRounded := covers.notRoundedUp
  rw [covers.sameAdmission] at notRounded ⊢
  by_cases known : depotRef ∈ stocked.depots.map (·.locationId)
  · have left := depotInventory_lessReserved
      (carriedReservations deployment last stocked) known
    have admitted := reservedAt_applyMaterialLimits notRounded depotRef
      (by rw [left]; exact sub_nonneg.mpr fits)
    rw [left] at admitted
    rw [StockedReplan.admission]
    linarith
  · have unknown : depotRef ∉ (lessReserved (carriedReservations deployment last stocked)
        stocked.depots).map (·.locationId) := by
      rw [lessReserved, List.map_map]
      exact known
    have left := depotInventory_eq_zero unknown
    have admitted := reservedAt_applyMaterialLimits notRounded depotRef (by rw [left])
    rw [left] at admitted
    rw [StockedReplan.admission]
    linarith

/-- A published plan repeats the carried reservations and settles the new ones. -/
theorem publish_reservations (deployment : Deployment) (last : Option StockedRevision)
    (stocked : StockedReplan) :
    ∃ settled, (deployment.publish (last.map (·.revision))
        stocked.replan).plan.materialReservations =
          carriedReservations deployment last stocked ++ settled ∧
      (settled = [] ∨ ∃ dispatch, settled = finalizeMaterialReservations
        (stocked.admission stocked.depots (stockedCall deployment last stocked)) dispatch) := by
  refine ⟨((compileRollingState deployment.settings.rolling deployment.order stocked.replan.solver
    stocked.snapshot (stockedConfig last stocked)).chainResult.map
      (·.materialReservations)).getD [], ?_, ?_⟩
  · simp only [Deployment.publish, Deployment.plan]
    cases (sessionConfig (last.map (·.revision)) stocked.replan.now).previousPlan with
    | none => rfl
    | some previous => rfl
  · rcases chainResult_cases deployment stocked.replan.solver stocked.snapshot
      (stockedConfig last stocked) with unsolved | solved
    · rw [unsolved]
      exact .inl rfl
    · rw [solved]
      exact .inr ⟨_, rfl⟩

/-- A covered rebuild overdraws no depot. -/
theorem materialConserved_publish (covers : StockCovers deployment last stocked) :
    MaterialConserved
      { revision := deployment.publish (last.map (·.revision)) stocked.replan
        depots := stocked.depots } := by
  intro depotRef
  have within := covers.admission_le depotRef
  obtain ⟨settled, published, unsolved | ⟨dispatch, solved⟩⟩ :=
    publish_reservations deployment last stocked
  · rw [published, unsolved, List.append_nil]
    exact covers.carried_le depotRef
  · rw [published, reservedAt_append, solved]
    have provisional := (balanced_applyMaterialLimits
      (stocked.inputs (stockedCall deployment last stocked)) stocked.depots
      (stocked.clusters (stockedCall deployment last stocked))).provisional
    have released := reservedAt_finalizeMaterialReservations provisional dispatch depotRef
    rw [StockedReplan.admission] at within ⊢
    linarith

end Step

/-- Along every run whose rebuilds are covered, no revision reserves more of a depot than the
inventory in the snapshot it was built from. -/
theorem materialConserved_of_reachable (deployment : Deployment) {last : Option StockedRevision}
    (run : deployment.stockedSession.ReachableWhere (StockCovers deployment) last) :
    ∀ rev, last = some rev → MaterialConserved rev := by
  apply run.invariant (fun last => ∀ rev, last = some rev → MaterialConserved rev)
  · intro start initial rev published
    rw [initial] at published
    contradiction
  · intro source stocked target _ covers step rev published
    rw [published] at step
    obtain rfl := Option.some.inj (Option.some.inj step)
    exact materialConserved_publish covers

/-- One depot with a hundred units, where every task is sprayed at a unit for each hectare. -/
def hubReplan (taskIds : List String) (area : String → ℚ) (now : Instant) : StockedReplan where
  snapshot :=
    { snapshotId := "snapshot-hub"
      effectiveAt := 0
      assets := taskIds.map fun id => { assetId := "drone-" ++ id }
      tasks := taskIds.map fun id => { taskId := id, operationType := "SPRAYING" } }
  now := now
  stamp := { revisionId := "rev-1", generatedAt := now }
  depots := [{ locationId := "hub", inventoryMaterial := 100 }]
  materialDemand := Dict.empty.set "SPRAYING" { material := "fertilizer", perAreaHa := 1 }
  orders call := call.tasks.map fun row =>
    { row with operationType := "SPRAYING", area := area row.taskId }
  clusters call :=
    [{ clusterId := "cluster_000000", depotRef := "hub", taskIds := call.tasks.map (·.taskId) }]
  search := SolverStages.serving fun _ => some (10000, 10600)

theorem materialConserved_of_reachable_hub :
    let area := fun id => if id = "first" then 60 else 40
    let baseline := padDeployment.publish none (hubReplan ["first"] area 0).replan
    let stocked := hubReplan ["first", "second"] area 600
    MaterialConserved
      { revision := padDeployment.publish (some baseline) stocked.replan
        depots := stocked.depots } := by
  intro area baseline stocked
  refine materialConserved_of_reachable padDeployment
    (.step (.step (.initial rfl) (l := hubReplan ["first"] area 0) ?_ rfl) (l := stocked) ?_ rfl)
    _ rfl
  · decide +kernel
  · decide +kernel

/-- A new task is admitted against the whole inventory although kept work holds most of it. -/
theorem depot_is_overdrawn :
    ¬ ∀ (deployment : Deployment) (last : Option StockedRevision),
      deployment.stockedSession.Reachable last →
        ∀ rev, last = some rev → MaterialConserved rev := by
  intro conserved
  have overdrawn := conserved padDeployment _
    (.step (.step (.initial rfl) (l := hubReplan ["first"] (fun _ => 60) 0) trivial rfl)
      (l := hubReplan ["first", "second"] (fun _ => 60) 600) trivial rfl) _ rfl "hub"
  exact absurd overdrawn (by decide +kernel)

end FlOp.Rolling
