import FlOp.Library.Dict
import FlOp.Solver.RoutingModel
import Mathlib.Algebra.BigOperators.Group.List.Lemmas
import Mathlib.Algebra.Order.BigOperators.Group.List
import Mathlib.Algebra.Order.Ring.Rat
import Mathlib.Data.Rat.Floor
import Mathlib.Tactic.Linarith

/-! # Load dimensions

For each material one dimension accumulates along a route: mass delivered from the depot counts
upward, a paired load counts from its pickup to its delivery, and a reload visit lets the count
fall. The count is bounded by the compartment of the vehicle. It is not what the vehicle carries:
depot-carried mass is on board before it is counted.
-/

namespace FlOp.Solver

open Library

def vehicleLoadUnlimitedKg : ℚ := 1000000000

/-- Mass units for each kilogram. -/
def scaleMassUnitsPerKg : ℚ := 1000

/-- The load of one order; without a pickup location it is carried from the depot. -/
structure LoadOrder where
  loadDemand : ℚ := 0
  loadMaterial : String := ""
  pickupLocationRef : String := ""
deriving DecidableEq, Repr

/-- A vehicle's capacity on one route, and its compartments. -/
structure LoadVehicle where
  loadCapacity : ℚ := 0
  loadCapacities : Dict String ℚ := .empty
deriving DecidableEq, Repr

/-- A load as nonnegative kilograms. -/
def loadKg (value : ℚ) : ℚ := max 0 value

/-- The capacity for one material: its compartment, else the aggregate, else no limit. -/
def compartmentCapacityKg (prime : LoadVehicle) (material : String) : ℚ :=
  let value :=
    if material = "" then prime.loadCapacity
    else prime.loadCapacities.getD material prime.loadCapacity
  if 0 < loadKg value then loadKg value else vehicleLoadUnlimitedKg

/-- A capacity in whole mass units. -/
def capacityUnits (prime : LoadVehicle) (material : String) : ℤ :=
  ⌊compartmentCapacityKg prime material * scaleMassUnitsPerKg⌋

/-- The orders, the vehicles and the reload visits of one cluster. -/
structure LoadCluster where
  orders : List LoadOrder
  vehicles : List LoadVehicle
  nReloadNodes : ℕ

namespace LoadCluster

variable (cluster : LoadCluster)

def nodes : List RoutingNode :=
  buildNodeTable (cluster.orders.map (·.pickupLocationRef)) cluster.nReloadNodes

/-- The materials that get a dimension. -/
def loadMaterials : List String :=
  ((cluster.orders.filter fun order => 0 < loadKg order.loadDemand).map (·.loadMaterial)).dedup

/-- The mass of a material that an order asks for. -/
def massKg (material : String) (order : ℕ) : ℚ :=
  match cluster.orders[order]? with
  | none => 0
  | some row => if row.loadMaterial = material then loadKg row.loadDemand else 0

/-- The same mass in whole units, as the dimension counts it. -/
def quantity (material : String) (order : ℕ) : ℤ :=
  ⌊cluster.massKg material order * scaleMassUnitsPerKg⌋

/-- The order's load is picked up on the way. -/
def Paired (order : ℕ) : Prop :=
  ∃ row ∈ cluster.orders[order]?, row.pickupLocationRef ≠ ""

instance (order : ℕ) : Decidable (cluster.Paired order) :=
  inferInstanceAs (Decidable (∃ row ∈ cluster.orders[order]?, _))

/-- The largest capacity in the fleet. -/
def maxCapacity (material : String) : ℤ :=
  (cluster.vehicles.map (capacityUnits · material)).foldr max 0

/-- The transit of a node. -/
def demand (material : String) : RoutingNode → ℤ
  | .depot => 0
  | .pickup order => cluster.quantity material order
  | .task order =>
    if cluster.Paired order then -cluster.quantity material order
    else cluster.quantity material order
  | .reload _ => -cluster.maxCapacity material

/-- The slack at a node: free at reload visits, none elsewhere. -/
def SlackAllowed (material : String) (slack : ℤ) : RoutingNode → Prop
  | .reload _ => 0 ≤ slack ∧ slack ≤ cluster.maxCapacity material
  | _ => slack = 0

/-- The posted dimension on the rest of a route: at each stop the count lies within the capacity
of the vehicle, and changes by the demand of the stop and its slack. -/
def Posted (prime : LoadVehicle) (material : String) : ℤ → List RoutingNode → Prop
  | cumul, [] => 0 ≤ cumul ∧ cumul ≤ capacityUnits prime material
  | cumul, node :: rest =>
    (0 ≤ cumul ∧ cumul ≤ capacityUnits prime material) ∧
      ∃ slack, cluster.SlackAllowed material slack node ∧
        Posted prime material (cumul + cluster.demand material node + slack) rest

/-- The paired orders on board after a stop. -/
def board (aboard : List ℕ) : RoutingNode → List ℕ
  | .pickup order => order :: aboard
  | .task order => aboard.erase order
  | _ => aboard

/-- On the rest of a route, what is picked up is delivered later, and paired loads are delivered
only while on board. -/
def Delivers : List ℕ → List RoutingNode → Prop
  | aboard, [] => aboard = []
  | aboard, .task order :: rest =>
    (cluster.Paired order ↔ order ∈ aboard) ∧ Delivers (aboard.erase order) rest
  | aboard, node :: rest => Delivers (board aboard node) rest

/-- The orders loaded at the depot for the rest of a trip. -/
def loadedAtDepot : List RoutingNode → List ℕ
  | [] => []
  | .reload _ :: _ => []
  | .task order :: rest =>
    if cluster.Paired order then loadedAtDepot rest else order :: loadedAtDepot rest
  | _ :: rest => loadedAtDepot rest

/-- The mass of some orders. -/
def totalKg (material : String) (orders : List ℕ) : ℚ :=
  (orders.map (cluster.massKg material)).sum

def totalUnits (material : String) (orders : List ℕ) : ℤ :=
  (orders.map (cluster.quantity material)).sum

/-- The mass physically on board at a moment of a route. -/
def onBoardKg (material : String) (aboard : List ℕ) (rest : List RoutingNode) : ℚ :=
  cluster.totalKg material aboard + cluster.totalKg material (cluster.loadedAtDepot rest)

end LoadCluster

/-- A property of every moment of a route: of what is on board and the stops still ahead. -/
def EveryMoment (holds : List ℕ → List RoutingNode → Prop) : List ℕ → List RoutingNode → Prop
  | aboard, [] => holds aboard []
  | aboard, node :: rest =>
    holds aboard (node :: rest) ∧ EveryMoment holds (LoadCluster.board aboard node) rest

/-- The stops of one vehicle between its start and its end, as the posted model admits them. -/
structure LoadRoute (cluster : LoadCluster) where
  prime : LoadVehicle
  member : prime ∈ cluster.vehicles
  stops : List RoutingNode
  listed : stops ⊆ cluster.nodes
  visitedOnce : stops.Nodup
  delivers : cluster.Delivers [] stops
  posted : ∀ material ∈ cluster.loadMaterials, cluster.Posted prime material 0 stops

namespace LoadCluster

variable (cluster : LoadCluster)

/-- A paired load stays on board through a reload after which mass is loaded at the depot. -/
def Strands (material : String) : List ℕ → List RoutingNode → Prop
  | _, [] => False
  | aboard, .reload _ :: rest => cluster.totalKg material aboard ≠ 0 ∧
      (cluster.totalKg material (cluster.loadedAtDepot rest) ≠ 0 ∨ Strands material aboard rest)
  | aboard, node :: rest => Strands material (board aboard node) rest

/-- The moments at which the count does not cover what is on board: paired and depot-carried mass
are on board together or will be after a reload, or some load on board was cut to whole units. -/
def Exposed (material : String) (aboard : List ℕ) (rest : List RoutingNode) : Prop :=
  (cluster.totalKg material aboard ≠ 0 ∧
    cluster.totalKg material (cluster.loadedAtDepot rest) ≠ 0) ∨
  cluster.Strands material aboard rest ∨
  ∃ order ∈ aboard ++ cluster.loadedAtDepot rest,
    (cluster.quantity material order : ℚ) ≠ cluster.massKg material order * scaleMassUnitsPerKg

/-- What is on board fits the compartment. -/
def Fits (prime : LoadVehicle) (material : String) (aboard : List ℕ) (rest : List RoutingNode) :
    Prop :=
  cluster.onBoardKg material aboard rest ≤ compartmentCapacityKg prime material

instance (prime : LoadVehicle) (material : String) (aboard : List ℕ) (rest : List RoutingNode) :
    Decidable (cluster.Fits prime material aboard rest) :=
  inferInstanceAs (Decidable (_ ≤ _))

variable {cluster} {prime : LoadVehicle} {material : String} {aboard : List ℕ}
  {rest : List RoutingNode} {cumul : ℤ}

theorem massKg_nonneg (cluster : LoadCluster) (material : String) (order : ℕ) :
    0 ≤ cluster.massKg material order := by
  unfold massKg
  split
  · exact le_rfl
  · split
    · exact le_max_left _ _
    · exact le_rfl

theorem quantity_nonneg (cluster : LoadCluster) (material : String) (order : ℕ) :
    0 ≤ cluster.quantity material order :=
  Int.floor_nonneg.mpr (mul_nonneg (cluster.massKg_nonneg material order) (by decide +kernel))

theorem totalUnits_nonneg (cluster : LoadCluster) (material : String) (orders : List ℕ) :
    0 ≤ cluster.totalUnits material orders := by
  apply List.sum_nonneg
  intro units member
  obtain ⟨order, -, rfl⟩ := List.mem_map.mp member
  exact cluster.quantity_nonneg material order

/-- Orders without mass have no units. -/
theorem totalUnits_eq_zero {orders : List ℕ} (massless : cluster.totalKg material orders = 0) :
    cluster.totalUnits material orders = 0 := by
  induction orders with
  | nil => rfl
  | cons order rest ih =>
    have first := cluster.massKg_nonneg material order
    have later : 0 ≤ cluster.totalKg material rest := by
      apply List.sum_nonneg
      intro mass member
      obtain ⟨other, -, rfl⟩ := List.mem_map.mp member
      exact cluster.massKg_nonneg material other
    simp only [totalKg, List.map_cons, List.sum_cons] at massless later
    have zero : cluster.massKg material order = 0 := by linarith
    have restZero : cluster.totalKg material rest = 0 := by
      rw [totalKg]
      linarith
    have units : cluster.quantity material order = 0 := by
      rw [quantity, zero, zero_mul, Int.floor_zero]
    simp only [totalUnits, List.map_cons, List.sum_cons, units, zero_add]
    exact ih restZero

/-- Loads in whole units weigh what their units say. -/
theorem totalKg_mul_scale (cluster : LoadCluster) (material : String) {orders : List ℕ}
    (whole : ∀ order ∈ orders, (cluster.quantity material order : ℚ) =
      cluster.massKg material order * scaleMassUnitsPerKg) :
    cluster.totalKg material orders * scaleMassUnitsPerKg =
      cluster.totalUnits material orders := by
  induction orders with
  | nil => simp [totalKg, totalUnits]
  | cons order rest ih =>
    have later := ih fun other member => whole other (List.mem_cons_of_mem _ member)
    have first := whole order List.mem_cons_self
    simp only [totalKg, totalUnits, List.map_cons, List.sum_cons, Int.cast_add] at later ⊢
    rw [add_mul, later, first]

theorem totalUnits_loadedAtDepot_nil (cluster : LoadCluster) (material : String) :
    cluster.totalUnits material (cluster.loadedAtDepot []) = 0 := rfl

/-- Before a reload nothing else is loaded at the depot. -/
theorem totalUnits_loadedAtDepot_reload (cluster : LoadCluster) (material : String) (visit : ℕ)
    (rest : List RoutingNode) :
    cluster.totalUnits material (cluster.loadedAtDepot (.reload visit :: rest)) = 0 := rfl

theorem Delivers.tail {node : RoutingNode} (delivers : cluster.Delivers aboard (node :: rest)) :
    cluster.Delivers (board aboard node) rest := by
  cases node with
  | task order => exact delivers.2
  | depot => exact delivers
  | pickup order => exact delivers
  | reload visit => exact delivers

/-- Between reloads the count changes by what the pairs on board gain and the depot-carried mass
ahead loses. -/
theorem demand_eq (material : String) {node : RoutingNode}
    (delivers : cluster.Delivers aboard (node :: rest))
    (between : ∀ visit, node ≠ .reload visit) :
    cluster.demand material node =
      cluster.totalUnits material (board aboard node) - cluster.totalUnits material aboard +
        (cluster.totalUnits material (cluster.loadedAtDepot (node :: rest)) -
          cluster.totalUnits material (cluster.loadedAtDepot rest)) := by
  cases node with
  | depot => simp [demand, board, loadedAtDepot]
  | pickup order =>
    simp only [demand, board, loadedAtDepot, totalUnits, List.map_cons, List.sum_cons]
    omega
  | reload visit => exact absurd rfl (between visit)
  | task order =>
    obtain ⟨carried, -⟩ := delivers
    simp only [demand, board, loadedAtDepot]
    by_cases paired : cluster.Paired order
    · have unloaded := List.sum_map_erase (cluster.quantity material) (carried.mp paired)
      rw [if_pos paired, if_pos paired]
      simp only [totalUnits]
      omega
    · have absent : order ∉ aboard := fun member => paired (carried.mpr member)
      rw [if_neg paired, if_neg paired, List.erase_of_not_mem absent]
      simp only [totalUnits, List.map_cons, List.sum_cons]
      omega

/-- The count leaves room for the depot-carried mass still ahead, apart from what pairs free. -/
theorem count_le (posted : cluster.Posted prime material cumul rest)
    (delivers : cluster.Delivers aboard rest) :
    cumul + cluster.totalUnits material (cluster.loadedAtDepot rest) ≤
      capacityUnits prime material + cluster.totalUnits material aboard := by
  induction rest generalizing cumul aboard with
  | nil =>
    have nonneg := cluster.totalUnits_nonneg material aboard
    have empty := cluster.totalUnits_loadedAtDepot_nil material
    have bounded := posted.2
    omega
  | cons node rest ih =>
    obtain ⟨⟨-, bounded⟩, slack, allowed, later⟩ := posted
    have onward := ih later delivers.tail
    by_cases between : ∀ visit, node ≠ .reload visit
    · have change := demand_eq material delivers between
      have none : slack = 0 := by
        cases node with
        | reload visit => exact absurd rfl (between visit)
        | depot => exact allowed
        | pickup order => exact allowed
        | task order => exact allowed
      omega
    · simp only [not_forall, not_not] at between
      obtain ⟨visit, rfl⟩ := between
      have nonneg := cluster.totalUnits_nonneg material aboard
      have empty := cluster.totalUnits_loadedAtDepot_reload material visit rest
      omega

/-- The count covers the pairs on board, apart from the depot-carried mass still ahead, unless a
pair strands. -/
theorem aboard_le (posted : cluster.Posted prime material cumul rest)
    (delivers : cluster.Delivers aboard rest) (kept : ¬ cluster.Strands material aboard rest) :
    cluster.totalUnits material aboard ≤
      cumul + cluster.totalUnits material (cluster.loadedAtDepot rest) := by
  induction rest generalizing cumul aboard with
  | nil =>
    obtain rfl : aboard = [] := delivers
    have empty := cluster.totalUnits_loadedAtDepot_nil material
    have none : cluster.totalUnits material [] = 0 := rfl
    have bounded := posted.1
    omega
  | cons node rest ih =>
    obtain ⟨⟨nonneg, -⟩, slack, allowed, later⟩ := posted
    have onward := fun kept => ih later delivers.tail kept
    by_cases between : ∀ visit, node ≠ .reload visit
    · have change := demand_eq material delivers between
      have ahead : slack = 0 ∧ ¬ cluster.Strands material (board aboard node) rest := by
        cases node with
        | reload visit => exact absurd rfl (between visit)
        | depot => exact ⟨allowed, kept⟩
        | pickup order => exact ⟨allowed, kept⟩
        | task order => exact ⟨allowed, kept⟩
      have covered := onward ahead.2
      omega
    · simp only [not_forall, not_not] at between
      obtain ⟨visit, rfl⟩ := between
      have empty := cluster.totalUnits_loadedAtDepot_reload material visit rest
      by_cases aboardMass : cluster.totalKg material aboard = 0
      · have zero := totalUnits_eq_zero aboardMass
        omega
      · -- the pairs on board stay there, and nothing is loaded beside them
        have apart : cluster.totalKg material (cluster.loadedAtDepot rest) = 0 ∧
            ¬ cluster.Strands material aboard rest := by
          by_contra mixed
          exact kept ⟨aboardMass, by tauto⟩
        have zero := totalUnits_eq_zero apart.1
        have covered := onward apart.2
        have fill : slack ≤ cluster.maxCapacity material := allowed.2
        simp only [demand, board] at covered
        omega

theorem compartmentCapacityKg_nonneg (prime : LoadVehicle) (material : String) :
    0 ≤ compartmentCapacityKg prime material := by
  unfold compartmentCapacityKg
  extract_lets value
  split
  · next positive => exact le_of_lt positive
  · decide +kernel

/-- At a moment that is not exposed, the posted dimension keeps the load within the compartment. -/
theorem fits_of_posted (posted : cluster.Posted prime material cumul rest)
    (delivers : cluster.Delivers aboard rest) (covered : ¬ cluster.Exposed material aboard rest) :
    cluster.Fits prime material aboard rest := by
  simp only [Exposed, not_or, not_and, not_exists, not_not] at covered
  obtain ⟨unmixed, kept, whole⟩ := covered
  have aboardMass := totalKg_mul_scale cluster material
    fun order member => whole order (List.mem_append_left _ member)
  have aheadMass := totalKg_mul_scale cluster material
    fun order member => whole order (List.mem_append_right _ member)
  have units : cluster.totalUnits material aboard +
      cluster.totalUnits material (cluster.loadedAtDepot rest) ≤
        capacityUnits prime material := by
    have room := count_le posted delivers
    have bounds : 0 ≤ cumul ∧ cumul ≤ capacityUnits prime material := by
      cases rest with
      | nil => exact posted
      | cons node rest => exact posted.1
    by_cases empty : cluster.totalKg material aboard = 0
    · have zero := totalUnits_eq_zero empty
      omega
    · have zero := totalUnits_eq_zero (unmixed empty)
      have covers := aboard_le posted delivers kept
      omega
  have cut : (capacityUnits prime material : ℚ) ≤
      compartmentCapacityKg prime material * scaleMassUnitsPerKg := Int.floor_le _
  have scaled : (cluster.onBoardKg material aboard rest) * scaleMassUnitsPerKg ≤
      compartmentCapacityKg prime material * scaleMassUnitsPerKg := by
    rw [onBoardKg, add_mul, aboardMass, aheadMass, ← Int.cast_add]
    exact (Int.cast_le.mpr units).trans cut
  exact le_of_mul_le_mul_right scaled (by decide +kernel)

/-- A material without a dimension weighs nothing. -/
theorem fits_of_unlisted (unlisted : material ∉ cluster.loadMaterials) :
    cluster.Fits prime material aboard rest := by
  have massless : ∀ order, cluster.massKg material order = 0 := by
    intro order
    unfold massKg
    split
    · rfl
    · next row found =>
      split
      · next same =>
        have none : ¬ 0 < loadKg row.loadDemand := by
          intro positive
          apply unlisted
          rw [loadMaterials, List.mem_dedup, List.mem_map]
          exact ⟨row, List.mem_filter.mpr ⟨List.mem_of_getElem? found, decide_eq_true positive⟩,
            same⟩
        exact le_antisymm (not_lt.mp none) (le_max_left _ _)
      · rfl
  have zero : ∀ orders, cluster.totalKg material orders = 0 := by
    intro orders
    apply List.sum_eq_zero
    intro mass member
    obtain ⟨order, -, rfl⟩ := List.mem_map.mp member
    exact massless order
  rw [Fits, onBoardKg, zero, zero, add_zero]
  exact compartmentCapacityKg_nonneg prime material

end LoadCluster

section Moments

variable {cluster : LoadCluster} {prime : LoadVehicle} {material : String} {aboard : List ℕ}
  {rest : List RoutingNode} {cumul : ℤ}

theorem EveryMoment.imp {first second : List ℕ → List RoutingNode → Prop}
    (implies : ∀ aboard rest, first aboard rest → second aboard rest)
    (every : EveryMoment first aboard rest) : EveryMoment second aboard rest := by
  induction rest generalizing aboard with
  | nil => exact implies _ _ every
  | cons node rest ih => exact ⟨implies _ _ every.1, ih every.2⟩

/-- Along a posted route the load fits at every moment if it fits at the exposed ones. -/
theorem everyMoment_fits (posted : cluster.Posted prime material cumul rest)
    (delivers : cluster.Delivers aboard rest)
    (exposed : EveryMoment (fun aboard rest => cluster.Exposed material aboard rest →
      cluster.Fits prime material aboard rest) aboard rest) :
    EveryMoment (cluster.Fits prime material) aboard rest := by
  induction rest generalizing cumul aboard with
  | nil =>
    by_cases open_moment : cluster.Exposed material aboard []
    · exact exposed open_moment
    · exact LoadCluster.fits_of_posted posted delivers open_moment
  | cons node rest ih =>
    obtain ⟨now, later⟩ := exposed
    obtain ⟨-, slack, -, onward⟩ := id posted
    refine ⟨?_, ih onward delivers.tail later⟩
    by_cases open_moment : cluster.Exposed material aboard (node :: rest)
    · exact now open_moment
    · exact LoadCluster.fits_of_posted posted delivers open_moment

theorem everyMoment_of_forall {holds : List ℕ → List RoutingNode → Prop}
    (always : ∀ aboard rest, holds aboard rest) (aboard : List ℕ) (rest : List RoutingNode) :
    EveryMoment holds aboard rest := by
  induction rest generalizing aboard with
  | nil => exact always _ _
  | cons node rest ih => exact ⟨always _ _, ih _⟩

end Moments

/-- On every posted route the mass on board stays within the compartment exactly when it does at
the moments the count does not cover. -/
theorem load_fits_iff (cluster : LoadCluster) (route : LoadRoute cluster) (material : String) :
    EveryMoment (cluster.Fits route.prime material) [] route.stops ↔
      EveryMoment (fun aboard rest => cluster.Exposed material aboard rest →
        cluster.Fits route.prime material aboard rest) [] route.stops := by
  constructor
  · intro sound
    exact sound.imp fun _ _ fits _ => fits
  · intro exposed
    by_cases listed : material ∈ cluster.loadMaterials
    · exact everyMoment_fits (route.posted material listed) route.delivers exposed
    · exact everyMoment_of_forall (fun _ _ => LoadCluster.fits_of_unlisted listed) _ _

section Unmixed

variable {cluster : LoadCluster} {material : String} {aboard : List ℕ} {rest : List RoutingNode}

/-- Depot-carried and paired mass are not on board together. -/
def LoadCluster.Unmixed (cluster : LoadCluster) (material : String) (aboard : List ℕ)
    (rest : List RoutingNode) : Prop :=
  cluster.totalKg material aboard = 0 ∨ cluster.totalKg material (cluster.loadedAtDepot rest) = 0

/-- No pair strands on a route that never mixes the two kinds. -/
theorem not_strands (unmixed : EveryMoment (cluster.Unmixed material) aboard rest) :
    ¬ cluster.Strands material aboard rest := by
  induction rest generalizing aboard with
  | nil => exact id
  | cons node rest ih =>
    have later := ih unmixed.2
    cases node with
    | depot => exact later
    | pickup order => exact later
    | task order => exact later
    | reload visit =>
      rintro ⟨carried, loaded | strands⟩
      · have apart : cluster.Unmixed material aboard rest := by
          cases rest with
          | nil => exact unmixed.2
          | cons next rest => exact unmixed.2.1
        exact apart.elim carried loaded
      · exact later strands

theorem not_exposed
    (whole : ∀ order, (cluster.quantity material order : ℚ) =
      cluster.massKg material order * scaleMassUnitsPerKg)
    (unmixed : EveryMoment (cluster.Unmixed material) aboard rest) :
    EveryMoment (fun aboard rest => ¬ cluster.Exposed material aboard rest) aboard rest := by
  have moment : ∀ aboard rest, EveryMoment (cluster.Unmixed material) aboard rest →
      cluster.Unmixed material aboard rest → ¬ cluster.Exposed material aboard rest := by
    rintro aboard rest every apart (⟨carried, loaded⟩ | strands | ⟨order, -, cut⟩)
    · exact apart.elim carried loaded
    · exact not_strands every strands
    · exact cut (whole order)
  induction rest generalizing aboard with
  | nil => exact moment aboard [] unmixed unmixed
  | cons node rest ih => exact ⟨moment aboard _ unmixed unmixed.1, ih unmixed.2⟩

/-- Routes that never mix depot-carried and paired mass of whole units are safe. -/
theorem load_fits_of_unmixed (route : LoadRoute cluster)
    (whole : ∀ order, (cluster.quantity material order : ℚ) =
      cluster.massKg material order * scaleMassUnitsPerKg)
    (unmixed : EveryMoment (cluster.Unmixed material) [] route.stops) :
    EveryMoment (cluster.Fits route.prime material) [] route.stops := by
  have covered := not_exposed whole unmixed
  by_cases listed : material ∈ cluster.loadMaterials
  · exact everyMoment_fits (route.posted material listed) route.delivers
      (covered.imp fun _ _ covered exposed => absurd exposed covered)
  · exact everyMoment_of_forall (fun _ _ => LoadCluster.fits_of_unlisted listed) _ _

end Unmixed

/-- A truck that holds fifteen units, ten for the depot's own task and ten for a pair. -/
def mixedCluster : LoadCluster where
  orders := [{ loadDemand := 10, loadMaterial := "seed" },
    { loadDemand := 10, loadMaterial := "seed", pickupLocationRef := "mill" }]
  vehicles := [{ loadCapacity := 15 }]
  nReloadNodes := 0

/-- The pair is served while the depot-carried load, not yet counted, is on board. -/
def mixedRoute : LoadRoute mixedCluster where
  prime := { loadCapacity := 15 }
  member := List.mem_cons_self
  stops := [.pickup 1, .task 1, .task 0]
  listed := by decide
  visitedOnce := by decide
  delivers := ⟨by decide, by decide, rfl⟩
  posted := by
    intro material member
    have only : ∀ material ∈ mixedCluster.loadMaterials, material = "seed" := by decide +kernel
    obtain rfl := only material member
    refine ⟨by decide +kernel, 0, rfl, by decide +kernel, 0, rfl, by decide +kernel, 0, rfl, ?_⟩
    exact ⟨by decide +kernel, by decide +kernel⟩

theorem truck_is_overloaded :
    ¬ ∀ (cluster : LoadCluster) (route : LoadRoute cluster) (material : String),
      EveryMoment (cluster.Fits route.prime material) [] route.stops := by
  intro sound
  obtain ⟨-, overloaded, -⟩ := sound mixedCluster mixedRoute "seed"
  exact absurd overloaded (by decide +kernel)

end FlOp.Solver
