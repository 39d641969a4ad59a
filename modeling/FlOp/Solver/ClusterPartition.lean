import FlOp.Solver.Clustering
import Mathlib.Logic.Relation

/-! # Clusters as a partition

Every order with a known site is in one cluster, and orders that depend on one another or stand for
one another are in the same one, for every target size that the code can divide by. Chains are
followed to their roots by pointers without cycles.
-/

namespace FlOp.Solver

open FlOp.Core Library

section Roots

variable {α : Type*} {step : α → α → Prop} {a b r : α}

/-- Following pointers from one place ends at another. -/
def EndsAt (step : α → α → Prop) (a r : α) : Prop :=
  Relation.ReflTransGen step a r ∧ ∀ b, ¬ step r b

/-- Pointers end at one place only. -/
theorem EndsAt.unique (single : Relator.RightUnique step) {r' : α} (first : EndsAt step a r)
    (second : EndsAt step a r') : r = r' := by
  have settled : ∀ {x y}, (∀ b, ¬ step x b) → Relation.ReflTransGen step x y → x = y := by
    intro x y last path
    rcases Relation.ReflTransGen.cases_head path with same | ⟨next, out, -⟩
    · exact same
    · exact absurd out (last next)
  rcases Relation.ReflTransGen.total_of_right_unique single first.1 second.1 with path | path
  · exact settled first.2 path
  · exact (settled second.2 path).symm

end Roots

/-- The task has a reference to another order. -/
def ClusteringInputs.DependsOn (inputs : ClusteringInputs) (id up : String) : Prop :=
  ∃ order ∈ inputs.orders, order.taskId = id ∧ order.dependsOnTaskRef = up ∧ up ≠ "" ∧ up ≠ id ∧
    up ∈ inputs.orders.map (·.taskId)

/-- No task depends on itself through other orders. -/
def ClusteringInputs.Acyclic (inputs : ClusteringInputs) : Prop :=
  ∀ id, ¬ Relation.TransGen inputs.DependsOn id id

section Chains

variable {inputs : ClusteringInputs}

theorem parent_eq_iff (unique : (inputs.orders.map (·.taskId)).Nodup) {id up : String}
    (some : up ≠ "") : inputs.parent.getD id "" = up ↔ inputs.DependsOn id up := by
  constructor
  · intro found
    cases stored : inputs.parent.get? id with
    | none =>
      rw [Dict.getD, stored] at found
      exact absurd found.symm some
    | some value =>
      rw [Dict.getD, stored, Option.getD_some] at found
      subst found
      obtain ⟨order, member, rfl, same⟩ := Dict.exists_of_get?_collect stored
      split_ifs at same with reference
      · subst same
        exact ⟨order, member, rfl, rfl, some, reference.2, reference.1⟩
      · exact absurd same.symm some
  · rintro ⟨order, member, rfl, rfl, -, other, known⟩
    have stored : inputs.parent.get? order.taskId = _ := Dict.get?_collect_of_mem unique member
    rw [Dict.getD, stored, Option.getD_some, if_pos ⟨known, other⟩]

theorem parent_eq_nil_iff (unique : (inputs.orders.map (·.taskId)).Nodup) {id : String} :
    inputs.parent.getD id "" = "" ↔ ∀ up, ¬ inputs.DependsOn id up := by
  constructor
  · rintro none up ⟨order, listed⟩
    have some := listed.2.2.2.1
    exact some (((parent_eq_iff unique some).mpr ⟨order, listed⟩).symm.trans none)
  · intro none
    by_contra some
    exact none _ ((parent_eq_iff unique some).mp rfl)

/-- A task refers to one order only. -/
theorem dependsOn_rightUnique (unique : (inputs.orders.map (·.taskId)).Nodup) :
    Relator.RightUnique inputs.DependsOn := by
  rintro id up other ⟨order, listed⟩ ⟨row, listed'⟩
  rw [← (parent_eq_iff unique listed.2.2.2.1).mpr ⟨order, listed⟩,
    (parent_eq_iff unique listed'.2.2.2.1).mpr ⟨row, listed'⟩]

/-- Without cycles, climbing ends where the references do. The tasks seen are distinct and lead to
the current one, so the fuel lasts. -/
theorem climb_endsAt (unique : (inputs.orders.map (·.taskId)).Nodup) (acyclic : inputs.Acyclic)
    (taskId : String) : ∀ (fuel : ℕ) (seen : List String) (current : String), seen.Nodup →
      seen ⊆ inputs.orders.map (·.taskId) →
      (∀ id ∈ seen, Relation.TransGen inputs.DependsOn id current) →
      inputs.orders.length < fuel + seen.length →
      EndsAt inputs.DependsOn current (inputs.climb taskId fuel seen current) := by
  intro fuel
  induction fuel with
  | zero =>
    intro seen current distinct known _ enough
    have bound := (List.subperm_of_subset distinct known).length_le
    rw [List.length_map] at bound
    omega
  | succ fuel ih =>
    intro seen current distinct known lead enough
    rw [ClusteringInputs.climb]
    by_cases last : inputs.parent.getD current "" = ""
    · rw [if_pos last]
      exact ⟨.refl, (parent_eq_nil_iff unique).mp last⟩
    · have unseen : current ∉ seen := fun again => acyclic current (lead current again)
      have up := (parent_eq_iff unique last).mp rfl
      rw [if_neg last, if_neg unseen]
      have listed : current :: seen ⊆ inputs.orders.map (·.taskId) := by
        obtain ⟨order, member, rfl, -⟩ := up
        exact List.cons_subset.mpr ⟨List.mem_map_of_mem member, known⟩
      have leadUp : ∀ id ∈ current :: seen,
          Relation.TransGen inputs.DependsOn id (inputs.parent.getD current "") := by
        intro id member
        rcases List.mem_cons.mp member with rfl | old
        · exact .single up
        · exact (lead id old).tail up
      obtain ⟨path, final⟩ := ih (current :: seen) (inputs.parent.getD current "")
        (List.nodup_cons.mpr ⟨unseen, distinct⟩) listed leadUp (by rw [List.length_cons]; omega)
      exact ⟨.head up path, final⟩

/-- A task and the one it depends on have the same root. -/
theorem rootOf_eq (unique : (inputs.orders.map (·.taskId)).Nodup) (acyclic : inputs.Acyclic)
    {id up : String} (depends : inputs.DependsOn id up) : inputs.rootOf id = inputs.rootOf up := by
  have ends : ∀ id, EndsAt inputs.DependsOn id (inputs.rootOf id) := fun id =>
    climb_endsAt unique acyclic id _ [] id List.nodup_nil (List.nil_subset _) (by simp) (by simp)
  obtain ⟨path, final⟩ := ends up
  exact (ends id).unique (dependsOn_rightUnique unique) ⟨.head depends path, final⟩

/-- A task and the one it depends on are in one unit. -/
theorem exists_chain_unit (unique : (inputs.orders.map (·.taskId)).Nodup)
    (acyclic : inputs.Acyclic) {order other : OrderRow} (member : order ∈ inputs.orders)
    (memberOther : other ∈ inputs.orders) (depends : inputs.DependsOn order.taskId other.taskId) :
    ∃ root unit, inputs.dependencyUnits.get? root = some unit ∧ order.taskId ∈ unit ∧
      other.taskId ∈ unit := by
  have inChain : ∀ row ∈ inputs.orders, inputs.rootOf row.taskId = inputs.rootOf order.taskId →
      row.taskId ∈ inputs.chainUnits.getD (inputs.rootOf order.taskId) [] := by
    intro row listed same
    rw [ClusteringInputs.chainUnits, Dict.getD_groupBy]
    exact List.mem_map.mpr ⟨row, List.mem_filter.mpr ⟨listed, decide_eq_true same⟩, rfl⟩
  have orderIn := inChain order member rfl
  have otherIn := inChain other memberOther (rootOf_eq unique acyclic depends).symm
  cases stored : inputs.chainUnits.get? (inputs.rootOf order.taskId) with
  | none =>
    rw [Dict.getD, stored] at orderIn
    cases orderIn
  | some chain =>
    rw [Dict.getD, stored, Option.getD_some] at orderIn otherIn
    obtain ⟨root, unit, found, larger⟩ := (perm_dependencyUnits inputs unique).2.2 _ chain stored
    exact ⟨root, unit, found, larger orderIn, larger otherIn⟩

end Chains

/-- What clustering raises: there is no depot to go to, or the target size is zero. -/
inductive ClusteringError where
  | valueError
  | zeroDivisionError
deriving DecidableEq, Repr

/-- Pack units for a target size of any sign. -/
def packUnitsTo (targetSize : ℤ) : List String → List (List String) → List (List String)
  | current, [] => if current = [] then [] else [current]
  | current, unit :: rest =>
    if current ≠ [] ∧ targetSize < current.length + unit.length then
      current :: packUnitsTo targetSize unit rest
    else packUnitsTo targetSize (current ++ unit) rest

/-- Split a list of tasks for a target size other than zero. -/
def splitTasksTo (targetSize : ℤ) (taskIds : List String) : List (List String) :=
  if taskIds = [] then []
  else
    let nClusters := max 1 (roundHalfEven ((taskIds.length : ℚ) / targetSize)).toNat
    slices (max 1 (taskIds.length / nClusters)) taskIds

namespace ClusteringInputs

variable (inputs : ClusteringInputs) (targetSize : ℤ)

def splitUnitsTo (units : List (List String)) : List (List String) :=
  if inputs.splitByOperation then inputs.operationSubclusters (packUnitsTo targetSize []) units
  else packUnitsTo targetSize [] units

/-- An order has a known site, but there is no depot to take it to. -/
def Depotless : Prop := inputs.depots = [] ∧ ∃ order ∈ inputs.orders, inputs.Located order

instance : Decidable inputs.Depotless := inferInstanceAs (Decidable (_ ∧ _))

/-- Tasks that need not stay together are split by a target size of zero. -/
def DividesByZero : Prop :=
  targetSize = 0 ∧ ¬ ((∃ unit ∈ inputs.dependencyUnits.values, 1 < unit.length) ∨
    inputs.splitByOperation) ∧ ∃ taskIds ∈ inputs.clusterOrdersByDepot.values, taskIds ≠ []

instance : Decidable (inputs.DividesByZero targetSize) := inferInstanceAs (Decidable (_ ∧ _))

/-- The clusters before allocation, for any target size in place of the positive one. -/
def buildClusterSpecsTo : Except ClusteringError (List DepotCluster) :=
  if inputs.Depotless then .error .valueError
  else if inputs.DividesByZero targetSize then .error .zeroDivisionError
  else .ok <| inputs.clusterSpecs <|
    inputs.subclustersWith (inputs.splitUnitsTo targetSize) (splitTasksTo targetSize)

variable {inputs targetSize}

/-- Without depots there are no clusters. -/
theorem clusterOrdersByDepot_of_no_depots (none : inputs.depots = []) :
    inputs.clusterOrdersByDepot = .empty := by
  have unmoved : ∀ orders : List OrderRow,
      orders.foldl inputs.assignOrder (.empty : Dict String (List String)) = .empty := by
    intro orders
    induction orders with
    | nil => rfl
    | cons order rest ih =>
      rw [List.foldl_cons, assignOrder, nearestDepot, none]
      exact ih
  rw [clusterOrdersByDepot, none]
  exact unmoved _

end ClusteringInputs

/-- Packing looks at the target size only where a chunk is open, so a negative one acts as zero. -/
theorem packUnitsTo_eq (targetSize : ℤ) (current : List String) (units : List (List String)) :
    packUnitsTo targetSize current units = packUnits targetSize.toNat current units := by
  induction units generalizing current with
  | nil => rfl
  | cons unit rest ih =>
    rw [packUnitsTo, packUnits, ih, ih]
    have full : (current ≠ [] ∧ targetSize < current.length + unit.length) ↔
        (current ≠ [] ∧ targetSize.toNat < current.length + unit.length) := by
      refine and_congr_right fun opened => ?_
      have filled := List.length_pos_of_ne_nil opened
      omega
    exact if_congr full rfl rfl

theorem splittingTo (inputs : ClusteringInputs) (targetSize : ℤ) :
    Splitting (inputs.splitUnitsTo targetSize) (splitTasksTo targetSize) := by
  have packs : ∀ units, (packUnitsTo targetSize [] units).flatten = units.flatten := by
    intro units
    rw [packUnitsTo_eq]
    exact flatten_packUnits_nil _ units
  have whole : ∀ units : List (List String), ∀ unit ∈ units, unit ≠ [] →
      ∃ chunk ∈ packUnitsTo targetSize [] units, unit ⊆ chunk := by
    intro units unit inside nonempty
    rw [packUnitsTo_eq]
    exact exists_chunk_of_packUnits _ [] (.inr inside) nonempty
  refine ⟨fun units => ?_, fun units unit listed nonempty => ?_, fun taskIds => ?_⟩
  · rw [ClusteringInputs.splitUnitsTo]
    split_ifs
    · exact perm_operationSubclusters inputs packs units
    · exact .of_eq (packs units)
  · rw [ClusteringInputs.splitUnitsTo]
    split_ifs
    · exact exists_operationSubcluster inputs whole listed nonempty
    · exact whole units unit listed nonempty
  · rw [splitTasksTo]
    split_ifs with empty
    · rw [empty]
      rfl
    · exact flatten_slices (lt_of_lt_of_le Nat.zero_lt_one (le_max_left _ _)) taskIds

/-- For the positive target size of the inputs and with a depot, nothing is raised and the clusters
are the usual ones. -/
theorem buildClusterSpecsTo_targetSize (inputs : ClusteringInputs) (depots : inputs.depots ≠ []) :
    inputs.buildClusterSpecsTo inputs.targetSize = .ok (buildClusterSpecs inputs) := by
  have positive := inputs.targetSize_pos
  have housed : ¬ inputs.Depotless := fun none => depots none.1
  have divides : ¬ inputs.DividesByZero inputs.targetSize := fun zero => by
    have same := zero.1
    omega
  have pack : packUnitsTo inputs.targetSize = packUnits inputs.targetSize := by
    funext current units
    rw [packUnitsTo_eq, Int.toNat_natCast]
  have units : inputs.splitUnitsTo inputs.targetSize = inputs.splitUnitsIntoSubclusters := by
    funext units
    rw [ClusteringInputs.splitUnitsTo, pack]
    rfl
  have tasks : splitTasksTo inputs.targetSize = splitIntoSubclusters inputs.targetSize := by
    funext taskIds
    rw [splitTasksTo, Int.cast_natCast]
    rfl
  rw [ClusteringInputs.buildClusterSpecsTo, if_neg housed, if_neg divides, units, tasks]
  rfl

/-- The clusters hold every order with a known site once, and keep units together. -/
theorem clusters_keep_units {inputs : ClusteringInputs} {targetSize : ℤ}
    {specs : List DepotCluster} (unique : (inputs.orders.map (·.taskId)).Nodup)
    (built : inputs.buildClusterSpecsTo targetSize = .ok specs) :
    (specs.flatMap (·.taskIds)).Perm
        ((inputs.orders.filter fun order => inputs.Located order).map (·.taskId)) ∧
      ∀ order ∈ inputs.orders, ∀ other ∈ inputs.orders, inputs.Located order →
        inputs.Located other →
        (∃ root unit, inputs.dependencyUnits.get? root = some unit ∧ order.taskId ∈ unit ∧
          other.taskId ∈ unit) →
        ∀ spec ∈ specs, order.taskId ∈ spec.taskIds → other.taskId ∈ spec.taskIds := by
  rw [ClusteringInputs.buildClusterSpecsTo] at built
  split_ifs at built with homeless zero
  obtain rfl := Except.ok.inj built
  have splits := splittingTo inputs targetSize
  have taskIds := taskIds_clusterSpecs inputs
    (inputs.subclustersWith (inputs.splitUnitsTo targetSize) (splitTasksTo targetSize))
  rw [List.flatMap_def, taskIds, ← List.flatMap_def]
  by_cases depots : inputs.depots = []
  · have nowhere : ∀ order ∈ inputs.orders, ¬ inputs.Located order :=
      fun order member known => homeless ⟨depots, order, member, known⟩
    have empty : inputs.subclustersWith (inputs.splitUnitsTo targetSize)
        (splitTasksTo targetSize) = [] := by
      rw [ClusteringInputs.subclustersWith, ClusteringInputs.clusterOrdersByDepot_of_no_depots depots]
      dsimp only
      split_ifs <;> rfl
    have unlocated : (inputs.orders.filter fun order => inputs.Located order) = [] :=
      List.filter_eq_nil_iff.mpr fun order member known =>
        nowhere order member (of_decide_eq_true known)
    rw [empty, unlocated]
    exact ⟨.refl _, fun order member _ _ located => absurd located (nowhere order member)⟩
  · refine ⟨splits.perm_subclustersWith unique depots, ?_⟩
    intro order member other memberOther located locatedOther shared spec listed inside
    obtain ⟨root, unit, found, orderIn, otherIn⟩ := shared
    have chunk : spec.taskIds ∈ (inputs.subclustersWith (inputs.splitUnitsTo targetSize)
        (splitTasksTo targetSize)).map Prod.snd := taskIds ▸ List.mem_map_of_mem listed
    obtain ⟨packed, packedListed, same⟩ := List.mem_map.mp chunk
    rw [← same] at inside ⊢
    exact splits.unit_together unique depots member memberOther located locatedOther found orderIn
      otherIn packedListed inside

/-- Clustering raises exactly if an order has a known site and there is no depot, or if tasks are
split by a target size of zero. Otherwise the clusters hold every order with a known site once and
no other task, and of two such orders that depend on one another or share an alternative group both
are in the same cluster. -/
theorem clusters_partition (inputs : ClusteringInputs) (targetSize : ℤ)
    (unique : (inputs.orders.map (·.taskId)).Nodup) (acyclic : inputs.Acyclic) :
    ((∃ specs, inputs.buildClusterSpecsTo targetSize = .ok specs) ↔
      ¬ inputs.Depotless ∧ ¬ inputs.DividesByZero targetSize) ∧
    ∀ specs, inputs.buildClusterSpecsTo targetSize = .ok specs →
      (specs.flatMap (·.taskIds)).Perm
        ((inputs.orders.filter fun order => inputs.Located order).map (·.taskId)) ∧
      ∀ order ∈ inputs.orders, ∀ other ∈ inputs.orders, inputs.Located order →
        inputs.Located other →
        (order.dependsOnTaskRef ≠ "" ∧ order.dependsOnTaskRef = other.taskId) ∨
          (order.alternativeGroupRef ≠ "" ∧
            order.alternativeGroupRef = other.alternativeGroupRef) →
        ∃ spec ∈ specs, order.taskId ∈ spec.taskIds ∧ other.taskId ∈ spec.taskIds := by
  refine ⟨?_, fun specs built => ?_⟩
  · rw [ClusteringInputs.buildClusterSpecsTo]
    split_ifs with homeless zero
    · exact iff_of_false (fun ⟨_, same⟩ => nomatch same) fun both => both.1 homeless
    · exact iff_of_false (fun ⟨_, same⟩ => nomatch same) fun both => both.2 zero
    · exact iff_of_true ⟨_, rfl⟩ ⟨homeless, zero⟩
  · obtain ⟨partition, together⟩ := clusters_keep_units unique built
    refine ⟨partition, ?_⟩
    intro order member other memberOther located locatedOther linked
    have placed : order.taskId ∈ specs.flatMap (·.taskIds) := partition.symm.subset <|
      List.mem_map.mpr ⟨order, List.mem_filter.mpr ⟨member, decide_eq_true located⟩, rfl⟩
    obtain ⟨spec, listed, inside⟩ := List.mem_flatMap.mp placed
    refine ⟨spec, listed, inside, ?_⟩
    by_cases same : other.taskId = order.taskId
    · rw [same]
      exact inside
    apply together order member other memberOther located locatedOther _ spec listed inside
    rcases linked with ⟨some, depends⟩ | ⟨some, group⟩
    · exact exists_chain_unit unique acyclic member memberOther
        ⟨order, member, rfl, depends, depends ▸ some, same, List.mem_map_of_mem memberOther⟩
    · exact exists_shared_unit unique member memberOther some group

/-- Two depots, a task at each, and one of the tasks after the other. -/
def convoyInputs : ClusteringInputs where
  orders := [{ taskId := "t", locationRef := "f" },
    { taskId := "u", locationRef := "g", dependsOnTaskRef := "t" }]
  sites := ["f", "g"]
  depots := [{ locationId := "d" }, { locationId := "e" }]
  depotDistance order depot := if (order.locationRef = "f") = (depot.locationId = "d") then 1 else 2

theorem clusters_partition_convoy : ∃ specs, convoyInputs.buildClusterSpecsTo (-3) = .ok specs ∧
    ∃ spec ∈ specs, "u" ∈ spec.taskIds ∧ "t" ∈ spec.taskIds := by
  have edges : ∀ id up, convoyInputs.DependsOn id up → id = "u" ∧ up = "t" := by
    rintro id up ⟨order, member, rfl, rfl, some, -⟩
    rcases List.mem_cons.mp member with rfl | later
    · exact absurd rfl some
    · obtain rfl := List.mem_singleton.mp later
      exact ⟨rfl, rfl⟩
  have acyclic : convoyInputs.Acyclic := by
    intro id cycle
    obtain ⟨up, out, back⟩ := Relation.TransGen.head'_iff.mp cycle
    obtain ⟨rfl, rfl⟩ := edges id up out
    rcases Relation.ReflTransGen.cases_head back with same | ⟨next, further, -⟩
    · exact absurd same (by decide)
    · exact absurd (edges _ next further).1 (by decide)
  obtain ⟨returns, partition⟩ :=
    clusters_partition convoyInputs (-3) (by decide) acyclic
  obtain ⟨specs, built⟩ := returns.mpr ⟨by decide +kernel, by decide +kernel⟩
  exact ⟨specs, built, (partition specs built).2 _ (List.mem_cons_of_mem _ List.mem_cons_self) _
    List.mem_cons_self (by decide) (by decide) (.inl ⟨by decide, rfl⟩)⟩

/-- One order at a known site, and no depot. -/
def depotlessInputs : ClusteringInputs where
  orders := [{ taskId := "t", locationRef := "f" }]
  sites := ["f"]
  depots := []
  depotDistance _ _ := 0

theorem depotless_raises : ¬ ∀ (inputs : ClusteringInputs) (targetSize : ℤ),
    (inputs.orders.map (·.taskId)).Nodup → inputs.Acyclic →
    ∃ specs, inputs.buildClusterSpecsTo targetSize = .ok specs ∧
      (specs.flatMap (·.taskIds)).Perm
        ((inputs.orders.filter fun order => inputs.Located order).map (·.taskId)) := by
  intro all
  have acyclic : depotlessInputs.Acyclic := by
    have none : ∀ id up, ¬ depotlessInputs.DependsOn id up := by
      rintro id up ⟨order, member, -, rfl, some, -⟩
      obtain rfl := List.mem_singleton.mp member
      exact some rfl
    intro id cycle
    obtain ⟨up, out, -⟩ := Relation.TransGen.head'_iff.mp cycle
    exact none id up out
  obtain ⟨specs, built, -⟩ := all depotlessInputs 50 (by decide) acyclic
  have raises : (depotlessInputs.buildClusterSpecsTo 50).toOption.isSome = false := by
    decide +kernel
  rw [built] at raises
  cases raises

end FlOp.Solver
