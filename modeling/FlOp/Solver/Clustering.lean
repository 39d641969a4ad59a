import FlOp.Core.Numbers
import FlOp.Library.Numerals
import FlOp.Solver.Allocation
import Mathlib.Data.List.Pairwise

/-! # Clustering by depot

Each order goes to the depot nearest to its site; an order whose site is not known goes nowhere.
Tasks that depend on one another or stand for one another are kept in one unit, units at the
depot of their root, and the units of a depot are packed into clusters.
-/

namespace FlOp.Solver

open FlOp.Core Library

/-- Clusters of the standard size hold some task. -/
theorem standardTargetSize_pos : 0 < 50 := by
  decide

/-- What the clustering reads. How far a depot is from an order, on the network or in a straight
line, is given. -/
structure ClusteringInputs where
  orders : List OrderRow
  sites : List String
  depots : List DepotRow
  depotDistance : OrderRow → DepotRow → ℚ
  splitByOperation : Bool := false
  targetSize : ℕ := 50
  targetSize_pos : 0 < targetSize := by exact standardTargetSize_pos

/-- Pack units into chunks of about the target size. The first argument is the open chunk. -/
def packUnits (targetSize : ℕ) : List String → List (List String) → List (List String)
  | current, [] => if current = [] then [] else [current]
  | current, unit :: rest =>
    if current ≠ [] ∧ targetSize < current.length + unit.length then
      current :: packUnits targetSize unit rest
    else packUnits targetSize (current ++ unit) rest

/-- Consecutive slices of a list. -/
def slices (chunk : ℕ) (taskIds : List String) : List (List String) :=
  (List.range ((taskIds.length + chunk - 1) / chunk)).map fun i =>
    (taskIds.drop (i * chunk)).take chunk

/-- Split a list of tasks that need not stay together. -/
def splitIntoSubclusters (targetSize : ℕ) (taskIds : List String) : List (List String) :=
  if taskIds = [] then []
  else
    let nClusters := max 1 (roundHalfEven ((taskIds.length : ℚ) / targetSize)).toNat
    slices (max 1 (taskIds.length / nClusters)) taskIds

namespace ClusteringInputs

variable (inputs : ClusteringInputs)

/-- The site of the order is known. -/
def Located (order : OrderRow) : Prop := order.locationRef ∈ inputs.sites

instance (order : OrderRow) : Decidable (inputs.Located order) :=
  inferInstanceAs (Decidable (_ ∈ _))

/-- The first depot at the least distance. -/
def nearestDepot (order : OrderRow) : Option DepotRow :=
  firstMaxBy (fun depot => -inputs.depotDistance order depot) inputs.depots

def assignOrder (assignment : Dict String (List String)) (order : OrderRow) :
    Dict String (List String) :=
  match inputs.nearestDepot order with
  | some depot => assignment.push depot.locationId order.taskId
  | none => assignment

/-- The tasks of each depot. -/
def clusterOrdersByDepot : Dict String (List String) :=
  (inputs.orders.filter fun order => inputs.Located order).foldl inputs.assignOrder
    (Dict.collect (·.locationId) (fun _ => []) inputs.depots)

/-- The predecessor of each task, where it is another order. -/
def parent : Dict String String :=
  Dict.collect (·.taskId) (fun order =>
    if order.dependsOnTaskRef ∈ inputs.orders.map (·.taskId) ∧
        order.dependsOnTaskRef ≠ order.taskId then order.dependsOnTaskRef
    else "") inputs.orders

/-- Follow predecessors to the root; a task that leads into a cycle is its own root. Each step
sees a new task, so the number of orders bounds the steps. -/
def climb (taskId : String) : ℕ → List String → String → String
  | 0, _, current => current
  | fuel + 1, seen, current =>
    let up := inputs.parent.getD current ""
    if up = "" then current
    else if current ∈ seen then taskId
    else climb taskId fuel (current :: seen) up

def rootOf (taskId : String) : String := inputs.climb taskId (inputs.orders.length + 1) [] taskId

/-- Tasks by the root of their chain. -/
def chainUnits : Dict String (List String) :=
  Dict.groupBy (fun order => inputs.rootOf order.taskId) (·.taskId) inputs.orders

/-- The members of each alternative group. -/
def altGroups : Dict String (List String) :=
  Dict.groupBy (·.alternativeGroupRef) (·.taskId)
    (inputs.orders.filter fun order => order.alternativeGroupRef ≠ "")

end ClusteringInputs

/-- The unit of each task. -/
def unitOfTask (units : Dict String (List String)) : Dict String String :=
  Dict.collect Prod.snd Prod.fst (units.entries.flatMap fun unit => unit.2.map (unit.1, ·))

/-- Take units out and join their tasks. -/
def popUnits : Dict String (List String) → List String → List String →
    Dict String (List String) × List String
  | merged, combined, [] => (merged, combined)
  | merged, combined, root :: rest =>
    popUnits (merged.erase root) (combined ++ merged.getD root []) rest

/-- Merge the units that hold the members of a group into the first one. -/
def mergeGroup (state : Dict String (List String) × Dict String String) (members : List String) :
    Dict String (List String) × Dict String String :=
  let roots := members.map fun id => state.2.getD id id
  let target := roots.headD ""
  let popped := popUnits state.1 [] roots
  let unit := popped.2.reverse.dedup.reverse
  (popped.1.set target unit, unit.foldl (fun unitOf id => unitOf.set id target) state.2)

namespace ClusteringInputs

variable (inputs : ClusteringInputs)

/-- Keep alternatives in one unit. -/
def mergeAlternativeUnits (units : Dict String (List String)) : Dict String (List String) :=
  (inputs.altGroups.values.foldl mergeGroup (units, unitOfTask units)).1

/-- Tasks that have to stay together. -/
def dependencyUnits : Dict String (List String) :=
  inputs.mergeAlternativeUnits inputs.chainUnits

end ClusteringInputs

/-- The units collected at each depot, and the units of several tasks already collected. -/
structure RegroupState where
  grouped : Dict String (List (List String))
  emittedRoots : List String := []

/-- Collect the unit of a task, at the depot of its root if that has one. -/
def regroupTask (units : Dict String (List String)) (unitOf depotOf : Dict String String)
    (state : RegroupState) (task : String × String) : RegroupState :=
  let root := unitOf.getD task.2 task.2
  let members := units.getD root [task.2]
  if root ∈ state.emittedRoots then state
  else if members.length = 1 then { state with grouped := state.grouped.push task.1 [task.2] }
  else
    { grouped := state.grouped.push (depotOf.getD root task.1)
        (members.filter fun member => member ∈ depotOf.keys)
      emittedRoots := root :: state.emittedRoots }

/-- The tasks of an assignment with their depots. -/
def assignedTasks (assignment : Dict String (List String)) : List (String × String) :=
  assignment.entries.flatMap fun depot => depot.2.map (depot.1, ·)

/-- The units of each depot, every unit whole. -/
def regroupUnitsByRootDepot (assignment : Dict String (List String))
    (units : Dict String (List String)) : Dict String (List (List String)) :=
  let tasks := assignedTasks assignment
  (tasks.foldl (regroupTask units (unitOfTask units) (Dict.collect Prod.snd Prod.fst tasks))
    { grouped := Dict.collect id (fun _ => []) assignment.keys }).grouped

namespace ClusteringInputs

variable (inputs : ClusteringInputs)

def orderIndex : Dict String OrderRow := Dict.collect (·.taskId) id inputs.orders

/-- The operations of a unit. -/
def unitOperations (unit : List String) : List String :=
  (unit.map fun id => (inputs.orderIndex.get? id).elim "" (·.operationType)).dedup

/-- Pack units of one operation together; a unit of several operations stands alone. -/
def splitUnitsIntoOperationSubclusters (units : List (List String)) : List (List String) :=
  let grouped := Dict.groupBy (fun unit => (inputs.unitOperations unit).headD "") id
    (units.filter fun unit => ¬ 1 < (inputs.unitOperations unit).length)
  (sortBy Prod.fst grouped.entries).flatMap (fun entry => packUnits inputs.targetSize [] entry.2) ++
    units.filter fun unit => 1 < (inputs.unitOperations unit).length

/-- The same for any way of packing units. -/
def operationSubclusters (pack : List (List String) → List (List String))
    (units : List (List String)) : List (List String) :=
  let grouped := Dict.groupBy (fun unit => (inputs.unitOperations unit).headD "") id
    (units.filter fun unit => ¬ 1 < (inputs.unitOperations unit).length)
  (sortBy Prod.fst grouped.entries).flatMap (fun entry => pack entry.2) ++
    units.filter fun unit => 1 < (inputs.unitOperations unit).length

/-- Chunk units without splitting any of them. -/
def splitUnitsIntoSubclusters (units : List (List String)) : List (List String) :=
  if inputs.splitByOperation then inputs.splitUnitsIntoOperationSubclusters units
  else packUnits inputs.targetSize [] units

/-- The chunks of each depot. -/
def subclusters : List (String × List String) :=
  let assignment := inputs.clusterOrdersByDepot
  let units := inputs.dependencyUnits
  if (∃ unit ∈ units.values, 1 < unit.length) ∨ inputs.splitByOperation then
    let depotUnits := regroupUnitsByRootDepot assignment units
    assignment.keys.flatMap fun depot =>
      (inputs.splitUnitsIntoSubclusters (depotUnits.getD depot [])).map (depot, ·)
  else
    assignment.entries.flatMap fun depot =>
      (splitIntoSubclusters inputs.targetSize depot.2).map (depot.1, ·)

/-- The chunks of each depot where units and lists of tasks are split in some way. -/
def subclustersWith (splitUnits : List (List String) → List (List String))
    (splitTasks : List String → List (List String)) : List (String × List String) :=
  let assignment := inputs.clusterOrdersByDepot
  let units := inputs.dependencyUnits
  if (∃ unit ∈ units.values, 1 < unit.length) ∨ inputs.splitByOperation then
    let depotUnits := regroupUnitsByRootDepot assignment units
    assignment.keys.flatMap fun depot => (splitUnits (depotUnits.getD depot [])).map (depot, ·)
  else assignment.entries.flatMap fun depot => (splitTasks depot.2).map (depot.1, ·)

end ClusteringInputs

/-- The id of a cluster: its number with at least six digits. -/
def clusterIdOf (seq : ℕ) : String :=
  "cluster_" ++ String.ofList ((Nat.toDigits 10 seq).leftpad 6 '0')

/-- Clusters of chunks, numbered in order. -/
def ClusteringInputs.clusterSpecs (inputs : ClusteringInputs)
    (subclusters : List (String × List String)) : List DepotCluster :=
  subclusters.zipIdx.map fun entry =>
    { clusterId := clusterIdOf entry.2
      depotRef := entry.1.1
      taskIds := entry.1.2
      totalPenaltyPerDay :=
        (entry.1.2.map fun id => (inputs.orderIndex.get? id).elim 0 (·.penaltyPerDay)).sum }

/-- The clusters before allocation. -/
def buildClusterSpecs (inputs : ClusteringInputs) : List DepotCluster :=
  inputs.subclusters.zipIdx.map fun entry =>
    { clusterId := clusterIdOf entry.2
      depotRef := entry.1.1
      taskIds := entry.1.2
      totalPenaltyPerDay :=
        (entry.1.2.map fun id => (inputs.orderIndex.get? id).elim 0 (·.penaltyPerDay)).sum }

/-- Six digits hold the number of a cluster, more digits if it is larger. -/
theorem clusterIdOf_injective : Function.Injective clusterIdOf := by
  intro a b same
  have lists := congrArg String.toList same
  simp only [clusterIdOf, String.toList_append] at lists
  exact zeroPadded_injective 6 (String.toList_inj.mp (List.append_cancel_left lists))

section Chunks

theorem flatten_packUnits (targetSize : ℕ) (current : List String) (units : List (List String)) :
    (packUnits targetSize current units).flatten = current ++ units.flatten := by
  induction units generalizing current with
  | nil =>
    unfold packUnits
    split_ifs with empty
    · simp [empty]
    · simp
  | cons unit rest ih =>
    unfold packUnits
    split_ifs
    · rw [List.flatten_cons, ih, List.flatten_cons]
    · rw [ih, List.flatten_cons, List.append_assoc]

/-- No unit is split. -/
theorem exists_chunk_of_packUnits (targetSize : ℕ) (current : List String)
    {units : List (List String)} {unit : List String} (listed : unit = current ∨ unit ∈ units)
    (nonempty : unit ≠ []) : ∃ chunk ∈ packUnits targetSize current units, unit ⊆ chunk := by
  have grow : ∀ (units : List (List String)) (current : List String), current ≠ [] →
      ∃ chunk ∈ packUnits targetSize current units, current ⊆ chunk := by
    intro units
    induction units with
    | nil =>
      intro current filled
      rw [packUnits, if_neg filled]
      exact ⟨current, List.mem_cons_self, List.Subset.refl _⟩
    | cons unit rest ih =>
      intro current filled
      unfold packUnits
      split_ifs
      · exact ⟨current, List.mem_cons_self, List.Subset.refl _⟩
      · obtain ⟨chunk, listed, inside⟩ :=
          ih (current ++ unit) (List.append_ne_nil_of_left_ne_nil filled _)
        exact ⟨chunk, listed, List.Subset.trans (List.subset_append_left _ _) inside⟩
  rcases listed with rfl | listed
  · exact grow units unit nonempty
  · induction units generalizing current with
    | nil => cases listed
    | cons first rest ih =>
      unfold packUnits
      rcases List.mem_cons.mp listed with rfl | later
      · split_ifs
        · obtain ⟨chunk, member, inside⟩ := grow rest unit nonempty
          exact ⟨chunk, List.mem_cons_of_mem _ member, inside⟩
        · obtain ⟨chunk, member, inside⟩ :=
            grow rest (current ++ unit) (List.append_ne_nil_of_right_ne_nil _ nonempty)
          exact ⟨chunk, member, List.Subset.trans (List.subset_append_right _ _) inside⟩
      · split_ifs
        · obtain ⟨chunk, member, inside⟩ := ih first later
          exact ⟨chunk, List.mem_cons_of_mem _ member, inside⟩
        · exact ih _ later

/-- Slices put together are the list. -/
theorem flatten_slices {chunk : ℕ} (positive : 0 < chunk) (taskIds : List String) :
    (slices chunk taskIds).flatten = taskIds := by
  have covers : ∀ (count : ℕ) (taskIds : List String), taskIds.length ≤ count * chunk →
      ((List.range count).map fun i => (taskIds.drop (i * chunk)).take chunk).flatten =
        taskIds := by
    intro count
    induction count with
    | zero =>
      intro taskIds short
      rw [Nat.zero_mul, Nat.le_zero, List.length_eq_zero_iff] at short
      rw [short]
      rfl
    | succ count ih =>
      intro taskIds short
      have later : (taskIds.drop chunk).length ≤ count * chunk := by
        rw [List.length_drop]
        rw [Nat.succ_mul] at short
        omega
      have rest := ih (taskIds.drop chunk) later
      rw [List.range_succ_eq_map, List.map_cons, List.flatten_cons, List.map_map, Nat.zero_mul,
        List.drop_zero]
      conv_rhs => rw [← List.take_append_drop chunk taskIds, ← rest]
      congr 2
      apply List.map_congr_left
      intro i _
      rw [Function.comp_apply, List.drop_drop, Nat.succ_mul, Nat.add_comm]
  apply covers
  have bound := Nat.lt_div_mul_add (a := taskIds.length + chunk - 1) positive
  omega

theorem flatten_splitIntoSubclusters (targetSize : ℕ) (taskIds : List String) :
    (splitIntoSubclusters targetSize taskIds).flatten = taskIds := by
  unfold splitIntoSubclusters
  split_ifs with empty
  · rw [empty]
    rfl
  · exact flatten_slices (lt_of_lt_of_le Nat.zero_lt_one (le_max_left _ _)) taskIds

variable (inputs : ClusteringInputs)

/-- Packing the units of each operation apart moves them only. -/
theorem perm_operationSubclusters {pack : List (List String) → List (List String)}
    (packs : ∀ units, (pack units).flatten = units.flatten) (units : List (List String)) :
    (inputs.operationSubclusters pack units).flatten.Perm units.flatten := by
  rw [ClusteringInputs.operationSubclusters]
  let single := units.filter fun unit => ¬ 1 < (inputs.unitOperations unit).length
  let grouped := Dict.groupBy (fun unit => (inputs.unitOperations unit).headD "") id single
  have packed : ((sortBy Prod.fst grouped.entries).flatMap fun entry =>
      pack entry.2).flatten.Perm single.flatten := by
    have contents := Dict.perm_flatten_groupBy
      (fun unit => (inputs.unitOperations unit).headD "") id single
    rw [List.map_id] at contents
    refine List.Perm.trans ?_ contents.flatten
    rw [List.flatMap_def, List.flatten_flatten, List.map_map, Dict.values, List.flatten_flatten,
      List.map_map]
    refine ((perm_sortBy Prod.fst grouped.entries).map _).flatten.trans (.of_eq ?_)
    congr 1
    apply List.map_congr_left
    intro entry _
    exact packs entry.2
  rw [List.flatten_append]
  refine (packed.append_right _).trans ?_
  rw [← List.flatten_append]
  apply List.Perm.flatten
  have split := List.filter_append_perm
    (fun unit : List String => decide (1 < (inputs.unitOperations unit).length)) units
  simp only [← decide_not] at split
  exact List.perm_append_comm.trans split

/-- Where packing keeps units whole, packing the units of each operation apart does. -/
theorem exists_operationSubcluster {pack : List (List String) → List (List String)}
    (whole : ∀ units, ∀ unit ∈ units, unit ≠ [] → ∃ chunk ∈ pack units, unit ⊆ chunk)
    {units : List (List String)} {unit : List String} (listed : unit ∈ units)
    (nonempty : unit ≠ []) : ∃ chunk ∈ inputs.operationSubclusters pack units, unit ⊆ chunk := by
  rw [ClusteringInputs.operationSubclusters]
  by_cases several : 1 < (inputs.unitOperations unit).length
  · exact ⟨unit, List.mem_append_right _ (List.mem_filter.mpr ⟨listed, decide_eq_true several⟩),
      List.Subset.refl _⟩
  · let single := units.filter fun unit => ¬ 1 < (inputs.unitOperations unit).length
    have kept : unit ∈ single := List.mem_filter.mpr ⟨listed, decide_eq_true several⟩
    have contents := Dict.perm_flatten_groupBy
      (fun unit => (inputs.unitOperations unit).headD "") id single
    rw [List.map_id] at contents
    obtain ⟨key, group, found, inside⟩ :=
      Dict.exists_of_mem_flatten (contents.symm.subset kept)
    obtain ⟨chunk, packed, covered⟩ := whole group unit inside nonempty
    refine ⟨chunk, List.mem_append_left _ (List.mem_flatMap.mpr ⟨(key, group), ?_, packed⟩),
      covered⟩
    exact (mem_sortBy _ _).mpr ((Dict.get?_eq_some_iff _ _ _).mp found)

theorem flatten_packUnits_nil (targetSize : ℕ) (units : List (List String)) :
    (packUnits targetSize [] units).flatten = units.flatten :=
  (flatten_packUnits targetSize [] units).trans (List.nil_append _)

/-- The chunks of a depot hold its units. -/
theorem perm_splitUnitsIntoSubclusters (units : List (List String)) :
    (inputs.splitUnitsIntoSubclusters units).flatten.Perm units.flatten := by
  unfold ClusteringInputs.splitUnitsIntoSubclusters
  split_ifs
  · exact perm_operationSubclusters inputs (flatten_packUnits_nil inputs.targetSize) units
  · exact .of_eq (flatten_packUnits_nil inputs.targetSize units)

/-- No unit of a depot is split. -/
theorem exists_subcluster {units : List (List String)} {unit : List String}
    (listed : unit ∈ units) (nonempty : unit ≠ []) :
    ∃ chunk ∈ inputs.splitUnitsIntoSubclusters units, unit ⊆ chunk := by
  have whole : ∀ units : List (List String), ∀ unit ∈ units, unit ≠ [] →
      ∃ chunk ∈ packUnits inputs.targetSize [] units, unit ⊆ chunk :=
    fun _ _ inside nonempty => exists_chunk_of_packUnits inputs.targetSize [] (.inr inside) nonempty
  unfold ClusteringInputs.splitUnitsIntoSubclusters
  split_ifs
  · exact exists_operationSubcluster inputs whole listed nonempty
  · exact whole units unit listed nonempty

end Chunks

section Units

/-- The tasks in units, and the unit of each of them. -/
structure Units (taskIds : List String) (merged : Dict String (List String))
    (unitOf : Dict String String) : Prop where
  perm : merged.values.flatten.Perm taskIds
  home : ∀ root unit, merged.get? root = some unit → ∀ id ∈ unit, unitOf.get? id = some root

namespace Units

variable {taskIds : List String} {merged : Dict String (List String)}
  {unitOf : Dict String String}

/-- Every task is in the unit of its root. -/
theorem exists_unit (units : Units taskIds merged unitOf) {id : String} (member : id ∈ taskIds) :
    ∃ root unit, unitOf.get? id = some root ∧ merged.get? root = some unit ∧ id ∈ unit := by
  obtain ⟨root, unit, found, inside⟩ := Dict.exists_of_mem_flatten (units.perm.symm.subset member)
  exact ⟨root, unit, units.home root unit found id inside, found, inside⟩

/-- Units that partition the tasks, with the units read off. -/
theorem unitOfTask (perm : merged.values.flatten.Perm taskIds) (nodup : taskIds.Nodup) :
    Units taskIds merged (unitOfTask merged) where
  perm := perm
  home := by
    intro root unit found id inside
    have listed : (root, id) ∈ merged.entries.flatMap fun unit => unit.2.map (unit.1, ·) :=
      List.mem_flatMap.mpr ⟨(root, unit), (Dict.get?_eq_some_iff _ _ _).mp found,
        List.mem_map.mpr ⟨id, inside, rfl⟩⟩
    have keyed := (Dict.isSome_get?_collect Prod.snd Prod.fst
      (merged.entries.flatMap fun unit => unit.2.map (unit.1, ·)) id).mpr ⟨_, listed, rfl⟩
    obtain ⟨other, located⟩ := Option.isSome_iff_exists.mp keyed
    obtain ⟨⟨_, _⟩, entry, rfl, rfl⟩ := Dict.exists_of_get?_collect located
    obtain ⟨⟨key, group⟩, stored, placed⟩ := List.mem_flatMap.mp entry
    obtain ⟨task, member, same⟩ := List.mem_map.mp placed
    cases same
    have sameRoot := Dict.eq_of_mem_lists (perm.nodup_iff.mpr nodup) found inside
      ((Dict.get?_eq_some_iff _ _ _).mpr stored) member
    rw [FlOp.Solver.unitOfTask, located, sameRoot]

end Units

variable {merged : Dict String (List String)} {combined roots : List String}

/-- Popping units moves their tasks. -/
theorem perm_popUnits (merged : Dict String (List String)) (combined roots : List String) :
    ((popUnits merged combined roots).2 ++
      (popUnits merged combined roots).1.values.flatten).Perm
        (combined ++ merged.values.flatten) := by
  induction roots generalizing merged combined with
  | nil => exact .refl _
  | cons root rest ih =>
    refine (ih _ _).trans ?_
    rw [List.append_assoc]
    exact (merged.perm_flatten_erase root).symm.append_left combined

theorem get?_popUnits (merged : Dict String (List String)) (combined roots : List String)
    (key : String) : (popUnits merged combined roots).1.get? key =
      if key ∈ roots then none else merged.get? key := by
  induction roots generalizing merged combined with
  | nil => rfl
  | cons root rest ih =>
    rw [popUnits, ih, Dict.get?_erase]
    by_cases head : key = root
    · simp [head]
    · simp [head]

/-- What is popped joins what was joined before. -/
theorem subset_popUnits {unit : List String} (member : unit ⊆ combined ∨
    ∃ root ∈ roots, merged.get? root = some unit) :
    unit ⊆ (popUnits merged combined roots).2 := by
  induction roots generalizing merged combined with
  | nil =>
    rcases member with old | ⟨root, listed, -⟩
    · exact old
    · cases listed
  | cons root rest ih =>
    apply ih
    rcases member with old | ⟨other, listed, found⟩
    · exact .inl (List.Subset.trans old (List.subset_append_left _ _))
    · by_cases same : other = root
      · left
        rw [same] at found
        rw [Dict.getD, found]
        exact List.subset_append_right _ _
      · refine .inr ⟨other, (List.mem_cons.mp listed).resolve_left same, ?_⟩
        rw [Dict.get?_erase, if_neg same]
        exact found

theorem get?_foldl_set_const (unit : List String) (target : String) (unitOf : Dict String String)
    (key : String) : (unit.foldl (fun unitOf id => unitOf.set id target) unitOf).get? key =
      if key ∈ unit then some target else unitOf.get? key := by
  induction unit generalizing unitOf with
  | nil => rfl
  | cons id rest ih =>
    rw [List.foldl_cons, ih, Dict.get?_set]
    by_cases head : key = id
    · simp [head]
    · simp [head]

/-- The roots of the units that hold the members of a group. -/
abbrev rootsOf (unitOf : Dict String String) (members : List String) : List String :=
  members.map fun id => unitOf.getD id id

/-- The tasks of the units that hold the members of a group. -/
abbrev joined (merged : Dict String (List String)) (unitOf : Dict String String)
    (members : List String) : List String :=
  (popUnits merged [] (rootsOf unitOf members)).2

section Merge

variable {taskIds members : List String} {unitOf : Dict String String}

theorem perm_joined (units : Units taskIds merged unitOf) (members : List String) :
    (joined merged unitOf members ++
      (popUnits merged [] (rootsOf unitOf members)).1.values.flatten).Perm taskIds :=
  (perm_popUnits merged [] (rootsOf unitOf members)).trans units.perm

/-- The tasks that are joined are distinct, so none is dropped as a duplicate. -/
theorem mergeGroup_eq (units : Units taskIds merged unitOf) (nodup : taskIds.Nodup) :
    mergeGroup (merged, unitOf) members =
      ((popUnits merged [] (rootsOf unitOf members)).1.set ((rootsOf unitOf members).headD "")
          (joined merged unitOf members),
        (joined merged unitOf members).foldl
          (fun filed id => filed.set id ((rootsOf unitOf members).headD "")) unitOf) := by
  have whole := (perm_joined units members).nodup_iff.mpr nodup
  have distinct : (joined merged unitOf members).reverse.Nodup :=
    List.nodup_reverse.mpr whole.of_append_left
  simp only [mergeGroup, distinct.dedup, List.reverse_reverse]

theorem get?_mergeGroup (units : Units taskIds merged unitOf) (nodup : taskIds.Nodup)
    (key : String) : (mergeGroup (merged, unitOf) members).1.get? key =
      if key = (rootsOf unitOf members).headD "" then some (joined merged unitOf members)
      else if key ∈ rootsOf unitOf members then none else merged.get? key := by
  rw [mergeGroup_eq units nodup, Dict.get?_set, get?_popUnits]

theorem headD_mem_rootsOf (nonempty : members ≠ []) :
    (rootsOf unitOf members).headD "" ∈ rootsOf unitOf members := by
  obtain ⟨first, rest, rfl⟩ := List.exists_cons_of_ne_nil nonempty
  exact List.mem_cons_self

/-- The members of a group are joined. -/
theorem subset_joined (units : Units taskIds merged unitOf) (known : members ⊆ taskIds) :
    members ⊆ joined merged unitOf members := by
  intro id member
  obtain ⟨root, old, located, found, inside⟩ := units.exists_unit (known member)
  have listed : root ∈ rootsOf unitOf members :=
    List.mem_map.mpr ⟨id, member, by rw [Dict.getD, located, Option.getD_some]⟩
  exact subset_popUnits (.inr ⟨root, listed, found⟩) inside

/-- A unit is part of one after the merge. -/
theorem grows_mergeGroup (units : Units taskIds merged unitOf) (nodup : taskIds.Nodup)
    (nonempty : members ≠ []) {root : String} {unit : List String}
    (found : merged.get? root = some unit) :
    ∃ root' unit', (mergeGroup (merged, unitOf) members).1.get? root' = some unit' ∧
      unit ⊆ unit' := by
  by_cases listed : root ∈ rootsOf unitOf members
  · refine ⟨(rootsOf unitOf members).headD "", joined merged unitOf members, ?_, ?_⟩
    · rw [get?_mergeGroup units nodup, if_pos rfl]
    · exact subset_popUnits (.inr ⟨root, listed, found⟩)
  · have other : root ≠ (rootsOf unitOf members).headD "" :=
      fun same => listed (same ▸ headD_mem_rootsOf nonempty)
    refine ⟨root, unit, ?_, List.Subset.refl _⟩
    rw [get?_mergeGroup units nodup, if_neg other, if_neg listed, found]

/-- Merging a group keeps the tasks in units. -/
theorem units_mergeGroup (units : Units taskIds merged unitOf) (nodup : taskIds.Nodup)
    (nonempty : members ≠ []) :
    Units taskIds (mergeGroup (merged, unitOf) members).1
      (mergeGroup (merged, unitOf) members).2 where
  perm := by
    have absent : (popUnits merged [] (rootsOf unitOf members)).1.get?
        ((rootsOf unitOf members).headD "") = none := by
      rw [get?_popUnits, if_pos (headD_mem_rootsOf nonempty)]
    rw [mergeGroup_eq units nodup]
    exact (Dict.perm_flatten_set absent _).trans (perm_joined units members)
  home root unit found id inside := by
    rw [get?_mergeGroup units nodup] at found
    rw [mergeGroup_eq units nodup]
    dsimp only
    rw [get?_foldl_set_const]
    split_ifs at found with same popped
    · cases found
      rw [if_pos inside, same]
    · have left : unit ∈ (popUnits merged [] (rootsOf unitOf members)).1.values := by
        refine List.mem_map.mpr ⟨(root, unit), (Dict.get?_eq_some_iff _ _ _).mp ?_, rfl⟩
        rw [get?_popUnits, if_neg popped, found]
      have unjoined : id ∉ joined merged unitOf members := fun here =>
        List.disjoint_of_nodup_append ((perm_joined units members).nodup_iff.mpr nodup) here
          (List.mem_flatten.mpr ⟨unit, left, inside⟩)
      rw [if_neg unjoined, units.home root unit found id inside]

end Merge

/-- Merging several groups puts each of them into one unit. -/
theorem units_foldl_mergeGroup {taskIds : List String} (nodup : taskIds.Nodup)
    {groups : List (List String)} (nonempty : ∀ members ∈ groups, members ≠ [])
    (known : ∀ members ∈ groups, members ⊆ taskIds)
    (state : Dict String (List String) × Dict String String)
    (units : Units taskIds state.1 state.2) :
    Units taskIds (groups.foldl mergeGroup state).1 (groups.foldl mergeGroup state).2 ∧
      (∀ members ∈ groups, ∃ root unit,
        (groups.foldl mergeGroup state).1.get? root = some unit ∧ members ⊆ unit) ∧
      ∀ root unit, state.1.get? root = some unit →
        ∃ root' unit', (groups.foldl mergeGroup state).1.get? root' = some unit' ∧
          unit ⊆ unit' := by
  induction groups generalizing state with
  | nil =>
    refine ⟨units, ?_, ?_⟩
    · intro members member
      cases member
    · intro root unit found
      exact ⟨root, unit, found, List.Subset.refl _⟩
  | cons members rest ih =>
    obtain ⟨merged, unitOf⟩ := state
    have filled := nonempty members List.mem_cons_self
    have next := units_mergeGroup units nodup filled
    have inside := subset_joined units (known members List.mem_cons_self)
    have found : (mergeGroup (merged, unitOf) members).1.get?
        ((rootsOf unitOf members).headD "") = some (joined merged unitOf members) := by
      rw [get?_mergeGroup units nodup, if_pos rfl]
    obtain ⟨final, later, keptLater⟩ :=
      ih (fun other member => nonempty other (List.mem_cons_of_mem _ member))
        (fun other member => known other (List.mem_cons_of_mem _ member)) _ next
    refine ⟨final, ?_, ?_⟩
    · intro other member
      rcases List.mem_cons.mp member with rfl | inRest
      · obtain ⟨root', unit', found', larger⟩ := keptLater _ _ found
        exact ⟨root', unit', found', List.Subset.trans inside larger⟩
      · exact later other inRest
    · intro root unit found
      obtain ⟨root', unit', found', larger⟩ := grows_mergeGroup units nodup filled found
      obtain ⟨root'', unit'', found'', largest⟩ := keptLater root' unit' found'
      exact ⟨root'', unit'', found'', List.Subset.trans larger largest⟩

variable (inputs : ClusteringInputs)

/-- The units hold every order once, each alternative group is in one of them, and so is each
chain. -/
theorem perm_dependencyUnits (unique : (inputs.orders.map (·.taskId)).Nodup) :
    inputs.dependencyUnits.values.flatten.Perm (inputs.orders.map (·.taskId)) ∧
      (∀ members ∈ inputs.altGroups.values,
        ∃ root unit, inputs.dependencyUnits.get? root = some unit ∧ members ⊆ unit) ∧
      ∀ root chain, inputs.chainUnits.get? root = some chain →
        ∃ root' unit, inputs.dependencyUnits.get? root' = some unit ∧ chain ⊆ unit := by
  have start : Units (inputs.orders.map (·.taskId)) inputs.chainUnits
      (unitOfTask inputs.chainUnits) :=
    Units.unitOfTask (Dict.perm_flatten_groupBy _ _ _) unique
  have grouped : inputs.altGroups.values.flatten.Perm
      ((inputs.orders.filter fun order => order.alternativeGroupRef ≠ "").map (·.taskId)) :=
    Dict.perm_flatten_groupBy _ _ _
  have nonempty : ∀ members ∈ inputs.altGroups.values, members ≠ [] := by
    intro members listed
    obtain ⟨⟨group, _⟩, entry, rfl⟩ := List.mem_map.mp listed
    obtain ⟨order, member, same⟩ :=
      (Dict.mem_keys_groupBy _ _ _ group).mp (List.mem_map.mpr ⟨_, entry, rfl⟩)
    rw [Dict.mem_entries_groupBy entry]
    refine List.ne_nil_of_mem (List.mem_map.mpr ⟨order, List.mem_filter.mpr ⟨member, ?_⟩, rfl⟩)
    exact decide_eq_true same
  have known : ∀ members ∈ inputs.altGroups.values, members ⊆ inputs.orders.map (·.taskId) := by
    intro members listed id inside
    have held := grouped.subset (List.mem_flatten.mpr ⟨members, listed, inside⟩)
    exact (List.filter_sublist.map _).subset held
  obtain ⟨final, whole, grown⟩ := units_foldl_mergeGroup unique nonempty known
    (inputs.chainUnits, unitOfTask inputs.chainUnits) start
  exact ⟨final.perm, whole, grown⟩

end Units

section Regroup

/-- The facts under which tasks are regrouped: they are in units, and each has one depot. -/
structure Regrouping (taskIds : List String) (units : Dict String (List String))
    (assignment : Dict String (List String)) : Prop where
  units : Units taskIds units (unitOfTask units)
  nodup : taskIds.Nodup
  known : assignment.values.flatten ⊆ taskIds
  once : assignment.values.flatten.Nodup

theorem map_snd_assignedTasks (assignment : Dict String (List String)) :
    (assignedTasks assignment).map Prod.snd = assignment.values.flatten := by
  rw [assignedTasks, List.map_flatMap, List.flatMap_def, Dict.values]
  congr 1
  apply List.map_congr_left
  intro entry _
  rw [List.map_map]
  exact List.map_id _

variable {taskIds processed : List String} {units assignment : Dict String (List String)}
  {state : RegroupState}

/-- The depot of each assigned task. -/
abbrev depotOfTask (assignment : Dict String (List String)) : Dict String String :=
  Dict.collect Prod.snd Prod.fst (assignedTasks assignment)

theorem mem_keys_depotOfTask {id : String} :
    id ∈ (depotOfTask assignment).keys ↔ id ∈ assignment.values.flatten := by
  rw [Dict.mem_keys_iff, Dict.isSome_get?_collect, ← map_snd_assignedTasks, List.mem_map]

/-- The assigned tasks of a unit. -/
abbrev assignedPart (assignment : Dict String (List String)) (unit : List String) : List String :=
  unit.filter fun id => id ∈ (depotOfTask assignment).keys

/-- What is collected when some tasks are processed: those tasks and the units emitted for them,
each once, at depots of the assignment. -/
structure Regrouped (units assignment : Dict String (List String)) (processed : List String)
    (state : RegroupState) : Prop where
  nodup : state.grouped.values.flatten.flatten.Nodup
  held : processed ⊆ state.grouped.values.flatten.flatten
  source : ∀ id ∈ state.grouped.values.flatten.flatten, id ∈ assignment.values.flatten ∧
    ∃ root unit, units.get? root = some unit ∧ id ∈ unit ∧
      (root ∈ state.emittedRoots ∨ unit.length = 1 ∧ id ∈ processed)
  emitted : ∀ root ∈ state.emittedRoots, ∃ unit, units.get? root = some unit ∧
    unit.length ≠ 1 ∧ assignedPart assignment unit ∈ state.grouped.values.flatten
  several : ∀ id ∈ processed, ∃ root unit, units.get? root = some unit ∧ id ∈ unit ∧
    (root ∈ state.emittedRoots ∨ unit.length = 1)
  keys : state.grouped.keys = assignment.keys

/-- Pushing a unit at a depot of the dictionary. -/
theorem perm_flatten_push_units (grouped : Dict String (List (List String))) (depot : String)
    (unit : List String) :
    (grouped.push depot unit).values.flatten.flatten.Perm (unit ++ grouped.values.flatten.flatten) :=
  (Dict.perm_flatten_push grouped depot unit).flatten

theorem keys_push_units {grouped : Dict String (List (List String))} {depot : String}
    (present : depot ∈ grouped.keys) (unit : List String) :
    (grouped.push depot unit).keys = grouped.keys :=
  Dict.keys_set present _

/-- The unit of a task is the only one it is in. -/
theorem Regrouping.only (regrouping : Regrouping taskIds units assignment) {id root root' : String}
    {unit unit' : List String} (found : units.get? root = some unit) (inside : id ∈ unit)
    (found' : units.get? root' = some unit') (inside' : id ∈ unit') :
    root' = root ∧ unit' = unit := by
  have unitsNodup := regrouping.units.perm.nodup_iff.mpr regrouping.nodup
  obtain rfl := Dict.eq_of_mem_lists unitsNodup found inside found' inside'
  exact ⟨rfl, Option.some.inj (found'.symm.trans found)⟩

theorem Regrouping.nodup_unit (regrouping : Regrouping taskIds units assignment) {root : String}
    {unit : List String} (found : units.get? root = some unit) : unit.Nodup := by
  have unitsNodup := regrouping.units.perm.nodup_iff.mpr regrouping.nodup
  have listed := (Dict.get?_eq_some_iff _ _ _).mp found
  exact (List.nodup_flatten.mp unitsNodup).1 unit (List.mem_map.mpr ⟨_, listed, rfl⟩)

/-- A task whose unit was emitted is collected already. -/
theorem Regrouped.again (regrouped : Regrouped units assignment processed state) {id root : String}
    {unit : List String} (found : units.get? root = some unit) (inside : id ∈ unit)
    (assigned : id ∈ assignment.values.flatten) (emitted : root ∈ state.emittedRoots) :
    Regrouped units assignment (id :: processed) state := by
  refine { regrouped with held := ?_, source := ?_, several := ?_ }
  · intro other member
    rcases List.mem_cons.mp member with rfl | old
    · obtain ⟨unit', found', -, whole⟩ := regrouped.emitted root emitted
      obtain rfl : unit' = unit := Option.some.inj (found'.symm.trans found)
      refine List.mem_flatten.mpr ⟨_, whole, List.mem_filter.mpr ⟨inside, ?_⟩⟩
      exact decide_eq_true (mem_keys_depotOfTask.mpr assigned)
    · exact regrouped.held old
  · intro other member
    obtain ⟨known, root', unit', found', inside', earlier | ⟨one, old⟩⟩ :=
      regrouped.source other member
    · exact ⟨known, root', unit', found', inside', .inl earlier⟩
    · exact ⟨known, root', unit', found', inside', .inr ⟨one, List.mem_cons_of_mem _ old⟩⟩
  · intro other member
    rcases List.mem_cons.mp member with rfl | old
    · exact ⟨root, unit, found, inside, .inl emitted⟩
    · exact regrouped.several other old

/-- A part of a unit is pushed at a depot: one task of its own, or all assigned tasks of a unit
whose root is then marked. -/
theorem Regrouped.push (regrouped : Regrouped units assignment processed state)
    {depot id root : String} {unit part : List String} {roots : List String}
    (present : depot ∈ assignment.keys) (found : units.get? root = some unit)
    (nodup : part.Nodup) (inside : id ∈ part)
    (apart : ∀ other ∈ part, other ∉ state.grouped.values.flatten.flatten)
    (given : ∀ other ∈ part, other ∈ unit ∧ other ∈ assignment.values.flatten)
    (earlier : state.emittedRoots ⊆ roots)
    (marked : root ∈ roots ∨ unit.length = 1 ∧ part = [id])
    (emitted : ∀ other ∈ roots, other ∈ state.emittedRoots ∨
      other = root ∧ unit.length ≠ 1 ∧ assignedPart assignment unit = part) :
    Regrouped units assignment (id :: processed)
      { grouped := state.grouped.push depot part, emittedRoots := roots } := by
  have added := perm_flatten_push_units state.grouped depot part
  have pushed := Dict.perm_flatten_push state.grouped depot part
  refine ⟨?_, ?_, ?_, ?_, ?_, ?_⟩
  · exact added.nodup_iff.mpr (List.Nodup.append nodup regrouped.nodup
      fun other member => apart other member)
  · intro other member
    apply added.symm.subset
    rcases List.mem_cons.mp member with rfl | old
    · exact List.mem_append_left _ inside
    · exact List.mem_append_right _ (regrouped.held old)
  · intro other member
    rcases List.mem_append.mp (added.subset member) with new | old
    · refine ⟨(given other new).2, root, unit, found, (given other new).1, ?_⟩
      refine marked.imp_right fun ⟨one, alone⟩ => ⟨one, ?_⟩
      rw [alone] at new
      exact List.mem_cons.mpr (.inl (List.mem_singleton.mp new))
    · obtain ⟨known, root', unit', found', inside', early | ⟨one, old⟩⟩ :=
        regrouped.source other old
      · exact ⟨known, root', unit', found', inside', .inl (earlier early)⟩
      · exact ⟨known, root', unit', found', inside', .inr ⟨one, List.mem_cons_of_mem _ old⟩⟩
  · intro other listed
    rcases emitted other listed with early | ⟨rfl, several, whole⟩
    · obtain ⟨unit', found', several, whole⟩ := regrouped.emitted other early
      exact ⟨unit', found', several, pushed.symm.subset (List.mem_cons_of_mem _ whole)⟩
    · exact ⟨unit, found, several, pushed.symm.subset (whole ▸ List.mem_cons_self)⟩
  · intro other member
    rcases List.mem_cons.mp member with rfl | old
    · exact ⟨root, unit, found, (given other inside).1, marked.imp_right And.left⟩
    · obtain ⟨root', unit', found', inside', early | one⟩ := regrouped.several other old
      · exact ⟨root', unit', found', inside', .inl (earlier early)⟩
      · exact ⟨root', unit', found', inside', .inr one⟩
  · exact (keys_push_units (regrouped.keys ▸ present) _).trans regrouped.keys

/-- The depot of an assigned task is one of the assignment. -/
theorem getD_depotOfTask {root depot : String} (present : depot ∈ assignment.keys) :
    (depotOfTask assignment).getD root depot ∈ assignment.keys := by
  rw [Dict.getD]
  cases stored : (depotOfTask assignment).get? root with
  | none => exact present
  | some home =>
    obtain ⟨⟨_, _⟩, entry, rfl, rfl⟩ := Dict.exists_of_get?_collect stored
    obtain ⟨⟨key, tasks⟩, listed, placed⟩ := List.mem_flatMap.mp entry
    obtain ⟨task, -, same⟩ := List.mem_map.mp placed
    cases same
    exact List.mem_map.mpr ⟨_, listed, rfl⟩

/-- One task keeps the collection in order. -/
theorem Regrouping.step (regrouping : Regrouping taskIds units assignment)
    (regrouped : Regrouped units assignment processed state) {depot id : String}
    (assigned : id ∈ assignment.values.flatten) (present : depot ∈ assignment.keys)
    (fresh : id ∉ processed) :
    Regrouped units assignment (id :: processed)
      (regroupTask units (unitOfTask units) (depotOfTask assignment) state (depot, id)) := by
  obtain ⟨root, unit, located, found, inside⟩ :=
    regrouping.units.exists_unit (regrouping.known assigned)
  have rootIs : (unitOfTask units).getD id id = root := by
    rw [Dict.getD, located, Option.getD_some]
  have membersAre : units.getD root [id] = unit := by
    rw [Dict.getD, found, Option.getD_some]
  unfold regroupTask
  simp only [rootIs, membersAre]
  split_ifs with again single
  · exact regrouped.again found inside assigned again
  · refine regrouped.push present found (List.nodup_singleton id) List.mem_cons_self ?_ ?_
      (List.Subset.refl _) (.inr ⟨single, rfl⟩) fun other listed => .inl listed
    · intro other member collected
      obtain rfl := List.mem_singleton.mp member
      obtain ⟨-, root', unit', found', inside', emitted | ⟨-, old⟩⟩ :=
        regrouped.source other collected
      · obtain ⟨rfl, -⟩ := regrouping.only found inside found' inside'
        exact again emitted
      · exact fresh old
    · intro other member
      obtain rfl := List.mem_singleton.mp member
      exact ⟨inside, assigned⟩
  · have given : ∀ other ∈ assignedPart assignment unit,
        other ∈ unit ∧ other ∈ assignment.values.flatten := by
      intro other member
      obtain ⟨inUnit, keyed⟩ := List.mem_filter.mp member
      exact ⟨inUnit, mem_keys_depotOfTask.mp (of_decide_eq_true keyed)⟩
    refine regrouped.push (getD_depotOfTask present) found
      ((regrouping.nodup_unit found).sublist List.filter_sublist) ?_ ?_ given ?_ ?_ ?_
    · exact List.mem_filter.mpr ⟨inside, decide_eq_true (mem_keys_depotOfTask.mpr assigned)⟩
    · intro other member collected
      obtain ⟨-, root', unit', found', inside', emitted | ⟨one, -⟩⟩ :=
        regrouped.source other collected
      · obtain ⟨rfl, -⟩ := regrouping.only found (given other member).1 found' inside'
        exact again emitted
      · obtain ⟨-, rfl⟩ := regrouping.only found (given other member).1 found' inside'
        exact single one
    · exact List.subset_cons_self _ _
    · exact .inl List.mem_cons_self
    · intro other listed
      rcases List.mem_cons.mp listed with rfl | early
      · exact .inr ⟨rfl, single, rfl⟩
      · exact .inl early

/-- Several tasks keep the collection in order. -/
theorem Regrouping.run (regrouping : Regrouping taskIds units assignment)
    {tasks : List (String × String)} (listed : tasks ⊆ assignedTasks assignment)
    (fresh : (processed ++ tasks.map Prod.snd).Nodup)
    (regrouped : Regrouped units assignment processed state) :
    ∃ all, (processed ++ tasks.map Prod.snd) ⊆ all ∧ Regrouped units assignment all
      (tasks.foldl (regroupTask units (unitOfTask units) (depotOfTask assignment)) state) := by
  induction tasks generalizing processed state with
  | nil => exact ⟨processed, by simp, regrouped⟩
  | cons task rest ih =>
    obtain ⟨depot, id⟩ := task
    have member := listed List.mem_cons_self
    have assigned : id ∈ assignment.values.flatten := by
      rw [← map_snd_assignedTasks]
      exact List.mem_map.mpr ⟨_, member, rfl⟩
    have present : depot ∈ assignment.keys := by
      obtain ⟨⟨key, tasks⟩, entry, placed⟩ := List.mem_flatMap.mp member
      obtain ⟨task, -, same⟩ := List.mem_map.mp placed
      cases same
      exact List.mem_map.mpr ⟨_, entry, rfl⟩
    have moved : ((id :: processed) ++ rest.map Prod.snd).Perm
        (processed ++ ((depot, id) :: rest).map Prod.snd) := List.perm_middle.symm
    have distinct := moved.nodup_iff.mpr fresh
    have new : id ∉ processed := fun old =>
      (List.nodup_cons.mp distinct).1 (List.mem_append_left _ old)
    obtain ⟨all, larger, final⟩ := ih (fun _ later => listed (List.mem_cons_of_mem _ later))
      distinct (regrouping.step regrouped assigned present new)
    exact ⟨all, fun _ member => larger (moved.symm.subset member), final⟩

/-- Regrouping moves each assigned task to one unit of one depot, and keeps units whole. -/
theorem Regrouping.result (regrouping : Regrouping taskIds units assignment) :
    (regroupUnitsByRootDepot assignment units).values.flatten.flatten.Perm
        assignment.values.flatten ∧
      (regroupUnitsByRootDepot assignment units).keys = assignment.keys ∧
      ∀ root unit, units.get? root = some unit →
        ∀ id ∈ unit, id ∈ assignment.values.flatten →
          ∃ whole ∈ (regroupUnitsByRootDepot assignment units).values.flatten,
            id ∈ whole ∧ assignedPart assignment unit ⊆ whole := by
  have start : Regrouped units assignment []
      { grouped := Dict.collect id (fun _ => []) assignment.keys } := by
    refine ⟨?_, List.nil_subset _, ?_, by simp, by simp,
      Dict.keys_collect_id _ assignment.nodupKeys⟩
    · rw [Dict.flatten_collect_nil]
      exact List.nodup_nil
    · intro id member
      rw [Dict.flatten_collect_nil] at member
      cases member
  have once : ([] ++ (assignedTasks assignment).map Prod.snd).Nodup := by
    rw [List.nil_append, map_snd_assignedTasks]
    exact regrouping.once
  obtain ⟨all, larger, final⟩ := regrouping.run (List.Subset.refl _) once start
  rw [List.nil_append, map_snd_assignedTasks] at larger
  refine ⟨?_, final.keys, ?_⟩
  · apply (List.perm_ext_iff_of_nodup final.nodup regrouping.once).mpr
    intro id
    exact ⟨fun member => (final.source id member).1, fun member => final.held (larger member)⟩
  · intro root unit found id inside assigned
    obtain ⟨root', unit', found', inside', emitted | one⟩ := final.several id (larger assigned)
    · obtain ⟨same, found'', -, whole⟩ := final.emitted root' emitted
      have unitsNodup := regrouping.units.perm.nodup_iff.mpr regrouping.nodup
      obtain rfl := Dict.eq_of_mem_lists unitsNodup found inside found' inside'
      obtain rfl : same = unit := Option.some.inj (found''.symm.trans found)
      refine ⟨_, whole, List.mem_filter.mpr ⟨inside, ?_⟩, List.Subset.refl _⟩
      exact decide_eq_true (mem_keys_depotOfTask.mpr assigned)
    · have unitsNodup := regrouping.units.perm.nodup_iff.mpr regrouping.nodup
      obtain rfl := Dict.eq_of_mem_lists unitsNodup found inside found' inside'
      obtain rfl : unit' = unit := Option.some.inj (found'.symm.trans found)
      obtain ⟨whole, listed, held⟩ := List.mem_flatten.mp (final.held (larger assigned))
      refine ⟨whole, listed, held, ?_⟩
      obtain ⟨only, rfl⟩ := List.length_eq_one_iff.mp one
      obtain rfl := List.mem_singleton.mp inside
      intro other member
      obtain rfl := List.mem_singleton.mp (List.mem_filter.mp member).1
      exact held

end Regroup

section Specs

variable (inputs : ClusteringInputs)

/-- With a depot, every order with a known site is assigned to one. -/
theorem perm_clusterOrdersByDepot (depots : inputs.depots ≠ []) :
    inputs.clusterOrdersByDepot.values.flatten.Perm
      ((inputs.orders.filter fun order => inputs.Located order).map (·.taskId)) := by
  have assigned : ∀ (orders : List OrderRow) (assignment : Dict String (List String)),
      (orders.foldl inputs.assignOrder assignment).values.flatten.Perm
        (orders.map (·.taskId) ++ assignment.values.flatten) := by
    intro orders
    induction orders with
    | nil => exact fun assignment => .refl _
    | cons order rest ih =>
      intro assignment
      obtain ⟨depot, nearest⟩ := Option.isSome_iff_exists.mp
        (isSome_firstMaxBy (fun depot => -inputs.depotDistance order depot) depots)
      have pushed : inputs.assignOrder assignment order =
          assignment.push depot.locationId order.taskId := by
        rw [ClusteringInputs.assignOrder, ClusteringInputs.nearestDepot, nearest]
      rw [List.foldl_cons, pushed]
      refine (ih _).trans (((Dict.perm_flatten_push _ _ _).append_left _).trans ?_)
      exact List.perm_middle
  refine (assigned _ _).trans (.of_eq ?_)
  rw [Dict.flatten_collect_nil, List.append_nil]

/-- Ways of splitting that lose and repeat no task and keep every unit whole. -/
structure Splitting (splitUnits : List (List String) → List (List String))
    (splitTasks : List String → List (List String)) : Prop where
  units : ∀ units, (splitUnits units).flatten.Perm units.flatten
  whole : ∀ units, ∀ unit ∈ units, unit ≠ [] → ∃ chunk ∈ splitUnits units, unit ⊆ chunk
  tasks : ∀ taskIds, (splitTasks taskIds).flatten = taskIds

theorem splitting : Splitting inputs.splitUnitsIntoSubclusters
    (splitIntoSubclusters inputs.targetSize) where
  units := perm_splitUnitsIntoSubclusters inputs
  whole _ _ listed nonempty := exists_subcluster inputs listed nonempty
  tasks := flatten_splitIntoSubclusters inputs.targetSize

variable {inputs} {splitUnits : List (List String) → List (List String)}
  {splitTasks : List String → List (List String)}

/-- The tasks of the chunks of a depot are those of its units. -/
theorem Splitting.perm_depotChunks (splitting : Splitting splitUnits splitTasks)
    (depotUnits : Dict String (List (List String))) :
    (depotUnits.keys.flatMap fun depot => (splitUnits (depotUnits.getD depot [])).flatten).Perm
      depotUnits.values.flatten.flatten := by
  rw [← Dict.map_getD_keys depotUnits [], List.flatten_flatten, List.map_map, ← List.flatMap_def]
  apply List.Perm.flatMap_left
  intro depot _
  exact splitting.units _

theorem regrouping (unique : (inputs.orders.map (·.taskId)).Nodup) (depots : inputs.depots ≠ []) :
    Regrouping (inputs.orders.map (·.taskId)) inputs.dependencyUnits
      inputs.clusterOrdersByDepot := by
  have assigned := perm_clusterOrdersByDepot inputs depots
  have located : ((inputs.orders.filter fun order => inputs.Located order).map
      (·.taskId)).Sublist (inputs.orders.map (·.taskId)) := List.filter_sublist.map _
  refine ⟨Units.unitOfTask (perm_dependencyUnits inputs unique).1 unique, unique, ?_, ?_⟩
  · exact fun id member => located.subset (assigned.subset member)
  · exact assigned.nodup_iff.mpr (unique.sublist located)

/-- The chunks hold each order with a known site once. -/
theorem Splitting.perm_subclustersWith (splitting : Splitting splitUnits splitTasks)
    (unique : (inputs.orders.map (·.taskId)).Nodup) (depots : inputs.depots ≠ []) :
    ((inputs.subclustersWith splitUnits splitTasks).flatMap Prod.snd).Perm
      ((inputs.orders.filter fun order => inputs.Located order).map (·.taskId)) := by
  refine List.Perm.trans ?_ (perm_clusterOrdersByDepot inputs depots)
  obtain ⟨regrouped, keys, -⟩ := (regrouping unique depots).result
  rw [ClusteringInputs.subclustersWith]
  dsimp only
  split_ifs
  · rw [List.flatMap_assoc, ← keys]
    refine List.Perm.trans (.of_eq ?_) ((splitting.perm_depotChunks _).trans regrouped)
    apply List.flatMap_congr
    intro depot _
    rw [List.flatMap_map, List.flatMap_def, List.map_id']
  · rw [List.flatMap_assoc]
    refine .of_eq ?_
    rw [Dict.values, ← List.flatMap_def]
    apply List.flatMap_congr
    intro depot _
    rw [List.flatMap_map, List.flatMap_def, List.map_id', splitting.tasks]

/-- Alternatives are in one unit. -/
theorem exists_shared_unit (unique : (inputs.orders.map (·.taskId)).Nodup)
    {order other : OrderRow} (member : order ∈ inputs.orders) (memberOther : other ∈ inputs.orders)
    (grouped : order.alternativeGroupRef ≠ "")
    (same : order.alternativeGroupRef = other.alternativeGroupRef) :
    ∃ root unit, inputs.dependencyUnits.get? root = some unit ∧ order.taskId ∈ unit ∧
      other.taskId ∈ unit := by
  have inGroup : ∀ row ∈ inputs.orders, row.alternativeGroupRef = order.alternativeGroupRef →
      row.taskId ∈ inputs.altGroups.getD order.alternativeGroupRef [] := by
    intro row rowMember sameGroup
    rw [ClusteringInputs.altGroups, Dict.getD_groupBy]
    refine List.mem_map.mpr ⟨row, List.mem_filter.mpr ⟨List.mem_filter.mpr ⟨rowMember, ?_⟩, ?_⟩, rfl⟩
    · exact decide_eq_true (sameGroup ▸ grouped)
    · exact decide_eq_true sameGroup
  have orderIn := inGroup order member rfl
  obtain ⟨root, unit, found, covers⟩ :=
    (perm_dependencyUnits inputs unique).2.1 _ (Dict.getD_mem_values orderIn)
  exact ⟨root, unit, found, covers orderIn, covers (inGroup other memberOther same.symm)⟩

/-- No two chunks share a task. -/
theorem Splitting.eq_of_mem_chunks (splitting : Splitting splitUnits splitTasks)
    (unique : (inputs.orders.map (·.taskId)).Nodup) (depots : inputs.depots ≠ [])
    {chunk packed : String × List String} {id : String}
    (listed : chunk ∈ inputs.subclustersWith splitUnits splitTasks)
    (packedListed : packed ∈ inputs.subclustersWith splitUnits splitTasks)
    (inside : id ∈ chunk.2) (insidePacked : id ∈ packed.2) : chunk = packed := by
  by_contra differ
  have distinct : ((inputs.subclustersWith splitUnits splitTasks).flatMap Prod.snd).Nodup :=
    (splitting.perm_subclustersWith unique depots).nodup_iff.mpr
      (unique.sublist (List.filter_sublist.map _))
  have symmetric : Std.Symm fun first second : String × List String =>
      first.2.Disjoint second.2 := ⟨fun _ _ => List.Disjoint.symm⟩
  have disjoint : (inputs.subclustersWith splitUnits splitTasks).Pairwise fun first second =>
      first.2.Disjoint second.2 := (List.nodup_flatMap.mp distinct).2
  exact disjoint.forall listed packedListed differ inside insidePacked

/-- Tasks of one unit with known sites are in the same chunks. -/
theorem Splitting.unit_together (splitting : Splitting splitUnits splitTasks)
    (unique : (inputs.orders.map (·.taskId)).Nodup) (depots : inputs.depots ≠ [])
    {order other : OrderRow} (member : order ∈ inputs.orders) (memberOther : other ∈ inputs.orders)
    (located : inputs.Located order) (locatedOther : inputs.Located other)
    {root : String} {unit : List String} (found : inputs.dependencyUnits.get? root = some unit)
    (orderIn : order.taskId ∈ unit) (otherIn : other.taskId ∈ unit)
    {chunk : String × List String} (listed : chunk ∈ inputs.subclustersWith splitUnits splitTasks)
    (inside : order.taskId ∈ chunk.2) : other.taskId ∈ chunk.2 := by
  have assigned := perm_clusterOrdersByDepot inputs depots
  have assignedOf : ∀ row ∈ inputs.orders, inputs.Located row →
      row.taskId ∈ inputs.clusterOrdersByDepot.values.flatten := by
    intro row rowMember known
    exact assigned.symm.subset (List.mem_map.mpr
      ⟨row, List.mem_filter.mpr ⟨rowMember, decide_eq_true known⟩, rfl⟩)
  obtain ⟨-, keys, together⟩ := (regrouping unique depots).result
  by_cases regroups : (∃ unit ∈ inputs.dependencyUnits.values, 1 < unit.length) ∨
      inputs.splitByOperation
  · obtain ⟨unitPart, unitListed, orderInside, part⟩ := together root unit found order.taskId
      orderIn (assignedOf order member located)
    have otherInside : other.taskId ∈ unitPart := part <| List.mem_filter.mpr
      ⟨otherIn, decide_eq_true
        (mem_keys_depotOfTask.mpr (assignedOf other memberOther locatedOther))⟩
    rw [← Dict.map_getD_keys _ [], ← List.flatMap_def] at unitListed
    obtain ⟨depot, depotListed, placed⟩ := List.mem_flatMap.mp unitListed
    obtain ⟨packed, packedListed, packs⟩ :=
      splitting.whole _ _ placed (List.ne_nil_of_mem orderInside)
    have packedChunk : (depot, packed) ∈ inputs.subclustersWith splitUnits splitTasks := by
      rw [ClusteringInputs.subclustersWith]
      dsimp only
      rw [if_pos regroups, ← keys]
      exact List.mem_flatMap.mpr ⟨depot, depotListed, List.mem_map.mpr ⟨packed, packedListed, rfl⟩⟩
    rw [splitting.eq_of_mem_chunks unique depots listed packedChunk inside (packs orderInside)]
    exact packs otherInside
  · have small : unit.length ≤ 1 := by
      by_contra several
      refine regroups (.inl ⟨unit, List.mem_map.mpr ⟨(root, unit), ?_, rfl⟩, not_le.mp several⟩)
      exact (Dict.get?_eq_some_iff _ _ _).mp found
    have sameTask : other.taskId = order.taskId := by
      obtain empty | one := Nat.le_one_iff_eq_zero_or_eq_one.mp small
      · exact absurd orderIn (List.length_eq_zero_iff.mp empty ▸ List.not_mem_nil)
      · obtain ⟨only, rfl⟩ := List.length_eq_one_iff.mp one
        rw [List.mem_singleton.mp orderIn, List.mem_singleton.mp otherIn]
    rw [sameTask]
    exact inside

theorem perm_subclusters (unique : (inputs.orders.map (·.taskId)).Nodup)
    (depots : inputs.depots ≠ []) :
    (inputs.subclusters.flatMap Prod.snd).Perm
      ((inputs.orders.filter fun order => inputs.Located order).map (·.taskId)) :=
  (splitting inputs).perm_subclustersWith unique depots

/-- Alternatives with known sites are in the same chunks. -/
theorem alternatives_together (unique : (inputs.orders.map (·.taskId)).Nodup)
    (depots : inputs.depots ≠ []) {order other : OrderRow} (member : order ∈ inputs.orders)
    (memberOther : other ∈ inputs.orders) (located : inputs.Located order)
    (locatedOther : inputs.Located other) (grouped : order.alternativeGroupRef ≠ "")
    (same : order.alternativeGroupRef = other.alternativeGroupRef)
    {chunk : String × List String} (listed : chunk ∈ inputs.subclusters)
    (inside : order.taskId ∈ chunk.2) : other.taskId ∈ chunk.2 := by
  obtain ⟨root, unit, found, orderIn, otherIn⟩ :=
    exists_shared_unit unique member memberOther grouped same
  exact (splitting inputs).unit_together unique depots member memberOther located locatedOther found
    orderIn otherIn listed inside

/-- The ids of the clusters are distinct. -/
theorem nodup_clusterIds (inputs : ClusteringInputs) :
    ((buildClusterSpecs inputs).map (·.clusterId)).Nodup := by
  have ids : (buildClusterSpecs inputs).map (·.clusterId) =
      (inputs.subclusters.zipIdx.map Prod.snd).map clusterIdOf := by
    rw [buildClusterSpecs, List.map_map, List.map_map]
    rfl
  rw [ids, List.zipIdx_map_snd]
  exact List.Nodup.map clusterIdOf_injective List.nodup_range'

theorem taskIds_clusterSpecs (inputs : ClusteringInputs)
    (subclusters : List (String × List String)) :
    (inputs.clusterSpecs subclusters).map (·.taskIds) = subclusters.map Prod.snd := by
  rw [ClusteringInputs.clusterSpecs, List.map_map]
  conv_rhs => rw [← List.zipIdx_map_fst 0 subclusters, List.map_map]
  rfl

theorem taskIds_buildClusterSpecs (inputs : ClusteringInputs) :
    (buildClusterSpecs inputs).map (·.taskIds) = inputs.subclusters.map Prod.snd :=
  taskIds_clusterSpecs inputs inputs.subclusters

/-- The clusters hold each order with a known site once. -/
theorem perm_buildClusterSpecs (unique : (inputs.orders.map (·.taskId)).Nodup)
    (depots : inputs.depots ≠ []) :
    ((buildClusterSpecs inputs).flatMap (·.taskIds)).Perm
      ((inputs.orders.filter fun order => inputs.Located order).map (·.taskId)) := by
  rw [List.flatMap_def, taskIds_buildClusterSpecs, ← List.flatMap_def]
  exact perm_subclusters unique depots

end Specs

end FlOp.Solver
