import FlOp.Canonical.Bundle
import FlOp.Canonical.Snapshot
import FlOp.Core.Floats
import FlOp.Library.Groups
import FlOp.Mapping.RowProjection
import FlOp.Mapping.SolverInputs

/-! # Feasible pairs of a snapshot

The snapshot pairs prime movers with implements by their canonical power capabilities. A missing
power is `nan` and pairs with nothing.
-/

namespace FlOp.Snapshot

open FlOp.Mapping FlOp.Core Library

variable {D : Type}

def ratedPowerTerm : String := "urn:xopt:capability:rated-power"

def requiredPowerTerm : String := "urn:xopt:capability:required-power"

/-- `Asset.capability_value`. -/
def capabilityValue (asset : Emitted D) (semanticTerm : String) : PyValue D :=
  .ofOption ((asset.capabilities.find? fun capability =>
    capability.semanticTerm = semanticTerm).map (·.value))

/-- The assets of a snapshot. -/
def snapshotAssets (snapshot : Mapping.Snapshot D) : List (Emitted D) :=
  (snapshot.filter fun record => record.1 = "asset").map (·.2)

/-- `_split_roles`: the prime movers. -/
def primeMovers (assets : List (Emitted D)) : List (Emitted D) :=
  assets.filter fun asset => "mobile-prime-mover" ∈ asset.roles

/-- `_split_roles`: the implements. -/
def implements (assets : List (Emitted D)) : List (Emitted D) :=
  assets.filter fun asset => "implement" ∈ asset.roles

/-- `_power_value`; `nan` is `none`. -/
def powerValue (readers : Readers D) (asset : Emitted D) (semanticTerm : String) : Option ℚ :=
  (capabilityValue asset semanticTerm).present.bind readers.toFloat

/-- The most power that an implement may draw from a prime mover. -/
def maxRequired (margin rated : ℚ) : ℚ :=
  double.round (double.round rated * double.round (1 + double.round (margin / 100)))

/-- One entry of the pair matrix; comparisons with `nan` are false. -/
def powerFeasible (margin : ℚ) : Option ℚ → Option ℚ → Bool
  | some rated, some required => double.round required ≤ maxRequired margin rated
  | _, _ => false

/-- A pair of assets is feasible. -/
def feasible (readers : Readers D) (margin : ℚ) (primeMover implement : Emitted D) : Bool :=
  powerFeasible margin (powerValue readers primeMover ratedPowerTerm)
    (powerValue readers implement requiredPowerTerm)

/-- `_pair_matrix`. -/
def pairMatrix (readers : Readers D) (margin : ℚ) (primeMovers implements : List (Emitted D)) :
    List (List Bool) :=
  primeMovers.map fun primeMover => implements.map fun implement =>
    feasible readers margin primeMover implement

/-- What the rated power with its margin exceeds the required power by. -/
def headroom (margin rated required : ℚ) : ℚ := rated + margin / 100 * rated - required

/-- The required power is further from the limit than rounding reaches. -/
def ClearOfLimit (margin rated required : ℚ) : Prop :=
  drift singleUnit 4 * (|rated| + |margin / 100 * rated| + |required|) <
    |headroom margin rated required|

/-- Away from the limit the pair matrix compares exactly. -/
theorem powerFeasible_iff_of_clear {margin rated required : ℚ}
    (clear : ClearOfLimit margin rated required) :
    powerFeasible margin (some rated) (some required) ↔ 0 ≤ headroom margin rated required := by
  obtain ⟨f, ownF, ratedIs⟩ := double.exists_factor rated
  obtain ⟨g, ownG, requiredIs⟩ := double.exists_factor required
  obtain ⟨h, ownH, shareIs⟩ := double.exists_factor (margin / 100)
  obtain ⟨k, ownK, factorIs⟩ := double.exists_factor (1 + h * (margin / 100))
  obtain ⟨l, ownL, limitIs⟩ := double.exists_factor (f * rated * (k * (1 + h * (margin / 100))))
  have nonneg := singleUnit_nonneg
  have three := (ownL.mul nonneg ownF).mul nonneg ownK
  have four := three.mul nonneg ownH
  have close := abs_compare_sub_le (a := rated) (b := margin / 100 * rated) (c := required)
    (three.mono nonneg (by omega : 3 ≤ 4)) four (ownG.mono nonneg (by omega : 1 ≤ 4))
  rw [← headroom] at close
  rw [← nonneg_iff_of_abs_sub_lt close clear]
  have expanded : maxRequired margin rated - double.round required =
      l * f * k * rated + l * f * k * h * (margin / 100 * rated) - g * required := by
    rw [maxRequired, ratedIs, shareIs, factorIs, limitIs, requiredIs]
    ring
  rw [← expanded, sub_nonneg]
  exact decide_eq_true_iff

/-- A prime mover rated at zero can only power what requires nothing. -/
theorem powerFeasible_zero {margin required : ℚ} :
    powerFeasible margin (some 0) (some required) ↔ required ≤ 0 := by
  have nothing : maxRequired margin 0 = 0 := by simp [maxRequired]
  rw [powerFeasible, decide_eq_true_iff, nothing, Rounding.round_nonpos_iff singleUnit_lt_one]

end FlOp.Snapshot

/-! # Bundle summary and enumeration

The snapshot carries counts over all feasible pairs, and names the demanded operations with fewer
pairs than tasks. Bundles themselves are enumerated on demand, with the same pairs.
-/

namespace FlOp.Snapshot

open FlOp.Mapping FlOp.Core Library

variable {D : Type}

def compatibleOpsTerm : String := "urn:xopt:capability:compatible-operations"

/-- The counts of the feasible pairs, and of the tasks that demand them. -/
structure BundleFeasibilitySummary where
  nPrimeMovers : ℕ
  nRelatedEquipment : ℕ
  nFeasiblePairs : ℕ
  pairsByOperation : Dict String ℕ
  nUnmatchedPrimeMovers : ℕ
  nUnmatchedRelatedEquipment : ℕ
  tasksByOperation : Dict String ℕ
  scarceOperations : List String

/-- A capability of a bundle; a power of `nan` is `none`. -/
structure BundleCapability where
  capabilityId : String
  semanticTerm : String
  value : Option ℚ
  canonicalUnit : String
deriving DecidableEq, Repr

structure OperationalBundle where
  bundleId : String
  bundleType : String
  assetIds : List String
  capabilities : List BundleCapability
deriving DecidableEq, Repr

/-- The operations of an implement, as `str`; a value that is no collection raises. -/
def operationNames (readers : Readers D) (implement : Emitted D) : Option (List String) :=
  let value := capabilityValue implement compatibleOpsTerm
  if value.truthy then value.iterate.map (·.map readers.toText) else some []

section Enumerating

variable (readers : Readers D) (margin : ℚ) (assets : List (Emitted D))

/-- The feasible pairs of an implement. -/
def feasibleCount (implement : Emitted D) : ℕ :=
  (primeMovers assets).countP fun primeMover => feasible readers margin primeMover implement

/-- One implement adds its feasible pairs to each of its operations. -/
def addOperations (counts : Dict String ℕ) (implement : Emitted D) : Option (Dict String ℕ) :=
  let count := feasibleCount readers margin assets implement
  if count = 0 then some counts
  else (operationNames readers implement).map fun names =>
    names.foldl (fun counts name => counts.bump name count) counts

/-- The feasible pairs of each operation. -/
def pairsByOperation : Option (Dict String ℕ) :=
  (implements assets).foldlM (addOperations readers margin assets) .empty

/-- The tasks of each demanded operation. -/
def tasksByOperation (tasks : List Canonical.Task) : Dict String ℕ :=
  tasks.foldl (fun counts task =>
    if task.operationType = "" then counts else counts.bump task.operationType 1) .empty

/-- `summarize_bundles`. -/
def summarizeBundles (tasks : List Canonical.Task) : Option BundleFeasibilitySummary :=
  (pairsByOperation readers margin assets).map fun pairs => {
    nPrimeMovers := (primeMovers assets).length
    nRelatedEquipment := (implements assets).length
    nFeasiblePairs := ((implements assets).map (feasibleCount readers margin assets)).sum
    pairsByOperation := pairs.sortKeys
    nUnmatchedPrimeMovers := (primeMovers assets).countP fun primeMover =>
      (implements assets).all fun implement => !feasible readers margin primeMover implement
    nUnmatchedRelatedEquipment := (implements assets).countP fun implement =>
      (primeMovers assets).all fun primeMover => !feasible readers margin primeMover implement
    tasksByOperation := (tasksByOperation tasks).sortKeys
    scarceOperations := sortBy id (((tasksByOperation tasks).entries.filter fun demand =>
      pairs.getD demand.1 0 < demand.2).map Prod.fst) }

/-- The filters of the enumeration. -/
def passesFilters (operationType assetId : Option String) (pair : Emitted D × Emitted D) :
    Option Bool :=
  if ∃ id ∈ assetId, id ≠ pair.1.text "asset_id" ∧ id ≠ pair.2.text "asset_id" then some false
  else match operationType with
    | none => some true
    | some operation => (operationNames readers pair.2).map fun supported => operation ∈ supported

/-- The bundle of a pair. -/
def operationalBundle (digest : String → String) (configurationVersion : String)
    (pair : Emitted D × Emitted D) : OperationalBundle :=
  let assetIds := [pair.1.text "asset_id", pair.2.text "asset_id"]
  { bundleId := Canonical.computeBundleId digest assetIds [] configurationVersion
    bundleType := pair.1.text "asset_type" ++ "+" ++ pair.2.text "asset_type"
    assetIds := assetIds
    capabilities := [{ capabilityId := "rated-power"
                       semanticTerm := ratedPowerTerm
                       value := powerValue readers pair.1 ratedPowerTerm
                       canonicalUnit := "kW" }] }

/-- The feasible pairs, in asset order. -/
def feasiblePairs : List (Emitted D × Emitted D) :=
  (primeMovers assets ×ˢ implements assets).filter fun pair =>
    feasible readers margin pair.1 pair.2

/-- `iter_bundles`, run to its end. -/
def iterBundles (digest : String → String) (configurationVersion : String)
    (operationType assetId : Option String) : Option (List OperationalBundle) :=
  (Fallible.selectM (passesFilters readers operationType assetId)
    (feasiblePairs readers margin assets)).map
      (·.map (operationalBundle readers digest configurationVersion))

end Enumerating

/-- The summary counts what is enumerated. -/
def CountsEnumerated (readers : Readers D) (margin : ℚ) (digest : String → String)
    (configurationVersion : String) (assets : List (Emitted D)) (tasks : List Canonical.Task) :
    Prop :=
  ∃ summary bundles, summarizeBundles readers margin assets tasks = some summary ∧
    iterBundles readers margin assets digest configurationVersion none none = some bundles ∧
    summary.nFeasiblePairs = bundles.length ∧
    summary.nUnmatchedPrimeMovers = (primeMovers assets).countP (fun primeMover =>
      bundles.all fun bundle => primeMover.text "asset_id" ∉ bundle.assetIds) ∧
    summary.nUnmatchedRelatedEquipment = (implements assets).countP (fun implement =>
      bundles.all fun bundle => implement.text "asset_id" ∉ bundle.assetIds) ∧
    ∀ operation, ∃ own, iterBundles readers margin assets digest configurationVersion
        (some operation) none = some own ∧
      summary.pairsByOperation.getD operation 0 = own.length ∧
      (operation ∈ summary.scarceOperations ↔ operation ≠ "" ∧
        own.length < tasks.countP fun task => task.operationType = operation)

/-- An asset without a feasible pair shares no id with a member of one. -/
def IdApart (readers : Readers D) (margin : ℚ) (assets : List (Emitted D)) (asset : Emitted D) :
    Prop :=
  ∀ pair ∈ feasiblePairs readers margin assets,
    asset.text "asset_id" ≠ pair.1.text "asset_id" ∧ asset.text "asset_id" ≠ pair.2.text "asset_id"

/-- Implements with a feasible pair list every operation once, and unmatched assets have ids of
their own. -/
structure ListedOnce (readers : Readers D) (margin : ℚ) (assets : List (Emitted D)) : Prop where
  operations : ∀ pair ∈ feasiblePairs readers margin assets,
    ∃ names, operationNames readers pair.2 = some names ∧ names.Nodup
  primeMovers : ∀ primeMover ∈ primeMovers assets,
    (∀ implement ∈ implements assets, feasible readers margin primeMover implement = false) →
      IdApart readers margin assets primeMover
  implements : ∀ implement ∈ implements assets,
    (∀ primeMover ∈ Snapshot.primeMovers assets,
      feasible readers margin primeMover implement = false) →
      IdApart readers margin assets implement

section Counting

variable {readers : Readers D} {margin : ℚ} {assets : List (Emitted D)}
  {digest : String → String} {configurationVersion : String}

theorem mem_feasiblePairs {pair : Emitted D × Emitted D} :
    pair ∈ feasiblePairs readers margin assets ↔ pair.1 ∈ primeMovers assets ∧
      pair.2 ∈ implements assets ∧ feasible readers margin pair.1 pair.2 := by
  rw [feasiblePairs, List.mem_filter, List.mem_product, and_assoc]

/-- The operations that an implement lists, if they can be read. -/
def listed (readers : Readers D) (implement : Emitted D) : List String :=
  (operationNames readers implement).getD []

theorem feasibleCount_eq_zero {implement : Emitted D} :
    feasibleCount readers margin assets implement = 0 ↔
      ∀ primeMover ∈ primeMovers assets, feasible readers margin primeMover implement = false := by
  rw [feasibleCount, List.countP_eq_zero]
  simp only [Bool.not_eq_true]

theorem exists_feasible {implement : Emitted D}
    (some : feasibleCount readers margin assets implement ≠ 0) :
    ∃ primeMover ∈ primeMovers assets, feasible readers margin primeMover implement :=
  List.countP_pos_iff.mp (Nat.pos_of_ne_zero some)

theorem feasibleCount_ne_zero {pair : Emitted D × Emitted D}
    (member : pair ∈ feasiblePairs readers margin assets) :
    feasibleCount readers margin assets pair.2 ≠ 0 := by
  obtain ⟨mover, -, pairs⟩ := mem_feasiblePairs.mp member
  intro none
  rw [feasibleCount_eq_zero.mp none pair.1 mover] at pairs
  cases pairs

/-- Without a filter all feasible pairs are enumerated. -/
theorem iterBundles_none : iterBundles readers margin assets digest configurationVersion none none =
    some ((feasiblePairs readers margin assets).map
      (operationalBundle readers digest configurationVersion)) := by
  have all : ∀ pair ∈ feasiblePairs readers margin assets,
      passesFilters readers none none pair = some true := by
    intro pair _
    simp [passesFilters]
  rw [iterBundles, selectM_eq_filter all, Option.map_some, List.filter_true]

/-- The feasible pairs are the column sums of the pair matrix. -/
theorem length_feasiblePairs : (feasiblePairs readers margin assets).length =
    ((implements assets).map (feasibleCount readers margin assets)).sum := by
  rw [feasiblePairs, ← List.countP_eq_length_filter, countP_product]
  rfl

/-- The enumeration of an operation ends if every implement with a feasible pair can be read. -/
theorem isSome_iterBundles (digest : String → String) (configurationVersion operation : String) :
    (iterBundles readers margin assets digest configurationVersion (some operation) none).isSome ↔
      ∀ pair ∈ feasiblePairs readers margin assets, (operationNames readers pair.2).isSome := by
  rw [iterBundles, Option.isSome_map, isSome_selectM]
  refine forall₂_congr fun pair _ => ?_
  simp [passesFilters]

/-- The bundles of an operation are the feasible pairs of the implements that list it. -/
theorem length_iterBundles {operation : String} {own : List OperationalBundle}
    (run : iterBundles readers margin assets digest configurationVersion (some operation) none =
      some own) :
    own.length = ((implements assets).map fun implement =>
      if operation ∈ listed readers implement then feasibleCount readers margin assets implement
      else 0).sum := by
  have readable := (isSome_iterBundles _ _ _).mp (Option.isSome_of_eq_some run)
  have total : ∀ pair ∈ feasiblePairs readers margin assets,
      passesFilters readers (some operation) none pair =
        some (decide (operation ∈ listed readers pair.2)) := by
    intro pair member
    obtain ⟨names, named⟩ := Option.isSome_iff_exists.mp (readable pair member)
    simp [passesFilters, listed, named]
  rw [iterBundles, selectM_eq_filter total] at run
  obtain rfl := Option.some.inj run
  rw [List.length_map, ← List.countP_eq_length_filter, feasiblePairs, List.countP_filter,
    countP_product]
  refine congrArg List.sum (List.map_congr_left fun implement _ => ?_)
  rw [feasibleCount]
  split_ifs with lists <;> simp [lists]

theorem getD_addOperations {counts added : Dict String ℕ} {implement : Emitted D}
    (step : addOperations readers margin assets counts implement = some added)
    (operation : String) :
    added.getD operation 0 = counts.getD operation 0 +
      feasibleCount readers margin assets implement *
        (listed readers implement).count operation := by
  unfold addOperations at step
  dsimp only at step
  split_ifs at step with none
  · obtain rfl := Option.some.inj step
    rw [none, Nat.zero_mul, Nat.add_zero]
  · obtain ⟨names, named, rfl⟩ := Option.map_eq_some_iff.mp step
    rw [Dict.getD_foldl_bump, listed, named, Option.getD_some]

theorem isSome_addOperations (counts : Dict String ℕ) {implement : Emitted D} :
    (addOperations readers margin assets counts implement).isSome ↔
      (feasibleCount readers margin assets implement ≠ 0 →
        (operationNames readers implement).isSome) := by
  unfold addOperations
  dsimp only
  split_ifs with none
  · simp [none]
  · simp [none]

/-- Adding the operations of a list of implements. -/
theorem getD_foldlM_addOperations {related : List (Emitted D)} {counts added : Dict String ℕ}
    (run : related.foldlM (addOperations readers margin assets) counts = some added)
    (operation : String) :
    added.getD operation 0 = counts.getD operation 0 + (related.map fun implement =>
      feasibleCount readers margin assets implement *
        (listed readers implement).count operation).sum := by
  induction related generalizing counts with
  | nil =>
    obtain rfl := Option.some.inj run
    rfl
  | cons first rest ih =>
    rw [List.foldlM_cons] at run
    obtain ⟨next, step, later⟩ := Option.bind_eq_some_iff.mp run
    rw [ih later, getD_addOperations step, List.map_cons, List.sum_cons, Nat.add_assoc]

theorem isSome_foldlM_addOperations {related : List (Emitted D)} (counts : Dict String ℕ) :
    (related.foldlM (addOperations readers margin assets) counts).isSome ↔
      ∀ implement ∈ related, feasibleCount readers margin assets implement ≠ 0 →
        (operationNames readers implement).isSome := by
  induction related generalizing counts with
  | nil => exact iff_of_true rfl (by simp)
  | cons first rest ih =>
    rw [List.foldlM_cons, List.forall_mem_cons, ← isSome_addOperations counts]
    cases step : addOperations readers margin assets counts first with
    | none => simp
    | some next =>
      rw [← ih next]
      simp

/-- The summary exists if every implement with a feasible pair can be read. -/
theorem isSome_pairsByOperation : (pairsByOperation readers margin assets).isSome ↔
    ∀ pair ∈ feasiblePairs readers margin assets, (operationNames readers pair.2).isSome := by
  rw [pairsByOperation, isSome_foldlM_addOperations]
  constructor
  · intro readable pair member
    obtain ⟨-, related, -⟩ := mem_feasiblePairs.mp member
    exact readable pair.2 related (feasibleCount_ne_zero member)
  · intro readable implement related some
    obtain ⟨mover, member, pairs⟩ := exists_feasible some
    exact readable (mover, implement) (mem_feasiblePairs.mpr ⟨member, related, pairs⟩)

private theorem getD_foldl_tasks (tasks : List Canonical.Task) (counts : Dict String ℕ)
    (operation : String) :
    (tasks.foldl (fun counts task => if task.operationType = "" then counts
      else counts.bump task.operationType 1) counts).getD operation 0 =
      counts.getD operation 0 + if operation = "" then 0
        else tasks.countP fun task => task.operationType = operation := by
  induction tasks generalizing counts with
  | nil => simp
  | cons task rest ih =>
    rw [List.foldl_cons, ih, List.countP_cons]
    by_cases typed : task.operationType = ""
    · by_cases empty : operation = ""
      · simp [typed, empty]
      · simp [typed, empty, Ne.symm empty]
    · rw [if_neg typed, Dict.getD_bump]
      by_cases empty : operation = ""
      · simp [empty, Ne.symm typed]
      · by_cases same : operation = task.operationType
        · simp only [same, if_neg typed, decide_true, if_true]
          omega
        · simp [same, empty, Ne.symm same]

/-- The tasks of an operation; those without one are not counted. -/
theorem getD_tasksByOperation (tasks : List Canonical.Task) (operation : String) :
    (tasksByOperation tasks).getD operation 0 =
      if operation = "" then 0 else tasks.countP fun task => task.operationType = operation := by
  rw [tasksByOperation, getD_foldl_tasks]
  exact Nat.zero_add _

/-- The scarce operations are those with fewer pairs than tasks. -/
theorem mem_scarceOperations {tasks : List Canonical.Task} {summary : BundleFeasibilitySummary}
    (run : summarizeBundles readers margin assets tasks = some summary) {operation : String} :
    operation ∈ summary.scarceOperations ↔ operation ≠ "" ∧
      summary.pairsByOperation.getD operation 0 <
        tasks.countP fun task => task.operationType = operation := by
  obtain ⟨pairs, -, rfl⟩ := Option.map_eq_some_iff.mp run
  have demanded : operation ∈ (((tasksByOperation tasks).entries.filter fun demand =>
      pairs.getD demand.1 0 < demand.2).map Prod.fst) ↔
      pairs.getD operation 0 < (tasksByOperation tasks).getD operation 0 := by
    rw [List.mem_map]
    constructor
    · rintro ⟨⟨own, count⟩, member, rfl⟩
      obtain ⟨entry, fewer⟩ := List.mem_filter.mp member
      have counted : (tasksByOperation tasks).getD own 0 = count := by
        rw [Dict.getD, (Dict.get?_eq_some_iff _ _ _).mpr entry]
        rfl
      rw [counted]
      exact of_decide_eq_true fewer
    · intro fewer
      have counted : (tasksByOperation tasks).getD operation 0 =
        ((tasksByOperation tasks).get? operation).getD 0 := rfl
      cases held : (tasksByOperation tasks).get? operation with
      | none =>
        rw [counted, held] at fewer
        exact absurd fewer (Nat.not_lt_zero _)
      | some count =>
        rw [counted, held] at fewer
        exact ⟨(operation, count), List.mem_filter.mpr
          ⟨(Dict.get?_eq_some_iff _ _ _).mp held, decide_eq_true fewer⟩, rfl⟩
  rw [mem_sortBy, demanded, getD_tasksByOperation, Dict.getD, Dict.getD, Dict.get?_sortKeys]
  by_cases empty : operation = ""
  · simp [empty]
  · simp [empty]

/-- An asset is in no bundle exactly if its id is apart from those of the feasible pairs. -/
theorem all_not_mem_iff {asset : Emitted D} :
    (((feasiblePairs readers margin assets).map
      (operationalBundle readers digest configurationVersion)).all fun bundle =>
        asset.text "asset_id" ∉ bundle.assetIds) ↔ IdApart readers margin assets asset := by
  rw [List.all_map, List.all_eq_true, IdApart]
  refine forall₂_congr fun pair _ => ?_
  simp [operationalBundle]

/-- The unmatched assets are as many as those in no bundle exactly if they have ids of their own. -/
theorem unmatched_eq_iff {own : List (Emitted D)} {unmatched : Emitted D → Bool}
    (apart : ∀ asset ∈ own, IdApart readers margin assets asset → unmatched asset) :
    own.countP unmatched = own.countP (fun asset => ((feasiblePairs readers margin assets).map
        (operationalBundle readers digest configurationVersion)).all fun bundle =>
          asset.text "asset_id" ∉ bundle.assetIds) ↔
      ∀ asset ∈ own, unmatched asset → IdApart readers margin assets asset := by
  rw [eq_comm, countP_eq_countP_iff_of_imp]
  · refine forall₂_congr fun asset _ => ?_
    rw [all_not_mem_iff]
  · intro asset member none
    exact apart asset member (all_not_mem_iff.mp none)

/-- An asset with a feasible pair is in its bundle. -/
theorem unmatched_of_idApart_primeMover {primeMover : Emitted D}
    (member : primeMover ∈ primeMovers assets) (apart : IdApart readers margin assets primeMover) :
    (implements assets).all fun implement => !feasible readers margin primeMover implement := by
  rw [List.all_eq_true]
  intro implement related
  rw [Bool.not_eq_true']
  by_contra pairs
  rw [Bool.not_eq_false] at pairs
  exact (apart (primeMover, implement) (mem_feasiblePairs.mpr ⟨member, related, pairs⟩)).1 rfl

theorem unmatched_of_idApart_implement {implement : Emitted D}
    (related : implement ∈ implements assets) (apart : IdApart readers margin assets implement) :
    (primeMovers assets).all fun primeMover => !feasible readers margin primeMover implement := by
  rw [List.all_eq_true]
  intro primeMover member
  rw [Bool.not_eq_true']
  by_contra pairs
  rw [Bool.not_eq_false] at pairs
  exact (apart (primeMover, implement) (mem_feasiblePairs.mpr ⟨member, related, pairs⟩)).2 rfl

/-- Each operation of an implement is counted as often as it is listed. -/
theorem operations_counted_iff (operations : String → ℕ)
    (counted : ∀ operation, operations operation = ((implements assets).map fun implement =>
      feasibleCount readers margin assets implement *
        (listed readers implement).count operation).sum) :
    (∀ operation, operations operation = ((implements assets).map fun implement =>
      if operation ∈ listed readers implement then feasibleCount readers margin assets implement
      else 0).sum) ↔
    ∀ implement ∈ implements assets, feasibleCount readers margin assets implement ≠ 0 →
      (listed readers implement).Nodup := by
  have below : ∀ operation, ∀ implement ∈ implements assets,
      (if operation ∈ listed readers implement then feasibleCount readers margin assets implement
        else 0) ≤ feasibleCount readers margin assets implement *
          (listed readers implement).count operation := by
    intro operation implement _
    split_ifs with lists
    · exact Nat.le_mul_of_pos_right _ (List.count_pos_iff.mpr lists)
    · exact Nat.zero_le _
  have pointwise : (∀ operation, operations operation = ((implements assets).map fun implement =>
      if operation ∈ listed readers implement then feasibleCount readers margin assets implement
      else 0).sum) ↔ ∀ operation, ∀ implement ∈ implements assets,
        (if operation ∈ listed readers implement then
          feasibleCount readers margin assets implement else 0) =
        feasibleCount readers margin assets implement *
          (listed readers implement).count operation := by
    refine forall_congr' fun operation => ?_
    rw [← sum_eq_sum_iff_of_le (below operation), counted, eq_comm]
  rw [pointwise]
  constructor
  · intro same implement related some
    rw [List.nodup_iff_count_le_one]
    intro operation
    by_cases lists : operation ∈ listed readers implement
    · have once := same operation implement related
      rw [if_pos lists] at once
      exact (Nat.eq_of_mul_eq_mul_left (Nat.pos_of_ne_zero some)
        ((Nat.mul_one _).trans once)).ge
    · rw [List.count_eq_zero_of_not_mem lists]
      exact Nat.zero_le _
  · intro once operation implement related
    by_cases some : feasibleCount readers margin assets implement = 0
    · simp [some]
    · split_ifs with lists
      · rw [List.count_eq_one_of_mem (once implement related some) lists, Nat.mul_one]
      · rw [List.count_eq_zero_of_not_mem lists, Nat.mul_zero]

/-- The pairs of an operation in the summary. -/
theorem getD_pairsByOperation {pairs : Dict String ℕ}
    (counted : pairsByOperation readers margin assets = some pairs) (operation : String) :
    pairs.sortKeys.getD operation 0 = ((implements assets).map fun implement =>
      feasibleCount readers margin assets implement *
        (listed readers implement).count operation).sum := by
  rw [Dict.getD, Dict.get?_sortKeys]
  exact (getD_foldlM_addOperations counted operation).trans (Nat.zero_add _)

/-- Unmatched assets, read off the pair matrix. -/
theorem all_not_feasible_iff {own : List (Emitted D)} {pairs : Emitted D → Bool} :
    (own.all fun asset => !pairs asset) ↔ ∀ asset ∈ own, pairs asset = false := by
  simp only [List.all_eq_true, Bool.not_eq_true']

end Counting

/-- The summary counts what is enumerated exactly if every implement with a feasible pair lists
each of its operations once and no unmatched asset shares its id with a member of a pair. -/
theorem countsEnumerated_iff (readers : Readers D) (margin : ℚ) (digest : String → String)
    (configurationVersion : String) (assets : List (Emitted D)) (tasks : List Canonical.Task) :
    CountsEnumerated readers margin digest configurationVersion assets tasks ↔
      ListedOnce readers margin assets := by
  constructor
  · rintro ⟨summary, bundles, summarized, enumerated, -, moversCounted, relatedCounted, operations⟩
    obtain ⟨pairs, counted, rfl⟩ := Option.map_eq_some_iff.mp summarized
    obtain rfl := Option.some.inj (iterBundles_none.symm.trans enumerated)
    have readable := isSome_pairsByOperation.mp (Option.isSome_of_eq_some counted)
    have listedOnce := (operations_counted_iff _ (getD_pairsByOperation counted)).mp
      fun operation => by
        obtain ⟨own, ran, same, -⟩ := operations operation
        exact same.trans (length_iterBundles ran)
    refine ⟨?_, ?_, ?_⟩
    · intro pair member
      obtain ⟨names, named⟩ := Option.isSome_iff_exists.mp (readable pair member)
      have once := listedOnce pair.2 (mem_feasiblePairs.mp member).2.1
        (feasibleCount_ne_zero member)
      rw [listed, named] at once
      exact ⟨names, named, once⟩
    · intro primeMover member unmatched
      exact (unmatched_eq_iff fun _ => unmatched_of_idApart_primeMover).mp moversCounted primeMover
        member (all_not_feasible_iff.mpr unmatched)
    · intro implement member unmatched
      exact (unmatched_eq_iff fun _ => unmatched_of_idApart_implement).mp relatedCounted implement
        member (all_not_feasible_iff.mpr unmatched)
  · intro once
    have readable : ∀ pair ∈ feasiblePairs readers margin assets,
        (operationNames readers pair.2).isSome := by
      intro pair member
      obtain ⟨names, named, -⟩ := once.operations pair member
      rw [named]
      rfl
    obtain ⟨pairs, counted⟩ := Option.isSome_iff_exists.mp (isSome_pairsByOperation.mpr readable)
    have summarized : summarizeBundles readers margin assets tasks = some _ :=
      Option.map_eq_some_iff.mpr ⟨pairs, counted, rfl⟩
    have listedOnce : ∀ implement ∈ implements assets,
        feasibleCount readers margin assets implement ≠ 0 → (listed readers implement).Nodup := by
      intro implement related some
      obtain ⟨mover, member, pairs⟩ := exists_feasible some
      obtain ⟨names, named, nodup⟩ := once.operations (mover, implement)
        (mem_feasiblePairs.mpr ⟨member, related, pairs⟩)
      rw [listed, named]
      exact nodup
    have operations := (operations_counted_iff _ (getD_pairsByOperation counted)).mpr listedOnce
    refine ⟨_, _, summarized, iterBundles_none, ?_, ?_, ?_, ?_⟩
    · rw [List.length_map, length_feasiblePairs]
    · refine (unmatched_eq_iff fun _ => unmatched_of_idApart_primeMover).mpr ?_
      intro primeMover member unmatched
      exact once.primeMovers primeMover member (all_not_feasible_iff.mp unmatched)
    · refine (unmatched_eq_iff fun _ => unmatched_of_idApart_implement).mpr ?_
      intro implement member unmatched
      exact once.implements implement member (all_not_feasible_iff.mp unmatched)
    · intro operation
      obtain ⟨own, ran⟩ := Option.isSome_iff_exists.mp
        ((isSome_iterBundles digest configurationVersion operation).mpr readable)
      have same := (operations operation).trans (length_iterBundles ran).symm
      refine ⟨own, ran, same, ?_⟩
      rw [mem_scarceOperations summarized, ← same]

/-- A tractor and a seeder that lists its operation twice. -/
def seedingFleet : List (Emitted Unit) := [
  { record := [("asset_id", .text "tractor"), ("asset_type", .text "tractor")]
    capabilities := [⟨"ratedPower", ratedPowerTerm, .float 100, some "kW"⟩]
    roles := ["mobile-prime-mover"] },
  { record := [("asset_id", .text "seeder"), ("asset_type", .text "seeder")]
    capabilities := [⟨"requiredPower", requiredPowerTerm, .float 80, some "kW"⟩,
      ⟨"compatibleOperations", compatibleOpsTerm, .list [.text "sowing", .text "sowing"], none⟩]
    roles := ["implement"] }]

/-- One bundle can sow, and the summary counts two. -/
theorem sowing_counted_twice : ¬ CountsEnumerated typedReaders 10 id "v1" seedingFleet [] := by
  rintro ⟨summary, -, summarized, -, -, -, -, operations⟩
  obtain ⟨own, ran, same, -⟩ := operations "sowing"
  have twice : (summarizeBundles typedReaders 10 seedingFleet []).map
      (·.pairsByOperation.getD "sowing" 0) = some 2 := by
    decide +kernel
  have once : (iterBundles typedReaders 10 seedingFleet id "v1" (some "sowing") none).map
      List.length = some 1 := by
    decide +kernel
  rw [summarized, Option.map_some, Option.some.injEq] at twice
  rw [ran, Option.map_some, Option.some.injEq] at once
  omega

end FlOp.Snapshot
