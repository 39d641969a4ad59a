import FlOp.Core.Constants
import FlOp.Library.Calendar
import FlOp.Solver.Clusters
import FlOp.Solver.Rows
import Mathlib.Data.List.Pairwise
import Mathlib.Data.String.Basic

/-! # Operator qualification

Tasks the operator of their cluster is not certified for are paired with a backup operator, one
for each operation a cluster needs. A backup serves several clusters while their demand windows
are disjoint; if overlapping windows may share it, the contending clusters are stamped, and the
pool solves them one after the other.
-/

namespace FlOp.Solver

open Canonical FlOp.Core Library

/-- What the qualification knows besides the clusters. -/
structure QualificationInputs where
  orderIndex : Dict String OrderRow
  operatorsById : Dict String OperatorRow
  freeCapacity : Dict String ℚ := .empty
  now : Instant
  upper : String → String
  sharingSequential : Bool := false

/-- The clusters as the allocation hands them over: distinct, and without backups. -/
structure AllocatedClusters where
  clusters : List ClusterSpec
  distinct : (clusters.map (·.clusterId)).Nodup
  unqualified : ∀ cluster ∈ clusters, cluster.taskOperators = .empty

/-- One backup operator claimed for an operation of a cluster. -/
structure Claim where
  clusterId : String
  operation : String
  taskIds : List String
  backup : String
deriving DecidableEq, Repr

/-- The operator that serves a task: its backup, or the operator of the cluster. -/
def ClusterSpec.servingOperator (cluster : ClusterSpec) (taskId : String) : String :=
  cluster.taskOperators.getD taskId cluster.operatorRef

/-- The allocation gave the cluster vehicles or an operator. -/
def ClusterSpec.Equipped (cluster : ClusterSpec) : Prop :=
  cluster.allocatedPrimeRelated.entries ≠ [] ∨ cluster.operatorRef ≠ ""

instance (cluster : ClusterSpec) : Decidable cluster.Equipped :=
  inferInstanceAs (Decidable (_ ∨ _))

/-- The operators that lead a cluster; they are never offered as backups. -/
def mainClaimed (clusters : List ClusterSpec) : List String :=
  (clusters.map (·.operatorRef)).filter (· ≠ "")

/-- What the clusters processed so far have claimed. The claims themselves are a history of the
run: they say which windows make up each busy calendar. -/
structure QualificationState where
  backupBusy : Dict String (List (Span ℤ)) := .empty
  operatorClaimants : Dict String (List String) := .empty
  operatorOverlap : Finset String := ∅
  infeasible : List InfeasibleRecord := []
  claims : List Claim := []

/-- The clusters after qualification. -/
structure QualificationOutcome where
  clusters : List ClusterSpec
  infeasible : List InfeasibleRecord
  claims : List Claim

namespace QualificationInputs

variable (inputs : QualificationInputs)

def nowEpoch : ℤ := inputs.now.truncated

def horizonEnd : ℤ := inputs.nowEpoch + routingHorizonS

/-- The operation of a known task, in upper case. -/
def operationOf (taskId : String) : Option String :=
  match inputs.orderIndex.get? taskId with
  | none => none
  | some order =>
    let operation := inputs.upper order.operationType
    if operation = "" then none else some operation

/-- The operations an operator is certified for; an unknown operator has none. -/
def certified (operatorId : String) : List String :=
  match inputs.operatorsById.get? operatorId with
  | none => []
  | some operator => operator.certifiedOperations

/-- The operator may serve the task. -/
def Qualified (operatorId taskId : String) : Prop :=
  ∃ operation ∈ inputs.operationOf taskId, operation ∈ inputs.certified operatorId

instance (operatorId taskId : String) : Decidable (inputs.Qualified operatorId taskId) :=
  inferInstanceAs (Decidable (∃ operation ∈ inputs.operationOf taskId, _))

/-- The whole horizon, demanded when nothing better is known. -/
def wholeHorizon : Span ℤ :=
  ⟨inputs.nowEpoch, inputs.horizonEnd, Int.lt_add_of_pos_right _ (by decide)⟩

/-- A workable window within the horizon, unless nothing of it is left. -/
def clampWindow (window : Instant × Option Instant) : Option (Span ℤ) :=
  let start := max inputs.nowEpoch window.1.truncated
  let stop := match window.2 with
    | some stop => min inputs.horizonEnd stop.truncated
    | none => inputs.horizonEnd
  if ordered : start < stop then some ⟨start, stop, ordered⟩ else none

/-- The windows in which an operation needs a backup. A task without a window demands the whole
horizon, and so do windows of which nothing is left. -/
def operatorDemandWindow (taskIds : List String) : List (Span ℤ) :=
  let windows := taskIds.map fun taskId =>
    ((inputs.orderIndex.get? taskId).map (·.timeWindows)).getD []
  let intervals := windows.flatten.filterMap inputs.clampWindow
  if [] ∈ windows ∨ intervals = [] then [inputs.wholeHorizon] else mergeBusy intervals

/-- The windows a claim reserves. -/
def demand (claim : Claim) : List (Span ℤ) := inputs.operatorDemandWindow claim.taskIds

/-- The operator with the most free capacity, the first of equals. -/
def freest (operatorIds : List String) : Option String :=
  (operatorIds.foldl (fun (best : Option String × ℚ) operatorId =>
    let free := inputs.freeCapacity.getD operatorId 1
    if best.2 < free then (some operatorId, free) else best) (none, -1)).1

/-- The backup for an operation, and whether it is already taken in an overlapping window. -/
def chooseBackup (main : List String) (busy : Dict String (List (Span ℤ))) (operation : String)
    (demand : List (Span ℤ)) : Option (String × Bool) :=
  let candidates := inputs.operatorsById.keys.filter fun operatorId =>
    operatorId ∉ main ∧ operation ∈ inputs.certified operatorId
  let free := candidates.filter fun operatorId => ¬ Overlaps (busy.getD operatorId []) demand
  let taken := candidates.filter fun operatorId => Overlaps (busy.getD operatorId []) demand
  match inputs.freest free with
  | some operatorId => some (operatorId, false)
  | none =>
    if inputs.sharingSequential then (inputs.freest taken).map (·, true) else none

/-- Book a claim. -/
def book (state : QualificationState) (claim : Claim) (isOverlap : Bool) : QualificationState :=
  let claimants := state.operatorClaimants.getD claim.backup []
  { state with
    backupBusy := state.backupBusy.set claim.backup
      (mergeBusy (state.backupBusy.getD claim.backup [] ++ inputs.demand claim))
    operatorClaimants :=
      if claim.clusterId ∈ claimants then state.operatorClaimants
      else state.operatorClaimants.push claim.backup claim.clusterId
    operatorOverlap :=
      if isOverlap then insert claim.backup state.operatorOverlap else state.operatorOverlap
    claims := claim :: state.claims }

/-- Claim one backup for an operation of a cluster, if there is one. -/
def claimOperation (main : List String) (clusterId : String)
    (run : QualificationState × Dict String String) (need : String × List String) :
    QualificationState × Dict String String :=
  match inputs.chooseBackup main run.1.backupBusy need.1 (inputs.operatorDemandWindow need.2) with
  | none => run
  | some (backup, isOverlap) =>
    (inputs.book run.1 ⟨clusterId, need.1, need.2, backup⟩ isOverlap, run.2.set need.1 backup)

/-- The tasks of a cluster that its operator cannot take, by operation. -/
def needsBackup (cluster : ClusterSpec) : Dict String (List String) :=
  Dict.groupBy Prod.fst Prod.snd (cluster.taskIds.filterMap fun taskId =>
    if inputs.Qualified cluster.operatorRef taskId then none
    else (inputs.operationOf taskId).map (·, taskId))

/-- The backup claimed for a task. -/
def backupOf (backups : Dict String String) (taskId : String) : Option String :=
  (inputs.operationOf taskId).bind backups.get?

/-- The record of a task nobody can take. -/
def noAvailableOperator (cluster : ClusterSpec) (taskId : String) : InfeasibleRecord where
  taskId := taskId
  clusterId := cluster.clusterId
  reasonCode := .noAvailableOperator
  detail :=
    "operator " ++ (if cluster.operatorRef = "" then "<none>" else cluster.operatorRef) ++
      " not certified for " ++ (inputs.operationOf taskId).getD "<unknown>" ++
      " and no qualified backup operator is free"

/-- The backups of the tasks that need one. -/
def backupOperators (backups : Dict String String) (cluster : ClusterSpec) : Dict String String :=
  Dict.collect Prod.fst Prod.snd (cluster.taskIds.filterMap fun taskId =>
    if inputs.Qualified cluster.operatorRef taskId then none
    else (inputs.backupOf backups taskId).map (taskId, ·))

/-- Keep the tasks that have an operator, and note the backups. -/
def assignBackups (backups : Dict String String) (cluster : ClusterSpec) : ClusterSpec :=
  let taskOperators := inputs.backupOperators backups cluster
  { cluster with
    taskIds := cluster.taskIds.filter fun taskId =>
      inputs.Qualified cluster.operatorRef taskId ∨ (inputs.backupOf backups taskId).isSome
    taskOperators :=
      if taskOperators.entries.isEmpty then cluster.taskOperators else taskOperators }

/-- The records of the tasks without an operator. -/
def withoutOperator (backups : Dict String String) (cluster : ClusterSpec) :
    List InfeasibleRecord :=
  (cluster.taskIds.filter fun taskId =>
    ¬ (inputs.Qualified cluster.operatorRef taskId ∨ (inputs.backupOf backups taskId).isSome)).map
    (inputs.noAvailableOperator cluster)

/-- Qualify one cluster; a cluster without any resource is left to the solver. -/
def qualifyCluster (main : List String) (state : QualificationState) (cluster : ClusterSpec) :
    QualificationState × ClusterSpec :=
  if cluster.Equipped then
    let claimed := (inputs.needsBackup cluster).entries.foldl
      (inputs.claimOperation main cluster.clusterId) (state, .empty)
    ({ claimed.1 with
        infeasible := claimed.1.infeasible ++ inputs.withoutOperator claimed.2 cluster },
      inputs.assignBackups claimed.2 cluster)
  else (state, cluster)

/-- Qualify the clusters one after the other. -/
def qualifyClusters (main : List String) :
    QualificationState → List ClusterSpec → QualificationState × List ClusterSpec
  | state, [] => (state, [])
  | state, cluster :: rest =>
    let first := inputs.qualifyCluster main state cluster
    let later := qualifyClusters main first.1 rest
    (later.1, first.2 :: later.2)

end QualificationInputs

/-- Stamp a cluster with a contended operator. -/
def ClusterSpec.stamp (cluster : ClusterSpec) (operatorId : String) : ClusterSpec :=
  if operatorId ∈ cluster.sharedBackupOperators then cluster
  else { cluster with sharedBackupOperators := cluster.sharedBackupOperators ++ [operatorId] }

/-- Stamp a cluster if it claims the contended operator. -/
def stampClaimant (claimants : Dict String (List String)) (cluster : ClusterSpec)
    (operatorId : String) : ClusterSpec :=
  if cluster.clusterId ∈ claimants.getD operatorId [] then cluster.stamp operatorId else cluster

/-- Stamp every cluster that claims one contended operator. -/
def stampClaimants (claimants : Dict String (List String)) (clusters : List ClusterSpec)
    (operatorId : String) : List ClusterSpec :=
  clusters.map (stampClaimant claimants · operatorId)

/-- Drop the tasks no qualified operator can take, and stamp the clusters that contend for one. -/
def applyOperatorQualification (inputs : QualificationInputs) (order : SetOrder String)
    (allocated : AllocatedClusters) : QualificationOutcome :=
  let qualified := inputs.qualifyClusters (mainClaimed allocated.clusters) {} allocated.clusters
  { clusters := (order.toList qualified.1.operatorOverlap).foldl
      (stampClaimants qualified.1.operatorClaimants) qualified.2
    infeasible := qualified.1.infeasible
    claims := qualified.1.claims }

namespace QualificationInputs

variable {inputs : QualificationInputs} {main ids : List String} {clusterId operation : String}
  {state : QualificationState}

section Choice

private theorem mem_of_foldl_freest (operatorIds : List String) (best : Option String × ℚ)
    {operatorId : String}
    (found : (operatorIds.foldl (fun (best : Option String × ℚ) operatorId =>
      let free := inputs.freeCapacity.getD operatorId 1
      if best.2 < free then (some operatorId, free) else best) best).1 = some operatorId) :
    best.1 = some operatorId ∨ operatorId ∈ operatorIds := by
  induction operatorIds generalizing best with
  | nil => exact .inl found
  | cons first rest ih =>
    rcases ih _ found with chosen | later
    · dsimp only at chosen
      split at chosen
      · exact .inr (Option.some.inj chosen ▸ List.mem_cons_self)
      · exact .inl chosen
    · exact .inr (List.mem_cons_of_mem _ later)

theorem mem_of_freest {operatorIds : List String} {operatorId : String}
    (found : inputs.freest operatorIds = some operatorId) : operatorId ∈ operatorIds :=
  (mem_of_foldl_freest operatorIds _ found).resolve_left nofun

/-- A chosen backup leads no cluster and is certified; it is shared exactly if it was taken
already, and only where sharing is allowed. -/
theorem chooseBackup_spec {busy : Dict String (List (Span ℤ))} {demand : List (Span ℤ)}
    {backup : String} {isOverlap : Bool}
    (chosen : inputs.chooseBackup main busy operation demand = some (backup, isOverlap)) :
    (backup ∉ main ∧ operation ∈ inputs.certified backup) ∧
      (isOverlap = true ↔ Overlaps (busy.getD backup []) demand) ∧
      (isOverlap = true → inputs.sharingSequential = true) := by
  simp only [chooseBackup] at chosen
  split at chosen
  · next operatorId found =>
    obtain ⟨rfl, rfl⟩ := Prod.mk.inj (Option.some.inj chosen)
    obtain ⟨candidate, free⟩ := List.mem_filter.mp (mem_of_freest found)
    have offered := of_decide_eq_true (List.mem_filter.mp candidate).2
    refine ⟨offered, ⟨fun overlap => ?_, fun overlap => ?_⟩, fun overlap => ?_⟩
    · exact absurd overlap Bool.false_ne_true
    · exact absurd overlap (of_decide_eq_true free)
    · exact absurd overlap Bool.false_ne_true
  · split at chosen
    · next allowed =>
      obtain ⟨operatorId, found, same⟩ := Option.map_eq_some_iff.mp chosen
      obtain ⟨rfl, rfl⟩ := Prod.mk.inj same
      obtain ⟨candidate, taken⟩ := List.mem_filter.mp (mem_of_freest found)
      have offered := of_decide_eq_true (List.mem_filter.mp candidate).2
      exact ⟨offered, ⟨fun _ => of_decide_eq_true taken, fun _ => rfl⟩, fun _ => allowed⟩
    · cases chosen

end Choice

/-- What holds of the claims at any time: the busy calendars are made up of them, each names a
cluster and a qualified backup, and claims of one backup overlap only if it is shared. -/
structure Booked (inputs : QualificationInputs) (main ids : List String)
    (state : QualificationState) : Prop where
  busy : ∀ operatorId t, Covered (state.backupBusy.getD operatorId []) t ↔
    ∃ claim ∈ state.claims, claim.backup = operatorId ∧ Covered (inputs.demand claim) t
  claimants : ∀ claim ∈ state.claims,
    claim.clusterId ∈ state.operatorClaimants.getD claim.backup []
  sound : ∀ claim ∈ state.claims, claim.clusterId ∈ ids ∧ claim.backup ∉ main ∧
    claim.operation ∈ inputs.certified claim.backup
  clashes : state.claims.Pairwise fun later earlier => later.backup = earlier.backup →
    Overlaps (inputs.demand later) (inputs.demand earlier) →
      inputs.sharingSequential = true ∧ later.backup ∈ state.operatorOverlap

namespace Booked

theorem initial (inputs : QualificationInputs) (main ids : List String) :
    Booked inputs main ids {} where
  busy operatorId t := by simp [Dict.getD]
  claimants claim member := absurd member List.not_mem_nil
  sound claim member := absurd member List.not_mem_nil
  clashes := List.Pairwise.nil

/-- Booking a chosen backup keeps the claims in order. -/
theorem book (booked : Booked inputs main ids state) (listed : clusterId ∈ ids)
    {taskIds : List String} {backup : String} {isOverlap : Bool}
    (chosen : inputs.chooseBackup main state.backupBusy operation
      (inputs.operatorDemandWindow taskIds) = some (backup, isOverlap)) :
    Booked inputs main ids
      (inputs.book state ⟨clusterId, operation, taskIds, backup⟩ isOverlap) := by
  obtain ⟨⟨notMain, certified⟩, overlap, allowed⟩ := chooseBackup_spec chosen
  constructor
  · intro operatorId t
    simp only [QualificationInputs.book, Dict.getD_set, List.mem_cons, exists_eq_or_imp]
    by_cases same : operatorId = backup
    · subst same
      rw [if_pos rfl, covered_mergeBusy, covered_append, booked.busy, or_comm]
      simp only [true_and]
    · rw [if_neg same, booked.busy]
      simp only [Ne.symm same, false_and, false_or]
  · intro claim member
    have kept : ∀ id operatorId, id ∈ state.operatorClaimants.getD operatorId [] →
        id ∈ (state.operatorClaimants.push backup clusterId).getD operatorId [] := by
      intro id operatorId present
      rw [Dict.getD_push]
      split
      · exact List.mem_append_left _ present
      · exact present
    simp only [QualificationInputs.book]
    rcases List.mem_cons.mp member with rfl | old
    · split
      · next present => exact present
      · rw [Dict.getD_push, if_pos rfl]
        exact List.mem_append_right _ List.mem_cons_self
    · have present := booked.claimants claim old
      split
      · exact present
      · exact kept _ _ present
  · intro claim member
    rcases List.mem_cons.mp member with rfl | old
    · exact ⟨listed, notMain, certified⟩
    · exact booked.sound claim old
  · refine List.pairwise_cons.mpr ⟨?_, booked.clashes.imp ?_⟩
    · rintro earlier member same ⟨t, inLater, inEarlier⟩
      have shared : isOverlap = true :=
        overlap.mpr ⟨t, (booked.busy backup t).mpr ⟨earlier, member, same.symm, inEarlier⟩, inLater⟩
      refine ⟨allowed shared, ?_⟩
      simp only [QualificationInputs.book, shared, if_true]
      exact Finset.mem_insert_self _ _
    · intro later earlier clash same overlapping
      obtain ⟨sequential, stamped⟩ := clash same overlapping
      refine ⟨sequential, ?_⟩
      simp only [QualificationInputs.book]
      split
      · exact Finset.mem_insert_of_mem stamped
      · exact stamped

end Booked

section OneCluster

variable {cluster : ClusterSpec}

/-- Each backup of a cluster stems from a claim for the tasks that need it. -/
def Backed (clusterId : String) (needs : List (String × List String)) (claims : List Claim)
    (backups : Dict String String) : Prop :=
  ∀ operation backup, backups.get? operation = some backup → ∃ claim ∈ claims,
    claim.clusterId = clusterId ∧ claim.operation = operation ∧ claim.backup = backup ∧
      (operation, claim.taskIds) ∈ needs

/-- Claiming backups for the operations of a cluster keeps the claims in order. -/
theorem foldl_claimOperation (inputs : QualificationInputs) (main : List String)
    {needs : List (String × List String)} (listed : clusterId ∈ ids)
    {pending : List (String × List String)} (subset : pending ⊆ needs)
    (run : QualificationState × Dict String String) (booked : Booked inputs main ids run.1)
    (backed : Backed clusterId needs run.1.claims run.2) :
    Booked inputs main ids (pending.foldl (inputs.claimOperation main clusterId) run).1 ∧
      Backed clusterId needs (pending.foldl (inputs.claimOperation main clusterId) run).1.claims
        (pending.foldl (inputs.claimOperation main clusterId) run).2 ∧
      run.1.claims ⊆ (pending.foldl (inputs.claimOperation main clusterId) run).1.claims := by
  induction pending generalizing run with
  | nil => exact ⟨booked, backed, List.Subset.refl _⟩
  | cons need rest ih =>
    obtain ⟨member, later⟩ := List.cons_subset.mp subset
    rw [List.foldl_cons]
    have one : Booked inputs main ids (inputs.claimOperation main clusterId run need).1 ∧
        Backed clusterId needs (inputs.claimOperation main clusterId run need).1.claims
          (inputs.claimOperation main clusterId run need).2 ∧
        run.1.claims ⊆ (inputs.claimOperation main clusterId run need).1.claims := by
      unfold claimOperation
      split
      · exact ⟨booked, backed, List.Subset.refl _⟩
      · next backup isOverlap chosen =>
        refine ⟨booked.book listed chosen, ?_, List.subset_cons_self _ _⟩
        intro operation claimed found
        rw [Dict.get?_set] at found
        split_ifs at found with same
        · subst same
          exact ⟨_, List.mem_cons_self, rfl, rfl, Option.some.inj found, member⟩
        · obtain ⟨claim, old, rest⟩ := backed operation claimed found
          exact ⟨claim, List.mem_cons_of_mem _ old, rest⟩
    obtain ⟨bookedAll, backedAll, grows⟩ := ih later _ one.1 one.2.1
    exact ⟨bookedAll, backedAll, List.Subset.trans one.2.2 grows⟩

/-- What qualification promises of one cluster: each kept task has a qualified operator, and each
backup was claimed for its task. -/
structure Served (inputs : QualificationInputs) (claims : List Claim) (cluster : ClusterSpec) :
    Prop where
  tasks : cluster.Equipped → ∀ taskId ∈ cluster.taskIds,
    inputs.Qualified (cluster.servingOperator taskId) taskId
  backups : ∀ entry ∈ cluster.taskOperators.entries, ∃ claim ∈ claims,
    claim.clusterId = cluster.clusterId ∧ claim.backup = entry.2 ∧ entry.1 ∈ claim.taskIds ∧
      inputs.operationOf entry.1 = some claim.operation

theorem Served.mono {claims more : List Claim} (served : Served inputs claims cluster)
    (subset : claims ⊆ more) : Served inputs more cluster where
  tasks := served.tasks
  backups entry member := by
    obtain ⟨claim, made, rest⟩ := served.backups entry member
    exact ⟨claim, subset made, rest⟩

/-- A task has a noted backup if it needs one and one was claimed for its operation. -/
theorem get?_backupOperators {backups : Dict String String} {taskId backup : String} :
    (inputs.backupOperators backups cluster).get? taskId = some backup ↔
      taskId ∈ cluster.taskIds ∧ ¬ inputs.Qualified cluster.operatorRef taskId ∧
        inputs.backupOf backups taskId = some backup := by
  have noted : ∀ entry, entry ∈ (cluster.taskIds.filterMap fun taskId =>
      if inputs.Qualified cluster.operatorRef taskId then none
      else (inputs.backupOf backups taskId).map (taskId, ·)) ↔
      entry.1 ∈ cluster.taskIds ∧ ¬ inputs.Qualified cluster.operatorRef entry.1 ∧
        inputs.backupOf backups entry.1 = some entry.2 := by
    intro entry
    rw [List.mem_filterMap]
    constructor
    · rintro ⟨id, member, found⟩
      split_ifs at found with certified
      obtain ⟨value, claimed, rfl⟩ := Option.map_eq_some_iff.mp found
      exact ⟨member, certified, claimed⟩
    · rintro ⟨member, certified, claimed⟩
      refine ⟨entry.1, member, ?_⟩
      rw [if_neg certified, claimed]
      rfl
  constructor
  · intro found
    obtain ⟨entry, member, rfl, rfl⟩ := Dict.exists_of_get?_collect found
    exact (noted entry).mp member
  · intro claimed
    have present := (noted (taskId, backup)).mpr claimed
    have some := (Dict.isSome_get?_collect Prod.fst Prod.snd _ taskId).mpr ⟨_, present, rfl⟩
    obtain ⟨other, found⟩ := Option.isSome_iff_exists.mp some
    obtain ⟨entry, member, rfl, rfl⟩ := Dict.exists_of_get?_collect found
    have same := ((noted entry).mp member).2.2.symm.trans claimed.2.2
    rw [← Option.some.inj same]
    exact found

theorem taskOperators_assignBackups (inputs : QualificationInputs) (backups : Dict String String)
    (unqualified : cluster.taskOperators = .empty) :
    (inputs.assignBackups backups cluster).taskOperators =
      inputs.backupOperators backups cluster := by
  simp only [assignBackups]
  split
  · next empty => rw [unqualified, Dict.eq_empty_of_isEmpty empty]
  · rfl

/-- A task that needs a backup is among those its operation is claimed for. -/
theorem mem_needsBackup {operation : String} {taskIds : List String} {taskId : String}
    (need : (operation, taskIds) ∈ (inputs.needsBackup cluster).entries)
    (member : taskId ∈ cluster.taskIds)
    (certified : ¬ inputs.Qualified cluster.operatorRef taskId)
    (operates : inputs.operationOf taskId = some operation) : taskId ∈ taskIds := by
  rw [Dict.mem_entries_groupBy need, List.mem_map]
  refine ⟨(operation, taskId), List.mem_filter.mpr ⟨List.mem_filterMap.mpr ⟨taskId, member, ?_⟩,
    decide_eq_true rfl⟩, rfl⟩
  rw [if_neg certified, operates]
  rfl

/-- Assigning backups that were claimed for the needs of a cluster serves its kept tasks. -/
theorem served_assignBackups {backups : Dict String String}
    (unqualified : cluster.taskOperators = .empty) (booked : Booked inputs main ids state)
    (backed : Backed cluster.clusterId (inputs.needsBackup cluster).entries state.claims backups) :
    Served inputs state.claims (inputs.assignBackups backups cluster) := by
  have operators := taskOperators_assignBackups inputs backups unqualified
  constructor
  · intro _ taskId kept
    obtain ⟨member, able⟩ := List.mem_filter.mp kept
    rw [ClusterSpec.servingOperator, operators]
    by_cases certified : inputs.Qualified cluster.operatorRef taskId
    · have none : (inputs.backupOperators backups cluster).get? taskId = none := by
        rw [Option.eq_none_iff_forall_ne_some]
        intro backup found
        exact (get?_backupOperators.mp found).2.1 certified
      rw [Dict.getD, none]
      exact certified
    · have some := (of_decide_eq_true able).resolve_left certified
      obtain ⟨backup, claimed⟩ := Option.isSome_iff_exists.mp some
      rw [Dict.getD, get?_backupOperators.mpr ⟨member, certified, claimed⟩]
      obtain ⟨operation, operates, found⟩ := Option.bind_eq_some_iff.mp claimed
      obtain ⟨claim, made, -, rfl, rfl, -⟩ := backed operation backup found
      exact ⟨claim.operation, operates, (booked.sound claim made).2.2⟩
  · intro entry present
    rw [operators, ← Dict.get?_eq_some_iff] at present
    obtain ⟨member, certified, claimed⟩ := get?_backupOperators.mp present
    obtain ⟨operation, operates, found⟩ := Option.bind_eq_some_iff.mp claimed
    obtain ⟨claim, made, here, rfl, chosen, need⟩ := backed operation entry.2 found
    exact ⟨claim, made, here, chosen, mem_needsBackup need member certified operates, operates⟩

/-- Qualifying one cluster keeps the claims in order and serves the cluster. -/
theorem qualifyCluster_spec (unqualified : cluster.taskOperators = .empty)
    (listed : cluster.clusterId ∈ ids) (booked : Booked inputs main ids state) :
    Booked inputs main ids (inputs.qualifyCluster main state cluster).1 ∧
      state.claims ⊆ (inputs.qualifyCluster main state cluster).1.claims ∧
      Served inputs (inputs.qualifyCluster main state cluster).1.claims
        (inputs.qualifyCluster main state cluster).2 := by
  unfold qualifyCluster
  split
  · have unclaimed : Backed cluster.clusterId (inputs.needsBackup cluster).entries state.claims
        (.empty : Dict String String) := by
      intro operation backup found
      cases found
    obtain ⟨bookedAll, backed, grows⟩ := foldl_claimOperation inputs main listed
      (List.Subset.refl _) (state, .empty) booked unclaimed
    have served := served_assignBackups unqualified bookedAll backed
    exact ⟨⟨bookedAll.busy, bookedAll.claimants, bookedAll.sound, bookedAll.clashes⟩, grows, served⟩
  · next bare =>
    refine ⟨booked, List.Subset.refl _, ⟨fun equipped => absurd equipped bare, ?_⟩⟩
    rw [unqualified]
    exact fun _ member => absurd member List.not_mem_nil

end OneCluster

section AllClusters

theorem identity_qualifyCluster (inputs : QualificationInputs) (main : List String)
    (state : QualificationState) (cluster : ClusterSpec) :
    (inputs.qualifyCluster main state cluster).2.clusterId = cluster.clusterId ∧
      (inputs.qualifyCluster main state cluster).2.operatorRef = cluster.operatorRef := by
  unfold qualifyCluster
  split <;> exact ⟨rfl, rfl⟩

/-- Qualification renames no cluster and replaces no operator of one. -/
theorem identity_qualifyClusters (inputs : QualificationInputs) (main : List String)
    (state : QualificationState) (clusters : List ClusterSpec) :
    (inputs.qualifyClusters main state clusters).2.map (·.clusterId) =
        clusters.map (·.clusterId) ∧
      (inputs.qualifyClusters main state clusters).2.map (·.operatorRef) =
        clusters.map (·.operatorRef) := by
  induction clusters generalizing state with
  | nil => exact ⟨rfl, rfl⟩
  | cons cluster rest ih =>
    obtain ⟨id, operator⟩ := identity_qualifyCluster inputs main state cluster
    obtain ⟨ids, operators⟩ := ih (inputs.qualifyCluster main state cluster).1
    simp only [qualifyClusters, List.map_cons, id, operator, ids, operators, and_self]

/-- Qualifying the clusters keeps the claims in order and serves every cluster. -/
theorem qualifyClusters_spec {clusters : List ClusterSpec}
    (unqualified : ∀ cluster ∈ clusters, cluster.taskOperators = .empty)
    (listed : ∀ cluster ∈ clusters, cluster.clusterId ∈ ids)
    (booked : Booked inputs main ids state) :
    Booked inputs main ids (inputs.qualifyClusters main state clusters).1 ∧
      state.claims ⊆ (inputs.qualifyClusters main state clusters).1.claims ∧
      ∀ cluster ∈ (inputs.qualifyClusters main state clusters).2,
        Served inputs (inputs.qualifyClusters main state clusters).1.claims cluster := by
  induction clusters generalizing state with
  | nil => exact ⟨booked, List.Subset.refl _, fun _ member => absurd member List.not_mem_nil⟩
  | cons cluster rest ih =>
    obtain ⟨bookedOne, growsOne, served⟩ := qualifyCluster_spec
      (unqualified cluster List.mem_cons_self) (listed cluster List.mem_cons_self) booked
    obtain ⟨bookedAll, grows, servedRest⟩ :=
      ih (fun other member => unqualified other (List.mem_cons_of_mem _ member))
        (fun other member => listed other (List.mem_cons_of_mem _ member)) bookedOne
    refine ⟨bookedAll, List.Subset.trans growsOne grows, ?_⟩
    intro other member
    rcases List.mem_cons.mp member with rfl | later
    · exact served.mono grows
    · exact servedRest other later

end AllClusters

end QualificationInputs

section Stamping

variable {claimants : Dict String (List String)} {operatorIds : List String}

theorem foldl_stampClaimants (clusters : List ClusterSpec) :
    operatorIds.foldl (stampClaimants claimants) clusters =
      clusters.map fun cluster => operatorIds.foldl (stampClaimant claimants) cluster := by
  induction operatorIds generalizing clusters with
  | nil => exact (List.map_id' clusters).symm
  | cons operatorId rest ih =>
    rw [List.foldl_cons, ih, stampClaimants, List.map_map]
    rfl

/-- Stamping adds stamps and changes nothing else; a claimant bears every stamp due to it. -/
theorem foldl_stampClaimant (claimants : Dict String (List String)) (operatorIds : List String)
    (cluster : ClusterSpec) :
    ∃ stamps, operatorIds.foldl (stampClaimant claimants) cluster =
        { cluster with sharedBackupOperators := stamps } ∧
      cluster.sharedBackupOperators ⊆ stamps ∧
      ∀ operatorId ∈ operatorIds, cluster.clusterId ∈ claimants.getD operatorId [] →
        operatorId ∈ stamps := by
  induction operatorIds generalizing cluster with
  | nil => exact ⟨_, rfl, List.Subset.refl _, nofun⟩
  | cons operatorId rest ih =>
    have one : ∃ stamps, stampClaimant claimants cluster operatorId =
        { cluster with sharedBackupOperators := stamps } ∧
        cluster.sharedBackupOperators ⊆ stamps ∧
        (cluster.clusterId ∈ claimants.getD operatorId [] → operatorId ∈ stamps) := by
      unfold stampClaimant ClusterSpec.stamp
      split
      · split
        · next present => exact ⟨_, rfl, List.Subset.refl _, fun _ => present⟩
        · exact ⟨_, rfl, List.subset_append_left _ _,
            fun _ => List.mem_append_right _ List.mem_cons_self⟩
      · next absent => exact ⟨_, rfl, List.Subset.refl _, fun claims => absurd claims absent⟩
    obtain ⟨first, stamped, keeps, due⟩ := one
    obtain ⟨all, result, keepsAll, dueAll⟩ := ih
      { cluster with sharedBackupOperators := first }
    refine ⟨all, ?_, List.Subset.trans keeps keepsAll, ?_⟩
    · rw [List.foldl_cons, stamped, result]
    · intro other member claims
      rcases List.mem_cons.mp member with rfl | later
      · exact keepsAll (due claims)
      · exact dueAll other later claims

/-- Stamping renames no cluster and replaces no operator of one. -/
theorem identity_foldl_stampClaimants (claimants : Dict String (List String))
    (operatorIds : List String) (clusters : List ClusterSpec) :
    (operatorIds.foldl (stampClaimants claimants) clusters).map (·.clusterId) =
        clusters.map (·.clusterId) ∧
      (operatorIds.foldl (stampClaimants claimants) clusters).map (·.operatorRef) =
        clusters.map (·.operatorRef) := by
  have same : ∀ cluster : ClusterSpec,
      (operatorIds.foldl (stampClaimant claimants) cluster).clusterId = cluster.clusterId ∧
        (operatorIds.foldl (stampClaimant claimants) cluster).operatorRef =
          cluster.operatorRef := by
    intro cluster
    obtain ⟨stamps, result, -, -⟩ := foldl_stampClaimant claimants operatorIds cluster
    rw [result]
    exact ⟨rfl, rfl⟩
  rw [foldl_stampClaimants, List.map_map, List.map_map]
  exact ⟨List.map_congr_left fun cluster _ => (same cluster).1,
    List.map_congr_left fun cluster _ => (same cluster).2⟩

end Stamping

section Outcome

variable {inputs : QualificationInputs} {order : SetOrder String} {allocated : AllocatedClusters}

/-- Each cluster of the outcome is a qualified cluster with the stamps due to it. -/
theorem exists_qualified {cluster : ClusterSpec}
    (member : cluster ∈ (applyOperatorQualification inputs order allocated).clusters) :
    ∃ qualified ∈ (inputs.qualifyClusters (mainClaimed allocated.clusters) {}
      allocated.clusters).2, ∃ stamps, cluster =
        { qualified with sharedBackupOperators := stamps } := by
  simp only [applyOperatorQualification, foldl_stampClaimants] at member
  obtain ⟨qualified, listed, rfl⟩ := List.mem_map.mp member
  obtain ⟨stamps, result, -, -⟩ := foldl_stampClaimant _ _ qualified
  exact ⟨qualified, listed, stamps, result⟩

theorem identity_outcome :
    (applyOperatorQualification inputs order allocated).clusters.map (·.clusterId) =
        allocated.clusters.map (·.clusterId) ∧
      (applyOperatorQualification inputs order allocated).clusters.map (·.operatorRef) =
        allocated.clusters.map (·.operatorRef) := by
  obtain ⟨ids, operators⟩ :=
    inputs.identity_qualifyClusters (mainClaimed allocated.clusters) {} allocated.clusters
  obtain ⟨stampedIds, stampedOperators⟩ := identity_foldl_stampClaimants _ _ _
  exact ⟨stampedIds.trans ids, stampedOperators.trans operators⟩

/-- The claims of the whole pass are in order, and every qualified cluster is served. -/
theorem outcome_spec (inputs : QualificationInputs) (allocated : AllocatedClusters) :
    let qualified := inputs.qualifyClusters (mainClaimed allocated.clusters) {} allocated.clusters
    inputs.Booked (mainClaimed allocated.clusters) (allocated.clusters.map (·.clusterId))
        qualified.1 ∧
      ∀ cluster ∈ qualified.2, inputs.Served qualified.1.claims cluster := by
  obtain ⟨booked, -, served⟩ := QualificationInputs.qualifyClusters_spec allocated.unqualified
    (fun cluster member => List.mem_map_of_mem member)
    (.initial inputs (mainClaimed allocated.clusters) _)
  exact ⟨booked, served⟩

/-- A claimed cluster whose backup is contended ends up with its stamp. -/
theorem exists_stamped (order : SetOrder String) {claim : Claim}
    (made : claim ∈ (applyOperatorQualification inputs order allocated).claims)
    (contended : claim.backup ∈ (inputs.qualifyClusters (mainClaimed allocated.clusters) {}
      allocated.clusters).1.operatorOverlap) :
    ∃ cluster ∈ (applyOperatorQualification inputs order allocated).clusters,
      cluster.clusterId = claim.clusterId ∧ claim.backup ∈ cluster.sharedBackupOperators := by
  obtain ⟨booked, -⟩ := outcome_spec inputs allocated
  obtain ⟨known, -⟩ := booked.sound claim made
  rw [← (inputs.identity_qualifyClusters (mainClaimed allocated.clusters) {}
    allocated.clusters).1] at known
  obtain ⟨qualified, listed, same⟩ := List.mem_map.mp known
  obtain ⟨stamps, result, -, due⟩ := foldl_stampClaimant
    (inputs.qualifyClusters (mainClaimed allocated.clusters) {}
      allocated.clusters).1.operatorClaimants
    (order.toList (inputs.qualifyClusters (mainClaimed allocated.clusters) {}
      allocated.clusters).1.operatorOverlap) qualified
  refine ⟨{ qualified with sharedBackupOperators := stamps }, ?_, same, ?_⟩
  · simp only [applyOperatorQualification, foldl_stampClaimants]
    exact List.mem_map.mpr ⟨qualified, listed, result⟩
  · apply due claim.backup ((order.mem _ _).mpr contended)
    rw [same]
    exact booked.claimants claim made

/-- Backup sharing is safe. Every task kept in a cluster with resources has a certified operator,
and no backup leads a cluster; claims of one backup are disjoint, or else the clusters whose
claims overlap are stamped with it and solved in one group. -/
theorem applyOperatorQualification_safe (inputs : QualificationInputs) (order : SetOrder String)
    (allocated : AllocatedClusters) :
    let outcome := applyOperatorQualification inputs order allocated
    (∀ cluster ∈ outcome.clusters, inputs.Served outcome.claims cluster ∧
      ∀ backup ∈ cluster.taskOperators.values, backup ∉ mainClaimed outcome.clusters) ∧
    (inputs.sharingSequential = false → outcome.claims.Pairwise fun later earlier =>
      later.backup = earlier.backup →
        ¬ Overlaps (inputs.demand later) (inputs.demand earlier)) ∧
    (inputs.sharingSequential = true → ∀ a ∈ outcome.claims, ∀ b ∈ outcome.claims,
      a.clusterId ≠ b.clusterId → a.backup = b.backup →
      Overlaps (inputs.demand a) (inputs.demand b) →
        ∃ first ∈ outcome.clusters, ∃ second ∈ outcome.clusters,
          first.clusterId = a.clusterId ∧ second.clusterId = b.clusterId ∧
          a.backup ∈ first.sharedBackupOperators ∧ a.backup ∈ second.sharedBackupOperators ∧
          ∃ group ∈ operatorSharingGroups outcome.clusters,
            a.clusterId ∈ group ∧ b.clusterId ∈ group) := by
  obtain ⟨booked, served⟩ := outcome_spec inputs allocated
  intro outcome
  refine ⟨?_, ?_, ?_⟩
  · intro cluster member
    obtain ⟨qualified, listed, stamps, rfl⟩ := exists_qualified member
    have kept := served qualified listed
    refine ⟨⟨kept.tasks, kept.backups⟩, ?_⟩
    intro backup noted
    obtain ⟨entry, present, rfl⟩ := List.mem_map.mp noted
    obtain ⟨claim, made, -, chosen, -⟩ := kept.backups entry present
    have leads : mainClaimed outcome.clusters = mainClaimed allocated.clusters := by
      rw [mainClaimed, mainClaimed, identity_outcome.2]
    rw [leads, ← chosen]
    exact (booked.sound claim made).2.1
  · intro off
    refine booked.clashes.imp ?_
    intro later earlier clash same overlap
    exact Bool.false_ne_true (off.symm.trans (clash same overlap).1)
  · intro _ a madeA b madeB differ same overlap
    -- whichever claim came later found the backup taken
    have symmetric : Std.Symm fun x y : Claim => x.backup = y.backup →
        Overlaps (inputs.demand x) (inputs.demand y) → inputs.sharingSequential = true ∧
          x.backup ∈ (inputs.qualifyClusters (mainClaimed allocated.clusters) {}
            allocated.clusters).1.operatorOverlap := by
      constructor
      intro x y clash equal overlapping
      rw [equal]
      exact clash equal.symm overlapping.symm
    have distinct : a ≠ b := fun equal => differ (congrArg Claim.clusterId equal)
    obtain ⟨-, contended⟩ := booked.clashes.forall madeA madeB distinct same overlap
    obtain ⟨first, memberA, idA, stampA⟩ := exists_stamped order madeA contended
    obtain ⟨second, memberB, idB, stampB⟩ :=
      exists_stamped order madeB (same ▸ contended)
    rw [← same] at stampB
    refine ⟨first, memberA, second, memberB, idA, idB, stampA, stampB, ?_⟩
    rw [← idA, ← idB]
    exact exists_sharing_group memberA memberB stampA stampB (idA ▸ idB ▸ differ)

/-- A cluster without vehicles and operator is passed over, and keeps a task nobody may take. -/
theorem bare_cluster_keeps_task :
    let inputs : QualificationInputs :=
      { orderIndex := Dict.empty.set "t-1" { taskId := "t-1", operationType := "SPRAYING" }
        operatorsById := .empty
        now := 0
        upper := id }
    let allocated : AllocatedClusters :=
      { clusters := [{ clusterId := "cluster_000000", taskIds := ["t-1"] }]
        distinct := by decide
        unqualified := by decide }
    ∃ cluster ∈ (applyOperatorQualification inputs .increasing allocated).clusters,
      ∃ taskId ∈ cluster.taskIds,
        ¬ inputs.Qualified (cluster.servingOperator taskId) taskId := by
  decide +kernel

end Outcome

end FlOp.Solver
