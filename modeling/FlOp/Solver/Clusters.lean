import FlOp.Library.Dict
import FlOp.Library.UnionFind
import Mathlib.Algebra.Order.Ring.Rat
import Mathlib.Data.List.Flatten

/-! # Clusters and operator-sharing groups

A cluster is the unit the pool solves. Clusters stamped with the same shared operator end up in
one group, found as a connected component over the stamps.
-/

namespace FlOp.Solver

open Library

/-- One cluster of tasks with the resources allocated to it. -/
structure ClusterSpec where
  clusterId : String
  depotRef : String := ""
  taskIds : List String
  allocatedPrimeRelated : Dict String (List String) := .empty
  operatorRef : String := ""
  taskOperators : Dict String String := .empty
  sharedBackupOperators : List String := []
  totalPenaltyPerDay : ℚ := 0
deriving DecidableEq

/-- The clusters stamped with each operator. -/
def operatorClusters (clusters : List ClusterSpec) : Dict String (List String) :=
  Dict.groupBy Prod.fst Prod.snd
    (clusters.flatMap fun cluster =>
      cluster.sharedBackupOperators.map fun operator => (operator, cluster.clusterId))

/-- Join the clusters of one operator. -/
def joinClusters (forest : Forest String) : List String → Forest String
  | [] => forest
  | head :: rest => rest.foldl (fun joined other => joined.union head other) forest

/-- The forest after joining the clusters of every operator. -/
def sharingForest (clusters : List ClusterSpec) : Forest String :=
  (operatorClusters clusters).values.foldl joinClusters .empty

/-- Put one cluster into the group of its root. -/
def collectGroup (state : Forest String × Dict String (List String)) (clusterId : String) :
    Forest String × Dict String (List String) :=
  if clusterId ∈ state.1.parent.keys then
    let found := state.1.find clusterId
    (found.1, state.2.push found.2 clusterId)
  else state

/-- Connected components of clusters that share an operator. -/
def operatorSharingGroups (clusters : List ClusterSpec) : List (List String) :=
  let collected := (clusters.map (·.clusterId)).foldl collectGroup (sharingForest clusters, .empty)
  collected.2.values.filter fun members => 2 ≤ members.length

section Joining

variable {forest : Forest String} {a b : String}

theorem foldl_union_keeps (head : String) (rest : List String)
    (together : forest.Together a b) :
    (rest.foldl (fun joined other => joined.union head other) forest).Together a b := by
  induction rest generalizing forest with
  | nil => exact together
  | cons other rest ih =>
    rw [List.foldl_cons]
    exact ih (together.union head other)

theorem foldl_union_known (head : String) (rest : List String) (known : a ∈ forest.parent.keys) :
    a ∈ (rest.foldl (fun joined other => joined.union head other) forest).parent.keys := by
  induction rest generalizing forest with
  | nil => exact known
  | cons other rest ih =>
    rw [List.foldl_cons]
    exact ih ((forest.known_union head other).1 known)

theorem joinClusters_keeps (members : List String) (together : forest.Together a b) :
    (joinClusters forest members).Together a b := by
  cases members with
  | nil => exact together
  | cons head rest => exact foldl_union_keeps head rest together

theorem joinClusters_known (members : List String) (known : a ∈ forest.parent.keys) :
    a ∈ (joinClusters forest members).parent.keys := by
  cases members with
  | nil => exact known
  | cons head rest => exact foldl_union_known head rest known

/-- Every later cluster of an operator is joined with the first one. -/
theorem joined_with_head (forest : Forest String) (head : String) {rest : List String}
    (member : a ∈ rest) :
    (joinClusters forest (head :: rest)).Together head a ∧
      head ∈ (joinClusters forest (head :: rest)).parent.keys ∧
      a ∈ (joinClusters forest (head :: rest)).parent.keys := by
  simp only [joinClusters]
  induction rest generalizing forest with
  | nil => simp at member
  | cons other rest ih =>
    rw [List.foldl_cons]
    rcases List.mem_cons.mp member with rfl | later
    · obtain ⟨-, first, second⟩ := forest.known_union head a
      exact ⟨foldl_union_keeps head rest (forest.together_union head a),
        foldl_union_known head rest first, foldl_union_known head rest second⟩
    · exact ih (forest.union head other) later

/-- The clusters of one operator are joined. -/
theorem joinClusters_together {members : List String} (memberA : a ∈ members)
    (memberB : b ∈ members) (differ : a ≠ b) :
    (joinClusters forest members).Together a b ∧
      a ∈ (joinClusters forest members).parent.keys ∧
      b ∈ (joinClusters forest members).parent.keys := by
  cases members with
  | nil => simp at memberA
  | cons head rest =>
    rcases List.mem_cons.mp memberA with rfl | laterA
    · have laterB := (List.mem_cons.mp memberB).resolve_left (Ne.symm differ)
      exact joined_with_head forest a laterB
    · obtain ⟨togetherA, knownHead, knownA⟩ := joined_with_head forest head laterA
      rcases List.mem_cons.mp memberB with rfl | laterB
      · exact ⟨togetherA.symm, knownA, knownHead⟩
      · obtain ⟨togetherB, -, knownB⟩ := joined_with_head forest head laterB
        exact ⟨togetherA.symm.trans togetherB, knownA, knownB⟩

theorem foldl_join_keeps (all : List (List String)) (forest : Forest String)
    (together : forest.Together a b) (knownA : a ∈ forest.parent.keys)
    (knownB : b ∈ forest.parent.keys) :
    (all.foldl joinClusters forest).Together a b ∧
      a ∈ (all.foldl joinClusters forest).parent.keys ∧
      b ∈ (all.foldl joinClusters forest).parent.keys := by
  induction all generalizing forest with
  | nil => exact ⟨together, knownA, knownB⟩
  | cons members rest ih =>
    exact ih (joinClusters forest members) (joinClusters_keeps members together)
      (joinClusters_known members knownA) (joinClusters_known members knownB)

theorem foldl_join_together {all : List (List String)} {members : List String}
    (forest : Forest String) (listed : members ∈ all) (memberA : a ∈ members)
    (memberB : b ∈ members) (differ : a ≠ b) :
    (all.foldl joinClusters forest).Together a b ∧
      a ∈ (all.foldl joinClusters forest).parent.keys ∧
      b ∈ (all.foldl joinClusters forest).parent.keys := by
  induction all generalizing forest with
  | nil => simp at listed
  | cons first rest ih =>
    rw [List.foldl_cons]
    rcases List.mem_cons.mp listed with rfl | later
    · obtain ⟨together, knownA, knownB⟩ := joinClusters_together memberA memberB differ
      exact foldl_join_keeps rest _ together knownA knownB
    · exact ih (joinClusters forest first) later

end Joining

section Groups

variable {clusters : List ClusterSpec} {a b : ClusterSpec} {operator : String}

/-- Clusters with a common stamp are together in the sharing forest. -/
theorem sharingForest_together (memberA : a ∈ clusters) (memberB : b ∈ clusters)
    (stampA : operator ∈ a.sharedBackupOperators) (stampB : operator ∈ b.sharedBackupOperators)
    (differ : a.clusterId ≠ b.clusterId) :
    (sharingForest clusters).Together a.clusterId b.clusterId ∧
      a.clusterId ∈ (sharingForest clusters).parent.keys ∧
      b.clusterId ∈ (sharingForest clusters).parent.keys := by
  have stamped : ∀ c ∈ clusters, operator ∈ c.sharedBackupOperators →
      c.clusterId ∈ (operatorClusters clusters).getD operator [] := by
    intro c member stamp
    rw [operatorClusters, Dict.getD_groupBy, List.mem_map]
    refine ⟨(operator, c.clusterId), ?_, rfl⟩
    simp only [List.mem_filter, List.mem_flatMap, List.mem_map, decide_true, and_true]
    exact ⟨c, member, operator, stamp, rfl⟩
  have inA := stamped a memberA stampA
  have inB := stamped b memberB stampB
  have listed := Dict.getD_mem_values inA
  exact foldl_join_together .empty listed inA inB differ

/-- While groups are collected, every known cluster seen so far is in the group of its root. -/
theorem foldl_collectGroup_mem {ids : List String} {forest : Forest String}
    {groups : Dict String (List String)} {start : Forest String} (keeps : forest.Keeps start)
    {id root : String} (rootOf : start.RootOf id root) (known : id ∈ start.parent.keys)
    (seen : id ∈ ids ∨ id ∈ groups.getD root []) :
    id ∈ (ids.foldl collectGroup (forest, groups)).2.getD root [] := by
  induction ids generalizing forest groups with
  | nil => exact seen.resolve_left List.not_mem_nil
  | cons next rest ih =>
    rw [List.foldl_cons]
    unfold collectGroup
    split
    · next present =>
      obtain ⟨r, nextRoot⟩ := forest.exists_rootOf next
      obtain ⟨found, kept, -⟩ := Forest.find_spec nextRoot
      apply ih (kept.trans keeps)
      rw [Dict.getD_push]
      rcases seen with member | member
      · rcases List.mem_cons.mp member with rfl | later
        · have same : r = root := nextRoot.unique (keeps.rootOf _ _ rootOf)
          rw [if_pos (by rw [found, same])]
          exact .inr (List.mem_append_right _ List.mem_cons_self)
        · exact .inl later
      · split
        · next same => exact .inr (List.mem_append_left _ (same ▸ member))
        · exact .inr member
    · next absent =>
      apply ih keeps
      rcases seen with member | member
      · rcases List.mem_cons.mp member with rfl | later
        · exact absurd (keeps.known known) absent
        · exact .inl later
      · exact .inr member

/-- Clusters with a common stamp end in one sharing group. -/
theorem exists_sharing_group (memberA : a ∈ clusters) (memberB : b ∈ clusters)
    (stampA : operator ∈ a.sharedBackupOperators) (stampB : operator ∈ b.sharedBackupOperators)
    (differ : a.clusterId ≠ b.clusterId) :
    ∃ group ∈ operatorSharingGroups clusters, a.clusterId ∈ group ∧ b.clusterId ∈ group := by
  obtain ⟨⟨root, rootA, rootB⟩, knownA, knownB⟩ :=
    sharingForest_together memberA memberB stampA stampB differ
  have collected : ∀ c ∈ clusters, (sharingForest clusters).RootOf c.clusterId root →
      c.clusterId ∈ (sharingForest clusters).parent.keys → c.clusterId ∈
        ((clusters.map (·.clusterId)).foldl collectGroup
          (sharingForest clusters, .empty)).2.getD root [] := by
    intro c member rootC knownC
    exact foldl_collectGroup_mem .rfl rootC knownC (.inl (List.mem_map_of_mem member))
  have inA := collected a memberA rootA knownA
  have inB := collected b memberB rootB knownB
  refine ⟨_, List.mem_filter.mpr ⟨Dict.getD_mem_values inA, ?_⟩, inA, inB⟩
  have distinct : [a.clusterId, b.clusterId].Nodup := by simpa using differ
  have both := List.subperm_of_subset distinct
    (List.cons_subset.mpr ⟨inA, List.cons_subset.mpr ⟨inB, List.nil_subset _⟩⟩)
  exact decide_eq_true both.length_le

/-- Collecting groups files each cluster at most once. -/
theorem perm_foldl_collectGroup (ids : List String) (forest : Forest String)
    (groups : Dict String (List String)) :
    ∃ filed, filed.Sublist ids ∧
      (ids.foldl collectGroup (forest, groups)).2.values.flatten.Perm
        (filed ++ groups.values.flatten) := by
  induction ids generalizing forest groups with
  | nil => exact ⟨[], List.nil_sublist _, .refl _⟩
  | cons id rest ih =>
    rw [List.foldl_cons]
    unfold collectGroup
    split
    · obtain ⟨filed, sublist, perm⟩ := ih (forest.find id).1 (groups.push (forest.find id).2 id)
      refine ⟨id :: filed, sublist.cons_cons id, perm.trans ?_⟩
      have pushed := (groups.perm_flatten_push (forest.find id).2 id).append_left filed
      exact pushed.trans List.perm_middle
    · obtain ⟨filed, sublist, perm⟩ := ih forest groups
      exact ⟨filed, sublist.cons id, perm⟩

/-- The groups together list distinct clusters of the input. -/
theorem operatorSharingGroups_spec (distinct : (clusters.map (·.clusterId)).Nodup) :
    (operatorSharingGroups clusters).flatten.Nodup ∧
      (operatorSharingGroups clusters).flatten ⊆ clusters.map (·.clusterId) := by
  obtain ⟨filed, sublist, perm⟩ :=
    perm_foldl_collectGroup (clusters.map (·.clusterId)) (sharingForest clusters) .empty
  have all : filed ++ (Dict.empty : Dict String (List String)).values.flatten = filed :=
    List.append_nil filed
  rw [all] at perm
  have kept : (operatorSharingGroups clusters).flatten.Sublist _ :=
    List.Sublist.flatten List.filter_sublist
  constructor
  · exact (perm.nodup_iff.mpr (distinct.sublist sublist)).sublist kept
  · intro id member
    exact sublist.subset (perm.subset (kept.subset member))

end Groups

example : operatorSharingGroups
    [{ clusterId := "a", taskIds := [], sharedBackupOperators := ["op-1"] },
      { clusterId := "b", taskIds := [], sharedBackupOperators := ["op-2"] },
      { clusterId := "c", taskIds := [], sharedBackupOperators := ["op-1", "op-3"] },
      { clusterId := "d", taskIds := [], sharedBackupOperators := ["op-3"] }] =
    [["a", "c", "d"]] := by
  decide

end FlOp.Solver
