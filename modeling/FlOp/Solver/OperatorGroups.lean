import FlOp.Library.WorkerPools
import FlOp.Solver.ClusterPool
import Mathlib.Combinatorics.SimpleGraph.Connectivity.Connected

/-! # Operator-sharing groups as connected components

Two clusters are linked if they are stamped with a common operator. The groups are the connected
components of at least two clusters. The pool hands out the clusters outside every group as jobs of
their own and after them every group as one job, so linked clusters are not solved at once. Without
sequential sharing there are no groups, whatever the stamps.
-/

namespace FlOp.Solver

open Library

/-- Clusters that share an operator are linked. -/
def sharingGraph (clusters : List ClusterSpec) : SimpleGraph String where
  Adj a b := a ≠ b ∧ ∃ first ∈ clusters, ∃ second ∈ clusters,
    first.clusterId = a ∧ second.clusterId = b ∧
      ∃ operator ∈ first.sharedBackupOperators, operator ∈ second.sharedBackupOperators
  symm := ⟨by
    rintro a b ⟨differ, first, listed, second, listedToo, sameA, sameB, operator, stamp, stampToo⟩
    exact ⟨differ.symm, second, listedToo, first, listed, sameB, sameA, operator, stampToo, stamp⟩⟩
  loopless := ⟨fun _ linked => linked.1 rfl⟩

section Components

variable {clusters : List ClusterSpec} {a b : String}

/-- The clusters of one operator are linked with each other. -/
theorem reachable_of_operatorClusters {members : List String}
    (listed : members ∈ (operatorClusters clusters).values) (memberA : a ∈ members)
    (memberB : b ∈ members) : (sharingGraph clusters).Reachable a b := by
  obtain ⟨operator, found⟩ := (Dict.mem_values_iff _ _).mp listed
  have stamped : ∀ id ∈ members, ∃ cluster ∈ clusters,
      cluster.clusterId = id ∧ operator ∈ cluster.sharedBackupOperators := by
    intro id member
    have inside : id ∈ (operatorClusters clusters).getD operator [] := by
      rwa [Dict.getD, found]
    rw [operatorClusters, Dict.getD_groupBy, List.mem_map] at inside
    obtain ⟨⟨key, _⟩, stamp, rfl⟩ := inside
    simp only [List.mem_filter, List.mem_flatMap, List.mem_map, Prod.mk.injEq,
      decide_eq_true_eq] at stamp
    obtain ⟨⟨cluster, present, name, stamp, rfl, rfl⟩, rfl⟩ := stamp
    exact ⟨cluster, present, rfl, stamp⟩
  by_cases same : a = b
  · exact same ▸ .rfl
  · obtain ⟨first, presentA, rfl, stampA⟩ := stamped a memberA
    obtain ⟨second, presentB, rfl, stampB⟩ := stamped b memberB
    have linked : (sharingGraph clusters).Adj first.clusterId second.clusterId :=
      ⟨same, first, presentA, second, presentB, rfl, rfl, operator, stampA, stampB⟩
    exact linked.reachable

/-- Joining linked clusters relates no others. -/
theorem within_joinClusters {relation : String → String → Prop}
    (equivalence : Equivalence relation) {forest : Forest String} {members : List String}
    (within : forest.Within relation)
    (related : ∀ a ∈ members, ∀ b ∈ members, relation a b) :
    (joinClusters forest members).Within relation := by
  cases members with
  | nil => exact within
  | cons head rest =>
    rw [joinClusters]
    have linked : ∀ other ∈ rest, relation head other := fun other member =>
      related head List.mem_cons_self other (List.mem_cons_of_mem _ member)
    clear related
    induction rest generalizing forest with
    | nil => exact within
    | cons other rest ih =>
      rw [List.foldl_cons]
      exact ih (within.union equivalence (linked other List.mem_cons_self))
        fun later member => linked later (List.mem_cons_of_mem _ member)

/-- Clusters that are together in the sharing forest are connected. -/
theorem reachable_of_together (together : (sharingForest clusters).Together a b) :
    (sharingGraph clusters).Reachable a b := by
  have equivalence := (sharingGraph clusters).reachable_is_equivalence
  have within : (sharingForest clusters).Within (sharingGraph clusters).Reachable := by
    have all : ∀ members ∈ (operatorClusters clusters).values, ∀ a ∈ members, ∀ b ∈ members,
        (sharingGraph clusters).Reachable a b := fun members listed a memberA b memberB =>
      reachable_of_operatorClusters listed memberA memberB
    rw [sharingForest]
    have start : (Forest.empty : Forest String).Within (sharingGraph clusters).Reachable :=
      .empty equivalence
    revert all start
    generalize (operatorClusters clusters).values = lists
    generalize (Forest.empty : Forest String) = forest
    intro all start
    induction lists generalizing forest with
    | nil => exact start
    | cons members rest ih =>
      rw [List.foldl_cons]
      exact ih (joinClusters forest members)
        (fun later listed => all later (List.mem_cons_of_mem _ listed))
        (within_joinClusters equivalence start (all members List.mem_cons_self))
  exact within.of_together equivalence together

/-- Connected clusters are together in the sharing forest, which knows every linked one. -/
theorem together_of_reachable (reachable : (sharingGraph clusters).Reachable a b) :
    (sharingForest clusters).Together a b ∧
      (a ≠ b → a ∈ (sharingForest clusters).parent.keys ∧
        b ∈ (sharingForest clusters).parent.keys ∧
        a ∈ clusters.map (·.clusterId) ∧ b ∈ clusters.map (·.clusterId)) := by
  have linked : ∀ {a b : String}, (sharingGraph clusters).Adj a b →
      (sharingForest clusters).Together a b ∧ a ∈ (sharingForest clusters).parent.keys ∧
        b ∈ (sharingForest clusters).parent.keys ∧
        a ∈ clusters.map (·.clusterId) ∧ b ∈ clusters.map (·.clusterId) := by
    rintro _ _ ⟨differ, first, listed, second, listedToo, rfl, rfl, operator, stamp, stampToo⟩
    obtain ⟨together, known, knownToo⟩ :=
      sharingForest_together listed listedToo stamp stampToo differ
    exact ⟨together, known, knownToo, List.mem_map_of_mem listed, List.mem_map_of_mem listedToo⟩
  rw [SimpleGraph.reachable_iff_reflTransGen] at reachable
  induction reachable using Relation.ReflTransGen.head_induction_on with
  | refl =>
    obtain ⟨r, root⟩ := (sharingForest clusters).exists_rootOf b
    exact ⟨⟨r, root, root⟩, fun differ => absurd rfl differ⟩
  | @head a c edge rest ih =>
    obtain ⟨together, known, knownToo, listed, listedToo⟩ := linked edge
    refine ⟨together.trans ih.1, fun _ => ?_⟩
    by_cases same : c = b
    · subst same
      exact ⟨known, knownToo, listed, listedToo⟩
    · obtain ⟨-, knownB, -, listedB⟩ := ih.2 same
      exact ⟨known, knownB, listed, listedB⟩

/-- Every cluster filed under a root leads to it. -/
theorem mem_foldl_collectGroup {ids : List String} {start forest : Forest String}
    {groups : Dict String (List String)} (keeps : forest.Keeps start) {id root : String}
    (member : id ∈ (ids.foldl collectGroup (forest, groups)).2.getD root []) :
    id ∈ groups.getD root [] ∨ id ∈ ids ∧ start.RootOf id root := by
  induction ids generalizing forest groups with
  | nil => exact .inl member
  | cons next rest ih =>
    rw [List.foldl_cons] at member
    unfold collectGroup at member
    split at member
    · obtain ⟨r, rootNext⟩ := start.exists_rootOf next
      obtain ⟨found, kept, -⟩ := Forest.find_spec (keeps.rootOf next r rootNext)
      rcases ih (kept.trans keeps) member with earlier | ⟨later, leads⟩
      · rw [Dict.getD_push] at earlier
        split at earlier
        · next same =>
          rcases List.mem_append.mp earlier with filed | new
          · exact .inl (same ▸ filed)
          · obtain rfl := List.mem_singleton.mp new
            obtain rfl : r = root := found.symm.trans same.symm
            exact .inr ⟨List.mem_cons_self, rootNext⟩
        · exact .inl earlier
      · exact .inr ⟨List.mem_cons_of_mem _ later, leads⟩
    · rcases ih keeps member with earlier | ⟨later, leads⟩
      · exact .inl earlier
      · exact .inr ⟨List.mem_cons_of_mem _ later, leads⟩

/-- The groups of any size, by the root of their clusters. -/
def collectedGroups (clusters : List ClusterSpec) : Dict String (List String) :=
  ((clusters.map (·.clusterId)).foldl collectGroup (sharingForest clusters, .empty)).2

/-- The group of a cluster holds what is connected to it. -/
theorem mem_collectedGroups_iff {root : String}
    (inA : a ∈ (collectedGroups clusters).getD root []) :
    b ∈ (collectedGroups clusters).getD root [] ↔ (sharingGraph clusters).Reachable a b := by
  have leads : ∀ id ∈ (collectedGroups clusters).getD root [],
      (sharingForest clusters).RootOf id root := by
    intro id member
    rcases mem_foldl_collectGroup .rfl member with empty | ⟨-, leads⟩
    · cases empty
    · exact leads
  constructor
  · intro inB
    exact reachable_of_together ⟨root, leads a inA, leads b inB⟩
  · intro reachable
    by_cases same : a = b
    · exact same ▸ inA
    · obtain ⟨⟨r, rootA, rootB⟩, known⟩ := together_of_reachable reachable
      obtain ⟨-, knownB, -, listedB⟩ := known same
      obtain rfl := rootA.unique (leads a inA)
      exact foldl_collectGroup_mem .rfl rootB knownB (.inl listedB)

/-- A cluster that is connected to another one is in a group. -/
theorem exists_mem_collectedGroups (reachable : (sharingGraph clusters).Reachable a b)
    (differ : a ≠ b) : ∃ root, a ∈ (collectedGroups clusters).getD root [] := by
  obtain ⟨⟨r, rootA, -⟩, known⟩ := together_of_reachable reachable
  obtain ⟨knownA, -, listedA, -⟩ := known differ
  exact ⟨r, foldl_collectGroup_mem .rfl rootA knownA (.inl listedA)⟩

/-- A group is the component of each of its clusters. -/
theorem mem_sharing_group_iff {group : List String}
    (listed : group ∈ operatorSharingGroups clusters) (inA : a ∈ group) :
    b ∈ group ↔ (sharingGraph clusters).Reachable a b := by
  obtain ⟨collected, -⟩ := List.mem_filter.mp listed
  obtain ⟨root, found⟩ := (Dict.mem_values_iff (collectedGroups clusters) group).mp collected
  have filed : (collectedGroups clusters).getD root [] = group := by rw [Dict.getD, found]; rfl
  rw [← filed] at inA ⊢
  exact mem_collectedGroups_iff inA

/-- The groups are the components with at least two clusters. -/
theorem exists_sharing_group_iff (distinct : (clusters.map (·.clusterId)).Nodup)
    (members : Set String) :
    (∃ group ∈ operatorSharingGroups clusters, {id | id ∈ group} = members) ↔
      ∃ component : (sharingGraph clusters).ConnectedComponent,
        component.supp = members ∧ members.Nontrivial := by
  constructor
  · rintro ⟨group, listed, rfl⟩
    have several : 2 ≤ group.length := of_decide_eq_true (List.mem_filter.mp listed).2
    have nodup : group.Nodup :=
      (List.nodup_flatten.mp (operatorSharingGroups_spec distinct).1).1 group listed
    obtain ⟨a, b, rest, rfl⟩ : ∃ a b rest, group = a :: b :: rest := by
      match group, several with
      | a :: b :: rest, _ => exact ⟨a, b, rest, rfl⟩
    refine ⟨(sharingGraph clusters).connectedComponentMk a, ?_, a, by simp, b, by simp, ?_⟩
    · ext id
      rw [SimpleGraph.ConnectedComponent.mem_supp_iff, SimpleGraph.ConnectedComponent.eq,
        Set.mem_ofPred_eq, mem_sharing_group_iff listed List.mem_cons_self]
      exact ⟨.symm, .symm⟩
    · rintro rfl
      simp at nodup
  · rintro ⟨component, rfl, a, inA, b, inB, differ⟩
    rw [SimpleGraph.ConnectedComponent.mem_supp_iff] at inA inB
    have reachable := SimpleGraph.ConnectedComponent.eq.mp (inA.trans inB.symm)
    obtain ⟨root, filed⟩ := exists_mem_collectedGroups reachable differ
    have filedB := (mem_collectedGroups_iff filed).mpr reachable
    refine ⟨(collectedGroups clusters).getD root [], List.mem_filter.mpr ⟨?_, ?_⟩, ?_⟩
    · exact Dict.getD_mem_values filed
    · have pair : [a, b].Nodup := by simpa using differ
      have both := List.subperm_of_subset pair
        (List.cons_subset.mpr ⟨filed, List.cons_subset.mpr ⟨filedB, List.nil_subset _⟩⟩)
      exact decide_eq_true both.length_le
    · ext id
      rw [Set.mem_ofPred_eq, mem_collectedGroups_iff filed,
        SimpleGraph.ConnectedComponent.mem_supp_iff, ← inA, SimpleGraph.ConnectedComponent.eq]
      exact ⟨.symm, .symm⟩

end Components

section Schedule

/-- No operator is shared by both clusters. -/
def Separate (first second : ClusterSpec) : Prop :=
  ∀ operator ∈ first.sharedBackupOperators, operator ∉ second.sharedBackupOperators

instance (first second : ClusterSpec) : Decidable (Separate first second) :=
  inferInstanceAs (Decidable (∀ operator ∈ first.sharedBackupOperators, _))

namespace NamedClusters

variable (named : NamedClusters)

/-- The pools `pool_solve` opens: a job for each independent cluster, then one for each group. -/
def pools (sequential : Bool) : List (List (List ClusterSpec)) :=
  [(named.independent sequential).map fun cluster => [cluster], named.prepared sequential]

/-- Runs of `pool_solve`, with any interleaving of its workers. -/
def schedule (sequential : Bool) (workers : ℕ) :
    LabeledSystem (WorkerPools ClusterSpec) WorkerPools.Event :=
  WorkerPools.system workers (named.pools sequential)

variable {named}

theorem perm_pools (sequential : Bool) :
    (named.pools sequential).flatten.flatten.Perm named.clusters := by
  simpa [pools, ← List.flatMap_def] using named.perm_jobs sequential

theorem nodup_clusters : named.clusters.Nodup := named.distinct.of_map _

theorem mem_ordered {group : List String} {cluster : ClusterSpec}
    (member : cluster ∈ named.ordered group) :
    cluster ∈ named.clusters ∧ cluster.clusterId ∈ group := by
  obtain ⟨id, listed, found⟩ := List.mem_filterMap.mp member
  obtain ⟨_, present, rfl, rfl⟩ := Dict.exists_of_get?_collect found
  exact ⟨present, (perm_sortBy _ group).subset listed⟩

/-- Clusters outside every group share no operator. -/
theorem apart_independent :
    WorkerPools.Apart Separate ((named.independent true).map fun cluster => [cluster]) := by
  have distinct : (named.independent true).Pairwise fun a b => a.clusterId ≠ b.clusterId :=
    List.pairwise_map.mp (named.distinct.sublist (List.filter_sublist.map _))
  rw [WorkerPools.Apart, List.pairwise_map]
  refine distinct.imp_of_mem ?_
  intro first second member memberToo differ
  simp only [List.mem_singleton, forall_eq]
  intro operator stamp stampToo
  obtain ⟨listed, outside⟩ := List.mem_filter.mp member
  obtain ⟨group, grouped, inside, -⟩ := exists_sharing_group listed
    (List.mem_of_mem_filter memberToo) stamp stampToo differ
  exact of_decide_eq_true outside (List.mem_flatten.mpr ⟨group, grouped, inside⟩)

/-- Clusters of different groups share no operator. -/
theorem apart_prepared : WorkerPools.Apart Separate (named.prepared true) := by
  have nodup : (operatorSharingGroups named.clusters).flatten.Nodup :=
    (operatorSharingGroups_spec named.distinct).1
  have disjoint := (List.nodup_flatten.mp nodup).2
  rw [WorkerPools.Apart, prepared, List.pairwise_map]
  refine List.Pairwise.imp_of_mem ?_ disjoint
  intro group other listed _ disjoint first member second memberToo operator stamp stampToo
  obtain ⟨present, inside⟩ := mem_ordered member
  obtain ⟨presentToo, insideToo⟩ := mem_ordered memberToo
  have reachable : (sharingGraph named.clusters).Reachable first.clusterId second.clusterId := by
    by_cases same : first.clusterId = second.clusterId
    · exact same ▸ .rfl
    · have linked : (sharingGraph named.clusters).Adj first.clusterId second.clusterId :=
        ⟨same, first, present, second, presentToo, rfl, rfl, operator, stamp, stampToo⟩
      exact linked.reachable
  exact disjoint ((mem_sharing_group_iff listed inside).mpr reachable) insideToo

/-- No pool gets an empty job. -/
theorem filled_pools (sequential : Bool) :
    ∀ jobs ∈ named.pools sequential, ∀ job ∈ jobs, job ≠ [] := by
  intro jobs member job listed
  simp only [pools, List.mem_cons, List.not_mem_nil, or_false] at member
  rcases member with rfl | rfl
  · obtain ⟨cluster, -, rfl⟩ := List.mem_map.mp listed
    exact List.cons_ne_nil _ _
  · obtain ⟨group, grouped, rfl⟩ := List.mem_map.mp listed
    have known : group ⊆ named.clusters.map (·.clusterId) := fun id member =>
      (named.groups_spec sequential).2 (List.mem_flatten.mpr ⟨group, grouped, member⟩)
    have several : 2 ≤ group.length := by
      unfold groups at grouped
      split at grouped
      · exact of_decide_eq_true (List.mem_filter.mp grouped).2
      · cases grouped
    obtain ⟨id, member⟩ : ∃ id, id ∈ group := List.exists_mem_of_length_pos (by omega)
    obtain ⟨cluster, present, rfl⟩ := List.mem_map.mp (known member)
    have inside : cluster ∈ named.ordered group :=
      List.mem_filterMap.mpr ⟨_, (perm_sortBy _ group).symm.subset member, byId_of_mem present⟩
    exact List.ne_nil_of_mem inside

end NamedClusters

end Schedule

/-- The groups are the connected components of at least two clusters and every root is found. No
interleaving of the pools solves a cluster twice, and all are solved if nothing crashes and nothing
is cancelled. With sequential sharing no clusters that share an operator are solved at once. -/
theorem sharing_groups_are_components (named : NamedClusters) (workers : ℕ) :
    (∀ (forest : Forest String) (id : String),
      (forest.touch id).Search id (forest.find id)) ∧
    (∀ members : Set String,
      (∃ group ∈ operatorSharingGroups named.clusters, {id | id ∈ group} = members) ↔
        ∃ component : (sharingGraph named.clusters).ConnectedComponent,
          component.supp = members ∧ members.Nontrivial) ∧
    (operatorSharingGroups named.clusters).flatten.Nodup ∧
    (∀ sequential s, (named.schedule sequential workers).Reachable s →
      s.started.Nodup ∧ s.started ⊆ named.clusters) ∧
    (∀ sequential s,
      (named.schedule sequential workers).ReachableWhere (fun _ event => event.Orderly) s →
        s.Done → s.started.Perm named.clusters) ∧
    (0 < workers → ∀ sequential, ∃ s,
      (named.schedule sequential workers).ReachableWhere (fun _ event => event.Orderly) s ∧
        s.Done) ∧
    (∀ s, (named.schedule true workers).Reachable s → s.inWork.Pairwise Separate) := by
  refine ⟨Forest.search_find, exists_sharing_group_iff named.distinct,
    (operatorSharingGroups_spec named.distinct).1, fun sequential s reached => ⟨?_, ?_⟩,
    fun sequential s reached done => ?_, fun staffed sequential => ?_, fun s reached => ?_⟩
  · apply WorkerPools.nodup_started reached
    exact (NamedClusters.perm_pools sequential).nodup_iff.mpr NamedClusters.nodup_clusters
  · intro cluster member
    have listed := (WorkerPools.perm_items reached).subset (List.mem_append_left _ member)
    exact (NamedClusters.perm_pools sequential).subset listed
  · exact (WorkerPools.perm_started_of_done reached done).trans
      (NamedClusters.perm_pools sequential)
  · exact WorkerPools.exists_done staffed (NamedClusters.filled_pools sequential)
  · apply WorkerPools.pairwise_inWork _ reached
    · intro jobs member
      simp only [NamedClusters.pools, List.mem_cons, List.not_mem_nil, or_false] at member
      rcases member with rfl | rfl
      · exact NamedClusters.apart_independent
      · exact NamedClusters.apart_prepared
    · intro first second apart operator stamp stampToo
      exact apart operator stampToo stamp

/-- Two clusters stamped with one backup operator. -/
def contending : NamedClusters where
  clusters := [{ clusterId := "cA", taskIds := ["o0"], sharedBackupOperators := ["op_b"] },
    { clusterId := "cB", taskIds := ["o1"], sharedBackupOperators := ["op_b"] }]
  distinct := by decide

/-- With the default settings clusters that share an operator are solved at once. -/
theorem contending_clusters_in_work :
    ¬ ∀ (named : NamedClusters) (sequential : Bool) (workers : ℕ) (s : WorkerPools ClusterSpec),
      (named.schedule sequential workers).Reachable s → s.inWork.Pairwise Separate := by
  intro separate
  have opened : (contending.schedule false 2).Reachable
      ⟨contending.clusters.map fun cluster => [cluster], [], [], [], [[]]⟩ :=
    .step (.initial rfl) trivial .next
  have started := opened.step trivial (.start_first (by decide))
  have both := started.step trivial (.start_first (by decide))
  have apart := separate contending false 2 _ both
  revert apart
  decide

end FlOp.Solver
