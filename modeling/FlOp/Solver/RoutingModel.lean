import Mathlib.Data.List.Nodup

/-! # Nodes of the routing graph

A cluster's routing graph has the depot, a visit for each task, one before it for the pickup of a
paired task, and the reload visits offered at the depot.
-/

namespace FlOp.Solver

/-- One node of the routing graph; pickups and tasks name their order by its position. -/
inductive RoutingNode where
  | depot
  | pickup (order : ℕ)
  | task (order : ℕ)
  | reload (visit : ℕ)
deriving DecidableEq, Repr

/-- The node table: the depot, pickups and tasks in order, then the reload visits. An order is
paired if it names a pickup location. -/
def buildNodeTable (pickupRefs : List String) (nReloadNodes : ℕ) : List RoutingNode :=
  .depot :: (pickupRefs.zipIdx.flatMap fun order =>
      if order.1 = "" then [.task order.2] else [.pickup order.2, .task order.2]) ++
    (List.range nReloadNodes).map .reload

/-- No node is listed twice; an order has one task node. -/
theorem nodup_buildNodeTable (pickupRefs : List String) (nReloadNodes : ℕ) :
    (buildNodeTable pickupRefs nReloadNodes).Nodup := by
  have orders : (pickupRefs.zipIdx.flatMap fun order =>
      if order.1 = "" then [RoutingNode.task order.2]
      else [.pickup order.2, .task order.2]).Nodup := by
    refine List.nodup_flatMap.mpr ⟨fun order _ => ?_, ?_⟩
    · split <;> simp
    · have positions : (pickupRefs.zipIdx.map Prod.snd).Nodup := by
        rw [List.zipIdx_map_snd]
        exact List.nodup_range'
      refine (List.pairwise_map.mp positions).imp fun {a b} differ => ?_
      simp only [Function.onFun]
      split <;> split <;> simp [differ, Ne.symm differ]
  have reloads : ((List.range nReloadNodes).map RoutingNode.reload).Nodup :=
    List.Nodup.map (fun _ _ => RoutingNode.reload.inj) List.nodup_range
  rw [buildNodeTable, List.cons_append, List.nodup_cons, List.nodup_append]
  refine ⟨?_, orders, reloads, ?_⟩
  · simp only [List.mem_append, List.mem_flatMap, List.mem_map]
    rintro (⟨order, -, inside⟩ | ⟨visit, -, same⟩)
    · split at inside <;> simp at inside
    · cases same
  · rintro node inside _ listed rfl
    obtain ⟨order, -, inside⟩ := List.mem_flatMap.mp inside
    obtain ⟨visit, -, rfl⟩ := List.mem_map.mp listed
    split at inside <;> simp at inside

/-- An order has a pickup node if it names a pickup location. -/
theorem pickup_mem_buildNodeTable {pickupRefs : List String} {nReloadNodes order : ℕ} :
    .pickup order ∈ buildNodeTable pickupRefs nReloadNodes ↔
      ∃ ref ∈ pickupRefs[order]?, ref ≠ "" := by
  simp only [buildNodeTable, List.cons_append, List.mem_cons, List.mem_append, List.mem_flatMap,
    List.mem_map, reduceCtorEq, and_false, exists_false, or_false, false_or]
  constructor
  · rintro ⟨⟨ref, position⟩, listed, inside⟩
    have found := List.mem_zipIdx_iff_getElem?.mp listed
    split_ifs at inside with unpaired
    · simp at inside
    · obtain rfl : order = position := by simpa using inside
      exact ⟨ref, found, unpaired⟩
  · rintro ⟨ref, found, paired⟩
    refine ⟨(ref, order), List.mem_zipIdx_iff_getElem?.mpr found, ?_⟩
    rw [if_neg paired]
    exact List.mem_cons_self

/-- Every order has a task node. -/
theorem task_mem_buildNodeTable {pickupRefs : List String} {nReloadNodes order : ℕ}
    (listed : order < pickupRefs.length) :
    .task order ∈ buildNodeTable pickupRefs nReloadNodes := by
  refine List.mem_append_left _ (List.mem_cons_of_mem _ (List.mem_flatMap.mpr ?_))
  refine ⟨(pickupRefs[order], order),
    List.mem_zipIdx_iff_getElem?.mpr (List.getElem?_eq_getElem listed), ?_⟩
  split_ifs
  · exact List.mem_cons_self
  · exact List.mem_cons_of_mem _ List.mem_cons_self

example : buildNodeTable ["", "mill"] 1 =
    [.depot, .task 0, .pickup 1, .task 1, .reload 0] := by
  decide

end FlOp.Solver
