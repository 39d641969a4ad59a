import FlOp.Core.Geometry
import FlOp.Library.Dijkstra
import FlOp.Library.Fallible
import FlOp.Library.Ordering
import Mathlib.Algebra.Order.Group.Int
import Mathlib.Algebra.Order.Ring.Rat
import Mathlib.Data.String.Basic
import Mathlib.Order.Bounds.Basic

/-! # Composing the travel network

The direct links of a travel network are closed under shortest paths, one search from each node.
Where every link of a path declares its geometry, the path gets the composed geometry.
-/

namespace FlOp.Solver

open FlOp.Core FlOp.Library FlOp.Library.Dijkstra

/-- The standard speed is one to fall back to. -/
theorem fallbackSpeed_pos : (0 : ℚ) < 15 := by
  decide +kernel

/-- Travel constants; without a speed there is no estimate to fall back to. -/
structure TravelSettings where
  fallbackTravelSpeedKmh : ℚ := 15
  fallbackTravelSpeedKmh_pos : 0 < fallbackTravelSpeedKmh := by exact fallbackSpeed_pos
  airTravelCircuity : ℚ := 1
  groundTravelCircuity : ℚ := 13 / 10
  travelNetworkMaxComposeNodes : ℕ := 1000
  routeGeometryEndpointToleranceKm : ℚ := 1 / 2
  routeGeometryMaxLengthRatio : ℚ := 2

/-- Where a link starts and where it ends. -/
abbrev LinkPair := String × String

/-- Travel times in whole seconds. -/
abbrev TravelPairLookup := Dict LinkPair ℤ

abbrev TravelPath := List LatLon

abbrev TravelPathLookup := Dict LinkPair TravelPath

section Compose

variable (direct : TravelPairLookup) (paths : TravelPathLookup)

/-- The locations that direct links name. -/
def nodesOf : List String :=
  sorted (direct.keys.flatMap fun pair => [pair.1, pair.2]).toFinset

/-- The direct links that leave a location. -/
def adjacency : Dijkstra.Graph String ℤ := fun node =>
  (Dict.groupBy (fun entry : LinkPair × ℤ => entry.1.1) (fun entry => (entry.1.2, entry.2))
    direct.entries).getD node []

/-- The geometries of some links one after another; a segment after the first one starts where the
path ends. -/
def concatPaths (edges : List LinkPair) : TravelPath :=
  edges.foldl (fun path edge =>
    let segment := paths.getD edge []
    path ++ if path = [] then segment else segment.tail) []

/-- The composed time of a pair, and its geometry if every link on the way declares one. -/
structure ComposedRow where
  pair : LinkPair
  seconds : ℤ
  path : Option TravelPath

/-- Compose one target of a finished search. -/
def composeTarget (fuel : ℕ) (source : String) (result : Search String ℤ)
    (entry : String × ℤ) : Option ComposedRow :=
  (Search.trace source result.predecessor fuel entry.1 []).map fun (cursor, edges) =>
    { pair := (source, entry.1)
      seconds := entry.2
      path :=
        if cursor = source ∧ edges ≠ [] ∧ ∀ edge ∈ edges, edge ∈ paths.keys then
          some (concatPaths paths edges)
        else none }

/-- Everything that is reached from one location. -/
def composeSource (fuel : ℕ) (source : String) : Option (List ComposedRow) :=
  (Search.run (adjacency direct) none fuel (Search.start source)).bind fun result =>
    (result.best.entries.filter fun entry => entry.1 ≠ source).mapM
      (composeTarget paths fuel source result)

/-- Shortest-path closure of the direct links, with the geometry of what is composed. -/
def composeNetwork (settings : TravelSettings) (fuel : ℕ) :
    Option (TravelPairLookup × TravelPathLookup) :=
  if direct.entries = [] then some (.empty, .empty)
  else if settings.travelNetworkMaxComposeNodes < (nodesOf direct).length then some (direct, paths)
  else
    ((nodesOf direct).mapM (composeSource direct paths fuel)).map fun rows =>
      (Dict.collect ComposedRow.pair ComposedRow.seconds rows.flatten,
        Dict.collect Prod.fst Prod.snd <| rows.flatten.filterMap fun row =>
          row.path.map fun path => (row.pair, path))

variable {direct paths} in
/-- More fuel keeps a composed network. -/
theorem composeNetwork_kept {settings : TravelSettings} {fuel : ℕ}
    {network : TravelPairLookup × TravelPathLookup}
    (found : composeNetwork direct paths settings fuel = some network) :
    composeNetwork direct paths settings (fuel + 1) = some network := by
  rw [composeNetwork] at found ⊢
  split_ifs at found ⊢
  · exact found
  · exact found
  · obtain ⟨rows, composed, same⟩ := Option.map_eq_some_iff.mp found
    refine Option.map_eq_some_iff.mpr
      ⟨rows, Fallible.mapM_kept (f := composeSource direct paths) ?_ composed, same⟩
    intro source rows made
    rw [composeSource] at made ⊢
    obtain ⟨result, searched, traced⟩ := Option.bind_eq_some_iff.mp made
    refine Option.bind_eq_some_iff.mpr ⟨result, Search.run_kept searched, ?_⟩
    refine Fallible.mapM_kept (f := fun n => composeTarget paths n source result) ?_ traced
    intro entry row made
    rw [composeTarget] at made ⊢
    obtain ⟨edges, walked, same⟩ := Option.map_eq_some_iff.mp made
    exact Option.map_eq_some_iff.mpr ⟨edges, Search.trace_kept walked, same⟩

/-- A directed walk along direct links: its links in order, and the sum of their times. -/
inductive LinkWalk (source : String) : String → List LinkPair → ℤ → Prop
  | nil : LinkWalk source source [] 0
  | snoc {u v : String} {edges : List LinkPair} {total seconds : ℤ}
      (walk : LinkWalk source u edges total) (link : direct.get? (u, v) = some seconds) :
      LinkWalk source v (edges ++ [(u, v)]) (total + seconds)

variable {direct paths}

theorem mem_adjacency {u v : String} {seconds : ℤ} :
    (v, seconds) ∈ adjacency direct u ↔ direct.get? (u, v) = some seconds := by
  rw [adjacency, Dict.getD_groupBy, List.mem_map, Dict.get?_eq_some_iff]
  constructor
  · rintro ⟨⟨⟨from_, to_⟩, time⟩, member, same⟩
    obtain ⟨listed, starts⟩ := List.mem_filter.mp member
    obtain ⟨rfl, rfl⟩ := Prod.mk.inj same
    obtain rfl : from_ = u := of_decide_eq_true starts
    exact listed
  · intro listed
    exact ⟨((u, v), seconds), List.mem_filter.mpr ⟨listed, decide_eq_true rfl⟩, rfl⟩

/-- The walks of a search are those along direct links. -/
theorem walk_iff {source v : String} {edges : List LinkPair} {total : ℤ} :
    Walk (adjacency direct) source v edges total ↔ LinkWalk direct source v edges total := by
  constructor
  · intro walk
    induction walk with
    | nil => exact .nil
    | snoc _ edge ih => exact ih.snoc (mem_adjacency.mp edge)
  · intro walk
    induction walk with
    | nil => exact .nil
    | snoc _ link ih => exact ih.snoc (mem_adjacency.mpr link)

theorem mem_nodesOf {pair : LinkPair} {seconds : ℤ} (link : direct.get? pair = some seconds) :
    pair.1 ∈ nodesOf direct ∧ pair.2 ∈ nodesOf direct := by
  have key : pair ∈ direct.keys := (direct.mem_keys_iff pair).mpr (by rw [link]; rfl)
  constructor
  · rw [nodesOf, mem_sorted, List.mem_toFinset, List.mem_flatMap]
    exact ⟨pair, key, List.mem_cons_self⟩
  · rw [nodesOf, mem_sorted, List.mem_toFinset, List.mem_flatMap]
    exact ⟨pair, key, List.mem_cons_of_mem _ List.mem_cons_self⟩

/-- A walk that leads elsewhere starts at a location of the network. -/
theorem LinkWalk.source_mem {source v : String} {edges : List LinkPair} {total : ℤ}
    (walk : LinkWalk direct source v edges total) (apart : source ≠ v) :
    source ∈ nodesOf direct := by
  induction walk with
  | nil => exact absurd rfl apart
  | @snoc u v _ _ _ _ link ih =>
    by_cases same : source = u
    · subst same
      exact (mem_nodesOf link).1
    · exact ih same

/-- The times of all walks from one location to another. -/
def walkTimes (direct : TravelPairLookup) (a b : String) : Set ℤ :=
  {total | ∃ edges, LinkWalk direct a b edges total}

/-- What a row says: the least time from one location to another, with the geometry of a walk that
takes it. -/
structure RowExact (direct : TravelPairLookup) (paths : TravelPathLookup) (source target : String)
    (row : ComposedRow) : Prop where
  pair : row.pair = (source, target)
  apart : source ≠ target
  least : IsLeast (walkTimes direct source target) row.seconds
  traced : ∀ path ∈ row.path, ∃ edges, LinkWalk direct source target edges row.seconds ∧
    (∀ edge ∈ edges, edge ∈ paths.keys) ∧ path = concatPaths paths edges

/-- The rows of one location are exact, with one for every other location that a walk leads to. -/
structure RowsExact (direct : TravelPairLookup) (paths : TravelPathLookup) (source : String)
    (rows : List ComposedRow) : Prop where
  sound : ∀ row ∈ rows, ∃ target, RowExact direct paths source target row
  complete : ∀ target, source ≠ target → (walkTimes direct source target).Nonempty →
    ∃ row ∈ rows, row.pair = (source, target)

theorem exists_composeSource (positive : ∀ pair, ∀ seconds ∈ direct.get? pair, 0 < seconds)
    {source : String} (inside : source ∈ nodesOf direct) :
    ∃ rows, Fallible.EndsWith (fun fuel => composeSource direct paths fuel source) rows ∧
      RowsExact direct paths source rows := by
  have within : ∀ u ∈ (nodesOf direct).toFinset, ∀ edge ∈ adjacency direct u,
      edge.1 ∈ (nodesOf direct).toFinset :=
    fun u _ edge out => List.mem_toFinset.mpr (mem_nodesOf (mem_adjacency.mp out)).2
  have weights : ∀ u, ∀ edge ∈ adjacency direct u, 0 < edge.2 :=
    fun u edge out => positive _ _ (mem_adjacency.mp out)
  obtain ⟨result, ends, exact⟩ := Search.exists_shortest none
    (List.mem_toFinset.mpr inside) within weights
  have targets : ∀ entry ∈ result.best.entries.filter fun entry => entry.1 ≠ source,
      ∃ row, Fallible.EndsWith (fun fuel => composeTarget paths fuel source result entry) row ∧
        RowExact direct paths source entry.1 row := by
    intro entry member
    obtain ⟨listed, apart⟩ := List.mem_filter.mp member
    have found := (result.best.get?_eq_some_iff _ _).mpr listed
    obtain ⟨least, edges, walk, traced⟩ := (exact entry.1 (.inl rfl)).1 entry.2 found
    refine ⟨_, traced.map _, rfl, Ne.symm (of_decide_eq_true apart),
      ⟨⟨edges, walk_iff.mp walk⟩, ?_⟩, ?_⟩
    · rintro total ⟨others, other⟩
      exact least others total (walk_iff.mpr other)
    · intro path composed
      dsimp only at composed
      split_ifs at composed with declared
      · cases composed
        exact ⟨edges, walk_iff.mp walk, declared.2.2, rfl⟩
      · cases composed
  obtain ⟨rows, endsRows, pairs⟩ := Fallible.exists_mapM_endsWith targets
  refine ⟨rows, ends.bind endsRows, ?_, ?_⟩
  · intro row member
    obtain ⟨entry, -, made⟩ := Fallible.exists_right_of_forall₂ pairs.flip member
    exact ⟨entry.1, made⟩
  · rintro target apart ⟨total, edges, walk⟩
    cases found : result.best.get? target with
    | none => exact absurd (walk_iff.mpr walk) ((exact target (.inl rfl)).2 found edges total)
    | some dist =>
      have listed : (target, dist) ∈ result.best.entries.filter fun entry => entry.1 ≠ source :=
        List.mem_filter.mpr ⟨(result.best.get?_eq_some_iff _ _).mp found,
          decide_eq_true (Ne.symm apart)⟩
      obtain ⟨row, member, made⟩ := Fallible.exists_right_of_forall₂ pairs listed
      exact ⟨row, member, made.pair⟩

/-- The composed network has the least time of every pair, and the geometry of a walk that takes
this time. -/
structure NetworkExact (direct : TravelPairLookup) (paths : TravelPathLookup)
    (composed : TravelPairLookup) (composedPaths : TravelPathLookup) : Prop where
  least : ∀ a b, a ≠ b → ∀ seconds, composed.get? (a, b) = some seconds ↔
    IsLeast {total | ∃ edges, LinkWalk direct a b edges total} seconds
  loops : ∀ a, composed.get? (a, a) = none
  unreached : ∀ a b, a ≠ b → composed.get? (a, b) = none →
    ∀ edges total, ¬ LinkWalk direct a b edges total
  geometry : ∀ a b, ∀ path ∈ composedPaths.get? (a, b), ∃ edges,
    ∃ seconds ∈ composed.get? (a, b), LinkWalk direct a b edges seconds ∧
      (∀ edge ∈ edges, edge ∈ paths.keys) ∧ path = concatPaths paths edges

section Collect

variable {sources : List String} {rows : List (List ComposedRow)} {a b : String} {seconds : ℤ}
  (pairs : List.Forall₂ (RowsExact direct paths) sources rows)

/-- The times of the rows, by pair. -/
def collectedTimes (rows : List ComposedRow) : TravelPairLookup :=
  Dict.collect ComposedRow.pair ComposedRow.seconds rows

include pairs

theorem rowExact_of_mem {row : ComposedRow} (member : row ∈ rows.flatten)
    (pair : row.pair = (a, b)) : RowExact direct paths a b row := by
  obtain ⟨group, listed, inside⟩ := List.mem_flatten.mp member
  obtain ⟨source, -, exact⟩ := Fallible.exists_right_of_forall₂ pairs.flip listed
  obtain ⟨target, made⟩ := exact.sound row inside
  obtain ⟨rfl, rfl⟩ := Prod.mk.inj (pair.symm.trans made.pair)
  exact made

/-- A collected time is that of one of the rows of its pair. -/
theorem isLeast_of_collected (found : (collectedTimes rows.flatten).get? (a, b) = some seconds) :
    a ≠ b ∧ IsLeast (walkTimes direct a b) seconds := by
  obtain ⟨row, member, pair, rfl⟩ := Dict.exists_of_get?_collect found
  have made := rowExact_of_mem pairs member pair
  exact ⟨made.apart, made.least⟩

theorem isSome_collected (every : ∀ source ∈ nodesOf direct, source ∈ sources) (apart : a ≠ b)
    (reached : (walkTimes direct a b).Nonempty) :
    ((collectedTimes rows.flatten).get? (a, b)).isSome := by
  obtain ⟨total, edges, walk⟩ := id reached
  obtain ⟨group, listed, exact⟩ :=
    Fallible.exists_right_of_forall₂ pairs (every a (walk.source_mem apart))
  obtain ⟨row, member, pair⟩ := exact.complete b apart reached
  exact (Dict.isSome_get?_collect _ _ _ _).mpr
    ⟨row, List.mem_flatten.mpr ⟨group, listed, member⟩, pair⟩

/-- Rows of all locations make up an exact network. -/
theorem networkExact_collect (every : ∀ source ∈ nodesOf direct, source ∈ sources) :
    NetworkExact direct paths (collectedTimes rows.flatten)
      (Dict.collect Prod.fst Prod.snd <| rows.flatten.filterMap fun row =>
        row.path.map fun path => (row.pair, path)) where
  least a b apart seconds := by
    refine ⟨fun found => (isLeast_of_collected pairs found).2, fun least => ?_⟩
    obtain ⟨found, located⟩ :=
      Option.isSome_iff_exists.mp (isSome_collected pairs every apart least.nonempty)
    rw [located, (isLeast_of_collected pairs located).2.unique least]
  loops a := by
    rw [Option.eq_none_iff_forall_not_mem]
    exact fun seconds found => (isLeast_of_collected pairs found).1 rfl
  unreached a b apart absent edges total walk := by
    have present := isSome_collected pairs every apart ⟨total, edges, walk⟩
    rw [absent] at present
    cases present
  geometry a b path found := by
    obtain ⟨⟨pair, geometry⟩, member, same, rfl⟩ := Dict.exists_of_get?_collect found
    obtain ⟨row, listed, makes⟩ := List.mem_filterMap.mp member
    obtain ⟨composed, declared, equal⟩ := Option.map_eq_some_iff.mp makes
    obtain ⟨rowPair, rfl⟩ := Prod.mk.inj equal
    have made := rowExact_of_mem pairs listed (rowPair.trans same)
    obtain ⟨edges, walk, traced⟩ := made.traced _ declared
    have key := (Dict.isSome_get?_collect ComposedRow.pair ComposedRow.seconds rows.flatten
      (a, b)).mpr ⟨row, listed, made.pair⟩
    obtain ⟨seconds, stored⟩ := Option.isSome_iff_exists.mp key
    obtain rfl := (isLeast_of_collected pairs stored).2.unique made.least
    exact ⟨edges, _, stored, walk, traced⟩

end Collect

variable (direct paths) in
/-- The closure always ends. A network that is too large is left as it is, every other one gets the
least time of every pair. -/
theorem exists_composeNetwork (settings : TravelSettings)
    (positive : ∀ pair, ∀ seconds ∈ direct.get? pair, 0 < seconds) :
    ∃ network, Fallible.EndsWith (composeNetwork direct paths settings) network ∧
      if settings.travelNetworkMaxComposeNodes < (nodesOf direct).length then
        network = (direct, paths)
      else NetworkExact direct paths network.1 network.2 := by
  by_cases empty : direct.entries = []
  · have none : ∀ pair seconds, direct.get? pair ≠ some seconds := by
      intro pair seconds found
      have listed := (direct.get?_eq_some_iff _ _).mp found
      rw [empty] at listed
      cases listed
    have nowhere : ∀ a b, a ≠ b → ∀ edges total, ¬ LinkWalk direct a b edges total := by
      intro a b apart edges total walk
      cases walk with
      | nil => exact apart rfl
      | snoc _ link => exact none _ _ link
    have nodes : nodesOf direct = [] := by
      rw [nodesOf, Dict.keys, empty]
      rfl
    refine ⟨(.empty, .empty), .of_forall fun fuel => by rw [composeNetwork, if_pos empty], ?_⟩
    rw [nodes, List.length_nil, if_neg (Nat.not_lt_zero _)]
    refine ⟨?_, fun _ => rfl, fun a b apart _ => nowhere a b apart, ?_⟩
    · intro a b apart seconds
      constructor
      · intro found
        cases found
      · rintro ⟨⟨edges, walk⟩, -⟩
        exact absurd walk (nowhere a b apart edges seconds)
    · intro a b path found
      cases found
  by_cases large : settings.travelNetworkMaxComposeNodes < (nodesOf direct).length
  · refine ⟨(direct, paths), .of_forall fun fuel => ?_, ?_⟩
    · rw [composeNetwork, if_neg empty, if_pos large]
    · rw [if_pos large]
  · have each : ∀ source ∈ nodesOf direct, ∃ rows, Fallible.EndsWith
        (fun fuel => composeSource direct paths fuel source) rows ∧
          RowsExact direct paths source rows :=
      fun _ inside => exists_composeSource positive inside
    obtain ⟨rows, ⟨enough, makes⟩, pairs⟩ := Fallible.exists_mapM_endsWith each
    refine ⟨(?times, ?geometry), ⟨enough, fun fuel more => ?ends⟩, ?exact⟩
    case exact =>
      rw [if_neg large]
      exact networkExact_collect pairs fun _ => id
    case ends =>
      have made : (nodesOf direct).mapM (composeSource direct paths fuel) = some rows :=
        makes fuel more
      rw [composeNetwork, if_neg empty, if_neg large, made]
      rfl

/-- The closure of a network that is not too large ends with the least time of every pair. -/
theorem compose_network_exact (settings : TravelSettings) (direct : TravelPairLookup)
    (paths : TravelPathLookup) (positive : ∀ pair, ∀ seconds ∈ direct.get? pair, 0 < seconds)
    (small : (nodesOf direct).length ≤ settings.travelNetworkMaxComposeNodes) :
    ∃ composed composedPaths enough, (∀ fuel, enough ≤ fuel →
      composeNetwork direct paths settings fuel = some (composed, composedPaths)) ∧
      NetworkExact direct paths composed composedPaths := by
  obtain ⟨network, ⟨enough, makes⟩, exact⟩ := exists_composeNetwork direct paths settings positive
  rw [if_neg small.not_gt] at exact
  exact ⟨network.1, network.2, enough, makes, exact⟩

/-- A direct link between different places stays, or a faster way replaces it. -/
theorem composeNetwork_le {settings : TravelSettings} {fuel : ℕ}
    {network : TravelPairLookup × TravelPathLookup}
    (positive : ∀ pair, ∀ seconds ∈ direct.get? pair, 0 < seconds)
    (found : composeNetwork direct paths settings fuel = some network) {a b : String}
    (apart : a ≠ b) {seconds : ℤ} (link : direct.get? (a, b) = some seconds) :
    ∃ least ∈ network.1.get? (a, b), least ≤ seconds := by
  obtain ⟨other, ends, exact⟩ := exists_composeNetwork direct paths settings positive
  obtain rfl := ends.unique (.of_found (fun _ _ => composeNetwork_kept) found)
  split_ifs at exact with large
  · rw [exact]
    exact ⟨seconds, link, le_rfl⟩
  · have walk : LinkWalk direct a b [(a, b)] (0 + seconds) := LinkWalk.nil.snoc link
    rw [zero_add] at walk
    cases reached : other.1.get? (a, b) with
    | none => exact absurd walk (exact.unreached a b apart reached _ _)
    | some least => exact ⟨least, rfl, ((exact.least a b apart least).mp reached).2 ⟨_, walk⟩⟩

end Compose

/-- A triangle whose direct link is slower than the way round. -/
def detourLinks : TravelPairLookup :=
  Dict.collect Prod.fst Prod.snd [(("a", "c"), 90), (("a", "b"), 30), (("b", "c"), 40)]

theorem compose_network_exact_detour : ∃ composed composedPaths enough, (∀ fuel, enough ≤ fuel →
    composeNetwork detourLinks .empty {} fuel = some (composed, composedPaths)) ∧
    NetworkExact detourLinks .empty composed composedPaths :=
  compose_network_exact {} detourLinks .empty (by
    intro pair seconds found
    have listed := (detourLinks.get?_eq_some_iff _ _).mp found
    have all : ∀ entry ∈ detourLinks.entries, 0 < entry.2 := by decide +kernel
    exact all _ listed) (by decide +kernel)

example : ((composeNetwork detourLinks .empty {} 10).bind fun network =>
    network.1.get? ("a", "c")) = some 70 := by
  decide +kernel

end FlOp.Solver
