import FlOp.Library.Dict
import FlOp.Library.Fallible
import Mathlib.Algebra.Order.Monoid.Defs
import Mathlib.Data.Finset.Card
import Mathlib.Data.List.MinMax
import Mathlib.Data.Prod.Lex
import Mathlib.Order.WithBot

/-! # Shortest paths by a heap with lazy deletion

A search keeps the best total known for each node it reached, the node before it, and a heap of
totals to be looked at. A total is pushed again whenever it improves; an entry that was improved
since is skipped when it is popped. Edges have positive weights, so a popped entry that was not
improved is final. A search may stop at a target once it is popped.
-/

namespace FlOp.Library.Dijkstra

variable {V W : Type*} [LinearOrder V] [AddCommMonoid W] [LinearOrder W]

/-- Outgoing edges of each node, with their weights. -/
abbrev Graph (V W : Type*) := V → List (V × W)

/-- A walk from the source: its edges in order, and their total weight. -/
inductive Walk (graph : Graph V W) (source : V) : V → List (V × V) → W → Prop
  | nil : Walk graph source source [] 0
  | snoc {u v : V} {edges : List (V × V)} {total weight : W} (walk : Walk graph source u edges total)
      (edge : (v, weight) ∈ graph u) :
      Walk graph source v (edges ++ [(u, v)]) (total + weight)

/-- What a search knows: best totals, predecessors and the heap. -/
structure Search (V W : Type*) where
  best : Dict V W
  predecessor : Dict V V
  heap : List (W × V)

/-- Take the least entry out of the heap, by total and then by node. -/
def popMin (heap : List (W × V)) : Option ((W × V) × List (W × V)) :=
  (heap.argmin toLex).map fun least => (least, heap.erase least)

namespace Search

/-- The node was not reached yet, or only with a greater total. -/
def Improves (s : Search V W) (candidate : W) (v : V) : Prop :=
  ∀ b ∈ s.best.get? v, candidate < b

instance (s : Search V W) (candidate : W) (v : V) : Decidable (s.Improves candidate v) :=
  inferInstanceAs (Decidable (∀ b ∈ s.best.get? v, _))

/-- Follow one edge of a node with the given total. -/
def relax (dist : W) (node : V) (s : Search V W) (edge : V × W) : Search V W :=
  if s.Improves (dist + edge.2) edge.1 then
    { best := s.best.set edge.1 (dist + edge.2)
      predecessor := s.predecessor.set edge.1 node
      heap := (dist + edge.2, edge.1) :: s.heap }
  else s

/-- The entry was improved after it was pushed. -/
def Stale (s : Search V W) (dist : W) (node : V) : Prop := ∃ b ∈ s.best.get? node, b < dist

instance (s : Search V W) (dist : W) (node : V) : Decidable (s.Stale dist node) :=
  inferInstanceAs (Decidable (∃ b ∈ s.best.get? node, _))

/-- Look at the least entry of the heap; nothing is left to do when there is none, or when it is
the final one of the target. -/
def step (graph : Graph V W) (target : Option V) (s : Search V W) : Option (Search V W) :=
  (popMin s.heap).bind fun popped =>
    let ((dist, node), heap) := popped
    let rest := { s with heap := heap }
    if s.Stale dist node then some rest
    else if target = some node then none
    else some ((graph node).foldl (relax dist node) rest)

/-- Look at entries until nothing is left to do. -/
def run (graph : Graph V W) (target : Option V) : ℕ → Search V W → Option (Search V W)
  | 0, _ => none
  | fuel + 1, s =>
    match s.step graph target with
    | none => some s
    | some next => run graph target fuel next

/-- The search at its source. -/
def start (source : V) : Search V W where
  best := Dict.empty.set source 0
  predecessor := .empty
  heap := [(0, source)]

/-- The edges by which a node was reached, from where they start. -/
def trace (source : V) (predecessor : Dict V V) : ℕ → V → List (V × V) →
    Option (V × List (V × V))
  | 0, _, _ => none
  | fuel + 1, cursor, edges =>
    if cursor = source then some (cursor, edges)
    else match predecessor.get? cursor with
      | none => some (cursor, edges)
      | some previous => trace source predecessor fuel previous ((previous, cursor) :: edges)

/-- More fuel keeps the result of a search. -/
theorem run_kept {graph : Graph V W} {target : Option V} {fuel : ℕ} {s last : Search V W}
    (found : run graph target fuel s = some last) : run graph target (fuel + 1) s = some last := by
  induction fuel generalizing s with
  | zero => cases found
  | succ fuel ih =>
    rw [run] at found ⊢
    cases stepped : s.step graph target with
    | none =>
      rw [stepped] at found
      exact found
    | some next =>
      rw [stepped] at found
      exact ih found

omit [AddCommMonoid W] [LinearOrder W] in
/-- More fuel keeps what is traced. -/
theorem trace_kept {source : V} {predecessor : Dict V V} {fuel : ℕ} {cursor : V}
    {edges : List (V × V)} {traced : V × List (V × V)}
    (found : trace source predecessor fuel cursor edges = some traced) :
    trace source predecessor (fuel + 1) cursor edges = some traced := by
  induction fuel generalizing cursor edges with
  | zero => cases found
  | succ fuel ih =>
    rw [trace] at found ⊢
    by_cases stop : cursor = source
    · rw [if_pos stop] at found ⊢
      exact found
    · rw [if_neg stop] at found ⊢
      cases before : predecessor.get? cursor with
      | none =>
        rw [before] at found
        exact found
      | some previous =>
        rw [before] at found
        exact ih found

omit [AddCommMonoid W] in
theorem popMin_eq_some {heap rest : List (W × V)} {least : W × V}
    (popped : popMin heap = some (least, rest)) :
    least ∈ heap ∧ rest = heap.erase least ∧ ∀ entry ∈ heap, least.1 ≤ entry.1 := by
  rw [popMin, Option.map_eq_some_iff] at popped
  obtain ⟨found, argmin, same⟩ := popped
  obtain ⟨rfl, rfl⟩ := Prod.mk.inj same
  refine ⟨List.argmin_mem argmin, rfl, fun entry member => ?_⟩
  rcases Prod.Lex.le_iff.mp (List.le_of_mem_argmin member argmin) with less | ⟨equal, -⟩
  · exact less.le
  · exact equal.le

omit [AddCommMonoid W] in
theorem popMin_eq_none {heap : List (W × V)} (empty : popMin heap = none) : heap = [] := by
  rwa [popMin, Option.map_eq_none_iff, List.argmin_eq_none] at empty

/-- Every edge of a node with this total leads to a total that is no worse. -/
def Relaxed (graph : Graph V W) (s : Search V W) (u : V) (b : W) : Prop :=
  ∀ edge ∈ graph u, ∃ reached ∈ s.best.get? edge.1, reached ≤ b + edge.2

/-- The best total of a node is no longer in the heap. -/
def Closed (s : Search V W) (v : V) : Prop := ∃ b ∈ s.best.get? v, (b, v) ∉ s.heap

/-- What holds throughout a search; the edges of one node may still be followed. -/
structure Sound (graph : Graph V W) (source : V) (expanding : Option V) (s : Search V W) :
    Prop where
  source_best : s.best.get? source = some 0
  nonneg : ∀ v, ∀ b ∈ s.best.get? v, 0 ≤ b
  entries : ∀ entry ∈ s.heap, ∃ b ∈ s.best.get? entry.2, b ≤ entry.1
  pending : ∀ v, some v ≠ expanding → ∀ b ∈ s.best.get? v,
    (b, v) ∈ s.heap ∨ Relaxed graph s v b
  reached : ∀ v, v ≠ source → ∀ b ∈ s.best.get? v, ∃ u ∈ s.predecessor.get? v,
    ∃ before ∈ s.best.get? u, ∃ weight, (v, weight) ∈ graph u ∧ before + weight ≤ b
  nodup : s.heap.Nodup
  settled : ∀ v, ∀ b ∈ s.best.get? v, (b, v) ∉ s.heap → ∀ entry ∈ s.heap, b ≤ entry.1

/-- Totals only improve, and what is closed stays so. -/
structure Extends (later s : Search V W) : Prop where
  improves : ∀ v, ∀ b ∈ s.best.get? v, ∃ next ∈ later.best.get? v, next ≤ b
  closed : ∀ v, s.Closed v → later.Closed v

omit [AddCommMonoid W] in
theorem Extends.rfl {s : Search V W} : s.Extends s :=
  ⟨fun _ b found => ⟨b, found, le_rfl⟩, fun _ => id⟩

omit [AddCommMonoid W] in
theorem Extends.trans {last later s : Search V W} (second : last.Extends later)
    (first : later.Extends s) : last.Extends s := by
  refine ⟨fun v b found => ?_, fun v closed => second.closed v (first.closed v closed)⟩
  obtain ⟨next, atNext, below⟩ := first.improves v b found
  obtain ⟨final, atFinal, lower⟩ := second.improves v next atNext
  exact ⟨final, atFinal, lower.trans below⟩

/-- A node is being expanded: its entry is out of the heap, and no closed node is farther away. -/
structure Expanding (graph : Graph V W) (source node : V) (dist : W) (s : Search V W) : Prop where
  sound : s.Sound graph source (some node)
  best : s.best.get? node = some dist
  popped : (dist, node) ∉ s.heap
  final : ∀ v, ∀ b ∈ s.best.get? v, (b, v) ∉ s.heap → b ≤ dist

section Relax

variable [IsOrderedCancelAddMonoid W] {graph : Graph V W} {source node : V} {dist : W}
  {s : Search V W} {edge : V × W}

omit [IsOrderedCancelAddMonoid W] in
private theorem get?_relax (improves : s.Improves (dist + edge.2) edge.1) (v : V) :
    (s.relax dist node edge).best.get? v =
      if v = edge.1 then some (dist + edge.2) else s.best.get? v := by
  rw [relax, if_pos improves]
  exact Dict.get?_set _ _ _ _

omit [IsOrderedCancelAddMonoid W] in
private theorem heap_relax (improves : s.Improves (dist + edge.2) edge.1) :
    (s.relax dist node edge).heap = (dist + edge.2, edge.1) :: s.heap := by
  rw [relax, if_pos improves]

omit [IsOrderedCancelAddMonoid W] in
private theorem predecessor_relax (improves : s.Improves (dist + edge.2) edge.1) (v : V) :
    (s.relax dist node edge).predecessor.get? v =
      if v = edge.1 then some node else s.predecessor.get? v := by
  rw [relax, if_pos improves]
  exact Dict.get?_set _ _ _ _

/-- An improvement concerns a node that is neither the source, nor the one expanded, nor closed. -/
private theorem Expanding.improved (state : s.Expanding graph source node dist)
    (positive : 0 < edge.2) (improves : s.Improves (dist + edge.2) edge.1) :
    edge.1 ≠ source ∧ edge.1 ≠ node ∧ (dist + edge.2, edge.1) ∉ s.heap ∧
      ∀ b ∈ s.best.get? edge.1, (b, edge.1) ∈ s.heap := by
  have above : dist < dist + edge.2 := lt_add_of_pos_right dist positive
  have fromSource : 0 ≤ dist := state.sound.nonneg node dist state.best
  refine ⟨fun same => ?_, fun same => ?_, fun pushed => ?_, fun b found => ?_⟩
  · have better := improves 0 (same ▸ state.sound.source_best)
    exact absurd (fromSource.trans_lt above) better.not_gt
  · exact absurd (improves dist (same ▸ state.best)) above.not_gt
  · obtain ⟨b, found, below⟩ := state.sound.entries _ pushed
    exact absurd (improves b found) below.not_gt
  · by_contra closed
    have early := state.final _ b found closed
    exact absurd (improves b found) (early.trans above.le).not_gt

private theorem Expanding.extends_relax (state : s.Expanding graph source node dist)
    (positive : 0 < edge.2) (improves : s.Improves (dist + edge.2) edge.1) :
    (s.relax dist node edge).Extends s := by
  obtain ⟨-, -, -, waiting⟩ := state.improved positive improves
  constructor
  · intro v b found
    rw [get?_relax improves]
    by_cases same : v = edge.1
    · exact ⟨_, if_pos same, (improves b (same ▸ found)).le⟩
    · exact ⟨b, (if_neg same).trans found, le_rfl⟩
  · rintro v ⟨b, found, closed⟩
    have same : v ≠ edge.1 := by
      rintro rfl
      exact closed (waiting b found)
    refine ⟨b, by rw [get?_relax improves, if_neg same]; exact found, ?_⟩
    rw [heap_relax improves, List.mem_cons, not_or]
    exact ⟨fun equal => same (Prod.mk.inj equal).2, closed⟩

private theorem Expanding.sound_relax (state : s.Expanding graph source node dist)
    (listed : edge ∈ graph node) (positive : 0 < edge.2)
    (improves : s.Improves (dist + edge.2) edge.1) :
    (s.relax dist node edge).Sound graph source (some node) := by
  have further := state.extends_relax positive improves
  obtain ⟨notSource, notNode, fresh, -⟩ := state.improved positive improves
  have above : dist < dist + edge.2 := lt_add_of_pos_right dist positive
  have sound := state.sound
  constructor
  · rw [get?_relax improves, if_neg notSource.symm]
    exact sound.source_best
  · intro v b found
    rw [get?_relax improves] at found
    split_ifs at found with same
    · cases found
      exact (sound.nonneg node dist state.best).trans above.le
    · exact sound.nonneg v b found
  · intro entry member
    rw [heap_relax improves] at member
    rcases List.mem_cons.mp member with rfl | old
    · exact ⟨_, by rw [get?_relax improves, if_pos rfl]; rfl, le_rfl⟩
    · obtain ⟨b, found, below⟩ := sound.entries entry old
      obtain ⟨next, atNext, lower⟩ := further.improves _ b found
      exact ⟨next, atNext, lower.trans below⟩
  · intro v other b found
    rw [get?_relax improves] at found
    rw [heap_relax improves]
    split_ifs at found with same
    · cases found
      exact .inl (same ▸ List.mem_cons_self)
    · rcases sound.pending v other b found with waiting | relaxed
      · exact .inl (List.mem_cons_of_mem _ waiting)
      · refine .inr fun next out => ?_
        obtain ⟨reached, atReached, below⟩ := relaxed next out
        obtain ⟨lower, atLower, less⟩ := further.improves _ reached atReached
        exact ⟨lower, atLower, less.trans below⟩
  · intro v other b found
    rw [get?_relax improves] at found
    rw [predecessor_relax improves]
    split_ifs at found ⊢ with same
    · cases found
      refine ⟨node, rfl, dist, ?_, edge.2, same ▸ listed, le_rfl⟩
      rw [get?_relax improves, if_neg notNode.symm]
      exact state.best
    · obtain ⟨u, before, total, atTotal, weight, out, below⟩ := sound.reached v other b found
      obtain ⟨lower, atLower, less⟩ := further.improves _ total atTotal
      exact ⟨u, before, lower, atLower, weight, out, (add_le_add_left less weight).trans below⟩
  · rw [heap_relax improves]
    exact List.nodup_cons.mpr ⟨fresh, sound.nodup⟩
  · intro v b found closed entry member
    rw [get?_relax improves] at found
    rw [heap_relax improves] at closed member
    split_ifs at found with same
    · cases found
      exact absurd (same ▸ List.mem_cons_self) closed
    · have outside : (b, v) ∉ s.heap := fun old => closed (List.mem_cons_of_mem _ old)
      rcases List.mem_cons.mp member with rfl | old
      · exact (state.final v b found outside).trans above.le
      · exact sound.settled v b found outside entry old

/-- Following an edge keeps the node expanding, and leaves the node at its end no farther away
than over this edge. -/
theorem Expanding.relax (state : s.Expanding graph source node dist) (listed : edge ∈ graph node)
    (positive : 0 < edge.2) :
    (s.relax dist node edge).Expanding graph source node dist ∧
      (s.relax dist node edge).Extends s ∧
      ∃ b ∈ (s.relax dist node edge).best.get? edge.1, b ≤ dist + edge.2 := by
  by_cases improves : s.Improves (dist + edge.2) edge.1
  · obtain ⟨-, notNode, -, -⟩ := state.improved positive improves
    have here : (s.relax dist node edge).best.get? edge.1 = some (dist + edge.2) := by
      rw [get?_relax improves, if_pos rfl]
    refine ⟨⟨state.sound_relax listed positive improves, ?_, ?_, ?_⟩,
      state.extends_relax positive improves, _, here, le_rfl⟩
    · rw [get?_relax improves, if_neg notNode.symm]
      exact state.best
    · rw [heap_relax improves, List.mem_cons, not_or]
      exact ⟨fun equal => notNode (Prod.mk.inj equal).2.symm, state.popped⟩
    · intro v b found closed
      rw [get?_relax improves] at found
      rw [heap_relax improves] at closed
      split_ifs at found with same
      · cases found
        exact absurd (same ▸ List.mem_cons_self) closed
      · exact state.final v b found fun old => closed (List.mem_cons_of_mem _ old)
  · have kept : s.relax dist node edge = s := if_neg improves
    rw [kept]
    refine ⟨state, .rfl, ?_⟩
    simpa [Improves] using improves

/-- Following some edges of a node relaxes them. -/
theorem Expanding.relaxAll (state : s.Expanding graph source node dist) {edges : List (V × W)}
    (listed : ∀ edge ∈ edges, edge ∈ graph node) (positive : ∀ edge ∈ edges, 0 < edge.2) :
    (edges.foldl (Search.relax dist node) s).Expanding graph source node dist ∧
      (edges.foldl (Search.relax dist node) s).Extends s ∧
      ∀ edge ∈ edges, ∃ b ∈ (edges.foldl (Search.relax dist node) s).best.get? edge.1,
        b ≤ dist + edge.2 := by
  induction edges generalizing s with
  | nil => exact ⟨state, .rfl, by simp⟩
  | cons edge rest ih =>
    obtain ⟨listedFirst, listedRest⟩ := List.forall_mem_cons.mp listed
    obtain ⟨positiveFirst, positiveRest⟩ := List.forall_mem_cons.mp positive
    obtain ⟨next, further, reached⟩ := state.relax listedFirst positiveFirst
    obtain ⟨last, later, relaxed⟩ := ih next listedRest positiveRest
    refine ⟨last, later.trans further, fun other member => ?_⟩
    rcases List.mem_cons.mp member with rfl | inRest
    · obtain ⟨b, found, below⟩ := reached
      obtain ⟨lower, atLower, less⟩ := later.improves _ b found
      exact ⟨lower, atLower, less.trans below⟩
    · exact relaxed other inRest

end Relax

section Step

variable {graph : Graph V W} {source : V} {target : Option V}
  {s next : Search V W}

/-- Skipping an entry that was improved since changes nothing that is known. -/
theorem Sound.skip (sound : s.Sound graph source none) {dist : W} {node : V}
    (stale : s.Stale dist node) :
    { s with heap := s.heap.erase (dist, node) }.Sound graph source none ∧
      { s with heap := s.heap.erase (dist, node) }.Extends s := by
  obtain ⟨better, atBetter, less⟩ := stale
  have kept : ∀ v, ∀ b ∈ s.best.get? v, (b, v) ∈ s.heap → (b, v) ∈ s.heap.erase (dist, node) := by
    intro v b found member
    refine (List.mem_erase_of_ne fun same => ?_).mpr member
    obtain ⟨rfl, rfl⟩ := Prod.mk.inj same
    exact less.ne (Option.some.inj (atBetter.symm.trans found))
  constructor
  · refine ⟨sound.source_best, sound.nonneg, ?_, ?_, sound.reached, sound.nodup.erase _, ?_⟩
    · exact fun entry member => sound.entries entry (List.mem_of_mem_erase member)
    · exact fun v other b found => (sound.pending v other b found).imp_left (kept v b found)
    · intro v b found closed entry member
      have outside : (b, v) ∉ s.heap := fun old => closed (kept v b found old)
      exact sound.settled v b found outside entry (List.mem_of_mem_erase member)
  · refine ⟨fun v b found => ⟨b, found, le_rfl⟩, ?_⟩
    rintro v ⟨b, found, closed⟩
    exact ⟨b, found, fun old => closed (List.mem_of_mem_erase old)⟩

/-- Popping the least entry of a node that was not improved since starts its expansion. -/
theorem Sound.expand (sound : s.Sound graph source none) {dist : W} {node : V}
    (member : (dist, node) ∈ s.heap) (least : ∀ entry ∈ s.heap, dist ≤ entry.1)
    (current : ¬ s.Stale dist node) :
    { s with heap := s.heap.erase (dist, node) }.Expanding graph source node dist ∧
      { s with heap := s.heap.erase (dist, node) }.Extends s := by
  have best : s.best.get? node = some dist := by
    obtain ⟨b, found, below⟩ := sound.entries _ member
    have same : b = dist := below.eq_of_not_lt fun less => current ⟨b, found, less⟩
    exact same ▸ found
  have gone : (dist, node) ∉ s.heap.erase (dist, node) := sound.nodup.not_mem_erase
  have kept : ∀ v, v ≠ node → ∀ b, (b, v) ∈ s.heap → (b, v) ∈ s.heap.erase (dist, node) :=
    fun v other b old => (List.mem_erase_of_ne fun same => other (Prod.mk.inj same).2).mpr old
  have early : ∀ v, ∀ b ∈ s.best.get? v, (b, v) ∉ s.heap.erase (dist, node) → b ≤ dist := by
    intro v b found closed
    by_cases same : v = node
    · subst same
      exact (Option.some.inj (found.symm.trans best)).le
    · exact sound.settled v b found (fun old => closed (kept v same b old)) _ member
  refine ⟨⟨⟨sound.source_best, sound.nonneg, ?_, ?_, sound.reached, sound.nodup.erase _, ?_⟩,
    best, gone, early⟩, ⟨fun v b found => ⟨b, found, le_rfl⟩, ?_⟩⟩
  · exact fun entry old => sound.entries entry (List.mem_of_mem_erase old)
  · intro v other b found
    have apart : v ≠ node := fun same => other (congrArg some same)
    exact (sound.pending v (by simp) b found).imp_left (kept v apart b)
  · intro v b found closed entry old
    exact (early v b found closed).trans (least entry (List.mem_of_mem_erase old))
  · rintro v ⟨b, found, closed⟩
    exact ⟨b, found, fun old => closed (List.mem_of_mem_erase old)⟩

/-- Only ends of edges are pushed. -/
theorem mem_heap_relaxAll {dist : W} {node : V} {edges : List (V × W)} {entry : W × V}
    (member : entry ∈ (edges.foldl (Search.relax dist node) s).heap) :
    entry ∈ s.heap ∨ ∃ edge ∈ edges, edge.1 = entry.2 := by
  induction edges generalizing s with
  | nil => exact .inl member
  | cons edge rest ih =>
    rcases ih member with old | ⟨other, listed, same⟩
    · rw [Search.relax] at old
      split_ifs at old
      · rcases List.mem_cons.mp old with rfl | older
        · exact .inr ⟨edge, List.mem_cons_self, rfl⟩
        · exact .inl older
      · exact .inl old
    · exact .inr ⟨other, List.mem_cons_of_mem _ listed, same⟩

/-- The nodes in the heap stay within a set that no edge leaves. -/
theorem confined_step {nodes : Finset V} (within : ∀ u ∈ nodes, ∀ edge ∈ graph u, edge.1 ∈ nodes)
    (confined : ∀ entry ∈ s.heap, entry.2 ∈ nodes) (stepped : s.step graph target = some next) :
    ∀ entry ∈ next.heap, entry.2 ∈ nodes := by
  rw [Search.step, Option.bind_eq_some_iff] at stepped
  obtain ⟨⟨⟨dist, node⟩, heap⟩, popped, stepped⟩ := stepped
  obtain ⟨member, rfl, -⟩ := popMin_eq_some popped
  dsimp only at stepped
  intro entry inside
  split_ifs at stepped with stale stop
  · cases stepped
    exact confined entry (List.mem_of_mem_erase inside)
  · cases stepped
    rcases mem_heap_relaxAll inside with old | ⟨edge, out, same⟩
    · exact confined entry (List.mem_of_mem_erase old)
    · exact same ▸ within node (confined _ member) edge out

variable [IsOrderedCancelAddMonoid W]

/-- A step either skips an entry or expands a node, which is then closed. -/
theorem Sound.step (sound : s.Sound graph source none)
    (positive : ∀ u, ∀ edge ∈ graph u, 0 < edge.2) (stepped : s.step graph target = some next) :
    next.Sound graph source none ∧ next.Extends s ∧
      ((next.best = s.best ∧ next.heap.length < s.heap.length) ∨
        ∃ entry ∈ s.heap, ¬ s.Closed entry.2 ∧ next.Closed entry.2) := by
  rw [Search.step, Option.bind_eq_some_iff] at stepped
  obtain ⟨⟨⟨dist, node⟩, heap⟩, popped, stepped⟩ := stepped
  obtain ⟨member, rfl, least⟩ := popMin_eq_some popped
  dsimp only at stepped
  split_ifs at stepped with stale stop
  · cases stepped
    obtain ⟨sound, further⟩ := sound.skip stale
    refine ⟨sound, further, .inl ⟨rfl, ?_⟩⟩
    have shorter := List.length_erase_of_mem member
    have nonempty := List.length_pos_of_mem member
    change (s.heap.erase (dist, node)).length < _
    omega
  · cases stepped
    obtain ⟨expanding, further⟩ := sound.expand member least stale
    obtain ⟨last, later, relaxed⟩ := expanding.relaxAll (fun _ => id) (positive node)
    refine ⟨?_, later.trans further, .inr ⟨_, member, ?_, ⟨dist, last.best, last.popped⟩⟩⟩
    · obtain ⟨source_best, nonneg, entries, pending, reached, nodup, settled⟩ := last.sound
      refine ⟨source_best, nonneg, entries, fun v _ b found => ?_, reached, nodup, settled⟩
      by_cases same : v = node
      · subst same
        obtain rfl := Option.some.inj (found.symm.trans last.best)
        exact .inr relaxed
      · exact pending v (fun equal => same (Option.some.inj equal)) b found
    · rintro ⟨b, found, closed⟩
      have same := Option.some.inj (found.symm.trans expanding.best)
      exact closed (same ▸ member)

open Classical in
/-- What is left to do: nodes to be closed, then entries to be skipped. -/
noncomputable def remaining (nodes : Finset V) (s : Search V W) : ℕ ×ₗ ℕ :=
  toLex ((nodes.filter fun v => ¬ s.Closed v).card, s.heap.length)

/-- Each step leaves less to do. -/
theorem remaining_step {nodes : Finset V} (sound : s.Sound graph source none)
    (positive : ∀ u, ∀ edge ∈ graph u, 0 < edge.2)
    (confined : ∀ entry ∈ s.heap, entry.2 ∈ nodes) (stepped : s.step graph target = some next) :
    next.remaining nodes < s.remaining nodes := by
  classical
  obtain ⟨-, further, progress⟩ := sound.step positive stepped
  have shrinks : (nodes.filter fun v => ¬ next.Closed v) ⊆ nodes.filter fun v => ¬ s.Closed v := by
    intro v member
    rw [Finset.mem_filter] at member ⊢
    exact ⟨member.1, fun closed => member.2 (further.closed v closed)⟩
  rw [remaining, remaining, Prod.Lex.lt_iff]
  rcases progress with ⟨-, shorter⟩ | ⟨entry, member, opened, closed⟩
  · rcases (Finset.card_le_card shrinks).lt_or_eq with less | same
    · exact .inl less
    · exact .inr ⟨same, shorter⟩
  · refine .inl (Finset.card_lt_card ⟨shrinks, fun back => ?_⟩)
    have inside := back (Finset.mem_filter.mpr ⟨confined entry member, opened⟩)
    exact (Finset.mem_filter.mp inside).2 closed

/-- A search ends, and from then on more fuel changes nothing. -/
theorem Sound.exists_run {nodes : Finset V} (sound : s.Sound graph source none)
    (positive : ∀ u, ∀ edge ∈ graph u, 0 < edge.2)
    (within : ∀ u ∈ nodes, ∀ edge ∈ graph u, edge.1 ∈ nodes)
    (confined : ∀ entry ∈ s.heap, entry.2 ∈ nodes) :
    ∃ last, Fallible.EndsWith (fun fuel => run graph target fuel s) last ∧
      last.Sound graph source none ∧ last.step graph target = none := by
  induction left : s.remaining nodes using WellFoundedLT.induction generalizing s with
  | ind left ih =>
    cases stepped : s.step graph target with
    | none =>
      refine ⟨s, ⟨1, fun fuel enough => ?_⟩, sound, stepped⟩
      obtain ⟨fuel, rfl⟩ := Nat.exists_eq_add_of_le' enough
      change run graph target (fuel + 1) s = some s
      rw [run, stepped]
    | some next =>
      obtain ⟨nextSound, -, -⟩ := sound.step positive stepped
      have less := left ▸ remaining_step sound positive confined stepped
      obtain ⟨last, ⟨enough, runs⟩, final⟩ :=
        ih _ less nextSound (confined_step within confined stepped) rfl
      refine ⟨last, ⟨enough + 1, fun fuel more => ?_⟩, final⟩
      obtain ⟨fuel, rfl⟩ := Nat.exists_eq_add_of_le' (Nat.le_of_add_left_le more)
      change run graph target (fuel + 1) s = some last
      rw [run, stepped]
      exact runs fuel (by omega)

end Step

section Result

variable [IsOrderedCancelAddMonoid W] {graph : Graph V W} {source : V} {target : Option V}
  {s : Search V W}

omit [IsOrderedCancelAddMonoid W] in
theorem sound_start (graph : Graph V W) (source : V) :
    (start source : Search V W).Sound graph source none := by
  have best : ∀ v, (start source : Search V W).best.get? v = if v = source then some 0 else none :=
    fun v => Dict.get?_set _ _ _ _
  have only : ∀ v, ∀ b ∈ (start source : Search V W).best.get? v, v = source ∧ b = 0 := by
    intro v b found
    rw [best] at found
    split_ifs at found with same
    · exact ⟨same, (Option.some.inj found).symm⟩
    · cases found
  constructor
  · rw [best, if_pos rfl]
  · exact fun v b found => (only v b found).2.ge
  · intro entry member
    obtain rfl := List.mem_singleton.mp member
    exact ⟨0, by rw [best, if_pos rfl]; rfl, le_rfl⟩
  · intro v _ b found
    obtain ⟨rfl, rfl⟩ := only v b found
    exact .inl List.mem_cons_self
  · intro v other b found
    exact absurd (only v b found).1 other
  · exact List.nodup_singleton _
  · intro v b found closed
    obtain ⟨rfl, rfl⟩ := only v b found
    exact absurd List.mem_cons_self closed

omit [IsOrderedCancelAddMonoid W] in
/-- When nothing is left to do, every node nearer than the target has been expanded. -/
theorem Sound.finished (sound : s.Sound graph source none) (ended : s.step graph target = none) :
    ∃ limit : WithTop W, (∀ v, ∀ b ∈ s.best.get? v, Relaxed graph s v b ∨ limit ≤ b) ∧
      (limit = ⊤ ∨ ∃ node dist, target = some node ∧ s.best.get? node = some dist ∧
        limit = dist) := by
  cases popped : popMin s.heap with
  | none =>
    refine ⟨⊤, fun v b found => ?_, .inl rfl⟩
    refine .inl ((sound.pending v (by simp) b found).resolve_left fun member => ?_)
    rw [popMin_eq_none popped] at member
    exact List.not_mem_nil member
  | some least =>
    obtain ⟨⟨dist, node⟩, heap⟩ := least
    obtain ⟨member, rfl, least⟩ := popMin_eq_some popped
    rw [Search.step, popped, Option.bind_some] at ended
    dsimp only at ended
    split_ifs at ended with stale stop
    obtain ⟨expanding, -⟩ := sound.expand member least stale
    refine ⟨dist, fun v b found => ?_, .inr ⟨node, dist, stop, expanding.best, rfl⟩⟩
    rcases sound.pending v (by simp) b found with waiting | relaxed
    · exact .inr (WithTop.coe_le_coe.mpr (least _ waiting))
    · exact .inl relaxed

/-- A walk does not lead below the best totals, except beyond the limit. -/
theorem Sound.le_walk (sound : s.Sound graph source none)
    (positive : ∀ u, ∀ edge ∈ graph u, 0 < edge.2) {limit : WithTop W}
    (finished : ∀ v, ∀ b ∈ s.best.get? v, Relaxed graph s v b ∨ limit ≤ b) {v : V}
    {edges : List (V × V)} {total : W} (walk : Walk graph source v edges total) :
    (∃ b ∈ s.best.get? v, b ≤ total) ∨ limit ≤ total := by
  induction walk with
  | nil => exact .inl ⟨0, sound.source_best, le_rfl⟩
  | @snoc u v edges total weight walk edge ih =>
    have longer : total ≤ total + weight := le_add_of_nonneg_right (positive u _ edge).le
    rcases ih with ⟨b, found, below⟩ | beyond
    · rcases finished u b found with relaxed | beyond
      · obtain ⟨next, atNext, lower⟩ := relaxed _ edge
        exact .inl ⟨next, atNext, lower.trans (add_le_add_left below weight)⟩
      · exact .inr (beyond.trans (WithTop.coe_le_coe.mpr (below.trans longer)))
    · exact .inr (beyond.trans (WithTop.coe_le_coe.mpr longer))

/-- The best totals that were asked for are least, and a node without one is not reached at all. -/
theorem Sound.least (sound : s.Sound graph source none)
    (positive : ∀ u, ∀ edge ∈ graph u, 0 < edge.2) (ended : s.step graph target = none) {v : V}
    (asked : target = none ∨ target = some v) {edges : List (V × V)} {total : W}
    (walk : Walk graph source v edges total) : ∃ b ∈ s.best.get? v, b ≤ total := by
  obtain ⟨limit, finished, limited⟩ := sound.finished ended
  rcases sound.le_walk positive finished walk with found | beyond
  · exact found
  · rcases limited with rfl | ⟨node, dist, stop, best, rfl⟩
    · exact absurd beyond (WithTop.coe_lt_top total).not_ge
    · rcases asked with none | same
      · rw [none] at stop
        cases stop
      · obtain rfl := Option.some.inj (same.symm.trans stop)
        exact ⟨dist, best, WithTop.coe_le_coe.mp beyond⟩

/-- The predecessors of a reached node lead back to the source, along a walk no longer than the
best total. -/
theorem Sound.trace (sound : s.Sound graph source none)
    (positive : ∀ u, ∀ edge ∈ graph u, 0 < edge.2) {v : V} {b : W} (found : s.best.get? v = some b) :
    ∃ edges total, Walk graph source v edges total ∧ total ≤ b ∧
      ∀ fuel, (s.best.values.toFinset.filter (· < b)).card < fuel → ∀ tail,
        Search.trace source s.predecessor fuel v tail = some (source, edges ++ tail) := by
  induction rank : (s.best.values.toFinset.filter (· < b)).card using Nat.strong_induction_on
    generalizing v b with
  | _ k ih =>
    by_cases same : v = source
    · subst same
      refine ⟨[], 0, .nil, sound.nonneg v b found, fun fuel enough tail => ?_⟩
      obtain ⟨fuel, rfl⟩ := Nat.exists_eq_add_of_le' (Nat.one_le_of_lt enough)
      rw [Search.trace, if_pos rfl, List.nil_append]
    · obtain ⟨u, before, earlier, atEarlier, weight, edge, lower⟩ := sound.reached v same b found
      have nearer : earlier < b :=
        (lt_add_of_pos_right earlier (positive u _ edge)).trans_le lower
      have fewer : (s.best.values.toFinset.filter (· < earlier)).card < k := by
        rw [← rank]
        refine Finset.card_lt_card ⟨fun value member => ?_, fun back => ?_⟩
        · rw [Finset.mem_filter] at member ⊢
          exact ⟨member.1, member.2.trans nearer⟩
        · have listed : earlier ∈ s.best.values.toFinset :=
            List.mem_toFinset.mpr ((s.best.mem_values_iff earlier).mpr ⟨u, atEarlier⟩)
          have inside := back (Finset.mem_filter.mpr ⟨listed, nearer⟩)
          exact lt_irrefl _ (Finset.mem_filter.mp inside).2
      obtain ⟨edges, total, walk, short, traced⟩ := ih _ fewer atEarlier rfl
      refine ⟨edges ++ [(u, v)], total + weight, walk.snoc edge,
        (add_le_add_left short weight).trans lower, fun fuel enough tail => ?_⟩
      obtain ⟨fuel, rfl⟩ := Nat.exists_eq_add_of_le' (Nat.one_le_of_lt enough)
      rw [Search.trace, if_neg same, before]
      dsimp only
      rw [traced fuel (by omega), List.append_assoc, List.singleton_append]

end Result

/-- From the start, a search ends with the least totals of what was asked for, each traced back to
the source along a walk with that total. -/
theorem exists_shortest [IsOrderedCancelAddMonoid W] {graph : Graph V W} {source : V}
    (target : Option V) {nodes : Finset V} (inside : source ∈ nodes)
    (within : ∀ u ∈ nodes, ∀ edge ∈ graph u, edge.1 ∈ nodes)
    (positive : ∀ u, ∀ edge ∈ graph u, 0 < edge.2) :
    ∃ last, Fallible.EndsWith (fun fuel => run graph target fuel (start source)) last ∧
      ∀ v, target = none ∨ target = some v →
        (∀ b ∈ last.best.get? v, (∀ edges total, Walk graph source v edges total → b ≤ total) ∧
          ∃ edges, Walk graph source v edges b ∧ Fallible.EndsWith
            (fun fuel => Search.trace source last.predecessor fuel v []) (source, edges)) ∧
        (last.best.get? v = none → ∀ edges total, ¬ Walk graph source v edges total) := by
  have confined : ∀ entry ∈ (start source : Search V W).heap, entry.2 ∈ nodes := by
    intro entry member
    obtain rfl := List.mem_singleton.mp member
    exact inside
  obtain ⟨last, ends, sound, ended⟩ : ∃ last,
      Fallible.EndsWith (fun fuel => run graph target fuel (start source)) last ∧ _ ∧ _ :=
    (sound_start graph source).exists_run positive within confined
  refine ⟨last, ends, fun v asked => ⟨fun b found => ?_, fun unreached edges total walk => ?_⟩⟩
  · have least : ∀ edges total, Walk graph source v edges total → b ≤ total := by
      intro edges total walk
      obtain ⟨other, atOther, below⟩ := sound.least positive ended asked walk
      obtain rfl := Option.some.inj (found.symm.trans atOther)
      exact below
    obtain ⟨edges, total, walk, short, traced⟩ := sound.trace positive found
    obtain rfl := short.antisymm (least edges total walk)
    refine ⟨least, edges, walk,
      (last.best.values.toFinset.filter (· < total)).card + 1, fun fuel more => ?_⟩
    have trace := traced fuel (Nat.lt_of_succ_le more) []
    rw [List.append_nil] at trace
    exact trace
  · obtain ⟨b, found, -⟩ := sound.least positive ended asked walk
    rw [unreached] at found
    cases found

end Search

end FlOp.Library.Dijkstra
