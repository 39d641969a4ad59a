import FlOp.Library.Dict

/-! # Union-find over a dictionary of parents

A forest stores the parent of each node it knows; a root is its own parent, and so is a node it
does not know. Finding a root halves the path to it, and a union hangs one root below another.
Two nodes are together when they lead to the same root; finding keeps that relation and a union
only adds to it. A path is no longer than the dictionary, so the loop is bounded by its size.
-/

namespace FlOp.Library

variable {α : Type*} [DecidableEq α]

namespace Forest

/-- The parent of a node. -/
def up (parent : Dict α α) (x : α) : α := parent.getD x x

/-- A node climbs to a root in so many steps. -/
inductive Leads (parent : Dict α α) : ℕ → α → α → Prop
  | root {r : α} (top : up parent r = r) : Leads parent 0 r r
  | climb {n : ℕ} {x r : α} (below : up parent x ≠ x) (rest : Leads parent n (up parent x) r) :
      Leads parent (n + 1) x r

variable {parent : Dict α α} {n m : ℕ} {x y r s : α}

theorem Leads.top (leads : Leads parent n x r) : up parent r = r := by
  induction leads with
  | root top => exact top
  | climb _ _ ih => exact ih

theorem Leads.unique (first : Leads parent n x r) (second : Leads parent m x s) :
    n = m ∧ r = s := by
  induction first generalizing m with
  | root top =>
    cases second with
    | root => exact ⟨rfl, rfl⟩
    | climb below => exact absurd top below
  | climb below _ ih =>
    cases second with
    | root top => exact absurd top below
    | climb _ rest =>
      obtain ⟨same, root⟩ := ih rest
      exact ⟨congrArg (· + 1) same, root⟩

theorem Leads.top_of_zero (leads : Leads parent 0 x r) : up parent x = x := by
  cases leads with
  | root top => exact top

theorem Leads.tail (leads : Leads parent (n + 1) x r) : Leads parent n (up parent x) r := by
  cases leads with
  | climb _ rest => exact rest

/-- The parent of a node leads where the node does, in no more steps. -/
theorem Leads.shift (leads : Leads parent n x r) : ∃ m ≤ n, Leads parent m (up parent x) r := by
  cases leads with
  | root top => exact ⟨0, Nat.le_refl _, top.symm ▸ .root top⟩
  | climb _ rest => exact ⟨_, Nat.le_succ _, rest⟩

/-- Only a known node has another parent than itself. -/
theorem mem_keys_of_below (below : up parent x ≠ x) : x ∈ parent.keys := by
  rw [Dict.mem_keys_iff]
  by_contra absent
  have none : parent.get? x = none := by simpa using absent
  exact below (by simp [up, Dict.getD, none])

/-- The nodes on a path are distinct and known. -/
theorem Leads.path (leads : Leads parent n x r) :
    ∃ nodes : List α, nodes.length = n ∧ nodes.Nodup ∧ nodes ⊆ parent.keys ∧
      ∀ node ∈ nodes, ∃ m ≤ n, Leads parent m node r := by
  induction leads with
  | root => exact ⟨[], rfl, List.nodup_nil, List.nil_subset _, by simp⟩
  | @climb n x r below rest ih =>
    obtain ⟨nodes, length, nodup, known, depths⟩ := ih
    have whole : Leads parent (n + 1) x r := .climb below rest
    refine ⟨x :: nodes, by rw [List.length_cons, length], ?_, ?_, ?_⟩
    · refine List.nodup_cons.mpr ⟨fun repeated => ?_, nodup⟩
      obtain ⟨m, shallow, again⟩ := depths x repeated
      have same := (whole.unique again).1
      omega
    · exact List.cons_subset.mpr ⟨mem_keys_of_below below, known⟩
    · intro node member
      rcases List.mem_cons.mp member with rfl | later
      · exact ⟨n + 1, Nat.le_refl _, whole⟩
      · obtain ⟨m, shallow, leads⟩ := depths node later
        exact ⟨m, by omega, leads⟩

theorem Leads.le_size (leads : Leads parent n x r) : n ≤ parent.keys.length := by
  obtain ⟨nodes, length, nodup, known, -⟩ := leads.path
  rw [← length]
  exact (List.subperm_of_subset nodup known).length_le

theorem up_set (parent : Dict α α) (x p y : α) :
    up (parent.set x p) y = if y = x then p else up parent y := by
  unfold up Dict.getD
  rw [Dict.get?_set]
  split_ifs <;> rfl

/-- Pointing a node at its grandparent leaves every root where it was. -/
theorem Leads.halve (leads : Leads parent n y r) (below : up parent x ≠ x) :
    ∃ m ≤ n, Leads (parent.set x (up parent (up parent x))) m y r := by
  induction leads with
  | @root r top =>
    have other : r ≠ x := fun same => below (same ▸ top)
    exact ⟨0, Nat.le_refl _, .root (by rw [up_set, if_neg other, top])⟩
  | @climb n y r lower rest ih =>
    obtain ⟨m, shorter, again⟩ := ih
    by_cases same : y = x
    · subst same
      have parentKept : up (parent.set y (up parent (up parent y))) (up parent y) =
          up parent (up parent y) := by rw [up_set, if_neg lower]
      have grand : up (parent.set y (up parent (up parent y))) y =
          up parent (up parent y) := by rw [up_set, if_pos rfl]
      cases rest with
      | root top =>
        refine ⟨1, by omega, .climb ?_ ?_⟩
        · rw [grand, top]
          exact lower
        · rw [grand, top]
          exact .root (by rw [top] at parentKept; exact parentKept)
      | @climb k _ _ higher further =>
        obtain ⟨k, rfl⟩ : ∃ k, m = k + 1 := by
          cases again with
          | root top => exact absurd (parentKept ▸ top) higher
          | climb _ _ => exact ⟨_, rfl⟩
        have skipped : Leads _ k (up parent (up parent y)) r := parentKept ▸ again.tail
        refine ⟨k + 1, by omega, .climb ?_ ?_⟩
        · rw [grand]
          intro cycle
          have long := (Leads.climb lower (.climb higher further)).unique (cycle ▸ further)
          omega
        · rwa [grand]
    · have kept : up (parent.set x (up parent (up parent x))) y = up parent y := by
        rw [up_set, if_neg same]
      exact ⟨m + 1, by omega, .climb (by rwa [kept]) (by rwa [kept])⟩

theorem Leads.congr {other : Dict α α} (leads : Leads parent n x r)
    (same : ∀ y, up parent y = up other y) : Leads other n x r := by
  induction leads with
  | root top => exact .root (same _ ▸ top)
  | climb below _ ih => exact .climb (same _ ▸ below) (same _ ▸ ih)

/-- A node that is not known is its own parent already. -/
theorem up_touch (parent : Dict α α) (x y : α) :
    up (if x ∈ parent.keys then parent else parent.set x x) y = up parent y := by
  split
  · rfl
  · next absent =>
    rw [up_set]
    split
    · next same =>
      subst same
      by_contra below
      exact absent (mem_keys_of_below (Ne.symm below))
    · rfl

/-- Hanging a root below another one moves the nodes that led to it. -/
theorem Leads.hang (leads : Leads parent n y r) (rootX : up parent x = x) (top : up parent s = s)
:
    ∃ m, Leads (parent.set x s) m y (if r = x then s else r) := by
  have rootKept : up (parent.set x s) s = s := by
    rw [up_set]
    split_ifs
    · rfl
    · exact top
  induction leads with
  | @root r rootTop =>
    by_cases same : r = x
    · subst same
      have hung : up (parent.set r s) r = s := by rw [up_set, if_pos rfl]
      rw [if_pos rfl]
      by_cases self : s = r
      · subst self
        exact ⟨0, .root rootKept⟩
      · exact ⟨1, .climb (by rwa [hung]) (by rw [hung]; exact .root rootKept)⟩
    · rw [if_neg same]
      exact ⟨0, .root (by rw [up_set, if_neg same, rootTop])⟩
  | @climb n y r lower rest ih =>
    obtain ⟨m, again⟩ := ih
    have other : y ≠ x := fun same => lower (same ▸ rootX)
    have kept : up (parent.set x s) y = up parent y := by rw [up_set, if_neg other]
    exact ⟨m + 1, .climb (by rwa [kept]) (by rwa [kept])⟩

end Forest

open Forest

/-- A dictionary of parents in which every node leads to a root. -/
structure Forest (α : Type*) [DecidableEq α] where
  parent : Dict α α
  grounded : ∀ x, ∃ n r, Leads parent n x r

namespace Forest

/-- The forest that knows no node. -/
def empty : Forest α where
  parent := .empty
  grounded x := ⟨0, x, .root rfl⟩

/-- A node leads to a root, in any number of steps. -/
def RootOf (forest : Forest α) (x r : α) : Prop := ∃ n, Leads forest.parent n x r

/-- Two nodes lead to the same root. -/
def Together (forest : Forest α) (x y : α) : Prop := ∃ r, forest.RootOf x r ∧ forest.RootOf y r

variable {forest : Forest α} {x y z r s a b : α}

theorem RootOf.unique (first : forest.RootOf x r) (second : forest.RootOf x s) : r = s := by
  obtain ⟨_, first⟩ := first
  obtain ⟨_, second⟩ := second
  exact (first.unique second).2

theorem exists_rootOf (forest : Forest α) (x : α) : ∃ r, forest.RootOf x r := by
  obtain ⟨n, r, leads⟩ := forest.grounded x
  exact ⟨r, n, leads⟩

theorem Together.symm (together : forest.Together x y) : forest.Together y x := by
  obtain ⟨r, first, second⟩ := together
  exact ⟨r, second, first⟩

theorem Together.trans (first : forest.Together x y) (second : forest.Together y z) :
    forest.Together x z := by
  obtain ⟨r, xr, yr⟩ := first
  obtain ⟨s, ys, zs⟩ := second
  obtain rfl := yr.unique ys
  exact ⟨r, xr, zs⟩

/-- Know a node; a new one is a root. -/
def touch (forest : Forest α) (x : α) : Forest α where
  parent := if x ∈ forest.parent.keys then forest.parent else forest.parent.set x x
  grounded y := by
    obtain ⟨n, r, leads⟩ := forest.grounded y
    exact ⟨n, r, leads.congr fun z => (up_touch forest.parent x z).symm⟩

/-- Point a node below a root at its grandparent. -/
def halve (forest : Forest α) (x : α) (below : up forest.parent x ≠ x) : Forest α where
  parent := forest.parent.set x (up forest.parent (up forest.parent x))
  grounded y := by
    obtain ⟨n, r, leads⟩ := forest.grounded y
    obtain ⟨m, -, halved⟩ := leads.halve below
    exact ⟨m, r, halved⟩

/-- Make a root a child of another one. -/
def hang (forest : Forest α) (x s : α) (rootX : up forest.parent x = x)
    (top : up forest.parent s = s) : Forest α where
  parent := forest.parent.set x s
  grounded y := by
    obtain ⟨n, r, leads⟩ := forest.grounded y
    obtain ⟨m, hung⟩ := leads.hang rootX top
    exact ⟨m, _, hung⟩

/-- Climb to the root of a node, halving the path. -/
def findLoop : ℕ → Forest α → α → Forest α × α
  | 0, forest, x => (forest, x)
  | n + 1, forest, x =>
    if below : up forest.parent x = x then (forest, x)
    else
      findLoop n (forest.halve x below) (up forest.parent (up forest.parent x))

/-- The root of a node, and the forest after looking for it. -/
def find (forest : Forest α) (x : α) : Forest α × α :=
  let touched := forest.touch x
  findLoop touched.parent.keys.length touched x

/-- The climb without a bound on its steps: it stops at a root only. -/
inductive Search : Forest α → α → Forest α × α → Prop
  | top {forest : Forest α} {x : α} (top : up forest.parent x = x) : Search forest x (forest, x)
  | climb {forest : Forest α} {x : α} {result : Forest α × α} (below : up forest.parent x ≠ x)
      (rest : Search (forest.halve x below) (up forest.parent (up forest.parent x)) result) :
      Search forest x result

/-- What a later forest keeps of an earlier one: its nodes and their roots. -/
structure Keeps (later forest : Forest α) : Prop where
  rootOf : ∀ y r, forest.RootOf y r → later.RootOf y r
  known : forest.parent.keys ⊆ later.parent.keys

theorem Keeps.rfl : forest.Keeps forest := ⟨fun _ _ => id, fun _ => id⟩

theorem Keeps.trans {later middle : Forest α} (second : later.Keeps middle)
    (first : middle.Keeps forest) : later.Keeps forest where
  rootOf y r root := second.rootOf y r (first.rootOf y r root)
  known := List.Subset.trans first.known second.known

theorem Keeps.together {later : Forest α} (keeps : later.Keeps forest)
    (together : forest.Together x y) : later.Together x y := by
  obtain ⟨r, xr, yr⟩ := together
  exact ⟨r, keeps.rootOf x r xr, keeps.rootOf y r yr⟩

theorem touch_keeps (forest : Forest α) (x : α) : (forest.touch x).Keeps forest where
  rootOf y r root := by
    obtain ⟨n, leads⟩ := root
    exact ⟨n, leads.congr fun z => (up_touch forest.parent x z).symm⟩
  known y member := by
    simp only [touch]
    split
    · exact member
    · exact (Dict.mem_keys_set _ _ _ _).mpr (.inr member)

theorem mem_touch (forest : Forest α) (x : α) : x ∈ (forest.touch x).parent.keys := by
  simp only [touch]
  split
  · assumption
  · exact (Dict.mem_keys_set _ _ _ _).mpr (.inl rfl)

theorem halve_keeps (forest : Forest α) (x : α) (below : up forest.parent x ≠ x) :
    (forest.halve x below).Keeps forest where
  rootOf y r root := by
    obtain ⟨n, leads⟩ := root
    obtain ⟨m, -, halved⟩ := leads.halve below
    exact ⟨m, halved⟩
  known y member := (Dict.mem_keys_set _ _ _ _).mpr (.inr member)

/-- With enough steps the loop finds the root and keeps the forest. -/
theorem findLoop_spec {n k : ℕ} (leads : Leads forest.parent k x r) (enough : k ≤ n) :
    (findLoop n forest x).2 = r ∧ (findLoop n forest x).1.Keeps forest := by
  induction n generalizing forest x k with
  | zero =>
    obtain rfl : k = 0 := by omega
    cases leads with
    | root => exact ⟨rfl, .rfl⟩
  | succ n ih =>
    unfold findLoop
    split
    · next top =>
      have root : forest.RootOf x x := ⟨0, .root top⟩
      exact ⟨root.unique ⟨k, leads⟩, .rfl⟩
    · next below =>
      cases leads with
      | root top => exact absurd top below
      | @climb k _ _ _ rest =>
        obtain ⟨m, shorter, skipped⟩ := rest.shift
        obtain ⟨j, still, halved⟩ := skipped.halve below
        have ends : Leads (forest.halve x below).parent j _ r := halved
        obtain ⟨found, keeps⟩ := ih ends (by omega)
        exact ⟨found, keeps.trans (forest.halve_keeps x below)⟩

/-- The bounded loop is the climb, if it has enough steps. -/
theorem search_findLoop {n k : ℕ} (leads : Leads forest.parent k x r) (enough : k ≤ n) :
    Search forest x (findLoop n forest x) := by
  induction n generalizing forest x k with
  | zero =>
    obtain rfl : k = 0 := by omega
    exact .top leads.top_of_zero
  | succ n ih =>
    rw [findLoop]
    split
    · next top => exact .top top
    · next below =>
      cases leads with
      | root top => exact absurd top below
      | climb _ rest =>
        obtain ⟨m, shorter, skipped⟩ := rest.shift
        obtain ⟨j, still, halved⟩ := skipped.halve below
        exact .climb below (ih halved (by omega))

/-- Looking for a root ends, in the forest and at the node that are returned. -/
theorem search_find (forest : Forest α) (x : α) : Search (forest.touch x) x (forest.find x) := by
  obtain ⟨n, r, leads⟩ := (forest.touch x).grounded x
  exact search_findLoop leads leads.le_size

theorem find_spec (root : forest.RootOf x r) :
    (forest.find x).2 = r ∧ (forest.find x).1.Keeps forest ∧
      x ∈ (forest.find x).1.parent.keys := by
  have touched := forest.touch_keeps x
  obtain ⟨n, leads⟩ := touched.rootOf x r root
  obtain ⟨found, keeps⟩ := findLoop_spec leads leads.le_size
  exact ⟨found, keeps.trans touched, keeps.known (forest.mem_touch x)⟩

/-- The node a search ends at is a root of the forest it leaves. -/
theorem up_find (forest : Forest α) (x : α) :
    up (forest.find x).1.parent (forest.find x).2 = (forest.find x).2 := by
  obtain ⟨r, root⟩ := forest.exists_rootOf x
  obtain ⟨rfl, keeps, -⟩ := find_spec root
  obtain ⟨n, leads⟩ := keeps.rootOf _ _ root
  exact leads.top

/-- A root stays one while another node is looked for. -/
theorem up_find_of_top (top : up forest.parent r = r) (x : α) :
    up (forest.find x).1.parent r = r := by
  obtain ⟨s, root⟩ := forest.exists_rootOf x
  obtain ⟨n, leads⟩ := (find_spec root).2.1.rootOf r r ⟨0, .root top⟩
  exact leads.top

-- The proofs below are about what a search returns, not about how it climbs.
attribute [local irreducible] find

/-- Join two nodes: the root of the second becomes a child of the root of the first. -/
def union (forest : Forest α) (a b : α) : Forest α :=
  let first := forest.find a
  let second := first.1.find b
  second.1.hang second.2 first.2 (up_find first.1 b) (up_find_of_top (up_find forest a) b)

theorem RootOf.hang (root : forest.RootOf y r) (x s : α) (rootX : up forest.parent x = x)
    (top : up forest.parent s = s) :
    (forest.hang x s rootX top).RootOf y (if r = x then s else r) := by
  obtain ⟨n, leads⟩ := root
  exact leads.hang rootX top

/-- After a union the nodes of the second tree lead to the root of the first. -/
theorem RootOf.union (root : forest.RootOf y r) (rootA : forest.RootOf a s)
    (rootB : forest.RootOf b z) :
    (forest.union a b).RootOf y (if r = z then s else r) := by
  obtain ⟨foundA, keepsA, -⟩ := find_spec rootA
  obtain ⟨foundB, keepsB, -⟩ := find_spec (keepsA.rootOf b z rootB)
  have kept := keepsB.rootOf y r (keepsA.rootOf y r root)
  have top := up_find_of_top (up_find forest a) b
  have hung : (forest.union a b).RootOf y _ := kept.hang _ _ (up_find _ b) top
  rwa [foundA, foundB] at hung

/-- Every node is related to its root. -/
def Within (relation : α → α → Prop) (forest : Forest α) : Prop :=
  ∀ y r, forest.RootOf y r → relation y r

/-- A union of related nodes relates no others. -/
theorem Within.union {relation : α → α → Prop} (equivalence : Equivalence relation)
    (within : Within relation forest) (related : relation a b) :
    Within relation (forest.union a b) := by
  intro y q root
  obtain ⟨r, rootY⟩ := forest.exists_rootOf y
  obtain ⟨s, rootA⟩ := forest.exists_rootOf a
  obtain ⟨t, rootB⟩ := forest.exists_rootOf b
  obtain rfl := root.unique (rootY.union rootA rootB)
  split
  · next same =>
    subst same
    have toB : relation y b := equivalence.trans (within y r rootY)
      (equivalence.symm (within b r rootB))
    exact equivalence.trans toB
      (equivalence.trans (equivalence.symm related) (within a s rootA))
  · exact within y r rootY

theorem Within.empty {relation : α → α → Prop} (equivalence : Equivalence relation) :
    Within relation (empty : Forest α) := by
  rintro y r ⟨n, leads⟩
  cases leads with
  | root => exact equivalence.refl y
  | climb below => exact absurd rfl below

theorem Within.of_together {relation : α → α → Prop} (equivalence : Equivalence relation)
    (within : Within relation forest) (together : forest.Together x y) : relation x y := by
  obtain ⟨r, rootX, rootY⟩ := together
  exact equivalence.trans (within x r rootX) (equivalence.symm (within y r rootY))

/-- A union keeps together what is together. -/
theorem Together.union (together : forest.Together y z) (a b : α) :
    (forest.union a b).Together y z := by
  obtain ⟨r, rootA⟩ := forest.exists_rootOf a
  obtain ⟨s, rootB⟩ := (forest.find a).1.exists_rootOf b
  have keeps := (find_spec rootB).2.1.trans (find_spec rootA).2.1
  obtain ⟨q, rootY, rootZ⟩ := keeps.together together
  have top := up_find_of_top (up_find forest a) b
  exact ⟨_, rootY.hang _ _ (up_find _ b) top, rootZ.hang _ _ (up_find _ b) top⟩

/-- A union brings its nodes together. -/
theorem together_union (forest : Forest α) (a b : α) : (forest.union a b).Together a b := by
  obtain ⟨r, rootA⟩ := forest.exists_rootOf a
  obtain ⟨s, rootB⟩ := (forest.find a).1.exists_rootOf b
  obtain ⟨foundA, keepsA, -⟩ := find_spec rootA
  obtain ⟨foundB, keepsB, -⟩ := find_spec rootB
  have top := up_find_of_top (up_find forest a) b
  have hungA : (forest.union a b).RootOf a _ :=
    (keepsB.rootOf a r (keepsA.rootOf a r rootA)).hang _ _ (up_find _ b) top
  have hungB : (forest.union a b).RootOf b _ :=
    (keepsB.rootOf b s rootB).hang _ _ (up_find _ b) top
  rw [foundA] at hungA hungB
  rw [ite_self] at hungA
  rw [foundB, if_pos rfl] at hungB
  exact ⟨r, hungA, hungB⟩

theorem known_union (forest : Forest α) (a b : α) :
    forest.parent.keys ⊆ (forest.union a b).parent.keys ∧
      a ∈ (forest.union a b).parent.keys ∧ b ∈ (forest.union a b).parent.keys := by
  obtain ⟨r, rootA⟩ := forest.exists_rootOf a
  obtain ⟨s, rootB⟩ := (forest.find a).1.exists_rootOf b
  obtain ⟨-, keepsA, knownA⟩ := find_spec rootA
  obtain ⟨-, keepsB, knownB⟩ := find_spec rootB
  have hung : ((forest.find a).1.find b).1.parent.keys ⊆ (forest.union a b).parent.keys :=
    fun y member => (Dict.mem_keys_set _ _ _ _).mpr (.inr member)
  have both := List.Subset.trans keepsA.known keepsB.known
  exact ⟨List.Subset.trans both hung, hung (keepsB.known knownA), hung knownB⟩

end Forest

end FlOp.Library
