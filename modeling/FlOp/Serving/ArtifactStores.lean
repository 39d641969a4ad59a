import FlOp.Serving.ObjectStore

/-! # The two artifact backends

The filesystem lists directories, the object store lists markers. A published run has one marker,
at its root, so both list the same runs; the revisions of a rolling run have none.
-/

namespace FlOp.Serving

open Library

/-! ## The filesystem -/

/-- Files and the directories made for them. -/
structure FileTree where
  files : Dict Key Bytes := .empty
  dirs : List Key := []

namespace FileTree

/-- `mkdir(parents=True)`. -/
def mkdir (tree : FileTree) (path : Key) : FileTree :=
  { tree with dirs := tree.dirs ++ path.inits }

def write (tree : FileTree) (path : Key) (data : Bytes) : FileTree :=
  { (tree.mkdir path.dropLast) with files := tree.files.set path data }

/-- The name of a directory directly below a path. -/
def childName (base dir : Key) : Option String :=
  match dir.drop base.length with
  | [name] => if base.isPrefixOf dir then some name else none
  | _ => none

/-- `FilesystemArtifactStore.list_run_ids`: the directories directly below a path. -/
def listRunIds (tree : FileTree) (subdir : Key) : List String :=
  sorted (tree.dirs.filterMap (childName subdir)).toFinset

end FileTree

/-! ## Run trees -/

/-- What a planner writes below a run's directory. Plans and summaries are files, not
directories. -/
structure RunTree where
  files : Dict Key Bytes
  named : ∀ rel ∈ files.keys, rel ≠ []
  leaves : ∀ rel ∈ files.keys, "plan.json" ∉ rel.dropLast ∧ "revisions_summary.json" ∉ rel.dropLast

/-- Runs by subdirectory and run id. -/
abbrev RunTrees := Dict (String × String) RunTree

/-- Write a run's directory and files. -/
def writeRun (tree : FileTree) (run : Key) (files : Dict Key Bytes) : FileTree :=
  files.entries.foldl (fun tree file => tree.write (run ++ file.1) file.2) (tree.mkdir run)

/-- The filesystem the runs are written to. -/
def onFilesystem (runs : RunTrees) : FileTree :=
  runs.entries.foldl (fun tree entry => writeRun tree [entry.1.1, entry.1.2] entry.2.files) {}

/-- The object store the runs are published to. -/
def onObjectStore (runs : RunTrees) : Bucket :=
  putAll .empty (runs.entries.flatMap fun entry =>
    publishRun [entry.1.1, entry.1.2] entry.2.files)

/-! ## The store interface and the read routes -/

/-- What the serving API asks of a store. -/
structure ArtifactStore where
  listRunIds : Key → List String
  exists' : Key → Bool
  readBytes : Key → Option Bytes

def FileTree.store (tree : FileTree) : ArtifactStore where
  listRunIds := tree.listRunIds
  exists' path := path ∈ tree.files.keys ∨ path ∈ tree.dirs
  readBytes path := tree.files.get? path

def Bucket.store (bucket : Bucket) : ArtifactStore where
  listRunIds := Serving.listRunIds bucket
  exists' path := path ∈ bucket.keys
  readBytes path := bucket.get? path

inductive PlanMode where
  | periodic
  | rolling
deriving DecidableEq, Repr

def PlanMode.value : PlanMode → String
  | periodic => "periodic"
  | rolling => "rolling"

structure HttpException where
  statusCode : ℕ
  detail : String
deriving DecidableEq, Repr

namespace ArtifactStore

variable (store : ArtifactStore) (validJson : Bytes → Bool)

def planSubdir (mode : PlanMode) : String := "plan-" ++ mode.value

/-- A plain name: no separator, and no special directory. -/
def isPlainArtifactId (value : String) : Bool :=
  '/' ∉ value.toList ∧ value ≠ "" ∧ value ≠ "." ∧ value ≠ ".."

/-- `list_plans`. -/
def listRuns (mode : PlanMode) : List String := store.listRunIds [planSubdir mode]

/-- `_resolve_run_rel`. -/
def resolveRunRel (mode : PlanMode) (runId : String) : Except HttpException String :=
  if runId ≠ "latest" ∧ !isPlainArtifactId runId then
    .error ⟨400, "invalid run id '" ++ runId ++ "'"⟩
  else
    match (store.listRuns mode).getLast? with
    | none => .error ⟨404, "no published " ++ mode.value ++ " plan runs"⟩
    | some newest =>
      let runId := if runId = "latest" then newest else runId
      if runId ∉ store.listRuns mode then
        .error ⟨404, "unknown " ++ mode.value ++ " plan run '" ++ runId ++ "'"⟩
      else .ok runId

/-- `_read_json`: the document's bytes, which the route returns parsed. Reading what is there but
no file is a server error. -/
def readJson (path : Key) : Except HttpException Bytes :=
  let name := path.getLastD ""
  if !store.exists' path then .error ⟨404, "missing artifact " ++ name⟩
  else
    match store.readBytes path with
    | none => .error ⟨500, "Internal Server Error"⟩
    | some data =>
      if validJson data then .ok data else .error ⟨500, "invalid artifact JSON " ++ name⟩

/-- `_rolling_revision_ids`. -/
def rollingRevisionIds (runId : String) : List String :=
  store.listRunIds [planSubdir .rolling, runId, "revisions"]

/-- `GET /plans/{mode}/{run_id}`. -/
def getPlan (mode : PlanMode) (runId : String) : Except HttpException Bytes :=
  (store.resolveRunRel mode runId).bind fun runId =>
    match mode with
    | .periodic => store.readJson validJson [planSubdir mode, runId, "plan.json"]
    | .rolling =>
      match (store.rollingRevisionIds runId).getLast? with
      | none => .error ⟨404, "run '" ++ runId ++ "' has no revisions"⟩
      | some newest =>
        store.readJson validJson [planSubdir mode, runId, "revisions", newest, "plan.json"]

/-- `GET /plans/rolling/{run_id}/revisions`. -/
def listRevisions (runId : String) : Except HttpException Bytes :=
  (store.resolveRunRel .rolling runId).bind fun runId =>
    store.readJson validJson [planSubdir .rolling, runId, "revisions_summary.json"]

/-- `GET /plans/rolling/{run_id}/revisions/{number}`. -/
def getRevision (runId : String) (number : ℤ) : Except HttpException Bytes :=
  (store.resolveRunRel .rolling runId).bind fun runId =>
    let missing : HttpException :=
      ⟨404, "run '" ++ runId ++ "' has no revision " ++ toString number⟩
    if number < 0 then .error missing
    else
      match (store.rollingRevisionIds runId)[number.toNat]? with
      | none => .error missing
      | some revision =>
        store.readJson validJson
          [planSubdir .rolling, runId, "revisions", revision, "plan.json"]

/-- The read routes over published plans. -/
inductive Request where
  | listPlans (mode : PlanMode)
  | getPlan (mode : PlanMode) (runId : String)
  | listRevisions (runId : String)
  | getRevision (runId : String) (number : ℤ)

/-- What a route answers: run ids, a document, or an error. -/
def answer : Request → Except HttpException (List String ⊕ Bytes)
  | .listPlans mode => .ok (.inl (store.listRuns mode))
  | .getPlan mode runId => (store.getPlan validJson mode runId).map .inr
  | .listRevisions runId => (store.listRevisions validJson runId).map .inr
  | .getRevision runId number => (store.getRevision validJson runId number).map .inr

/-- A resolved run is a listed one. -/
theorem mem_of_resolveRunRel {store : ArtifactStore} {mode : PlanMode} {runId resolved : String}
    (found : store.resolveRunRel mode runId = .ok resolved) : resolved ∈ store.listRuns mode := by
  unfold resolveRunRel at found
  split at found
  · cases found
  · cases newest : (store.listRuns mode).getLast? with
    | none =>
      rw [newest] at found
      cases found
    | some last =>
      rw [newest] at found
      dsimp only at found
      generalize (if runId = "latest" then last else runId) = chosen at found
      split at found
      · cases found
      · next listed =>
        cases found
        exact not_not.mp listed

/-- Two stores answer alike if they list the same runs and, for the runs they list, the same
revisions and the same plans and summaries. -/
theorem answer_congr {a b : ArtifactStore} {validJson : Bytes → Bool}
    (lists : ∀ mode, a.listRuns mode = b.listRuns mode)
    (revisions : ∀ run ∈ a.listRuns .rolling, a.rollingRevisionIds run = b.rollingRevisionIds run)
    (documents : ∀ mode, ∀ run ∈ a.listRuns mode, ∀ dir : Key,
      ∀ name ∈ ["plan.json", "revisions_summary.json"],
        a.readJson validJson ([planSubdir mode, run] ++ dir ++ [name]) =
          b.readJson validJson ([planSubdir mode, run] ++ dir ++ [name]))
    (request : Request) : a.answer validJson request = b.answer validJson request := by
  have resolved : ∀ mode runId, a.resolveRunRel mode runId = b.resolveRunRel mode runId := by
    intro mode runId
    simp only [resolveRunRel, lists]
  cases request with
  | listPlans mode => simp only [answer, lists]
  | getPlan mode runId =>
    simp only [answer, getPlan, ← resolved]
    cases found : a.resolveRunRel mode runId with
    | error _ => rfl
    | ok run =>
      have listed := mem_of_resolveRunRel found
      cases mode with
      | periodic =>
        exact congrArg _ (documents .periodic run listed [] "plan.json" (by simp))
      | rolling =>
        simp only [Except.bind, ← revisions run listed]
        cases (a.rollingRevisionIds run).getLast? with
        | none => rfl
        | some newest =>
          exact congrArg _
            (documents .rolling run listed ["revisions", newest] "plan.json" (by simp))
  | listRevisions runId =>
    simp only [answer, listRevisions, ← resolved]
    cases found : a.resolveRunRel .rolling runId with
    | error _ => rfl
    | ok run =>
      exact congrArg _ (documents .rolling run (mem_of_resolveRunRel found) []
        "revisions_summary.json" (by simp))
  | getRevision runId number =>
    simp only [answer, getRevision, ← resolved]
    cases found : a.resolveRunRel .rolling runId with
    | error _ => rfl
    | ok run =>
      have listed := mem_of_resolveRunRel found
      simp only [Except.bind, ← revisions run listed]
      by_cases negative : number < 0
      · simp only [negative, if_true]
      · simp only [negative, if_false]
        cases (a.rollingRevisionIds run)[number.toNat]? with
        | none => rfl
        | some revision =>
          exact congrArg _
            (documents .rolling run listed ["revisions", revision] "plan.json" (by simp))

end ArtifactStore

/-! ## What the two stores hold -/

theorem FileTree.mem_listRunIds {tree : FileTree} {subdir : Key} {name : String} :
    name ∈ tree.listRunIds subdir ↔ subdir ++ [name] ∈ tree.dirs := by
  simp only [listRunIds, mem_sorted, List.mem_toFinset, List.mem_filterMap]
  constructor
  · rintro ⟨dir, made, child⟩
    unfold childName at child
    split at child
    · next only =>
      split_ifs at child with below
      obtain rfl := Option.some.inj child
      obtain ⟨rest, rfl⟩ := List.isPrefixOf_iff_prefix.mp below
      rw [List.drop_left] at only
      exact only ▸ made
    · cases child
  · intro made
    exact ⟨_, made, by simp [childName]⟩

/-- Writing runs makes the directories on the way to each run and to each of its files. -/
theorem mem_dirs_onFilesystem {runs : RunTrees} {dir : Key} :
    dir ∈ (onFilesystem runs).dirs ↔ ∃ s r tree, runs.get? (s, r) = some tree ∧
      (dir <+: [s, r] ∨ ∃ rel ∈ tree.files.keys, dir <+: ([s, r] ++ rel).dropLast) := by
  have written : ∀ (run : Key) (files : List (Key × Bytes)) (tree : FileTree),
      dir ∈ (files.foldl (fun tree file => tree.write (run ++ file.1) file.2) tree).dirs ↔
        dir ∈ tree.dirs ∨ ∃ file ∈ files, dir <+: (run ++ file.1).dropLast := by
    intro run files
    induction files with
    | nil => simp
    | cons file rest ih =>
      intro tree
      rw [List.foldl_cons, ih]
      simp only [FileTree.write, FileTree.mkdir, List.mem_append, List.mem_inits,
        List.exists_mem_cons_iff, or_assoc]
  have all : ∀ (entries : List ((String × String) × RunTree)) (tree : FileTree),
      dir ∈ (entries.foldl (fun tree entry => writeRun tree [entry.1.1, entry.1.2] entry.2.files)
        tree).dirs ↔ dir ∈ tree.dirs ∨ ∃ entry ∈ entries, dir <+: [entry.1.1, entry.1.2] ∨
          ∃ file ∈ entry.2.files.entries, dir <+: ([entry.1.1, entry.1.2] ++ file.1).dropLast := by
    intro entries
    induction entries with
    | nil => simp
    | cons entry rest ih =>
      intro tree
      rw [List.foldl_cons, ih, writeRun, written]
      simp only [FileTree.mkdir, List.mem_append, List.mem_inits, List.exists_mem_cons_iff,
        or_assoc]
  rw [onFilesystem, all]
  simp only [List.not_mem_nil, false_or, Dict.get?_eq_some_iff, Dict.keys, List.mem_map]
  constructor
  · rintro ⟨⟨⟨s, r⟩, tree⟩, member, below | ⟨file, inTree, below⟩⟩
    · exact ⟨s, r, tree, member, .inl below⟩
    · exact ⟨s, r, tree, member, .inr ⟨_, ⟨file, inTree, rfl⟩, below⟩⟩
  · rintro ⟨s, r, tree, member, below | ⟨_, ⟨file, inTree, rfl⟩, below⟩⟩
    · exact ⟨_, member, .inl below⟩
    · exact ⟨_, member, .inr ⟨file, inTree, below⟩⟩

/-- The filesystem's files are those a store would hold without markers. -/
theorem files_onFilesystem (runs : RunTrees) :
    (onFilesystem runs).files = putAll .empty (runs.entries.flatMap fun entry =>
      filePuts [entry.1.1, entry.1.2] entry.2.files) := by
  have written : ∀ (run : Key) (files : List (Key × Bytes)) (tree : FileTree),
      (files.foldl (fun tree file => tree.write (run ++ file.1) file.2) tree).files =
        putAll tree.files (files.map fun file => (run ++ file.1, file.2)) := by
    intro run files
    induction files with
    | nil => exact fun tree => rfl
    | cons file rest ih =>
      intro tree
      rw [List.foldl_cons, ih]
      rfl
  have all : ∀ (entries : List ((String × String) × RunTree)) (tree : FileTree),
      (entries.foldl (fun tree entry => writeRun tree [entry.1.1, entry.1.2] entry.2.files)
        tree).files = putAll tree.files (entries.flatMap fun entry =>
          filePuts [entry.1.1, entry.1.2] entry.2.files) := by
    intro entries
    induction entries with
    | nil => exact fun tree => rfl
    | cons entry rest ih =>
      intro tree
      rw [List.foldl_cons, ih, writeRun, written, List.flatMap_cons, putAll, putAll, putAll,
        List.foldl_append]
      rfl
  exact all runs.entries {}

section Lookups

variable {runs : RunTrees} {s r : String} {tree : RunTree}

private theorem runs_apart (runs : RunTrees) : runs.entries.Pairwise fun a b =>
    ∀ key : Key, [a.1.1, a.1.2] <+: key → ¬ [b.1.1, b.1.2] <+: key := by
  have distinct := List.pairwise_map.mp runs.nodupKeys
  refine distinct.imp fun {a b} differs key underA underB => differs ?_
  obtain ⟨restA, rfl⟩ := underA
  obtain ⟨restB, same⟩ := underB
  simp only [List.cons_append, List.nil_append, List.cons.injEq] at same
  exact Prod.ext same.1.symm same.2.1.symm

private theorem below_filePuts {run : Key} {files : Dict Key Bytes} {put : Key × Bytes}
    (member : put ∈ filePuts run files) : run <+: put.1 := by
  obtain ⟨rel, data, -, rfl⟩ := mem_filePuts.mp member
  exact List.prefix_append _ _

private theorem below_publishRun {run : Key} {files : Dict Key Bytes} {put : Key × Bytes}
    (member : put ∈ publishRun run files) : run <+: put.1 := by
  rcases List.mem_append.mp member with file | marker
  · exact below_filePuts file
  · rw [List.mem_singleton.mp marker]
    exact List.prefix_append _ _

/-- The filesystem holds each run's files. -/
theorem get?_onFilesystem (found : runs.get? (s, r) = some tree) (rel : Key) :
    (onFilesystem runs).files.get? ([s, r] ++ rel) = tree.files.get? rel := by
  have member := (Dict.get?_eq_some_iff _ _ _).mp found
  rw [files_onFilesystem, get?_putAll_flatMap
    (fun entry : (String × String) × RunTree => [entry.1.1, entry.1.2])
    _ (fun _ _ _ => below_filePuts) (runs_apart runs) member (List.prefix_append _ _)]
  exact get?_putAll_filePuts [s, r] tree.files rel

/-- The object store holds each run's files, and one marker for each run. -/
theorem get?_onObjectStore (found : runs.get? (s, r) = some tree) (rel : Key) :
    (onObjectStore runs).get? ([s, r] ++ rel) =
      if rel = [commitMarker] then some [] else tree.files.get? rel := by
  have member := (Dict.get?_eq_some_iff _ _ _).mp found
  rw [onObjectStore, get?_putAll_flatMap
    (fun entry : (String × String) × RunTree => [entry.1.1, entry.1.2])
    _ (fun _ _ _ => below_publishRun) (runs_apart runs) member (List.prefix_append _ _)]
  exact get?_putAll_publishRun [s, r] tree.files rel

/-- Every object belongs to a run. -/
theorem exists_of_mem_onObjectStore {key : Key} (stored : key ∈ (onObjectStore runs).keys) :
    ∃ s r tree, runs.get? (s, r) = some tree ∧ ∃ rel, key = [s, r] ++ rel := by
  rw [onObjectStore, mem_keys_putAll] at stored
  rcases stored with put | none
  · obtain ⟨⟨_, data⟩, member, rfl⟩ := List.mem_map.mp put
    obtain ⟨⟨⟨s, r⟩, tree⟩, listed, inside⟩ := List.mem_flatMap.mp member
    obtain ⟨rel, same⟩ := below_publishRun inside
    exact ⟨s, r, tree, (Dict.get?_eq_some_iff _ _ _).mpr listed, rel, same.symm⟩
  · cases none

end Lookups

/-! ## Agreement -/

theorem sorted_congr {a b : Finset String} (same : ∀ x, x ∈ sorted a ↔ x ∈ sorted b) :
    sorted a = sorted b :=
  congrArg sorted (Finset.ext fun x => by rw [← mem_sorted, same, mem_sorted])

/-- A path below a run is a directory exactly if it is on the way to one of the run's files. -/
theorem mem_dirs_below_run {runs : RunTrees} {s r : String} (below : Key) (proper : below ≠ []) :
    [s, r] ++ below ∈ (onFilesystem runs).dirs ↔ ∃ tree, runs.get? (s, r) = some tree ∧
      ∃ rel ∈ tree.files.keys, below <+: rel.dropLast := by
  rw [mem_dirs_onFilesystem]
  constructor
  · rintro ⟨s', r', tree, found, onTheWay | ⟨rel, inTree, onTheWay⟩⟩
    · have short := onTheWay.length_le
      have positive := List.length_pos_iff.mpr proper
      simp only [List.length_append, List.length_cons, List.length_nil] at short
      omega
    · rw [List.dropLast_append_of_ne_nil (tree.named rel inTree)] at onTheWay
      simp only [List.cons_append, List.nil_append, List.cons_prefix_cons] at onTheWay
      obtain ⟨rfl, rfl, inside⟩ := onTheWay
      exact ⟨tree, found, rel, inTree, inside⟩
  · rintro ⟨tree, found, rel, inTree, inside⟩
    refine ⟨s, r, tree, found, .inr ⟨rel, inTree, ?_⟩⟩
    rw [List.dropLast_append_of_ne_nil (tree.named rel inTree)]
    exact (List.prefix_append_right_inj _).mpr inside

/-- A run's directory is there exactly if the run was written. -/
theorem mem_dirs_run {runs : RunTrees} {s r : String} :
    [s, r] ∈ (onFilesystem runs).dirs ↔ (runs.get? (s, r)).isSome := by
  rw [mem_dirs_onFilesystem, Option.isSome_iff_exists]
  constructor
  · rintro ⟨s', r', tree, found, onTheWay⟩
    have below : [s, r] <+: [s', r'] ++ ([] : Key) ∨ ∃ rest : Key, [s, r] <+: [s', r'] ++ rest := by
      rcases onTheWay with direct | ⟨rel, inTree, inside⟩
      · exact .inl direct
      · rw [List.dropLast_append_of_ne_nil (tree.named rel inTree)] at inside
        exact .inr ⟨_, inside⟩
    have same : s = s' ∧ r = r' := by
      rcases below with direct | ⟨rest, inside⟩
      · simpa using direct
      · simpa using inside
    exact ⟨tree, same.1 ▸ same.2 ▸ found⟩
  · rintro ⟨tree, found⟩
    exact ⟨s, r, tree, found, .inl (List.prefix_refl _)⟩

theorem mem_keys_onObjectStore {runs : RunTrees} {s r : String} (rel : Key) :
    [s, r] ++ rel ∈ (onObjectStore runs).keys ↔ ∃ tree, runs.get? (s, r) = some tree ∧
      (rel = [commitMarker] ∨ rel ∈ tree.files.keys) := by
  constructor
  · intro stored
    obtain ⟨s', r', tree, found, rel', same⟩ := exists_of_mem_onObjectStore stored
    simp only [List.cons_append, List.nil_append, List.cons.injEq] at same
    obtain ⟨rfl, rfl, rfl⟩ := same
    refine ⟨tree, found, ?_⟩
    rw [Dict.mem_keys_iff, get?_onObjectStore found] at stored
    split_ifs at stored with marker
    · exact .inl marker
    · exact .inr ((Dict.mem_keys_iff _ _).mpr stored)
  · rintro ⟨tree, found, held⟩
    rw [Dict.mem_keys_iff, get?_onObjectStore found]
    split_ifs with marker
    · rfl
    · exact (Dict.mem_keys_iff _ _).mp (held.resolve_left marker)

/-- Both stores list the same runs: each has its directory and its marker. -/
theorem listRunIds_agree (runs : RunTrees) (s : String) :
    (onFilesystem runs).listRunIds [s] = listRunIds (onObjectStore runs) [s] := by
  refine sorted_congr fun run => ?_
  refine FileTree.mem_listRunIds.trans (Iff.trans ?_ mem_listRunIds.symm)
  refine (mem_dirs_run (s := s) (r := run)).trans ?_
  refine Iff.trans ?_ (mem_keys_onObjectStore (s := s) (r := run) [commitMarker]).symm
  simp [Option.isSome_iff_exists]

/-- Every revision directory of the run carries a marker of its own. -/
def RunTree.RevisionsMarked (tree : RunTree) : Prop :=
  ∀ revision rest, rest ≠ [] → ["revisions", revision] ++ rest ∈ tree.files.keys →
    ["revisions", revision, commitMarker] ∈ tree.files.keys

/-- The filesystem lists a revision exactly if it holds a file of it. -/
theorem mem_revisions_onFilesystem {runs : RunTrees} {s r : String} {tree : RunTree}
    (found : runs.get? (s, r) = some tree) (revision : String) :
    revision ∈ (onFilesystem runs).listRunIds [s, r, "revisions"] ↔
      ∃ rest, rest ≠ [] ∧ ["revisions", revision] ++ rest ∈ tree.files.keys := by
  refine FileTree.mem_listRunIds.trans ?_
  refine (mem_dirs_below_run (s := s) (r := r) ["revisions", revision]
    (List.cons_ne_nil _ _)).trans ?_
  constructor
  · rintro ⟨tree', found', rel, inTree, rest, same⟩
    obtain rfl := Option.some.inj (found.symm.trans found')
    refine ⟨rest ++ [rel.getLast (tree.named rel inTree)], by simp, ?_⟩
    rw [← List.append_assoc, same, List.dropLast_append_getLast]
    exact inTree
  · rintro ⟨rest, proper, inTree⟩
    refine ⟨tree, found, _, inTree, ?_⟩
    rw [List.dropLast_append_of_ne_nil proper]
    exact List.prefix_append _ _

/-- Both stores list the same revisions of a run exactly if every revision has a marker. -/
theorem revisions_agree_iff {runs : RunTrees} {s r : String} {tree : RunTree}
    (found : runs.get? (s, r) = some tree) :
    (onFilesystem runs).listRunIds [s, r, "revisions"] =
      listRunIds (onObjectStore runs) [s, r, "revisions"] ↔ tree.RevisionsMarked := by
  have onDisk := mem_revisions_onFilesystem found
  have inStore : ∀ revision, revision ∈ listRunIds (onObjectStore runs) [s, r, "revisions"] ↔
      ["revisions", revision, commitMarker] ∈ tree.files.keys := by
    intro revision
    refine mem_listRunIds.trans ?_
    refine (mem_keys_onObjectStore (s := s) (r := r)
      ["revisions", revision, commitMarker]).trans ?_
    constructor
    · rintro ⟨tree', found', held⟩
      obtain rfl := Option.some.inj (found.symm.trans found')
      exact held.resolve_left (by simp)
    · exact fun inTree => ⟨tree, found, .inr inTree⟩
  constructor
  · intro same revision rest proper inTree
    rw [← inStore, ← same, onDisk]
    exact ⟨rest, proper, inTree⟩
  · intro marked
    refine sorted_congr fun revision => (onDisk revision).trans (Iff.trans ?_ (inStore revision).symm)
    constructor
    · rintro ⟨rest, proper, inTree⟩
      exact marked revision rest proper inTree
    · exact fun inTree => ⟨[commitMarker], by simp, inTree⟩

/-- No file takes the marker's place, unless it is as empty as the marker. -/
def RunTree.MarkerFree (tree : RunTree) : Prop :=
  ∀ data, tree.files.get? [commitMarker] = some data → data = []

/-- Both stores read the same bytes for every file of the run exactly if publishing the marker
overwrites nothing. -/
theorem files_agree_iff {runs : RunTrees} {s r : String} {tree : RunTree}
    (found : runs.get? (s, r) = some tree) :
    (∀ rel ∈ tree.files.keys,
      (onFilesystem runs).store.readBytes ([s, r] ++ rel) =
        (onObjectStore runs).store.readBytes ([s, r] ++ rel)) ↔ tree.MarkerFree := by
  simp only [FileTree.store, Bucket.store, get?_onFilesystem found, get?_onObjectStore found]
  constructor
  · intro same data held
    have read := same [commitMarker] ((Dict.mem_keys_iff _ _).mpr (by rw [held]; rfl))
    rw [if_pos rfl, held] at read
    exact Option.some.inj read
  · intro free rel inTree
    split_ifs with marker
    · subst marker
      obtain ⟨data, held⟩ := Option.isSome_iff_exists.mp ((Dict.mem_keys_iff _ _).mp inTree)
      rw [held, free data held]
    · rfl

/-- A plan or summary of a published run reads the same on both stores. -/
theorem readJson_agree {runs : RunTrees} {s r : String} {tree : RunTree}
    (found : runs.get? (s, r) = some tree) (validJson : Bytes → Bool) (dir : Key) {name : String}
    (document : name ∈ ["plan.json", "revisions_summary.json"]) :
    (onFilesystem runs).store.readJson validJson ([s, r] ++ dir ++ [name]) =
      (onObjectStore runs).store.readJson validJson ([s, r] ++ dir ++ [name]) := by
  have unmarked : dir ++ [name] ≠ [commitMarker] := by
    intro marker
    have last : (dir ++ [name]).getLast? = [commitMarker].getLast? := by rw [marker]
    obtain rfl : name = commitMarker := by simpa using last
    exact absurd document (by decide)
  have noDirectory : [s, r] ++ (dir ++ [name]) ∉ (onFilesystem runs).dirs := by
    rw [mem_dirs_below_run _ (by simp)]
    rintro ⟨tree', found', rel, inTree, rest, same⟩
    have inside : name ∈ rel.dropLast := by rw [← same]; simp
    have leaves := tree'.leaves rel inTree
    rcases List.mem_pair.mp document with rfl | rfl
    · exact leaves.1 inside
    · exact leaves.2 inside
  have bytes : (onFilesystem runs).files.get? ([s, r] ++ (dir ++ [name])) =
      (onObjectStore runs).get? ([s, r] ++ (dir ++ [name])) := by
    rw [get?_onFilesystem found, get?_onObjectStore found, if_neg unmarked]
  rw [List.append_assoc]
  simp only [ArtifactStore.readJson, FileTree.store, Bucket.store, noDirectory, or_false,
    Dict.mem_keys_iff, bytes]

/-- Both stores list the same runs and revisions, hold the same files, and the routes answer
alike. -/
structure StoresAgree (runs : RunTrees) : Prop where
  runIds : ∀ s, (onFilesystem runs).store.listRunIds [s] =
    (onObjectStore runs).store.listRunIds [s]
  revisionIds : ∀ s r tree, runs.get? (s, r) = some tree →
    (onFilesystem runs).store.listRunIds [s, r, "revisions"] =
      (onObjectStore runs).store.listRunIds [s, r, "revisions"]
  files : ∀ s r tree, runs.get? (s, r) = some tree → ∀ rel ∈ tree.files.keys,
    (onFilesystem runs).store.readBytes ([s, r] ++ rel) =
      (onObjectStore runs).store.readBytes ([s, r] ++ rel)
  routes : ∀ validJson request, (onFilesystem runs).store.answer validJson request =
    (onObjectStore runs).store.answer validJson request

/-- The backends agree on published runs exactly if every revision has a marker of its own and no
run has a file of the marker's name. -/
theorem storesAgree_iff (runs : RunTrees) : StoresAgree runs ↔
    ∀ s r tree, runs.get? (s, r) = some tree → tree.RevisionsMarked ∧ tree.MarkerFree := by
  constructor
  · intro agree s r tree found
    exact ⟨(revisions_agree_iff found).mp (agree.revisionIds s r tree found),
      (files_agree_iff found).mp (agree.files s r tree found)⟩
  · intro marked
    have published : ∀ {s run}, run ∈ (onFilesystem runs).listRunIds [s] →
        ∃ tree, runs.get? (s, run) = some tree := fun {s run} listed =>
      Option.isSome_iff_exists.mp
        ((mem_dirs_run (s := s) (r := run)).mp (FileTree.mem_listRunIds.mp listed))
    refine ⟨listRunIds_agree runs, ?_, ?_, ?_⟩
    · exact fun s r tree found => (revisions_agree_iff found).mpr (marked s r tree found).1
    · exact fun s r tree found => (files_agree_iff found).mpr (marked s r tree found).2
    · intro validJson
      refine ArtifactStore.answer_congr (fun mode => listRunIds_agree runs _) ?_ ?_
      · intro run listed
        obtain ⟨tree, found⟩ := published listed
        exact (revisions_agree_iff found).mpr (marked _ _ _ found).1
      · intro mode run listed dir name document
        obtain ⟨tree, found⟩ := published listed
        exact readJson_agree found validJson dir document

/-- A rolling run with one revision, as the rolling planner writes it. -/
def rollingRun : RunTree where
  files := ⟨[(["revisions_summary.json"], [123, 125]),
    (["revisions", "000", "plan.json"], [123, 125])], by decide⟩
  named := by decide
  leaves := by decide

/-- The object store lists no revision of it, so it has no newest plan there. -/
theorem rolling_run_without_revisions :
    ¬ StoresAgree ⟨[(("plan-rolling", "run-a"), rollingRun)], by decide⟩ := by
  intro agree
  have marked := (revisions_agree_iff (by rfl)).mp
    (agree.revisionIds "plan-rolling" "run-a" rollingRun (by rfl))
  exact absurd (marked "000" ["plan.json"] (by decide) (by decide)) (by decide)

end FlOp.Serving
