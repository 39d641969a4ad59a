import FlOp.Library.Numerals
import FlOp.Serving.ArtifactStores

/-! # Revisions of a run

A rolling or watch run writes its revisions under their counters, zero-padded to three digits. The
readers find the newest revision, or the one of a number, by the order of the names as texts.
-/

namespace FlOp.Serving

open Library

abbrev RunFiles := Dict Key Bytes

/-- The directory of a revision. -/
def revisionName (n : ℕ) : String := zeroPadded 3 n

def revisionPath (n : ℕ) : Key := ["revisions", revisionName n, "plan.json"]

def summaryPath : Key := ["revisions_summary.json"]

/-- `_write_revision`. -/
def writeRevision (files : RunFiles) (n : ℕ) (plan : Bytes) : RunFiles :=
  files.set (revisionPath n) plan

/-! ## The two planners -/

section Planners

-- the summary document of the revisions published so far
variable (summary : List Bytes → Bytes)

/-- `run_plan_rolling`: all revisions of the drained backlog, then their summary. -/
def runPlanRolling (revisions : List Bytes) : RunFiles :=
  (revisions.zipIdx.foldl (fun files rev => writeRevision files rev.2 rev.1) .empty).set
    summaryPath (summary revisions)

/-- What the watcher has published. -/
structure WatchState where
  files : RunFiles := .empty
  counter : ℕ := 0
  published : List Bytes := []

namespace WatchState

def publish (state : WatchState) (plan : Bytes) : WatchState where
  files := writeRevision state.files state.counter plan
  counter := state.counter + 1
  published := state.published ++ [plan]

def writeSummary (state : WatchState) : WatchState :=
  { state with files := state.files.set summaryPath (summary state.published) }

/-- One drain: the summary is only rewritten after new revisions. -/
def cycle (state : WatchState) (revisions : List Bytes) : WatchState :=
  let after := revisions.foldl publish state
  if after.counter > state.counter then after.writeSummary summary else after

end WatchState

/-- `run_plan_watch`: the baseline, then any number of drains. -/
def runPlanWatch (baseline : Bytes) (cycles : List (List Bytes)) : WatchState :=
  cycles.foldl (WatchState.cycle summary)
    ((({} : WatchState).publish baseline).writeSummary summary)

end Planners

/-- A run of one of the two planners, with the revisions in the order in which it wrote them. -/
inductive PlannerRun where
  | rolling (revisions : List Bytes)
  | watch (baseline : Bytes) (cycles : List (List Bytes))

namespace PlannerRun

def revisions : PlannerRun → List Bytes
  | rolling revisions => revisions
  | watch baseline cycles => baseline :: cycles.flatten

def files (summary : List Bytes → Bytes) : PlannerRun → RunFiles
  | rolling revisions => runPlanRolling summary revisions
  | watch baseline cycles => (runPlanWatch summary baseline cycles).files

end PlannerRun

/-! ## The readers -/

/-- `glob("*/plan.json")` below the revisions. -/
def isRevisionPlan : Key → Bool
  | ["revisions", _, "plan.json"] => true
  | _ => false

/-- Where `_load_published_plan` finds the plan of a run: its own, else the last revision's. -/
def publishedPath (files : RunFiles) : Option Key :=
  if ["plan.json"] ∈ files.keys then some ["plan.json"]
  else (sorted (files.keys.filter isRevisionPlan).toFinset).getLast?

/-- `_load_published_plan`. -/
def loadPublishedPlan (files : RunFiles) : Option Bytes :=
  (publishedPath files).bind files.get?

/-- The answer of a route that found a plan. -/
def planAnswer (validJson : Bytes → Bool) (plan : Bytes) : Except HttpException Bytes :=
  if validJson plan then .ok plan else .error ⟨500, "invalid artifact JSON plan.json"⟩

/-! ## What a run holds -/

/-- The files are the given revisions under their counters, and at most a summary. -/
structure HoldsRevisions (files : RunFiles) (revisions : List Bytes) : Prop where
  named : ∀ rel ∈ files.keys, rel = summaryPath ∨ ∃ n < revisions.length, rel = revisionPath n
  found : ∀ n plan, revisions[n]? = some plan → files.get? (revisionPath n) = some plan

theorem revisionPath_injective : Function.Injective revisionPath := by
  intro a b same
  simp only [revisionPath, List.cons.injEq, true_and, and_true] at same
  exact zeroPadded_injective 3 same

@[simp] theorem summaryPath_ne_revisionPath (n : ℕ) : summaryPath ≠ revisionPath n := by
  simp [summaryPath, revisionPath]

namespace HoldsRevisions

variable {files : RunFiles} {revisions : List Bytes}

theorem empty : HoldsRevisions .empty [] := ⟨by simp [Dict.empty, Dict.keys], by simp⟩

/-- The next revision goes under the next counter. -/
theorem writeRevision (holds : HoldsRevisions files revisions) (plan : Bytes) :
    HoldsRevisions (writeRevision files revisions.length plan) (revisions ++ [plan]) := by
  constructor
  · intro rel member
    rw [Serving.writeRevision, Dict.mem_keys_set] at member
    rw [List.length_append, List.length_singleton]
    rcases member with written | old
    · exact .inr ⟨revisions.length, by omega, written⟩
    · rcases holds.named rel old with isSummary | ⟨n, inside, rfl⟩
      · exact .inl isSummary
      · exact .inr ⟨n, by omega, rfl⟩
  · intro n data located
    rw [Serving.writeRevision, Dict.get?_set]
    split_ifs with same
    · obtain rfl := revisionPath_injective same
      simpa using located
    · have inside := (List.getElem?_eq_some_iff.mp located).1
      rw [List.length_append, List.length_singleton] at inside
      have before : n < revisions.length := by
        have differs : n ≠ revisions.length := fun equal => same (by rw [equal])
        omega
      rw [List.getElem?_append_left before] at located
      exact holds.found n data located

theorem writeSummary (holds : HoldsRevisions files revisions) (rows : Bytes) :
    HoldsRevisions (files.set summaryPath rows) revisions := by
  constructor
  · intro rel member
    rcases (Dict.mem_keys_set _ _ _ _).mp member with written | old
    · exact .inl written
    · exact holds.named rel old
  · intro n plan located
    rw [Dict.get?_set, if_neg fun same => summaryPath_ne_revisionPath n same.symm]
    exact holds.found n plan located

/-- A backlog is written after what is there. -/
private theorem writeBacklog (holds : HoldsRevisions files revisions) (backlog : List Bytes) :
    HoldsRevisions ((backlog.zipIdx revisions.length).foldl
        (fun files rev => Serving.writeRevision files rev.2 rev.1) files)
      (revisions ++ backlog) := by
  induction backlog generalizing files revisions with
  | nil => simpa using holds
  | cons plan rest ih =>
    rw [List.zipIdx_cons, List.foldl_cons, List.append_cons]
    have next := ih (holds.writeRevision plan)
    rwa [List.length_append, List.length_singleton] at next

theorem runPlanRolling (summary : List Bytes → Bytes) (revisions : List Bytes) :
    HoldsRevisions (Serving.runPlanRolling summary revisions) revisions :=
  (empty.writeBacklog revisions).writeSummary _

end HoldsRevisions

/-- The watcher's counter is the number of revisions it has written. -/
structure WatchState.Sound (state : WatchState) : Prop where
  counted : state.counter = state.published.length
  holds : HoldsRevisions state.files state.published

namespace WatchState.Sound

variable {state : WatchState} (summary : List Bytes → Bytes)

theorem publish (sound : state.Sound) (plan : Bytes) : (state.publish plan).Sound where
  counted := by simp [WatchState.publish, sound.counted]
  holds := by
    have next := sound.holds.writeRevision plan
    rwa [← sound.counted] at next

theorem writeSummary (sound : state.Sound) : (state.writeSummary summary).Sound where
  counted := sound.counted
  holds := sound.holds.writeSummary _

/-- One drain publishes its revisions after the earlier ones. -/
theorem cycle (sound : state.Sound) (revisions : List Bytes) :
    (state.cycle summary revisions).Sound ∧
      (state.cycle summary revisions).published = state.published ++ revisions := by
  have drained : (revisions.foldl WatchState.publish state).Sound ∧
      (revisions.foldl WatchState.publish state).published = state.published ++ revisions := by
    induction revisions generalizing state with
    | nil => exact ⟨sound, (List.append_nil _).symm⟩
    | cons plan rest ih =>
      obtain ⟨next, published⟩ := ih (sound.publish plan)
      exact ⟨next, published.trans (List.append_cons _ _ _).symm⟩
  unfold WatchState.cycle
  dsimp only
  split_ifs
  · exact ⟨drained.1.writeSummary summary, drained.2⟩
  · exact drained

theorem runPlanWatch (baseline : Bytes) (cycles : List (List Bytes)) :
    (runPlanWatch summary baseline cycles).Sound ∧
      (runPlanWatch summary baseline cycles).published = baseline :: cycles.flatten := by
  have drained (state : WatchState) (sound : state.Sound) :
      (cycles.foldl (WatchState.cycle summary) state).Sound ∧
        (cycles.foldl (WatchState.cycle summary) state).published =
          state.published ++ cycles.flatten := by
    induction cycles generalizing state with
    | nil => exact ⟨sound, (List.append_nil _).symm⟩
    | cons revisions rest ih =>
      obtain ⟨next, published⟩ := sound.cycle summary revisions
      obtain ⟨last, all⟩ := ih _ next
      refine ⟨last, all.trans ?_⟩
      rw [published, List.append_assoc, List.flatten_cons]
  have start : ({} : WatchState).Sound := ⟨rfl, .empty⟩
  exact drained _ ((start.publish baseline).writeSummary summary)

end WatchState.Sound

namespace PlannerRun

variable (summary : List Bytes → Bytes) (run : PlannerRun)

/-- Both planners leave the revisions they wrote under their counters. -/
theorem holdsRevisions : HoldsRevisions (run.files summary) run.revisions := by
  cases run with
  | rolling revisions => exact .runPlanRolling summary revisions
  | watch baseline cycles =>
    obtain ⟨sound, published⟩ := WatchState.Sound.runPlanWatch summary baseline cycles
    rw [revisions, ← published]
    exact sound.holds

/-- The tree a run leaves below its directory. -/
def tree : RunTree where
  files := run.files summary
  named rel member := by
    rcases (run.holdsRevisions summary).named rel member with rfl | ⟨n, -, rfl⟩
    · exact List.cons_ne_nil _ _
    · exact List.cons_ne_nil _ _
  leaves rel member := by
    have digits (n : ℕ) (letter : Char) (inName : letter ∈ (revisionName n).toList) :
        letter.isDigit := isDigit_of_mem_paddedDigits (toList_zeroPadded ▸ inName)
    rcases (run.holdsRevisions summary).named rel member with rfl | ⟨n, -, rfl⟩
    · decide
    · have noPlan : revisionName n ≠ "plan.json" := fun same =>
        absurd (digits n 'p' (by rw [same]; decide)) (by decide)
      have noSummary : revisionName n ≠ "revisions_summary.json" := fun same =>
        absurd (digits n 'r' (by rw [same]; decide)) (by decide)
      simp [revisionPath, noPlan.symm, noSummary.symm]

end PlannerRun

/-! ## What the readers select -/

section Selection

variable (summary : List Bytes → Bytes) (run : PlannerRun)

/-- The newest revision is the one with the highest counter, for the plan loader and for the
routes, and the revision of a number is the one written under it. -/
structure RevisionsByCounter : Prop where
  loads : ∀ n, n + 1 = run.revisions.length →
    publishedPath (run.files summary) = some (revisionPath n) ∧
      loadPublishedPlan (run.files summary) = run.revisions[n]?
  newest : ∀ (runs : RunTrees) runId, runs.get? ("plan-rolling", runId) = some (run.tree summary) →
    ∀ n, n + 1 = run.revisions.length →
      ((onFilesystem runs).store.rollingRevisionIds runId).getLast? = some (revisionName n) ∧
        ∀ validJson request, (onFilesystem runs).store.resolveRunRel .rolling request = .ok runId →
          ∀ plan, run.revisions[n]? = some plan →
            (onFilesystem runs).store.getPlan validJson .rolling request =
              planAnswer validJson plan
  numbered : ∀ (runs : RunTrees) runId,
    runs.get? ("plan-rolling", runId) = some (run.tree summary) →
      ∀ n < run.revisions.length,
        ((onFilesystem runs).store.rollingRevisionIds runId)[n]? = some (revisionName n) ∧
          ∀ validJson request,
            (onFilesystem runs).store.resolveRunRel .rolling request = .ok runId →
              ∀ plan, run.revisions[n]? = some plan →
                (onFilesystem runs).store.getRevision validJson request n =
                  planAnswer validJson plan

variable {summary run}

/-- The counters of a run, as the directory names in their order. -/
private theorem pairwise_names {k : ℕ} (fits : k ≤ 1000) :
    ((List.range k).map revisionName).Pairwise (· < ·) := by
  rw [List.pairwise_map]
  refine List.pairwise_lt_range.imp_of_mem fun {a b} _ inside less => ?_
  have small := List.mem_range.mp inside
  exact zeroPadded_lt_zeroPadded less (by omega)

/-- The names a store lists are those of the counters. -/
private theorem mem_rollingRevisionIds {runs : RunTrees} {runId : String}
    (found : runs.get? ("plan-rolling", runId) = some (run.tree summary)) (name : String) :
    name ∈ (onFilesystem runs).store.rollingRevisionIds runId ↔
      ∃ n < run.revisions.length, name = revisionName n := by
  have holds := run.holdsRevisions summary
  refine (mem_revisions_onFilesystem found name).trans ?_
  constructor
  · rintro ⟨rest, proper, inTree⟩
    rcases holds.named _ inTree with isSummary | ⟨n, inside, same⟩
    · simp [summaryPath] at isSummary
    · simp only [revisionPath, List.cons_append, List.cons.injEq, true_and] at same
      exact ⟨n, inside, same.1⟩
  · rintro ⟨n, inside, rfl⟩
    refine ⟨["plan.json"], List.cons_ne_nil _ _, (Dict.mem_keys_iff _ _).mpr ?_⟩
    exact Option.isSome_iff_exists.mpr ⟨_, holds.found n _ (List.getElem?_eq_getElem inside)⟩

/-- As long as three digits hold every counter, the listed names are the counters in order. -/
private theorem rollingRevisionIds_eq {runs : RunTrees} {runId : String}
    (found : runs.get? ("plan-rolling", runId) = some (run.tree summary))
    (fits : run.revisions.length ≤ 1000) :
    (onFilesystem runs).store.rollingRevisionIds runId =
      (List.range run.revisions.length).map revisionName := by
  change (onFilesystem runs).listRunIds _ = _
  rw [FileTree.listRunIds]
  refine sorted_eq (pairwise_names fits) fun name => ?_
  rw [← mem_sorted]
  refine (mem_rollingRevisionIds found name).trans ?_
  simp only [List.mem_map, List.mem_range, eq_comm]

private theorem publishedPath_eq (fits : run.revisions.length ≤ 1000) :
    publishedPath (run.files summary) =
      ((List.range run.revisions.length).map revisionPath).getLast? := by
  have holds := run.holdsRevisions summary
  have noPlan : ["plan.json"] ∉ (run.files summary).keys := by
    intro member
    rcases holds.named _ member with isSummary | ⟨n, -, same⟩
    · exact absurd isSummary (by decide)
    · simp [revisionPath] at same
  rw [publishedPath, if_neg noPlan]
  congr 1
  refine sorted_eq ?_ fun rel => ?_
  · rw [List.pairwise_map]
    refine (List.pairwise_map.mp (pairwise_names fits)).imp fun {a b} less => ?_
    exact List.Lex.cons (List.Lex.rel less)
  · simp only [List.mem_toFinset, List.mem_filter, List.mem_map, List.mem_range]
    constructor
    · rintro ⟨member, isPlan⟩
      rcases holds.named rel member with rfl | ⟨n, inside, rfl⟩
      · exact absurd isPlan (by decide)
      · exact ⟨n, inside, rfl⟩
    · rintro ⟨n, inside, rfl⟩
      refine ⟨(Dict.mem_keys_iff _ _).mpr (Option.isSome_iff_exists.mpr
        ⟨_, holds.found n _ (List.getElem?_eq_getElem inside)⟩), rfl⟩

/-- A plan of the run is read back from its path. -/
private theorem readJson_revision {runs : RunTrees} {runId : String}
    (found : runs.get? ("plan-rolling", runId) = some (run.tree summary)) {n : ℕ} {plan : Bytes}
    (located : run.revisions[n]? = some plan) (validJson : Bytes → Bool) :
    (onFilesystem runs).store.readJson validJson
        ["plan-rolling", runId, "revisions", revisionName n, "plan.json"] =
      planAnswer validJson plan := by
  have stored : (onFilesystem runs).files.get? (["plan-rolling", runId] ++ revisionPath n) =
      some plan :=
    (get?_onFilesystem found _).trans ((run.holdsRevisions summary).found n plan located)
  have listed : ["plan-rolling", runId] ++ revisionPath n ∈ (onFilesystem runs).files.keys :=
    (Dict.mem_keys_iff _ _).mpr (Option.isSome_iff_exists.mpr ⟨plan, stored⟩)
  simp only [revisionPath, List.cons_append, List.nil_append] at stored listed
  simp [ArtifactStore.readJson, FileTree.store, stored, listed, planAnswer]

private theorem pairwise_rollingRevisionIds (runs : RunTrees) (runId : String) :
    ((onFilesystem runs).store.rollingRevisionIds runId).Pairwise (· < ·) := by
  change ((onFilesystem runs).listRunIds _).Pairwise _
  rw [FileTree.listRunIds]
  exact pairwise_sorted _

/-- A fourth digit sorts before the third: revision 1000 is listed before revision 101. -/
private theorem not_revisionsByCounter (long : 1000 < run.revisions.length) :
    ¬ RevisionsByCounter summary run := by
  intro select
  have found : (⟨[(("plan-rolling", "run"), run.tree summary)], by simp⟩ : RunTrees).get?
      ("plan-rolling", "run") = some (run.tree summary) := by
    rw [Dict.get?_eq_some_iff]
    exact List.mem_singleton_self _
  obtain ⟨earlyInside, earlyName⟩ := List.getElem?_eq_some_iff.mp
    (select.numbered _ _ found 101 (by omega)).1
  obtain ⟨lateInside, lateName⟩ := List.getElem?_eq_some_iff.mp
    (select.numbered _ _ found 1000 long).1
  have order := List.pairwise_iff_getElem.mp (pairwise_rollingRevisionIds _ "run") 101 1000
    earlyInside lateInside (by decide)
  rw [earlyName, lateName] at order
  exact absurd order (by decide +kernel)

end Selection

/-- The readers select revisions by their counter if and only if a run has at most a thousand
revisions. -/
theorem revisionsByCounter_iff (summary : List Bytes → Bytes) (run : PlannerRun) :
    RevisionsByCounter summary run ↔ run.revisions.length ≤ 1000 := by
  constructor
  · intro select
    by_contra long
    exact not_revisionsByCounter (by omega) select
  · intro fits
    have newest {n : ℕ} (last : n + 1 = run.revisions.length) {α : Type} (name : ℕ → α) :
        ((List.range run.revisions.length).map name).getLast? = some (name n) := by
      rw [← last, List.range_succ, List.map_append, List.map_singleton, List.getLast?_concat]
    refine ⟨fun n last => ?_, fun runs runId found n last => ?_,
      fun runs runId found n inside => ?_⟩
    · have path : publishedPath (run.files summary) = some (revisionPath n) :=
        (publishedPath_eq fits).trans (newest last revisionPath)
      refine ⟨path, ?_⟩
      have inside : n < run.revisions.length := by omega
      rw [loadPublishedPlan, path, List.getElem?_eq_getElem inside]
      exact (run.holdsRevisions summary).found n _ (List.getElem?_eq_getElem inside)
    · have name : ((onFilesystem runs).store.rollingRevisionIds runId).getLast? =
          some (revisionName n) := by
        rw [rollingRevisionIds_eq found fits]
        exact newest last revisionName
      refine ⟨name, fun validJson request resolved plan located => ?_⟩
      simp only [ArtifactStore.getPlan, resolved, Except.bind, name]
      exact readJson_revision found located validJson
    · have name : ((onFilesystem runs).store.rollingRevisionIds runId)[n]? =
          some (revisionName n) := by
        rw [rollingRevisionIds_eq found fits, List.getElem?_map, List.getElem?_range inside]
        rfl
      refine ⟨name, fun validJson request resolved plan located => ?_⟩
      have natural : ¬ (n : ℤ) < 0 := by omega
      simp only [ArtifactStore.getRevision, resolved, Except.bind, natural, if_false,
        Int.toNat_natCast, name]
      exact readJson_revision found located validJson

/-- The revisions of a run of 1001 are not selected by their counter. -/
theorem not_revisionsByCounter_thousand_and_one :
    ¬ RevisionsByCounter (fun _ => []) (.rolling (List.replicate 1001 [])) :=
  not_revisionsByCounter (by rw [PlannerRun.revisions, List.length_replicate]; decide)

end FlOp.Serving
