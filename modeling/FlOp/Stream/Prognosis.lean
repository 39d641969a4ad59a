import FlOp.Rolling.Reconciliation
import Mathlib.Algebra.BigOperators.Group.List.Basic
import Mathlib.Algebra.Order.Field.Rat
import Mathlib.Logic.Relation
import Mathlib.Tactic.FieldSimp

/-! # Service-prognosis accuracy

Every revision of a stream records how many service tasks are active, withdrawn and escalated, and
the accumulated counts give the rates of false positives and false negatives. A prognosis that
stays active is counted anew in every revision, so the rates are shares of prognoses only where
nothing was withdrawn or escalated.
-/

namespace FlOp.Stream

open Canonical FlOp.Core Library Rolling

/-- Service tasks of one type of asset. -/
structure OutcomeCounts where
  active : ℕ := 0
  withdrawn : ℕ := 0
  escalated : ℕ := 0
deriving DecidableEq, Repr

/-- What one revision records; the split by asset type is left out where it is empty. -/
structure OutcomeRecord where
  generatedAt : Instant
  revisionId : String
  nServiceActive : ℕ
  nServiceWithdrawn : ℕ
  nServiceEscalated : ℕ
  byAssetType : Dict String OutcomeCounts := .empty
deriving DecidableEq

/-- Count a task under the type of its asset; tasks of unknown type are left out. -/
def countTask (assetTypes : Dict String String) (count : OutcomeCounts → OutcomeCounts)
    (byType : Dict String OutcomeCounts) (taskId : String) : Dict String OutcomeCounts :=
  let assetType := assetTypes.getD (serviceAssetId taskId) ""
  if assetType = "" then byType else byType.set assetType (count (byType.getD assetType {}))

/-- Counts of one revision by asset type. -/
def splitByAssetType (activeIds withdrawnIds escalatedIds : List String)
    (assetTypes : Dict String String) : Dict String OutcomeCounts :=
  let active := activeIds.foldl
    (countTask assetTypes fun counts => { counts with active := counts.active + 1 }) .empty
  let withdrawn := withdrawnIds.foldl
    (countTask assetTypes fun counts => { counts with withdrawn := counts.withdrawn + 1 }) active
  escalatedIds.foldl
    (countTask assetTypes fun counts => { counts with escalated := counts.escalated + 1 }) withdrawn

/-- The record a revision appends to the log. -/
def recordPrognosisOutcomes (plan : Plan) (assetTypes : Dict String String) : OutcomeRecord :=
  let activeIds := serviceTaskIds plan
  let withdrawnIds := actionTaskIds plan .serviceWithdrawn
  let escalatedIds := actionTaskIds plan .serviceEscalated
  { generatedAt := plan.generatedAt
    revisionId := plan.revisionId
    nServiceActive := activeIds.card
    nServiceWithdrawn := withdrawnIds.length
    nServiceEscalated := escalatedIds.length
    byAssetType := splitByAssetType (sorted activeIds) withdrawnIds escalatedIds assetTypes }

/-- False-positive and false-negative rates; readers take a missing rate for zero. -/
structure Rates where
  nObserved : ℚ := 0
  falsePositiveRate : ℚ := 0
  falseNegativeRate : ℚ := 0
deriving DecidableEq, Repr

/-- The rates of some counts, if anything was observed. -/
def rates (counts : OutcomeCounts) : Option Rates :=
  let observed := counts.active + counts.withdrawn
  if observed = 0 then none
  else some
    { nObserved := observed
      falsePositiveRate := counts.withdrawn / observed
      falseNegativeRate := counts.escalated / observed }

/-- Rates over a history, and for each type of asset; without any, the empty accuracy. -/
structure Accuracy extends Rates where
  byAssetType : Dict String Rates := .empty
deriving DecidableEq

/-- Add counts to those of a type. -/
def addCounts (byType : Dict String OutcomeCounts) (entry : String × OutcomeCounts) :
    Dict String OutcomeCounts :=
  let agg := byType.getD entry.1 {}
  byType.set entry.1
    { active := agg.active + entry.2.active
      withdrawn := agg.withdrawn + entry.2.withdrawn
      escalated := agg.escalated + entry.2.escalated }

/-- The counts of all records together. -/
def totalCounts (log : List OutcomeRecord) : OutcomeCounts where
  active := (log.map (·.nServiceActive)).sum
  withdrawn := (log.map (·.nServiceWithdrawn)).sum
  escalated := (log.map (·.nServiceEscalated)).sum

/-- Outcome rates over the recorded history. -/
def prognosisAccuracy (log : List OutcomeRecord) : Accuracy :=
  match rates (totalCounts log) with
  | none => {}
  | some total =>
    let byType := log.foldl (fun byType record => record.byAssetType.entries.foldl addCounts byType)
      .empty
    { total with
      byAssetType := Dict.collect Prod.fst Prod.snd <|
        byType.entries.filterMap fun entry => (rates entry.2).map fun found => (entry.1, found) }

theorem prognosisAccuracy_falsePositiveRate (log : List OutcomeRecord) :
    (prognosisAccuracy log).falsePositiveRate =
      (totalCounts log).withdrawn / ((totalCounts log).active + (totalCounts log).withdrawn) := by
  rw [prognosisAccuracy, rates]
  by_cases nothing : (totalCounts log).active + (totalCounts log).withdrawn = 0
  · have none : (totalCounts log).withdrawn = 0 := by omega
    rw [if_pos nothing, none, Nat.cast_zero, zero_div]
  · rw [if_neg nothing]
    push_cast
    rfl

theorem prognosisAccuracy_falseNegativeRate (log : List OutcomeRecord) :
    (prognosisAccuracy log).falseNegativeRate =
      (totalCounts log).escalated / ((totalCounts log).active + (totalCounts log).withdrawn) := by
  rw [prognosisAccuracy, rates]
  by_cases nothing : (totalCounts log).active + (totalCounts log).withdrawn = 0
  · have zero : ((totalCounts log).active : ℚ) + (totalCounts log).withdrawn = 0 := by
      exact_mod_cast nothing
    rw [if_pos nothing, zero, div_zero]
  · rw [if_neg nothing]
    push_cast
    rfl

end FlOp.Stream
