import FlOp.Contracts.Fingerprint
import FlOp.Core.Text
import FlOp.Library.Dict
import FlOp.Library.Ordering

/-! # The schema-evolution policy

A contract snapshot records a version, the physical fields and, for mapped contracts, the
semantic metadata with a version of its own. A change is classified by the strictest difference
found, and the class decides how far the version has to move.
-/

namespace FlOp.Contracts

open Library
open FlOp.Core

inductive ChangeClass where
  | identical
  | backward
  | breaking
deriving DecidableEq, Repr

namespace ChangeClass

def text : ChangeClass → String
  | identical => "identical"
  | backward => "backward"
  | breaking => "breaking"

/-- Classes in the order of the version bump they demand. -/
def rank : ChangeClass → ℕ
  | identical => 0
  | backward => 1
  | breaking => 2

/-- `_max_change`. -/
def maxChange (left right : ChangeClass) : ChangeClass :=
  if right.rank ≤ left.rank then left else right

theorem rank_maxChange_le {left right : ChangeClass} {n : ℕ} :
    (maxChange left right).rank ≤ n ↔ left.rank ≤ n ∧ right.rank ≤ n := by
  unfold maxChange
  split <;> omega

end ChangeClass

/-- A class and what it was given for. -/
structure ChangeReport where
  changeClass : ChangeClass
  details : List String := []
deriving DecidableEq, Repr

namespace ChangeReport

def unchanged : ChangeReport := ⟨.identical, []⟩

/-- The findings so far with those of one more place. -/
def merge (found next : ChangeReport) : ChangeReport :=
  ⟨found.changeClass.maxChange next.changeClass, found.details ++ next.details⟩

/-- The findings of several places, in order. -/
def combine (reports : List ChangeReport) : ChangeReport := reports.foldl merge unchanged

/-- The report is at most as strict as the class of the given rank. -/
def AtMost (n : ℕ) (report : ChangeReport) : Prop := report.changeClass.rank ≤ n

theorem atMost_unchanged (n : ℕ) : AtMost n unchanged := Nat.zero_le n

theorem atMost_combine {n : ℕ} {reports : List ChangeReport} :
    AtMost n (combine reports) ↔ ∀ report ∈ reports, AtMost n report := by
  suffices folded : ∀ found : ChangeReport, AtMost n (reports.foldl merge found) ↔
      AtMost n found ∧ ∀ report ∈ reports, AtMost n report by
    rw [combine, folded]
    exact and_iff_right (atMost_unchanged n)
  induction reports with
  | nil => simp
  | cons next rest ih =>
    intro found
    rw [List.foldl_cons, ih, List.forall_mem_cons, ← and_assoc]
    exact and_congr_left fun _ => ChangeClass.rank_maxChange_le

theorem atMost_one_iff {report : ChangeReport} :
    report.AtMost 1 ↔ report.changeClass ≠ .breaking := by
  unfold AtMost
  cases report.changeClass <;> simp [ChangeClass.rank]

theorem atMost_zero_iff {report : ChangeReport} :
    report.AtMost 0 ↔ report.changeClass = .identical := by
  unfold AtMost
  cases report.changeClass <;> simp [ChangeClass.rank]

end ChangeReport

/-! ## Physical fields -/

/-- The version-relevant part of one field. -/
structure FieldSpec where
  logicalType : String := ""
  physicalType : String := ""
  required : Bool := false
deriving DecidableEq, Repr

def boolText (value : Bool) : String := if value then "True" else "False"

/-- What changed about a field of the baseline. -/
def baselineFieldReport (currentFields : Dict String FieldSpec) (name : String)
    (spec : FieldSpec) : ChangeReport :=
  match currentFields.get? name with
  | none => ⟨.breaking, ["removed field '" ++ name ++ "'"]⟩
  | some current =>
    let typeChange (typeKey old new : String) : ChangeReport :=
      if new ≠ old then
        ⟨.breaking, ["field '" ++ name ++ "' " ++ typeKey ++ " changed '" ++ old ++ "' -> '" ++
          new ++ "'"]⟩
      else .unchanged
    .combine [
      typeChange "logicalType" spec.logicalType current.logicalType,
      typeChange "physicalType" spec.physicalType current.physicalType,
      if current.required ≠ spec.required then
        ⟨.breaking, ["field '" ++ name ++ "' required changed " ++ boolText spec.required ++
          " -> " ++ boolText current.required]⟩
      else .unchanged]

/-- What a field that is not in the baseline adds. -/
def addedFieldReport (baselineFields : Dict String FieldSpec) (name : String)
    (current : FieldSpec) : ChangeReport :=
  if name ∈ baselineFields.keys then .unchanged
  else if current.required then ⟨.breaking, ["added required field '" ++ name ++ "'"]⟩
  else ⟨.backward, ["added optional field '" ++ name ++ "'"]⟩

/-- `classify_change`: requiredness changes are breaking in both directions. -/
def classifyChange (baselineFields currentFields : Dict String FieldSpec) : ChangeReport :=
  .combine
    (baselineFields.entries.map (fun entry => baselineFieldReport currentFields entry.1 entry.2) ++
      currentFields.entries.map fun entry => addedFieldReport baselineFields entry.1 entry.2)

/-! ## Semantic metadata -/

namespace MetaValue

/-- The members of a list value; a single value counts as a list of one. -/
def asList : MetaValue → List MetaValue
  | texts items => items.map text
  | null => []
  | value => [value]

/-- The metric codes of an object value; anything else has none. -/
def codesOf : MetaValue → JsonObject String
  | codes entries => entries
  | _ => ∅

def truthy : MetaValue → Bool
  | null => false
  | text value => value ≠ ""
  | texts items => !items.isEmpty
  | codes entries => entries ≠ ∅
  | other _ truthy => truthy

/-- How a value is formatted into a message. -/
def format : MetaValue → String
  | null => "None"
  | text value => value
  | texts items => reprTexts items
  | codes entries =>
    "\x7b" ++ ", ".intercalate ((sorted entries.keys).map fun key =>
      reprText key ++ ": " ++ reprText ((entries.lookup key).getD "")) ++ "\x7d"
  | other json _ => json

end MetaValue

/-- `object.get(field)`. -/
def JsonObject.get (fields : JsonObject MetaValue) (field : String) : MetaValue :=
  (fields.lookup field).getD .null

/-- `_diff_additive_list`: a list may gain values, not lose any. -/
def diffAdditiveList (field : String) (oldValue newValue : MetaValue) : ChangeReport :=
  let old := oldValue.asList.toFinset
  let new := newValue.asList.toFinset
  if old = new then .unchanged
  else if (old \ new).Nonempty then
    ⟨.breaking,
      [field ++ " removed values " ++ reprTexts (sorted ((old \ new).image MetaValue.format))]⟩
  else
    ⟨.backward,
      [field ++ " added values " ++ reprTexts (sorted ((new \ old).image MetaValue.format))]⟩

/-- What became of one metric code, if it is gone or points elsewhere. -/
def lostCode (old new : JsonObject String) (key : String) : Option String :=
  match old.lookup key, new.lookup key with
  | some _, none => some ("metricCodes removed '" ++ key ++ "'")
  | some target, some retargeted =>
    if retargeted ≠ target then
      some ("metricCodes retargeted '" ++ key ++ "' '" ++ target ++ "' -> '" ++ retargeted ++ "'")
    else none
  | none, _ => none

/-- `_diff_metric_codes`: codes may be added; the first lost one ends the search. -/
def diffMetricCodes (oldCodes newCodes : MetaValue) : ChangeReport :=
  let old := oldCodes.codesOf
  let new := newCodes.codesOf
  match (sorted old.keys).findSome? (lostCode old new) with
  | some detail => ⟨.breaking, [detail]⟩
  | none =>
    if (new.keys \ old.keys).Nonempty then
      ⟨.backward, ["metricCodes added " ++ reprTexts (sorted (new.keys \ old.keys))]⟩
    else .unchanged

/-- A value that must stay as it is. -/
def fixedValue (key field verb : String) (old new : MetaValue) : ChangeReport :=
  if old ≠ new then
    ⟨.breaking,
      [key ++ "." ++ field ++ " " ++ verb ++ " '" ++ old.format ++ "' -> '" ++ new.format ++ "'"]⟩
  else .unchanged

/-- One field of the record metadata. -/
def contractFieldReport (key field : String) (old new : MetaValue) : ChangeReport :=
  if field = "permittedPlanningUses" then diffAdditiveList (key ++ "." ++ field) old new
  else if field = "metricCodes" then diffMetricCodes old new
  else fixedValue key field "changed" old new

/-- One field of a field mapping: units and quantity kinds may change, but not go. -/
def mappingFieldReport (key field : String) (old new : MetaValue) : ChangeReport :=
  if field = "canonicalUnit" ∨ field = "quantityKind" then
    if old ≠ new then
      ⟨if old.truthy && !new.truthy then .breaking else .backward,
        [key ++ "." ++ field ++ " changed '" ++ old.format ++ "' -> '" ++ new.format ++ "'"]⟩
    else .unchanged
  else if field = "planningUse" then diffAdditiveList (key ++ "." ++ field) old new
  else if field = "binding" ∨ field = "semanticTerm" then
    fixedValue key field "retargeted" old new
  else fixedValue key field "changed" old new

/-- A field of a block, by the kind of block. -/
def fieldReport (key field : String) (old new : MetaValue) : ChangeReport :=
  if key = "contract" then contractFieldReport key field old new
  else mappingFieldReport key field old new

/-- A semantic block as a snapshot stores it. -/
inductive Block where
  | object (fields : JsonObject MetaValue)
  | value (value : MetaValue)
deriving DecidableEq

/-- A block that both snapshots have. -/
def sharedBlockReport (key : String) (old new : Block) : ChangeReport :=
  if old = new then .unchanged
  else
    match old, new with
    | .object old, .object new =>
      .combine ((sorted (old.keys ∪ new.keys)).map fun field =>
        fieldReport key field (JsonObject.get old field) (JsonObject.get new field))
    | _, _ => ⟨.breaking, [key ++ " changed"]⟩

/-- Semantic metadata of a snapshot; a snapshot without any has no blocks. -/
structure SemanticMetadata where
  mappingVersion : String := ""
  blocks : JsonObject Block := ∅
deriving DecidableEq

/-- `classify_semantic_metadata_change`. -/
def classifySemanticMetadataChange (baseline current : SemanticMetadata) : ChangeReport :=
  let baselineKeys := baseline.blocks.keys
  let currentKeys := current.blocks.keys
  if baseline.blocks = current.blocks then .unchanged
  else
    .combine
      ((sorted (baselineKeys \ currentKeys)).map (fun key =>
          (⟨.breaking, ["removed semantic block '" ++ key ++ "'"]⟩ : ChangeReport)) ++
        (sorted (currentKeys \ baselineKeys)).map (fun key =>
          (⟨.backward, ["added semantic block '" ++ key ++ "'"]⟩ : ChangeReport)) ++
        (sorted (baselineKeys ∩ currentKeys)).map fun key =>
          match baseline.blocks.lookup key, current.blocks.lookup key with
          | some old, some new => sharedBlockReport key old new
          | _, _ => .unchanged)

/-! ## Versions -/

structure Version where
  major : ℕ
  minor : ℕ
  patch : ℕ
deriving DecidableEq, Repr

namespace Version

/-- Versions compare from the major number down. -/
def before (old new : Version) : Prop :=
  old.major < new.major ∨ old.major = new.major ∧
    (old.minor < new.minor ∨ old.minor = new.minor ∧ old.patch < new.patch)

instance (old new : Version) : Decidable (before old new) :=
  inferInstanceAs (Decidable (_ ∨ _ ∧ (_ ∨ _ ∧ _)))

end Version

/-- The value of an ASCII digit. Which other characters are digits is a matter of Unicode. -/
def asciiDigit (c : Char) : Option ℕ :=
  if '0' ≤ c ∧ c ≤ '9' then some (c.toNat - '0'.toNat) else none

section Digits

variable (digitValue : Char → Option ℕ)

/-- The digits of a part read as a number; other characters are skipped. -/
def partNumber (part : List Char) : ℕ :=
  (part.filterMap digitValue).foldl (fun number digit => 10 * number + digit) 0

/-- `_parse_version`: the first three dot-separated parts, missing ones being 0. -/
def parseVersion (text : String) : Version :=
  let nums := ((text.toList.splitOn '.').take 3).map (partNumber digitValue)
  ⟨nums.getD 0 0, nums.getD 1 0, nums.getD 2 0⟩

/-- `version_policy_errors`. -/
def versionPolicyErrors (contractId baselineVersion currentVersion : String)
    (change : ChangeReport) (subject : String) : List String :=
  let old := parseVersion digitValue baselineVersion
  let new := parseVersion digitValue currentVersion
  let step := "(" ++ baselineVersion ++ " -> " ++ currentVersion ++ ")"
  if change.changeClass = .identical then
    if new.before old then [contractId ++ ": version went backwards " ++ step] else []
  else if ¬ old.before new then
    [contractId ++ ": " ++ subject ++ " changed (" ++ change.changeClass.text ++ ") but the " ++
      subject ++ " version was not bumped " ++ step ++ "; changes: " ++ reprTexts change.details]
  else if change.changeClass = .breaking ∧ new.major ≤ old.major then
    [contractId ++ ": breaking " ++ subject ++ " change requires a major version bump " ++ step ++
      "; changes: " ++ reprTexts change.details]
  else if change.changeClass = .backward ∧ new.major = old.major ∧ new.minor ≤ old.minor then
    [contractId ++ ": backward-compatible " ++ subject ++
      " change requires at least a minor version bump " ++ step ++ "; changes: " ++
      reprTexts change.details]
  else []

end Digits

end FlOp.Contracts
