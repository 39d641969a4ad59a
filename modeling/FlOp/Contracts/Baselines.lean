import FlOp.Contracts.UpgradePath
import FlOp.Library.RecordLog

/-! # Committed baselines

Every contract has a baseline document with the history of its reviewed snapshots. A freeze appends
the current snapshot to the history unless it reads like the last one, and prunes the baselines of
contracts that are gone. A check compares the current contract with the last reviewed snapshot and
goes over the whole history again, so a step that was frozen against the policy stays reported.
-/

namespace FlOp.Contracts

open Library

/-- A snapshot as a baseline document stores it. The artifact identity is only compared. -/
structure ReviewedSnapshot (Artifact : Type) extends ContractSnapshot where
  contractId : String
  odcsId : String
  fingerprints : Option (Dict String String) := none
  registryArtifact : Option Artifact := none

/-- A baseline document; one written before histories were kept has none. -/
structure BaselineDocument (Artifact : Type) where
  latest : Option (ReviewedSnapshot Artifact)
  history : Option (List (ReviewedSnapshot Artifact)) := none

/-- `baseline_history`: a flat document is a history of one snapshot. -/
def BaselineDocument.baselineHistory {Artifact : Type} (document : BaselineDocument Artifact) :
    List (ReviewedSnapshot Artifact) :=
  document.history.getD document.latest.toList

/-- What two snapshots are compared by. Dictionaries are equal in whatever order. -/
structure Comparable (Artifact : Type) where
  version : String
  fields : Dict String FieldSpec
  fingerprints : Option (Dict String String)
  contractId : String
  odcsId : String
  semanticMetadata : Option SemanticMetadata
  registryArtifact : Option Artifact
deriving DecidableEq

namespace ReviewedSnapshot

variable {Artifact : Type}

def comparable (snapshot : ReviewedSnapshot Artifact) : Comparable Artifact where
  version := snapshot.version
  fields := snapshot.fields.sortKeys
  fingerprints := snapshot.fingerprints.map Dict.sortKeys
  contractId := snapshot.contractId
  odcsId := snapshot.odcsId
  semanticMetadata := snapshot.semanticMetadata
  registryArtifact := snapshot.registryArtifact

/-- The document a snapshot is written to and read back from has its keys sorted. -/
def written (snapshot : ReviewedSnapshot Artifact) : ReviewedSnapshot Artifact :=
  { snapshot with
    fields := snapshot.fields.sortKeys
    fingerprints := snapshot.fingerprints.map Dict.sortKeys }

/-- The metadata hash of a snapshot; an empty one is none. -/
def optimizationMetadataHash (snapshot : ReviewedSnapshot Artifact) : Option String :=
  (snapshot.fingerprints.bind (·.get? "optimizationMetadataHash")).filter fun hash => hash ≠ ""

end ReviewedSnapshot

/-- A contract of the registry: its current snapshot and, if it is registered, the metadata hash
stored with its entry. -/
structure CurrentContract (Artifact : Type) where
  snapshot : ReviewedSnapshot Artifact
  storedHash : Option String := none

/-- All contracts under the policy. -/
abbrev RegistryView (Artifact : Type) := Dict String (CurrentContract Artifact)

abbrev Baselines (Artifact : Type) := Dict String (BaselineDocument Artifact)

/-- Outcome of the check for one contract. -/
structure ContractEvolution where
  contractId : String
  baselineVersion : Option String
  currentVersion : String
  changeClass : ChangeClass
  details : List String := []
  errors : List String := []
  historyVersions : List String := []
  optimizationMetadataHash : String := ""
  semanticChangeClass : ChangeClass := .identical
  semanticDetails : List String := []
  mappingVersion : String := ""
deriving DecidableEq, Repr

structure EvolutionReport where
  contracts : List ContractEvolution := []
  staleBaselines : List String := []
deriving DecidableEq, Repr

def ContractEvolution.ok (evolution : ContractEvolution) : Prop := evolution.errors = []

/-- `EvolutionReport.ok`. -/
def EvolutionReport.ok (report : EvolutionReport) : Prop :=
  (∀ evolution ∈ report.contracts, evolution.ok) ∧ report.staleBaselines = []

section Store

variable {Artifact : Type} [DecidableEq Artifact]

/-- `_merge_history`. -/
def mergeHistory (existing : Option (BaselineDocument Artifact))
    (snapshot : ReviewedSnapshot Artifact) : List (ReviewedSnapshot Artifact) :=
  appendNew ReviewedSnapshot.comparable (existing.elim [] BaselineDocument.baselineHistory) snapshot

/-- The document that a freeze writes for a contract. -/
def frozenDocument (existing : Option (BaselineDocument Artifact))
    (snapshot : ReviewedSnapshot Artifact) : BaselineDocument Artifact where
  latest := some snapshot.written
  history := some ((mergeHistory existing snapshot).map ReviewedSnapshot.written)

/-- `freeze_baselines`: record the current snapshots and remove stale baselines. -/
def freezeBaselines (baselines : Baselines Artifact) (view : RegistryView Artifact) :
    Baselines Artifact :=
  let frozen := view.entries.foldl (fun baselines entry =>
    baselines.set entry.1 (frozenDocument (baselines.get? entry.1) entry.2.snapshot)) baselines
  frozen.filter fun entry => entry.1 ∈ view.keys

end Store

section Check

variable {Artifact : Type} (digitValue : Char → Option ℕ) (contractId : String)

def hashText (hash : Option String) : String := hash.getD "<unknown>"

/-- `_metadata_drift_errors`. -/
def metadataDriftErrors (reviewed current : ReviewedSnapshot Artifact) : List String :=
  match reviewed.optimizationMetadataHash, current.optimizationMetadataHash with
  | some reviewedHash, some currentHash =>
    if reviewedHash ≠ currentHash then
      [contractId ++ ": optimization metadata changed (" ++ reviewedHash ++ " -> " ++
        currentHash ++ "); review the mapping semantics and record a new evolution snapshot"]
    else []
  | _, _ => []

/-- `_semantic_drift_errors`: without semantic metadata on both sides only the hashes are
compared. -/
def semanticDriftErrors (reviewed current : ReviewedSnapshot Artifact) :
    ChangeReport × List String :=
  if reviewed.semanticMetadata.isSome ∧ current.semanticMetadata.isSome then
    let change := classifySemanticMetadataChange reviewed.semantic current.semantic
    (change, versionPolicyErrors digitValue contractId reviewed.semantic.mappingVersion
        current.semantic.mappingVersion change "semantic metadata" ++
      if change.changeClass ≠ .identical then
        [contractId ++ ": optimization metadata changed (" ++
          hashText reviewed.optimizationMetadataHash ++ " -> " ++
          hashText current.optimizationMetadataHash ++
          "); review the mapping semantics and record a new evolution snapshot"]
      else [])
  else (.unchanged, metadataDriftErrors contractId reviewed current)

/-- The hash stored with a registry entry differs from the current one. -/
def storedHashErrors (current : CurrentContract Artifact) : List String :=
  match current.storedHash.filter (· ≠ ""), current.snapshot.optimizationMetadataHash with
  | some storedHash, some currentHash =>
    if storedHash ≠ currentHash then
      [contractId ++ ": optimizationMetadataHash changed from " ++ storedHash ++ " to " ++
        currentHash ++ "; rerun validation with --write after reviewing the change"]
    else []
  | _, _ => []

/-- The check of one contract against its baseline. -/
def checkContract (baseline : Option (BaselineDocument Artifact))
    (current : CurrentContract Artifact) : ContractEvolution :=
  let snapshot := current.snapshot
  let missing := fun error : String =>
    { contractId := contractId, baselineVersion := none, currentVersion := snapshot.version
      changeClass := .breaking, errors := [contractId ++ error] : ContractEvolution }
  match baseline with
  | none => missing (": no committed schema baseline; review the contract and record one with " ++
      "'fl-op contracts evolution-freeze'")
  | some document =>
    match document.baselineHistory.getLast? with
    | none => missing (": committed schema baseline has no history entries; " ++
        "rerun 'fl-op contracts evolution-freeze'")
    | some latest =>
      let change := classifyChange latest.fields snapshot.fields
      let semantic := semanticDriftErrors digitValue contractId latest snapshot
      { contractId := contractId
        baselineVersion := some latest.version
        currentVersion := snapshot.version
        changeClass := change.changeClass
        details := change.details
        errors := versionPolicyErrors digitValue contractId latest.version snapshot.version change
            "schema" ++ semantic.2 ++
          ContractSnapshot.pairwiseHistoryErrors digitValue contractId
            (document.baselineHistory.map ReviewedSnapshot.toContractSnapshot) ++
          storedHashErrors contractId current
        historyVersions := document.baselineHistory.map fun item => item.version
        optimizationMetadataHash := snapshot.optimizationMetadataHash.getD ""
        semanticChangeClass := semantic.1.changeClass
        semanticDetails := semantic.1.details
        mappingVersion := snapshot.semantic.mappingVersion }

/-- `check_evolution`: every contract against its baseline; baselines of no contract are stale. -/
def checkEvolution (baselines : Baselines Artifact) (view : RegistryView Artifact) :
    EvolutionReport where
  contracts := view.entries.map fun entry =>
    checkContract digitValue entry.1 (baselines.get? entry.1) entry.2
  staleBaselines :=
    (sortBy (· ++ ".json") (baselines.keys.filter fun key => key ∉ view.keys)).map fun key =>
      "baseline " ++ key ++ ".json has no matching contract; remove it after review " ++
        "(or rerun 'fl-op contracts evolution-freeze')"

end Check

/-! ## What a check reads -/

/-- The snapshots agree on what the policy compares. -/
structure SameReading (a b : ContractSnapshot) : Prop where
  version : a.version = b.version
  fields : ∀ name, a.fields.get? name = b.fields.get? name
  semanticMetadata : a.semanticMetadata = b.semanticMetadata

namespace SameReading

variable {a b c d : ContractSnapshot}

theorem refl (a : ContractSnapshot) : SameReading a a := ⟨rfl, fun _ => rfl, rfl⟩

theorem symm (same : SameReading a b) : SameReading b a :=
  ⟨same.version.symm, fun name => (same.fields name).symm, same.semanticMetadata.symm⟩

/-- The class of a change is a matter of the fields by name. -/
theorem changeClass (first : SameReading a b) (second : SameReading c d) :
    (classifyChange a.fields c.fields).changeClass =
      (classifyChange b.fields d.fields).changeClass := by
  have atMost : ∀ n ≤ 1, (classifyChange a.fields c.fields).AtMost n ↔
      (classifyChange b.fields d.fields).AtMost n := by
    intro n n_le
    rw [atMost_classifyChange n_le, atMost_classifyChange n_le]
    simp only [Dict.mem_keys_iff, first.fields, second.fields]
  have identical := atMost 0 (Nat.zero_le 1)
  have compatible := atMost 1 le_rfl
  rw [ChangeReport.atMost_zero_iff, ChangeReport.atMost_zero_iff] at identical
  rw [ChangeReport.atMost_one_iff, ChangeReport.atMost_one_iff] at compatible
  cases left : (classifyChange a.fields c.fields).changeClass <;>
    cases right : (classifyChange b.fields d.fields).changeClass <;> simp_all

/-- Whether a step passes the policy is a matter of what it reads. -/
theorem stepErrors (digitValue : Char → Option ℕ) (contractId : String)
    (first : SameReading a b) (second : SameReading c d) :
    a.stepErrors digitValue contractId c = [] ↔ b.stepErrors digitValue contractId d = [] := by
  have semanticFirst : a.semantic = b.semantic := by
    rw [ContractSnapshot.semantic, first.semanticMetadata, ContractSnapshot.semantic]
  have semanticSecond : c.semantic = d.semantic := by
    rw [ContractSnapshot.semantic, second.semanticMetadata, ContractSnapshot.semantic]
  simp only [ContractSnapshot.stepErrors, List.append_eq_nil_iff, ContractSnapshot.schemaErrors,
    ContractSnapshot.semanticErrors, versionPolicyErrors_eq_nil, first.version, second.version,
    first.changeClass second, first.semanticMetadata, second.semanticMetadata, semanticFirst,
    semanticSecond]

end SameReading

theorem not_before_self (version : Version) : ¬ version.before version := by
  unfold Version.before
  omega

theorem changeClass_classifyChange_self {a b : ContractSnapshot} (same : SameReading a b) :
    (classifyChange a.fields b.fields).changeClass = .identical := by
  rw [← ChangeReport.atMost_zero_iff, atMost_classifyChange (Nat.zero_le 1)]
  refine ⟨fun name spec found => (same.fields name).symm.trans found, fun name spec found => ?_⟩
  rw [← same.fields] at found
  exact .inl ((Dict.mem_keys_iff _ _).mpr (Option.isSome_iff_exists.mpr ⟨spec, found⟩))

theorem classifySemanticMetadataChange_self (metadata : SemanticMetadata) :
    classifySemanticMetadataChange metadata metadata = .unchanged := by
  rw [classifySemanticMetadataChange]
  exact if_pos rfl

/-- A step between snapshots that read the same passes. -/
theorem stepErrors_same (digitValue : Char → Option ℕ) (contractId : String)
    {a b : ContractSnapshot} (same : SameReading a b) :
    a.stepErrors digitValue contractId b = [] := by
  have semantic : a.semantic = b.semantic := by
    rw [ContractSnapshot.semantic, same.semanticMetadata, ContractSnapshot.semantic]
  rw [ContractSnapshot.stepErrors, List.append_eq_nil_iff, ContractSnapshot.schemaErrors,
    versionPolicyErrors_eq_nil, changeClass_classifyChange_self same, same.version]
  refine ⟨not_before_self _, ?_⟩
  split_ifs
  · rw [ContractSnapshot.semanticErrors, versionPolicyErrors_eq_nil, semantic,
      classifySemanticMetadataChange_self]
    exact not_before_self _
  · rfl

namespace ReviewedSnapshot

variable {Artifact : Type} {a b : ReviewedSnapshot Artifact}

theorem sameReading_written (snapshot : ReviewedSnapshot Artifact) :
    SameReading snapshot.written.toContractSnapshot snapshot.toContractSnapshot :=
  ⟨rfl, fun _ => Dict.get?_sortKeys _ _, rfl⟩

theorem sameReading_of_comparable (same : a.comparable = b.comparable) :
    SameReading a.toContractSnapshot b.toContractSnapshot := by
  obtain ⟨version, fields, -, -, -, semantic, -⟩ := Comparable.mk.inj same
  refine ⟨version, fun name => ?_, semantic⟩
  rw [← Dict.get?_sortKeys a.fields, fields, Dict.get?_sortKeys]

theorem hash_of_comparable (same : a.comparable = b.comparable) :
    a.optimizationMetadataHash = b.optimizationMetadataHash := by
  obtain ⟨-, -, fingerprints, -⟩ := Comparable.mk.inj same
  have stored : ∀ snapshot : ReviewedSnapshot Artifact,
      snapshot.fingerprints.bind (·.get? "optimizationMetadataHash") =
        (snapshot.fingerprints.map Dict.sortKeys).bind (·.get? "optimizationMetadataHash") := by
    intro snapshot
    cases snapshot.fingerprints with
    | none => rfl
    | some hashes => exact (Dict.get?_sortKeys _ _).symm
  rw [optimizationMetadataHash, optimizationMetadataHash, stored, stored, fingerprints]

theorem hash_written (snapshot : ReviewedSnapshot Artifact) :
    snapshot.written.optimizationMetadataHash = snapshot.optimizationMetadataHash := by
  rw [optimizationMetadataHash, optimizationMetadataHash, written]
  cases snapshot.fingerprints with
  | none => rfl
  | some hashes => exact congrArg _ (Dict.get?_sortKeys hashes _)

end ReviewedSnapshot

/-! ## Freezing -/

section Reviewing

variable {Artifact : Type} {digitValue : Char → Option ℕ} {id : String}

/-- The history that a baseline document holds. -/
def historyOf (baseline : Option (BaselineDocument Artifact)) : List (ReviewedSnapshot Artifact) :=
  baseline.elim [] BaselineDocument.baselineHistory

/-- Every reviewed step of a history passes the policy. -/
def Reviewed (digitValue : Char → Option ℕ) (id : String)
    (history : List (ReviewedSnapshot Artifact)) : Prop :=
  history.IsChain fun prev next =>
    prev.toContractSnapshot.stepErrors digitValue id next.toContractSnapshot = []

theorem reviewed_iff {history : List (ReviewedSnapshot Artifact)} :
    Reviewed digitValue id history ↔ ContractSnapshot.pairwiseHistoryErrors digitValue id
      (history.map ReviewedSnapshot.toContractSnapshot) = [] := by
  rw [ContractSnapshot.pairwiseHistoryErrors, List.flatMap_eq_nil_iff]
  refine Iff.trans ?_ (isChain_iff_neighbours
    (R := fun prev next : ContractSnapshot => prev.stepErrors digitValue id next = []))
  rw [List.isChain_map]
  rfl

/-- Writing a history to its document changes nothing about its steps. -/
theorem reviewed_map_written {history : List (ReviewedSnapshot Artifact)} :
    Reviewed digitValue id (history.map ReviewedSnapshot.written) ↔
      Reviewed digitValue id history := by
  rw [Reviewed, List.isChain_map, Reviewed]
  simp only [SameReading.stepErrors digitValue id (ReviewedSnapshot.sameReading_written _)
    (ReviewedSnapshot.sameReading_written _)]

/-- A check lists the versions of the whole history. -/
theorem historyVersions_checkContract (baseline : Option (BaselineDocument Artifact))
    (current : CurrentContract Artifact) :
    (checkContract digitValue id baseline current).historyVersions =
      (historyOf baseline).map fun item => item.version := by
  unfold checkContract
  cases baseline with
  | none => rfl
  | some document =>
    dsimp only
    split
    · next none =>
      rw [historyOf, Option.elim_some, List.getLast?_eq_none_iff.mp none]
      rfl
    · rfl

/-- A check that passes has gone over the whole history. -/
theorem reviewed_of_ok {baseline : Option (BaselineDocument Artifact)}
    {current : CurrentContract Artifact}
    (ok : (checkContract digitValue id baseline current).ok) :
    Reviewed digitValue id (historyOf baseline) := by
  unfold checkContract at ok
  cases baseline with
  | none => exact absurd ok (List.cons_ne_nil _ _)
  | some document =>
    dsimp only at ok
    split at ok
    · exact absurd ok (List.cons_ne_nil _ _)
    · exact reviewed_iff.mpr
        (List.append_eq_nil_iff.mp (List.append_eq_nil_iff.mp ok).1).2

end Reviewing

section Freezing

variable {Artifact : Type} [DecidableEq Artifact] {baselines : Baselines Artifact}
  {view : RegistryView Artifact} {id : String} {digitValue : Char → Option ℕ}

/-- A freeze leaves a document for each contract of the registry, and no other. -/
theorem get?_freezeBaselines : (freezeBaselines baselines view).get? id =
    (view.get? id).map fun current => frozenDocument (baselines.get? id) current.snapshot := by
  have written : ∀ (baselines : Baselines Artifact)
      (entry : String × CurrentContract Artifact) (key : String),
      (baselines.set entry.1 (frozenDocument (baselines.get? entry.1) entry.2.snapshot)).get? key =
        if entry.1 = key then some (frozenDocument (baselines.get? key) entry.2.snapshot)
        else baselines.get? key := by
    intro baselines entry key
    rw [Dict.get?_set]
    by_cases same : entry.1 = key
    · rw [if_pos same.symm, if_pos same, same]
    · rw [if_neg (Ne.symm same), if_neg same]
  have recorded := Dict.read_foldl_entries Dict.get?
    (fun _ existing current => some (frozenDocument existing current.snapshot)) written view
      baselines id
  ext document
  rw [freezeBaselines, Dict.get?_filter_eq_some_iff, recorded, decide_eq_true_eq,
    Dict.mem_keys_iff]
  cases view.get? id <;> simp

/-- Freezing a snapshot adds one step, from the last reviewed snapshot to it. -/
theorem reviewed_frozenDocument {existing : Option (BaselineDocument Artifact)}
    {snapshot : ReviewedSnapshot Artifact} :
    Reviewed digitValue id (frozenDocument existing snapshot).baselineHistory ↔
      Reviewed digitValue id (historyOf existing) ∧ ∀ last ∈ (historyOf existing).getLast?,
        last.toContractSnapshot.stepErrors digitValue id snapshot.toContractSnapshot = [] := by
  change Reviewed digitValue id ((mergeHistory existing snapshot).map _) ↔ _
  rw [reviewed_map_written]
  exact isChain_appendNew fun same =>
    stepErrors_same digitValue id (ReviewedSnapshot.sameReading_of_comparable same)

/-- The last snapshot of a frozen document reads like the one frozen. -/
theorem getLast?_frozenDocument {existing : Option (BaselineDocument Artifact)}
    {snapshot : ReviewedSnapshot Artifact} :
    ∃ last, (frozenDocument existing snapshot).baselineHistory.getLast? = some last ∧
      SameReading last.toContractSnapshot snapshot.toContractSnapshot ∧
      last.optimizationMetadataHash = snapshot.optimizationMetadataHash := by
  obtain ⟨last, ends, same⟩ := Option.map_eq_some_iff.mp
    (@getLast?_appendNew _ _ _ ReviewedSnapshot.comparable (historyOf existing) snapshot)
  refine ⟨last.written, ?_, ?_, ?_⟩
  · change ((mergeHistory existing snapshot).map ReviewedSnapshot.written).getLast? = _
    rw [List.getLast?_map]
    exact congrArg (Option.map ReviewedSnapshot.written) ends
  · have reads := ReviewedSnapshot.sameReading_of_comparable same
    have stored := ReviewedSnapshot.sameReading_written last
    exact ⟨stored.version.trans reads.version,
      fun name => (stored.fields name).trans (reads.fields name),
      stored.semanticMetadata.trans reads.semanticMetadata⟩
  · rw [ReviewedSnapshot.hash_written, ReviewedSnapshot.hash_of_comparable same]

/-- The snapshots of a contract at the freezes since it was last absent. -/
def tenure (id : String) (views : List (RegistryView Artifact)) :
    List (ReviewedSnapshot Artifact) :=
  views.foldl (fun snapshots view =>
    (view.get? id).elim [] fun current => snapshots ++ [current.snapshot]) []

/-- The baselines after freezing one registry after the other. -/
def freezeAll (views : List (RegistryView Artifact)) : Baselines Artifact :=
  views.foldl freezeBaselines .empty

/-- A history stands for frozen snapshots: it is as good as they are, and ends like them. -/
structure StandsFor (digitValue : Char → Option ℕ) (id : String)
    (history snapshots : List (ReviewedSnapshot Artifact)) : Prop where
  reviewed : Reviewed digitValue id history ↔ Reviewed digitValue id snapshots
  ends : ∀ frozen ∈ snapshots.getLast?, ∃ last, history.getLast? = some last ∧
    SameReading last.toContractSnapshot frozen.toContractSnapshot
  empty : snapshots = [] → history = []

/-- One more freeze. -/
theorem StandsFor.freeze {existing : Option (BaselineDocument Artifact)}
    {snapshots : List (ReviewedSnapshot Artifact)}
    (stands : StandsFor digitValue id (historyOf existing) snapshots)
    (snapshot : ReviewedSnapshot Artifact) :
    StandsFor digitValue id (frozenDocument existing snapshot).baselineHistory
      (snapshots ++ [snapshot]) where
  reviewed := by
    rw [reviewed_frozenDocument, stands.reviewed, Reviewed, Reviewed, List.isChain_append]
    simp only [List.isChain_singleton, List.head?_cons, Option.mem_some_iff, forall_eq', true_and]
    apply and_congr_right
    intro _
    cases ending : snapshots.getLast? with
    | none =>
      rw [stands.empty (List.getLast?_eq_none_iff.mp ending)]
      simp
    | some frozen =>
      obtain ⟨last, final, reads⟩ := stands.ends frozen ending
      rw [final]
      simp only [Option.mem_some_iff, forall_eq']
      exact reads.stepErrors digitValue id (SameReading.refl _)
  ends frozen final := by
    rw [List.getLast?_concat] at final
    cases final
    obtain ⟨last, final, reads, -⟩ := @getLast?_frozenDocument _ _ existing snapshot
    exact ⟨last, final, reads⟩
  empty none := absurd none (List.append_ne_nil_of_right_ne_nil _ (List.cons_ne_nil _ _))

/-- After any number of freezes a history stands for what was frozen since the contract came. -/
theorem standsFor_tenure (digitValue : Char → Option ℕ) (id : String)
    (views : List (RegistryView Artifact)) :
    StandsFor digitValue id (historyOf ((freezeAll views).get? id)) (tenure id views) := by
  induction views using List.reverseRecOn with
  | nil => exact ⟨Iff.rfl, (by rintro _ ⟨⟩), fun _ => rfl⟩
  | append_singleton views view ih =>
    rw [freezeAll, tenure, List.foldl_concat, List.foldl_concat, get?_freezeBaselines]
    cases view.get? id with
    | none => exact ⟨Iff.rfl, (by rintro _ ⟨⟩), fun _ => rfl⟩
    | some current => exact ih.freeze current.snapshot

/-- Right after a freeze only the recorded steps and the stored hash can be wrong. -/
theorem errors_checkContract_frozen (existing : Option (BaselineDocument Artifact))
    (current : CurrentContract Artifact) :
    (checkContract digitValue id (some (frozenDocument existing current.snapshot)) current).ok ↔
      Reviewed digitValue id (frozenDocument existing current.snapshot).baselineHistory ∧
        storedHashErrors id current = [] := by
  obtain ⟨last, final, reads, hash⟩ := @getLast?_frozenDocument _ _ existing current.snapshot
  have schema : versionPolicyErrors digitValue id last.version current.snapshot.version
      (classifyChange last.fields current.snapshot.fields) "schema" = [] := by
    rw [versionPolicyErrors_eq_nil, changeClass_classifyChange_self reads, reads.version]
    exact not_before_self _
  have semantic : (semanticDriftErrors digitValue id last current.snapshot).2 = [] := by
    have same : last.semantic = current.snapshot.semantic := by
      rw [ContractSnapshot.semantic, reads.semanticMetadata, ContractSnapshot.semantic]
    unfold semanticDriftErrors
    split_ifs
    · simp only [same, classifySemanticMetadataChange_self]
      refine List.append_eq_nil_iff.mpr ⟨versionPolicyErrors_eq_nil _ _ _ |>.mpr ?_, rfl⟩
      exact not_before_self _
    · unfold metadataDriftErrors
      rw [hash]
      cases current.snapshot.optimizationMetadataHash with
      | none => rfl
      | some hash => exact if_neg (not_not.mpr rfl)
  rw [ContractEvolution.ok, checkContract]
  simp only [final, schema, semantic, List.nil_append, List.append_eq_nil_iff, reviewed_iff]

/-- As long as a contract stays, freezes only add to its history. -/
theorem history_grows {views : List (RegistryView Artifact)}
    (stays : ∀ view ∈ views, id ∈ view.keys) (baselines : Baselines Artifact) :
    ((historyOf (baselines.get? id)).map fun item => item.version) <+:
        ((historyOf ((views.foldl freezeBaselines baselines).get? id)).map fun item =>
          item.version) ∧
      (Reviewed digitValue id (historyOf ((views.foldl freezeBaselines baselines).get? id)) →
        Reviewed digitValue id (historyOf (baselines.get? id))) := by
  induction views generalizing baselines with
  | nil => exact ⟨List.prefix_refl _, fun reviewed => reviewed⟩
  | cons view rest ih =>
    obtain ⟨here, later⟩ := List.forall_mem_cons.mp stays
    obtain ⟨current, present⟩ := Option.isSome_iff_exists.mp ((Dict.mem_keys_iff _ _).mp here)
    obtain ⟨versions, reviewed⟩ := ih later (freezeBaselines baselines view)
    rw [get?_freezeBaselines, present, Option.map_some] at versions reviewed
    constructor
    · refine List.IsPrefix.trans ?_ versions
      change _ <+: ((mergeHistory (baselines.get? id) current.snapshot).map
        ReviewedSnapshot.written).map _
      rw [List.map_map]
      exact prefix_appendNew.map _
    · exact fun chain => (reviewed_frozenDocument.mp (reviewed chain)).1

/-- A check never loses what an earlier one listed, as long as the contract stays in the registry:
the earlier versions stay at the head of its history, and once a step has been frozen against the
policy every later check fails. -/
theorem checkContract_remembers (digitValue : Char → Option ℕ) (id : String)
    (baselines : Baselines Artifact) (views : List (RegistryView Artifact))
    (stays : ∀ view ∈ views, id ∈ view.keys) (earlier later : CurrentContract Artifact) :
    (checkContract digitValue id (baselines.get? id) earlier).historyVersions <+:
        (checkContract digitValue id ((views.foldl freezeBaselines baselines).get? id)
          later).historyVersions ∧
      (¬ Reviewed digitValue id (historyOf (baselines.get? id)) →
        ¬ (checkContract digitValue id ((views.foldl freezeBaselines baselines).get? id)
          later).ok) := by
  obtain ⟨versions, reviewed⟩ := @history_grows _ _ id digitValue _ stays baselines
  rw [historyVersions_checkContract, historyVersions_checkContract]
  exact ⟨versions, fun unreviewed ok => unreviewed (reviewed (reviewed_of_ok ok))⟩

end Freezing

/-- A registry of one contract at a version, with a field of a type. -/
def ordersView (version type : String) : RegistryView Unit :=
  Dict.empty.set "orders" { snapshot := {
    version := version
    fields := Dict.empty.set "area" { logicalType := "number", physicalType := type }
    contractId := "orders"
    odcsId := "orders" } }

/-- The type of a field was changed without a new major version. -/
theorem checkContract_remembers_orders :
    ¬ (checkContract asciiDigit "orders" (([ordersView "2.0.0" "decimal"].foldl freezeBaselines
      (freezeAll [ordersView "1.0.0" "float", ordersView "1.1.0" "double"])).get? "orders")
        { snapshot := { version := "3.0.0", contractId := "orders", odcsId := "orders" } }).ok :=
  (checkContract_remembers asciiDigit "orders"
    (freezeAll [ordersView "1.0.0" "float", ordersView "1.1.0" "double"])
    [ordersView "2.0.0" "decimal"] (by decide +kernel)
    { snapshot := { version := "1.1.0", contractId := "orders", odcsId := "orders" } } _).2
    (by rw [reviewed_iff]; decide +kernel)

end FlOp.Contracts
