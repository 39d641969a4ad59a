import FlOp.Contracts.Evolution

/-! # Upgrade paths

Changes that are at most backward compatible compose, at each of the two ranks: what a field, a
block or a schema may do in two steps it may do in one. Versions only move forward, and one
breaking step has moved the major number, so every pair of a history passes the policy if the
adjacent pairs do.
-/

namespace FlOp.Contracts

open Library

/-- A relation holds of the outer pair whenever it does of two adjacent ones. -/
abbrev Composes {α : Type} (R : α → α → Prop) : Prop := ∀ ⦃a b c⦄, R a b → R b c → R a c

theorem not_atMost_breaking {n : ℕ} (n_le : n ≤ 1) (details : List String) :
    ¬ ChangeReport.AtMost n ⟨.breaking, details⟩ := by
  intro high
  have bound : 2 ≤ n := high
  omega

theorem atMost_backward {n : ℕ} (n_le : n ≤ 1) (details : List String) :
    ChangeReport.AtMost n ⟨.backward, details⟩ ↔ n = 1 := by
  show 1 ≤ n ↔ n = 1
  omega

/-! ## Physical fields -/

theorem atMost_baselineFieldReport {n : ℕ} (n_le : n ≤ 1) {fields : Dict String FieldSpec}
    {name : String} {spec : FieldSpec} :
    (baselineFieldReport fields name spec).AtMost n ↔ fields.get? name = some spec := by
  have breaking := not_atMost_breaking n_le
  unfold baselineFieldReport
  cases found : fields.get? name with
  | none => simp [breaking]
  | some current =>
    rw [ChangeReport.atMost_combine, Option.some.injEq]
    simp only [List.forall_mem_cons, List.not_mem_nil, false_implies, implies_true, and_true]
    constructor
    · rintro ⟨logical, physical, required⟩
      have sameLogical : current.logicalType = spec.logicalType := by
        by_contra differs
        rw [if_pos differs] at logical
        exact breaking _ logical
      have samePhysical : current.physicalType = spec.physicalType := by
        by_contra differs
        rw [if_pos differs] at physical
        exact breaking _ physical
      have sameRequired : current.required = spec.required := by
        by_contra differs
        rw [if_pos differs] at required
        exact breaking _ required
      cases current
      cases spec
      simp_all
    · rintro rfl
      simp [ChangeReport.atMost_unchanged]

theorem atMost_addedFieldReport {n : ℕ} (n_le : n ≤ 1) {fields : Dict String FieldSpec}
    {name : String} {current : FieldSpec} :
    (addedFieldReport fields name current).AtMost n ↔
      name ∈ fields.keys ∨ n = 1 ∧ current.required = false := by
  unfold addedFieldReport
  by_cases known : name ∈ fields.keys
  · simp [known, ChangeReport.atMost_unchanged]
  · cases required : current.required
    · simp [known, atMost_backward n_le]
    · simp [known, not_atMost_breaking n_le]

/-- What a change of at most the given rank is: every field stays as it is, and new ones come at
rank one only, and optional. -/
theorem atMost_classifyChange {n : ℕ} (n_le : n ≤ 1) {old new : Dict String FieldSpec} :
    (classifyChange old new).AtMost n ↔
      (∀ name spec, old.get? name = some spec → new.get? name = some spec) ∧
      ∀ name spec, new.get? name = some spec →
        name ∈ old.keys ∨ n = 1 ∧ spec.required = false := by
  simp only [classifyChange, ChangeReport.atMost_combine, List.mem_append, List.mem_map,
    Dict.get?_eq_some_iff]
  constructor
  · intro quiet
    refine ⟨fun name spec member => ?_, fun name spec member => ?_⟩
    · have report := quiet _ (.inl ⟨(name, spec), member, rfl⟩)
      exact (Dict.get?_eq_some_iff _ _ _).mp ((atMost_baselineFieldReport n_le).mp report)
    · have report := quiet _ (.inr ⟨(name, spec), member, rfl⟩)
      exact (atMost_addedFieldReport n_le).mp report
  · rintro ⟨stays, added⟩ report (⟨entry, member, rfl⟩ | ⟨entry, member, rfl⟩)
    · exact (atMost_baselineFieldReport n_le).mpr
        ((Dict.get?_eq_some_iff _ _ _).mpr (stays _ _ member))
    · exact (atMost_addedFieldReport n_le).mpr (added _ _ member)

theorem classifyChange_composes {n : ℕ} (n_le : n ≤ 1) :
    Composes fun old new => (classifyChange old new).AtMost n := by
  intro a b c first second
  obtain ⟨staysAB, addedAB⟩ := (atMost_classifyChange n_le).mp first
  obtain ⟨staysBC, addedBC⟩ := (atMost_classifyChange n_le).mp second
  refine (atMost_classifyChange n_le).mpr
    ⟨fun name spec found => staysBC name spec (staysAB name spec found), ?_⟩
  intro name spec found
  rcases addedBC name spec found with known | optional
  · obtain ⟨middle, foundB⟩ := Option.isSome_iff_exists.mp ((b.mem_keys_iff name).mp known)
    have same : middle = spec := Option.some.inj ((staysBC name middle foundB).symm.trans found)
    exact same ▸ addedAB name middle foundB
  · exact .inr optional

/-! ## Semantic metadata -/

theorem atMost_diffAdditiveList {n : ℕ} (n_le : n ≤ 1) (field : String) (old new : MetaValue) :
    (diffAdditiveList field old new).AtMost n ↔
      old.asList ⊆ new.asList ∧ (n = 0 → new.asList ⊆ old.asList) := by
  have subset : ∀ a b : MetaValue, a.asList.toFinset ⊆ b.asList.toFinset ↔
      a.asList ⊆ b.asList := by
    intro a b
    simp only [Finset.subset_iff, List.mem_toFinset, List.subset_def]
  unfold diffAdditiveList
  rw [← subset, ← subset]
  by_cases same : old.asList.toFinset = new.asList.toFinset
  · simp [same, ChangeReport.atMost_unchanged]
  · rw [if_neg same]
    by_cases removed : (old.asList.toFinset \ new.asList.toFinset).Nonempty
    · have lost : ¬ old.asList.toFinset ⊆ new.asList.toFinset := fun kept =>
        removed.ne_empty (Finset.sdiff_eq_empty_iff_subset.mpr kept)
      simp [removed, lost, not_atMost_breaking n_le]
    · have kept : old.asList.toFinset ⊆ new.asList.toFinset :=
        Finset.sdiff_eq_empty_iff_subset.mp (Finset.not_nonempty_iff_eq_empty.mp removed)
      have grown : ¬ new.asList.toFinset ⊆ old.asList.toFinset := fun back =>
        same (kept.antisymm back)
      rw [if_neg removed, atMost_backward n_le]
      simp only [kept, grown, true_and, imp_false]
      omega

theorem lostCode_eq_none {old new : JsonObject String} {key : String} :
    lostCode old new key = none ↔
      ∀ target, old.lookup key = some target → new.lookup key = some target := by
  unfold lostCode
  cases before : old.lookup key with
  | none => simp
  | some target =>
    cases after : new.lookup key with
    | none => simp
    | some retargeted =>
      by_cases same : retargeted = target <;> simp [same]

theorem atMost_diffMetricCodes {n : ℕ} (n_le : n ≤ 1) (old new : MetaValue) :
    (diffMetricCodes old new).AtMost n ↔
      (∀ key target, old.codesOf.lookup key = some target →
        new.codesOf.lookup key = some target) ∧
      (n = 0 → new.codesOf.keys ⊆ old.codesOf.keys) := by
  have kept : (sorted old.codesOf.keys).findSome? (lostCode old.codesOf new.codesOf) = none ↔
      ∀ key target, old.codesOf.lookup key = some target →
        new.codesOf.lookup key = some target := by
    rw [List.findSome?_eq_none_iff]
    constructor
    · intro none key target found
      have present : key ∈ sorted old.codesOf.keys :=
        mem_sorted.mpr (Finmap.mem_keys.mpr (Finmap.mem_of_lookup_eq_some found))
      exact lostCode_eq_none.mp (none key present) target found
    · exact fun stays key _ => lostCode_eq_none.mpr (stays key)
  unfold diffMetricCodes
  cases search : (sorted old.codesOf.keys).findSome? (lostCode old.codesOf new.codesOf) with
  | some detail =>
    have lost := mt kept.mpr (by rw [search]; exact Option.some_ne_none detail)
    simp only [search, lost, false_and, iff_false]
    exact not_atMost_breaking n_le _
  | none =>
    have stays := kept.mp search
    simp only [search]
    rw [and_iff_right stays]
    by_cases added : (new.codesOf.keys \ old.codesOf.keys).Nonempty
    · have grown : ¬ new.codesOf.keys ⊆ old.codesOf.keys := fun back =>
        added.ne_empty (Finset.sdiff_eq_empty_iff_subset.mpr back)
      rw [if_pos added, atMost_backward n_le]
      simp only [grown, imp_false]
      omega
    · have back : new.codesOf.keys ⊆ old.codesOf.keys :=
        Finset.sdiff_eq_empty_iff_subset.mp (Finset.not_nonempty_iff_eq_empty.mp added)
      simp [added, back, ChangeReport.atMost_unchanged]

theorem atMost_fixedValue {n : ℕ} (n_le : n ≤ 1) (key field verb : String)
    (old new : MetaValue) : (fixedValue key field verb old new).AtMost n ↔ old = new := by
  unfold fixedValue
  by_cases same : old = new
  · simp [same, ChangeReport.atMost_unchanged]
  · simp [same, not_atMost_breaking n_le]

/-- A unit or a quantity kind may change, at rank one, but not go. -/
theorem atMost_unit {n : ℕ} (n_le : n ≤ 1) {key field : String}
    (unit : field = "canonicalUnit" ∨ field = "quantityKind") (old new : MetaValue) :
    (mappingFieldReport key field old new).AtMost n ↔
      (n = 0 → old = new) ∧ (old.truthy = true → new.truthy = true) := by
  unfold mappingFieldReport
  rw [if_pos unit]
  by_cases same : old = new
  · simp [same, ChangeReport.atMost_unchanged]
  · rw [if_pos same]
    by_cases gone : old.truthy = true ∧ new.truthy = false
    · simp [gone, not_atMost_breaking n_le]
    · have class' : (old.truthy && !new.truthy) = false := by simpa using gone
      simp only [class', Bool.false_eq_true, if_false, atMost_backward n_le]
      simp only [not_and, Bool.not_eq_false] at gone
      simp only [same, imp_false]
      constructor
      · intro one
        exact ⟨by omega, gone⟩
      · intro kept
        omega

theorem diffAdditiveList_composes {n : ℕ} (n_le : n ≤ 1) (field : String) :
    Composes fun old new => (diffAdditiveList field old new).AtMost n := by
  intro a b c first second
  rw [atMost_diffAdditiveList n_le] at first second ⊢
  exact ⟨List.Subset.trans first.1 second.1,
    fun zero => List.Subset.trans (second.2 zero) (first.2 zero)⟩

theorem diffMetricCodes_composes {n : ℕ} (n_le : n ≤ 1) :
    Composes fun old new => (diffMetricCodes old new).AtMost n := by
  intro a b c first second
  rw [atMost_diffMetricCodes n_le] at first second ⊢
  exact ⟨fun key target found => second.1 key target (first.1 key target found),
    fun zero => Finset.Subset.trans (second.2 zero) (first.2 zero)⟩

theorem fixedValue_composes {n : ℕ} (n_le : n ≤ 1) (key field verb : String) :
    Composes fun old new => (fixedValue key field verb old new).AtMost n := by
  intro a b c first second
  rw [atMost_fixedValue n_le] at first second ⊢
  exact first.trans second

theorem fieldReport_composes {n : ℕ} (n_le : n ≤ 1) (key field : String) :
    Composes fun old new => (fieldReport key field old new).AtMost n := by
  intro a b c first second
  unfold fieldReport at first second ⊢
  by_cases contract : key = "contract"
  · rw [if_pos contract] at first second ⊢
    unfold contractFieldReport at first second ⊢
    split_ifs at first second ⊢
    · exact diffAdditiveList_composes n_le _ first second
    · exact diffMetricCodes_composes n_le first second
    · exact fixedValue_composes n_le _ _ _ first second
  · rw [if_neg contract] at first second ⊢
    by_cases unit : field = "canonicalUnit" ∨ field = "quantityKind"
    · rw [atMost_unit n_le unit] at first second ⊢
      exact ⟨fun zero => (first.1 zero).trans (second.1 zero),
        fun truthy => second.2 (first.2 truthy)⟩
    · unfold mappingFieldReport at first second ⊢
      rw [if_neg unit] at first second ⊢
      split_ifs at first second ⊢
      · exact diffAdditiveList_composes n_le _ first second
      · exact fixedValue_composes n_le _ _ _ first second
      · exact fixedValue_composes n_le _ _ _ first second

/-- A value that stays is no change. -/
theorem fieldReport_self (n : ℕ) (key field : String) (value : MetaValue) :
    (fieldReport key field value value).AtMost n := by
  have additive : ∀ name, diffAdditiveList name value value = .unchanged := fun name =>
    if_pos rfl
  have fixed : ∀ verb, fixedValue key field verb value value = .unchanged := fun verb =>
    if_neg (not_not_intro rfl)
  have codes : (diffMetricCodes value value).AtMost 0 :=
    (atMost_diffMetricCodes (Nat.zero_le 1) value value).mpr
      ⟨fun _ _ found => found, fun _ => Finset.Subset.refl _⟩
  have quiet : (fieldReport key field value value).AtMost 0 := by
    unfold fieldReport contractFieldReport mappingFieldReport
    simp only [additive, fixed, ne_eq, not_true_eq_false, if_false]
    split_ifs <;> first | exact codes | exact ChangeReport.atMost_unchanged 0
  exact Nat.le_trans quiet (Nat.zero_le n)

/-- A shared block changes within a rank exactly if it stays or all its fields do so, absent
fields counting as null. -/
theorem atMost_sharedBlockReport {n : ℕ} (n_le : n ≤ 1) {key : String} {old new : Block} :
    (sharedBlockReport key old new).AtMost n ↔
      old = new ∨ ∃ before after, old = .object before ∧ new = .object after ∧
        ∀ field, (fieldReport key field (JsonObject.get before field)
          (JsonObject.get after field)).AtMost n := by
  unfold sharedBlockReport
  by_cases same : old = new
  · simp [same, ChangeReport.atMost_unchanged]
  · rw [if_neg same]
    cases old with
    | value value => simp [same, not_atMost_breaking n_le]
    | object before =>
      cases new with
      | value value => simp [not_atMost_breaking n_le]
      | object after =>
        simp only [ChangeReport.atMost_combine, List.forall_mem_map, mem_sorted, Finset.mem_union,
          Block.object.injEq]
        constructor
        · intro fields
          refine .inr ⟨before, after, rfl, rfl, fun field => ?_⟩
          by_cases present : field ∈ before.keys ∨ field ∈ after.keys
          · exact fields field present
          · rw [not_or, Finmap.mem_keys, Finmap.mem_keys, ← Finmap.lookup_eq_none,
              ← Finmap.lookup_eq_none] at present
            have absent : JsonObject.get before field = JsonObject.get after field := by
              rw [JsonObject.get, JsonObject.get, present.1, present.2]
            rw [absent]
            exact fieldReport_self n key field _
        · rintro (equal | ⟨_, _, rfl, rfl, fields⟩) field -
          · rw [equal]
            exact fieldReport_self n key field _
          · exact fields field

theorem sharedBlockReport_composes {n : ℕ} (n_le : n ≤ 1) (key : String) :
    Composes fun old new => (sharedBlockReport key old new).AtMost n := by
  intro a b c first second
  rw [atMost_sharedBlockReport n_le] at first second ⊢
  rcases first with rfl | ⟨fieldsA, fieldsB, rfl, rfl, changesAB⟩
  · exact second
  · rcases second with rfl | ⟨fieldsB', fieldsC, sameB, rfl, changesBC⟩
    · exact .inr ⟨fieldsA, fieldsB, rfl, rfl, changesAB⟩
    · cases sameB
      exact .inr ⟨fieldsA, fieldsC, rfl, rfl, fun field =>
        fieldReport_composes n_le key field (changesAB field) (changesBC field)⟩

/-- What a change of at most the given rank is: every block stays or changes within the rank, and
new ones come at rank one only. -/
theorem atMost_classifySemanticMetadataChange {n : ℕ} (n_le : n ≤ 1)
    {old new : SemanticMetadata} :
    (classifySemanticMetadataChange old new).AtMost n ↔
      (∀ key before, old.blocks.lookup key = some before →
        ∃ after, new.blocks.lookup key = some after ∧
          (sharedBlockReport key before after).AtMost n) ∧
      (n = 0 → new.blocks.keys ⊆ old.blocks.keys) := by
  unfold classifySemanticMetadataChange
  by_cases same : old.blocks = new.blocks
  · simp only [same, if_true, ChangeReport.atMost_unchanged, true_iff]
    refine ⟨fun key before found => ⟨before, found, ?_⟩, fun _ => Finset.Subset.refl _⟩
    exact (atMost_sharedBlockReport n_le).mpr (.inl rfl)
  · simp only [same, if_false, ChangeReport.atMost_combine, List.forall_mem_append,
      List.forall_mem_map, mem_sorted, Finset.mem_sdiff, Finset.mem_inter, Finmap.mem_keys,
      not_atMost_breaking n_le, atMost_backward n_le, imp_false, not_and, not_not]
    constructor
    · rintro ⟨⟨kept, added⟩, shared⟩
      refine ⟨fun key before found => ?_, fun zero key member => ?_⟩
      · have inOld := Finmap.mem_of_lookup_eq_some found
        obtain ⟨after, foundAfter⟩ := Finmap.mem_iff.mp (kept key inOld)
        have report := shared key ⟨inOld, kept key inOld⟩
        rw [found, foundAfter] at report
        exact ⟨after, foundAfter, report⟩
      · by_contra fresh
        rw [Finmap.mem_keys] at member fresh
        have one := added key ⟨member, fresh⟩
        omega
    · rintro ⟨kept, back⟩
      refine ⟨⟨fun key member => ?_, fun key fresh => ?_⟩, fun key both => ?_⟩
      · obtain ⟨before, found⟩ := Finmap.mem_iff.mp member
        obtain ⟨after, foundAfter, -⟩ := kept key before found
        exact Finmap.mem_of_lookup_eq_some foundAfter
      · by_contra notOne
        have zero : n = 0 := by omega
        exact fresh.2 (Finmap.mem_keys.mp (back zero (Finmap.mem_keys.mpr fresh.1)))
      · obtain ⟨before, found⟩ := Finmap.mem_iff.mp both.1
        obtain ⟨after, foundAfter, report⟩ := kept key before found
        rw [found, foundAfter]
        exact report

theorem classifySemanticMetadataChange_composes {n : ℕ} (n_le : n ≤ 1) :
    Composes fun old new => (classifySemanticMetadataChange old new).AtMost n := by
  intro a b c first second
  rw [atMost_classifySemanticMetadataChange n_le] at first second ⊢
  refine ⟨fun key before found => ?_,
    fun zero => Finset.Subset.trans (second.2 zero) (first.2 zero)⟩
  obtain ⟨middle, foundB, reportAB⟩ := first.1 key before found
  obtain ⟨after, foundC, reportBC⟩ := second.1 key middle foundB
  exact ⟨after, foundC, sharedBlockReport_composes n_le key reportAB reportBC⟩

/-! ## Versions along a history -/

/-- How far the version has to move for a change of each class. -/
def Advances (changeClass : ChangeClass) (old new : Version) : Prop :=
  match changeClass with
  | .identical => ¬ new.before old
  | .backward => old.before new ∧ (new.major = old.major → old.minor < new.minor)
  | .breaking => old.before new ∧ old.major < new.major

section Policy

variable (digitValue : Char → Option ℕ) (contractId subject : String)

theorem versionPolicyErrors_eq_nil {baselineVersion currentVersion : String}
    {change : ChangeReport} :
    versionPolicyErrors digitValue contractId baselineVersion currentVersion change subject = [] ↔
      Advances change.changeClass (parseVersion digitValue baselineVersion)
        (parseVersion digitValue currentVersion) := by
  unfold versionPolicyErrors Advances
  cases change.changeClass with
  | identical => simp
  | backward =>
    simp only [reduceCtorEq, if_false, false_and, true_and]
    split_ifs with bumped stuck
    · simp [stuck]
    · simpa [bumped] using stuck
    · simp [bumped]
  | breaking =>
    simp only [reduceCtorEq, if_false, false_and, true_and]
    split_ifs with bumped stuck
    · simp [Nat.not_lt.mpr stuck]
    · simp [bumped, Nat.not_le.mp stuck]
    · simp [bumped]

/-- Where changes compose at both ranks, passing the policy does. The major number has moved past
a breaking step, and a path without one is at most backward compatible as a whole. -/
theorem passes_composes {α : Type} (classify : α → α → ChangeReport) (version : α → String)
    (composes : ∀ n ≤ 1, Composes fun old new => (classify old new).AtMost n) :
    Composes fun old new => versionPolicyErrors digitValue contractId (version old) (version new)
      (classify old new) subject = [] := by
  intro a b c first second
  rw [versionPolicyErrors_eq_nil] at first second ⊢
  have identical := composes 0 (Nat.zero_le 1) (a := a) (b := b) (c := c)
  have compatible := composes 1 le_rfl (a := a) (b := b) (c := c)
  simp only [ChangeReport.atMost_zero_iff, ChangeReport.atMost_one_iff] at identical compatible
  cases classAB : (classify a b).changeClass <;> cases classBC : (classify b c).changeClass <;>
    cases classAC : (classify a c).changeClass <;>
    simp_all only [Advances, Version.before, ne_eq, reduceCtorEq, not_false_eq_true,
      not_true_eq_false, forall_const, imp_false] <;>
    omega

end Policy

/-- One reviewed snapshot of a contract. Semantic metadata that is missing or empty is none. -/
structure ContractSnapshot where
  version : String
  fields : Dict String FieldSpec := .empty
  semanticMetadata : Option SemanticMetadata := none

namespace ContractSnapshot

/-- `_semantic_metadata`: what is missing reads as empty. -/
def semantic (snapshot : ContractSnapshot) : SemanticMetadata :=
  snapshot.semanticMetadata.getD {}

variable (digitValue : Char → Option ℕ) (contractId : String)

/-- Errors of the physical schema between two snapshots. -/
def schemaErrors (prev next : ContractSnapshot) : List String :=
  versionPolicyErrors digitValue contractId prev.version next.version
    (classifyChange prev.fields next.fields) "schema"

/-- Errors of the semantic metadata between two snapshots. -/
def semanticErrors (prev next : ContractSnapshot) : List String :=
  versionPolicyErrors digitValue contractId prev.semantic.mappingVersion
    next.semantic.mappingVersion (classifySemanticMetadataChange prev.semantic next.semantic)
    "semantic metadata"

/-- The errors of one reviewed step; the semantic metadata is compared where both have some. -/
def stepErrors (prev next : ContractSnapshot) : List String :=
  prev.schemaErrors digitValue contractId next ++
    if prev.semanticMetadata.isSome ∧ next.semanticMetadata.isSome then
      prev.semanticErrors digitValue contractId next
    else []

/-- `_pairwise_history_errors`: every adjacent step of a history. -/
def pairwiseHistoryErrors (history : List ContractSnapshot) : List String :=
  (history.zip history.tail).flatMap fun step => step.1.stepErrors digitValue contractId step.2

theorem schemaErrors_composes :
    Composes fun prev next : ContractSnapshot => prev.schemaErrors digitValue contractId next = [] :=
  passes_composes digitValue contractId "schema"
    (fun prev next : ContractSnapshot => classifyChange prev.fields next.fields)
    ContractSnapshot.version fun _ n_le _ _ _ first second =>
      classifyChange_composes n_le first second

theorem semanticErrors_composes :
    Composes fun prev next : ContractSnapshot =>
      prev.semanticErrors digitValue contractId next = [] :=
  passes_composes digitValue contractId "semantic metadata"
    (fun prev next : ContractSnapshot =>
      classifySemanticMetadataChange prev.semantic next.semantic)
    (fun snapshot => snapshot.semantic.mappingVersion) fun _ n_le _ _ _ first second =>
      classifySemanticMetadataChange_composes n_le first second

/-- A reviewed history of mapped contracts passes for every pair of its snapshots. -/
theorem pairwiseHistoryErrors_pairs {history : List ContractSnapshot}
    (mapped : ∀ snapshot ∈ history, snapshot.semanticMetadata.isSome)
    (reviewed : pairwiseHistoryErrors digitValue contractId history = []) :
    history.Pairwise fun prev next => prev.stepErrors digitValue contractId next = [] := by
  have adjacent : ∀ step ∈ history.zip history.tail,
      step.1.schemaErrors digitValue contractId step.2 = [] ∧
        step.1.semanticErrors digitValue contractId step.2 = [] := by
    intro step member
    have quiet := List.flatMap_eq_nil_iff.mp reviewed step member
    have first := mapped step.1 (List.of_mem_zip member).1
    have second := mapped step.2 (List.mem_of_mem_tail (List.of_mem_zip member).2)
    rw [stepErrors, List.append_eq_nil_iff, if_pos ⟨first, second⟩] at quiet
    exact quiet
  have schema := pairwise_of_neighbours (@schemaErrors_composes digitValue contractId)
    fun step member => (adjacent step member).1
  have semantic := pairwise_of_neighbours (@semanticErrors_composes digitValue contractId)
    fun step member => (adjacent step member).2
  refine (schema.and semantic).imp fun {prev next} quiet => ?_
  rw [stepErrors, List.append_eq_nil_iff, ite_eq_right_iff]
  exact ⟨quiet.1, fun _ => quiet.2⟩

/-- If every adjacent pair of a history passes the version policy, every pair does, for the
physical schema and for the semantic metadata. -/
theorem upgrade_paths_compose (history : List ContractSnapshot) :
    ((∀ step ∈ history.zip history.tail, step.1.schemaErrors digitValue contractId step.2 = []) →
      history.Pairwise fun prev next => prev.schemaErrors digitValue contractId next = []) ∧
    ((∀ step ∈ history.zip history.tail,
        step.1.semanticErrors digitValue contractId step.2 = []) →
      history.Pairwise fun prev next => prev.semanticErrors digitValue contractId next = []) :=
  ⟨pairwise_of_neighbours (@schemaErrors_composes digitValue contractId),
    pairwise_of_neighbours (@semanticErrors_composes digitValue contractId)⟩

/-- A field is added, then retyped; unit metadata comes and changes. -/
def ordersHistory : List ContractSnapshot :=
  let id : FieldSpec := { logicalType := "string", physicalType := "string", required := true }
  let area (type : String) : FieldSpec := { logicalType := "number", physicalType := type }
  let unit (text : String) : JsonObject Block :=
    (∅ : JsonObject Block).insert "field:area"
      (.object ((∅ : JsonObject MetaValue).insert "canonicalUnit" (.text text)))
  [ { version := "1.0.0", fields := Dict.empty.set "id" id, semanticMetadata := some {} },
    { version := "1.1.0", fields := (Dict.empty.set "id" id).set "area" (area "float"),
      semanticMetadata := some { mappingVersion := "1.1", blocks := unit "ha" } },
    { version := "2.0.0", fields := (Dict.empty.set "id" id).set "area" (area "double"),
      semanticMetadata := some { mappingVersion := "1.2", blocks := unit "m2" } } ]

theorem upgrade_paths_compose_orders :
    (ordersHistory.Pairwise fun prev next => prev.schemaErrors asciiDigit "orders" next = []) ∧
      ordersHistory.Pairwise fun prev next => prev.semanticErrors asciiDigit "orders" next = [] :=
  ⟨(upgrade_paths_compose asciiDigit "orders" ordersHistory).1 (by decide +kernel),
    (upgrade_paths_compose asciiDigit "orders" ordersHistory).2 (by decide +kernel)⟩

end ContractSnapshot

end FlOp.Contracts
