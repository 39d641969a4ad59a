import FlOp.Contracts.PluginMerge
import FlOp.Core.Text
import FlOp.Library.Groups
import FlOp.Library.Listing

/-! # References to contracts

A profile names its input contracts by key, by an id within its own domain, or by a versioned
artifact reference. Packs that are merged into the registry can make a reference ambiguous; they
can take one over only if it is not qualified.
-/

namespace FlOp.Contracts

open FlOp.Core Library
open FlOp.Stream (Json)

namespace RegistryFiles

variable (files : RegistryFiles)

/-- `_check_requested_artifact_version`. -/
def checkVersion (entries : Entries) (depth : ℕ) (version : Option String) (key : String) :
    Option String :=
  match version with
  | none => some key
  | some version => do
    let own ← files.resolve entries depth key
    let entry ← entries.lookup own
    let artifact ← files.artifact entry
    if artifact.version = version then some key else none

/-- The contract has an id in the domain asked for, if one is. -/
def inDomain (domain : Option String) (base : String) (entry : String × ContractEntry) : Bool :=
  domain.any (isText entry.2.domain ·) && isText entry.2.localId base

/-- The only match; otherwise the reference is unknown or ambiguous. -/
def theOne (check : String → Option String) : List (String × ContractEntry) → Option String
  | [one] => check one.1
  | _ => none

/-- A reference across all domains: a key, or the local id of one contract. -/
def resolveGlobal (entries : Entries) (base : String) (check : String → Option String) :
    Option String :=
  if (entries.lookup base).isSome then check base
  else theOne check (entries.filter fun entry => isText entry.2.localId base)

/-- The contract that a reference means without its version, once that is checked. -/
def resolveBase (entries : Entries) (domain : Option String) (base : String)
    (check : String → Option String) : Option String :=
  if '/' ∈ base.toList then
    (Fallible.selectM (files.isQualified base) entries).bind (theOne check)
  else if entries.filter (inDomain domain base) = [] then resolveGlobal entries base check
  else theOne check (entries.filter (inDomain domain base))

/-- `resolve_contract_id`; `none` when it raises. -/
def resolveContractId (entries : Entries) (domain : Option String) (depth : ℕ)
    (contractId : String) : Option String :=
  let ref := splitVersionedRef contractId
  files.resolveBase entries domain ref.1 (files.checkVersion entries depth ref.2)

/-- Without a domain this is how keys are resolved everywhere else. -/
theorem resolve_succ (entries : Entries) (depth : ℕ) (contractId : String) :
    files.resolve entries (depth + 1) contractId =
      files.resolveContractId entries none depth contractId := by
  have undomained : entries.filter (inDomain none (splitVersionedRef contractId).1) = [] :=
    List.filter_eq_nil_iff.mpr fun entry _ => by simp [inDomain]
  rw [resolveContractId, resolveBase, if_pos undomained, resolve, resolveGlobal]
  dsimp only
  split_ifs
  · cases Fallible.selectM (files.isQualified (splitVersionedRef contractId).1) entries with
    | none => rfl
    | some selected => rcases selected with _ | ⟨one, _ | ⟨_, _⟩⟩ <;> rfl
  · rfl
  · rcases entries.filter fun entry => isText entry.2.localId (splitVersionedRef contractId).1 with
      _ | ⟨one, _ | ⟨_, _⟩⟩ <;> rfl

theorem checkVersion_eq_some {entries : Entries} {depth : ℕ} {version : Option String}
    {key found : String} (checked : files.checkVersion entries depth version key = some found) :
    found = key := by
  cases version with
  | none => exact (Option.some.inj checked).symm
  | some version =>
    obtain ⟨_, -, checked⟩ := Option.bind_eq_some_iff.mp checked
    obtain ⟨_, -, checked⟩ := Option.bind_eq_some_iff.mp checked
    obtain ⟨_, -, checked⟩ := Option.bind_eq_some_iff.mp checked
    exact (Option.some.inj (Option.ite_none_right_eq_some.mp checked).2).symm

/-- A plain key that is there resolves to itself. -/
theorem resolve_plain {entries : Entries} {key : String} (plain : plainKey key = true)
    (present : (entries.lookup key).isSome) (depth : ℕ) :
    files.resolve entries (depth + 1) key = some key := by
  obtain ⟨unversioned, unqualified⟩ := of_decide_eq_true plain
  have whole : splitVersionedRef key = (key, none) := if_neg unversioned
  rw [resolve, whole]
  simp only [unqualified, if_false, present, if_true]

/-- Looking up the version of a plain key does not depend on further entries. -/
theorem checkVersion_append {own added : Entries} {key : String} (plain : plainKey key = true)
    (present : (own.lookup key).isSome) (depth : ℕ) (version : Option String) :
    files.checkVersion (own ++ added) depth version key =
      files.checkVersion own depth version key := by
  obtain ⟨entry, found⟩ := Option.isSome_iff_exists.mp present
  have kept : (own ++ added).lookup key = some entry := by
    rw [List.lookup_append, found, Option.some_or]
  cases version with
  | none => rfl
  | some version =>
    cases depth with
    | zero => rfl
    | succ depth =>
      rw [checkVersion, checkVersion, files.resolve_plain plain present,
        files.resolve_plain plain (by rw [kept]; rfl)]
      simp only [Option.bind_eq_bind, Option.bind_some, kept, found]

theorem lookup_isSome_iff {entries : Entries} {key : String} :
    (entries.lookup key).isSome ↔ ∃ entry ∈ entries, entry.1 = key := by
  rw [List.lookup_isSome_iff]
  exact exists_congr fun entry => and_congr_right fun _ => by rw [beq_iff_eq, eq_comm]

theorem theOne_eq_some_iff {check : String → Option String} {selected : Entries} {key : String} :
    theOne check selected = some key ↔ ∃ one, selected = [one] ∧ check one.1 = some key := by
  match selected with
  | [] => simp [theOne]
  | [one] => simp [theOne]
  | _ :: _ :: _ => simp [theOne]

theorem exists_of_theOne {entries selected whole : Entries} (inside : selected ⊆ entries)
    {depth : ℕ} {version : Option String} {key : String}
    (found : theOne (files.checkVersion whole depth version) selected = some key) :
    ∃ entry ∈ entries, entry.1 = key := by
  obtain ⟨one, rfl, checked⟩ := theOne_eq_some_iff.mp found
  exact ⟨one, inside List.mem_cons_self, (files.checkVersion_eq_some checked).symm⟩

/-- What a reference resolves to is a key of the registry. -/
theorem exists_of_resolveBase {entries : Entries} {domain : Option String} {base key : String}
    {depth : ℕ} {version : Option String} (resolved : files.resolveBase entries domain base
      (files.checkVersion entries depth version) = some key) :
    ∃ entry ∈ entries, entry.1 = key := by
  rw [resolveBase, resolveGlobal] at resolved
  split_ifs at resolved with slash held known
  · obtain ⟨selected, chosen, found⟩ := Option.bind_eq_some_iff.mp resolved
    exact files.exists_of_theOne (Fallible.sublist_of_selectM chosen).subset found
  · rw [files.checkVersion_eq_some resolved]
    exact lookup_isSome_iff.mp known
  · exact files.exists_of_theOne (List.filter_subset_self entries) resolved
  · exact files.exists_of_theOne (List.filter_subset_self entries) resolved

/-! ## References under further entries -/

/-- A further entry that stands between a reference and the contract it had: another match of a
qualified reference, another contract of the domain asked for, or, where the reference is no key and
the domain has no such contract, one of the same key or local id. -/
def Disturbs (own : Entries) (domain : Option String) (base : String)
    (entry : String × ContractEntry) : Prop :=
  if '/' ∈ base.toList then files.isQualified base entry ≠ some false
  else inDomain domain base entry = true ∨
    own.filter (inDomain domain base) = [] ∧ own.lookup base = none ∧
      (entry.1 = base ∨ isText entry.2.localId base = true)

/-- With further matches a reference is ambiguous. -/
theorem theOne_append {check : String → Option String} {selected : Entries} {key : String}
    (found : theOne check selected = some key) (more : Entries) :
    theOne check (selected ++ more) = if more = [] then some key else none := by
  obtain ⟨one, rfl, checked⟩ := theOne_eq_some_iff.mp found
  match more with
  | [] => exact found
  | _ :: _ => rfl

variable {own added : Entries}

/-- What a reference that had a contract becomes with further entries: it keeps its contract where
none of them disturbs it, and otherwise it fails, or an unqualified one goes to a new entry. -/
def Kept (added : Entries) (key : String) (qualified : Prop)
    (disturbs : String × ContractEntry → Prop) (later : Option String) : Prop :=
  (∀ entry ∈ added, ¬ disturbs entry) ∧ later = some key ∨
    (∃ entry ∈ added, disturbs entry) ∧
      (later = none ∨ ¬ qualified ∧ ∃ entry ∈ added, later = some entry.1)

theorem Kept.congr {key : String} {qualified other : Prop}
    {disturbs disturbing : String × ContractEntry → Prop} {later : Option String}
    (kept : Kept added key qualified disturbs later) (weaker : other → qualified)
    (same : ∀ entry ∈ added, disturbs entry ↔ disturbing entry) :
    Kept added key other disturbing later := by
  rcases kept with ⟨free, held⟩ | ⟨⟨entry, listed, disturbed⟩, lost⟩
  · exact .inl ⟨fun entry listed => mt (same entry listed).mpr (free entry listed), held⟩
  · exact .inr ⟨⟨entry, listed, (same entry listed).mp disturbed⟩,
      lost.imp_right (And.imp_left (mt weaker))⟩

/-- The new entries that match decide whether a single match stays one. -/
theorem kept_theOne_append {check : String → Option String} {selected : Entries} {key : String}
    (found : theOne check selected = some key) (matched : String × ContractEntry → Bool)
    (qualified : Prop) : Kept added key qualified (matched · = true)
      (theOne check (selected ++ added.filter matched)) := by
  rw [theOne_append found]
  split_ifs with none
  · exact .inl ⟨List.filter_eq_nil_iff.mp none, rfl⟩
  · obtain ⟨entry, member⟩ := List.exists_mem_of_ne_nil _ none
    obtain ⟨listed, matching⟩ := List.mem_filter.mp member
    exact .inr ⟨⟨entry, listed, matching⟩, .inl rfl⟩

/-- What only new entries match goes to one of them, or fails. -/
theorem kept_theOne_added {depth : ℕ} {version : Option String} {entries : Entries}
    {matched : String × ContractEntry → Bool} {key : String}
    {disturbs : String × ContractEntry → Prop} (matching : added.filter matched ≠ [])
    (disturbing : ∀ entry ∈ added, matched entry = true → disturbs entry) :
    Kept added key False disturbs
      (theOne (files.checkVersion entries depth version) (added.filter matched)) := by
  obtain ⟨entry, member⟩ := List.exists_mem_of_ne_nil _ matching
  obtain ⟨listed, agrees⟩ := List.mem_filter.mp member
  refine .inr ⟨⟨entry, listed, disturbing entry listed agrees⟩, ?_⟩
  cases found : theOne (files.checkVersion entries depth version) (added.filter matched) with
  | none => exact .inl rfl
  | some other =>
    obtain ⟨one, further, rfl⟩ := files.exists_of_theOne (List.filter_subset_self added) found
    exact .inr ⟨not_false, one, further, rfl⟩

section Further

variable (plain : ∀ entry ∈ own, plainKey entry.1 = true)
include plain

/-- The only match among the own entries checks as before. -/
theorem theOne_own (added : Entries) {selected : Entries} (inside : selected ⊆ own) {depth : ℕ}
    {version : Option String} {key : String}
    (found : theOne (files.checkVersion own depth version) selected = some key) :
    theOne (files.checkVersion (own ++ added) depth version) selected = some key := by
  obtain ⟨one, rfl, checked⟩ := theOne_eq_some_iff.mp found
  have listed := inside List.mem_cons_self
  exact (files.checkVersion_append (plain one listed) (lookup_isSome_iff.mpr ⟨one, listed, rfl⟩)
    depth version).trans checked

/-- A key of the own entries means its contract, whatever is added. -/
theorem kept_resolveGlobal {base key : String} {depth : ℕ} {version : Option String}
    (resolved : resolveGlobal own base (files.checkVersion own depth version) = some key) :
    Kept added key False
      (fun entry => own.lookup base = none ∧ (entry.1 = base ∨ isText entry.2.localId base = true))
      (resolveGlobal (own ++ added) base (files.checkVersion (own ++ added) depth version)) := by
  rw [resolveGlobal] at resolved ⊢
  by_cases known : (own.lookup base).isSome
  · obtain ⟨entry, listed, rfl⟩ := lookup_isSome_iff.mp known
    have knownToo : ((own ++ added).lookup entry.1).isSome := by
      rw [List.lookup_append, Option.isSome_or, known, Bool.true_or]
    rw [if_pos known] at resolved
    rw [if_pos knownToo, files.checkVersion_append (plain entry listed) known]
    refine .inl ⟨fun other _ disturbed => ?_, resolved⟩
    rw [disturbed.1] at known
    cases known
  have unknown := Option.not_isSome_iff_eq_none.mp known
  rw [if_neg known] at resolved
  rw [List.lookup_append, unknown, Option.none_or]
  by_cases taken : (added.lookup base).isSome
  · obtain ⟨entry, listed, rfl⟩ := lookup_isSome_iff.mp taken
    rw [if_pos taken]
    refine .inr ⟨⟨entry, listed, rfl, .inl rfl⟩, ?_⟩
    cases checked : files.checkVersion (own ++ added) depth version entry.1 with
    | none => exact .inl rfl
    | some other =>
      obtain rfl := files.checkVersion_eq_some checked
      exact .inr ⟨not_false, entry, listed, rfl⟩
  · rw [if_neg taken, List.filter_append]
    refine (kept_theOne_append (theOne_own files plain added (List.filter_subset_self own) resolved)
      _ False).congr id fun entry listed => ?_
    have other : entry.1 ≠ base := fun same =>
      taken (lookup_isSome_iff.mpr ⟨entry, listed, same⟩)
    simp only [true_and, other, false_or]

theorem kept_resolveBase (added : Entries) {domain : Option String} {base key : String} {depth : ℕ}
    {version : Option String} (resolved : files.resolveBase own domain base
      (files.checkVersion own depth version) = some key) :
    Kept added key ('/' ∈ base.toList) (files.Disturbs own domain base)
      (files.resolveBase (own ++ added) domain base
        (files.checkVersion (own ++ added) depth version)) := by
  rw [resolveBase] at resolved ⊢
  by_cases slash : '/' ∈ base.toList
  · simp only [slash, if_true] at resolved ⊢
    obtain ⟨selected, chosen, found⟩ := Option.bind_eq_some_iff.mp resolved
    have kept := theOne_own files plain added
      (Fallible.sublist_of_selectM chosen).subset found
    have free : Fallible.selectM (files.isQualified base) added = some [] ↔
        ∀ entry ∈ added, files.isQualified base entry = some false :=
      Fallible.selectM_append_eq_iff
        (show Fallible.selectM (files.isQualified base) [] = some [] from rfl)
    have disturbed : Fallible.selectM (files.isQualified base) added ≠ some [] →
        ∃ entry ∈ added, files.isQualified base entry ≠ some false := by
      intro matched
      by_contra! none
      exact matched (free.mpr none)
    rw [Fallible.selectM_append, chosen, Option.bind_some]
    simp only [Kept, Disturbs, slash, if_true, not_not, ← free]
    cases more : Fallible.selectM (files.isQualified base) added with
    | none => exact .inr ⟨disturbed (by simp [more]), .inl rfl⟩
    | some others =>
      rw [Option.map_some, Option.bind_some, theOne_append kept]
      split_ifs with none
      · exact .inl ⟨congrArg some none, rfl⟩
      · refine .inr ⟨disturbed (by rw [more]; exact fun same => none (Option.some.inj same)), ?_⟩
        exact .inl rfl
  have disturbs (entry : String × ContractEntry) : inDomain domain base entry = true ∨
      own.filter (inDomain domain base) = [] ∧ own.lookup base = none ∧
        (entry.1 = base ∨ isText entry.2.localId base = true) ↔
      files.Disturbs own domain base entry := by
    rw [Disturbs, if_neg slash]
  simp only [slash, if_false, List.filter_append, List.append_eq_nil_iff] at resolved ⊢
  by_cases held : own.filter (inDomain domain base) = []
  · simp only [held, if_true, true_and, List.nil_append] at resolved ⊢ disturbs
    split_ifs with theirs
    · refine (files.kept_resolveGlobal plain resolved).congr id fun entry listed => ?_
      have apart := List.filter_eq_nil_iff.mp theirs entry listed
      rw [← disturbs, or_iff_right apart]
    · exact files.kept_theOne_added theirs fun entry _ ours => (disturbs entry).mp (.inl ours)
  · simp only [held, if_false, false_and, or_false] at resolved ⊢ disturbs
    have kept := theOne_own files plain added (List.filter_subset_self own) resolved
    exact (kept_theOne_append kept _ False).congr id fun entry _ => disturbs entry

end Further

end RegistryFiles

/-! ## References under domain packs -/

/-- The entries of a registry with packs are its own ones and then theirs, under new keys. -/
theorem exists_added_of_fileRegistry {index : RegistryIndex} {packs : List DomainPackContribution}
    {own entries : Entries} (built : buildEntries index.contracts.items.entries = some own)
    (loaded : fileRegistry index packs = some entries) :
    ∃ added, buildEntries (pluginContracts index packs) = some added ∧ entries = own ++ added ∧
      ∀ entry ∈ added, ∀ held ∈ own, entry.1 ≠ held.1 := by
  obtain ⟨live, merged, made⟩ := Option.bind_eq_some_iff.mp loaded
  have ends : (mergeContributions index packs).isSome := by
    rw [liveIndex] at merged
    split_ifs at merged with bare
    · rw [List.isEmpty_iff.mp bare]
      rfl
    · obtain ⟨state, run, -⟩ := Option.map_eq_some_iff.mp merged
      rw [run]
      rfl
  rw [fileRegistry_eq built ends] at loaded
  obtain ⟨added, contributed, rfl⟩ := Option.map_eq_some_iff.mp loaded
  refine ⟨added, contributed, rfl, fun entry further held ours same => ?_⟩
  have distinct : ((own ++ added).map Prod.fst).Nodup := by
    rw [keys_of_buildEntries made]
    exact live.contracts.items.nodupKeys
  rw [List.map_append, List.nodup_append] at distinct
  exact distinct.2.2 _ (List.mem_map_of_mem ours) _ (List.mem_map_of_mem further) same.symm

/-- With packs, a reference keeps its contract exactly if none of their contracts stands in between;
otherwise it fails, and only one that is not qualified can come to mean a contract of a pack. -/
theorem references_under_packs (files : RegistryFiles) {index : RegistryIndex}
    {packs : List DomainPackContribution} {own entries : Entries}
    (built : buildEntries index.contracts.items.entries = some own)
    (plain : ∀ key ∈ index.contracts.items.keys, plainKey key = true)
    (loaded : fileRegistry index packs = some entries) {domain : Option String} {depth : ℕ}
    {contractId key : String}
    (resolved : files.resolveContractId own domain depth contractId = some key) :
    ∃ added, buildEntries (pluginContracts index packs) = some added ∧ entries = own ++ added ∧
      (files.resolveContractId entries domain depth contractId = some key ↔
        ∀ entry ∈ added, ¬ files.Disturbs own domain (splitVersionedRef contractId).1 entry) ∧
      ∀ other, files.resolveContractId entries domain depth contractId = some other → other ≠ key →
        '/' ∉ (splitVersionedRef contractId).1.toList ∧ ∃ entry ∈ added, entry.1 = other := by
  obtain ⟨added, contributed, rfl, fresh⟩ := exists_added_of_fileRegistry built loaded
  have keys : ∀ entry ∈ own, plainKey entry.1 = true := by
    intro entry listed
    refine plain _ ?_
    rw [Dict.keys, ← keys_of_buildEntries built]
    exact List.mem_map_of_mem listed
  obtain ⟨held, ours, rfl⟩ := files.exists_of_resolveBase resolved
  have kept := files.kept_resolveBase keys added resolved
  refine ⟨added, contributed, rfl, ?_, ?_⟩
  · rcases kept with ⟨free, same⟩ | ⟨⟨entry, listed, disturbed⟩, lost⟩
    · exact iff_of_true same free
    · refine iff_of_false (fun same => ?_) fun free => free entry listed disturbed
      rcases lost with failed | ⟨-, other, further, moved⟩
      · exact absurd (failed.symm.trans same) (by simp)
      · exact fresh other further held ours (Option.some.inj (moved.symm.trans same))
  · intro other moved differs
    rcases kept with ⟨-, same⟩ | ⟨-, failed | ⟨unqualified, entry, further, same⟩⟩
    · exact absurd (Option.some.inj (moved.symm.trans same)) differs
    · exact absurd (failed.symm.trans moved) (by simp)
    · exact ⟨unqualified, entry, further, Option.some.inj (same.symm.trans moved)⟩

/-- The contract that a pack adds to the agricultural domain, as an entry. -/
def intrudingEntry : String × ContractEntry :=
  ("weather-orders", { orderEntry with localId := .text "weather-orders" })

theorem orders_under_intrudingPack :
    ∃ added, buildEntries (pluginContracts agriculturalIndex [intrudingPack]) = some added ∧
      [("orders", orderEntry), intrudingEntry] = [("orders", orderEntry)] ++ added ∧
      (noFiles.resolveContractId [("orders", orderEntry), intrudingEntry] (some "agricultural") 1
          "orders" = some "orders" ↔
        ∀ entry ∈ added, ¬ noFiles.Disturbs [("orders", orderEntry)] (some "agricultural")
          (splitVersionedRef "orders").1 entry) ∧
      ∀ other, noFiles.resolveContractId [("orders", orderEntry), intrudingEntry]
          (some "agricultural") 1 "orders" = some other → other ≠ "orders" →
        '/' ∉ (splitVersionedRef "orders").1.toList ∧ ∃ entry ∈ added, entry.1 = other :=
  references_under_packs noFiles (show buildEntries agriculturalIndex.contracts.items.entries =
      some [("orders", orderEntry)] from rfl) (by decide)
    (show fileRegistry agriculturalIndex [intrudingPack] =
      some [("orders", orderEntry), intrudingEntry] from rfl) (by decide)

/-! ## Artifact references -/

/-- The number that a value counts as among dictionary keys. -/
def asNumber : Json → Option ℚ
  | .boolean value => some (if value then 1 else 0)
  | .number value _ => some value
  | _ => none

/-- Two values are one dictionary key. -/
def sameKey : Json → Json → Bool
  | .null, .null => true
  | .text a, .text b => a = b
  | a, b => (asNumber a).isSome && asNumber a = asNumber b

/-- What the validation has found, and which contract last had a reference or an artifact id. -/
structure ArtifactCheck where
  errors : List String := []
  byRef : Dict String String := .empty
  byUnversioned : List (Json × String) := []

/-- The contract that had an artifact id last. -/
def ArtifactCheck.priorUnversioned (state : ArtifactCheck) (artifactId : Json) : Option String :=
  (state.byUnversioned.find? fun record => sameKey artifactId record.1).map Prod.snd

/-- An earlier contract, and another one. -/
def isOther (contractId prior : String) : Bool := prior ≠ "" && prior ≠ contractId

namespace RegistryFiles

variable (files : RegistryFiles)

/-- `artifact_id@version`. -/
def ref (artifact : ContractArtifact) : String :=
  files.str artifact.artifactId ++ "@" ++ artifact.version

/-- The artifact id of a domain contract is qualified by its domain; `none` when it is no text. -/
def unqualifiedErrors (contractId : String) (entry : ContractEntry) (artifactId : Json) :
    Option (List String) :=
  if entry.domain.truthy then
    match artifactId with
    | .text id =>
      some (if startsWith (files.str entry.domain ++ "/") id then [] else
        [s!"{contractId}: artifact id '{id}' must be domain-qualified as " ++
          s!"'{files.str entry.domain}/...'"])
    | _ => none
  else some []

/-- One contract of the loop; `none` when it raises. -/
def checkArtifact (entries : Entries) (state : ArtifactCheck) (contractId : String) :
    Option ArtifactCheck := do
  let entry ← files.getEntry entries contractId
  let artifact ← files.artifact entry
  let contractVersion ← loadRef files.odcsVersion entry.odcsRef
  let mapping ← loadRef files.loadMapping entry.mappingRef
  let unqualified ← files.unqualifiedErrors contractId entry artifact.artifactId
  let reference := files.ref artifact
  let shown := files.str artifact.artifactId
  let missing :=
    (if entry.domain.truthy ∧ !entry.localId.truthy then
      [s!"{contractId}: domain contract is missing a local id"] else []) ++
    (if entry.odcsRef.truthy ∧ contractVersion.getD "" = "" then
      [s!"{contractId}: artifact is missing an ODCS version"] else []) ++
    if entry.mappingRef.truthy ∧ (mapping.map MappingInfo.mappingVersion).getD "" = "" then
      [s!"{contractId}: artifact is missing a mapping version"] else []
  let duplicate := ((state.byRef.get? reference).filter (isOther contractId)).toList.map
    fun prior => s!"{contractId}: artifact ref '{reference}' duplicates {prior}"
  let duplicateId :=
    ((state.priorUnversioned artifact.artifactId).filter (isOther contractId)).toList.map
      fun prior => s!"{contractId}: artifact id '{shown}' duplicates {prior}; versioned " ++
        "registry refs must be stable per contract artifact"
  if hashable artifact.artifactId then
    return {
      errors := state.errors ++ (missing ++ unqualified ++ duplicate ++ duplicateId)
      byRef := state.byRef.set reference contractId
      byUnversioned := (artifact.artifactId, contractId) :: state.byUnversioned }
  else none

/-- `validate_registry_artifacts`; `none` when it raises. -/
def validateRegistryArtifacts (entries : Entries) : Option (List String) :=
  ((entries.map Prod.fst).foldlM (files.checkArtifact entries) {}).map ArtifactCheck.errors

/-- A contract that passed, with its entry and artifact: a domain contract has an artifact id
qualified by its domain, and it is the last one seen with its id. -/
structure Passed (state : ArtifactCheck) (key : String) (entry : ContractEntry)
    (artifact : ContractArtifact) : Prop where
  qualified : entry.domain.truthy = true → ∃ id, artifact.artifactId = .text id ∧
    startsWith (files.str entry.domain ++ "/") id = true
  last : ∀ id, artifact.artifactId = .text id → state.priorUnversioned (.text id) = some key

variable {files} {entries : Entries}

theorem sameKey_text_iff {id : String} {value : Json} :
    sameKey (.text id) value = true ↔ value = .text id := by
  cases value with
  | text other => simp [sameKey, eq_comm]
  | _ => simp [sameKey, asNumber]

/-- What one contract leaves: its own id is recorded for it, and every other id as before. -/
theorem priorUnversioned_cons {state : ArtifactCheck} {errors : List String}
    {byRef : Dict String String} {artifactId : Json} {contractId id : String} :
    ArtifactCheck.priorUnversioned
        { errors := errors, byRef := byRef
          byUnversioned := (artifactId, contractId) :: state.byUnversioned } (.text id) =
      if sameKey (.text id) artifactId then some contractId
      else state.priorUnversioned (.text id) := by
  rw [ArtifactCheck.priorUnversioned, List.find?_cons]
  cases sameKey (.text id) artifactId <;> rfl

theorem qualified_of_unqualifiedErrors {contractId : String} {entry : ContractEntry}
    {artifactId : Json}
    (qualifies : files.unqualifiedErrors contractId entry artifactId = some [])
    (domain : entry.domain.truthy = true) :
    ∃ id, artifactId = .text id ∧ startsWith (files.str entry.domain ++ "/") id = true := by
  cases artifactId with
  | text id =>
    refine ⟨id, rfl, ?_⟩
    rw [unqualifiedErrors, if_pos domain] at qualifies
    by_contra unqualified
    rw [if_neg unqualified] at qualifies
    cases qualifies
  | _ => simp [unqualifiedErrors, domain] at qualifies

/-- One contract that is found without fault passes, and the others stay passed. -/
theorem passed_of_checkArtifact {state next : ArtifactCheck} {contractId : String}
    (step : files.checkArtifact entries state contractId = some next) (clean : next.errors = []) :
    state.errors = [] ∧
      (∃ entry artifact, files.getEntry entries contractId = some entry ∧
        files.artifact entry = some artifact ∧ files.Passed next contractId entry artifact) ∧
      ∀ key entry artifact, key ≠ "" → key ≠ contractId → files.Passed state key entry artifact →
        files.Passed next key entry artifact := by
  obtain ⟨entry, found, step⟩ := Option.bind_eq_some_iff.mp step
  obtain ⟨artifact, made, step⟩ := Option.bind_eq_some_iff.mp step
  obtain ⟨contractVersion, -, step⟩ := Option.bind_eq_some_iff.mp step
  obtain ⟨mapping, -, step⟩ := Option.bind_eq_some_iff.mp step
  obtain ⟨unqualified, qualifies, step⟩ := Option.bind_eq_some_iff.mp step
  obtain ⟨-, step⟩ := Option.ite_none_right_eq_some.mp step
  obtain rfl := Option.some.inj step
  obtain ⟨before, rest⟩ := List.append_eq_nil_iff.mp clean
  obtain ⟨rest, unshared⟩ := List.append_eq_nil_iff.mp rest
  obtain ⟨rest, -⟩ := List.append_eq_nil_iff.mp rest
  obtain ⟨-, rfl⟩ := List.append_eq_nil_iff.mp rest
  refine ⟨before, ⟨entry, artifact, found, made, qualified_of_unqualifiedErrors qualifies,
    fun id named => ?_⟩, ?_⟩
  · rw [priorUnversioned_cons, if_pos (sameKey_text_iff.mpr named)]
  · intro key other its nonempty differs passed
    refine ⟨passed.qualified, fun id named => ?_⟩
    have held := passed.last id named
    rw [priorUnversioned_cons, if_neg, held]
    intro same
    rw [sameKey_text_iff.mp same, held, Option.filter_some, isOther] at unshared
    simp [nonempty, differs] at unshared

/-- Without a fault every contract passes, as no two of them share an artifact id. -/
theorem passed_of_foldlM {keys : List String} (nonempty : ∀ key ∈ keys, key ≠ "")
    (distinct : keys.Nodup) {state final : ArtifactCheck}
    (run : keys.foldlM (files.checkArtifact entries) state = some final)
    (clean : final.errors = []) :
    state.errors = [] ∧
      (∀ key ∈ keys, ∃ entry artifact, files.getEntry entries key = some entry ∧
        files.artifact entry = some artifact ∧ files.Passed final key entry artifact) ∧
      ∀ key entry artifact, key ≠ "" → key ∉ keys → files.Passed state key entry artifact →
        files.Passed final key entry artifact := by
  induction keys generalizing state with
  | nil =>
    obtain rfl := Option.some.inj run
    refine ⟨clean, fun key listed => ?_, fun _ _ _ _ _ passed => passed⟩
    cases listed
  | cons contractId rest ih =>
    obtain ⟨named, nonempty⟩ := List.forall_mem_cons.mp nonempty
    obtain ⟨fresh, distinct⟩ := List.nodup_cons.mp distinct
    rw [List.foldlM_cons] at run
    obtain ⟨next, step, run⟩ := Option.bind_eq_some_iff.mp run
    obtain ⟨unfaulted, later, kept⟩ := ih nonempty distinct run
    obtain ⟨before, ⟨entry, artifact, found, made, passed⟩, held⟩ :=
      passed_of_checkArtifact step unfaulted
    refine ⟨before, List.forall_mem_cons.mpr ⟨?_, later⟩, ?_⟩
    · exact ⟨entry, artifact, found, made, kept _ _ _ named fresh passed⟩
    · intro key other its present absent passed
      rw [List.mem_cons, not_or] at absent
      exact kept _ _ _ present absent.2 (held _ _ _ present absent.1 passed)

end RegistryFiles

/-- A versioned reference is cut where its version starts. -/
theorem splitVersionedRef_append {base version : String} (unmarked : '@' ∉ version.toList)
    (nonempty : version ≠ "") :
    splitVersionedRef (base ++ "@" ++ version) = (base, some version) := by
  have letters : (base ++ "@" ++ version).toList = base.toList ++ '@' :: version.toList := by
    simp [String.toList_append]
  have cut : (base.toList ++ '@' :: version.toList).reverse.takeWhile (fun c => c ≠ '@') =
      version.toList.reverse := by
    rw [List.reverse_append, List.reverse_cons, List.append_assoc,
      List.takeWhile_append_of_pos fun c listed => ?_]
    · simp
    · have member := List.mem_reverse.mp listed
      exact decide_eq_true fun same => unmarked (same ▸ member)
  have held : version.toList ≠ [] := fun empty => nonempty (String.toList_eq_nil_iff.mp empty)
  have length : (base.toList ++ '@' :: version.toList).length - version.toList.length - 1 =
      base.toList.length := by
    rw [List.length_append, List.length_cons]
    omega
  rw [splitVersionedRef, letters]
  simp only [cut, List.reverse_reverse, length, List.take_left', List.mem_append, List.mem_cons,
    true_or, or_true, if_true, held, if_false, String.ofList_toList]

/-- An entry has the domain and the local id that an artifact id says. -/
def isNamedBy (id : String) (entry : String × ContractEntry) : Bool :=
  isText entry.2.domain (splitQualified id).1 && isText entry.2.localId (splitQualified id).2

namespace RegistryFiles

variable {files : RegistryFiles} {entries : Entries}

theorem version_ne_empty {entry : ContractEntry} {artifact : ContractArtifact}
    (made : files.artifact entry = some artifact) : artifact.version ≠ "" := by
  obtain ⟨contractVersion, -, made⟩ := Option.bind_eq_some_iff.mp made
  obtain ⟨mapping, -, made⟩ := Option.bind_eq_some_iff.mp made
  obtain rfl := Option.some.inj made
  intro empty
  have letters := congrArg String.toList empty
  simp [String.toList_append] at letters

theorem lookup_of_mem (distinct : (entries.map Prod.fst).Nodup) {key : String}
    {entry : ContractEntry} (listed : (key, entry) ∈ entries) :
    entries.lookup key = some entry := by
  obtain ⟨before, after, rfl⟩ := List.append_of_mem listed
  rw [List.map_append, List.nodup_append] at distinct
  refine List.lookup_eq_some_iff.mpr ⟨before, after, rfl, fun other earlier => ?_⟩
  have differs := distinct.2.2 other.1 (List.mem_map_of_mem earlier) key List.mem_cons_self
  exact bne_iff_ne.mpr differs.symm

theorem isQualified_of_made {base : String} {entry : String × ContractEntry}
    {artifact : ContractArtifact} (made : files.artifact entry.2 = some artifact) :
    files.isQualified base entry =
      some (isNamedBy base entry || isText artifact.artifactId base) := by
  rw [isQualified, isNamedBy, made]
  split_ifs with named
  · rw [named, Bool.true_or]
  · rw [Bool.eq_false_iff.mpr named, Bool.false_or, Option.map_some]

section Valid

variable (distinct : (entries.map Prod.fst).Nodup)
  (plain : ∀ entry ∈ entries, entry.1 ≠ "" ∧ plainKey entry.1 = true)
include distinct plain

/-- In a valid registry every contract has an artifact and passes. -/
theorem passed_of_valid (valid : files.validateRegistryArtifacts entries = some []) :
    ∃ final, ∀ entry ∈ entries, ∃ artifact, files.artifact entry.2 = some artifact ∧
      files.Passed final entry.1 entry.2 artifact := by
  obtain ⟨final, run, clean⟩ := Option.map_eq_some_iff.mp valid
  have nonempty : ∀ key ∈ entries.map Prod.fst, key ≠ "" := by
    rw [List.forall_mem_map]
    exact fun entry listed => (plain entry listed).1
  obtain ⟨-, passed, -⟩ := passed_of_foldlM nonempty distinct run clean
  refine ⟨final, fun entry listed => ?_⟩
  obtain ⟨found, artifact, its, made, passes⟩ := passed _ (List.mem_map_of_mem listed)
  rw [files.getEntry_plain (plain entry listed).2 (lookup_of_mem distinct listed)] at its
  obtain rfl := Option.some.inj its
  exact ⟨artifact, made, passes⟩

end Valid

end RegistryFiles

/-- Two agricultural contracts. -/
def agriculturalEntries : Entries :=
  [("orders", orderEntry), ("crops", { orderEntry with localId := .text "fields" })]

/-- No documents at all, and texts that are shown as they are. -/
def plainFiles : RegistryFiles where
  odcsVersion := fun _ => none
  loadMapping := fun _ => none
  str
    | .text text => text
    | _ => ""
  recursionLimit := 2

end FlOp.Contracts
