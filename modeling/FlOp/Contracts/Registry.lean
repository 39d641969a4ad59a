import FlOp.Library.Dict
import FlOp.Library.Fallible
import FlOp.Stream.Broker

/-! # The contract registry

The registry holds an entry for every contract of its index. A reference resolves by key, by
`domain/id`, or by an id that a single entry has, and may ask for a version. The snapshot builder
resolves every key and takes the contracts of the active domains that feed a snapshot.
-/

namespace FlOp.Contracts

open Library
open FlOp.Stream (Json)

/-- The value is a given text. -/
def isText (value : Json) (text : String) : Bool :=
  match value with
  | .text t => t = text
  | _ => false

/-- `first or second`. -/
def orJson (first second : Json) : Json := if first.truthy then first else second

/-- Lists and mappings are not hashable. -/
def hashable : Json → Bool
  | .array _ | .object _ => false
  | _ => true

/-- A pair that `dict` takes from a list of pairs. -/
def pairOf : Json → Option (Json × Json)
  | .array [key, value] => if hashable key then some (key, value) else none
  | .text text =>
    match text.toList with
    | [first, second] => some (.text (String.ofList [first]), .text (String.ofList [second]))
    | _ => none
  | .object [first, second] => some (.text first.1, .text second.1)
  | _ => none

/-- `dict(value or {}).get(key)`; `none` when it raises. -/
def dictGet (value : Json) (key : String) : Option Json :=
  if value.truthy then
    match value with
    | .object fields => some (Json.get fields key .null)
    | .array items => (items.mapM pairOf).map fun pairs =>
      ((pairs.reverse.find? fun pair => isText pair.1 key).map Prod.snd).getD .null
    | _ => none
  else some .null

/-- A contract of the index. -/
structure ContractEntry where
  localId : Json
  odcsRef : Json
  mappingRef : Json
  domain : Json
  artifactId : Json

/-- `ContractEntry(contract_id, spec)`; `none` when it raises. -/
def ContractEntry.ofSpec (contractId : String) : Json → Option ContractEntry
  | .object fields => do
    let artifactId ← dictGet (Json.get fields "artifact" .null) "id"
    let _ ← dictGet (Json.get fields "fingerprints" .null) ""
    return {
      localId := orJson (orJson (Json.get fields "id" .null) (Json.get fields "contractId" .null))
        (.text contractId)
      odcsRef := Json.get fields "odcs" .null
      mappingRef := Json.get fields "mapping" .null
      domain := Json.get fields "domain" .null
      artifactId := artifactId }
  | _ => none

/-- What is read of a mapping document. -/
structure MappingInfo where
  mappingVersion : String
  canonicalEntity : String

/-- The documents below the registry's root, and `str`; loading is `none` where it raises. -/
structure RegistryFiles where
  odcsVersion : String → Option String
  loadMapping : String → Option MappingInfo
  str : Json → String
  /-- How deep calls may nest. -/
  recursionLimit : ℕ

/-- The entries of a registry, in the order of the index. -/
abbrev Entries := List (String × ContractEntry)

/-- The artifact identity that references are compared with. -/
structure ContractArtifact where
  artifactId : Json
  version : String

/-- Entities that feed a snapshot. -/
def snapshotInputEntities : List String :=
  ["asset", "location", "task", "forecast", "observation", "commitment", "travel-link", "cost-rate"]

/-- `_split_versioned_ref`: cut at the last `@`; an empty version is none. -/
def splitVersionedRef (contractId : String) : String × Option String :=
  let letters := contractId.toList
  if '@' ∈ letters then
    let version := (letters.reverse.takeWhile fun c => c ≠ '@').reverse
    let base := letters.take (letters.length - version.length - 1)
    (String.ofList base, if version = [] then none else some (String.ofList version))
  else (contractId, none)

/-- `base.split("/", 1)`. -/
def splitQualified (base : String) : String × String :=
  let head := base.toList.takeWhile fun c => c ≠ '/'
  (String.ofList head, String.ofList (base.toList.drop (head.length + 1)))

namespace RegistryFiles

variable (files : RegistryFiles)

/-- A document is loaded only where a reference is given, and a reference is a text. -/
def loadRef {α : Type} (load : String → Option α) (ref : Json) : Option (Option α) :=
  if ref.truthy then
    match ref with
    | .text path => (load path).map some
    | _ => none
  else some none

/-- `_contract_artifact_for_resolved`. -/
def artifact (entry : ContractEntry) : Option ContractArtifact := do
  let contractVersion ← loadRef files.odcsVersion entry.odcsRef
  let mapping ← loadRef files.loadMapping entry.mappingRef
  let shown := fun version : String => if version = "" then "-" else version
  return {
    artifactId := orJson entry.artifactId
      (if entry.domain.truthy then .text s!"{files.str entry.domain}/{files.str entry.localId}"
        else entry.localId)
    version := "odcs:" ++ shown (contractVersion.getD "") ++ "+mapping:" ++
      shown ((mapping.map MappingInfo.mappingVersion).getD "") }

/-- An entry that a qualified reference means. -/
def isQualified (base : String) (entry : String × ContractEntry) : Option Bool :=
  let parts := splitQualified base
  if isText entry.2.domain parts.1 && isText entry.2.localId parts.2 then some true
  else (files.artifact entry.2).map fun artifact => isText artifact.artifactId base

/-- `resolve_contract_id` without a domain; `none` when it raises. -/
def resolve (entries : Entries) : ℕ → String → Option String
  | 0, _ => none
  | depth + 1, contractId =>
    let ref := splitVersionedRef contractId
    let check := fun key : String =>
      match ref.2 with
      | none => some key
      | some version => do
        let own ← resolve entries depth key
        let entry ← entries.lookup own
        let artifact ← files.artifact entry
        if artifact.version = version then some key else none
    if '/' ∈ ref.1.toList then
      match Fallible.selectM (files.isQualified ref.1) entries with
      | some [one] => check one.1
      | _ => none
    else if (entries.lookup ref.1).isSome then check ref.1
    else
      match entries.filter fun entry => isText entry.2.localId ref.1 with
      | [one] => check one.1
      | _ => none

/-- `get_entry`. -/
def getEntry (entries : Entries) (contractId : String) : Option ContractEntry :=
  (files.resolve entries (files.recursionLimit + 1) contractId).bind fun key => entries.lookup key

/-- `entry.domain in active`; `none` when the domain is not hashable. -/
def isActive (active : List String) (domain : Json) : Option Bool :=
  if active.isEmpty then some true
  else if hashable domain then some (active.any fun name => isText domain name)
  else none

/-- Whether the builder maps a contract; `none` when it raises. -/
def isMapped (entries : Entries) (active : List String) (contractId : String) : Option Bool := do
  let entry ← files.getEntry entries contractId
  if ← isActive active entry.domain then
    let mapping ← loadRef files.loadMapping entry.mappingRef
    return mapping.any fun info => info.canonicalEntity ∈ snapshotInputEntities
  else return false

/-- `mapped_contract_ids`. -/
def mappedContractIds (entries : Entries) (active : List String) : Option (List String) :=
  Fallible.selectM (files.isMapped entries active) (entries.map Prod.fst)

end RegistryFiles

/-- The contracts that declare a domain. -/
def domainContracts (entries : Entries) (domain : String) : List String :=
  (entries.filter fun entry => isText entry.2.domain domain).map Prod.fst

/-- A key without the separators of versions and domains. -/
def plainKey (key : String) : Bool := '@' ∉ key.toList ∧ '/' ∉ key.toList

/-- A plain key resolves to itself. -/
theorem RegistryFiles.getEntry_plain (files : RegistryFiles) {entries : Entries} {key : String}
    (plain : plainKey key = true) {entry : ContractEntry}
    (present : entries.lookup key = some entry) : files.getEntry entries key = some entry := by
  obtain ⟨unversioned, unqualified⟩ := of_decide_eq_true plain
  have whole : splitVersionedRef key = (key, none) := if_neg unversioned
  rw [getEntry, resolve, whole]
  simp only [unqualified, if_false, present, Option.isSome_some, if_true]
  exact present

end FlOp.Contracts
