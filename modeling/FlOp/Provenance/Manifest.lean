import FlOp.Core.Text
import FlOp.Library.Dict
import FlOp.Library.Fallible
import FlOp.Serving.ObjectStore
import FlOp.Stream.Broker
import Mathlib.Logic.Equiv.Basic

/-! # Artifact manifests

A manifest is a file written beside the artifacts of a run. It records a digest of every
artifact; verification reads it back and digests the files again.
-/

namespace FlOp.Provenance

open FlOp.Core Library
open FlOp.Serving (Key)
open FlOp.Stream (Json)

variable {τ : Type}

/-- A run directory: its files by their paths, and what a path that leaves it leads to. -/
structure RunDir (τ : Type) where
  name : String
  files : Dict Key τ
  outside : String → Option τ
  plain : ∀ path ∈ files.keys, path ≠ [] ∧ ∀ part ∈ path, plainName part = true

/-- `run_dir / rel`, when a file is there. -/
def RunDir.find (run : RunDir τ) (rel : String) : Option τ :=
  if leavesDirectory rel then run.outside rel else run.files.get? (pathParts rel)

/-- Why a text was not read: an error that is caught, or one that escapes. -/
inductive LoadError where
  | unreadable
  | escapes
deriving DecidableEq, Repr

/-- What the standard library makes of files and documents. -/
structure Codec (τ : Type) where
  sha256 : τ → String
  size : τ → ℕ
  /-- The digest of a document's canonical text. -/
  documentHash : Json → String
  dumps : Json → τ
  loads : τ → Except LoadError Json

/-- What the caller of `write_manifest` says about the run, and the clock. -/
structure ManifestScope where
  artifactKind : String
  schemaVersion : String
  snapshotHashes : List String := []
  scope : Json := .null
  extra : Json := .null
  generatedAt : String

def manifestKind : String := "ArtifactManifest"

def manifestSchemaVersion : String := "1.0"

def namespaceVersion : String := "1"

def manifestFilename : String := "manifest.json"

/-- The path of a run's own manifest. -/
def manifestPath : Key := [manifestFilename]

/-- A digested artifact. -/
structure FileEntry where
  path : String
  sizeBytes : ℕ
  sha256 : String
deriving DecidableEq, Repr

def FileEntry.fields (entry : FileEntry) : List (String × Json) :=
  [("path", .text entry.path), ("size_bytes", .number entry.sizeBytes (toString entry.sizeBytes)),
    ("sha256", .text entry.sha256)]

/-- Files under the manifest's name are left out, wherever they are. -/
def scanned (path : Key) : Bool := path.getLast? ≠ some manifestFilename

section Files

variable (codec : Codec τ)

def fileEntry (file : Key × τ) : FileEntry :=
  ⟨asPosix file.1, codec.size file.2, codec.sha256 file.2⟩

/-- `_scan_files`. -/
def scanFiles (run : RunDir τ) : List FileEntry :=
  ((sortBy Prod.fst run.files.entries).filter fun file => scanned file.1).map (fileEntry codec)

/-- `content_hash`. -/
def contentHash (label : String) (payload : Json) : String :=
  codec.documentHash (.object [("namespace", .text label),
    ("namespace_version", .text namespaceVersion), ("payload", payload)])

/-- `build_manifest`, up to the hash: its fields in order. -/
def manifestBody (run : RunDir τ) (about : ManifestScope) : List (String × Json) :=
  [("kind", .text manifestKind), ("manifestSchemaVersion", .text manifestSchemaVersion),
    ("namespaceVersion", .text namespaceVersion), ("artifactKind", .text about.artifactKind),
    ("artifactSchemaVersion", .text about.schemaVersion),
    ("generatedAt", .text about.generatedAt),
    ("snapshotHashes", .array ((sortBy id about.snapshotHashes).map .text)),
    ("scope", if about.scope.truthy then about.scope else .object []),
    ("files", .array ((scanFiles codec run).map fun entry => .object entry.fields))] ++
  if about.extra.truthy then [("extra", about.extra)] else []

/-- `build_manifest`. -/
def buildManifest (run : RunDir τ) (about : ManifestScope) : List (String × Json) :=
  let body := manifestBody codec run about
  body ++ [("manifestHash", .text (contentHash codec "artifact-manifest"
    (.object (body.filter fun field => field.1 ≠ "generatedAt"))))]

/-- `load_manifest`: `none` when an exception escapes, and no fields when there is no
readable manifest. -/
def loadManifest (run : RunDir τ) : Option (Option (List (String × Json))) :=
  match run.files.get? manifestPath with
  | none => some none
  | some text =>
    match codec.loads text with
    | .error .unreadable => some none
    | .error .escapes => none
    | .ok (.object fields) =>
      match Json.get fields "kind" .null with
      | .text kind => if kind = manifestKind then some (some fields) else some none
      | _ => some none
    | .ok _ => none

/-- A recorded file: an object with a path. -/
def recordedFile : Json → Option (String × List (String × Json))
  | .object fields =>
    match fields.lookup "path" with
    | some (.text rel) => some (rel, fields)
    | _ => none
  | _ => none

/-- The recorded files by their paths; `none` when an exception escapes. -/
def recordedFiles (fields : List (String × Json)) :
    Option (Dict String (List (String × Json))) :=
  match Json.get fields "files" (.array []) with
  | .array entries => (entries.mapM recordedFile).map (Dict.collect Prod.fst Prod.snd)
  | .object [] => some .empty
  | .text text => if text = "" then some .empty else none
  | _ => none

/-- The recorded digest is a given text. -/
def digestIs (fields : List (String × Json)) (digest : String) : Bool :=
  match Json.get fields "sha256" .null with
  | .text recorded => recorded = digest
  | _ => false

/-- The problem with a recorded file. -/
def recordedProblem (run : RunDir τ) (entry : String × List (String × Json)) : Option String :=
  match run.find entry.1 with
  | none => some s!"missing file: {entry.1}"
  | some text =>
    if digestIs entry.2 (codec.sha256 text) then none
    else some s!"digest mismatch: {entry.1}"

/-- The files of the run that are not recorded. -/
def untracked (run : RunDir τ) (recorded : Dict String (List (String × Json))) : Finset String :=
  ((scanFiles codec run).map FileEntry.path).toFinset.filter fun rel => rel ∉ recorded.keys

/-- `verify_manifest`; `none` when an exception escapes. -/
def verifyManifest (run : RunDir τ) : Option (List String) :=
  match loadManifest codec run with
  | none => none
  | some none => some [s!"no manifest found in {run.name}"]
  | some (some fields) =>
    (recordedFiles fields).map fun recorded =>
      recorded.entries.filterMap (recordedProblem codec run) ++
        (sorted (untracked codec run recorded)).map fun rel => s!"untracked file: {rel}"

/-- `write_manifest`: the run directory with its manifest. -/
def writeManifest (run : RunDir τ) (about : ManifestScope) : RunDir τ where
  name := run.name
  files := run.files.set manifestPath (codec.dumps (.object (buildManifest codec run about)))
  outside := run.outside
  plain := by
    intro path member
    rcases (Dict.mem_keys_set run.files _ _ path).mp member with rfl | old
    · exact ⟨List.cons_ne_nil _ _, by decide⟩
    · exact run.plain path old

/-- What the manifest of a run directory reads as. -/
def manifestDocument (run : RunDir τ) : Option Json :=
  (run.files.get? manifestPath).bind fun text => (codec.loads text).toOption

/-- The files other than the manifest are the same. -/
def SameArtifacts (before after : RunDir τ) : Prop :=
  ∀ path, path ≠ manifestPath → after.files.get? path = before.files.get? path

/-- The recorded files are there with their digests, and every scanned file is recorded. -/
structure Records (run : RunDir τ) (recorded : Dict String (List (String × Json))) : Prop where
  digested : ∀ rel fields, recorded.get? rel = some fields →
    ∃ text, run.find rel = some text ∧ digestIs fields (codec.sha256 text) = true
  covered : ∀ path, scanned path = true → (run.files.get? path).isSome →
    asPosix path ∈ recorded.keys

/-- The records a scan leaves in the manifest. -/
def scanRecords (run : RunDir τ) : Dict String (List (String × Json)) :=
  Dict.collect FileEntry.path FileEntry.fields (scanFiles codec run)

/-- The text of a path that leads to a file, of this directory or another, finds that path. -/
theorem find_asPosix (run : RunDir τ) {other : RunDir τ} {path : Key}
    (present : (other.files.get? path).isSome) :
    run.find (asPosix path) = run.files.get? path := by
  obtain ⟨nonempty, plain⟩ := other.plain path ((Dict.mem_keys_iff _ _).mpr present)
  rw [RunDir.find, leavesDirectory_asPosix nonempty plain, pathParts_asPosix nonempty plain]
  rfl

theorem mem_scanFiles {run : RunDir τ} {entry : FileEntry} :
    entry ∈ scanFiles codec run ↔ ∃ path text, scanned path = true ∧
      run.files.get? path = some text ∧ fileEntry codec (path, text) = entry := by
  simp only [scanFiles, List.mem_map, List.mem_filter, mem_sortBy, Prod.exists,
    Dict.get?_eq_some_iff]
  constructor
  · rintro ⟨path, text, ⟨listed, kept⟩, same⟩
    exact ⟨path, text, kept, listed, same⟩
  · rintro ⟨path, text, kept, listed, same⟩
    exact ⟨path, text, ⟨listed, kept⟩, same⟩

/-- Nothing is untracked exactly when every scanned file is recorded. -/
theorem untracked_eq_empty {run : RunDir τ} {recorded : Dict String (List (String × Json))} :
    untracked codec run recorded = ∅ ↔ ∀ path, scanned path = true →
      (run.files.get? path).isSome → asPosix path ∈ recorded.keys := by
  rw [untracked, Finset.filter_eq_empty_iff]
  simp only [List.mem_toFinset, List.mem_map, mem_scanFiles, not_not]
  constructor
  · intro covered path kept present
    obtain ⟨text, found⟩ := Option.isSome_iff_exists.mp present
    exact covered ⟨fileEntry codec (path, text), ⟨path, text, kept, found, rfl⟩, rfl⟩
  · rintro covered rel ⟨entry, ⟨path, text, kept, found, rfl⟩, rfl⟩
    exact covered path kept (by rw [found]; rfl)

theorem recordedProblem_eq_none {run : RunDir τ} {rel : String}
    {fields : List (String × Json)} :
    recordedProblem codec run (rel, fields) = none ↔
      ∃ text, run.find rel = some text ∧ digestIs fields (codec.sha256 text) = true := by
  rw [recordedProblem]
  cases found : run.find rel with
  | none => simp
  | some text => simp

/-- Nothing is reported exactly on a readable manifest whose records agree with the files. -/
theorem verifyManifest_eq_nil {run : RunDir τ} :
    verifyManifest codec run = some [] ↔ ∃ fields recorded,
      loadManifest codec run = some (some fields) ∧ recordedFiles fields = some recorded ∧
      Records codec run recorded := by
  rw [verifyManifest]
  rcases loaded : loadManifest codec run with _ | _ | fields
  · simp
  · simp
  · rw [Option.map_eq_some_iff]
    simp only [Option.some.injEq, List.append_eq_nil_iff, List.filterMap_eq_nil_iff,
      List.map_eq_nil_iff, sorted_eq_nil, untracked_eq_empty]
    constructor
    · rintro ⟨recorded, read, clean, covered⟩
      refine ⟨fields, recorded, rfl, read, ⟨fun rel entry found => ?_, covered⟩⟩
      exact (recordedProblem_eq_none codec).mp
        (clean _ ((Dict.get?_eq_some_iff _ _ _).mp found))
    · rintro ⟨_, recorded, rfl, read, agrees⟩
      refine ⟨recorded, read, fun entry listed => ?_, agrees.covered⟩
      exact (recordedProblem_eq_none codec).mpr
        (agrees.digested _ _ ((Dict.get?_eq_some_iff _ _ _).mpr listed))

/-- A manifest with the files of a scan records that scan. -/
theorem recordedFiles_of_scan {fields : List (String × Json)} {run : RunDir τ}
    (files : Json.get fields "files" (.array []) =
      .array ((scanFiles codec run).map fun entry => .object entry.fields)) :
    recordedFiles fields = some (scanRecords codec run) := by
  rw [recordedFiles, files]
  have read : ((scanFiles codec run).map fun entry => Json.object entry.fields).mapM
      recordedFile = some ((scanFiles codec run).map fun entry => (entry.path, entry.fields)) := by
    rw [Fallible.mapM_eq_some, List.forall₂_map_left_iff, List.forall₂_map_right_iff]
    exact List.forall₂_same.mpr fun entry _ => rfl
  simp only [read, Option.map_some, Dict.collect_map]
  rfl

theorem get?_scanRecords {run : RunDir τ} {rel : String} {fields : List (String × Json)}
    (found : (scanRecords codec run).get? rel = some fields) :
    ∃ path text, scanned path = true ∧ run.files.get? path = some text ∧
      asPosix path = rel ∧ (fileEntry codec (path, text)).fields = fields := by
  obtain ⟨entry, listed, named, same⟩ := Dict.exists_of_get?_collect found
  obtain ⟨path, text, kept, stored, rfl⟩ := (mem_scanFiles codec).mp listed
  exact ⟨path, text, kept, stored, named, same⟩

theorem mem_keys_scanRecords {run : RunDir τ} {rel : String} :
    rel ∈ (scanRecords codec run).keys ↔ ∃ path, scanned path = true ∧
      (run.files.get? path).isSome ∧ asPosix path = rel := by
  rw [Dict.mem_keys_iff, scanRecords, Dict.isSome_get?_collect]
  constructor
  · rintro ⟨entry, listed, rfl⟩
    obtain ⟨path, text, kept, stored, rfl⟩ := (mem_scanFiles codec).mp listed
    exact ⟨path, kept, by rw [stored]; rfl, rfl⟩
  · rintro ⟨path, kept, present, rfl⟩
    obtain ⟨text, stored⟩ := Option.isSome_iff_exists.mp present
    exact ⟨_, (mem_scanFiles codec).mpr ⟨path, text, kept, stored, rfl⟩, rfl⟩

@[simp] theorem digestIs_fileEntry (file : Key × τ) (digest : String) :
    digestIs (fileEntry codec file).fields digest = true ↔ codec.sha256 file.2 = digest :=
  decide_eq_true_iff

/-- A path is read off its text, among paths that lead to files. -/
theorem asPosix_inj {one other : RunDir τ} {first second : Key}
    (present : (one.files.get? first).isSome) (present' : (other.files.get? second).isSome)
    (same : asPosix first = asPosix second) : first = second := by
  obtain ⟨nonempty, plain⟩ := one.plain first ((Dict.mem_keys_iff _ _).mpr present)
  obtain ⟨nonempty', plain'⟩ := other.plain second ((Dict.mem_keys_iff _ _).mpr present')
  rw [← pathParts_asPosix nonempty plain, same, pathParts_asPosix nonempty' plain']

/-- The records of a scan agree with a directory exactly when the scanned files are the same. -/
theorem records_scanRecords_iff (distinct : Function.Injective codec.sha256)
    (before after : RunDir τ) :
    Records codec after (scanRecords codec before) ↔
      ∀ path, scanned path = true → after.files.get? path = before.files.get? path := by
  constructor
  · intro agrees path kept
    have recorded : ∀ text, before.files.get? path = some text →
        after.files.get? path = some text := by
      intro text stored
      have listed : asPosix path ∈ (scanRecords codec before).keys :=
        (mem_keys_scanRecords codec).mpr ⟨path, kept, by rw [stored]; rfl, rfl⟩
      obtain ⟨fields, found⟩ := Option.isSome_iff_exists.mp ((Dict.mem_keys_iff _ _).mp listed)
      obtain ⟨other, text', -, stored', named, rfl⟩ := get?_scanRecords codec found
      obtain rfl : other = path :=
        asPosix_inj (by rw [stored']; rfl) (by rw [stored]; rfl) named
      obtain rfl : text' = text := Option.some.inj (stored'.symm.trans stored)
      obtain ⟨now, located, digest⟩ := agrees.digested _ _ found
      rw [digestIs_fileEntry] at digest
      rw [find_asPosix after (by rw [stored]; rfl)] at located
      have same : text' = now := distinct digest
      rw [same]
      exact located
    cases stored : before.files.get? path with
    | some text => exact recorded text stored
    | none =>
      rw [← Option.not_isSome_iff_eq_none]
      intro present
      obtain ⟨other, -, present', named⟩ :=
        (mem_keys_scanRecords codec).mp (agrees.covered path kept present)
      obtain rfl : other = path := asPosix_inj present' present named
      rw [stored] at present'
      cases present'
  · intro same
    constructor
    · intro rel fields found
      obtain ⟨path, text, kept, stored, rfl, rfl⟩ := get?_scanRecords codec found
      have present : after.files.get? path = some text := (same path kept).trans stored
      refine ⟨text, ?_, (digestIs_fileEntry codec _ _).mpr rfl⟩
      rw [find_asPosix after (by rw [present]; rfl), present]
    · intro path kept present
      exact (mem_keys_scanRecords codec).mpr ⟨path, kept, same path kept ▸ present, rfl⟩

/-- The recorded files of a manifest as it was written. -/
theorem files_buildManifest (run : RunDir τ) (about : ManifestScope) :
    Json.get (buildManifest codec run about) "files" (.array []) =
      .array ((scanFiles codec run).map fun entry => .object entry.fields) := by
  rw [buildManifest, manifestBody]
  rfl

/-- Every path but the manifest's own keeps its file when the manifest is written. -/
theorem sameArtifacts_writeManifest (run : RunDir τ) (about : ManifestScope) :
    SameArtifacts run (writeManifest codec run about) := by
  intro path other
  rw [writeManifest, Dict.get?_set, if_neg other]

theorem ne_manifestPath_of_scanned {path : Key} (kept : scanned path = true) :
    path ≠ manifestPath := by
  rintro rfl
  exact absurd kept (by decide)

/-- The manifest on disk keeps its kind and the file records that were written. -/
def KeepsRecords (before : RunDir τ) (about : ManifestScope) (after : RunDir τ) : Prop :=
  ∃ fields, loadManifest codec after = some (some fields) ∧
    Json.get fields "files" (.array []) =
      Json.get (buildManifest codec before about) "files" (.array [])

/-- The directory in which a manifest was just written keeps its records, and so does every
later state with that document. -/
theorem keepsRecords_of_document {before : RunDir τ} {about : ManifestScope}
    (readable : codec.loads (codec.dumps (.object (buildManifest codec before about))) =
      .ok (.object (buildManifest codec before about))) {after : RunDir τ}
    (unedited : manifestDocument codec after =
      manifestDocument codec (writeManifest codec before about)) :
    KeepsRecords codec before about after := by
  have written : manifestDocument codec (writeManifest codec before about) =
      some (.object (buildManifest codec before about)) := by
    rw [manifestDocument, writeManifest, Dict.get?_set, if_pos rfl, Option.bind_some, readable]
    rfl
  rw [written, manifestDocument, Option.bind_eq_some_iff] at unedited
  obtain ⟨text, stored, read⟩ := unedited
  have loaded : codec.loads text = .ok (.object (buildManifest codec before about)) := by
    cases result : codec.loads text with
    | error failure => rw [result] at read; cases read
    | ok document =>
      rw [result] at read
      exact congrArg _ (Option.some.inj read)
  refine ⟨buildManifest codec before about, ?_, rfl⟩
  rw [loadManifest, stored]
  simp only [loaded]
  rfl

/-- While the records are kept, nothing is reported exactly if the scanned files are the same. -/
theorem verifyManifest_of_keepsRecords (distinct : Function.Injective codec.sha256)
    {before after : RunDir τ} {about : ManifestScope}
    (kept : KeepsRecords codec before about after) :
    verifyManifest codec after = some [] ↔
      ∀ path, scanned path = true → after.files.get? path = before.files.get? path := by
  obtain ⟨fields, loaded, files⟩ := kept
  have read := recordedFiles_of_scan codec (files.trans (files_buildManifest codec before about))
  rw [← records_scanRecords_iff codec distinct, verifyManifest_eq_nil]
  constructor
  · rintro ⟨fields', recorded, loaded', read', agrees⟩
    obtain rfl : fields = fields' := Option.some.inj (Option.some.inj (loaded.symm.trans loaded'))
    obtain rfl : scanRecords codec before = recorded := Option.some.inj (read.symm.trans read')
    exact agrees
  · intro agrees
    exact ⟨fields, _, loaded, read, agrees⟩

/-- Verification is silent exactly on the directory as it was written. -/
def DetectsEveryChange (before : RunDir τ) (about : ManifestScope) : Prop :=
  ∀ after, verifyManifest codec after = some [] ↔
    SameArtifacts (writeManifest codec before about) after ∧
      manifestDocument codec after = manifestDocument codec (writeManifest codec before about)

/-- What verification guarantees about a later state of a directory with a manifest. -/
structure DetectsArtifactChanges (before : RunDir τ) (about : ManifestScope)
    (after : RunDir τ) : Prop where
  /-- Unchanged files are not reported, under any manifest that keeps the records. -/
  unchanged : SameArtifacts (writeManifest codec before about) after →
    manifestDocument codec after = manifestDocument codec (writeManifest codec before about) ∨
      KeepsRecords codec before about after → verifyManifest codec after = some []
  /-- Silence means a readable manifest that agrees with the files. -/
  recorded : verifyManifest codec after = some [] → ∃ fields recorded,
    loadManifest codec after = some (some fields) ∧ recordedFiles fields = some recorded ∧
      Records codec after recorded
  /-- Silence under the records that were written means that no artifact has changed. -/
  detected : verifyManifest codec after = some [] → KeepsRecords codec before about after →
    ∀ path, scanned path = true →
      after.files.get? path = (writeManifest codec before about).files.get? path

/-- For a digest without collisions and a manifest that can be read back, verification detects
every change of the artifacts of a run. -/
theorem verifyManifest_detects (codec : Codec τ) (distinct : Function.Injective codec.sha256)
    (before : RunDir τ) (about : ManifestScope)
    (readable : codec.loads (codec.dumps (.object (buildManifest codec before about))) =
      .ok (.object (buildManifest codec before about))) (after : RunDir τ) :
    DetectsArtifactChanges codec before about after := by
  have written : ∀ path, scanned path = true →
      (writeManifest codec before about).files.get? path = before.files.get? path :=
    fun path kept => sameArtifacts_writeManifest codec before about path
      (ne_manifestPath_of_scanned kept)
  constructor
  · intro same document
    have kept : KeepsRecords codec before about after :=
      document.elim (keepsRecords_of_document codec readable) id
    refine (verifyManifest_of_keepsRecords codec distinct kept).mpr fun path visible => ?_
    rw [same path (ne_manifestPath_of_scanned visible), written path visible]
  · exact (verifyManifest_eq_nil codec).mp
  · intro silent kept path visible
    rw [written path visible]
    exact (verifyManifest_of_keepsRecords codec distinct kept).mp silent path visible

end Files

/-! ## A snapshot whose manifest is edited -/

/-- The artifact of the run. -/
def snapshotText : String := "\x7b\"value\": 1\x7d"

def snapshotDigest : String := "e1d70a18cc129fcc812ebbe309bc5197df6ffa2228c77a4a7b98653ec5605354"

def snapshotManifestHash : String :=
  "3d95c475cdc0aafb2595ff1c5a20350cba04c8d722658ba9dd6a7199b450b004"

/-- The manifest of the run, with the artifact kind it states. -/
def snapshotManifest (kind : String) : List (String × Json) :=
  [("kind", .text "ArtifactManifest"), ("manifestSchemaVersion", .text "1.0"),
    ("namespaceVersion", .text "1"), ("artifactKind", .text kind),
    ("artifactSchemaVersion", .text "1.0"),
    ("generatedAt", .text "2026-01-01T00:00:00+00:00"), ("snapshotHashes", .array []),
    ("scope", .object []),
    ("files", .array [.object [("path", .text "snapshot.json"), ("size_bytes", .number 12 "12"),
      ("sha256", .text snapshotDigest)]]),
    ("manifestHash", .text snapshotManifestHash)]

/-- The text of the manifest, with the artifact kind it states. -/
def snapshotManifestText (kind : String) : String :=
  "\n".intercalate ["\x7b", "  \"kind\": \"ArtifactManifest\",",
    "  \"manifestSchemaVersion\": \"1.0\",", "  \"namespaceVersion\": \"1\",",
    "  \"artifactKind\": \"" ++ kind ++ "\",", "  \"artifactSchemaVersion\": \"1.0\",",
    "  \"generatedAt\": \"2026-01-01T00:00:00+00:00\",", "  \"snapshotHashes\": [],",
    "  \"scope\": \x7b\x7d,", "  \"files\": [", "    \x7b",
    "      \"path\": \"snapshot.json\",", "      \"size_bytes\": 12,",
    "      \"sha256\": \"" ++ snapshotDigest ++ "\"", "    \x7d", "  ],",
    "  \"manifestHash\": \"" ++ snapshotManifestHash ++ "\"", "\x7d"]

def snapshotLoads (text : String) : Except LoadError Json :=
  if text = snapshotManifestText "PlanningSnapshot" then
    .ok (.object (snapshotManifest "PlanningSnapshot"))
  else if text = snapshotManifestText "RollingPlan" then
    .ok (.object (snapshotManifest "RollingPlan"))
  else .error .unreadable

theorem snapshotLoads_written : snapshotLoads (snapshotManifestText "PlanningSnapshot") =
    .ok (.object (snapshotManifest "PlanningSnapshot")) :=
  if_pos rfl

theorem snapshotLoads_edited : snapshotLoads (snapshotManifestText "RollingPlan") =
    .ok (.object (snapshotManifest "RollingPlan")) := by
  have other : ¬ snapshotManifestText "RollingPlan" =
      snapshotManifestText "PlanningSnapshot" := by decide +kernel
  rw [snapshotLoads, if_neg other, if_pos rfl]

/-- Digests and documents as they occur in the run. -/
def snapshotCodec : Codec String where
  sha256 := Equiv.swap snapshotText snapshotDigest
  size := fun text => text.utf8ByteSize
  documentHash := fun _ => snapshotManifestHash
  dumps := fun _ => snapshotManifestText "PlanningSnapshot"
  loads := snapshotLoads

@[simp] theorem loads_snapshotCodec : snapshotCodec.loads = snapshotLoads := rfl

@[simp] theorem dumps_snapshotCodec (document : Json) :
    snapshotCodec.dumps document = snapshotManifestText "PlanningSnapshot" := rfl

def snapshotRun : RunDir String where
  name := "run"
  files := Dict.empty.set ["snapshot.json"] snapshotText
  outside := fun _ => none
  plain := by decide +kernel

def snapshotScope : ManifestScope where
  artifactKind := "PlanningSnapshot"
  schemaVersion := "1.0"
  generatedAt := "2026-01-01T00:00:00+00:00"

theorem buildManifest_snapshot :
    buildManifest snapshotCodec snapshotRun snapshotScope = snapshotManifest "PlanningSnapshot" := by
  rfl

/-- The run directory as the manifest was written into it. -/
def writtenRun : RunDir String := writeManifest snapshotCodec snapshotRun snapshotScope

/-- The manifest states another artifact kind. -/
def editedRun : RunDir String where
  name := "run"
  files := writtenRun.files.set manifestPath (snapshotManifestText "RollingPlan")
  outside := fun _ => none
  plain := by decide +kernel

/-- A file under the manifest's name is added below the run. -/
def nestedRun : RunDir String where
  name := "run"
  files := writtenRun.files.set ["sub", "manifest.json"] snapshotText
  outside := fun _ => none
  plain := by decide +kernel

theorem manifestDocument_written : manifestDocument snapshotCodec writtenRun =
    some (.object (snapshotManifest "PlanningSnapshot")) := by
  rw [manifestDocument, writtenRun, writeManifest, Dict.get?_set, if_pos rfl, Option.bind_some,
    dumps_snapshotCodec, loads_snapshotCodec, snapshotLoads_written]
  rfl

theorem readable_snapshot :
    snapshotCodec.loads (snapshotCodec.dumps
      (.object (buildManifest snapshotCodec snapshotRun snapshotScope))) =
      .ok (.object (buildManifest snapshotCodec snapshotRun snapshotScope)) := by
  rw [buildManifest_snapshot, dumps_snapshotCodec, loads_snapshotCodec, snapshotLoads_written]

theorem verifyManifest_detects_snapshot :
    DetectsArtifactChanges snapshotCodec snapshotRun snapshotScope editedRun :=
  verifyManifest_detects snapshotCodec (Equiv.injective _) snapshotRun snapshotScope
    readable_snapshot editedRun

/-- Neither an edit of the manifest nor a nested file of its name is reported. -/
theorem verifyManifest_misses_changes :
    Function.Injective snapshotCodec.sha256 ∧
    ¬ DetectsEveryChange snapshotCodec snapshotRun snapshotScope ∧
    verifyManifest snapshotCodec nestedRun = some [] ∧ ¬ SameArtifacts writtenRun nestedRun := by
  refine ⟨Equiv.injective _, ?_, by decide +kernel, ?_⟩
  · intro detects
    have silent : verifyManifest snapshotCodec editedRun = some [] := by decide +kernel
    have document := ((detects editedRun).mp silent).2
    have edited : manifestDocument snapshotCodec editedRun =
        some (.object (snapshotManifest "RollingPlan")) := by
      rw [manifestDocument, editedRun, Dict.get?_set, if_pos rfl, Option.bind_some,
        loads_snapshotCodec, snapshotLoads_edited]
      rfl
    have same := edited.symm.trans (document.trans manifestDocument_written)
    simp [snapshotManifest] at same
  · intro same
    have added := same ["sub", "manifest.json"] (by decide)
    exact absurd added (by decide +kernel)

end FlOp.Provenance
