import FlOp.Core.Constants
import FlOp.Core.Numbers
import FlOp.Library.Fallible
import FlOp.Serving.ObjectStore
import FlOp.Snapshot.TunedOverlay

/-! # The reviewed solver-parameter overlay

A planning run takes the parameters its caller gives. Otherwise the profile makes a base, and a
reviewed overlay layers on it: the file the caller names, the file of the run's scope for drone
logistics, or the file shared by the other profiles.
-/

namespace FlOp.Tuning

open FlOp.Core Library
open FlOp.Serving (Key)
open FlOp.Snapshot (OverlayFile)
open FlOp.Stream (Json)

/-- The solver parameters, with the engine's defaults. -/
structure SolverParameters where
  clusterTargetSize : ℤ := 50
  scoreWeightMargin : PyFloat := .number 1
  scoreWeightReposition : PyFloat := .number 1
  clusterSolveTimeLimitS : ℤ := 60
  lnsTimeLimitS : ℤ := 0
  rollingChangePenalty : ℤ := 1000
  assignmentCountPriority : PyFloat := .number 1
  optimizationObjective : String := "cost"
deriving DecidableEq

/-- Errors that leave the loading of parameters. -/
inductive TuningError where
  | unicodeDecodeError
  | attributeError
  | overflowError
  | unsupportedObjective (mode : String)
deriving DecidableEq

/-- A conversion fails in a way that is caught and ignored, or in one that is not. -/
inductive CoercionError where
  | unusable
  | overflow
deriving DecidableEq, Repr

/-- The conversions `int`, `float` and `str`, and what the run finds around it. -/
structure Runtime where
  int : Json → Except CoercionError ℤ
  float : Json → Except CoercionError PyFloat
  str : Json → String
  isAlnum : Char → Bool
  /-- `datetime.fromisoformat`, in universal time where no zone is given. -/
  fromIsoformat : String → Option Instant
  now : Instant
  /-- The files below the data directory, and any the caller names. -/
  files : Key → OverlayFile
  /-- The `solver` section of the drone-logistics tuning. -/
  droneSolver : Json

/-- The part of a profile that parameters are made from. -/
structure ParameterProfile where
  id : String := ""
  countPriority : PyFloat

/-- Parameters that are set. -/
structure ParameterUpdates where
  clusterTargetSize : Option ℤ := none
  scoreWeightMargin : Option PyFloat := none
  scoreWeightReposition : Option PyFloat := none
  clusterSolveTimeLimitS : Option ℤ := none
  lnsTimeLimitS : Option ℤ := none
  rollingChangePenalty : Option ℤ := none
  assignmentCountPriority : Option PyFloat := none
  optimizationObjective : Option String := none
deriving DecidableEq

/-- The scope a load expects; nothing is expected where nothing is given. -/
structure ExpectedScope where
  domain : Option String := none
  profileId : Option String := none
  adapterVersion : Option String := none

def artifactKind : String := "ReviewedTunedSolverProfile"

def adapterVersion : String := "0.1.0"

def tunedFilename : String := "solver-parameters-tuned.json"

def droneProfile : String := "drone-logistics"

/-- `_PROFILE_DOMAIN.get(profile_id, "")`. -/
def profileDomain : String → String
  | "drone-logistics" => "drone_logistics"
  | "agricultural-custom-services" => "agricultural"
  | "construction-earthworks" => "construction"
  | "roadside-infrastructure" => "roadside"
  | _ => ""

/-- `default_tuned_solver_profile_path`. -/
def sharedPath : Key := ["tune", tunedFilename]

/-- `value or fallback`. -/
def orElse (value : Option String) (fallback : String) : String :=
  match value with
  | some text => if text = "" then fallback else text
  | none => fallback

section Run

variable (run : Runtime)

/-- `_slug`. -/
def slug (value : String) : String :=
  String.ofList (value.toList.map fun c =>
    if run.isAlnum c || c ∈ ['.', '_', '-'] then c else '_')

/-- `scoped_tuned_solver_profile_path`. -/
def scopedPath (domain profileId version : String) : Key :=
  ["tune", slug run domain, slug run profileId, slug run version, tunedFilename]

/-- Keep a converted value; one that cannot be used is passed over. -/
def keep {α : Type} (converted : Except CoercionError α) (set : α → ParameterUpdates)
    (params : ParameterUpdates) : Except TuningError ParameterUpdates :=
  match converted with
  | .ok value => .ok (set value)
  | .error .unusable => .ok params
  | .error .overflow => .error .overflowError

/-- One entry of `_coerce_parameters`; an unknown key is passed over. -/
def coerceEntry (params : ParameterUpdates) (entry : String × Json) :
    Except TuningError ParameterUpdates :=
  match entry.1 with
  | "cluster_target_size" =>
    keep (run.int entry.2) (fun n => { params with clusterTargetSize := some n }) params
  | "score_weight_margin" =>
    keep (run.float entry.2) (fun x => { params with scoreWeightMargin := some x }) params
  | "score_weight_reposition" =>
    keep (run.float entry.2) (fun x => { params with scoreWeightReposition := some x }) params
  | "cluster_solve_time_limit_s" =>
    keep (run.int entry.2) (fun n => { params with clusterSolveTimeLimitS := some n }) params
  | "lns_time_limit_s" =>
    keep (run.int entry.2) (fun n => { params with lnsTimeLimitS := some n }) params
  | "rolling_change_penalty" =>
    keep (run.int entry.2) (fun n => { params with rollingChangePenalty := some n }) params
  | "assignment_count_priority" =>
    keep (run.float entry.2) (fun x => { params with assignmentCountPriority := some x }) params
  | "optimization_objective" =>
    .ok { params with optimizationObjective := some (run.str entry.2) }
  | _ => .ok params

/-- `_coerce_parameters`. -/
def coerceParameters (raw : List (String × Json)) : Except TuningError ParameterUpdates :=
  raw.foldlM (coerceEntry run) {}

/-- `value or {}`, read as a mapping. -/
def mapping (value : Json) : Except TuningError (List (String × Json)) :=
  if value.truthy then
    match value with
    | .object fields => .ok fields
    | _ => .error .attributeError
  else .ok []

/-- A scope declares what is expected of one key. -/
def declares (scope : List (String × Json)) (key : String) (expected : Option String) : Bool :=
  match expected with
  | none => true
  | some text => text = "" ||
    match Json.get scope key .null with
    | .text declared => declared = text
    | _ => false

/-- The expiry of a scope has not passed; an empty one never does. -/
def unexpired (scope : List (String × Json)) : Bool :=
  let expiresAt := Json.get scope "expires_at" .null
  !expiresAt.truthy ||
    match run.fromIsoformat (run.str expiresAt) with
    | none => false
    | some expiry => run.now ≤ expiry

/-- `_scope_matches`. -/
def scopeMatches (fields : List (String × Json)) (expected : ExpectedScope) :
    Except TuningError Bool := do
  let scope ← mapping (Json.get fields "scope" .null)
  return declares scope "domain" expected.domain && declares scope "profile_id" expected.profileId &&
    declares scope "adapter_version" expected.adapterVersion && unexpired run scope

/-- The document is a reviewed overlay. -/
def isReviewed (fields : List (String × Json)) : Bool :=
  match Json.get fields "kind" .null with
  | .text kind => kind = artifactKind
  | _ => false

/-- The parameters a document sets; what is not an object sets none. -/
def documentParameters (fields : List (String × Json)) : Except TuningError ParameterUpdates :=
  match Json.get fields "solverParameters" .null with
  | .object raw => coerceParameters run raw
  | _ => .ok {}

/-- `load_tuned_solver_parameters`. -/
def loadTunedSolverParameters (path : Key) (expected : ExpectedScope) :
    Except TuningError ParameterUpdates :=
  match run.files path with
  | .absent | .unreadable => .ok {}
  | .undecodable => .error .unicodeDecodeError
  | .document (.object fields) =>
    if isReviewed fields then do
      if ← scopeMatches run fields expected then documentParameters run fields else return {}
    else .ok {}
  | .document _ => .error .attributeError

/-- `__post_init__`: the objective in lower case, if it is a supported one. -/
def postInit (params : SolverParameters) : Except TuningError SolverParameters :=
  let objective := if params.optimizationObjective = "" then "cost" else params.optimizationObjective
  let mode := String.ofList (objective.toList.map Char.toLower)
  if mode ∈ ["cost", "time"] then .ok { params with optimizationObjective := mode }
  else .error (.unsupportedObjective params.optimizationObjective)

/-- `dataclasses.replace(base, **updates)`. -/
def replace (base : SolverParameters) (updates : ParameterUpdates) :
    Except TuningError SolverParameters :=
  postInit {
    clusterTargetSize := updates.clusterTargetSize.getD base.clusterTargetSize
    scoreWeightMargin := updates.scoreWeightMargin.getD base.scoreWeightMargin
    scoreWeightReposition := updates.scoreWeightReposition.getD base.scoreWeightReposition
    clusterSolveTimeLimitS := updates.clusterSolveTimeLimitS.getD base.clusterSolveTimeLimitS
    lnsTimeLimitS := updates.lnsTimeLimitS.getD base.lnsTimeLimitS
    rollingChangePenalty := updates.rollingChangePenalty.getD base.rollingChangePenalty
    assignmentCountPriority := updates.assignmentCountPriority.getD base.assignmentCountPriority
    optimizationObjective := updates.optimizationObjective.getD base.optimizationObjective }

/-- `apply_tuned_solver_parameters`; converting converted values again changes nothing. -/
def applyTunedSolverParameters (base : SolverParameters) (overrides : ParameterUpdates) :
    Except TuningError SolverParameters :=
  if overrides = {} then .ok base else replace base overrides

/-- `drone_solver_parameter_overrides`; a value that is null is left out. -/
def droneOverrides : Except TuningError (List (String × Json)) := do
  let solver ← mapping run.droneSolver
  return [("cluster_target_size", Json.get solver "clusterTargetSize" .null),
    ("cluster_solve_time_limit_s", Json.get solver "clusterSolveTimeLimitS" .null),
    ("lns_time_limit_s", Json.get solver "lnsTimeLimitS" .null),
    ("rolling_change_penalty", Json.get solver "rollingInstabilityPenalty" .null)].filter
      fun entry => match entry.2 with
        | .null => false
        | _ => true

/-- The parameters of a profile, before any overlay. -/
def baseParameters (profile : ParameterProfile) : Except TuningError SolverParameters := do
  let overrides ← if profile.id = droneProfile then droneOverrides run else .ok []
  let updates ← coerceParameters run overrides
  replace { assignmentCountPriority := profile.countPriority } updates

/-- Where a run looks for its overlay, and the scope it expects there. -/
def overlaySource (profile : ParameterProfile) (tunedPath : Option Key)
    (domainId version : Option String) : Key × ExpectedScope :=
  let domain := orElse domainId (profileDomain profile.id)
  let version := orElse version adapterVersion
  match tunedPath with
  | some path => (path, {})
  | none =>
    if profile.id = droneProfile ∧ domain ≠ "" then
      (scopedPath run domain profile.id version, ⟨some domain, some profile.id, some version⟩)
    else (sharedPath, {})

/-- `solver_parameters_for_profile`. -/
def solverParametersForProfile (profile : ParameterProfile) (explicit : Option SolverParameters)
    (tunedPath : Option Key) (domainId version : Option String) :
    Except TuningError SolverParameters :=
  match explicit with
  | some params => .ok params
  | none => do
    let base ← baseParameters run profile
    let source := overlaySource run profile tunedPath domainId version
    let overrides ← loadTunedSolverParameters run source.1 source.2
    applyTunedSolverParameters base overrides

/-- The overlay a load applies: a reviewed document, not expired, that declares the scope which
is expected where it was found; its values are those of the document. -/
structure Admits (path : Key) (expected : ExpectedScope) (updates : ParameterUpdates) : Prop where
  document : ∃ fields scope, run.files path = .document (.object fields) ∧
    isReviewed fields = true ∧ mapping (Json.get fields "scope" .null) = .ok scope ∧
    unexpired run scope = true ∧
    (declares scope "domain" expected.domain = true ∧
      declares scope "profile_id" expected.profileId = true ∧
      declares scope "adapter_version" expected.adapterVersion = true) ∧
    documentParameters run fields = .ok updates

/-- What is loaded comes from an admitted overlay. -/
theorem admits_of_load {path : Key} {expected : ExpectedScope} {updates : ParameterUpdates}
    (loaded : loadTunedSolverParameters run path expected = .ok updates) (some_set : updates ≠ {}) :
    Admits run path expected updates := by
  rw [loadTunedSolverParameters] at loaded
  split at loaded
  · exact absurd (Except.ok.inj loaded).symm some_set
  · exact absurd (Except.ok.inj loaded).symm some_set
  · cases loaded
  · rename_i fields found
    split at loaded
    · rename_i reviewed
      obtain ⟨admitted, tested, loaded⟩ := Fallible.bind_eq_ok.mp loaded
      obtain ⟨scope, read, verdict⟩ := Fallible.bind_eq_ok.mp tested
      cases admitted with
      | false => exact absurd (Except.ok.inj loaded).symm some_set
      | true =>
        have verdict := Except.ok.inj verdict
        simp only [Bool.and_eq_true] at verdict
        exact ⟨fields, scope, found, reviewed, read, verdict.2,
          ⟨verdict.1.1.1, verdict.1.1.2, verdict.1.2⟩, loaded⟩
    · exact absurd (Except.ok.inj loaded).symm some_set
  · cases loaded

/-- An admitted overlay is what a load finds. -/
theorem load_of_admits {path : Key} {expected : ExpectedScope} {updates : ParameterUpdates}
    (admits : Admits run path expected updates) :
    loadTunedSolverParameters run path expected = .ok updates := by
  obtain ⟨fields, scope, found, reviewed, read, valid, ⟨domain, profile, version⟩, values⟩ :=
    admits.document
  rw [loadTunedSolverParameters, found]
  simp only [reviewed, if_true]
  have matching : scopeMatches run fields expected = .ok true := by
    refine Fallible.bind_eq_ok.mpr ⟨scope, read, ?_⟩
    rw [domain, profile, version, valid]
    rfl
  exact Fallible.bind_eq_ok.mpr ⟨true, matching, values⟩

/-- The scope is that of a run: its domain, its profile and its adapter version. -/
structure DeclaresRun (scope : List (String × Json)) (domain profileId version : String) :
    Prop where
  domain : Json.get scope "domain" .null = .text domain
  profileId : Json.get scope "profile_id" .null = .text profileId
  adapterVersion : Json.get scope "adapter_version" .null = .text version

theorem eq_text_of_declares {scope : List (String × Json)} {key text : String}
    (declared : declares scope key (some text) = true) (given : text ≠ "") :
    Json.get scope key .null = .text text := by
  rw [declares, Bool.or_eq_true] at declared
  rcases declared with blank | declared
  · exact absurd (of_decide_eq_true blank) given
  · split at declared
    · rename_i found
      rw [found, of_decide_eq_true declared]
    · cases declared

theorem orElse_ne_empty (value : Option String) {fallback : String} (given : fallback ≠ "") :
    orElse value fallback ≠ "" := by
  cases value with
  | none => exact given
  | some text =>
    rw [orElse]
    split
    · exact given
    · assumption

/-- Without a path of the caller, the drone profile looks for the overlay of its own scope. -/
theorem overlaySource_drone {profile : ParameterProfile} (drone : profile.id = droneProfile)
    (domainId version : Option String) :
    overlaySource run profile none domainId version =
      (scopedPath run (orElse domainId (profileDomain profile.id)) profile.id
          (orElse version adapterVersion),
        ⟨some (orElse domainId (profileDomain profile.id)), some profile.id,
          some (orElse version adapterVersion)⟩) := by
  have named : orElse domainId (profileDomain profile.id) ≠ "" :=
    orElse_ne_empty domainId (by rw [drone]; decide)
  rw [overlaySource]
  exact if_pos ⟨drone, named⟩

/-- What planning runs make of overlays. -/
structure KeepsOverlaysInScope (profile : ParameterProfile) (explicit : Option SolverParameters)
    (tunedPath : Option Key) (domainId version : Option String) : Prop where
  /-- Explicit parameters win over everything. -/
  explicit_wins : ∀ params, explicit = some params →
    solverParametersForProfile run profile explicit tunedPath domainId version = .ok params
  /-- Where the overlay makes a difference, it is a reviewed document that has not expired, and
  the values are its own; where the run looked for its scope, the document declares it. -/
  applied : explicit = none → ∀ base params, baseParameters run profile = .ok base →
    solverParametersForProfile run profile explicit tunedPath domainId version = .ok params →
    params ≠ base → ∃ fields scope updates,
      run.files (overlaySource run profile tunedPath domainId version).1 =
        .document (.object fields) ∧
      isReviewed fields = true ∧ mapping (Json.get fields "scope" .null) = .ok scope ∧
      unexpired run scope = true ∧
      (tunedPath = none → profile.id = droneProfile →
        DeclaresRun scope (orElse domainId (profileDomain profile.id)) profile.id
          (orElse version adapterVersion)) ∧
      documentParameters run fields = .ok updates ∧ replace base updates = .ok params
  /-- An overlay of that kind is applied. -/
  honoured : explicit = none → ∀ base updates, baseParameters run profile = .ok base →
    Admits run (overlaySource run profile tunedPath domainId version).1
      (overlaySource run profile tunedPath domainId version).2 updates →
    solverParametersForProfile run profile explicit tunedPath domainId version =
      applyTunedSolverParameters base updates

/-- The overlay makes a difference only if its declared scope is that of the run. -/
def ScopeRespected (profile : ParameterProfile) (tunedPath : Option Key)
    (domainId version : Option String) : Prop :=
  ∀ base params, baseParameters run profile = .ok base →
    solverParametersForProfile run profile none tunedPath domainId version = .ok params →
    params ≠ base → ∃ fields scope,
      run.files (overlaySource run profile tunedPath domainId version).1 =
        .document (.object fields) ∧
      mapping (Json.get fields "scope" .null) = .ok scope ∧ unexpired run scope = true ∧
      DeclaresRun scope (orElse domainId (profileDomain profile.id)) profile.id
        (orElse version adapterVersion)

end Run

/-! ## An overlay for drone logistics at the shared location -/

/-- The scope the overlay declares. -/
def droneScope : List (String × Json) :=
  [("domain", .text "drone_logistics"), ("profile_id", .text "drone-logistics"),
    ("adapter_version", .text "0.1.0"), ("expires_at", .text "")]

def droneOverlay : List (String × Json) :=
  [("kind", .text artifactKind), ("scope", .object droneScope),
    ("solverParameters", .object [("cluster_target_size", .number 44 "44")])]

/-- A run in which only the shared overlay is there. -/
def sharedRun : Runtime where
  int := fun value => match value with
    | .number n _ => .ok (Instant.truncated n)
    | .boolean b => .ok (if b then 1 else 0)
    | _ => .error .unusable
  float := fun value => match value with
    | .number x _ => .ok (.number x)
    | .boolean b => .ok (.number (if b then 1 else 0))
    | _ => .error .unusable
  str := fun value => match value with
    | .text text => text
    | _ => "None"
  isAlnum := Char.isAlphanum
  fromIsoformat := fun _ => none
  now := 1780272000
  files := fun path => if path = sharedPath then .document (.object droneOverlay) else .absent
  droneSolver := .object [("clusterTargetSize", .number 36 "36")]

def agriculturalProfile : ParameterProfile := ⟨"agricultural-custom-services", .number (1 / 4)⟩

end FlOp.Tuning
