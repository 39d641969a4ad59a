import FlOp.Library.NestedDict
import FlOp.Mapping.CanonicalRows
import FlOp.Mapping.Values

/-! # Accumulating a source row

Every binding of a table resolves one column: a missing value falls to the policy of its binding,
and what is left is coerced and routed by the path, to a capability, to the stock of a location or
into the nested attributes. Bindings with slots of their own leave each other's values alone.
-/

namespace FlOp.Mapping

open Library FlOp.Core

/-- Action taken when a bound source field is missing. -/
inductive MissingValuePolicy
  | acceptOptional
  | rejectForPlanning
  | acceptWithWarning
  | acceptWithPenalty
  | fallbackToConservativeValue
  | impute
  | quarantine
  | manualReview
deriving DecidableEq, Repr

def MissingValuePolicy.value : MissingValuePolicy → String
  | acceptOptional => "accept-optional"
  | rejectForPlanning => "reject-for-planning"
  | acceptWithWarning => "accept-with-warning"
  | acceptWithPenalty => "accept-with-penalty"
  | fallbackToConservativeValue => "fallback-to-conservative-value"
  | impute => "impute"
  | quarantine => "quarantine"
  | manualReview => "manual-review"

inductive QualitySeverity
  | info
  | warning
  | error
  | critical
deriving DecidableEq, Repr

/-- A binding with its declarative semantics. -/
structure MetaBinding extends FieldBinding where
  semanticTerm : String := ""
  canonicalUnit : Option String := none
  quantityKind : Option String := none
  qualityPolicyRef : Option String := none
  missingValuePolicy : Option MissingValuePolicy := none
deriving DecidableEq, Repr

/-- The mapping of one contract. -/
structure MappingTable where
  contractId : String
  canonicalEntity : String
  assetRole : Option String := none
  bindings : List MetaBinding
deriving DecidableEq, Repr

variable {D : Type}

/-- A finding about one field of one record. -/
structure QualityFinding (D : Type) where
  qualityFindingId : String
  ruleId : String
  severity : QualitySeverity
  entityRef : String
  fieldRef : String
  actionApplied : String
  originalValue : PyValue D
  normalizedValue : PyValue D

/-- What a missing-value policy makes of a field. -/
structure PolicyOutcome (D : Type) where
  value : PyValue D
  dropEntity : Bool := false
  finding : Option (QualityFinding D) := none

/-- `_CONSERVATIVE_FALLBACK`; every kind that is not listed falls back to zero as well. -/
def conservativeFallback (quantityKind : Option String) : ℚ :=
  if quantityKind = some "speed" then 1 else 0

/-- The finding of a policy that is applied. -/
def MetaBinding.finding (binding : MetaBinding) (entityRef : String) (seq : ℕ)
    (raw : PyValue D) (severity : QualitySeverity) (action : String) (normalized : PyValue D) :
    QualityFinding D where
  qualityFindingId := "qf-" ++ entityRef ++ "-" ++ binding.sourceField ++ "-" ++ toString seq
  ruleId := match binding.qualityPolicyRef with
    | some ref => if ref = "" then "dq://default/missing-value" else ref
    | none => "dq://default/missing-value"
  severity := severity
  entityRef := entityRef
  fieldRef := binding.sourceField
  actionApplied := action
  originalValue := raw
  normalizedValue := normalized

/-- Resolve a possibly missing value according to the policy of its binding. -/
def applyMissingValuePolicy (binding : MetaBinding) (entityRef : String) (seq : ℕ)
    (raw : PyValue D) : PolicyOutcome D :=
  let finding := binding.finding entityRef seq raw
  let fallback : PyValue D := .float (conservativeFallback binding.quantityKind)
  if raw.isMissing then
    match binding.missingValuePolicy with
    | some .acceptOptional => { value := .null }
    | none | some .rejectForPlanning =>
      { value := .null
        dropEntity := true
        finding := some (finding .error "reject-for-planning" .null) }
    | some .acceptWithWarning =>
      { value := .null, finding := some (finding .warning "accept-with-warning" .null) }
    | some .fallbackToConservativeValue =>
      { value := fallback
        finding := some (finding .info "fallback-to-conservative-value" fallback) }
    | some .impute => { value := fallback, finding := some (finding .info "impute" fallback) }
    | some policy =>
      { value := .null
        dropEntity := true
        finding := some (finding .warning policy.value .null) }
  else { value := raw }

/-- The dotted tokens of a text. -/
def dottedTokens (path : String) : List String := (path.toList.splitOn '.').map String.ofList

/-- Where a binding routes its value. -/
inductive Slot
  | capability (semanticTerm : String)
  | inventory (material : String)
  | field (path : List String)
deriving DecidableEq, Repr

/-- Capability-like segments win, then stock, then the attribute below the entity. -/
def MetaBinding.slot (binding : MetaBinding) : Slot :=
  let tokens := dottedTokens binding.binding
  if "capabilities" ∈ tokens ∨ "availability" ∈ tokens ∨ "state" ∈ tokens then
    .capability binding.semanticTerm
  else if tokens.take 2 = ["location", "inventory"] ∨ tokens.take 2 = ["asset", "inventory"] then
    .inventory (tokens.getLastD "")
  else .field tokens.tail

structure Capability (D : Type) where
  capabilityId : String
  semanticTerm : String
  value : PyValue D
  canonicalUnit : Option String

/-- A stocked material of a location. -/
structure StockEntry (D : Type) where
  material : String
  unit : Option String
  quantity : PyValue D

/-- What the bindings of one row have gathered. -/
structure Accumulator (D : Type) where
  capabilities : List (Capability D) := []
  inventory : List (StockEntry D) := []
  attributes : List (String × PyValue D) := []

/-- Dictionaries within attributes. -/
def PyValue.nesting (D : Type) : Nesting String (PyValue D) where
  node := .dict
  entries?
    | .dict entries => some entries
    | _ => none
  entries?_node _ := rfl

/-- Route a coerced value into the accumulator. -/
def Accumulator.routeValue (acc : Accumulator D) (binding : MetaBinding) (value : PyValue D) :
    Option (Accumulator D) :=
  match binding.slot with
  | .capability semanticTerm =>
    some { acc with capabilities := acc.capabilities ++ [{
      capabilityId := (dottedTokens binding.binding).getLastD ""
      semanticTerm := semanticTerm
      value := value
      canonicalUnit := binding.canonicalUnit }] }
  | .inventory material =>
    some { acc with inventory := acc.inventory ++ [⟨material, binding.canonicalUnit, value⟩] }
  | .field path =>
    ((PyValue.nesting D).setPath path value acc.attributes).map fun written =>
      { acc with attributes := written }

/-- A row is dropped by a policy or gathered in full; every finding so far stays. -/
inductive RowOutcome (D : Type)
  | dropped (findings : List (QualityFinding D))
  | kept (acc : Accumulator D) (findings : List (QualityFinding D))

/-- The column a binding reads; a column that is not there reads as absent. -/
def MetaBinding.raw (binding : MetaBinding) (row : Dict String (PyValue D)) : PyValue D :=
  row.getD binding.sourceField .null

/-- Resolve the bindings one after the other. -/
def accumulate (readers : Readers D) (row : Dict String (PyValue D)) (entityRef : String) :
    ℕ → List MetaBinding → Accumulator D → List (QualityFinding D) → Option (RowOutcome D)
  | _, [], acc, findings => some (.kept acc findings)
  | seq, binding :: rest, acc, findings =>
    let outcome := applyMissingValuePolicy binding entityRef seq (binding.raw row)
    let found := findings ++ outcome.finding.toList
    if outcome.dropEntity then some (.dropped found)
    else
      match outcome.value with
      | .null => accumulate readers row entityRef (seq + 1) rest acc found
      | resolved =>
        (readers.coerceValue binding.quantityKind resolved).bind fun value =>
          (acc.routeValue binding value).bind fun routed =>
            accumulate readers row entityRef (seq + 1) rest routed found

/-- The column of the first identity binding. -/
def MappingTable.entityKeyField (table : MappingTable) : Option String :=
  (table.bindings.find? fun b => "identity" ∈ b.planningUse).map (·.sourceField)

/-- Gather one row. -/
def accumulateRow (readers : Readers D) (table : MappingTable) (row : Dict String (PyValue D)) :
    Option (RowOutcome D) :=
  let entityRef := match row.get? (table.entityKeyField.getD "") with
    | some value => readers.toText value
    | none => "<unknown>"
  accumulate readers row entityRef 1 table.bindings {} []

/-- What the policy of a binding makes of a raw value. -/
def MetaBinding.resolve (binding : MetaBinding) (raw : PyValue D) : PyValue D :=
  (applyMissingValuePolicy binding "" 0 raw).value

/-- The value of a column after its policy and its coercion, unless none is left. -/
def MetaBinding.coerced (binding : MetaBinding) (readers : Readers D)
    (row : Dict String (PyValue D)) : Option (PyValue D) :=
  match binding.resolve (binding.raw row) with
  | .null => none
  | resolved => readers.coerceValue binding.quantityKind resolved

/-- The value gathered in a slot. -/
def Accumulator.read (acc : Accumulator D) : Slot → Option (PyValue D)
  | .capability semanticTerm =>
    (acc.capabilities.find? fun capability => capability.semanticTerm = semanticTerm).map (·.value)
  | .inventory material =>
    (acc.inventory.reverse.find? fun entry => entry.material = material).map (·.quantity)
  | .field path => (PyValue.nesting D).getPath path acc.attributes

/-- Writing one slot leaves the other alone. -/
def Slot.Apart : Slot → Slot → Prop
  | .capability term, .capability other => term ≠ other
  | .inventory material, .inventory other => material ≠ other
  | .field path, .field other => PathsApart path other
  | _, _ => True

instance : ∀ slot other : Slot, Decidable (slot.Apart other)
  | .capability _, .capability _ => inferInstanceAs (Decidable (_ ≠ _))
  | .inventory _, .inventory _ => inferInstanceAs (Decidable (_ ≠ _))
  | .field path, .field other => inferInstanceAs (Decidable (PathsApart path other))
  | .capability _, .inventory _ => .isTrue trivial
  | .capability _, .field _ => .isTrue trivial
  | .inventory _, .capability _ => .isTrue trivial
  | .inventory _, .field _ => .isTrue trivial
  | .field _, .capability _ => .isTrue trivial
  | .field _, .inventory _ => .isTrue trivial

theorem Slot.Apart.symm {slot other : Slot} (apart : slot.Apart other) : other.Apart slot := by
  cases slot <;> cases other
  case field.field => exact PathsApart.symm apart
  case capability.capability => exact Ne.symm apart
  case inventory.inventory => exact Ne.symm apart
  all_goals trivial

section Reading

variable {readers : Readers D} {row : Dict String (PyValue D)} {acc routed : Accumulator D}
  {binding : MetaBinding} {value : PyValue D}

/-- The policy looks at the value and at its binding only. -/
theorem value_applyMissingValuePolicy (binding : MetaBinding) (entityRef : String) (seq : ℕ)
    (raw : PyValue D) :
    (applyMissingValuePolicy binding entityRef seq raw).value = binding.resolve raw := by
  unfold MetaBinding.resolve applyMissingValuePolicy
  dsimp only
  split
  · split <;> rfl
  · rfl

/-- A routed value is read back from its slot, if the slot was free. -/
theorem read_routeValue (route : acc.routeValue binding value = some routed)
    (free : acc.read binding.slot = none) : routed.read binding.slot = some value := by
  unfold Accumulator.routeValue at route
  split at route
  · next term slot =>
    cases route
    rw [slot] at free ⊢
    have unnamed := Option.map_eq_none_iff.mp free
    simp only [Accumulator.read, List.find?_append, unnamed]
    simp
  · next material slot =>
    cases route
    rw [slot]
    simp [Accumulator.read]
  · next path slot =>
    obtain ⟨written, wrote, rfl⟩ := Option.map_eq_some_iff.mp route
    rw [slot]
    exact Nesting.getPath_setPath wrote

/-- Routing leaves the other slots alone. -/
theorem read_routeValue_apart (route : acc.routeValue binding value = some routed) {slot : Slot}
    (apart : binding.slot.Apart slot) : routed.read slot = acc.read slot := by
  unfold Accumulator.routeValue at route
  split at route
  · next term own =>
    cases route
    rw [own] at apart
    cases slot with
    | capability other =>
      change term ≠ other at apart
      simp only [Accumulator.read, List.find?_append]
      cases acc.capabilities.find? fun capability => decide (capability.semanticTerm = other) with
      | none => simp [apart]
      | some capability => rfl
    | inventory _ => rfl
    | field _ => rfl
  · next material own =>
    cases route
    rw [own] at apart
    cases slot with
    | capability _ => rfl
    | inventory other =>
      change material ≠ other at apart
      simp [Accumulator.read, apart]
    | field _ => rfl
  · next path own =>
    obtain ⟨written, wrote, rfl⟩ := Option.map_eq_some_iff.mp route
    rw [own] at apart
    cases slot with
    | capability _ => rfl
    | inventory _ => rfl
    | field other => exact Nesting.getPath_setPath_apart apart wrote

/-- One binding of a row that is kept: nothing is left of its column, or what is left is routed. -/
theorem accumulate_cons {entityRef : String} {seq : ℕ} {rest : List MetaBinding}
    {findings found : List (QualityFinding D)} {last : Accumulator D}
    (kept : accumulate readers row entityRef seq (binding :: rest) acc findings =
      some (.kept last found)) :
    ∃ routed more, accumulate readers row entityRef (seq + 1) rest routed more =
        some (.kept last found) ∧
      (binding.resolve (binding.raw row) = .null ∧ routed = acc ∨
        ∃ value, binding.coerced readers row = some value ∧
          acc.routeValue binding value = some routed) := by
  unfold accumulate at kept
  dsimp only at kept
  rw [value_applyMissingValuePolicy] at kept
  split at kept
  · cases kept
  · split at kept
    · next missing =>
      exact ⟨acc, _, kept, .inl ⟨missing, rfl⟩⟩
    · next resolved left =>
      obtain ⟨value, coerces, kept⟩ := Option.bind_eq_some_iff.mp kept
      obtain ⟨routed, route, kept⟩ := Option.bind_eq_some_iff.mp kept
      refine ⟨routed, _, kept, .inr ⟨value, ?_, route⟩⟩
      rw [← coerces, MetaBinding.coerced]
      split
      · next missing => exact absurd missing left
      · rfl

/-- Bindings with slots apart from a slot leave it alone. -/
theorem read_accumulate_apart {entityRef : String} {bindings : List MetaBinding} {slot : Slot}
    (apart : ∀ binding ∈ bindings, binding.slot.Apart slot) {seq : ℕ}
    {findings found : List (QualityFinding D)} {last : Accumulator D}
    (kept : accumulate readers row entityRef seq bindings acc findings = some (.kept last found)) :
    last.read slot = acc.read slot := by
  induction bindings generalizing seq acc findings with
  | nil =>
    cases kept
    rfl
  | cons binding rest ih =>
    obtain ⟨own, others⟩ := List.forall_mem_cons.mp apart
    obtain ⟨routed, more, later, step⟩ := accumulate_cons kept
    rw [ih others later]
    rcases step with ⟨-, rfl⟩ | ⟨value, -, route⟩
    · rfl
    · exact read_routeValue_apart route own

/-- Every binding finds its own value in its slot, where the slots are apart. -/
theorem read_accumulate {entityRef : String} {bindings : List MetaBinding}
    (apart : bindings.Pairwise fun a b => a.slot.Apart b.slot)
    (free : ∀ binding ∈ bindings, acc.read binding.slot = none) {seq : ℕ}
    {findings found : List (QualityFinding D)} {last : Accumulator D}
    (kept : accumulate readers row entityRef seq bindings acc findings = some (.kept last found)) :
    ∀ binding ∈ bindings, last.read binding.slot = binding.coerced readers row := by
  induction bindings generalizing seq acc findings with
  | nil => exact fun _ member => absurd member List.not_mem_nil
  | cons binding rest ih =>
    obtain ⟨own, others⟩ := List.pairwise_cons.mp apart
    obtain ⟨ownFree, othersFree⟩ := List.forall_mem_cons.mp free
    obtain ⟨routed, more, later, step⟩ := accumulate_cons kept
    have stillFree : ∀ other ∈ rest, routed.read other.slot = none := by
      intro other member
      rcases step with ⟨-, rfl⟩ | ⟨value, -, route⟩
      · exact othersFree other member
      · rw [read_routeValue_apart route (own other member)]
        exact othersFree other member
    refine List.forall_mem_cons.mpr ⟨?_, ih others stillFree later⟩
    rw [read_accumulate_apart (fun other member => (own other member).symm) later]
    rcases step with ⟨missing, rfl⟩ | ⟨value, left, route⟩
    · rw [MetaBinding.coerced, missing, ownFree]
    · rw [left, read_routeValue route ownFree]

/-- What is left of a column of a row that is kept is coerced. -/
theorem coerced_of_accumulate {entityRef : String} {bindings : List MetaBinding} {seq : ℕ}
    {findings found : List (QualityFinding D)} {last : Accumulator D}
    (kept : accumulate readers row entityRef seq bindings acc findings = some (.kept last found)) :
    ∀ binding ∈ bindings, binding.resolve (binding.raw row) = .null ∨
      ∃ value, binding.coerced readers row = some value := by
  induction bindings generalizing seq acc findings with
  | nil => exact fun _ member => absurd member List.not_mem_nil
  | cons binding rest ih =>
    obtain ⟨routed, more, later, step⟩ := accumulate_cons kept
    refine List.forall_mem_cons.mpr ⟨?_, ih later⟩
    rcases step with ⟨missing, -⟩ | ⟨value, left, -⟩
    · exact .inl missing
    · exact .inr ⟨value, left⟩

end Reading

@[simp] theorem Accumulator.read_empty (slot : Slot) : ({} : Accumulator D).read slot = none := by
  cases slot with
  | field path => exact Nesting.getPath_nil path
  | _ => rfl

end FlOp.Mapping
