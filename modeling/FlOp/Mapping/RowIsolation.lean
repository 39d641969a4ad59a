import FlOp.Library.Fallible
import FlOp.Mapping.RowEmission

/-! # Isolation of rows

Mapping raises on the first row with a value that is no value of its type: the policy of a binding
looks at missing values only. Where every value that is left of a row is coerced, routed and
accepted by the record of its entity, each row gives its own entity or exclusion and nothing else.
-/

namespace FlOp.Mapping

open Library FlOp.Core

variable {T : Type}

/-- A policy drops the row where the column of its binding is missing. -/
def MetaBinding.drops (binding : MetaBinding) (row : Dict String String) : Bool :=
  (binding.column row : PyValue Unit).isMissing && binding.missingValuePolicy ∉ [
    some .acceptOptional, some .acceptWithWarning, some .fallbackToConservativeValue, some .impute]

/-- What the policy of a binding leaves of its column. -/
def MetaBinding.leftOf (binding : MetaBinding) (row : Dict String String) : Option Literal :=
  (binding.resolve (binding.column row : PyValue Unit)).left

/-- What is left of the column is a value of the declared quantity kind. -/
def MetaBinding.coerces (py : Builtins T) (row : Dict String String) (binding : MetaBinding) :
    Bool :=
  (binding.leftOf row).all fun left => (binding.coerce py left).isSome

/-- The bindings before the first one that drops the row. -/
def reached (row : Dict String String) (bindings : List MetaBinding) : List MetaBinding :=
  bindings.takeWhile fun binding => !binding.drops row

/-- The values that bindings give to a row. -/
def valuesOf (py : Builtins T) (row : Dict String String) (bindings : List MetaBinding) :
    List (MetaBinding × CellValue T) :=
  bindings.filterMap fun binding =>
    ((binding.leftOf row).bind (binding.coerce py)).map fun value => (binding, value)

/-- Route values, one after the other. -/
def routeAll : List (MetaBinding × CellValue T) → Gathered T → Option (Gathered T)
  | [], acc => some acc
  | (binding, value) :: rest, acc => (acc.routeValue binding value).bind (routeAll rest)

/-- The record of an entity takes what a row has gathered. -/
structure RecordTakes (py : Builtins T) (table : SourceTable) (attributes : List SourceAttribute)
    (acc : Gathered T) : Prop where
  reads : ∀ own ∈ attributes, (own.read py table acc.attributes).isSome
  stock : table.canonicalEntity = "location" →
    ∀ entry ∈ acc.inventory, (py.toFloat entry.quantity).isSome

/-- The values of a row are values of their types: each one before the first binding that drops the
row is coerced and its path runs through dictionaries only, and if nothing drops the row then the
record of its entity, which has an emitter, takes them. -/
def RowAccepted (py : Builtins T) (table : SourceTable) (row : Dict String String) : Prop :=
  ∃ attributes, emitters.lookup table.canonicalEntity = some attributes ∧
    (∀ binding ∈ reached row table.bindings, binding.coerces py row = true) ∧
    ∃ acc, routeAll (valuesOf py row (reached row table.bindings)) {} = some acc ∧
      ((∀ binding ∈ table.bindings, binding.drops row = false) →
        RecordTakes py table attributes acc)

/-- The findings of the policies, up to the one that drops the row. -/
def policyFindings (entityRef : String) (row : Dict String String) :
    ℕ → List MetaBinding → List (QualityFinding T)
  | _, [] => []
  | seq, binding :: rest =>
    (applyMissingValuePolicy binding entityRef seq (binding.column row)).finding.toList ++
      if binding.drops row then [] else policyFindings entityRef row (seq + 1) rest

/-- What a row leaves in a result, before its record is built. -/
def MappingResult.gathered (result : MappingResult T) (contractId entityRef : String)
    (row : Dict String String) (seq : ℕ) (bindings : List MetaBinding) (acc : Gathered T) :
    Option (Gathered T) × MappingResult T :=
  let found := { result with
    findings := result.findings ++ policyFindings entityRef row seq bindings }
  if bindings.any (·.drops row) then
    (none, { found with excluded := found.excluded.push contractId entityRef })
  else (some acc, found)

/-- A result together with what another one has found. -/
def MappingResult.extend (before out : MappingResult T) : MappingResult T where
  entities := before.entities ++ out.entities
  inventory := before.inventory ++ out.inventory
  findings := before.findings ++ out.findings
  excluded := out.excluded.entries.foldl (fun excluded entry =>
    entry.2.foldl (·.push entry.1 ·) excluded) before.excluded

/-- One entity, or one exclusion with a finding about it. -/
def MappingResult.OfOneRow (table : SourceTable) (out : MappingResult T) : Prop :=
  ((∃ record, out.entities = [record] ∧ record.entity = table.canonicalEntity) ∧
    out.excluded = .empty) ∨
  (out.entities = [] ∧ ∃ ref, out.excluded = Dict.empty.push table.contractId ref ∧
    ∃ finding ∈ out.findings, finding.entityRef = ref)

/-- Mapping never raises, every row gives one entity or one exclusion, and it gives what it gives on
its own, in any dataset and after any other one. -/
def RowsIsolated (py : Builtins T) (table : SourceTable) (rows : List (Dict String String)) :
    Prop :=
  ∃ outs : List (MappingResult T),
    List.Forall₂ (fun row out => mapSourceDataset py table [row] {} = some out ∧
      out.OfOneRow table) rows outs ∧
    ∀ before, mapSourceDataset py table rows before = some (outs.foldl MappingResult.extend before)

section Policies

variable (binding : MetaBinding) (entityRef : String) (seq : ℕ) (row : Dict String String)

theorem isMissing_column :
    (binding.column row : PyValue T).isMissing = (binding.column row : PyValue Unit).isMissing := by
  unfold MetaBinding.column
  split
  · rfl
  · rfl

/-- The policy drops the row as told by the column and the policy alone. -/
theorem dropEntity_eq :
    (applyMissingValuePolicy binding entityRef seq (binding.column row : PyValue T)).dropEntity =
      binding.drops row := by
  unfold applyMissingValuePolicy MetaBinding.drops
  rw [isMissing_column]
  cases (binding.column row : PyValue Unit).isMissing with
  | false => rfl
  | true =>
    cases binding.missingValuePolicy with
    | none => rfl
    | some policy => cases policy <;> rfl

/-- What is left does not depend on the type of the timestamps. -/
theorem left_resolve :
    (binding.resolve (binding.column row : PyValue T)).left = binding.leftOf row := by
  unfold MetaBinding.leftOf MetaBinding.resolve applyMissingValuePolicy
  rw [isMissing_column]
  cases (binding.column row : PyValue Unit).isMissing with
  | false =>
    unfold MetaBinding.column
    cases row.get? binding.sourceField <;> rfl
  | true =>
    cases binding.missingValuePolicy with
    | none => rfl
    | some policy => cases policy <;> rfl

/-- A policy that drops the row says so in a finding about it. -/
theorem exists_finding_of_drops (drops : binding.drops row = true) :
    ∃ finding, (applyMissingValuePolicy binding entityRef seq
      (binding.column row : PyValue T)).finding = some finding ∧
        finding.entityRef = entityRef := by
  rw [← dropEntity_eq (T := T) binding entityRef seq row] at drops
  unfold applyMissingValuePolicy at drops ⊢
  cases missing : (binding.column row : PyValue T).isMissing with
  | false =>
    rw [missing] at drops
    cases drops
  | true =>
    rw [missing] at drops
    cases held : binding.missingValuePolicy with
    | none => exact ⟨_, rfl, rfl⟩
    | some policy =>
      rw [held] at drops
      cases policy <;> first | exact ⟨_, rfl, rfl⟩ | cases drops

end Policies

section Gathering

variable {py : Builtins T} {row : Dict String String}

/-- A binding that drops the row is the last one that counts. -/
theorem reached_cons (binding : MetaBinding) (rest : List MetaBinding) :
    reached row (binding :: rest) =
      if binding.drops row then [] else binding :: reached row rest := by
  unfold reached
  rw [List.takeWhile_cons]
  cases binding.drops row <;> rfl

/-- A row is gathered exactly if the values that are reached are coerced and routed. -/
theorem gather_eq (contractId entityRef : String) (bindings : List MetaBinding) (seq : ℕ)
    (acc : Gathered T) (result : MappingResult T) :
    gather py contractId entityRef row seq bindings acc result =
      if (reached row bindings).all (·.coerces py row) then
        (routeAll (valuesOf py row (reached row bindings)) acc).map
          (result.gathered contractId entityRef row seq bindings)
      else none := by
  induction bindings generalizing seq acc result with
  | nil => simp [gather, reached, valuesOf, routeAll, MappingResult.gathered, policyFindings]
  | cons binding rest ih =>
    rw [gather, reached_cons]
    dsimp only
    rw [dropEntity_eq, value_applyMissingValuePolicy, left_resolve]
    cases drops : binding.drops row with
    | true =>
      simp [drops, valuesOf, routeAll, MappingResult.gathered, policyFindings]
    | false =>
      simp only [Bool.false_eq_true, if_false, List.all_cons]
      have later : MappingResult.gathered { result with
          findings := result.findings ++ (applyMissingValuePolicy binding entityRef seq
            (binding.column row)).finding.toList } contractId entityRef row (seq + 1) rest =
          result.gathered contractId entityRef row seq (binding :: rest) := by
        funext routed
        simp [MappingResult.gathered, policyFindings, drops]
      cases left : binding.leftOf row with
      | none =>
        have passes : binding.coerces py row = true := by simp [MetaBinding.coerces, left]
        have none' : valuesOf py row (binding :: reached row rest) =
            valuesOf py row (reached row rest) := by
          simp [valuesOf, left]
        rw [passes, Bool.true_and, none', ih, later]
      | some value =>
        cases coerced : binding.coerce py value with
        | none =>
          have fails : binding.coerces py row = false := by
            simp [MetaBinding.coerces, left, coerced]
          simp [fails, coerced]
        | some cell =>
          have passes : binding.coerces py row = true := by
            simp [MetaBinding.coerces, left, coerced]
          have first : valuesOf py row (binding :: reached row rest) =
              (binding, cell) :: valuesOf py row (reached row rest) := by
            simp [valuesOf, left, coerced]
          rw [passes, Bool.true_and, first, routeAll]
          dsimp only
          rw [coerced, Option.bind_some]
          cases acc.routeValue binding cell with
          | none => simp
          | some routed =>
            rw [Option.bind_some, Option.bind_some, ih, later]

/-- A row that is dropped has a finding about it. -/
theorem exists_finding_of_any_drops {entityRef : String} {bindings : List MetaBinding} (seq : ℕ)
    (dropped : bindings.any (·.drops row) = true) :
    ∃ finding ∈ (policyFindings entityRef row seq bindings : List (QualityFinding T)),
      finding.entityRef = entityRef := by
  induction bindings generalizing seq with
  | nil => cases dropped
  | cons binding rest ih =>
    rw [policyFindings]
    cases drops : binding.drops row with
    | true =>
      obtain ⟨finding, found, about⟩ := exists_finding_of_drops (T := T) binding entityRef seq row
        drops
      exact ⟨finding, by simp [found], about⟩
    | false =>
      rw [List.any_cons, drops, Bool.false_or] at dropped
      obtain ⟨finding, member, about⟩ := ih (seq + 1) dropped
      exact ⟨finding, by simp [member], about⟩

end Gathering

section Building

variable {py : Builtins T} {table : SourceTable} {attributes : List SourceAttribute}

/-- A record is built exactly if each of its attributes is. -/
theorem isSome_buildFields (fields : List (String × CellValue T)) :
    (buildFields py table fields attributes).isSome ↔
      ∀ own ∈ attributes, (own.read py table fields).isSome := by
  induction attributes with
  | nil => simp [buildFields]
  | cons first rest ih =>
    rw [List.forall_mem_cons, ← ih, buildFields]
    cases first.read py table fields with
    | none => simp
    | some value => simp

/-- The stock of a location is built exactly if each quantity is a number. -/
theorem isSome_stockPositions (locationId : String) (stock : List (CellStock T)) :
    (stockPositions py locationId stock).isSome ↔
      ∀ entry ∈ stock, (py.toFloat entry.quantity).isSome := by
  induction stock with
  | nil => simp [stockPositions]
  | cons first rest ih =>
    rw [List.forall_mem_cons, ← ih, stockPositions]
    cases py.toFloat first.quantity with
    | none => simp
    | some quantity => simp

/-- The record of an entity is emitted exactly if it takes what is gathered. -/
theorem isSome_emit (acc : Gathered T) (result : MappingResult T) :
    (emit py table attributes acc result).isSome ↔ RecordTakes py table attributes acc := by
  unfold emit
  constructor
  · intro emitted
    obtain ⟨out, emitted⟩ := Option.isSome_iff_exists.mp emitted
    obtain ⟨fields, built, emitted⟩ := Option.bind_eq_some_iff.mp emitted
    obtain ⟨positions, stocked, -⟩ := Option.map_eq_some_iff.mp emitted
    refine ⟨(isSome_buildFields _).mp (by rw [built]; rfl), fun location => ?_⟩
    rw [if_pos location] at stocked
    exact (isSome_stockPositions _ _).mp (by rw [stocked]; rfl)
  · rintro ⟨reads, stock⟩
    obtain ⟨fields, built⟩ := Option.isSome_iff_exists.mp ((isSome_buildFields _).mpr reads)
    rw [built, Option.bind_some, Option.isSome_map, isSome_stockPositions]
    split
    · next location => exact stock location
    · exact fun entry member => absurd member List.not_mem_nil

/-- An emitted record is appended, with its stock, to what a result held before. -/
theorem emit_appends {acc : Gathered T} {result out : MappingResult T}
    (emitted : emit py table attributes acc result = some out) :
    ∃ (record : EntityRecord T) (positions : List StockPosition),
      record.entity = table.canonicalEntity ∧
        ∀ other : MappingResult T, emit py table attributes acc other = some { other with
          entities := other.entities ++ [record], inventory := other.inventory ++ positions } := by
  obtain ⟨fields, built, emitted⟩ := Option.bind_eq_some_iff.mp emitted
  obtain ⟨positions, stocked, -⟩ := Option.map_eq_some_iff.mp emitted
  refine ⟨{
    entity := table.canonicalEntity
    fields := fields
    capabilities := if table.canonicalEntity = "asset" then acc.capabilities else []
    roles :=
      if table.canonicalEntity = "asset" then table.assetRole.toList.filter (· ≠ "") else [] },
    positions, rfl, fun other => ?_⟩
  unfold emit
  rw [built, Option.bind_some]
  dsimp only
  rw [stocked, Option.map_some]

/-- One row of the loop passes exactly if the row is accepted. -/
theorem isSome_mapSourceRow (row : Dict String String) (result : MappingResult T) :
    (mapSourceRow py table attributes result row).isSome ↔
      (∀ binding ∈ reached row table.bindings, binding.coerces py row = true) ∧
        ∃ acc, routeAll (valuesOf py row (reached row table.bindings)) {} = some acc ∧
          ((∀ binding ∈ table.bindings, binding.drops row = false) →
            RecordTakes py table attributes acc) := by
  rw [mapSourceRow, gatherRow, gather_eq]
  split
  · next coerces =>
    rw [and_iff_right (List.all_eq_true.mp coerces)]
    cases routed : routeAll (valuesOf py row (reached row table.bindings)) {} with
    | none => simp
    | some acc =>
      simp only [Option.map_some, Option.bind_some, Option.some.injEq, exists_eq_left',
        MappingResult.gathered]
      cases dropped : table.bindings.any fun binding => binding.drops row with
      | true =>
        simp only [if_true, Option.isSome_some, true_iff]
        obtain ⟨binding, member, drops⟩ := List.any_eq_true.mp dropped
        intro undropped
        rw [undropped binding member] at drops
        cases drops
      | false =>
        simp only [Bool.false_eq_true, if_false, isSome_emit]
        have undropped : ∀ binding ∈ table.bindings, binding.drops row = false := by
          simpa using dropped
        exact ⟨fun takes _ => takes, fun takes => takes undropped⟩
  · next fails =>
    simp only [Option.bind_none, Option.isSome_none, Bool.false_eq_true, false_iff]
    exact fun accepted => fails (List.all_eq_true.mpr accepted.1)

/-- A row that passes gives one entity or one exclusion, whatever the result held before. -/
theorem mapSourceRow_extends {row : Dict String String} {result other : MappingResult T}
    (passes : mapSourceRow py table attributes result row = some other) :
    ∃ out : MappingResult T, out.OfOneRow table ∧
      ∀ before, mapSourceRow py table attributes before row = some (before.extend out) := by
  simp only [mapSourceRow, gatherRow, gather_eq] at passes ⊢
  split at passes
  · next coerces =>
    simp only [if_pos coerces]
    cases routed : routeAll (valuesOf py row (reached row table.bindings)) {} with
    | none =>
      rw [routed] at passes
      cases passes
    | some acc =>
      rw [routed] at passes
      simp only [Option.map_some, Option.bind_some, MappingResult.gathered] at passes ⊢
      cases dropped : table.bindings.any fun binding => binding.drops row with
      | true =>
        obtain ⟨finding, found, about⟩ : ∃ finding ∈ (policyFindings (table.entityRef row) row 1
            table.bindings : List (QualityFinding T)), finding.entityRef = table.entityRef row :=
          exists_finding_of_any_drops 1 dropped
        refine ⟨⟨[], [], policyFindings (table.entityRef row) row 1 table.bindings,
          Dict.empty.push table.contractId (table.entityRef row)⟩,
          .inr ⟨rfl, _, rfl, finding, found, about⟩, fun before => ?_⟩
        have one : (Dict.empty.push table.contractId (table.entityRef row)).entries =
            [(table.contractId, [table.entityRef row])] := rfl
        simp [MappingResult.extend, one]
      | false =>
        simp only [dropped, Bool.false_eq_true, if_false] at passes
        obtain ⟨record, positions, entity, emits⟩ := emit_appends passes
        refine ⟨⟨[record], positions, policyFindings (table.entityRef row) row 1 table.bindings,
          .empty⟩, .inl ⟨⟨record, rfl, entity⟩, rfl⟩, fun before => ?_⟩
        simp [emits, MappingResult.extend, Dict.empty]
  · cases passes

end Building

section Dataset

variable {py : Builtins T} {table : SourceTable}

/-- One row is mapped exactly if it is accepted, where its entity has an emitter. -/
theorem rowAccepted_iff {attributes : List SourceAttribute} {row : Dict String String}
    (emitter : emitters.lookup table.canonicalEntity = some attributes)
    (result : MappingResult T) :
    RowAccepted py table row ↔ (mapSourceRow py table attributes result row).isSome := by
  rw [isSome_mapSourceRow]
  constructor
  · rintro ⟨others, emits, accepted⟩
    obtain rfl := Option.some.inj (emits.symm.trans emitter)
    exact accepted
  · exact fun accepted => ⟨attributes, emitter, accepted⟩

/-- A row on its own is mapped as one row of the loop. -/
theorem mapSourceDataset_singleton {attributes : List SourceAttribute} {row : Dict String String}
    (emitter : emitters.lookup table.canonicalEntity = some attributes)
    (result : MappingResult T) :
    mapSourceDataset py table [row] result = mapSourceRow py table attributes result row := by
  unfold mapSourceDataset
  rw [emitter]
  change (mapSourceRow py table attributes result row).bind some = _
  exact Option.bind_fun_some _

theorem extend_empty (out : MappingResult T) (ofOneRow : out.OfOneRow table) :
    MappingResult.extend {} out = out := by
  obtain ⟨entities, inventory, findings, excluded⟩ := out
  rcases ofOneRow with ⟨-, none⟩ | ⟨-, ref, one, -⟩
  · cases none
    rfl
  · cases one
    rfl

/-- Accepted rows are mapped one after the other, each to what it gives on its own. -/
theorem mapSourceRows_extends {attributes : List SourceAttribute}
    {rows : List (Dict String String)}
    (passes : ∀ row ∈ rows, (mapSourceRow py table attributes {} row).isSome) :
    ∃ outs : List (MappingResult T),
      List.Forall₂ (fun row out => mapSourceRow py table attributes {} row = some out ∧
        out.OfOneRow table) rows outs ∧
      ∀ before, mapSourceRows py table attributes rows before =
        some (outs.foldl MappingResult.extend before) := by
  induction rows with
  | nil => exact ⟨[], .nil, fun before => rfl⟩
  | cons row rest ih =>
    obtain ⟨first, later⟩ := List.forall_mem_cons.mp passes
    obtain ⟨alone, mapped⟩ := Option.isSome_iff_exists.mp first
    obtain ⟨out, ofOneRow, extends'⟩ := mapSourceRow_extends mapped
    obtain ⟨outs, each, run⟩ := ih later
    refine ⟨out :: outs, .cons ⟨?_, ofOneRow⟩ each, fun before => ?_⟩
    · rw [extends', extend_empty out ofOneRow]
    · rw [mapSourceRows, extends', Option.bind_some, run, List.foldl_cons]

/-- Every row of a dataset gives one entity or one exclusion, apart from all other rows, exactly if
the values of every row are values of their types. -/
theorem rowsIsolated_iff_accepted (py : Builtins T) (table : SourceTable)
    (rows : List (Dict String String)) :
    RowsIsolated py table rows ↔ ∀ row ∈ rows, RowAccepted py table row := by
  cases emitter : emitters.lookup table.canonicalEntity with
  | none =>
    constructor
    · rintro ⟨outs, each, -⟩ row member
      obtain ⟨out, -, alone, ofOneRow⟩ := Fallible.exists_right_of_forall₂ each member
      -- Rows of an entity without an emitter are passed over: neither emitted nor excluded.
      rw [mapSourceDataset, emitter] at alone
      cases alone
      rcases ofOneRow with ⟨⟨record, one, -⟩, -⟩ | ⟨-, ref, one, -⟩
      · cases one
      · cases one
    · intro accepted
      cases rows with
      | nil => exact ⟨[], .nil, fun before => by rw [mapSourceDataset, emitter]; rfl⟩
      | cons row rest =>
        obtain ⟨attributes, emits, -⟩ := accepted row List.mem_cons_self
        rw [emitter] at emits
        cases emits
  | some attributes =>
    constructor
    · rintro ⟨outs, each, -⟩ row member
      obtain ⟨out, -, alone, -⟩ := Fallible.exists_right_of_forall₂ each member
      rw [mapSourceDataset_singleton emitter] at alone
      rw [rowAccepted_iff emitter {}, alone]
      rfl
    · intro accepted
      have passes : ∀ row ∈ rows, (mapSourceRow py table attributes {} row).isSome :=
        fun row member => (rowAccepted_iff emitter {}).mp (accepted row member)
      obtain ⟨outs, each, run⟩ := mapSourceRows_extends passes
      refine ⟨outs, each.imp fun row out alone => ?_, fun before => ?_⟩
      · rw [mapSourceDataset_singleton emitter]
        exact alone
      · unfold mapSourceDataset
        rw [emitter]
        exact run before

end Dataset

section Orders

/-- The columns every order has to give. -/
def ordersTable : SourceTable where
  contractId := "orders"
  canonicalEntity := "task"
  bindings := [
    { sourceField := "order_id", binding := "task.taskId"
      semanticTerm := "urn:xopt:identity:task-id", planningUse := ["identity"] },
    { sourceField := "field_id", binding := "task.locationRef"
      semanticTerm := "urn:xopt:relationship:location", planningUse := ["geospatial"]
      missingValuePolicy := some .rejectForPlanning },
    { sourceField := "operation_type", binding := "task.operationType"
      semanticTerm := "urn:xopt:attribute:operation-type"
      planningUse := ["compatibility-filter"], missingValuePolicy := some .rejectForPlanning },
    { sourceField := "area_ha", binding := "task.areaHa"
      semanticTerm := "urn:xopt:attribute:service-area", canonicalUnit := some "ha"
      quantityKind := some "area", planningUse := ["duration-estimation"]
      missingValuePolicy := some .rejectForPlanning }]

/-- The number of a text of digits. -/
def digitsValue (text : String) : Option ℕ :=
  if text.toList ≠ [] ∧ text.toList.all Char.isDigit then
    some (text.toList.foldl (fun n c => 10 * n + (c.toNat - 48)) 0)
  else none

/-- Builtins for texts of digits, where no literal is a list or a dictionary. -/
def numeralBuiltins : Builtins Unit where
  parseFloat text := (digitsValue text).map fun n => .number n
  parseInt text := (digitsValue text).map fun n => n
  literalEval _ := .refused
  fromIsoformat _ := none
  reprLiteral _ := none
  repr _ := none
  validFloat _ := none
  validTime _ := none

/-- An order for an area. -/
def orderRow (orderId area : String) : Dict String String :=
  ⟨[("order_id", orderId), ("field_id", "field-1"), ("operation_type", "harvest"),
    ("area_ha", area)], by simp⟩

/-- An order for twelve hectares is mapped, and one without an area is excluded; with a third one
that has a note for its area, nothing is mapped. -/
theorem note_for_area_raises :
    (mapSourceDataset numeralBuiltins ordersTable [orderRow "order-1" "12", orderRow "order-2" " "]
      {}).map (fun result => (result.entities.length, result.excluded.entries)) =
        some (1, [("orders", ["order-2"])]) ∧
    mapSourceDataset numeralBuiltins ordersTable
      [orderRow "order-1" "12", orderRow "order-2" " ", orderRow "order-3" "n/a"] {} = none ∧
    ¬ RowsIsolated numeralBuiltins ordersTable
      [orderRow "order-1" "12", orderRow "order-2" " ", orderRow "order-3" "n/a"] := by
  have raises : (mapSourceDataset numeralBuiltins ordersTable
      [orderRow "order-1" "12", orderRow "order-2" " ", orderRow "order-3" "n/a"] {}).isNone := by
    decide +kernel
  have none' := Option.isNone_iff_eq_none.mp raises
  refine ⟨by decide +kernel, none', ?_⟩
  rintro ⟨outs, -, run⟩
  rw [run] at none'
  cases none'

end Orders

end FlOp.Mapping
