import FlOp.Stream.Handlers

/-! # Where a correction goes

A correction names no collection. The applicator takes the first collection whose key column the
payload has and that knows the payload's key; a column that is a key there may be a mere reference
in the row that is being corrected.
-/

namespace FlOp.Stream

open FlOp.Core Library Mapping BindingTable

/-- The column that identifies the rows of a contract. -/
def Registry.keyField (registry : Registry) (contractId : String) : Option String :=
  (registry.tables.get? contractId).bind fun table => named table.entityKeyField

/-- At most the one row of a reference is replaced by, or added with, the same reference. -/
def OneRowChanged (key ref : String) (before after : List Row) : Prop :=
  after = before ∨
    (∃ i row new, before[i]? = some row ∧ row.hasKey key ref ∧ new.hasKey key ref ∧
      after = before.set i new) ∨
    ∃ new, new.hasKey key ref ∧ after = before ++ [new]

/-- Only the owner's row of the reference may differ. -/
structure CorrectionFrame (registry : Registry) (owner ref : String) (before after : Sources) :
    Prop where
  others : ∀ c, c ≠ owner → after.rows c = before.rows c
  own : after.rows owner = before.rows owner ∨ ∃ key ∈ registry.keyField owner,
    OneRowChanged key ref (before.rows owner) (after.rows owner)

/-- The correction goes to the owner under the event's reference, or to no collection, or it
repeats the row it meets. -/
def GoesTo (registry : Registry) (owner : String) (sources : Sources) (event : ExecutionEvent) :
    Prop :=
  ∀ target ∈ correctionTarget registry sources event.payload,
    target.1 = owner ∧ (event.payload.value target.2).shown = event.entityRef ∨
      (sources.rows target.1).find?
        (fun row => row.hasKey target.2 (event.payload.value target.2).shown) = some event.payload

section Frame

variable {registry : Registry} {sources : Sources} {payload : Row} {target : String × String}

theorem keyField_of_mem_candidates
    (member : target ∈ correctionCandidates registry sources payload) :
    registry.keyField target.1 = some target.2 := by
  obtain ⟨entry, listed, candidate⟩ := List.mem_filterMap.mp member
  obtain ⟨key, column, chosen⟩ := Option.bind_eq_some_iff.mp candidate
  split_ifs at chosen
  obtain rfl := Option.some.inj chosen
  rw [Registry.keyField, (Dict.get?_eq_some_iff _ _ _).mpr listed]
  exact column

theorem key_mem_of_mem_candidates
    (member : target ∈ correctionCandidates registry sources payload) :
    target.2 ∈ Dict.keys payload := by
  obtain ⟨entry, -, candidate⟩ := List.mem_filterMap.mp member
  obtain ⟨key, -, chosen⟩ := Option.bind_eq_some_iff.mp candidate
  split_ifs at chosen with here
  obtain rfl := Option.some.inj chosen
  exact here.2

theorem mem_candidates_of_target
    (chosen : correctionTarget registry sources payload = some target) :
    target ∈ correctionCandidates registry sources payload :=
  mem_of_firstKnown chosen

/-- A payload written under its own key stays within one row of a reference exactly if it has that
reference, or if it is there already. -/
private theorem oneRowChanged_upsertRow_iff {key ref : String} {rows : List Row} :
    OneRowChanged key ref rows (upsertRow rows key payload) ↔
      (payload.value key).shown = ref ∨
        rows.find? (fun row => row.hasKey key (payload.value key).shown) = some payload := by
  rw [← upsert_eq_self_iff]
  change OneRowChanged key ref rows (upsertRow rows key payload) ↔
    _ ∨ upsertRow rows key payload = rows
  rcases first_or_none (fun row : Row => row.hasKey key (payload.value key).shown) rows with
    ⟨before, old, after, rfl, earlier, found⟩ | none
  · rw [upsertRow, upsert_of_first earlier found]
    constructor
    · rintro (same | ⟨i, row, new, -, -, renamed, written⟩ | ⟨new, -, added⟩)
      · exact .inr same
      · by_cases here : i = before.length
        · subst here
          rw [List.set_append_right _ _ (Nat.le_refl _), Nat.sub_self, List.set_cons_zero,
            List.append_cancel_left_eq, List.cons.injEq] at written
          exact .inl (of_decide_eq_true (written.1 ▸ renamed))
        · have middle := congrArg (·[before.length]?) written
          rw [List.getElem?_set_ne here] at middle
          simp only [List.getElem?_append_right (Nat.le_refl _), Nat.sub_self,
            List.getElem?_cons_zero, Option.some.injEq] at middle
          exact .inr (by rw [middle])
      · have lengths := congrArg List.length added
        simp at lengths
    · rintro (same | kept)
      · refine .inr (.inl ⟨before.length, old, payload, ?_, ?_, decide_eq_true same, ?_⟩)
        · simp
        · exact decide_eq_true ((of_decide_eq_true found).trans same)
        · rw [List.set_append_right _ _ (Nat.le_refl _), Nat.sub_self, List.set_cons_zero]
      · exact .inl kept
  · rw [upsertRow, upsert_of_none none]
    constructor
    · rintro (same | ⟨i, row, new, -, -, -, written⟩ | ⟨new, renamed, added⟩)
      · exact .inr same
      · have lengths := congrArg List.length written
        simp at lengths
      · obtain rfl := List.singleton_inj.mp (List.append_cancel_left added)
        exact .inl (of_decide_eq_true renamed)
    · rintro (same | kept)
      · exact .inr (.inr ⟨payload, decide_eq_true same, rfl⟩)
      · exact .inl kept

/-- An upsert keeps within the owner's row exactly if it goes there, or repeats what it meets. -/
private theorem correctionFrame_iff {owner : String} {event : ExecutionEvent}
    (chosen : correctionTarget registry sources event.payload = some target) :
    CorrectionFrame registry owner event.entityRef sources
        (sources.updateRows target.1 (upsertRow · target.2 event.payload)) ↔
      target.1 = owner ∧ (event.payload.value target.2).shown = event.entityRef ∨
        (sources.rows target.1).find? (fun row =>
          row.hasKey target.2 (event.payload.value target.2).shown) = some event.payload := by
  have column := keyField_of_mem_candidates (mem_candidates_of_target chosen)
  have unchanged : (sources.updateRows target.1 (upsertRow · target.2 event.payload)).rows
      target.1 = sources.rows target.1 ↔ (sources.rows target.1).find? (fun row =>
        row.hasKey target.2 (event.payload.value target.2).shown) = some event.payload := by
    rw [rows_updateRows, if_pos rfl]
    exact upsert_eq_self_iff
  by_cases own : target.1 = owner
  · subst own
    simp only [true_and]
    rw [← oneRowChanged_upsertRow_iff]
    constructor
    · intro frame
      have after := frame.own
      rw [rows_updateRows, if_pos rfl] at after
      rcases after with same | ⟨key, named, changed⟩
      · exact .inl same
      · obtain rfl := Option.some.inj (column.symm.trans named)
        exact changed
    · intro changed
      refine ⟨fun c other => ?_, .inr ⟨target.2, column, ?_⟩⟩
      · rw [rows_updateRows, if_neg other]
      · rwa [rows_updateRows, if_pos rfl]
  · simp only [own, false_and, false_or]
    rw [← unchanged]
    constructor
    · intro frame
      exact frame.others target.1 own
    · intro same
      refine ⟨fun c _ => ?_, .inl ?_⟩
      · by_cases here : c = target.1
        · rw [here, same]
        · rw [rows_updateRows, if_neg here]
      · rw [rows_updateRows, if_neg fun equal => own equal.symm]

end Frame

/-- A correction that is applied changes at most the owner's row of its reference if and only if
it is picked for the owner under that reference, is picked for no collection, or repeats the row
it replaces. -/
theorem correctionFrame_apply_iff (registry : Registry) (published : List String)
    (applicator : EventApplicator) (event : ExecutionEvent) (owner : String)
    (correction : event.eventType = .entityCorrected) :
    CorrectionFrame registry owner event.entityRef applicator.work.sources
        (applicator.apply registry published event).1.work.sources ↔
      Replayed applicator.seenEventIds published event ∨
        GoesTo registry owner applicator.work.sources event := by
  have frame_rfl : CorrectionFrame registry owner event.entityRef applicator.work.sources
      applicator.work.sources := ⟨fun _ _ => rfl, .inl rfl⟩
  unfold EventApplicator.apply
  by_cases replayed : Replayed applicator.seenEventIds published event
  · rw [if_pos replayed]
    exact ⟨fun _ => .inl replayed, fun _ => frame_rfl⟩
  · rw [if_neg replayed, or_iff_right replayed]
    simp only [handle, correction, upsertEntity_eq]
    cases chosen : correctionTarget registry applicator.work.sources event.payload with
    | none => simpa [GoesTo, chosen] using frame_rfl
    | some target =>
      simp only [GoesTo, chosen, Option.mem_def, Option.some.injEq, forall_eq']
      exact correctionFrame_iff chosen

/-- Numbers, times and shapes are not read in these examples. -/
def plainPrimitives : Primitives where
  parseFloat _ := none
  showFloat _ := ""
  parseTime _ := none
  parsePolygon _ := .error .valueError
  pathLatLon _ := []
  sweptPolygon _ _ := []
  ringsAreaKm2 _ := 0

/-- Fields, and orders that refer to them, in the order of the deployed registry. -/
def farmRegistry : Registry where
  tables := (Dict.empty.set "fields" {
      canonicalEntity := "location"
      bindings := [{
        sourceField := "field_id", binding := "location.locationId", planningUse := ["identity"] }]
      }).set "orders" {
    canonicalEntity := "task"
    bindings := [
      { sourceField := "order_id", binding := "task.taskId", planningUse := ["identity"] },
      { sourceField := "field_id", binding := "task.locationRef", planningUse := ["geospatial"] }] }
  primitives := plainPrimitives

/-- One field and one order on it. -/
def farmSources : Sources :=
  (Dict.empty.set "fields" [Dict.empty.set "field_id" (.text "f1")]).set "orders"
    [(Dict.empty.set "order_id" (.text "o1")).set "field_id" (.text "f1")]

def fieldCorrection : ExecutionEvent where
  eventId := "c1"
  eventType := .entityCorrected
  entityRef := "f1"
  payload := (Dict.empty.set "field_id" (.text "f1")).set "area_ha" (.text "12")

def orderCorrection : ExecutionEvent where
  eventId := "c2"
  eventType := .entityCorrected
  entityRef := "o1"
  payload := ((Dict.empty.set "order_id" (.text "o1")).set "field_id" (.text "f1")).set
    "operation_type" (.text "plowing")

theorem correctionFrame_apply_iff_field :
    CorrectionFrame farmRegistry "fields" "f1" farmSources
      (({ work := { sources := farmSources } } : EventApplicator).apply farmRegistry []
        fieldCorrection).1.work.sources := by
  refine (correctionFrame_apply_iff farmRegistry [] { work := { sources := farmSources } }
    fieldCorrection "fields" rfl).mpr (.inr ?_)
  unfold GoesTo
  decide +kernel

/-- The correction of an order replaces the row of the field it refers to. -/
theorem order_correction_overwrites_field :
    ¬ CorrectionFrame farmRegistry "orders" "o1" farmSources
      (({ work := { sources := farmSources } } : EventApplicator).apply farmRegistry []
        orderCorrection).1.work.sources := by
  intro frame
  exact absurd (frame.others "fields" (by decide)) (by decide +kernel)

end FlOp.Stream
