import FlOp.Contracts.Gen.Checker
import FlOp.Library.Listing

/-! # Generated records

Two formats write a record whose `fields` list an entry for every field property. Such a record is
generated exactly if every value can be written, and lists each field once exactly if their names
differ.
-/

namespace FlOp.Contracts.Gen

open FlOp.Core Library

/-- The name of a field, as it is written. -/
def ownName (prop : Block) : Yaml := (nameOf prop).json.getD .null

/-- A name that is a text is written as it is. -/
theorem ownName_of_text {prop : Block} {name : String} (named : nameOf prop = .text name) :
    ownName prop = .text name := by
  rw [ownName, named, Yaml.json_text, Option.getD_some]

/-- Only a text is written as one. -/
theorem text_of_ownName {prop : Block} {name : String} (own : ownName prop = .text name) :
    nameOf prop = .text name := by
  unfold ownName at own
  cases shape : nameOf prop with
  | scalar s =>
    rw [shape] at own
    cases s with
    | time _ => cases own
    | _ => simpa [Yaml.json] using own
  | sequence items =>
    rw [shape, Yaml.json] at own
    cases written : Yaml.jsonItems items <;> rw [written] at own <;> cases own
  | mapping entries =>
    rw [shape, Yaml.json] at own
    cases written : Yaml.jsonEntries entries <;> rw [written] at own <;> cases own

/-- The name of an entry, and what it holds under a key. -/
def entryOf (typeKey : String) : Yaml → Option (Yaml × Yaml)
  | .mapping block => some (Yaml.get block "name" .null, Yaml.get block typeKey .null)
  | _ => none

/-- The entries that an artifact lists under `fields`. -/
def listedFields (typeKey : String) : Yaml → List (Yaml × Yaml)
  | .mapping top =>
    match Yaml.get top "fields" .null with
    | .sequence items => items.filterMap (entryOf typeKey)
    | _ => []
  | _ => []

/-- A record of some entries and the fields. -/
def record (header : List (String × Yaml)) (blocks : List (List (String × Yaml))) : Yaml :=
  .mapping (Yaml.fields (header ++
    [("fields", .sequence (blocks.map fun block => .mapping (Yaml.fields block)))]))

/-- Everything in a list of entries can be written. -/
def Writable (entries : List (String × Yaml)) : Prop := ∀ entry ∈ entries, entry.2.json.isSome

@[simp] theorem writable_nil : Writable [] := nofun

@[simp] theorem writable_cons {entry : String × Yaml} {rest : List (String × Yaml)} :
    Writable (entry :: rest) ↔ entry.2.json.isSome ∧ Writable rest :=
  List.forall_mem_cons

theorem dumps_eq_ok {value written : Yaml} : dumps value = .ok written ↔
    value.json = some written := by
  unfold dumps
  cases value.json <;> simp

theorem isSome_json_record {header : List (String × Yaml)}
    {blocks : List (List (String × Yaml))} :
    (record header blocks).json.isSome ↔ Writable header ∧ ∀ block ∈ blocks, Writable block := by
  rw [record, Yaml.isSome_json_fields, List.forall_mem_append, List.forall_mem_singleton,
    Yaml.isSome_json_sequence, List.forall_mem_map]
  simp only [Yaml.isSome_json_fields, Writable]

section Listing

variable {typeKey : String} {header : List (String × Yaml)} {type : Block → Yaml}
  {build : Block → Except PyError (List (String × Yaml))}

/-- What an entry is written with. -/
theorem entryOf_written {name own : Yaml} {block written : List (String × Yaml)}
    (writes : Yaml.Writes block written)
    (named : Yaml.lookup (Yaml.fields block) "name" = some name)
    (typed : Yaml.lookup (Yaml.fields block) typeKey = some own) (plain : own.json = some own) :
    entryOf typeKey (.mapping (Yaml.fields written)) = some (name.json.getD .null, own) := by
  rw [entryOf, Yaml.get, Yaml.get, writes.lookup, writes.lookup, named, typed, Option.bind_some,
    Option.bind_some, plain, Option.getD_some]

/-- The entries of a record are those of its blocks. -/
theorem listedFields_record {blocks : List (List (String × Yaml))} {artifact : Yaml}
    (apart : ∀ entry ∈ header, entry.1 ≠ "fields")
    (written : (record header blocks).json = some artifact) :
    ∃ results, List.Forall₂ Yaml.Writes blocks results ∧
      listedFields typeKey artifact =
        (results.map fun block => Yaml.mapping (Yaml.fields block)).filterMap
          (entryOf typeKey) := by
  obtain ⟨top, writes, rfl⟩ := Yaml.json_fields.mp written
  have held : Yaml.lookup (Yaml.fields (header ++
      [("fields", .sequence (blocks.map fun block => .mapping (Yaml.fields block)))])) "fields" =
      some (.sequence (blocks.map fun block => .mapping (Yaml.fields block))) := by
    have none : ∀ entry ∈ Yaml.fields header, ¬ entry.1 = .text "fields" := by
      intro entry member same
      obtain ⟨own, listed, rfl⟩ := List.mem_map.mp member
      exact apart own listed (Scalar.text.inj same)
    rw [Yaml.lookup, Yaml.fields, List.map_append, ← Yaml.fields, List.find?_append,
      List.find?_eq_none.mpr (by simpa using none)]
    simp
  have listed := writes.lookup "fields"
  rw [held, Option.bind_some] at listed
  have items : (Yaml.sequence (blocks.map fun block => .mapping (Yaml.fields block))).json.isSome :=
    Yaml.isSome_json_fields.mp (Option.isSome_of_eq_some written) _
      (List.mem_append_right _ List.mem_cons_self)
  obtain ⟨value, shape⟩ := Option.isSome_iff_exists.mp items
  rw [shape] at listed
  rw [Yaml.json, Option.map_eq_some_iff] at shape
  obtain ⟨results, mapped, rfl⟩ := shape
  have pairs := List.forall₂_map_left_iff.mp (Yaml.jsonItems_eq_some.mp mapped)
  have each : ∀ block ∈ blocks, ∃ own, Yaml.Writes block own ∧
      (Yaml.mapping (Yaml.fields block)).json = some (.mapping (Yaml.fields own)) := by
    intro block member
    obtain ⟨result, -, made⟩ := Fallible.exists_right_of_forall₂ pairs member
    obtain ⟨own, writes, rfl⟩ := Yaml.json_fields.mp made
    exact ⟨own, writes, made⟩
  obtain ⟨own, all⟩ := Fallible.exists_forall₂ each
  refine ⟨own, all.imp fun _ _ both => both.1, ?_⟩
  have same : results = own.map fun block => Yaml.mapping (Yaml.fields block) := by
    have others : List.Forall₂ (fun block result =>
        (Yaml.mapping (Yaml.fields block)).json = some result) blocks
          (own.map fun block => .mapping (Yaml.fields block)) :=
      List.forall₂_map_right_iff.mpr (all.imp fun _ _ both => both.2)
    have mappedAgain := Yaml.jsonItems_eq_some.mpr (List.forall₂_map_left_iff.mpr others)
    exact Option.some.inj (mapped.symm.trans mappedAgain)
  rw [listedFields, Yaml.get, listed, Option.getD_some, same]

/-- A record of the properties lists them with their types. -/
theorem listedFields_properties {props : List Block} {blocks : List (List (String × Yaml))}
    {artifact : Yaml} (apart : ∀ entry ∈ header, entry.1 ≠ "fields")
    (keys : ∀ prop ∈ props, ∀ block, build prop = .ok block →
      Yaml.lookup (Yaml.fields block) "name" = some (nameOf prop) ∧
        Yaml.lookup (Yaml.fields block) typeKey = some (type prop))
    (plain : ∀ prop ∈ props, (type prop).json = some (type prop))
    (built : props.mapM build = .ok blocks)
    (written : (record header blocks).json = some artifact) :
    listedFields typeKey artifact = props.map fun prop => (ownName prop, type prop) := by
  obtain ⟨results, writes, listed⟩ : ∃ results, List.Forall₂ Yaml.Writes blocks results ∧
      listedFields typeKey artifact =
        (results.map fun block => Yaml.mapping (Yaml.fields block)).filterMap
          (entryOf typeKey) :=
    listedFields_record apart written
  rw [listed]
  clear listed written
  have pairs := Fallible.mapM_eq_ok.mp built
  clear built
  induction pairs generalizing results with
  | nil =>
    cases writes
    rfl
  | @cons prop block rest others made _ ih =>
    obtain ⟨result, later, here, writesLater, rfl⟩ := List.forall₂_cons_left_iff.mp writes
    obtain ⟨keysHere, keysLater⟩ := List.forall_mem_cons.mp keys
    obtain ⟨plainHere, plainLater⟩ := List.forall_mem_cons.mp plain
    obtain ⟨named, typed⟩ := keysHere block made
    rw [List.map_cons, List.map_cons, List.filterMap_cons,
      entryOf_written here named typed plainHere, ih keysLater plainLater later writesLater]
    rfl

/-- A record delivers every property once exactly if everything in it can be written and the names
of the properties differ. -/
theorem delivers_record_iff {yielded : Yielded PyError Block} (finite : yielded.failure = none)
    (apart : ∀ entry ∈ header, entry.1 ≠ "fields")
    (keys : ∀ prop ∈ yielded.items, ∀ block, build prop = .ok block →
      Yaml.lookup (Yaml.fields block) "name" = some (nameOf prop) ∧
        Yaml.lookup (Yaml.fields block) typeKey = some (type prop))
    (plain : ∀ prop ∈ yielded.items, (type prop).json = some (type prop)) :
    (∃ artifact, ((yielded.collect build).bind fun blocks => dumps (record header blocks)) =
        .ok artifact ∧
      ListsOnce (yielded.items.map fun prop => (ownName prop, type prop))
        (listedFields typeKey artifact)) ↔
      Writable header ∧
        (∀ prop ∈ yielded.items, ∃ block, build prop = .ok block ∧ Writable block) ∧
        (yielded.items.map ownName).Nodup := by
  have names : (yielded.items.map fun prop => (ownName prop, type prop)).map Prod.fst =
      yielded.items.map ownName := by
    rw [List.map_map]
    rfl
  constructor
  · rintro ⟨artifact, generated, lists⟩
    obtain ⟨blocks, collected, dumped⟩ := Fallible.bind_eq_ok.mp generated
    obtain ⟨-, built⟩ := Yielded.collect_eq_ok.mp collected
    have written := dumps_eq_ok.mp dumped
    obtain ⟨top, inside⟩ := isSome_json_record.mp (Option.isSome_of_eq_some written)
    refine ⟨top, fun prop member => ?_, names ▸ lists.nodup⟩
    obtain ⟨block, listed, made⟩ := Fallible.exists_result_of_mapM built member
    exact ⟨block, made, inside block listed⟩
  · rintro ⟨top, each, distinct⟩
    obtain ⟨blocks, pairs⟩ := Fallible.exists_forall₂ each
    have built : yielded.items.mapM build = .ok blocks :=
      Fallible.mapM_eq_ok.mpr (pairs.imp fun _ _ both => both.1)
    have inside : ∀ block ∈ blocks, Writable block := by
      intro block listed
      obtain ⟨prop, -, both⟩ := Fallible.exists_right_of_forall₂ pairs.flip listed
      exact both.2
    obtain ⟨artifact, written⟩ :=
      Option.isSome_iff_exists.mp (isSome_json_record.mpr ⟨top, inside⟩)
    refine ⟨artifact, ?_, ?_⟩
    · exact Fallible.bind_eq_ok.mpr
        ⟨blocks, Yielded.collect_eq_ok.mpr ⟨finite, built⟩, dumps_eq_ok.mpr written⟩
    · rw [listedFields_properties apart keys plain built written, listsOnce_self_iff, names]
      exact distinct

end Listing

end FlOp.Contracts.Gen
