import FlOp.Contracts.Gen.Records

/-! # Protocol buffer schemas

The generated text lists a declaration for every property, below the comment that describes it. It
is read line by line: whatever is laid out like a declaration counts as one, also in a text of
several lines that the document gives.
-/

namespace FlOp.Contracts.Gen

open FlOp.Core Library

/-- A line feed. -/
def lineFeed : Char := Char.ofNat 10

/-- The lines of a text. -/
def linesOf (text : List Char) : List (List Char) := text.splitOn lineFeed

section Generator

variable (shown : Yaml → String)

/-- The text of a value in a line. -/
def chars (value : Yaml) : List Char := (value.str shown).toList

/-- The type in a declaration: a field that is not required is optional. -/
def declaredType (prop : Block) (protoType : String) : String :=
  if isRequired prop then protoType else "optional " ++ protoType

/-- The line that declares a field. -/
def declaration (prop : Block) (protoType : String) (number : Yaml) : List Char :=
  "  ".toList ++ (declaredType prop protoType).toList ++ " ".toList ++ chars shown (nameOf prop) ++
    " = ".toList ++ chars shown number ++ ";".toList

/-- The comment above a declaration. -/
def comment (prop : Block) : List (List Char) :=
  let description := Yaml.get prop "description" (.text "")
  if description.truthy then ["  // ".toList ++ chars shown description] else []

/-- `_build_field_lines`, with the field number. -/
def buildFieldLines (contractId : String) (prop : Block) :
    Except PyError (List (List Char) × ℤ) :=
  (requireType shown contractId .proto prop).bind fun protoType =>
  (inSet proto3ReservedWords (nameOf prop)).bind fun reserved =>
    if reserved then .error (.generationError (contractId ++ ": field '" ++
      (nameOf prop).str shown ++ "' conflicts with a proto3 reserved word"))
    else (getFieldGenHints .proto prop).entriesOf.bind fun fieldHints =>
      let number := Yaml.get fieldHints "fieldNumber" .null
      let invalid := PyError.generationError (contractId ++ ": field '" ++
        (nameOf prop).str shown ++ "' missing valid fieldGeneration.proto.fieldNumber")
      match intOf number with
      | none => .error invalid
      | some n =>
        if n < 1 then .error invalid
        else .ok (comment shown prop ++ [declaration shown prop protoType number], n)

/-- The purpose that the document states. -/
def purposeOf (odcsDoc : Block) : Yaml :=
  match (Yaml.get odcsDoc "description" .null).orElse (.mapping []) with
  | .mapping description => Yaml.get description "purpose" (.text "")
  | _ => .text ""

/-- The lines above the fields. -/
def protoHeader (odcsDoc hints : Block) : List (List Char) :=
  ["syntax = \"".toList ++ chars shown (Yaml.get hints "syntax" (.text "proto3")) ++ "\";".toList,
    [], "package ".toList ++ chars shown (Yaml.get hints "package" .null) ++ ";".toList, []] ++
  (if (purposeOf odcsDoc).truthy then ["// ".toList ++ chars shown (purposeOf odcsDoc)] else []) ++
  ["message ".toList ++ chars shown (Yaml.get hints "messageName" .null) ++ " \x7b".toList]

/-- The line below the fields. -/
def protoFooter : List (List Char) := ["\x7d".toList]

/-- The field numbers that are given more than once. -/
def duplicates (numbers : List ℤ) : List ℤ :=
  (numbers.filter fun n => 1 < numbers.count n).dedup.mergeSort

/-- `ProtoGenerator.generate`. -/
def protoGenerate (odcsDoc : Block) (contractId : String) : Except PyError (List Char) :=
  (getSchemaGenHints .proto odcsDoc).bind fun hints =>
  (requireKeys contractId .proto hints (requiredSchemaKeys .proto)).bind fun _ =>
  ((iterSchemaProperties odcsDoc).collect (buildFieldLines shown contractId)).bind fun built =>
    let fieldNumbers := built.map Prod.snd
    if fieldNumbers.Nodup then
      .ok (joinLines (protoHeader shown odcsDoc hints ++ (built.map Prod.fst).flatten ++
        protoFooter))
    else .error (.generationError (contractId ++ ": duplicate proto field numbers: " ++
      (Yaml.sequence ((duplicates fieldNumbers).map .integer)).str shown))

/-- The scalar type of a property. -/
def protoScalar (prop : Block) : String :=
  match physicalTypeOf prop with
  | .scalar (.text name) => (physicalTypeToProto name).getD ""
  | _ => ""

/-- The type that a property's declaration determines. -/
def protoType (prop : Block) : Yaml := .text (declaredType prop (protoScalar prop))

end Generator

section Reader

/-- The scalar types of the format. -/
def protoScalars : List String :=
  ["string", "double", "float", "int32", "int64", "bool", "bytes"]

/-- How declarations begin, each with its type. -/
def declarationHeads : List (List Char × String) :=
  (protoScalars ++ protoScalars.map fun type => "optional " ++ type).map fun type =>
    ("  ".toList ++ type.toList ++ " ".toList, type)

/-- The name before an equals sign, backwards. -/
def nameBefore : List Char → Option (List Char)
  | space :: equals :: blank :: name =>
    if [space, equals, blank] = " = ".toList then some name.reverse else none
  | _ => none

/-- The name in the rest of a declaration, before the last equals sign. -/
def readName (rest : List Char) : Option (List Char) :=
  match rest.reverse with
  | ';' :: numbered => nameBefore (numbered.dropWhile fun c => c ≠ Char.ofNat 32)
  | _ => none

/-- The name and the type that a line declares. -/
def readDeclaration (line : List Char) : Option (Yaml × Yaml) :=
  declarationHeads.findSome? fun head =>
    if head.1.isPrefixOf line then
      (readName (line.drop head.1.length)).map fun name =>
        (.text (String.ofList name), .text head.2)
    else none

/-- The entries of a generated text. -/
def protoEntries (text : List Char) : List (Yaml × Yaml) :=
  (linesOf text).filterMap readDeclaration

end Reader

/-- The lines beside the declarations. -/
def commentary (shown : Yaml → String) (odcsDoc hints : Block) : List (List Char) :=
  (protoHeader shown odcsDoc hints ++
    (iterSchemaProperties odcsDoc).items.flatMap (comment shown) ++ protoFooter).flatMap linesOf

/-- A document whose declarations stand out. -/
structure ProtoClear (shown : Yaml → String) (odcsDoc : Block) : Prop where
  named : ∀ prop ∈ (iterSchemaProperties odcsDoc).items,
    ∃ name, nameOf prop = .text name ∧ lineFeed ∉ name.toList
  distinct : ((iterSchemaProperties odcsDoc).items.map ownName).Nodup
  apart : ∀ hints, getSchemaGenHints .proto odcsDoc = .ok hints →
    ∀ line ∈ commentary shown odcsDoc hints, ∀ entry, readDeclaration line = some entry →
      entry.1 ∉ (iterSchemaProperties odcsDoc).items.map ownName

example : readDeclaration "  optional int32 crew_size = 4;".toList =
    some (.text "crew_size", .text "optional int32") := by
  rfl

section Reading

/-- The lines of joined lines, and the empty one at the end. -/
theorem linesOf_joinLines (lines : List (List Char)) :
    linesOf (joinLines lines) = lines.flatMap linesOf ++ [[]] := by
  induction lines with
  | nil => rfl
  | cons line rest ih =>
    have split : joinLines (line :: rest) = line ++ lineFeed :: joinLines rest := by
      rw [joinLines, List.flatMap_cons, List.append_assoc, List.singleton_append]
      rfl
    rw [split, linesOf, List.splitOn_append_cons_self, List.flatMap_cons, List.append_assoc, ← ih]
    rfl

/-- A line has no line feed. -/
theorem lineFeed_not_mem {text line : List Char} (member : line ∈ linesOf text) :
    lineFeed ∉ line := by
  induction text generalizing line with
  | nil =>
    obtain rfl := List.mem_singleton.mp member
    exact List.not_mem_nil
  | cons c rest ih =>
    rw [linesOf, List.splitOn_cons_eq_if_modifyHead] at member
    split_ifs at member with breaks
    · rcases List.mem_cons.mp member with rfl | later
      · exact List.not_mem_nil
      · exact ih later
    · obtain ⟨head, others, shape⟩ :=
        List.exists_cons_of_ne_nil (List.splitOn_ne_nil lineFeed rest)
      rw [shape, List.modifyHead_cons] at member
      have inside : ∀ other ∈ head :: others, lineFeed ∉ other := by
        intro other listed
        refine ih ?_
        rw [linesOf, shape]
        exact listed
      rcases List.mem_cons.mp member with rfl | later
      · have differs : lineFeed ≠ c := fun same => breaks (beq_iff_eq.mpr same.symm)
        exact List.not_mem_cons_of_ne_of_not_mem differs (inside head List.mem_cons_self)
      · exact inside line (List.mem_cons_of_mem _ later)

theorem heads_apart : ∀ a ∈ declarationHeads, ∀ b ∈ declarationHeads,
    a.1.isPrefixOf b.1 → a = b := by
  decide

/-- A name is read up to the last equals sign. -/
theorem readName_eq (name number : List Char) (solid : Char.ofNat 32 ∉ number) :
    readName (name ++ " = ".toList ++ number ++ ";".toList) = some name := by
  have back : (name ++ " = ".toList ++ number ++ ";".toList).reverse =
      ';' :: (number.reverse ++ " = ".toList ++ name.reverse) := by
    simp
  have skipped : (number.reverse ++ " = ".toList ++ name.reverse).dropWhile
      (fun c => c ≠ Char.ofNat 32) = " = ".toList ++ name.reverse := by
    rw [List.append_assoc, List.dropWhile_append_of_pos]
    · rfl
    · intro c member
      rw [List.mem_reverse] at member
      exact decide_eq_true fun same => solid (same ▸ member)
  rw [readName, back]
  change nameBefore (List.dropWhile _ _) = _
  rw [skipped]
  simp [nameBefore]

/-- The name that is read is part of the line. -/
theorem mem_of_readName {rest name : List Char} (read : readName rest = some name) {c : Char}
    (member : c ∈ name) : c ∈ rest := by
  unfold readName at read
  split at read
  · next numbered shape =>
    unfold nameBefore at read
    split at read
    · next space equals blank reversed skipped =>
      split_ifs at read
      obtain rfl := Option.some.inj read
      have inSkipped : c ∈ numbered.dropWhile fun c => c ≠ Char.ofNat 32 := by
        rw [skipped]
        exact List.mem_cons_of_mem _ (List.mem_cons_of_mem _ (List.mem_cons_of_mem _
          (List.mem_reverse.mp member)))
      have inReversed : c ∈ rest.reverse := by
        rw [shape]
        exact List.mem_cons_of_mem _ ((List.dropWhile_sublist _).subset inSkipped)
      exact List.mem_reverse.mp inReversed
    · cases read
  · cases read

/-- The first success of a search that only one item can give. -/
theorem findSome?_eq_of_only {α β : Type} {items : List α} {f : α → Option β} {a : α} {b : β}
    (member : a ∈ items) (found : f a = some b)
    (only : ∀ other ∈ items, other ≠ a → f other = none) :
    items.findSome? f = some b := by
  induction items with
  | nil => cases member
  | cons first rest ih =>
    obtain ⟨here, later⟩ := List.forall_mem_cons.mp only
    rw [List.findSome?_cons]
    by_cases same : first = a
    · rw [same, found]
    · rw [here same]
      exact ih ((List.mem_cons.mp member).resolve_left (Ne.symm same)) later

/-- A line that begins and ends like a declaration is read as one. -/
theorem readDeclaration_eq {head : List Char × String} (known : head ∈ declarationHeads)
    (name number : List Char) (solid : Char.ofNat 32 ∉ number) :
    readDeclaration (head.1 ++ (name ++ " = ".toList ++ number ++ ";".toList)) =
      some (.text (String.ofList name), .text head.2) := by
  refine findSome?_eq_of_only known ?_ fun other listed differs => if_neg fun begins => ?_
  · rw [if_pos (List.isPrefixOf_iff_prefix.mpr (List.prefix_append _ _)), List.drop_left,
      readName_eq name number solid]
    rfl
  · have first := List.isPrefixOf_iff_prefix.mp begins
    rcases List.prefix_or_prefix_of_prefix first (List.prefix_append head.1 _) with under | beyond
    · exact differs (heads_apart other listed head known (List.isPrefixOf_iff_prefix.mpr under))
    · exact differs (heads_apart head known other listed
        (List.isPrefixOf_iff_prefix.mpr beyond)).symm

/-- The name that a line declares is a text in that line. -/
theorem text_of_readDeclaration {line : List Char} {entry : Yaml × Yaml}
    (read : readDeclaration line = some entry) :
    ∃ name, entry.1 = .text name ∧ ∀ c ∈ name.toList, c ∈ line := by
  obtain ⟨head, -, found⟩ := List.exists_of_findSome?_eq_some read
  split_ifs at found
  obtain ⟨name, named, rfl⟩ := Option.map_eq_some_iff.mp found
  refine ⟨String.ofList name, rfl, fun c member => ?_⟩
  rw [String.toList_ofList] at member
  exact (List.drop_subset _ _) (mem_of_readName named member)

end Reading

section Correct

variable {shown : Yaml → String} {prop : Block} {contractId : String}

/-- The field number that a property gives. -/
def numberOf (prop : Block) : Yaml :=
  match getFieldGenHints .proto prop with
  | .mapping hints => Yaml.get hints "fieldNumber" .null
  | _ => .null

/-- The declaration of a property. -/
def ownDeclaration (shown : Yaml → String) (prop : Block) : List Char :=
  declaration shown prop (protoScalar prop) (numberOf prop)

theorem ownDeclaration_eq : ownDeclaration shown prop =
    "  ".toList ++ (declaredType prop (protoScalar prop)).toList ++ " ".toList ++
      chars shown (nameOf prop) ++ " = ".toList ++ chars shown (numberOf prop) ++ ";".toList :=
  rfl

theorem protoScalar_eq {name type : String} (declared : physicalTypeOf prop = .text name)
    (typed : physicalTypeToProto name = some type) : protoScalar prop = type := by
  rw [protoScalar, declared]
  change (physicalTypeToProto name).getD "" = type
  rw [typed, Option.getD_some]

theorem protoScalar_mem (ready : FieldReady .proto prop) : protoScalar prop ∈ protoScalars := by
  obtain ⟨name, type, declared, typed⟩ := ready.typed
  have found : physicalTypeToProto name = some type := typed
  rw [protoScalar_eq declared found]
  unfold physicalTypeToProto at found
  split at found <;> cases found <;> decide

/-- How the declaration of a property begins. -/
theorem head_mem (ready : FieldReady .proto prop) :
    ("  ".toList ++ (declaredType prop (protoScalar prop)).toList ++ " ".toList,
      declaredType prop (protoScalar prop)) ∈ declarationHeads := by
  refine List.mem_map.mpr ⟨declaredType prop (protoScalar prop), ?_, rfl⟩
  unfold declaredType
  split_ifs
  · exact List.mem_append_left _ (protoScalar_mem ready)
  · exact List.mem_append_right _ (List.mem_map_of_mem (protoScalar_mem ready))

/-- A field number is written without blanks and line feeds. -/
theorem chars_number {value : Yaml} {number : ℤ} (whole : intOf value = some number)
    (positive : 1 ≤ number) : ∀ c ∈ chars shown value, c ≠ Char.ofNat 32 ∧ c ≠ lineFeed := by
  cases value with
  | scalar s =>
    cases s with
    | integer n =>
      obtain rfl := Option.some.inj whole
      obtain ⟨m, rfl⟩ := Int.eq_ofNat_of_zero_le (by omega : 0 ≤ n)
      intro c member
      have digit : c.isDigit := by
        have text : chars shown (.scalar (.integer (m : ℤ))) = Nat.toDigits 10 m := by
          rw [← Nat.toList_repr]
          rfl
        have inside : c ∈ Nat.toDigits 10 m := text ▸ member
        exact Nat.isDigit_of_mem_toDigits (by decide) (by decide) inside
      constructor
      · rintro rfl
        exact absurd digit (by decide)
      · rintro rfl
        exact absurd digit (by decide)
    | boolean b =>
      cases b with
      | true =>
        have solid : ∀ c ∈ "True".toList, c ≠ Char.ofNat 32 ∧ c ≠ lineFeed := by
          simp [lineFeed]
        exact solid
      | false =>
        obtain rfl := Option.some.inj whole
        exact absurd positive (by decide)
    | _ => cases whole
  | sequence items => cases whole
  | mapping entries => cases whole

/-- The number of a ready property. -/
theorem numberOf_eq (ready : FieldReady .proto prop) :
    ∃ hints number, getFieldGenHints .proto prop = .mapping hints ∧
      numberOf prop = Yaml.get hints "fieldNumber" .null ∧ intOf (numberOf prop) = some number ∧
      1 ≤ number ∧ fieldNumber prop = number := by
  obtain ⟨hints, number, own, whole, positive⟩ := ready.numbered rfl
  have same : numberOf prop = Yaml.get hints "fieldNumber" .null := by
    rw [numberOf, own]
  refine ⟨hints, number, own, same, same ▸ whole, positive, ?_⟩
  rw [fieldNumber, own]
  simp only [whole, Option.getD_some]

theorem buildFieldLines_eq_ok (ready : FieldReady .proto prop) :
    buildFieldLines shown contractId prop =
      .ok (comment shown prop ++ [ownDeclaration shown prop], fieldNumber prop) := by
  obtain ⟨name, type, declared, typed⟩ := ready.typed
  obtain ⟨hints, number, own, same, whole, positive, numbered⟩ := numberOf_eq ready
  have found : physicalTypeToProto name = some type := typed
  refine Fallible.bind_eq_ok.mpr ⟨type, requireType_of_typed declared typed, ?_⟩
  refine Fallible.bind_eq_ok.mpr ⟨false, ready.unreserved rfl, ?_⟩
  rw [if_neg Bool.false_ne_true]
  refine Fallible.bind_eq_ok.mpr ⟨hints, by rw [own]; rfl, ?_⟩
  dsimp only
  rw [← same, whole]
  dsimp only
  rw [if_neg (by omega), ownDeclaration, protoScalar_eq declared found, numbered]

/-- A declaration without line feeds in its name is one line. -/
theorem linesOf_ownDeclaration (ready : FieldReady .proto prop) {name : String}
    (named : nameOf prop = .text name) (unbroken : lineFeed ∉ name.toList) :
    linesOf (ownDeclaration shown prop) = [ownDeclaration shown prop] := by
  obtain ⟨-, number, -, -, whole, positive, -⟩ := numberOf_eq ready
  have digits : lineFeed ∉ chars shown (numberOf prop) := fun member =>
    (chars_number whole positive lineFeed member).2 rfl
  have heads : ∀ head ∈ declarationHeads, lineFeed ∉ head.1 := by decide
  have begins := heads _ (head_mem ready)
  have written : chars shown (nameOf prop) = name.toList := by
    rw [named]
    rfl
  have equals : lineFeed ∉ " = ".toList := by decide
  have ends : lineFeed ∉ ";".toList := by decide
  refine List.splitOn_eq_singleton ?_
  rw [ownDeclaration_eq, written]
  simp only [List.mem_append, not_or] at begins ⊢
  exact ⟨⟨⟨⟨begins, unbroken⟩, equals⟩, digits⟩, ends⟩

/-- The declaration of a property is read as one. -/
theorem readDeclaration_ownDeclaration (ready : FieldReady .proto prop) {name : String}
    (named : nameOf prop = .text name) :
    readDeclaration (ownDeclaration shown prop) = some (ownName prop, protoType prop) := by
  obtain ⟨-, number, -, -, whole, positive, -⟩ := numberOf_eq ready
  have solid : Char.ofNat 32 ∉ chars shown (numberOf prop) := fun member =>
    (chars_number whole positive _ member).1 rfl
  have written : chars shown (nameOf prop) = name.toList := by
    rw [named]
    rfl
  have read := readDeclaration_eq (head_mem ready) name.toList _ solid
  rw [String.ofList_toList] at read
  rw [ownName_of_text named, protoType, ← read, ownDeclaration_eq, written]
  simp only [List.append_assoc]

/-- A ready document is always generated. -/
theorem protoGenerate_eq_ok {odcsDoc hints : Block} (ready : Ready odcsDoc .proto)
    (found : getSchemaGenHints .proto odcsDoc = .ok hints)
    (there : ∀ key ∈ requiredSchemaKeys .proto, (Yaml.get hints key .null).truthy) :
    protoGenerate shown odcsDoc contractId = .ok (joinLines (protoHeader shown odcsDoc hints ++
      (iterSchemaProperties odcsDoc).items.flatMap (fun prop =>
        comment shown prop ++ [ownDeclaration shown prop]) ++ protoFooter)) := by
  have built : (iterSchemaProperties odcsDoc).collect (buildFieldLines shown contractId) =
      .ok ((iterSchemaProperties odcsDoc).items.map fun prop =>
        (comment shown prop ++ [ownDeclaration shown prop], fieldNumber prop)) := by
    refine Yielded.collect_eq_ok.mpr ⟨ready.finite, Fallible.mapM_eq_ok.mpr ?_⟩
    rw [List.forall₂_map_right_iff, List.forall₂_same]
    exact fun prop member => buildFieldLines_eq_ok (ready.fields prop member)
  refine Fallible.bind_eq_ok.mpr ⟨hints, found, ?_⟩
  refine Fallible.bind_eq_ok.mpr ⟨(), requireKeys_eq_ok there, ?_⟩
  refine Fallible.bind_eq_ok.mpr ⟨_, built, ?_⟩
  have numbers : ((iterSchemaProperties odcsDoc).items.map fun prop =>
      (comment shown prop ++ [ownDeclaration shown prop], fieldNumber prop)).map Prod.snd =
      (iterSchemaProperties odcsDoc).items.map fieldNumber := by
    rw [List.map_map]
    rfl
  dsimp only
  rw [numbers, if_pos (ready.distinct rfl), List.map_map, List.flatMap_def]
  rfl

/-- The entries of a text are the properties', in some order with those of its other lines. -/
theorem perm_protoEntries {odcsDoc hints : Block} (ready : Ready odcsDoc .proto)
    (named : ∀ prop ∈ (iterSchemaProperties odcsDoc).items,
      ∃ name, nameOf prop = .text name ∧ lineFeed ∉ name.toList) :
    (protoEntries (joinLines (protoHeader shown odcsDoc hints ++
      (iterSchemaProperties odcsDoc).items.flatMap (fun prop =>
        comment shown prop ++ [ownDeclaration shown prop]) ++ protoFooter))).Perm
      ((iterSchemaProperties odcsDoc).items.map (fun prop => (ownName prop, protoType prop)) ++
        (commentary shown odcsDoc hints).filterMap readDeclaration) := by
  have fields : ∀ props : List Block,
      (∀ prop ∈ props, FieldReady .proto prop ∧
        ∃ name, nameOf prop = .text name ∧ lineFeed ∉ name.toList) →
      (((props.flatMap fun prop => comment shown prop ++ [ownDeclaration shown prop]).flatMap
        linesOf).filterMap readDeclaration).Perm
        (props.map (fun prop => (ownName prop, protoType prop)) ++
          ((props.flatMap (comment shown)).flatMap linesOf).filterMap readDeclaration) := by
    intro props each
    induction props with
    | nil => exact .nil
    | cons prop rest ih =>
      obtain ⟨⟨readyHere, name, text, unbroken⟩, later⟩ := List.forall_mem_cons.mp each
      have own : ([ownDeclaration shown prop].flatMap linesOf).filterMap readDeclaration =
          [(ownName prop, protoType prop)] := by
        rw [List.flatMap_singleton, linesOf_ownDeclaration readyHere text unbroken,
          List.filterMap_cons_some (readDeclaration_ownDeclaration readyHere text)]
        rfl
      rw [List.flatMap_cons, List.flatMap_append, List.flatMap_append, List.filterMap_append,
        List.filterMap_append, own, List.flatMap_cons, List.flatMap_append, List.filterMap_append,
        List.map_cons, List.append_assoc, List.singleton_append, List.cons_append]
      refine List.perm_middle.trans (List.Perm.cons _ ?_)
      refine ((ih later).append_left _).trans ?_
      rw [← List.append_assoc, ← List.append_assoc]
      exact List.perm_append_comm.append_right _
  have middle := fields _ fun prop member => ⟨ready.fields prop member, named prop member⟩
  have ends : readDeclaration [] = none := rfl
  rw [protoEntries, linesOf_joinLines, commentary]
  simp only [List.flatMap_append, List.filterMap_append, List.filterMap_cons_none ends,
    List.filterMap_nil, List.append_nil]
  refine ((middle.append_left _).append_right _).trans ?_
  rw [← List.append_assoc, ← List.append_assoc, ← List.append_assoc]
  exact (List.perm_append_comm.append_right _).append_right _

end Correct

/-- The text of a ready document delivers every property once exactly if the document is clear. -/
theorem proto_delivers_iff (shown : Yaml → String) {odcsDoc : Block} (contractId : String)
    (ready : Ready odcsDoc .proto) :
    (∃ artifact, protoGenerate shown odcsDoc contractId = .ok artifact ∧
      ListsOnce ((iterSchemaProperties odcsDoc).items.map fun prop =>
        (ownName prop, protoType prop)) (protoEntries artifact)) ↔
      ProtoClear shown odcsDoc := by
  obtain ⟨hints, found, there⟩ := ready.hinted (by decide)
  have generates : protoGenerate shown odcsDoc contractId = _ :=
    protoGenerate_eq_ok ready found there
  have names : ((iterSchemaProperties odcsDoc).items.map fun prop =>
      (ownName prop, protoType prop)).map Prod.fst =
      (iterSchemaProperties odcsDoc).items.map ownName := by
    rw [List.map_map]
    rfl
  constructor
  · rintro ⟨artifact, generated, lists⟩
    obtain rfl := Except.ok.inj (generates.symm.trans generated)
    have named : ∀ prop ∈ (iterSchemaProperties odcsDoc).items,
        ∃ name, nameOf prop = .text name ∧ lineFeed ∉ name.toList := by
      intro prop member
      obtain ⟨line, listed, read⟩ :=
        List.mem_filterMap.mp (lists.mem_entries (List.mem_map_of_mem member))
      obtain ⟨name, own, inside⟩ := text_of_readDeclaration read
      exact ⟨name, text_of_ownName own, fun breaks =>
        lineFeed_not_mem listed (inside lineFeed breaks)⟩
    refine ⟨named, names ▸ lists.nodup, fun other same line listed entry read => ?_⟩
    obtain rfl := Except.ok.inj (found.symm.trans same)
    have apart := (lists.perm (perm_protoEntries ready named)).apart
    rw [names] at apart
    exact apart entry (List.mem_filterMap.mpr ⟨line, listed, read⟩)
  · intro clear
    refine ⟨_, generates, ?_⟩
    have lists := ListsOnce.of_append (names ▸ clear.distinct) fun entry listed => by
      obtain ⟨line, member, read⟩ := List.mem_filterMap.mp listed
      rw [names]
      exact clear.apart hints found line member entry read
    exact lists.perm (perm_protoEntries ready clear.named).symm

end FlOp.Contracts.Gen
