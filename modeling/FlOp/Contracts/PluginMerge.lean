import FlOp.Contracts.Registry

/-! # Merging domain packs into the registry

A domain pack contributes a domain with its contracts and profiles. Packs are merged one after the
other; one that collides with a key of the index is left out as a whole. The keys of the index stay
as they are, but a contributed contract says itself which domain it belongs to.
-/

namespace FlOp.Contracts

open Library
open FlOp.Stream (Json)

/-- A section of the index document. -/
inductive RegistrySection where
  | absent
  | null
  | entries (items : Dict String Json)

/-- The sections of the index that packs are merged into. -/
structure RegistryIndex where
  domains : RegistrySection
  contracts : RegistrySection
  profiles : RegistrySection

/-- A discovered domain pack. -/
structure DomainPackContribution where
  domain : String
  spec : List (String × Json)
  entryPoint : String
  distribution : Option String := none
  contracts : Dict String Json := .empty
  profiles : Dict String Json := .empty

namespace RegistrySection

/-- `index.get(section) or {}`. -/
def items : RegistrySection → Dict String Json
  | entries items => items
  | _ => .empty

/-- `index.setdefault(section, {})`. -/
def defaulted : RegistrySection → RegistrySection
  | absent => entries .empty
  | given => given

/-- Change a section in place; what is not a mapping raises. -/
def change (given : RegistrySection) (f : Dict String Json → Dict String Json) :
    Option RegistrySection :=
  match given with
  | entries items => some (entries (f items))
  | _ => none

/-- The section is a mapping once defaults are set. -/
def isMapping : RegistrySection → Bool
  | null => false
  | _ => true

@[simp] theorem items_defaulted (given : RegistrySection) : given.defaulted.items = given.items := by
  cases given <;> rfl

@[simp] theorem isMapping_defaulted (given : RegistrySection) :
    given.defaulted.isMapping = given.isMapping := by
  cases given <;> rfl

end RegistrySection

/-- `_conflicts`: the keys a pack would collide with. -/
def conflicts (index : RegistryIndex) (pack : DomainPackContribution) : List String :=
  (if pack.domain ∈ index.domains.items.keys then [s!"domain '{pack.domain}'"] else []) ++
    (pack.contracts.keys.filter fun cid => cid ∈ index.contracts.items.keys).map
      (fun cid => s!"contract '{cid}'") ++
    (pack.profiles.keys.filter fun pid => pid ∈ index.profiles.items.keys).map
      fun pid => s!"profile '{pid}'"

/-- Register a pack. -/
def register (index : RegistryIndex) (pack : DomainPackContribution) : Option RegistryIndex := do
  let domains ← index.domains.change fun items => items.set pack.domain (.object pack.spec)
  let contracts ← index.contracts.change fun items => items.update pack.contracts
  let profiles ← index.profiles.change fun items => items.update pack.profiles
  return ⟨domains, contracts, profiles⟩

/-- The merged index and the packs merged so far. -/
abbrev MergeState := RegistryIndex × Dict String DomainPackContribution

/-- One pack of the loop; `none` when it raises. -/
def mergeOne (state : MergeState) (pack : DomainPackContribution) : Option MergeState :=
  if conflicts state.1 pack = [] then
    (register state.1 pack).map fun index => (index, state.2.set pack.domain pack)
  else some state

/-- `merge_contributions`; `none` when it raises. -/
def mergeContributions (index : RegistryIndex) (packs : List DomainPackContribution) :
    Option MergeState :=
  packs.foldlM mergeOne (⟨index.domains.defaulted, index.contracts.defaulted,
    index.profiles.defaulted⟩, .empty)

/-- The live index of a registry: the file's own where no pack is discovered. -/
def liveIndex (index : RegistryIndex) (packs : List DomainPackContribution) :
    Option RegistryIndex :=
  if packs.isEmpty then some index else (mergeContributions index packs).map Prod.fst

/-- The entries of an index; `none` when a spec does not make one. -/
def buildEntries (items : List (String × Json)) : Option Entries :=
  items.mapM fun item => (ContractEntry.ofSpec item.1 item.2).map fun entry => (item.1, entry)

/-- `FileRegistry`: its entries, with the packs that are discovered. -/
def fileRegistry (index : RegistryIndex) (packs : List DomainPackContribution) : Option Entries :=
  (liveIndex index packs).bind fun live => buildEntries live.contracts.items.entries

/-- The packs that collide with nothing when their turn comes. -/
def admitted (index : RegistryIndex) : List DomainPackContribution → List DomainPackContribution
  | [] => []
  | pack :: rest =>
    if conflicts index pack = [] then
      pack :: match register index pack with
        | some next => admitted next rest
        | none => []
    else admitted index rest

theorem conflicts_eq_nil_iff {index : RegistryIndex} {pack : DomainPackContribution} :
    conflicts index pack = [] ↔ pack.domain ∉ index.domains.items.keys ∧
      (∀ cid ∈ pack.contracts.keys, cid ∉ index.contracts.items.keys) ∧
      ∀ pid ∈ pack.profiles.keys, pid ∉ index.profiles.items.keys := by
  simp only [conflicts, List.append_eq_nil_iff, ite_eq_right_iff, List.cons_ne_nil, imp_false,
    List.map_eq_nil_iff, List.filter_eq_nil_iff, decide_eq_true_eq, and_assoc]

/-- All sections are mappings once defaults are set. -/
def RegistryIndex.Complete (index : RegistryIndex) : Prop :=
  index.domains.isMapping = true ∧ index.contracts.isMapping = true ∧
    index.profiles.isMapping = true

theorem RegistrySection.change_eq_some {given changed : RegistrySection}
    {f : Dict String Json → Dict String Json} (run : given.change f = some changed) :
    changed.items = f given.items ∧ given.isMapping = true ∧ changed.isMapping = true := by
  cases given with
  | entries items =>
    obtain rfl := Option.some.inj run
    exact ⟨rfl, rfl, rfl⟩
  | absent => cases run
  | null => cases run

/-- What registering a pack does to each section. -/
theorem register_eq_some {index next : RegistryIndex} {pack : DomainPackContribution}
    (run : register index pack = some next) :
    (next.domains.items = index.domains.items.set pack.domain (.object pack.spec) ∧
      next.contracts.items = index.contracts.items.update pack.contracts ∧
      next.profiles.items = index.profiles.items.update pack.profiles) ∧
    index.Complete ∧ next.Complete := by
  obtain ⟨domains, changed, run⟩ := Option.bind_eq_some_iff.mp run
  obtain ⟨contracts, changed', run⟩ := Option.bind_eq_some_iff.mp run
  obtain ⟨profiles, changed'', run⟩ := Option.bind_eq_some_iff.mp run
  obtain rfl := Option.some.inj run
  obtain ⟨domains_eq, domains_old, domains_new⟩ := RegistrySection.change_eq_some changed
  obtain ⟨contracts_eq, contracts_old, contracts_new⟩ := RegistrySection.change_eq_some changed'
  obtain ⟨profiles_eq, profiles_old, profiles_new⟩ := RegistrySection.change_eq_some changed''
  exact ⟨⟨domains_eq, contracts_eq, profiles_eq⟩, ⟨domains_old, contracts_old, profiles_old⟩,
    domains_new, contracts_new, profiles_new⟩

/-- The sections are mappings, as they are once defaults are set. -/
structure RegistryIndex.Filled (index : RegistryIndex) : Prop where
  domains : ∃ items, index.domains = .entries items
  contracts : ∃ items, index.contracts = .entries items
  profiles : ∃ items, index.profiles = .entries items

theorem register_isSome_iff {index : RegistryIndex} {pack : DomainPackContribution} :
    (register index pack).isSome ↔ index.Filled := by
  constructor
  · intro run
    obtain ⟨next, run⟩ := Option.isSome_iff_exists.mp run
    obtain ⟨_, changed, run⟩ := Option.bind_eq_some_iff.mp run
    obtain ⟨_, changed', run⟩ := Option.bind_eq_some_iff.mp run
    obtain ⟨_, changed'', -⟩ := Option.bind_eq_some_iff.mp run
    have filled : ∀ {given changed : RegistrySection} {f : Dict String Json → Dict String Json},
        given.change f = some changed → ∃ items, given = .entries items := by
      intro given changed f run
      cases given with
      | entries items => exact ⟨items, rfl⟩
      | absent => cases run
      | null => cases run
    exact ⟨filled changed, filled changed', filled changed''⟩
  · rintro ⟨⟨_, domains⟩, ⟨_, contracts⟩, ⟨_, profiles⟩⟩
    rw [register, domains, contracts, profiles]
    rfl

/-- Every entry of one index is an entry of the other. -/
structure KeepsEntries (index later : RegistryIndex) : Prop where
  domains : ∀ key spec, index.domains.items.get? key = some spec →
    later.domains.items.get? key = some spec
  contracts : ∀ key spec, index.contracts.items.get? key = some spec →
    later.contracts.items.get? key = some spec
  profiles : ∀ key spec, index.profiles.items.get? key = some spec →
    later.profiles.items.get? key = some spec

theorem KeepsEntries.trans {first second third : RegistryIndex} (one : KeepsEntries first second)
    (two : KeepsEntries second third) : KeepsEntries first third :=
  ⟨fun key spec held => two.domains key spec (one.domains key spec held),
    fun key spec held => two.contracts key spec (one.contracts key spec held),
    fun key spec held => two.profiles key spec (one.profiles key spec held)⟩

/-- An update with new keys keeps what is there. -/
theorem get?_update_of_fresh {items others : Dict String Json}
    (fresh : ∀ key ∈ others.keys, key ∉ items.keys) {key : String} {spec : Json}
    (held : items.get? key = some spec) : (items.update others).get? key = some spec := by
  have present : key ∈ items.keys := (Dict.mem_keys_iff _ _).mpr (by rw [held]; rfl)
  have absent : others.get? key = none := by
    rw [← Option.not_isSome_iff_eq_none, ← Dict.mem_keys_iff]
    exact fun other => fresh key other present
  rw [Dict.get?_update, absent, Option.none_or, held]

theorem keepsEntries_register {index next : RegistryIndex} {pack : DomainPackContribution}
    (clear : conflicts index pack = []) (run : register index pack = some next) :
    KeepsEntries index next := by
  obtain ⟨domain_fresh, contracts_fresh, profiles_fresh⟩ := conflicts_eq_nil_iff.mp clear
  obtain ⟨⟨domains, contracts, profiles⟩, -⟩ := register_eq_some run
  constructor
  · intro key spec held
    have other : key ≠ pack.domain := by
      rintro rfl
      exact domain_fresh ((Dict.mem_keys_iff _ _).mpr (by rw [held]; rfl))
    rw [domains, Dict.get?_set, if_neg other, held]
  · intro key spec held
    rw [contracts]
    exact get?_update_of_fresh contracts_fresh held
  · intro key spec held
    rw [profiles]
    exact get?_update_of_fresh profiles_fresh held

/-- Entries of a registered pack. -/
structure HoldsPack (index : RegistryIndex) (pack : DomainPackContribution) : Prop where
  domain : index.domains.items.get? pack.domain = some (.object pack.spec)
  contracts : ∀ cid spec, pack.contracts.get? cid = some spec →
    index.contracts.items.get? cid = some spec
  profiles : ∀ pid spec, pack.profiles.get? pid = some spec →
    index.profiles.items.get? pid = some spec

theorem holdsPack_register {index next : RegistryIndex} {pack : DomainPackContribution}
    (run : register index pack = some next) : HoldsPack next pack := by
  obtain ⟨⟨domains, contracts, profiles⟩, -⟩ := register_eq_some run
  constructor
  · rw [domains, Dict.get?_set, if_pos rfl]
  · intro cid spec held
    rw [contracts, Dict.get?_update, held, Option.some_or]
  · intro pid spec held
    rw [profiles, Dict.get?_update, held, Option.some_or]

theorem HoldsPack.later {index later : RegistryIndex} {pack : DomainPackContribution}
    (holds : HoldsPack index pack) (keeps : KeepsEntries index later) : HoldsPack later pack :=
  ⟨keeps.domains _ _ holds.domain,
    fun cid spec held => keeps.contracts _ _ (holds.contracts cid spec held),
    fun pid spec held => keeps.profiles _ _ (holds.profiles pid spec held)⟩

/-- What a run of the loop leaves behind. -/
structure Merged (index : RegistryIndex) (packs : List DomainPackContribution)
    (result : RegistryIndex) : Prop where
  keeps : KeepsEntries index result
  holds : ∀ pack ∈ admitted index packs, HoldsPack result pack
  contracts : result.contracts.items.entries =
    index.contracts.items.entries ++ (admitted index packs).flatMap fun pack => pack.contracts.entries
  /-- The packs that were left out might as well not have been there. -/
  replayed : ∀ log, ∃ log', (admitted index packs).foldlM mergeOne (index, log) =
    some (result, log')

/-- The run lemma of the merge: by induction over the packs still to come. -/
theorem merged_of_foldlM {packs : List DomainPackContribution} {state result : MergeState}
    (run : packs.foldlM mergeOne state = some result) : Merged state.1 packs result.1 := by
  induction packs generalizing state with
  | nil =>
    obtain rfl := Option.some.inj run
    exact ⟨⟨fun _ _ held => held, fun _ _ held => held, fun _ _ held => held⟩,
      fun pack member => absurd member List.not_mem_nil, (List.append_nil _).symm,
      fun log => ⟨log, rfl⟩⟩
  | cons pack rest ih =>
    obtain ⟨next, step, run⟩ := Option.bind_eq_some_iff.mp run
    rw [mergeOne] at step
    split at step
    · rename_i clear
      obtain ⟨index, registered, rfl⟩ := Option.map_eq_some_iff.mp step
      have later := ih run
      have first : admitted state.1 (pack :: rest) = pack :: admitted index rest := by
        rw [admitted, if_pos clear, registered]
      have keeps := keepsEntries_register clear registered
      refine ⟨keeps.trans later.keeps, ?_, ?_, ?_⟩
      · intro other member
        rw [first] at member
        rcases List.mem_cons.mp member with rfl | after
        · exact (holdsPack_register registered).later later.keeps
        · exact later.holds other after
      · obtain ⟨⟨-, contracts, -⟩, -⟩ := register_eq_some registered
        rw [first, List.flatMap_cons, later.contracts, contracts,
          Dict.entries_update_of_disjoint (conflicts_eq_nil_iff.mp clear).2.1, List.append_assoc]
      · intro log
        obtain ⟨log', replay⟩ := later.replayed (log.set pack.domain pack)
        refine ⟨log', ?_⟩
        rw [first, List.foldlM_cons, mergeOne, if_pos clear, registered]
        exact replay
    · rename_i collides
      obtain rfl := Option.some.inj step
      have later := ih run
      have skipped : admitted state.1 (pack :: rest) = admitted state.1 rest := by
        rw [admitted, if_neg collides]
      obtain ⟨keeps, holds, contracts, replayed⟩ := later
      rw [← skipped] at holds contracts replayed
      exact ⟨keeps, holds, contracts, replayed⟩

theorem filled_of_register {index next : RegistryIndex} {pack : DomainPackContribution}
    (run : register index pack = some next) : next.Filled := by
  obtain ⟨⟨_, domains⟩, ⟨_, contracts⟩, ⟨_, profiles⟩⟩ :=
    register_isSome_iff.mp (Option.isSome_iff_exists.mpr ⟨next, run⟩)
  rw [register, domains, contracts, profiles] at run
  obtain rfl := Option.some.inj run
  exact ⟨⟨_, rfl⟩, ⟨_, rfl⟩, ⟨_, rfl⟩⟩

/-- The loop ends unless a pack has to be registered in a section that is not a mapping. -/
theorem foldlM_isSome_iff {packs : List DomainPackContribution} {state : MergeState} :
    (packs.foldlM mergeOne state).isSome ↔ state.1.Filled ∨ admitted state.1 packs = [] := by
  induction packs generalizing state with
  | nil => exact iff_of_true rfl (Or.inr rfl)
  | cons pack rest ih =>
    rw [List.foldlM_cons, admitted, mergeOne]
    split
    · rename_i clear
      simp only [reduceCtorEq, or_false]
      rw [← register_isSome_iff]
      cases registered : register state.1 pack with
      | none => simp
      | some next =>
        have filled := filled_of_register registered
        simp only [Option.map_some, Option.isSome_some, iff_true]
        exact ih.mpr (Or.inl filled)
    · exact ih

/-- The index once defaults are set. -/
def RegistryIndex.defaulted (index : RegistryIndex) : RegistryIndex :=
  ⟨index.domains.defaulted, index.contracts.defaulted, index.profiles.defaulted⟩

theorem RegistryIndex.filled_defaulted_iff {index : RegistryIndex} :
    index.defaulted.Filled ↔ index.Complete := by
  have each : ∀ given : RegistrySection,
      (∃ items, given.defaulted = .entries items) ↔ given.isMapping = true := by
    intro given
    cases given with
    | absent => exact iff_of_true ⟨_, rfl⟩ rfl
    | null =>
      refine iff_of_false ?_ Bool.false_ne_true
      rintro ⟨_, absurd⟩
      cases absurd
    | entries items => exact iff_of_true ⟨_, rfl⟩ rfl
  constructor
  · rintro ⟨domains, contracts, profiles⟩
    exact ⟨(each _).mp domains, (each _).mp contracts, (each _).mp profiles⟩
  · rintro ⟨domains, contracts, profiles⟩
    exact ⟨(each _).mpr domains, (each _).mpr contracts, (each _).mpr profiles⟩

/-- The contracts of the packs that are registered. -/
def pluginContracts (index : RegistryIndex) (packs : List DomainPackContribution) :
    List (String × Json) :=
  (admitted index.defaulted packs).flatMap fun pack => pack.contracts.entries

variable (files : RegistryFiles)

/-- Plugins leave the in-repo part of the registry alone. -/
structure Isolated (index : RegistryIndex) (packs : List DomainPackContribution)
    (own : Entries) : Prop where
  /-- The registry is there, with every entry of its index, and merging is atomic: a pack is
  registered with all its entries, or the registry is as if it had not been there. -/
  merges : ∃ live log, mergeContributions index packs = some (live, log) ∧
    KeepsEntries index live ∧ (∀ pack ∈ admitted index.defaulted packs, HoldsPack live pack) ∧
    ∃ log', mergeContributions index (admitted index.defaulted packs) = some (live, log')
  /-- Every in-repo domain lists the same contracts, and the builder loads the same for it. -/
  sameContracts : ∃ entries, fileRegistry index packs = some entries ∧
    ∀ domain ∈ index.domains.items.keys,
      domainContracts entries domain = domainContracts own domain ∧
      files.mappedContractIds entries [domain] = files.mappedContractIds own [domain]

/-- What the registered packs contribute does not concern the in-repo domains. -/
structure Harmless (index : RegistryIndex) (packs : List DomainPackContribution)
    (own : Entries) : Prop where
  complete : index.Complete ∨ admitted index.defaulted packs = []
  contracts : ∃ added, buildEntries (pluginContracts index packs) = some added ∧
    /- No contributed contract declares an in-repo domain. -/
    (∀ entry ∈ added, ∀ domain ∈ index.domains.items.keys,
      isText entry.2.domain domain = false) ∧
    /- The builder, where it works without the packs, passes each contributed key over. -/
    ∀ domain ∈ index.domains.items.keys, (files.mappedContractIds own [domain]).isSome →
      ∀ entry ∈ added, files.isMapped (own ++ added) [domain] entry.1 = some false

/-- Entries are built one by one, under the keys of the index. -/
theorem keys_of_buildEntries {items : List (String × Json)} {entries : Entries}
    (built : buildEntries items = some entries) :
    entries.map Prod.fst = items.map Prod.fst := by
  have keys : List.Forall₂ (· = ·) (items.map Prod.fst) (entries.map Prod.fst) := by
    rw [List.forall₂_map_left_iff, List.forall₂_map_right_iff]
    refine (Fallible.mapM_eq_some.mp built).imp fun item entry made => ?_
    obtain ⟨_, -, rfl⟩ := Option.map_eq_some_iff.mp made
    rfl
  rw [List.forall₂_eq_eq_eq] at keys
  exact keys.symm

/-- After a merge that ends, the registry has its own entries and then those of the packs. -/
theorem fileRegistry_eq {index : RegistryIndex} {packs : List DomainPackContribution}
    {own : Entries} (built : buildEntries index.contracts.items.entries = some own)
    (ends : (mergeContributions index packs).isSome) :
    fileRegistry index packs =
      (buildEntries (pluginContracts index packs)).map fun added => own ++ added := by
  obtain ⟨⟨live, log⟩, merged⟩ := Option.isSome_iff_exists.mp ends
  have contracts : live.contracts.items.entries =
      index.contracts.items.entries ++ pluginContracts index packs := by
    rw [(merged_of_foldlM merged).contracts, RegistrySection.items_defaulted]
    rfl
  have combined : buildEntries (index.contracts.items.entries ++ pluginContracts index packs) =
      (buildEntries (pluginContracts index packs)).map fun added => own ++ added := by
    rw [buildEntries, List.mapM_append]
    change (buildEntries _).bind _ = _
    rw [built, Option.bind_some]
    change (buildEntries (pluginContracts index packs)).bind _ = _
    cases buildEntries (pluginContracts index packs) <;> rfl
  rw [fileRegistry, liveIndex]
  split
  · rename_i none_found
    obtain rfl := List.isEmpty_iff.mp none_found
    rw [Option.bind_some, ← combined, pluginContracts]
    exact congrArg buildEntries (List.append_nil _).symm
  · rw [merged, Option.map_some, Option.bind_some, contracts, combined]

/-- The builder makes the same of the in-repo contracts. -/
theorem isMapped_append_of_plain {own : Entries} (added : Entries) {key : String}
    (plain : plainKey key = true) (present : key ∈ own.map Prod.fst) (active : List String) :
    files.isMapped (own ++ added) active key = files.isMapped own active key := by
  have found : (own.lookup key).isSome := by
    rw [List.lookup_isSome_iff]
    obtain ⟨entry, listed, rfl⟩ := List.mem_map.mp present
    exact ⟨entry, listed, by simp⟩
  obtain ⟨entry, located⟩ := Option.isSome_iff_exists.mp found
  have kept : (own ++ added).lookup key = some entry := by
    rw [List.lookup_append, located, Option.some_or]
  rw [RegistryFiles.isMapped, RegistryFiles.isMapped, files.getEntry_plain plain located,
    files.getEntry_plain plain kept]

/-- What a domain lists stays the same exactly if no further entry declares it. -/
theorem domainContracts_append_eq_iff {own added : Entries} {domain : String} :
    domainContracts (own ++ added) domain = domainContracts own domain ↔
      ∀ entry ∈ added, isText entry.2.domain domain = false := by
  rw [domainContracts, domainContracts, List.filter_append, List.map_append,
    List.append_right_eq_self, List.map_eq_nil_iff, List.filter_eq_nil_iff]
  simp only [Bool.not_eq_true]

/-- What the builder loads stays the same exactly if it passes every further key over, unless it
fails without them. -/
theorem mappedContractIds_append_eq_iff {own added : Entries} {active : List String}
    (plain : ∀ key ∈ own.map Prod.fst, plainKey key = true) :
    files.mappedContractIds (own ++ added) active = files.mappedContractIds own active ↔
      ((files.mappedContractIds own active).isSome →
        ∀ entry ∈ added, files.isMapped (own ++ added) active entry.1 = some false) := by
  have same : Fallible.selectM (files.isMapped (own ++ added) active) (own.map Prod.fst) =
      files.mappedContractIds own active :=
    Fallible.selectM_congr fun key member =>
      isMapped_append_of_plain files added (plain key member) member active
  rw [RegistryFiles.mappedContractIds, List.map_append]
  cases alone : files.mappedContractIds own active with
  | none =>
    rw [alone] at same
    exact iff_of_true (Fallible.selectM_append_eq_none _ same) (fun absurd => by cases absurd)
  | some ids =>
    rw [alone] at same
    rw [Fallible.selectM_append_eq_iff same]
    simp only [List.forall_mem_map, Option.isSome_some, forall_const]

/-- The packs leave the in-repo part of a registry alone exactly if what they contribute does not
concern it. -/
theorem isolated_iff_harmless (files : RegistryFiles) (index : RegistryIndex)
    (packs : List DomainPackContribution) (own : Entries)
    (built : buildEntries index.contracts.items.entries = some own)
    (plain : ∀ key ∈ index.contracts.items.keys, plainKey key = true) :
    Isolated files index packs own ↔ Harmless files index packs own := by
  have ends : (mergeContributions index packs).isSome ↔
      index.Complete ∨ admitted index.defaulted packs = [] := by
    rw [mergeContributions, foldlM_isSome_iff, ← RegistryIndex.filled_defaulted_iff]
    rfl
  have keys : own.map Prod.fst = index.contracts.items.keys := keys_of_buildEntries built
  rw [← keys] at plain
  constructor
  · rintro ⟨⟨live, log, merged, -⟩, ⟨entries, loaded, same⟩⟩
    have ended : (mergeContributions index packs).isSome := by
      rw [merged]
      rfl
    rw [fileRegistry_eq built ended] at loaded
    obtain ⟨added, made, rfl⟩ := Option.map_eq_some_iff.mp loaded
    refine ⟨ends.mp ended, added, made, fun entry member domain listed => ?_,
      fun domain listed => ?_⟩
    · exact domainContracts_append_eq_iff.mp (same domain listed).1 entry member
    · exact (mappedContractIds_append_eq_iff files plain).mp (same domain listed).2
  · rintro ⟨complete, added, made, foreign, passed⟩
    have ended := ends.mpr complete
    obtain ⟨⟨live, log⟩, merged⟩ := Option.isSome_iff_exists.mp ended
    have spec := merged_of_foldlM merged
    refine ⟨⟨live, log, merged, ?_, spec.holds, spec.replayed .empty⟩, own ++ added, ?_, ?_⟩
    · obtain ⟨domains, contracts, profiles⟩ := spec.keeps
      simp only [RegistrySection.items_defaulted] at domains contracts profiles
      exact ⟨domains, contracts, profiles⟩
    · rw [fileRegistry_eq built ended, made, Option.map_some]
    · intro domain listed
      exact ⟨domainContracts_append_eq_iff.mpr fun entry member =>
          foreign entry member domain listed,
        (mappedContractIds_append_eq_iff files plain).mpr (passed domain listed)⟩

/-! ## A pack that adds a contract to an in-repo domain -/

/-- One agricultural contract. -/
def agriculturalIndex : RegistryIndex where
  domains := .entries (Dict.empty.set "agricultural" (.object []))
  contracts := .entries (Dict.empty.set "orders"
    (.object [("id", .text "orders"), ("domain", .text "agricultural")]))
  profiles := .absent

def orderEntry : ContractEntry where
  localId := .text "orders"
  odcsRef := .null
  mappingRef := .null
  domain := .text "agricultural"
  artifactId := .null

/-- A pack whose contract declares the agricultural domain. -/
def intrudingPack : DomainPackContribution where
  domain := "weather_drones"
  spec := [("version", .text "2.3.0")]
  entryPoint := "weather-drones"
  contracts := Dict.empty.set "weather-orders"
    (.object [("id", .text "weather-orders"), ("domain", .text "agricultural")])

/-- No documents at all. -/
def noFiles : RegistryFiles where
  odcsVersion := fun _ => none
  loadMapping := fun _ => none
  str := fun _ => ""
  recursionLimit := 1000

theorem isolated_iff_harmless_agricultural :
    Isolated noFiles agriculturalIndex [intrudingPack] [("orders", orderEntry)] ↔
      Harmless noFiles agriculturalIndex [intrudingPack] [("orders", orderEntry)] :=
  isolated_iff_harmless noFiles agriculturalIndex [intrudingPack] [("orders", orderEntry)] rfl
    (by decide)

/-- The agricultural domain lists the contract of the pack. -/
theorem intrudingPack_not_isolated :
    ¬ ∀ (files : RegistryFiles) (index : RegistryIndex) (packs : List DomainPackContribution)
      (own : Entries), buildEntries index.contracts.items.entries = some own →
      (∀ key ∈ index.contracts.items.keys, plainKey key = true) →
      Isolated files index packs own := by
  intro isolated
  obtain ⟨-, ⟨entries, loaded, same⟩⟩ := isolated noFiles agriculturalIndex [intrudingPack]
    [("orders", orderEntry)] rfl (by decide)
  have listed := (same "agricultural" (by decide)).1
  have built : fileRegistry agriculturalIndex [intrudingPack] = some [("orders", orderEntry),
      ("weather-orders", { orderEntry with localId := .text "weather-orders" })] := rfl
  obtain rfl := Option.some.inj (built.symm.trans loaded)
  exact absurd listed (by decide)

end FlOp.Contracts
