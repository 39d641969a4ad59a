import FlOp.Library.Dict
import Mathlib.Data.List.Infix

/-! # Nested dictionaries

Values that may themselves be dictionaries are written and read at paths of keys. Writing builds the
dictionaries on the way and fails on a value that is none. A written value is read back at its path,
and writing leaves every path alone that neither extends the written one nor is extended by it.
-/

namespace FlOp.Library

variable {κ α : Type*} [DecidableEq κ]

/-- The value stored for a key. -/
def lookupEntry (entries : List (κ × α)) (key : κ) : Option α :=
  (entries.find? fun entry => entry.1 = key).map Prod.snd

theorem lookupEntry_setEntries (entries : List (κ × α)) (key : κ) (value : α) (other : κ) :
    lookupEntry (Dict.setEntries key value entries) other =
      if other = key then some value else lookupEntry entries other :=
  Dict.find?_setEntries key value entries other

/-- The values that are dictionaries of values. -/
structure Nesting (κ α : Type*) where
  node : List (κ × α) → α
  entries? : α → Option (List (κ × α))
  entries?_node : ∀ entries, entries? (node entries) = some entries

/-- Neither path extends the other. -/
def PathsApart (path other : List κ) : Prop := ¬ path <+: other ∧ ¬ other <+: path

instance (path other : List κ) : Decidable (PathsApart path other) :=
  inferInstanceAs (Decidable (_ ∧ _))

omit [DecidableEq κ] in
theorem PathsApart.symm {path other : List κ} (apart : PathsApart path other) :
    PathsApart other path :=
  ⟨apart.2, apart.1⟩

omit [DecidableEq κ] in
theorem PathsApart.of_cons {key : κ} {path other : List κ}
    (apart : PathsApart (key :: path) (key :: other)) : PathsApart path other :=
  ⟨fun extends' => apart.1 (List.cons_prefix_cons.mpr ⟨rfl, extends'⟩),
    fun extends' => apart.2 (List.cons_prefix_cons.mpr ⟨rfl, extends'⟩)⟩

namespace Nesting

variable (nesting : Nesting κ α)

/-- Write at a path, creating the dictionaries that are missing on the way. -/
def setPath : List κ → α → List (κ × α) → Option (List (κ × α))
  | [], _, _ => none
  | [key], value, entries => some (Dict.setEntries key value entries)
  | key :: next :: rest, value, entries =>
    ((lookupEntry entries key).elim (some []) nesting.entries?).bind fun inner =>
      (setPath (next :: rest) value inner).map fun written =>
        Dict.setEntries key (nesting.node written) entries

/-- Read at a path. -/
def getPath : List κ → List (κ × α) → Option α
  | [], _ => none
  | [key], entries => lookupEntry entries key
  | key :: next :: rest, entries =>
    ((lookupEntry entries key).bind nesting.entries?).bind (getPath (next :: rest))

variable {nesting} {path : List κ} {value : α} {entries written : List (κ × α)}

/-- One step of a longer path. -/
theorem setPath_cons {key next : κ} {rest : List κ}
    (wrote : nesting.setPath (key :: next :: rest) value entries = some written) :
    ∃ inner deeper, (lookupEntry entries key).elim (some []) nesting.entries? = some inner ∧
      nesting.setPath (next :: rest) value inner = some deeper ∧
      written = Dict.setEntries key (nesting.node deeper) entries := by
  obtain ⟨inner, opened, wrote⟩ := Option.bind_eq_some_iff.mp wrote
  obtain ⟨deeper, below, rfl⟩ := Option.map_eq_some_iff.mp wrote
  exact ⟨inner, deeper, opened, below, rfl⟩

@[simp] theorem getPath_nil (path : List κ) : nesting.getPath path [] = none := by
  cases path with
  | nil => rfl
  | cons key rest =>
    cases rest with
    | nil => rfl
    | cons next rest => rfl

/-- A written value is read back. -/
theorem getPath_setPath (wrote : nesting.setPath path value entries = some written) :
    nesting.getPath path written = some value := by
  induction path generalizing entries written with
  | nil => cases wrote
  | cons key rest ih =>
    cases rest with
    | nil =>
      cases wrote
      rw [getPath, lookupEntry_setEntries, if_pos rfl]
    | cons next rest =>
      obtain ⟨inner, deeper, -, below, rfl⟩ := setPath_cons wrote
      rw [getPath, lookupEntry_setEntries, if_pos rfl]
      simp only [Option.bind_some, nesting.entries?_node]
      exact ih below

/-- Writing leaves other paths alone. -/
theorem getPath_setPath_apart {other : List κ} (apart : PathsApart path other)
    (wrote : nesting.setPath path value entries = some written) :
    nesting.getPath other written = nesting.getPath other entries := by
  induction path generalizing entries written other with
  | nil => cases wrote
  | cons key rest ih =>
    cases other with
    | nil => exact absurd (List.nil_prefix) apart.2
    | cons otherKey otherRest =>
      by_cases same : otherKey = key
      · subst same
        cases rest with
        | nil => exact absurd (List.prefix_append [otherKey] otherRest) apart.1
        | cons next rest =>
          cases otherRest with
          | nil => exact absurd (List.prefix_append [otherKey] (next :: rest)) apart.2
          | cons otherNext otherRest =>
            obtain ⟨inner, deeper, opened, below, rfl⟩ := setPath_cons wrote
            have deep := ih apart.of_cons below
            rw [getPath, getPath, lookupEntry_setEntries, if_pos rfl]
            simp only [Option.bind_some, nesting.entries?_node, deep]
            cases held : lookupEntry entries otherKey with
            | none =>
              rw [held] at opened
              cases opened
              exact getPath_nil _
            | some value =>
              rw [held] at opened
              change nesting.entries? value = some inner at opened
              simp only [Option.bind_some, opened]
      · have untouched : ∀ value, lookupEntry (Dict.setEntries key value entries) otherKey =
            lookupEntry entries otherKey := by
          intro value
          rw [lookupEntry_setEntries, if_neg same]
        have kept : lookupEntry written otherKey = lookupEntry entries otherKey := by
          cases rest with
          | nil =>
            cases wrote
            exact untouched _
          | cons next rest =>
            obtain ⟨inner, deeper, -, -, rfl⟩ := setPath_cons wrote
            exact untouched _
        cases otherRest with
        | nil => exact kept
        | cons otherNext otherRest => rw [getPath, getPath, kept]

end Nesting

end FlOp.Library
