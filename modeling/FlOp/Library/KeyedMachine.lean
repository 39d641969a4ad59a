import FlOp.Library.Dict

/-! # Bounded tables

A table of remembered results drops its oldest entries past a bound. What is true of every entry
when it is written stays true of every entry the table has.
-/

namespace FlOp.Library.Dict

variable {κ ν : Type*} [DecidableEq κ]

omit [DecidableEq κ] in
/-- Keep the newest entries, up to a bound. -/
def keepNewest (bound : ℕ) (d : Dict κ ν) : Dict κ ν where
  entries := d.entries.drop (d.entries.length - bound)
  nodupKeys := by
    rw [List.map_drop]
    exact d.nodupKeys.sublist (List.drop_sublist _ _)

/-- Every entry of a table is right. -/
def Each (right : κ → ν → Prop) (d : Dict κ ν) : Prop := ∀ k v, d.get? k = some v → right k v

namespace Each

variable {right : κ → ν → Prop} {d : Dict κ ν}

theorem empty : Each right (empty : Dict κ ν) := by
  intro k v found
  cases found

theorem set (each : d.Each right) {k : κ} {v : ν} (written : right k v) :
    (d.set k v).Each right := by
  intro key value found
  rw [get?_set] at found
  split_ifs at found with same
  · obtain rfl := Option.some.inj found
    exact same ▸ written
  · exact each key value found

theorem keepNewest (each : d.Each right) (bound : ℕ) : (d.keepNewest bound).Each right := by
  intro k v found
  rw [get?_eq_some_iff] at found
  exact each k v ((get?_eq_some_iff _ _ _).mpr (List.mem_of_mem_drop found))

theorem mono {other : κ → ν → Prop} (each : d.Each right)
    (weaker : ∀ k v, right k v → other k v) : d.Each other :=
  fun k v found => weaker k v (each k v found)

end Each

end FlOp.Library.Dict

/-! # One machine for each key

A dictionary of machine states, one for each key seen so far: an input goes to the machine of
its key and leaves every other machine alone. What one key puts out is what its own machine
puts out on the key's own inputs.
-/

namespace FlOp.Library

variable {κ σ ι ο : Type*} [DecidableEq κ]

/-- A machine that may start from nothing: its state after an input, and its output. -/
abbrev Machine (σ ι ο : Type*) := Option σ → ι → σ × ο

namespace Machine

variable (machine : Machine σ ι ο)

/-- What one machine puts out on a list of inputs. -/
def outputs : Option σ → List ι → List ο
  | _, [] => []
  | held, input :: rest => (machine held input).2 :: outputs (machine held input).1 rest

/-- The keyed machines after one input. -/
def keyedStep (states : Dict κ σ) (key : κ) (input : ι) : Dict κ σ × ο :=
  (states.set key (machine (states.get? key) input).1, (machine (states.get? key) input).2)

/-- What the keyed machines put out on a list of keyed inputs. -/
def keyedOutputs : Dict κ σ → List (κ × ι) → List (κ × ο)
  | _, [] => []
  | states, (key, input) :: rest =>
    (key, (keyedStep machine states key input).2) ::
      keyedOutputs (keyedStep machine states key input).1 rest

/-- The inputs, or the outputs, of one key. -/
def ofKey {α : Type*} (key : κ) (items : List (κ × α)) : List α :=
  (items.filter fun item => item.1 = key).map Prod.snd

@[simp] theorem ofKey_nil {α : Type*} (key : κ) : ofKey key ([] : List (κ × α)) = [] := rfl

theorem ofKey_cons {α : Type*} (key : κ) (item : κ × α) (rest : List (κ × α)) :
    ofKey key (item :: rest) = if item.1 = key then item.2 :: ofKey key rest else ofKey key rest := by
  by_cases same : item.1 = key
  · simp [ofKey, same]
  · simp [ofKey, same]

theorem ofKey_append {α : Type*} (key : κ) (first second : List (κ × α)) :
    ofKey key (first ++ second) = ofKey key first ++ ofKey key second := by
  simp [ofKey]

/-- Counting among the items of one key. -/
theorem countP_ofKey {α : Type*} (key : κ) (p : α → Bool) (items : List (κ × α)) :
    (ofKey key items).countP p = items.countP fun item => item.1 = key ∧ p item.2 = true := by
  rw [ofKey, List.countP_map, List.countP_filter]
  refine List.countP_congr fun item _ => ?_
  simp [and_comm]

/-- The outputs of one key are those of its machine on its own inputs. -/
theorem ofKey_keyedOutputs (states : Dict κ σ) (inputs : List (κ × ι)) (key : κ) :
    ofKey key (keyedOutputs machine states inputs) =
      outputs machine (states.get? key) (ofKey key inputs) := by
  induction inputs generalizing states with
  | nil => rfl
  | cons item rest ih =>
    obtain ⟨other, input⟩ := item
    rw [keyedOutputs, ofKey_cons, ofKey_cons, ih, keyedStep, Dict.get?_set]
    by_cases same : other = key
    · subst same
      rw [if_pos rfl, if_pos rfl, if_pos rfl]
      rfl
    · rw [if_neg same, if_neg same, if_neg (Ne.symm same)]

/-- What one key puts out does not depend on the inputs of others, or on their machines. -/
theorem filter_keyedOutputs {states alone : Dict κ σ} {key : κ}
    (same_held : states.get? key = alone.get? key) (inputs : List (κ × ι)) :
    (keyedOutputs machine states inputs).filter (fun item => item.1 = key) =
      keyedOutputs machine alone (inputs.filter fun item => item.1 = key) := by
  induction inputs generalizing states alone with
  | nil => rfl
  | cons item rest ih =>
    obtain ⟨other, input⟩ := item
    by_cases same : other = key
    · subst same
      rw [List.filter_cons_of_pos (by simp), keyedOutputs, keyedOutputs,
        List.filter_cons_of_pos (by simp), keyedStep, keyedStep, same_held]
      refine congrArg _ (ih ?_)
      rw [Dict.get?_set, Dict.get?_set, if_pos rfl, if_pos rfl]
    · rw [List.filter_cons_of_neg (by simp [same]), keyedOutputs,
        List.filter_cons_of_neg (by simp [same])]
      refine ih ?_
      rw [keyedStep, Dict.get?_set, if_neg (Ne.symm same), same_held]

end Machine

end FlOp.Library
