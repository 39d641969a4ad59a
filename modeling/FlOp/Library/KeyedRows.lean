import Mathlib.Data.List.Count
import Mathlib.Data.List.Nodup

/-! # Keyed lists

Lists whose members carry a key: what happens to the keys when members are selected, replaced,
removed or added.
-/

namespace FlOp.Library

section Select

variable {α β κ : Type*}

/-- The keys of what a partial function makes of a list, when each result keeps its key. -/
theorem map_filterMap_of_keeps {f : α → Option β} {key : α → κ} {resultKey : β → κ} {l : List α}
    (keeps : ∀ a ∈ l, ∀ b, f a = some b → resultKey b = key a) :
    (l.filterMap f).map resultKey = (l.filter fun a => (f a).isSome).map key := by
  induction l with
  | nil => rfl
  | cons a rest ih =>
    have later := ih fun a member => keeps a (List.mem_cons_of_mem _ member)
    cases result : f a with
    | none =>
      rw [List.filterMap_cons_none result, List.filter_cons_of_neg (by simp [result])]
      exact later
    | some b =>
      rw [List.filterMap_cons_some result, List.filter_cons_of_pos (by simp [result]),
        List.map_cons, List.map_cons, later, keeps a List.mem_cons_self b result]

end Select

section Upsert

variable {α κ : Type*}

/-- Put a member in the place of the first one that matches, or at the end. -/
def upsert (matching : α → Bool) (new : α) (l : List α) : List α :=
  ((l.findIdx? matching).map fun i => l.set i new).getD (l ++ [new])

variable {matching : α → Bool} {new : α} {l : List α}

theorem upsert_of_first {before after : List α} {old : α}
    (earlier : ∀ a ∈ before, matching a = false) (found : matching old = true) :
    upsert matching new (before ++ old :: after) = before ++ new :: after := by
  have position : (before ++ old :: after).findIdx? matching = some before.length := by
    rw [List.findIdx?_append, List.findIdx?_eq_none_iff.mpr earlier, List.findIdx?_cons, found]
    simp
  rw [upsert, position, Option.map_some, Option.getD_some,
    List.set_append_right _ _ (Nat.le_refl _), Nat.sub_self, List.set_cons_zero]

theorem upsert_of_none (none : ∀ a ∈ l, matching a = false) :
    upsert matching new l = l ++ [new] := by
  rw [upsert, List.findIdx?_eq_none_iff.mpr none]
  rfl

/-- A list has a first member that matches, or none matches. -/
theorem first_or_none (matching : α → Bool) (l : List α) :
    (∃ before old after, l = before ++ old :: after ∧ (∀ a ∈ before, matching a = false) ∧
      matching old = true) ∨ ∀ a ∈ l, matching a = false := by
  cases found : l.find? matching with
  | none => exact .inr fun a member => Bool.eq_false_iff.mpr (List.find?_eq_none.mp found a member)
  | some old =>
    obtain ⟨holds, before, after, split, earlier⟩ := List.find?_eq_some_iff_append.mp found
    refine .inl ⟨before, old, after, split, fun a member => ?_, holds⟩
    exact (Bool.not_eq_true' _).mp (earlier a member)

/-- The position of a first match splits the list there. -/
theorem split_of_findIdx? {i : ℕ} (position : l.findIdx? matching = some i) :
    ∃ before old after, l = before ++ old :: after ∧ (∀ a ∈ before, matching a = false) ∧
      matching old = true ∧ ∀ f : α → α, l.modify i f = before ++ f old :: after := by
  rcases first_or_none matching l with ⟨before, old, after, rfl, earlier, found⟩ | none
  · refine ⟨before, old, after, rfl, earlier, found, fun f => ?_⟩
    have length : before.length = i := by
      rw [List.findIdx?_append, List.findIdx?_eq_none_iff.mpr earlier, List.findIdx?_cons,
        found] at position
      simpa using position
    rw [← length, List.modify_eq_take_drop, List.take_left, List.drop_left]
    rfl
  · rw [List.findIdx?_eq_none_iff.mpr none] at position
    cases position

/-- An upsert of what is there already changes nothing. -/
theorem upsert_upsert (self : matching new = true) (l : List α) :
    upsert matching new (upsert matching new l) = upsert matching new l := by
  rcases first_or_none matching l with ⟨before, old, after, rfl, earlier, found⟩ | none
  · rw [upsert_of_first earlier found, upsert_of_first earlier self]
  · rw [upsert_of_none none, upsert_of_first none self]

/-- Nothing changes exactly if the first match is the new member itself. -/
theorem upsert_eq_self_iff : upsert matching new l = l ↔ l.find? matching = some new := by
  rcases first_or_none matching l with ⟨before, old, after, rfl, earlier, found⟩ | none
  · have absent : before.find? matching = none :=
      List.find?_eq_none.mpr fun a member => by rw [earlier a member]; exact Bool.false_ne_true
    rw [upsert_of_first earlier found, List.find?_append, absent, Option.none_or,
      List.find?_cons_of_pos found]
    simp [eq_comm]
  · have absent : l.find? matching = Option.none :=
      List.find?_eq_none.mpr fun a member => by rw [none a member]; exact Bool.false_ne_true
    simp [upsert_of_none none, absent]

/-- Who is looked for elsewhere is found as before. -/
theorem find?_upsert_other (wanted : α → Bool) (new_apart : wanted new = false)
    (apart : ∀ a, matching a = true → wanted a = false) (l : List α) :
    (upsert matching new l).find? wanted = l.find? wanted := by
  rcases first_or_none matching l with ⟨before, old, after, rfl, earlier, found⟩ | none
  · rw [upsert_of_first earlier found, List.find?_append, List.find?_append,
      List.find?_cons_of_neg (by simp [new_apart]),
      List.find?_cons_of_neg (by simp [apart old found])]
  · rw [upsert_of_none none, List.find?_append, List.find?_cons_of_neg (by simp [new_apart])]
    simp

/-- A member that is put in the place of its key keeps the keys distinct. -/
theorem nodup_filterMap_upsert {key : α → Option κ} {k : κ} (self : key new = some k)
    (matches_iff : ∀ a, matching a = true ↔ key a = some k) (unique : (l.filterMap key).Nodup) :
    ((upsert matching new l).filterMap key).Nodup := by
  rcases first_or_none matching l with ⟨before, old, after, rfl, earlier, found⟩ | none
  · have same : key old = key new := ((matches_iff old).mp found).trans self.symm
    have keys : (before ++ new :: after).filterMap key =
        (before ++ old :: after).filterMap key := by
      rw [List.filterMap_append, List.filterMap_append, List.filterMap_cons, List.filterMap_cons,
        same]
    rwa [upsert_of_first earlier found, keys]
  · have added : [new].filterMap key = [k] := by
      rw [List.filterMap_cons_some self, List.filterMap_nil]
    rw [upsert_of_none none, List.filterMap_append, added]
    refine List.nodup_append.mpr ⟨unique, List.nodup_singleton _, fun a member b last same => ?_⟩
    obtain ⟨old, held, oldKey⟩ := List.mem_filterMap.mp member
    rw [same, List.mem_singleton.mp last] at oldKey
    exact Bool.false_ne_true ((none old held).symm.trans ((matches_iff old).mpr oldKey))

/-- The member that was written is the first match from then on. -/
theorem find?_upsert (matching : α → Bool) (self : matching new = true) (l : List α) :
    (upsert matching new l).find? matching = some new :=
  upsert_eq_self_iff.mp (upsert_upsert self l)

end Upsert

section Preferred

variable {α : Type*}

/-- The first member that is known, else the first one. -/
def firstKnown (known : α → Bool) (l : List α) : Option α := (l.find? known).or l.head?

theorem mem_of_firstKnown {known : α → Bool} {l : List α} {a : α}
    (chosen : firstKnown known l = some a) : a ∈ l := by
  rcases Option.or_eq_some_iff.mp chosen with found | ⟨-, first⟩
  · exact List.mem_of_find?_eq_some found
  · exact List.mem_of_head? first

/-- Once the chosen member is known, it is chosen again. -/
theorem firstKnown_again {known later : α → Bool} {l : List α} {a : α}
    (chosen : firstKnown known l = some a) (becomes : later a = true)
    (others : ∀ b ∈ l, b ≠ a → later b = known b) : firstKnown later l = some a := by
  refine Option.or_eq_some_iff.mpr (.inl ?_)
  rcases Option.or_eq_some_iff.mp chosen with found | ⟨-, first⟩
  · obtain ⟨holds, before, after, rfl, earlier⟩ := List.find?_eq_some_iff_append.mp found
    refine List.find?_eq_some_iff_append.mpr ⟨becomes, before, after, rfl, fun b member => ?_⟩
    have unknown := earlier b member
    rw [others b (List.mem_append_left _ member) fun same => ?_]
    · exact unknown
    · rw [same, holds] at unknown
      cases unknown
  · obtain ⟨rest, rfl⟩ := List.head?_eq_some_iff.mp first
    exact List.find?_cons_of_pos becomes

end Preferred

section Replace

variable {α β : Type*} {l : List α} {i : ℕ} {old new : α}

theorem exists_split_set (found : l[i]? = some old) (new : α) :
    ∃ before after, l = before ++ old :: after ∧ l.set i new = before ++ new :: after := by
  obtain ⟨within, rfl⟩ := List.getElem?_eq_some_iff.mp found
  have split : ∃ before after, l = before ++ l[i] :: after ∧ before.length = i ∧
      l.set i new = before ++ new :: after := List.exists_of_set within
  obtain ⟨before, after, split, -, replaced⟩ := split
  exact ⟨before, after, split, replaced⟩

/-- What holds of every member after one is replaced, if the new member adds a condition. -/
theorem forall_mem_set_iff {holds : α → Prop} {added : Prop} (found : l[i]? = some old)
    (becomes : holds new ↔ holds old ∧ added) :
    (∀ a ∈ l.set i new, holds a) ↔ (∀ a ∈ l, holds a) ∧ added := by
  obtain ⟨before, after, split, replaced⟩ := exists_split_set found new
  rw [replaced, split]
  simp only [List.forall_mem_append, List.forall_mem_cons, becomes]
  tauto

/-- A member that grows by some items adds these to the items of all members. -/
theorem perm_flatMap_set {items : α → List β} {added : List β} (found : l[i]? = some old)
    (grows : items new = items old ++ added) :
    ((l.set i new).flatMap items).Perm (l.flatMap items ++ added) := by
  obtain ⟨before, after, split, replaced⟩ := exists_split_set found new
  rw [replaced, split]
  simp only [List.flatMap_append, List.flatMap_cons, grows, List.append_assoc]
  exact (List.perm_append_comm.append_left _).append_left _

/-- A replacement that keeps a value keeps it in the list of values. -/
theorem map_set_of_eq {value : α → β} (found : l[i]? = some old) (kept : value new = value old) :
    (l.set i new).map value = l.map value := by
  obtain ⟨before, after, split, replaced⟩ := exists_split_set found new
  rw [replaced, split]
  simp only [List.map_append, List.map_cons, kept]

end Replace

end FlOp.Library
