import Mathlib.Data.List.Infix
import Mathlib.Data.List.Lex
import Mathlib.Data.String.Basic
import Mathlib.Tactic.Ring

/-! # Texts joined around markers

A marker starts with a character that it does not hold again, so two of them never overlap. Two
ways to cut one text at markers therefore agree, or one of them cuts where the other one has plain
text. Pieces joined by a separator that none of them holds can be told apart unless they are empty.
-/

namespace FlOp.Library

variable {α : Type*} {x : α} {m m' u u' v v' : List α}

/-- What follows a marker starts behind it, if it starts with a marker itself. -/
private theorem marker_after (fresh : x ∉ m) {z : List α}
    (same : x :: (m ++ v) = z ++ x :: (m' ++ v')) :
    (z = [] ∧ m ++ v = m' ++ v') ∨ ∃ w, z = x :: (m ++ w) ∧ v = w ++ x :: (m' ++ v') := by
  cases z with
  | nil => exact Or.inl ⟨rfl, (List.cons.inj same).2⟩
  | cons y z =>
    obtain ⟨rfl, tails⟩ := List.cons.inj same
    right
    rcases List.append_eq_append_iff.mp tails with ⟨w, rfl, later⟩ | ⟨w, rfl, cut⟩
    · exact ⟨w, rfl, later⟩
    · cases w with
      | nil => exact ⟨[], by rw [List.append_nil, List.append_nil], cut.symm⟩
      | cons y w =>
        -- the second marker would start within the first one
        obtain ⟨rfl, -⟩ := List.cons.inj cut
        exact absurd (List.mem_append_right z List.mem_cons_self) fresh

/-- Two ways to cut a text at a marker: at the same place, or one of them after the other. -/
theorem marker_cases (fresh : x ∉ m) (fresh' : x ∉ m')
    (same : u ++ x :: (m ++ v) = u' ++ x :: (m' ++ v')) :
    (u = u' ∧ m ++ v = m' ++ v') ∨
      (∃ w, u' = u ++ x :: (m ++ w) ∧ v = w ++ x :: (m' ++ v')) ∨
      ∃ w, u = u' ++ x :: (m' ++ w) ∧ v' = w ++ x :: (m ++ v) := by
  rcases List.append_eq_append_iff.mp same with ⟨z, rfl, later⟩ | ⟨z, rfl, later⟩
  · rcases marker_after fresh later with ⟨rfl, rest⟩ | ⟨w, rfl, rest⟩
    · exact Or.inl ⟨(List.append_nil u).symm, rest⟩
    · exact Or.inr (Or.inl ⟨w, rfl, rest⟩)
  · rcases marker_after fresh' later with ⟨rfl, rest⟩ | ⟨w, rfl, rest⟩
    · exact Or.inl ⟨List.append_nil u', rest.symm⟩
    · exact Or.inr (Or.inr ⟨w, rfl, rest⟩)

/-- Pieces that are not empty and do not hold the separator are told apart. -/
theorem intercalate_injective [DecidableEq α] {pieces others : List (List α)}
    (clear : ∀ p ∈ pieces, p ≠ [] ∧ x ∉ p) (clear' : ∀ p ∈ others, p ≠ [] ∧ x ∉ p)
    (same : [x].intercalate pieces = [x].intercalate others) : pieces = others := by
  have nonempty : ∀ {list : List (List α)}, (∀ p ∈ list, p ≠ [] ∧ x ∉ p) → list ≠ [] →
      [x].intercalate list ≠ [] := by
    intro list clear nonempty
    cases list with
    | nil => exact absurd rfl nonempty
    | cons first rest =>
      have filled := (clear first List.mem_cons_self).1
      cases rest with
      | nil => simpa using filled
      | cons second rest => simp [List.intercalate_cons_cons]
  by_cases none : pieces = []
  · subst none
    by_contra differ
    exact nonempty clear' (Ne.symm differ) same.symm
  · by_cases none' : others = []
    · subst none'
      exact absurd same (nonempty clear none)
    · rw [← List.splitOn_intercalate x (fun p member => (clear p member).2) none, same,
        List.splitOn_intercalate x (fun p member => (clear' p member).2) none']

end FlOp.Library

/-! # Zero-padded numerals

Decimal numerals filled up with zeros to a width. As texts they are ordered like their numbers as
long as the width holds them.
-/

namespace FlOp.Library

/-- The decimal digits of a number, most significant first, at least as many as the width. -/
def paddedDigits (width n : ℕ) : List Char := (Nat.toDigits 10 n).leftpad width '0'

/-- A number as text, padded with zeros to a width. -/
def zeroPadded (width n : ℕ) : String := String.ofList (paddedDigits width n)

variable {width n m : ℕ}

@[simp] theorem toList_zeroPadded : (zeroPadded width n).toList = paddedDigits width n :=
  String.toList_ofList

@[simp] theorem ofDigitChars_paddedDigits : Nat.ofDigitChars 10 (paddedDigits width n) 0 = n := by
  rw [paddedDigits, List.leftpad, Nat.ofDigitChars_append, Nat.ofDigitChars_replicate_zero,
    Nat.mul_zero, Nat.ofDigitChars_ten_toDigits]

theorem isDigit_of_mem_paddedDigits {c : Char} (member : c ∈ paddedDigits width n) :
    c.isDigit := by
  rw [paddedDigits, List.leftpad, List.mem_append] at member
  rcases member with zero | digit
  · rw [List.eq_of_mem_replicate zero]
    decide
  · exact Nat.isDigit_of_mem_toDigits (by decide) (by decide) digit

theorem length_paddedDigits (positive : 0 < width) (fits : n < 10 ^ width) :
    (paddedDigits width n).length = width := by
  have short := (Nat.length_toDigits_le_iff (by decide : 1 < 10) positive).mpr fits
  rw [paddedDigits, List.leftpad, List.length_append, List.length_replicate]
  omega

theorem zeroPadded_injective (width : ℕ) : Function.Injective (zeroPadded width) := by
  intro a b same
  have digits : paddedDigits width a = paddedDigits width b := by
    rw [← toList_zeroPadded, same, toList_zeroPadded]
  have values := congrArg (Nat.ofDigitChars 10 · 0) digits
  simpa only [ofDigitChars_paddedDigits] using values

/-- The value of a digit before others. -/
private theorem ofDigitChars_cons_eq (c : Char) (digits : List Char) :
    Nat.ofDigitChars 10 (c :: digits) 0 =
      10 ^ digits.length * (c.toNat - '0'.toNat) + Nat.ofDigitChars 10 digits 0 := by
  rw [Nat.ofDigitChars_cons, Nat.mul_zero, Nat.zero_add, Nat.ofDigitChars_eq_ofDigitChars_zero]

private theorem ofDigitChars_lt {digits : List Char} (all : ∀ c ∈ digits, c.isDigit) :
    Nat.ofDigitChars 10 digits 0 < 10 ^ digits.length := by
  induction digits with
  | nil => decide
  | cons c rest ih =>
    have later := ih fun d member => all d (List.mem_cons_of_mem _ member)
    have digit : c.toNat - '0'.toNat ≤ 9 := by
      have bounds := all c List.mem_cons_self
      rw [Char.isDigit_iff_toNat] at bounds
      have zero : '0'.toNat = 48 := rfl
      have nine : '9'.toNat = 57 := rfl
      omega
    rw [ofDigitChars_cons_eq, List.length_cons, pow_succ]
    have scaled := Nat.mul_le_mul_left (10 ^ rest.length) digit
    omega

/-- Digit lists of one length are in the order of the numbers they write. -/
private theorem ofDigitChars_lt_of_lt {l m : List Char} (allL : ∀ c ∈ l, c.isDigit)
    (allM : ∀ c ∈ m, c.isDigit) (same : l.length = m.length) (less : l < m) :
    Nat.ofDigitChars 10 l 0 < Nat.ofDigitChars 10 m 0 := by
  induction l generalizing m with
  | nil =>
    obtain rfl := List.eq_nil_of_length_eq_zero same.symm
    exact absurd less (lt_irrefl _)
  | cons c rest ih =>
    cases m with
    | nil => cases same
    | cons d others =>
      have lengths : rest.length = others.length := Nat.succ.inj same
      have restDigits := fun e member => allL e (List.mem_cons_of_mem _ member)
      have otherDigits := fun e member => allM e (List.mem_cons_of_mem _ member)
      rw [ofDigitChars_cons_eq, ofDigitChars_cons_eq, ← lengths]
      rcases List.cons_lt_cons_iff.mp less with first | ⟨rfl, later⟩
      · -- the first digit decides: what follows is less than one unit of it
        have below := ofDigitChars_lt restDigits
        have units : c.toNat - '0'.toNat + 1 ≤ d.toNat - '0'.toNat := by
          have cDigit := Char.isDigit_iff_toNat.mp (allL c List.mem_cons_self)
          have zero : '0'.toNat = 48 := rfl
          have order : c.toNat < d.toNat := first
          omega
        have scaled := Nat.mul_le_mul_left (10 ^ rest.length) units
        rw [Nat.mul_add, Nat.mul_one] at scaled
        omega
      · exact Nat.add_lt_add_left (ih restDigits otherDigits lengths later) _

/-- Numerals that fit the width are in the order of their numbers. -/
theorem zeroPadded_lt_zeroPadded (less : n < m) (fits : m < 10 ^ width) :
    zeroPadded width n < zeroPadded width m := by
  have positive : 0 < width := by
    by_contra zero
    obtain rfl := Nat.eq_zero_of_not_pos zero
    omega
  rcases lt_trichotomy (zeroPadded width n) (zeroPadded width m) with below | same | above
  · exact below
  · exact absurd (zeroPadded_injective width same) less.ne
  · rw [String.lt_iff_toList_lt, toList_zeroPadded, toList_zeroPadded] at above
    have values := ofDigitChars_lt_of_lt (fun c => isDigit_of_mem_paddedDigits)
      (fun c => isDigit_of_mem_paddedDigits)
      ((length_paddedDigits positive fits).trans
        (length_paddedDigits positive (less.trans fits)).symm) above
    rw [ofDigitChars_paddedDigits, ofDigitChars_paddedDigits] at values
    omega

end FlOp.Library
