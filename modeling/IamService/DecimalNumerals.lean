import Mathlib.Data.List.DropRight
import Mathlib.Data.Nat.Digits.Defs

/-!
# Decimal numerals of bounded value

A numeral is a sequence of decimal digits, with an optional plus sign in front. It is read
from the left; every product and every sum on the way is checked against the bound. What is
read on the way never exceeds the value of the numeral, so the checks refuse exactly the
numerals whose value is out of bounds.
-/

namespace IamService.DecimalNumerals

/-- A sequence without the blanks at its ends. -/
def trim {α : Type} (blank : α → Bool) (l : List α) : List α := (l.dropWhile blank).rdropWhile blank

/-- The value of a decimal digit. -/
def toDigit (c : Char) : Option ℕ := if c.isDigit then some (c.toNat - 48) else none

/-- A number that stays below the bound. -/
def checked (bound n : ℕ) : Option ℕ := if n < bound then some n else none

/-- Read digits after a value read so far. -/
def accumulate (bound : ℕ) : ℕ → List Char → Option ℕ
  | n, [] => some n
  | n, c :: cs => do
    let shifted ← checked bound (n * 10)
    let digit ← toDigit c
    accumulate bound (← checked bound (shifted + digit)) cs

/-- A sign alone is no numeral, and neither is nothing. -/
def parse (bound : ℕ) : List Char → Option ℕ
  | [] => none
  | ['+'] => none
  | ['-'] => none
  | '+' :: digits => accumulate bound 0 digits
  | src => accumulate bound 0 src

/-- The value that a sequence of digits denotes after a value read so far. -/
def denoted (n : ℕ) (cs : List Char) : ℕ := cs.foldl (fun m c => m * 10 + (c.toNat - 48)) n

/-- A sequence of digits and its value. -/
def Digits (digits : List Char) (n : ℕ) : Prop :=
  digits ≠ [] ∧ digits.all Char.isDigit = true ∧
    n = Nat.ofDigits 10 (digits.reverse.map (fun c => c.toNat - 48))

/-- A numeral and its value. -/
def Numeral (src : List Char) (n : ℕ) : Prop :=
  Digits src n ∨ ∃ digits, src = '+' :: digits ∧ Digits digits n

variable {bound n m : ℕ}

theorem checked_eq_some : checked bound n = some m ↔ n < bound ∧ n = m := by
  unfold checked
  split <;> simp_all

theorem toDigit_eq_some {c : Char} : toDigit c = some m ↔ c.isDigit = true ∧ c.toNat - 48 = m := by
  unfold toDigit
  split <;> simp_all

theorem le_denoted (n : ℕ) (cs : List Char) : n ≤ denoted n cs := by
  induction cs generalizing n with
  | nil => exact Nat.le_refl n
  | cons c cs ih =>
    have hrest := ih (n * 10 + (c.toNat - 48))
    have hstep : n ≤ n * 10 + (c.toNat - 48) := by omega
    exact hstep.trans hrest

theorem denoted_zero (cs : List Char) :
    denoted 0 cs = Nat.ofDigits 10 (cs.reverse.map (fun c => c.toNat - 48)) := by
  rw [Nat.ofDigits_eq_foldr, List.foldr_map, List.foldr_reverse]
  unfold denoted
  congr 1
  funext m c
  push_cast
  omega

/-- The checks refuse nothing but what is no digit or denotes too large a value. -/
theorem accumulate_eq_some {cs : List Char} (hn : n < bound) : accumulate bound n cs = some m ↔
    cs.all Char.isDigit = true ∧ denoted n cs = m ∧ m < bound := by
  induction cs generalizing n with
  | nil =>
    simp only [accumulate, Option.some.injEq, List.all_nil, true_and, denoted, List.foldl_nil]
    constructor
    · rintro rfl
      exact ⟨rfl, hn⟩
    · intro h
      exact h.1
  | cons c cs ih =>
    simp only [accumulate, Option.bind_eq_bind, Option.bind_eq_some_iff, checked_eq_some,
      toDigit_eq_some, List.all_cons, Bool.and_eq_true]
    constructor
    · rintro ⟨_, ⟨-, rfl⟩, _, ⟨hc, rfl⟩, _, ⟨hsum, rfl⟩, hrest⟩
      obtain ⟨hcs, hvalue, hm⟩ := (ih hsum).mp hrest
      exact ⟨⟨hc, hcs⟩, hvalue, hm⟩
    · rintro ⟨⟨hc, hcs⟩, hvalue, hm⟩
      have hle : n * 10 + (c.toNat - 48) ≤ m := (le_denoted _ cs).trans_eq hvalue
      have hsum : n * 10 + (c.toNat - 48) < bound := Nat.lt_of_le_of_lt hle hm
      exact ⟨_, ⟨by omega, rfl⟩, _, ⟨hc, rfl⟩, _, ⟨hsum, rfl⟩, (ih hsum).mpr ⟨hcs, hvalue, hm⟩⟩

/-- The digits are read from the left to the value that they denote. -/
theorem accumulate_digits {digits : List Char} (hbound : 0 < bound) (hne : digits ≠ []) :
    accumulate bound 0 digits = some m ↔ Digits digits m ∧ m < bound := by
  rw [accumulate_eq_some hbound, denoted_zero]
  constructor
  · rintro ⟨hdigits, hvalue, hm⟩
    exact ⟨⟨hne, hdigits, hvalue.symm⟩, hm⟩
  · rintro ⟨⟨-, hdigits, hvalue⟩, hm⟩
    exact ⟨hdigits, hvalue.symm, hm⟩

theorem not_digits_cons {c : Char} {cs : List Char} (hc : c.isDigit = false) :
    ¬ Digits (c :: cs) m := by
  rintro ⟨-, hall, -⟩
  simp [hc] at hall

/-- What is read is the value of a numeral within the bound. -/
theorem parse_eq_some {src : List Char} (hbound : 0 < bound) :
    parse bound src = some m ↔ Numeral src m ∧ m < bound := by
  have hplus : ∀ digits : List Char, Numeral ('+' :: digits) m ↔ Digits digits m := by
    intro digits
    constructor
    · rintro (h | ⟨_, hsame, h⟩)
      · exact absurd h (not_digits_cons rfl)
      · cases hsame
        exact h
    · intro h
      exact .inr ⟨digits, rfl, h⟩
  have hunsigned : ∀ cs : List Char, (∀ digits, cs ≠ '+' :: digits) →
      (Numeral cs m ↔ Digits cs m) := by
    intro cs hcs
    refine or_iff_left ?_
    rintro ⟨digits, hsame, -⟩
    exact hcs digits hsame
  have hempty : ¬ Digits [] m := fun h => h.1 rfl
  unfold parse
  split
  · simp [hunsigned, hempty]
  · simp [hplus, hempty]
  · rw [hunsigned _ (by simp)]
    simp [not_digits_cons]
  · rename_i digits hne
    rw [hplus]
    exact accumulate_digits hbound (fun h => hne (by rw [h]))
  · rename_i hnil _ _ hcs
    rw [hunsigned src hcs]
    exact accumulate_digits hbound hnil

end IamService.DecimalNumerals
