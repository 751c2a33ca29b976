import Mathlib.Data.Nat.Digits.Defs
import Mathlib.Data.List.Basic
import Mathlib.Tactic.Common

/-!
# Reading numerals

A reader for the numerals `Nat.toDigits` writes, in bases up to 16. It takes the longest run of
digits from the front of a text, so it gives a number back exactly when what follows the number does
not start with a digit.
-/

namespace Numeral

def digitValue (base : ℕ) (ch : Char) : Option ℕ :=
  (List.range base).find? fun digit => digit.digitChar = ch

/-- Reads digits after a number `value` that was read already. -/
def readDigits (base value : ℕ) : List Char → ℕ × List Char
  | [] => (value, [])
  | ch :: text =>
      match digitValue base ch with
      | some digit => readDigits base (base * value + digit) text
      | none => (value, ch :: text)

def readNumeral (base : ℕ) : List Char → Option (ℕ × List Char)
  | [] => none
  | ch :: text => (digitValue base ch).map fun digit => readDigits base digit text

/-- No number goes on in `text`. -/
def StartsNoDigit (base : ℕ) (text : List Char) : Prop :=
  ∀ ch ∈ text.head?, digitValue base ch = none

theorem startsNoDigit_append {base : ℕ} {text : List Char} (nonempty : text ≠ [])
    (startsNoDigit : text.head?.bind (digitValue base) = none) (more : List Char) :
    StartsNoDigit base (text ++ more) := by
  cases text with
  | nil => contradiction
  | cons ch text =>
      rintro _ ⟨⟩
      exact startsNoDigit

theorem digitValue_digitChar {base digit : ℕ} (small : digit < base) (base_le : base ≤ 16) :
    digitValue base digit.digitChar = some digit := by
  have table : ∀ base < 17, ∀ digit < base, digitValue base digit.digitChar = some digit := by
    decide
  exact table base (Nat.lt_succ_of_le base_le) digit small

theorem notMem_toDigits {base : ℕ} (lower : 1 < base) (base_le : base ≤ 16) (n : ℕ) {ch : Char}
    (noDigit : digitValue base ch = none) : ch ∉ Nat.toDigits base n := by
  induction n using Nat.strong_induction_on with
  | _ n ih =>
      have other : ∀ digit < base, ch ≠ digit.digitChar := by
        rintro digit small rfl
        rw [digitValue_digitChar small base_le] at noDigit
        contradiction
      rcases Nat.lt_or_ge n base with small | large
      · rw [Nat.toDigits_of_lt_base small, List.mem_singleton]
        exact other n small
      · rw [Nat.toDigits_of_base_le lower large, List.mem_append, List.mem_singleton, not_or]
        exact ⟨ih (n / base) (Nat.div_lt_self (by omega) lower),
          other (n % base) (Nat.mod_lt n (by omega))⟩

theorem readNumeral_append_toDigits {base : ℕ} (lower : 1 < base) (base_le : base ≤ 16) (n : ℕ)
    (text : List Char) :
    readNumeral base (Nat.toDigits base n ++ text) = some (readDigits base n text) := by
  induction n using Nat.strong_induction_on generalizing text with
  | _ n ih =>
      rcases Nat.lt_or_ge n base with small | large
      · rw [Nat.toDigits_of_lt_base small, List.singleton_append, readNumeral,
          digitValue_digitChar small base_le]
        rfl
      · have digit := Nat.mod_lt n (show 0 < base by omega)
        rw [Nat.toDigits_of_base_le lower large, List.append_assoc,
          ih (n / base) (Nat.div_lt_self (by omega) lower), List.singleton_append, readDigits,
          digitValue_digitChar digit base_le]
        simp only [Nat.div_add_mod]

theorem readDigits_of_startsNoDigit {base : ℕ} {text : List Char}
    (startsNoDigit : StartsNoDigit base text) (value : ℕ) :
    readDigits base value text = (value, text) := by
  cases text with
  | nil => rfl
  | cons ch text => rw [readDigits, startsNoDigit ch rfl]

theorem readNumeral_toDigits {base : ℕ} (lower : 1 < base) (base_le : base ≤ 16) (n : ℕ)
    {text : List Char} (startsNoDigit : StartsNoDigit base text) :
    readNumeral base (Nat.toDigits base n ++ text) = some (n, text) := by
  rw [readNumeral_append_toDigits lower base_le, readDigits_of_startsNoDigit startsNoDigit]

end Numeral
