import Benamos.Numeral
import Mathlib.Control.Monad.Basic

/-!
# Readers that undo printers

A reader takes a value from the front of a text. It reads a text back as a value if it does so
whatever follows the text, so readers for the parts of a text make one for the whole.
-/

namespace Reading

open Numeral

abbrev Reader := StateT (List Char) Option

def literal (expected : List Char) : Reader Unit := fun text =>
  (text.dropPrefix? expected).map fun rest => ((), rest)

/-- The characters before the first `stop`, which is taken as well. -/
def upTo (stop : Char) : Reader (List Char)
  | [] => none
  | ch :: text =>
      if ch = stop then some ([], text)
      else (upTo stop text).map fun (before, rest) => (ch :: before, rest)

/-- A number without sign, up to `stop`. -/
def numberUpTo (base : ℕ) (stop : Char) : Reader ℕ := do
  let digits ← upTo stop
  match readNumeral base digits with
  | some (number, []) => return number
  | _ => failure

/-- `count` digits of either case after a number `value` that was read already. -/
def digits (base : ℕ) : ℕ → ℕ → Reader ℕ
  | 0, value => pure value
  | count + 1, value => fun
    | [] => none
    | ch :: text =>
        match digitValue base ch.toLower with
        | some digit => digits base count (base * value + digit) text
        | none => none

/-- Whatever comes next, the reader takes the text and gives the value. -/
structure Reads {α : Type} (reader : Reader α) (text : List Char) (value : α) : Prop where
  takes : ∀ rest, reader (text ++ rest) = some (value, rest)

section

variable {α β : Type}

theorem reads_pure (value : α) : Reads (pure value : Reader α) [] value := ⟨fun _ => rfl⟩

theorem Reads.bind {first : Reader α} {next : α → Reader β} {text more : List Char} {value : α}
    {result : β} (reads : Reads first text value) (readsOn : Reads (next value) more result) :
    Reads (first >>= next) (text ++ more) result := by
  constructor
  intro rest
  simp only [Bind.bind, StateT.bind, List.append_assoc, reads.takes (more ++ rest)]
  exact readsOn.takes rest

/-- What was read is put together in the end. -/
theorem Reads.done {reader : Reader α} {text : List Char} {value : α}
    (reads : Reads reader text value) (next : α → β) :
    Reads (reader >>= fun value => pure (next value)) text (next value) := by
  have arranged : Reads (reader >>= fun value => pure (next value)) (text ++ []) (next value) :=
    reads.bind (reads_pure (next value))
  rwa [List.append_nil] at arranged

theorem reads_literal (expected : List Char) : Reads (literal expected) expected () := by
  constructor
  intro rest
  rw [literal, List.dropPrefix?_append_of_beq rest (beq_self_eq_true expected)]
  rfl

theorem reads_upTo {stop : Char} {text : List Char} (notMem : stop ∉ text) :
    Reads (upTo stop) (text ++ [stop]) text := by
  constructor
  intro rest
  induction text with
  | nil => simp [upTo]
  | cons ch text ih =>
      simp only [List.mem_cons, not_or] at notMem
      rw [List.cons_append, List.cons_append, upTo, if_neg (Ne.symm notMem.1), ih notMem.2]
      rfl

theorem reads_numberUpTo {base : ℕ} {stop : Char} (lower : 1 < base) (base_le : base ≤ 16)
    (noDigit : digitValue base stop = none) (n : ℕ) :
    Reads (numberUpTo base stop) (Nat.toDigits base n ++ [stop]) n := by
  have notMem := notMem_toDigits lower base_le n noDigit
  have read := @readNumeral_toDigits base lower base_le n [] (by simp [StartsNoDigit])
  rw [List.append_nil] at read
  constructor
  intro rest
  have before := (reads_upTo notMem).takes rest
  simp only [numberUpTo, Bind.bind, StateT.bind, before, Option.bind_some]
  rw [read]
  rfl

/-- As many digits as there are read the whole text. -/
theorem reads_digits {base : ℕ} {text : List Char} {start value : ℕ}
    (allDigits : ∀ ch ∈ text, (digitValue base ch.toLower).isSome)
    (read : readDigits base start (text.map Char.toLower) = (value, [])) :
    Reads (digits base text.length start) text value := by
  constructor
  intro rest
  induction text generalizing start with
  | nil =>
      cases read
      rfl
  | cons ch text ih =>
      rcases Option.isSome_iff_exists.mp (allDigits ch List.mem_cons_self) with ⟨digit, digit_eq⟩
      rw [List.map_cons, readDigits, digit_eq] at read
      have rest_eq := ih (fun ch mem => allDigits ch (List.mem_cons_of_mem _ mem)) read
      simp only [List.length_cons, List.cons_append, digits, digit_eq]
      exact rest_eq

end

end Reading
