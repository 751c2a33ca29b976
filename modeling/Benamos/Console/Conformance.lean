import Benamos.Console.Grammar
import Benamos.Console.Marks

/-!
# What a format prints for an integer

Every directive of a format for an integer prints what the C standard prescribes, or not, as the
number of its digits and the numbers in the directive decide.
-/

namespace Benamos.Console

open Checked

/-- Every field of a format says so. -/
theorem wellRead_of_meaning {fields : Fields} {va remaining : List Vararg}
    {directive : Directive} (meant : fields.meaning va = .ok (directive, remaining)) :
    directive.WellRead := by
  rcases bind_eq_ok_iff.mp meant with ⟨⟨width, va⟩, _, meant⟩
  rcases bind_eq_ok_iff.mp meant with ⟨columns, _, meant⟩
  rcases bind_eq_ok_iff.mp meant with ⟨⟨precision, va⟩, amount, meant⟩
  cases meant
  constructor
  · rfl
  · intro noPrecision
    have none : fields.precision = .none := by simpa [Fields.meantFlags] using noPrecision
    rw [none] at amount
    cases amount
    rfl

theorem natAbs_convertedValue_lt_two_pow (specifier : Char) (flags : Flags) (argument : U64) :
    (convertedValue specifier flags argument).natAbs < 2 ^ 64 := by
  have width : 2 ^ argumentWidth flags ≤ 2 ^ 64 :=
    Nat.pow_le_pow_right (by decide) (argumentWidth_le flags)
  rw [convertedValue]
  split_ifs
  · have lower := (argument.setWidth (argumentWidth flags)).le_two_mul_toInt
    have upper := (argument.setWidth (argumentWidth flags)).two_mul_toInt_lt
    have cast : ((2 ^ argumentWidth flags : ℕ) : ℤ) = 2 ^ argumentWidth flags := by simp
    omega
  · have inside := (argument.setWidth (argumentWidth flags)).isLt
    omega

theorem standardSign_eq (specifier : Char) (flags : Flags) (value : ℤ) :
    signText (value < 0) (integerFlags specifier flags) = standardSign specifier flags value := by
  simp only [signText, standardSign, integerFlags, Bool.and_comm, decide_eq_true_eq]
  congr

theorem standardMark_octal (flags : Flags) (value : ℤ) : standardMark 'o' flags value = [] := by
  simp [standardMark]

theorem specifier_cases {specifier : Char} (notDecimal : integerBase specifier ≠ 10) :
    specifier = 'x' ∨ specifier = 'X' ∨ specifier = 'o' ∨ specifier = 'b' := by
  simp only [integerBase, Bool.or_eq_true, decide_eq_true_eq] at notDecimal
  split_ifs at notDecimal with sixteen eight two
  · exact sixteen.imp_right .inl
  · exact .inr (.inr (.inl eight))
  · exact .inr (.inr (.inr two))
  · contradiction

theorem standardMark_letter {specifier : Char} (notDecimal : integerBase specifier ≠ 10)
    (notOctal : specifier ≠ 'o') {flags : Flags} (lowercase : flags.uppercase = false)
    (hash : flags.hash = true) {value : ℤ} (nonzero : value ≠ 0) :
    ∃ letter, letter ≠ '0' ∧ standardMark specifier flags value = ['0', letter] ∧
      marks (integerBase specifier) (integerFlags specifier flags).uppercase = [letter, '0'] := by
  have uppercase : (integerFlags specifier flags).uppercase = decide (specifier = 'X') := by
    simp [integerFlags, lowercase]
  rw [uppercase]
  rcases specifier_cases notDecimal with rfl | rfl | rfl | rfl
  · exact ⟨'x', by decide, by simp [standardMark, hash, nonzero], rfl⟩
  · exact ⟨'X', by decide, by simp [standardMark, hash, nonzero], rfl⟩
  · contradiction
  · exact ⟨'b', by decide, by simp [standardMark, hash, nonzero], rfl⟩

/-- Neither a decimal number nor a zero has a mark. -/
theorem standardMark_nil {specifier : Char} {flags : Flags} {value : ℤ}
    (unmarked : flags.hash = true → integerBase specifier = 10 ∨ value = 0) :
    standardMark specifier flags value = [] := by
  rw [standardMark]
  cases hash : flags.hash with
  | false => rfl
  | true =>
      rcases unmarked hash with decimal | zero
      · have noLetter : specifier ≠ 'x' ∧ specifier ≠ 'X' ∧ specifier ≠ 'b' := by
          refine ⟨?_, ?_, ?_⟩
          all_goals
            rintro rfl
            contradiction
        simp [noLetter]
      · simp [zero]

theorem integerBase_eq_eight {specifier : Char} :
    integerBase specifier = 8 ↔ specifier = 'o' := by
  constructor
  · intro octal
    rcases specifier_cases (by rw [octal]; decide) with rfl | rfl | rfl | rfl
    · contradiction
    · contradiction
    · rfl
    · contradiction
  · rintro rfl
    rfl

/-- The number has its first zero already, unless it has no digit at all. -/
theorem standardNumber_zero {specifier : Char} {flags : Flags} {value : ℤ} {prec : ℕ}
    (unmarked : flags.hash = true → integerBase specifier = 10 ∨ value = 0)
    (digit : ¬(flags.hash = true ∧ specifier = 'o' ∧ flags.precision = true ∧ value = 0 ∧
      prec = 0)) :
    standardNumber (standardDigits specifier flags value) (flags.hash && specifier = 'o') prec =
      List.replicate (prec - (standardDigits specifier flags value).length) '0' ++
        standardDigits specifier flags value := by
  by_cases octal : flags.hash = true ∧ specifier = 'o'
  · rcases octal with ⟨hash, rfl⟩
    have zero : value = 0 := (unmarked hash).resolve_left (by decide)
    subst zero
    rw [standardNumber, if_neg]
    cases precision : flags.precision with
    | true =>
        have positive : prec ≠ 0 := by
          rintro rfl
          exact digit ⟨hash, rfl, precision, rfl, rfl⟩
        cases prec with
        | zero => contradiction
        | succ prec => simp [standardDigits, precision, List.replicate_succ]
    | false =>
        have shown : standardDigits 'o' flags 0 = ['0'] := by
          rw [standardDigits, precision]
          rfl
        rw [shown]
        cases prec - ['0'].length <;> simp [List.replicate_succ]
  · have notOctal : (flags.hash && decide (specifier = 'o')) = false := by
      simpa using octal
    rw [notOctal]
    rfl

theorem standardSign_unsigned {specifier : Char} (unsigned : isSigned specifier = false)
    (flags : Flags) (argument : U64) :
    standardSign specifier flags (convertedValue specifier flags argument) = [] := by
  have nonneg : ¬convertedValue specifier flags argument < 0 := by
    rw [convertedValue, unsigned]
    exact Int.not_lt.mpr (Int.natCast_nonneg _)
  simp [standardSign, unsigned, nonneg]

/-- Only the binary digits of a number can be more than 31. -/
theorem length_standardDigits_lt {specifier : Char} (base : 8 ≤ integerBase specifier)
    (flags : Flags) (argument : U64) :
    (standardDigits specifier flags (convertedValue specifier flags argument)).length <
      ntoaBufferSize := by
  have small := natAbs_convertedValue_lt_two_pow specifier flags argument
  have fits : (convertedValue specifier flags argument).natAbs < integerBase specifier ^ 31 :=
    calc (convertedValue specifier flags argument).natAbs
      _ < 2 ^ 64 := small
      _ ≤ 8 ^ 31 := by decide
      _ ≤ integerBase specifier ^ 31 := Nat.pow_le_pow_left base 31
  rw [standardDigits, ntoaBufferSize]
  split_ifs
  · decide
  · rw [shownDigits, List.length_map]
    exact Nat.lt_succ_of_le ((Nat.length_toDigits_le_iff (by omega) (by decide)).mpr fits)

theorem cut_standardDigits {specifier : Char} {flags : Flags} (lowercase : flags.uppercase = false)
    (value : ℤ) :
    Cut (if !flags.precision || value.natAbs ≠ 0 then
        ntoaDigits (integerFlags specifier flags).uppercase (integerBase specifier)
          ntoaBufferSize value.natAbs else [])
      (standardDigits specifier flags value) := by
  have uppercase : (integerFlags specifier flags).uppercase = decide (specifier = 'X') := by
    simp [integerFlags, lowercase]
  rcases integerBase_bounds specifier with ⟨lower, base_le⟩
  have cut := cut_ntoaDigits lower base_le (specifier = 'X') value.natAbs
  rw [uppercase, standardDigits]
  by_cases none : flags.precision = true ∧ value = 0
  · simp only [none, Int.natAbs_zero]
    exact ⟨rfl, fun _ => rfl, List.not_mem_nil, List.not_mem_nil⟩
  · have written : (!flags.precision || decide (value.natAbs ≠ 0)) = true := by
      simpa [imp_iff_not_or] using none
    have shown : ¬(flags.precision && decide (value = 0)) = true := by
      simpa using none
    rw [if_pos written, if_neg shown]
    exact cut

theorem standardDigits_nonzero (specifier : Char) (flags : Flags) {value : ℤ}
    (nonzero : value ≠ 0) :
    standardDigits specifier flags value =
        shownDigits (specifier = 'X') (integerBase specifier) value.natAbs ∧
      standardDigits specifier flags value ≠ [] := by
  have digits_eq : standardDigits specifier flags value =
      shownDigits (specifier = 'X') (integerBase specifier) value.natAbs := by
    simp [standardDigits, nonzero]
  refine ⟨digits_eq, ?_⟩
  rw [digits_eq, ← List.length_pos_iff, shownDigits, List.length_map]
  exact Nat.length_toDigits_pos

section

variable {specifier : Char} {directive : Directive} (read : directive.WellRead) (argument : U64)
include read

theorem integerText_plain_iff (unmarked : (directive.flags.hash = true →
      integerBase specifier = 10 ∨ convertedValue specifier directive.flags argument = 0)) :
    let flags := directive.flags
    let value := convertedValue specifier flags argument
    let digits := standardDigits specifier flags value
    integerText specifier directive argument =
        inField flags.left directive.width.toNat (standardBody (standardSign specifier flags value)
          (List.replicate (directive.precision.toNat - digits.length) '0' ++ digits)
          directive.width.toNat (flags.zeropad && !flags.precision) flags.left) ↔
      PlainConforms digits.length directive.precision.toNat directive.width.toNat
        (standardSign specifier flags value) (flags.zeropad && !flags.precision) flags.left := by
  dsimp only
  have same : convertedValue specifier (integerFlags specifier directive.flags) argument =
      convertedValue specifier directive.flags argument := rfl
  have cut := @cut_standardDigits specifier directive.flags read.lowercase
    (convertedValue specifier directive.flags argument)
  have sign := standardSign_eq specifier directive.flags
    (convertedValue specifier directive.flags argument)
  have signRoom : standardSign specifier directive.flags
      (convertedValue specifier directive.flags argument) ≠ [] →
      (standardDigits specifier directive.flags
        (convertedValue specifier directive.flags argument)).length < ntoaBufferSize := by
    intro signed
    apply length_standardDigits_lt
    cases kind : isSigned specifier with
    | true => rw [integerBase_of_isSigned kind]; decide
    | false => exact absurd (standardSign_unsigned kind _ _) signed
  have modes : (directive.flags.zeropad && !directive.flags.precision) = true →
      directive.precision.toNat = 0 := by
    intro zeropad
    rw [Bool.and_eq_true, Bool.not_eq_true'] at zeropad
    rw [read.noPrecision zeropad.2]
    rfl
  have flags_eq : (if (convertedValue specifier directive.flags argument).natAbs = 0 then
        { integerFlags specifier directive.flags with hash := false }
      else integerFlags specifier directive.flags) =
        { integerFlags specifier directive.flags with hash := false } := by
    split_ifs with zero
    · rfl
    · have noHash : (integerFlags specifier directive.flags).hash = false := by
        rw [Int.natAbs_eq_zero] at zero
        simp only [integerFlags]
        cases hash : directive.flags.hash with
        | false => rfl
        | true => simp [(unmarked hash).resolve_right zero]
      rw [← noHash]
  rw [integerText, ntoaLong]
  rw [same, flags_eq, ← sign]
  rw [← sign] at signRoom
  exact ntoaFormat_plain_iff cut _ _ _ _ rfl modes signRoom

section

variable (hash : directive.flags.hash = true)
  (nonzero : convertedValue specifier directive.flags argument ≠ 0)
  (notDecimal : integerBase specifier ≠ 10)
include hash nonzero notDecimal

/-- With the flag `#` the digits and the flags come into the buffer unsigned. -/
theorem integerText_hash {base : ℕ} (base_eq : integerBase specifier = base) :
    ∃ buf : List Char, let flags := integerFlags specifier directive.flags
      Cut buf (standardDigits specifier directive.flags
        (convertedValue specifier directive.flags argument)) ∧
      integerText specifier directive argument = ntoaFormat buf false base
        directive.precision.toNat directive.width.toNat flags ∧
      flags.hash = true ∧ flags.plus = false ∧ flags.space = false ∧
      (flags.precision = false → directive.precision.toNat = 0) ∧
      (flags.precision = true → flags.zeropad = false) := by
  have unsigned : isSigned specifier = false := by
    rw [← Bool.not_eq_true]
    exact fun signed => notDecimal (integerBase_of_isSigned signed)
  have nonneg : decide (convertedValue specifier directive.flags argument < 0) = false := by
    rw [convertedValue, unsigned]
    exact decide_eq_false (Int.not_lt.mpr (Int.natCast_nonneg _))
  have same : convertedValue specifier (integerFlags specifier directive.flags) argument =
      convertedValue specifier directive.flags argument := rfl
  refine ⟨_, cut_standardDigits read.lowercase _, ?_, ?_, ?_, ?_, ?_, ?_⟩
  · rw [integerText, ntoaLong]
    rw [same, nonneg, base_eq, if_neg (Int.natAbs_ne_zero.mpr nonzero)]
    rfl
  · simp [integerFlags, hash, notDecimal]
  · simp [integerFlags, unsigned]
  · simp [integerFlags, unsigned]
  · intro noPrecision
    rw [read.noPrecision noPrecision]
    rfl
  · intro precision
    simp only [integerFlags] at precision ⊢
    simp [precision]

end

theorem integerText_octal_iff (hash : directive.flags.hash = true)
    (nonzero : convertedValue 'o' directive.flags argument ≠ 0) :
    integerText 'o' directive argument = standardInteger 'o' directive argument ↔
      OctalConforms
        (standardDigits 'o' directive.flags (convertedValue 'o' directive.flags argument)).length
        directive.precision.toNat directive.width.toNat directive.flags.precision
        (directive.flags.zeropad && !directive.flags.precision) directive.flags.left := by
  have notDecimal : integerBase 'o' ≠ 10 := by decide
  rcases integerText_hash read argument hash nonzero notDecimal rfl with
    ⟨buf, cut, converted, keptHash, plus, space, noPrecision, modes⟩
  rcases standardDigits_nonzero _ directive.flags nonzero with ⟨digits_eq, nonempty⟩
  have short := @length_standardDigits_lt 'o' (by decide) directive.flags argument
  have head := @head?_shownDigits (integerBase 'o') (by decide) (by decide) (decide ('o' = 'X')) _
    (Int.natAbs_ne_zero.mpr nonzero)
  rw [← digits_eq] at head
  have sign := @standardSign_unsigned 'o' rfl directive.flags argument
  rw [converted, standardInteger]
  rw [sign, standardMark_octal, hash]
  exact ntoaFormat_octal_iff cut nonempty _ _ keptHash plus space noPrecision modes head short

theorem integerText_mark_iff (hash : directive.flags.hash = true)
    (nonzero : convertedValue specifier directive.flags argument ≠ 0)
    (notDecimal : integerBase specifier ≠ 10) (notOctal : specifier ≠ 'o') :
    integerText specifier directive argument = standardInteger specifier directive argument ↔
      MarkConforms (integerBase specifier)
        (standardDigits specifier directive.flags
          (convertedValue specifier directive.flags argument)).length
        directive.precision.toNat directive.width.toNat directive.flags.precision
        (directive.flags.zeropad && !directive.flags.precision) directive.flags.left := by
  rcases integerText_hash read argument hash nonzero notDecimal rfl with
    ⟨buf, cut, converted, keptHash, plus, space, noPrecision, modes⟩
  rcases standardDigits_nonzero _ directive.flags nonzero with ⟨digits_eq, nonempty⟩
  have unsigned : isSigned specifier = false := by
    rw [← Bool.not_eq_true]
    exact fun signed => notDecimal (integerBase_of_isSigned signed)
  have sign := standardSign_unsigned unsigned directive.flags argument
  rcases standardMark_letter notDecimal notOctal read.lowercase hash nonzero with
    ⟨letter, isLetter, standard_eq, mark_eq⟩
  have notOctal : (directive.flags.hash && decide (specifier = 'o')) = false := by
    simp [notOctal]
  rw [converted, standardInteger]
  rw [sign, standard_eq, notOctal, List.nil_append]
  exact ntoaFormat_mark_iff cut nonempty _ _ keptHash plus space noPrecision modes mark_eq isLetter

/-- The only digit of an octal zero is missing when there is a precision of zero. -/
theorem integerText_octal_zero (zero : convertedValue 'o' directive.flags argument = 0)
    (hash : directive.flags.hash = true) (precision : directive.flags.precision = true)
    (noPrecision : directive.precision.toNat = 0) :
    integerText 'o' directive argument ≠ standardInteger 'o' directive argument := by
  have sign := @standardSign_unsigned 'o' rfl directive.flags argument
  have digits : standardDigits 'o' directive.flags 0 = [] := by
    simp [standardDigits, precision]
  have plain := @integerText_plain_iff 'o' directive read argument fun _ => .inr zero
  dsimp only at plain
  rw [zero] at sign
  rw [zero, sign, digits, noPrecision, precision, Bool.not_true, Bool.and_false] at plain
  have printed := plain.mpr (by
    constructor
    · decide
    · simp)
  have standard : ink (standardInteger 'o' directive argument) = 1 := by
    rw [standardInteger, zero, sign, digits, standardMark_octal, noPrecision, hash, precision,
      ink_inField, Bool.not_true, Bool.and_false]
    rfl
  intro same
  rw [← same, printed, ink_inField] at standard
  simp [standardBody] at standard

end

/-- The text of an integer conversion is what the C standard prescribes exactly under these
conditions. -/
theorem integerText_standard_iff {directive : Directive} (read : directive.WellRead)
    (specifier : Char) (argument : U64) :
    integerText specifier directive argument = standardInteger specifier directive argument ↔
      Conforms specifier directive argument := by
  unfold Conforms
  dsimp only
  by_cases marked : directive.flags.hash = true ∧ integerBase specifier ≠ 10 ∧
      convertedValue specifier directive.flags argument ≠ 0
  · rcases marked with ⟨hash, notDecimal, nonzero⟩
    rw [if_pos (by simp [hash, notDecimal, nonzero])]
    by_cases octal : specifier = 'o'
    · subst octal
      exact integerText_octal_iff read argument hash nonzero
    · rw [if_neg (mt integerBase_eq_eight.mp octal)]
      exact integerText_mark_iff read argument hash nonzero notDecimal octal
  · have unmarked (hash : directive.flags.hash = true) : integerBase specifier = 10 ∨
        convertedValue specifier directive.flags argument = 0 := by
      by_contra neither
      exact marked ⟨hash, not_or.mp neither⟩
    rw [if_neg (by simpa using marked)]
    by_cases alone : directive.flags.hash = true ∧ specifier = 'o' ∧
        directive.flags.precision = true ∧
        convertedValue specifier directive.flags argument = 0 ∧ directive.precision.toNat = 0
    · rcases alone with ⟨hash, rfl, precision, zero, noPrecision⟩
      have different := integerText_octal_zero read argument zero hash precision noPrecision
      simp [different, hash, precision, zero, noPrecision, integerBase]
    · have number := standardNumber_zero unmarked alone
      have digit : ¬(directive.flags.hash && integerBase specifier = 8 &&
          directive.flags.precision && convertedValue specifier directive.flags argument = 0 &&
          directive.precision.toNat = 0) = true := by
        simpa [integerBase_eq_eight, and_assoc] using alone
      have plain := integerText_plain_iff read argument unmarked
      rw [standardInteger]
      dsimp only at plain ⊢
      rw [standardMark_nil unmarked, number, List.append_nil, and_iff_left digit]
      exact plain

end Benamos.Console
