import Benamos.Console.Printf
import Benamos.Numeral

/-!
# What an integer conversion tells

The text of an integer conversion is a sign, leading zeros and the digits of the number, between
spaces that fill the field. All of it passes through a buffer of 32 characters, and what finds no
room there is dropped: the high digits of a number, or its sign. A reader that knows the base gets
the number back exactly when nothing that matters was dropped.
-/

namespace Benamos.Console

open Numeral

/-! ### Reading an integer -/

def isSpace (character : Char) : Bool := character = ' '

/-- The text without the spaces at its ends. -/
def strip (text : List Char) : List Char :=
  ((text.dropWhile isSpace).reverse.dropWhile isSpace).reverse

/-- A number in digits of either case, and nothing else. -/
def parseNumber (base : ℕ) (text : List Char) : Option ℤ :=
  match readNumeral base (text.map Char.toLower) with
  | some (number, []) => some (Int.ofNat number)
  | _ => none

def parseInteger (base : ℕ) (text : List Char) : Option ℤ :=
  match strip text with
  | '-' :: text => (parseNumber base text).map (-·)
  | '+' :: text => parseNumber base text
  | text => parseNumber base text

theorem dropWhile_spaces (count : ℕ) {core : List Char} (noSpace : ∀ ch ∈ core.head?, ch ≠ ' ') :
    (List.replicate count ' ' ++ core).dropWhile isSpace = core := by
  rw [List.dropWhile_append_of_pos (by simp [isSpace])]
  cases core with
  | nil => rfl
  | cons ch core =>
      apply List.dropWhile_cons_of_neg
      simpa [isSpace] using noSpace ch rfl

theorem strip_padded (before behind : ℕ) {core : List Char} (noSpace : ' ' ∉ core) :
    strip (List.replicate before ' ' ++ (core ++ List.replicate behind ' ')) = core := by
  have apart {ch : Char} {text : List Char} (mem : ch ∈ text) (same : ∀ ch ∈ text, ch ∈ core) :
      ch ≠ ' ' := by
    rintro rfl
    exact noSpace (same _ mem)
  cases core with
  | nil => simp [strip, isSpace]
  | cons first core =>
      rw [strip, dropWhile_spaces, List.reverse_append, List.reverse_replicate, dropWhile_spaces,
        List.reverse_reverse]
      · intro ch head
        exact apart (List.mem_of_mem_head? head) fun _ => List.mem_reverse.mp
      · intro ch head
        simp only [List.cons_append, List.head?_cons, Option.mem_some_iff] at head
        rw [← head]
        exact apart List.mem_cons_self fun _ mem => mem

/-! ### The digits -/

theorem digitValue_ntoaDigit {base digit : ℕ} (uppercase : Bool) (small : digit < base)
    (base_le : base ≤ 16) :
    digitValue base (ntoaDigit uppercase digit).toLower = some digit := by
  have table : ∀ uppercase, ∀ base < 17, ∀ digit < base,
      digitValue base (ntoaDigit uppercase digit).toLower = some digit := by
    decide
  exact table uppercase base (Nat.lt_succ_of_le base_le) digit small

section

variable {base : ℕ} (lower : 1 < base) (base_le : base ≤ 16)
include lower base_le

/-- The digits in the buffer read as the number, cut to as many digits as there is room for. -/
theorem readDigits_ntoaDigits (uppercase : Bool) (room value : ℕ) (rest : List Char) :
    readDigits base 0
        ((ntoaDigits uppercase base room value).reverse.map Char.toLower ++ rest) =
      readDigits base (value % base ^ room) rest := by
  induction room generalizing value rest with
  | zero => simp [ntoaDigits, Nat.mod_one]
  | succ room ih =>
      have digit := Nat.mod_lt value (show 0 < base by omega)
      have last (high : ℕ) :
          readDigits base high ((ntoaDigit uppercase (value % base)).toLower :: rest) =
            readDigits base (base * high + value % base) rest := by
        rw [readDigits, digitValue_ntoaDigit uppercase digit base_le]
      have split : value % base ^ (room + 1) =
          base * (value / base % base ^ room) + value % base := by
        rw [Nat.pow_succ', Nat.mod_mul, Nat.add_comm]
      rw [ntoaDigits, List.reverse_cons, List.map_append, List.append_assoc, List.map_singleton,
        List.singleton_append, split]
      split_ifs with more
      · rw [ih, last]
      · have none : value / base = 0 := not_not.mp more
        rw [none, Nat.zero_mod]
        exact last 0

theorem readDigits_zeros (count : ℕ) (rest : List Char) :
    readDigits base 0 (List.replicate count '0' ++ rest) = readDigits base 0 rest := by
  have zero : digitValue base '0' = some 0 :=
    digitValue_digitChar (show 0 < base by omega) base_le
  induction count with
  | zero => rfl
  | succ count ih =>
      rw [List.replicate_succ, List.cons_append, readDigits, zero]
      exact ih

end

/-! ### Signs and fields -/

/-- What stands before the number when there is room for it. -/
def signText (negative : Bool) (flags : Flags) : List Char :=
  if negative then ['-'] else if flags.plus then ['+'] else if flags.space then [' '] else []

/-- All characters are digits of the base. -/
def Digits (base : ℕ) (text : List Char) : Prop :=
  ∀ ch ∈ text, (digitValue base ch.toLower).isSome

theorem not_digit {base : ℕ} (base_le : base ≤ 16) {ch : Char}
    (sign : ch ∈ [' ', '-', '+', '\x00']) :
    digitValue base ch.toLower = none := by
  have same : ch.toLower = ch := by
    simp only [List.mem_cons, List.not_mem_nil, or_false] at sign
    rcases sign with rfl | rfl | rfl | rfl
    · rfl
    · rfl
    · rfl
    · rfl
  have table : ∀ digit < 16, digit.digitChar ∉ [' ', '-', '+', '\x00'] := by
    decide
  rw [same, digitValue, List.find?_eq_none]
  intro digit inRange
  rw [List.mem_range] at inRange
  have isDigit := table digit (by omega)
  rw [decide_eq_true_eq]
  rintro rfl
  exact isDigit sign

section

variable {base : ℕ} {digits : List Char}

theorem Digits.notMem (allDigits : Digits base digits) (base_le : base ≤ 16) {ch : Char}
    (sign : ch ∈ [' ', '-', '+', '\x00']) : ch ∉ digits := by
  intro mem
  have isDigit := allDigits ch mem
  rw [not_digit base_le sign] at isDigit
  contradiction

theorem parseInteger_of_strip {text : List Char} (stripped : strip text = digits)
    (allDigits : Digits base digits) (base_le : base ≤ 16) :
    parseInteger base text = parseNumber base digits := by
  rw [parseInteger, stripped]
  split
  · exact absurd List.mem_cons_self (allDigits.notMem base_le (by decide))
  · exact absurd List.mem_cons_self (allDigits.notMem base_le (by decide))
  · rfl

theorem parseInteger_unsigned (allDigits : Digits base digits) (base_le : base ≤ 16)
    (before behind : ℕ) :
    parseInteger base
        (List.replicate before ' ' ++ (digits ++ List.replicate behind ' ')) =
      parseNumber base digits :=
  parseInteger_of_strip (strip_padded before behind (allDigits.notMem base_le (by decide)))
    allDigits base_le

theorem parseInteger_signed (allDigits : Digits base digits) (base_le : base ≤ 16)
    (negative : Bool) (flags : Flags) (before behind : ℕ) :
    parseInteger base (List.replicate before ' ' ++
        (signText negative flags ++ digits ++ List.replicate behind ' ')) =
      (parseNumber base digits).map fun number => if negative then -number else number := by
  have noSpace := allDigits.notMem base_le (show ' ' ∈ [' ', '-', '+', '\x00'] by decide)
  rw [signText]
  split_ifs with isNegative plus space
  · have stripped := @strip_padded before behind ('-' :: digits) (by simp [noSpace])
    rw [parseInteger, List.append_assoc]
    simp only [List.cons_append, List.nil_append] at stripped ⊢
    rw [stripped]
    rfl
  · have stripped := @strip_padded before behind ('+' :: digits) (by simp [noSpace])
    rw [parseInteger, List.append_assoc]
    simp only [List.cons_append, List.nil_append] at stripped ⊢
    rw [stripped, Option.map_id']
    rfl
  · have moved : List.replicate before ' ' ++ ([' '] ++ digits ++ List.replicate behind ' ') =
        List.replicate (before + 1) ' ' ++ (digits ++ List.replicate behind ' ') := by
      rw [List.replicate_succ', List.append_assoc, List.append_assoc]
    rw [moved, parseInteger_unsigned allDigits base_le, Option.map_id']
  · rw [List.nil_append, parseInteger_unsigned allDigits base_le, Option.map_id']

end

section

variable {base : ℕ} (lower : 1 < base) (base_le : base ≤ 16)
include lower base_le

theorem digits_zeros (count : ℕ) {digits : List Char} (allDigits : Digits base digits) :
    Digits base (List.replicate count '0' ++ digits) := by
  have zero : digitValue base '0' = some 0 :=
    digitValue_digitChar (show 0 < base by omega) base_le
  intro ch mem
  rcases List.mem_append.mp mem with inZeros | inDigits
  · rw [List.eq_of_mem_replicate inZeros]
    exact Option.isSome_of_mem zero
  · exact allDigits ch inDigits

theorem digits_ntoaDigits (uppercase : Bool) (room value : ℕ) :
    Digits base (ntoaDigits uppercase base room value).reverse := by
  intro ch mem
  rw [List.mem_reverse] at mem
  induction room generalizing value with
  | zero => simp [ntoaDigits] at mem
  | succ room ih =>
      rw [ntoaDigits] at mem
      rcases List.mem_cons.mp mem with rfl | later
      · rw [digitValue_ntoaDigit uppercase (Nat.mod_lt value (by omega)) base_le]
        rfl
      · split_ifs at later
        · exact ih (value / base) later
        · contradiction

omit lower base_le in
/-- A text of digits reads as a number unless it is empty. -/
theorem parseNumber_digits {digits : List Char} (allDigits : Digits base digits) :
    parseNumber base digits =
      if digits = [] then none
      else match readDigits base 0 (digits.map Char.toLower) with
        | (number, []) => some (Int.ofNat number)
        | _ => none := by
  cases digits with
  | nil => rfl
  | cons ch digits =>
      rcases Option.isSome_iff_exists.mp (allDigits ch List.mem_cons_self) with ⟨digit, value_eq⟩
      rw [if_neg (List.cons_ne_nil _ _), parseNumber, List.map_cons, readNumeral, readDigits,
        value_eq]
      simp only [Option.map_some, Nat.mul_zero, Nat.zero_add]
      rcases readDigits base digit (digits.map Char.toLower) with ⟨number, _ | ⟨_, _⟩⟩
      · rfl
      · rfl

/-- Leading zeros and the digits in the buffer. -/
theorem parseNumber_ntoaDigits (uppercase : Bool) (zeros room value : ℕ) :
    parseNumber base
        (List.replicate zeros '0' ++ (ntoaDigits uppercase base (room + 1) value).reverse) =
      some (Int.ofNat (value % base ^ (room + 1))) := by
  have nonempty : List.replicate zeros '0' ++
      (ntoaDigits uppercase base (room + 1) value).reverse ≠ [] := by
    simp [ntoaDigits]
  have lowered : (List.replicate zeros '0').map Char.toLower = List.replicate zeros '0' := by
    rw [List.map_replicate]
    rfl
  have read := readDigits_ntoaDigits lower base_le uppercase (room + 1) value []
  rw [List.append_nil] at read
  rw [parseNumber_digits (digits_zeros lower base_le zeros
    (digits_ntoaDigits lower base_le uppercase (room + 1) value)), if_neg nonempty,
    List.map_append, lowered, readDigits_zeros lower base_le, read]
  rfl

/-- A number without digits has at most leading zeros. -/
theorem parseNumber_zeros (zeros : ℕ) :
    parseNumber base (List.replicate zeros '0') = if zeros = 0 then none else some 0 := by
  have lowered : (List.replicate zeros '0').map Char.toLower = List.replicate zeros '0' := by
    rw [List.map_replicate]
    rfl
  have allDigits : Digits base (List.replicate zeros '0') := by
    have noDigits : Digits base [] := by simp [Digits]
    have := digits_zeros lower base_le zeros noDigits
    rwa [List.append_nil] at this
  have read := readDigits_zeros lower base_le zeros []
  rw [List.append_nil] at read
  rw [parseNumber_digits allDigits, lowered, read]
  simp only [List.replicate_eq_nil_iff]
  rfl

end

/-! ### Numbers in a field of zeros -/

/-- The digits of the number, with zeros before them up to the width. -/
def zeroPadded (uppercase : Bool) (base width value : ℕ) : List Char :=
  let digits := ntoaDigits uppercase base ntoaBufferSize value
  List.replicate (width - digits.length) '0' ++ digits.reverse

theorem ntoaLong_zeroPadded (uppercase long : Bool) (base value : ℕ) {width : ℕ}
    (room : width ≤ ntoaBufferSize) :
    ntoaLong value false base 0 width { zeropad := true, uppercase, long } =
      zeroPadded uppercase base width value := by
  simp [ntoaLong, ntoaFormat, padZeros, outRev, zeroPadded, Nat.min_eq_left room]

theorem length_ntoaDigits_le {base : ℕ} (uppercase : Bool) {room value digits : ℕ}
    (fits : value < base ^ (digits + 1)) :
    (ntoaDigits uppercase base room value).length ≤ digits + 1 := by
  induction digits generalizing room value with
  | zero =>
      cases room with
      | zero => exact Nat.zero_le _
      | succ room =>
          rw [Nat.zero_add, Nat.pow_one] at fits
          simp [ntoaDigits, Nat.div_eq_of_lt fits]
  | succ digits ih =>
      cases room with
      | zero => exact Nat.zero_le _
      | succ room =>
          have quotient : value / base < base ^ (digits + 1) :=
            Nat.div_lt_of_lt_mul (by rwa [← Nat.pow_succ'])
          rw [ntoaDigits, List.length_cons]
          split_ifs
          · exact Nat.succ_le_succ (ih quotient)
          · simp

theorem length_zeroPadded {base : ℕ} (uppercase : Bool) {width value : ℕ}
    (fits : value < base ^ (width + 1)) :
    (zeroPadded uppercase base (width + 1) value).length = width + 1 := by
  have length_le := @length_ntoaDigits_le base uppercase ntoaBufferSize value width fits
  simp only [zeroPadded, List.length_append, List.length_replicate, List.length_reverse]
  omega

section

variable {base : ℕ} (lower : 1 < base) (base_le : base ≤ 16)
include lower base_le

theorem digits_zeroPadded (uppercase : Bool) (width value : ℕ) :
    Digits base (zeroPadded uppercase base width value) :=
  digits_zeros lower base_le _ (digits_ntoaDigits lower base_le uppercase _ value)

theorem readDigits_zeroPadded (uppercase : Bool) (width : ℕ) {value : ℕ}
    (fits : value < base ^ ntoaBufferSize) :
    readDigits base 0 ((zeroPadded uppercase base width value).map Char.toLower) =
      (value, []) := by
  have zeros (count : ℕ) :
      (List.replicate count '0').map Char.toLower = List.replicate count '0' := by
    rw [List.map_replicate]
    rfl
  have read := readDigits_ntoaDigits lower base_le uppercase ntoaBufferSize value []
  rw [List.append_nil, Nat.mod_eq_of_lt fits] at read
  rw [zeroPadded, List.map_append, zeros, readDigits_zeros lower base_le, read]
  rfl

end

/-! ### The layout of a conversion -/

/-- The leading zeros of a number with `length` digits. -/
def fieldZeros (length prec width : ℕ) (flags : Flags) : ℕ :=
  if flags.left then 0
  else
    let zeros := min prec ntoaBufferSize - length
    if flags.zeropad then zeros + (min width ntoaBufferSize - (length + zeros)) else zeros

/-- What is left of the width beside a sign in front of leading zeros. -/
def innerWidth (negative : Bool) (width : ℕ) (flags : Flags) : ℕ :=
  if !flags.left && width ≠ 0 && flags.zeropad && (negative || flags.plus || flags.space) then
    width - 1
  else width

def pushSign (buf : List Char) (negative : Bool) (flags : Flags) : List Char :=
  if negative then pushChar buf '-'
  else if flags.plus then pushChar buf '+'
  else if flags.space then pushChar buf ' '
  else buf

theorem reverse_pushSign (buf : List Char) (negative : Bool) (flags : Flags) :
    (pushSign buf negative flags).reverse =
      (if buf.length < ntoaBufferSize then signText negative flags else []) ++ buf.reverse := by
  simp only [pushSign, pushChar, signText]
  split_ifs <;> simp

theorem padZeros_fieldZeros (buf : List Char) (prec width : ℕ) (flags : Flags) :
    (if flags.left then buf
      else if flags.zeropad then padZeros (padZeros buf prec) width else padZeros buf prec) =
      buf ++ List.replicate (fieldZeros buf.length prec width flags) '0' := by
  simp only [fieldZeros, padZeros]
  split_ifs <;> simp

theorem outRev_layout (buf : List Char) (width : ℕ) (flags : Flags) :
    ∃ before behind : ℕ, outRev buf width flags =
      List.replicate before ' ' ++ (buf.reverse ++ List.replicate behind ' ') := by
  rw [outRev]
  cases flags.left with
  | true => exact ⟨0, width - buf.length, by simp⟩
  | false =>
      cases flags.zeropad with
      | true => exact ⟨0, 0, by simp⟩
      | false => exact ⟨width - buf.length, 0, by simp⟩

theorem ntoaFormat_noHash (buf : List Char) (negative : Bool) (base prec width : ℕ)
    {flags : Flags} (noHash : flags.hash = false) :
    ntoaFormat buf negative base prec width flags =
      outRev (pushSign (buf ++ List.replicate
          (fieldZeros buf.length prec (innerWidth negative width flags) flags) '0') negative flags)
        (innerWidth negative width flags) flags := by
  rw [← padZeros_fieldZeros, ntoaFormat, noHash]
  rfl

theorem ntoaFormat_layout (buf : List Char) (negative : Bool) (base prec width : ℕ)
    {flags : Flags} (noHash : flags.hash = false) :
    ∃ before behind : ℕ,
      let zeros := fieldZeros buf.length prec (innerWidth negative width flags) flags
      ntoaFormat buf negative base prec width flags =
        List.replicate before ' ' ++
          ((if buf.length + zeros < ntoaBufferSize then signText negative flags else []) ++
              (List.replicate zeros '0' ++ buf.reverse) ++
            List.replicate behind ' ') := by
  dsimp only
  rcases outRev_layout (pushSign (buf ++ List.replicate
    (fieldZeros buf.length prec (innerWidth negative width flags) flags) '0') negative flags)
    (innerWidth negative width flags) flags with ⟨before, behind, laid⟩
  refine ⟨before, behind, ?_⟩
  rw [ntoaFormat_noHash _ _ _ _ _ noHash, laid, reverse_pushSign, List.length_append,
    List.length_replicate, List.reverse_append, List.reverse_replicate]

/-- Whether a minus sign finds room in front of the leading zeros. -/
def signFits (prec width : ℕ) (flags : Flags) : Bool :=
  flags.left || prec < ntoaBufferSize && (!flags.zeropad || width ≤ ntoaBufferSize)

theorem length_add_fieldZeros_lt {length prec width : ℕ} {flags : Flags}
    (short : length < ntoaBufferSize) :
    length + fieldZeros length prec (innerWidth true width flags) flags < ntoaBufferSize ↔
      signFits prec width flags = true := by
  rw [fieldZeros, innerWidth, signFits, ntoaBufferSize] at *
  cases flags.left with
  | true => simp [short]
  | false =>
      cases flags.zeropad with
      | false =>
          simp
          omega
      | true =>
          by_cases none : width = 0
          · simp [none]
            omega
          · simp [none]
            omega

/-! ### Reading it back -/

section

variable {base : ℕ} (lower : 1 < base) (base_le : base ≤ 16)
include lower base_le

theorem parseInteger_ntoaFormat {buf : List Char} (allDigits : Digits base buf.reverse)
    (negative : Bool) (prec width : ℕ) {flags : Flags} (noHash : flags.hash = false) :
    let zeros := fieldZeros buf.length prec (innerWidth negative width flags) flags
    parseInteger base (ntoaFormat buf negative base prec width flags) =
      (parseNumber base (List.replicate zeros '0' ++ buf.reverse)).map fun number =>
        if negative && buf.length + zeros < ntoaBufferSize then -number else number := by
  rcases ntoaFormat_layout buf negative base prec width noHash with ⟨before, behind, laid⟩
  dsimp only at laid ⊢
  generalize fieldZeros buf.length prec (innerWidth negative width flags) flags = zeros at laid ⊢
  have bodyDigits := digits_zeros lower base_le zeros allDigits
  rw [laid]
  by_cases room : buf.length + zeros < ntoaBufferSize
  · simp only [room, if_true, decide_true, Bool.and_true]
    exact parseInteger_signed bodyDigits base_le negative flags before behind
  · simp only [room, if_false, List.nil_append, decide_false, Bool.and_false, Bool.false_eq_true,
      Option.map_id']
    exact parseInteger_unsigned bodyDigits base_le before behind

theorem parseInteger_ntoaLong (value : ℕ) (negative : Bool) (prec width : ℕ) {flags : Flags}
    (noHash : flags.hash = false) (noZeropad : flags.precision = true → flags.zeropad = false)
    (short : negative = true → value ≠ 0 ∧ value < base ^ 31) :
    parseInteger base (ntoaLong value negative base prec width flags) =
      if value = 0 ∧ flags.precision = true ∧ (flags.left = true ∨ prec = 0) then none
      else
        let number := Int.ofNat (value % base ^ ntoaBufferSize)
        some (if negative && signFits prec width flags then -number else number) := by
  have sameFlags : (if value = 0 then { flags with hash := false } else flags) = flags := by
    rw [← noHash, ite_self]
  rw [ntoaLong, sameFlags]
  dsimp only
  by_cases none : value = 0 ∧ flags.precision = true
  · have notNegative : negative = false := by
      by_contra isNegative
      exact (short (by simpa using isNegative)).1 none.1
    have noDigits : Digits base ([] : List Char).reverse := by simp [Digits]
    have zeros_eq : fieldZeros 0 prec (innerWidth negative width flags) flags = 0 ↔
        flags.left = true ∨ prec = 0 := by
      rw [fieldZeros, noZeropad none.2, ntoaBufferSize]
      cases flags.left with
      | true => simp
      | false => simp
    rw [if_neg (by simp [none]), parseInteger_ntoaFormat lower base_le noDigits _ _ _ noHash,
      List.reverse_nil, List.append_nil, parseNumber_zeros lower base_le, notNegative]
    simp only [List.length_nil, ← notNegative, zeros_eq, none, true_and]
    split_ifs <;> simp_all
  · have written : (!flags.precision || decide (value ≠ 0)) = true := by
      simpa [imp_iff_not_or, or_comm] using none
    have allDigits := digits_ntoaDigits lower base_le flags.uppercase ntoaBufferSize value
    have shown (zeros : ℕ) :=
      parseNumber_ntoaDigits lower base_le flags.uppercase zeros 31 value
    rw [if_pos written, parseInteger_ntoaFormat lower base_le allDigits _ _ _ noHash,
      if_neg (by tauto)]
    cases negative with
    | false => simp only [Bool.false_and, Bool.false_eq_true, if_false, ntoaBufferSize, shown,
        Option.map_some]
    | true =>
        have length : (ntoaDigits flags.uppercase base ntoaBufferSize value).length <
            ntoaBufferSize :=
          Nat.lt_succ_of_le (length_ntoaDigits_le flags.uppercase (short rfl).2)
        simp only [length_add_fieldZeros_lt length, Bool.true_and, Bool.decide_eq_true]
        simp only [ntoaBufferSize, shown, Option.map_some]

end

/-- The number an integer conversion is about. -/
def convertedValue (specifier : Char) (flags : Flags) (argument : U64) : ℤ :=
  let value := argument.setWidth (argumentWidth flags)
  if isSigned specifier then value.toInt else value.toNat

theorem integerBase_bounds (specifier : Char) :
    1 < integerBase specifier ∧ integerBase specifier ≤ 16 := by
  rw [integerBase]
  split_ifs <;> decide

theorem integerBase_of_isSigned {specifier : Char} (signed : isSigned specifier = true) :
    integerBase specifier = 10 := by
  rw [isSigned, decide_eq_true_eq, List.mem_cons, List.mem_singleton] at signed
  rcases signed with rfl | rfl
  · rfl
  · rfl

theorem argumentWidth_le (flags : Flags) : argumentWidth flags ≤ 64 := by
  rw [argumentWidth]
  split_ifs <;> decide

/-- The number is not the least one of the type it would be negated in. -/
def Negatable (specifier : Char) (flags : Flags) (argument : U64) : Prop :=
  -2 ^ (promotedWidth flags - 1) < convertedValue specifier flags argument
deriving Decidable

theorem negatable_iff (specifier : Char) (flags : Flags) (argument : U64) :
    Negatable specifier flags argument ↔
      0 - convertedValue specifier flags argument < 2 ^ (promotedWidth flags - 1) := by
  rw [Negatable]
  omega

/-- What a conversion whose negation does not overflow puts out. -/
def integerText (specifier : Char) (directive : Directive) (argument : U64) : List Char :=
  let flags := integerFlags specifier directive.flags
  let value := convertedValue specifier flags argument
  ntoaLong value.natAbs (value < 0) (integerBase specifier) directive.precision.toNat
    directive.width.toNat flags

theorem convertInteger_eq (specifier : Char) (directive : Directive) (argument : U64) :
    convertInteger specifier directive argument =
      if Negatable specifier directive.flags argument then
        .ok (integerText specifier directive argument)
      else .error .overflow := by
  -- The flags that depend on the specifier do not bear on the number.
  have negated : Negatable specifier directive.flags argument ↔
      0 - convertedValue specifier (integerFlags specifier directive.flags) argument <
        2 ^ (promotedWidth (integerFlags specifier directive.flags) - 1) :=
    negatable_iff specifier (integerFlags specifier directive.flags) argument
  simp only [convertInteger, integerText, negated, convertedValue]
  generalize integerFlags specifier directive.flags = flags
  by_cases signed : isSigned specifier = true
  · simp only [if_pos signed, magnitude]
    split_ifs
    · rfl
    · rfl
  · have bound : (0 : ℤ) < 2 ^ (promotedWidth flags - 1) := Int.pow_pos (by decide)
    have nonneg (number : ℕ) : ¬(number : ℤ) < 0 := Int.not_lt.mpr (Int.natCast_nonneg number)
    simp only [if_neg signed]
    rw [if_pos (by omega), Int.natAbs_natCast, decide_eq_false (nonneg _)]

theorem convertInteger_eq_ok_iff {specifier : Char} {directive : Directive} {argument : U64}
    {text : List Char} :
    convertInteger specifier directive argument = .ok text ↔
      Negatable specifier directive.flags argument ∧
        integerText specifier directive argument = text := by
  rw [convertInteger_eq]
  split_ifs with negatable
  · simp [negatable]
  · simp [negatable]

theorem natAbs_convertedValue_lt {specifier : Char} {flags : Flags} {argument : U64}
    (negative : convertedValue specifier flags argument < 0) :
    (convertedValue specifier flags argument).natAbs < integerBase specifier ^ 31 := by
  rw [convertedValue] at negative ⊢
  split_ifs at negative ⊢ with signed
  · have lower := (argument.setWidth (argumentWidth flags)).le_two_mul_toInt
    have width : (2 : ℤ) ^ argumentWidth flags ≤ 2 ^ 64 :=
      pow_le_pow_right₀ (by decide) (argumentWidth_le flags)
    rw [integerBase_of_isSigned signed]
    omega
  · omega

/-- A cut magnitude with a sign is the number when there was nothing to cut. -/
theorem cut_eq_iff (value : ℤ) {bound : ℕ} (positive : 0 < bound) (fits : Bool) :
    (if value < 0 && fits then -Int.ofNat (value.natAbs % bound)
        else Int.ofNat (value.natAbs % bound)) = value ↔
      value.natAbs < bound ∧ (value < 0 → fits = true) := by
  have cut : value.natAbs % bound = value.natAbs ↔ value.natAbs < bound :=
    Nat.mod_eq_iff_lt (show bound ≠ 0 by omega)
  have inside := Nat.mod_lt value.natAbs positive
  cases fits with
  | false =>
      simp only [Bool.and_false, Bool.false_eq_true, if_false, Int.ofNat_eq_natCast, imp_false]
      omega
  | true =>
      simp only [Bool.and_true, decide_eq_true_eq, implies_true, and_true, Int.ofNat_eq_natCast]
      split_ifs <;> omega

theorem parseInteger_integerText {specifier : Char} {directive : Directive}
    (noHash : (integerFlags specifier directive.flags).hash = false) (argument : U64) :
    let flags := integerFlags specifier directive.flags
    let value := convertedValue specifier flags argument
    parseInteger (integerBase specifier) (integerText specifier directive argument) =
        some value ↔
      value.natAbs < integerBase specifier ^ ntoaBufferSize ∧
      (value < 0 →
        signFits directive.precision.toNat directive.width.toNat flags = true) ∧
      (value = 0 → flags.precision = true →
        flags.left = false ∧ directive.precision ≠ 0) := by
  dsimp only
  rw [integerText]
  have noZeropad (limited : (integerFlags specifier directive.flags).precision = true) :
      (integerFlags specifier directive.flags).zeropad = false := by
    simp only [integerFlags] at limited ⊢
    simp [limited]
  have short := @natAbs_convertedValue_lt specifier (integerFlags specifier directive.flags)
    argument
  rcases integerBase_bounds specifier with ⟨lower, base_le⟩
  have positive : 0 < integerBase specifier ^ ntoaBufferSize := Nat.pow_pos (by omega)
  have prec_eq : directive.precision.toNat = 0 ↔ directive.precision = 0 := by
    rw [← BitVec.toNat_inj]
    rfl
  generalize integerFlags specifier directive.flags = flags at *
  generalize convertedValue specifier flags argument = value at *
  rw [parseInteger_ntoaLong lower base_le value.natAbs _ _ _ noHash noZeropad]
  · generalize integerBase specifier ^ ntoaBufferSize = bound at *
    rw [← Bool.not_eq_true, ← not_or, ← prec_eq, ← Int.natAbs_eq_zero (a := value)]
    by_cases none : value.natAbs = 0 ∧ flags.precision = true ∧
        (flags.left = true ∨ directive.precision.toNat = 0)
    · simp [none]
    · rw [if_neg none]
      dsimp only
      rw [Option.some_inj, cut_eq_iff value positive]
      tauto
  · intro negative
    rw [decide_eq_true_eq] at negative
    exact ⟨by omega, short negative⟩

end Benamos.Console
