import Benamos.Console.Integers

/-!
# Integer conversions and the C standard

The text the C standard prescribes for an integer conversion, and exactly when it is the text that
is printed. The buffer of 32 characters sets one limit. Besides it, the flag `-` loses the zeros of
a precision, and the flag `#` takes back digits to make room for its mark where they may not have
been fill zeros.
-/

namespace Benamos.Console

/-! ### What the standard prescribes -/

def shownDigits (uppercase : Bool) (base value : ℕ) : List Char :=
  (Nat.toDigits base value).map fun ch => if uppercase then ch.toUpper else ch

/-- Blanks up to the width, behind the text with the flag `-`. -/
def inField (left : Bool) (width : ℕ) (body : List Char) : List Char :=
  let blanks := List.replicate (width - body.length) ' '
  if left then body ++ blanks else blanks ++ body

/-- The digits with zeros up to the precision. The flag `#` makes an octal number start with a
zero. -/
def standardNumber (digits : List Char) (octal : Bool) (prec : ℕ) : List Char :=
  let number := List.replicate (prec - digits.length) '0' ++ digits
  if octal && number.head? ≠ some '0' then '0' :: number else number

/-- Zeros that fill the field stand behind the sign and the mark of the base. -/
def standardBody (front number : List Char) (width : ℕ) (zeropad left : Bool) : List Char :=
  let zeros := if zeropad && !left then width - (front.length + number.length) else 0
  front ++ (List.replicate zeros '0' ++ number)

def standardSign (specifier : Char) (flags : Flags) (value : ℤ) : List Char :=
  if value < 0 then ['-']
  else if isSigned specifier && flags.plus then ['+']
  else if isSigned specifier && flags.space then [' ']
  else []

/-- A zero with a precision has no digits of its own. -/
def standardDigits (specifier : Char) (flags : Flags) (value : ℤ) : List Char :=
  if flags.precision && value = 0 then []
  else shownDigits (specifier = 'X') (integerBase specifier) value.natAbs

def standardMark (specifier : Char) (flags : Flags) (value : ℤ) : List Char :=
  if flags.hash && value ≠ 0 then
    if specifier = 'x' then ['0', 'x']
    else if specifier = 'X' then ['0', 'X']
    else if specifier = 'b' then ['0', 'b']
    else []
  else []

def standardInteger (specifier : Char) (directive : Directive) (argument : U64) : List Char :=
  let flags := directive.flags
  let value := convertedValue specifier flags argument
  let front := standardSign specifier flags value ++ standardMark specifier flags value
  let number := standardNumber (standardDigits specifier flags value)
    (flags.hash && specifier = 'o') directive.precision.toNat
  inField flags.left directive.width.toNat
    (standardBody front number directive.width.toNat (flags.zeropad && !flags.precision) flags.left)

/-! ### Where the code keeps to it -/

/-- A number of `length` digits without a mark. A blank for a sign that found no room may be made
up for by a blank of the field. -/
def PlainConforms (length prec width : ℕ) (sign : List Char) (zeropad left : Bool) : Prop :=
  length ≤ 32 ∧
    if left then prec ≤ length
    else if zeropad then width ≤ 32
    else prec + sign.length ≤ 32 ∨ sign = [' '] ∧ prec = 32 ∧ 32 < width
deriving Decidable

def OctalConforms (length prec width : ℕ) (precision zeropad left : Bool) : Prop :=
  if precision then prec ≤ length ∨ prec = if left then length + 1 else 32
  else width ≠ length ∧ (zeropad && !left → width ≤ 32)
deriving Decidable

def MarkConforms (base length prec width : ℕ) (precision zeropad left : Bool) : Prop :=
  length + 2 ≤ 32 ∧
    if precision then prec ≤ if left then length else 30
    else if zeropad && !left then
      width < length ∨ if base = 16 then length + 2 ≤ width ∧ width ≤ 32 else width = length + 1
    else width ≠ length
deriving Decidable

def Conforms (specifier : Char) (directive : Directive) (argument : U64) : Prop :=
  let flags := directive.flags
  let value := convertedValue specifier flags argument
  let base := integerBase specifier
  let length := (standardDigits specifier flags value).length
  let prec := directive.precision.toNat
  let width := directive.width.toNat
  let zeropad := flags.zeropad && !flags.precision
  if flags.hash && base ≠ 10 && value ≠ 0 then
    if base = 8 then OctalConforms length prec width flags.precision zeropad flags.left
    else MarkConforms base length prec width flags.precision zeropad flags.left
  else
    PlainConforms length prec width (standardSign specifier flags value) zeropad flags.left ∧
      ¬(flags.hash && base = 8 && flags.precision && value = 0 && prec = 0)
deriving Decidable

/-- The directive says no more than a format can. -/
structure Directive.WellRead (directive : Directive) : Prop where
  lowercase : directive.flags.uppercase = false
  noPrecision : directive.flags.precision = false → directive.precision = 0

/-! ### The digits in the buffer -/

/-- The buffer holds the digits, the last one first, as far as there is room. -/
structure Cut (buf digits : List Char) : Prop where
  length : buf.length = min ntoaBufferSize digits.length
  reverse : digits.length ≤ ntoaBufferSize → buf.reverse = digits
  noBlank : ' ' ∉ digits
  bufNoBlank : ' ' ∉ buf

section

variable {base : ℕ} (lower : 1 < base) (base_le : base ≤ 16)
include lower base_le

theorem ntoaDigits_map (uppercase : Bool) (room value : ℕ) :
    ntoaDigits uppercase base room value =
      (ntoaDigits false base room value).map fun ch => if uppercase then ch.toUpper else ch := by
  have table : ∀ uppercase : Bool, ∀ digit < 16, ntoaDigit uppercase digit =
      if uppercase then (ntoaDigit false digit).toUpper else ntoaDigit false digit := by
    decide
  induction room generalizing value with
  | zero => rfl
  | succ room ih =>
      have digit := Nat.mod_lt value (show 0 < base by omega)
      rw [ntoaDigits, ntoaDigits, List.map_cons, ← table uppercase _ (by omega), ih]
      split_ifs <;> rfl

omit base_le in
theorem length_ntoaDigits (uppercase : Bool) (room value : ℕ) :
    (ntoaDigits uppercase base room value).length =
      min room (Nat.toDigits base value).length := by
  induction room generalizing value with
  | zero => simp [ntoaDigits]
  | succ room ih =>
      rw [ntoaDigits, List.length_cons]
      rcases Nat.lt_or_ge value base with small | large
      · rw [if_neg (by simp [Nat.div_eq_of_lt small]), Nat.toDigits_of_lt_base small]
        simp
      · have more : value / base ≠ 0 := by
          have := Nat.div_pos large (show 0 < base by omega)
          omega
        rw [if_pos more, ih, Nat.toDigits_of_base_le lower large, List.length_append,
          List.length_singleton]
        omega

theorem cut_ntoaDigits (uppercase : Bool) (value : ℕ) :
    Cut (ntoaDigits uppercase base ntoaBufferSize value) (shownDigits uppercase base value) := by
  have allDigits := digits_ntoaDigits lower base_le uppercase
  have shown (room : ℕ) (positive : 0 < room) (fits : (Nat.toDigits base value).length ≤ room) :
      (ntoaDigits uppercase base room value).reverse = shownDigits uppercase base value := by
    rw [ntoaDigits_map lower base_le, ← List.map_reverse,
      reverse_ntoaDigits lower base_le positive]
    · rfl
    · exact (Nat.length_toDigits_le_iff lower positive).mp fits
  refine ⟨?_, ?_, ?_, ?_⟩
  · rw [length_ntoaDigits lower, shownDigits, List.length_map]
  · intro fits
    rw [shownDigits, List.length_map] at fits
    exact shown ntoaBufferSize (by decide) fits
  · rw [← shown _ Nat.length_toDigits_pos (Nat.le_refl _)]
    exact (allDigits _ value).notMem base_le (by decide)
  · rw [← List.mem_reverse]
    exact (allDigits _ value).notMem base_le (by decide)

theorem head?_shownDigits (uppercase : Bool) {value : ℕ} (nonzero : value ≠ 0) :
    (shownDigits uppercase base value).head? ≠ some '0' := by
  have table : ∀ uppercase : Bool, ∀ digit < 16, digit ≠ 0 →
      (if uppercase then digit.digitChar.toUpper else digit.digitChar) ≠ '0' := by
    decide
  rw [shownDigits]
  induction value using Nat.strong_induction_on with
  | _ value ih =>
      rcases Nat.lt_or_ge value base with small | large
      · rw [Nat.toDigits_of_lt_base small]
        simpa using table uppercase value (by omega) nonzero
      · have quotient := Nat.div_pos large (show 0 < base by omega)
        have high := ih (value / base) (Nat.div_lt_self (by omega) lower) (by omega)
        rw [Nat.toDigits_of_base_le lower large, List.map_append,
          List.head?_append_of_ne_nil _ (by simp)]
        exact high

end

/-! ### Ink and blanks -/

/-- The number of characters that are not blank. -/
def ink (text : List Char) : ℕ := text.countP (· ≠ ' ')

@[simp]
theorem ink_nil : ink [] = 0 := rfl

@[simp]
theorem ink_append (first second : List Char) : ink (first ++ second) = ink first + ink second :=
  List.countP_append

@[simp]
theorem ink_blanks (count : ℕ) : ink (List.replicate count ' ') = 0 := by
  simp [ink, List.countP_replicate]

@[simp]
theorem ink_zeros (count : ℕ) : ink (List.replicate count '0') = count := by
  simp [ink, List.countP_replicate]

@[simp]
theorem ink_reverse (text : List Char) : ink text.reverse = ink text :=
  List.countP_reverse

theorem ink_of_noBlank {text : List Char} (noBlank : ' ' ∉ text) : ink text = text.length := by
  rw [ink, List.countP_eq_length]
  intro ch mem
  rw [decide_eq_true_eq]
  rintro rfl
  exact noBlank mem

theorem ink_inField (left : Bool) (width : ℕ) (body : List Char) :
    ink (inField left width body) = ink body := by
  cases left <;> simp [inField]

theorem length_inField (left : Bool) (width : ℕ) (body : List Char) :
    (inField left width body).length = max width body.length := by
  cases left <;> simp [inField] <;> omega

section

variable {buf : List Char} {width : ℕ} {flags : Flags}

theorem ink_outRev : ink (outRev buf width flags) = ink buf := by
  simp only [outRev, ink_append, ink_reverse]
  split_ifs <;> simp

theorem length_outRev : (outRev buf width flags).length =
    if flags.zeropad && !flags.left then buf.length else max width buf.length := by
  simp only [outRev, List.length_append, List.length_reverse]
  cases flags.left <;> cases flags.zeropad <;> simp <;> omega

/-- The field is filled with blanks unless it was filled with zeros before. -/
theorem outRev_eq_inField {inner : ℕ} {body : List Char} (reverse_eq : buf.reverse = body)
    (filled : flags.zeropad = true → flags.left = false → width ≤ body.length)
    (inner_eq : flags.zeropad = false ∨ flags.left = true → inner = width) :
    outRev buf inner flags = inField flags.left width body := by
  have length_eq : buf.length = body.length := by rw [← reverse_eq, List.length_reverse]
  rw [outRev, inField, length_eq, reverse_eq]
  cases left : flags.left with
  | true => simp [inner_eq (.inr left)]
  | false =>
      cases zeropad : flags.zeropad with
      | true => simp [Nat.sub_eq_zero_of_le (filled zeropad left)]
      | false => simp [inner_eq (.inl zeropad)]

end

/-! ### Numbers without a mark -/

/-- A sign is a blank or leaves ink. -/
theorem signText_cases (negative : Bool) (flags : Flags) :
    signText negative flags = [] ∨ signText negative flags = [' '] ∨
      (signText negative flags).length = 1 ∧ ink (signText negative flags) = 1 ∧
        signText negative flags ≠ [' '] := by
  rw [signText]
  split_ifs <;> simp [ink]

theorem innerWidth_eq_width {negative : Bool} {width : ℕ} {flags : Flags}
    (blanks : flags.zeropad = false ∨ flags.left = true) :
    innerWidth negative width flags = width := by
  rcases blanks with zeropad | left
  · simp [innerWidth, zeropad]
  · simp [innerWidth, left]

theorem innerWidth_eq (negative : Bool) (width : ℕ) {flags : Flags}
    (zeropad : flags.zeropad = true) (left : flags.left = false) :
    innerWidth negative width flags = width - (signText negative flags).length := by
  rw [innerWidth, signText, zeropad, left]
  cases negative <;> cases flags.plus <;> cases flags.space <;> simp <;> omega

theorem length_standardBody (front number : List Char) (width : ℕ) (zeropad left : Bool) :
    (standardBody front number width zeropad left).length =
      if zeropad && !left then max width (front.length + number.length)
      else front.length + number.length := by
  simp only [standardBody, List.length_append, List.length_replicate]
  split_ifs <;> omega

theorem ink_standardBody (front number : List Char) (width : ℕ) (zeropad left : Bool) :
    ink (standardBody front number width zeropad left) + front.length + number.length =
      (standardBody front number width zeropad left).length + ink front + ink number := by
  simp only [standardBody, List.length_append, List.length_replicate, ink_append, ink_zeros]
  omega

/-- What the sign and the leading zeros make of the digits in the buffer. -/
structure Pushed (sign buf : List Char) (zeros : ℕ) (pushed : List Char) : Prop where
  reverse : pushed.reverse =
    (if buf.length + zeros < ntoaBufferSize then sign else []) ++
      (List.replicate zeros '0' ++ buf.reverse)
  length : pushed.length =
    (if buf.length + zeros < ntoaBufferSize then sign.length else 0) + (zeros + buf.length)
  ink : ink pushed =
    (if buf.length + zeros < ntoaBufferSize then ink sign else 0) + (zeros + buf.length)

theorem pushed_pushSign {buf : List Char} (noBlank : ' ' ∉ buf) (zeros : ℕ) (negative : Bool)
    (flags : Flags) :
    Pushed (signText negative flags) buf zeros
      (pushSign (buf ++ List.replicate zeros '0') negative flags) := by
  have reverse_eq := reverse_pushSign (buf ++ List.replicate zeros '0') negative flags
  rw [List.length_append, List.length_replicate, List.reverse_append, List.reverse_replicate]
    at reverse_eq
  refine ⟨reverse_eq, ?_, ?_⟩
  · rw [← List.length_reverse, reverse_eq]
    split_ifs <;> simp
  · rw [← ink_reverse, reverse_eq]
    split_ifs <;> simp [ink_of_noBlank noBlank]

theorem plainConforms_of_eq {buf digits sign pushed : List Char} (cut : Cut buf digits)
    (sign_cases : sign = [] ∨ sign = [' '] ∨ sign.length = 1 ∧ ink sign = 1 ∧ sign ≠ [' '])
    {zeros prec width inner : ℕ} (pushed_eq : Pushed sign buf zeros pushed) {flags : Flags}
    (modes : flags.zeropad = true → prec = 0)
    (zeros_eq : zeros = fieldZeros buf.length prec inner flags)
    (inner_eq : (if flags.zeropad && !flags.left then width - sign.length else width) = inner)
    (same : outRev pushed inner flags = inField flags.left width (standardBody sign
      (List.replicate (prec - digits.length) '0' ++ digits) width flags.zeropad flags.left)) :
    PlainConforms digits.length prec width sign flags.zeropad flags.left := by
  have sameInk := congrArg ink same
  have sameLength := congrArg List.length same
  have bodyInk := ink_standardBody sign (List.replicate (prec - digits.length) '0' ++ digits) width
    flags.zeropad flags.left
  have bodyLength := length_standardBody sign
    (List.replicate (prec - digits.length) '0' ++ digits) width flags.zeropad flags.left
  rw [ink_outRev, ink_inField, pushed_eq.ink] at sameInk
  rw [length_outRev, length_inField, pushed_eq.length] at sameLength
  simp only [ink_append, ink_zeros, List.length_append, List.length_replicate,
    ink_of_noBlank cut.noBlank] at bodyInk bodyLength
  have cut_length := cut.length
  generalize standardBody _ _ _ _ _ = body at *
  rw [fieldZeros, ntoaBufferSize] at *
  rw [PlainConforms]
  have signs : sign.length = 0 ∧ ink sign = 0 ∨ sign = [' '] ∧ sign.length = 1 ∧ ink sign = 0 ∨
      sign.length = 1 ∧ ink sign = 1 := by
    rcases sign_cases with rfl | rfl | ⟨length, inked, _⟩
    · simp
    · simp [ink]
    · exact .inr (.inr ⟨length, inked⟩)
  cases left : flags.left with
  | true =>
      simp only [left, Bool.not_true, Bool.and_false, Bool.false_eq_true, if_false, if_true] at *
      subst zeros_eq inner_eq
      simp only [Nat.add_zero] at *
      split_ifs at sameInk sameLength <;> omega
  | false =>
      cases zeropad : flags.zeropad with
      | true =>
          have noPrec := modes zeropad
          simp only [left, zeropad, Bool.not_false, Bool.and_true, if_true,
            Bool.false_eq_true, if_false] at *
          subst zeros_eq inner_eq noPrec
          split_ifs at sameInk sameLength <;> omega
      | false =>
          simp only [left, zeropad, Bool.false_and, if_false, Bool.false_eq_true] at *
          subst zeros_eq inner_eq
          rcases signs with ⟨length, inked⟩ | ⟨blank, length, inked⟩ | ⟨length, inked⟩
          · refine ⟨?_, .inl ?_⟩
            · split_ifs at sameInk sameLength <;> omega
            · split_ifs at sameInk sameLength <;> omega
          · have limits : digits.length ≤ 32 ∧
                (prec + sign.length ≤ 32 ∨ prec = 32 ∧ 32 < width) := by
              split_ifs at sameInk sameLength <;> omega
            exact ⟨limits.1, limits.2.imp_right fun full => ⟨blank, full⟩⟩
          · refine ⟨?_, .inl ?_⟩
            · split_ifs at sameInk sameLength <;> omega
            · split_ifs at sameInk sameLength <;> omega

theorem standardBody_eq (front digits : List Char) (zeros width : ℕ) (zeropad left : Bool) :
    standardBody front (List.replicate zeros '0' ++ digits) width zeropad left =
      front ++ (List.replicate ((if zeropad && !left then
        width - (front.length + (zeros + digits.length)) else 0) + zeros) '0' ++ digits) := by
  rw [standardBody, ← List.append_assoc (List.replicate _ _), List.replicate_append_replicate,
    List.length_append, List.length_replicate]

/-- The sign finds no room, but it is a blank, and a blank of the field stands in its place. -/
theorem outRev_blank_sign {digits pushed : List Char} {zeros width : ℕ} {flags : Flags}
    (left : flags.left = false) (zeropad : flags.zeropad = false)
    (reverse_eq : pushed.reverse = List.replicate zeros '0' ++ digits)
    (length : zeros + digits.length < width) :
    outRev pushed width flags =
      inField flags.left width ([' '] ++ (List.replicate zeros '0' ++ digits)) := by
  have length_eq : pushed.length = zeros + digits.length := by
    rw [← List.length_reverse, reverse_eq, List.length_append, List.length_replicate]
  have blanks : width - (zeros + digits.length) = width - (1 + (zeros + digits.length)) + 1 := by
    omega
  rw [outRev, inField, left, zeropad, reverse_eq, length_eq, blanks]
  simp only [Bool.not_false, Bool.and_self, if_true, Bool.false_eq_true, if_false,
    List.append_nil, List.length_append, List.length_singleton, List.length_replicate,
    List.replicate_succ', List.append_assoc]

theorem eq_of_plainConforms {buf digits sign pushed : List Char} (cut : Cut buf digits)
    (signRoom : sign ≠ [] → digits.length < ntoaBufferSize)
    {zeros prec width inner : ℕ} (pushed_eq : Pushed sign buf zeros pushed) {flags : Flags}
    (modes : flags.zeropad = true → prec = 0)
    (zeros_eq : zeros = fieldZeros buf.length prec inner flags)
    (inner_eq : (if flags.zeropad && !flags.left then width - sign.length else width) = inner)
    (conforms : PlainConforms digits.length prec width sign flags.zeropad flags.left) :
    outRev pushed inner flags = inField flags.left width (standardBody sign
      (List.replicate (prec - digits.length) '0' ++ digits) width flags.zeropad flags.left) := by
  rcases conforms with ⟨fits, conforms⟩
  have reverse_eq := pushed_eq.reverse
  have length_eq : buf.length = digits.length := by
    rw [cut.length, ntoaBufferSize]
    omega
  rw [cut.reverse fits, length_eq, ntoaBufferSize] at reverse_eq
  rw [fieldZeros, length_eq, ntoaBufferSize] at zeros_eq
  rw [ntoaBufferSize] at signRoom
  by_cases room : sign = [] ∨ digits.length + zeros < 32
  · have signed : (if digits.length + zeros < 32 then sign else []) = sign := by
      split_ifs with short
      · rfl
      · exact (room.resolve_right short).symm
    have short : sign.length = 0 ∨ digits.length + zeros < 32 :=
      room.imp_left List.length_eq_zero_iff.mpr
    rw [signed] at reverse_eq
    apply outRev_eq_inField
    · rw [reverse_eq, standardBody_eq]
      congr 3
      cases left : flags.left with
      | true =>
          simp only [left, Bool.not_true, Bool.and_false, Bool.false_eq_true, if_false,
            if_true] at *
          omega
      | false =>
          cases zeropad : flags.zeropad with
          | true =>
              have noPrec := modes zeropad
              simp only [left, zeropad, Bool.not_false, Bool.and_true, if_true,
                Bool.false_eq_true, if_false] at *
              omega
          | false =>
              simp only [left, zeropad, Bool.false_and, if_false, Bool.false_eq_true] at *
              rcases conforms with small | ⟨_, full, _⟩ <;> omega
    · intro zeropad left
      rw [length_standardBody, zeropad, left]
      exact Nat.le_max_left ..
    · rintro (zeropad | left)
      · rw [← inner_eq, zeropad]
        rfl
      · rw [← inner_eq, left, Bool.not_true, Bool.and_false]
        rfl
  · rw [not_or] at room
    have short := signRoom room.1
    have positive := List.length_pos_iff.mpr room.1
    rw [if_neg room.2, List.nil_append] at reverse_eq
    cases left : flags.left with
    | true =>
        simp only [left, if_true] at zeros_eq
        omega
    | false =>
        cases zeropad : flags.zeropad with
        | true =>
            have noPrec := modes zeropad
            simp only [left, zeropad, Bool.not_false, Bool.and_true, if_true,
              Bool.false_eq_true, if_false] at *
            omega
        | false =>
            simp only [left, zeropad, Bool.false_and, if_false, Bool.false_eq_true]
              at conforms zeros_eq inner_eq ⊢
            rcases conforms with small | ⟨rfl, full, wide⟩
            · omega
            · subst inner_eq
              have wider : zeros + digits.length < width := by omega
              have laid := outRev_blank_sign left zeropad reverse_eq wider
              have prec_eq : prec - digits.length = zeros := by omega
              rw [laid, left, prec_eq]
              rfl

theorem ntoaFormat_plain_iff {buf digits : List Char} (cut : Cut buf digits) (negative : Bool)
    (base prec width : ℕ) {flags : Flags} (noHash : flags.hash = false)
    (modes : flags.zeropad = true → prec = 0)
    (signRoom : signText negative flags ≠ [] → digits.length < ntoaBufferSize) :
    ntoaFormat buf negative base prec width flags =
        inField flags.left width (standardBody (signText negative flags)
          (List.replicate (prec - digits.length) '0' ++ digits) width flags.zeropad flags.left) ↔
      PlainConforms digits.length prec width (signText negative flags) flags.zeropad
        flags.left := by
  have inner_eq : (if flags.zeropad && !flags.left then
      width - (signText negative flags).length else width) =
        innerWidth negative width flags := by
    split_ifs with padded
    · rw [Bool.and_eq_true, Bool.not_eq_true'] at padded
      exact (innerWidth_eq negative width padded.1 padded.2).symm
    · rw [innerWidth_eq_width]
      simpa [imp_iff_not_or] using padded
  have pushed := pushed_pushSign cut.bufNoBlank
    (fieldZeros buf.length prec (innerWidth negative width flags) flags) negative flags
  rw [ntoaFormat_noHash _ _ _ _ _ noHash]
  constructor
  · exact plainConforms_of_eq cut (signText_cases negative flags) pushed modes rfl inner_eq
  · exact eq_of_plainConforms cut signRoom pushed modes rfl inner_eq

end Benamos.Console
