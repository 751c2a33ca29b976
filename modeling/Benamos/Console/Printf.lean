import Benamos.Checked
import Benamos.Types
import Mathlib.Data.List.Basic
import Mathlib.Tactic.Common

/-!
# The formatter of `printf.c`

`_vsnprintf` goes through its format once. At a `%` it reads a directive of flags, width, precision,
length and specifier, and takes from the variadic arguments what the directive names, at the width
it names. The result here is the text passed to the output function; the number of its characters is
what the C function returns.

A C string is the list of the characters before its terminator. The conversions of floating-point
numbers are left out.
-/

namespace Benamos.Console

open Checked

/-- A variadic argument: an integer of any type lies in a 64-bit slot. -/
inductive Vararg where
  | word (value : U64)
  | string (text : List Char)
deriving DecidableEq, Repr

inductive Fault where
  | missingArgument
  | wrongArgument
  | unterminated
  | floatingPoint
  | overflow
deriving DecidableEq, Repr

structure Flags where
  zeropad : Bool := false
  left : Bool := false
  plus : Bool := false
  space : Bool := false
  hash : Bool := false
  uppercase : Bool := false
  char : Bool := false
  short : Bool := false
  long : Bool := false
  longLong : Bool := false
  precision : Bool := false
deriving DecidableEq, Repr

/-- What a directive says before its specifier. -/
structure Directive where
  flags : Flags
  width : U32
  precision : U32
deriving DecidableEq, Repr

/-! ### Output of one conversion -/

def ntoaBufferSize : ℕ := 32

/-- `_out_rev`: the buffer in reverse, padded with spaces to the width. -/
def outRev (buf : List Char) (width : ℕ) (flags : Flags) : List Char :=
  let spaces := List.replicate (width - buf.length) ' '
  (if !flags.left && !flags.zeropad then spaces else []) ++ buf.reverse ++
    (if flags.left then spaces else [])

/-- `buf[len++] = ch`, if the buffer has room. -/
def pushChar (buf : List Char) (ch : Char) : List Char :=
  if buf.length < ntoaBufferSize then buf ++ [ch] else buf

/-- Appends zeros as long as the number of characters is below `count` and the buffer has room. -/
def padZeros (buf : List Char) (count : ℕ) : List Char :=
  buf ++ List.replicate (min count ntoaBufferSize - buf.length) '0'

/-- The part of `_ntoa_format` that handles the hash flag. -/
def hashFormat (buf : List Char) (base prec width : ℕ) (flags : Flags) : List Char :=
  let buf :=
    if !flags.precision && buf.length ≠ 0 && (buf.length = prec || buf.length = width) then
      if base = 16 then buf.dropLast.dropLast else buf.dropLast
    else buf
  let buf :=
    if base = 16 && !flags.uppercase then pushChar buf 'x'
    else if base = 16 && flags.uppercase then pushChar buf 'X'
    else if base = 2 then pushChar buf 'b'
    else buf
  pushChar buf '0'

def ntoaFormat (buf : List Char) (negative : Bool) (base prec width : ℕ) (flags : Flags) :
    List Char :=
  let width :=
    if !flags.left && width ≠ 0 && flags.zeropad && (negative || flags.plus || flags.space) then
      width - 1
    else width
  let buf :=
    if flags.left then buf
    else
      let buf := padZeros buf prec
      if flags.zeropad then padZeros buf width else buf
  let buf := if flags.hash then hashFormat buf base prec width flags else buf
  let buf :=
    if negative then pushChar buf '-'
    else if flags.plus then pushChar buf '+'
    else if flags.space then pushChar buf ' '
    else buf
  outRev buf width flags

def ntoaDigit (uppercase : Bool) (digit : ℕ) : Char :=
  if digit < 10 then Char.ofNat ('0'.toNat + digit)
  else Char.ofNat ((if uppercase then 'A' else 'a').toNat + digit - 10)

/-- The loop of `_ntoa_long` with room for this many digits, the last digit first. -/
def ntoaDigits (uppercase : Bool) (base : ℕ) : ℕ → ℕ → List Char
  | 0, _ => []
  | room + 1, value =>
      ntoaDigit uppercase (value % base) ::
        if value / base ≠ 0 then ntoaDigits uppercase base room (value / base) else []

/-- `_ntoa_long`, and `_ntoa_long_long`, which differs from it in the name of the 64-bit type. -/
def ntoaLong (value : ℕ) (negative : Bool) (base prec width : ℕ) (flags : Flags) : List Char :=
  let flags := if value = 0 then { flags with hash := false } else flags
  let buf :=
    if !flags.precision || value ≠ 0 then ntoaDigits flags.uppercase base ntoaBufferSize value
    else []
  ntoaFormat buf negative base prec width flags

/-- `value > 0 ? value : 0 - value`, in a signed type of this many bits. The difference is undefined
for the least number. -/
def magnitude (bits : ℕ) (value : ℤ) : Except Fault ℕ :=
  if 0 - value < 2 ^ (bits - 1) then .ok value.natAbs else .error .overflow

/-! ### Reading a directive -/

def readFlags (flags : Flags) : List Char → Flags × List Char
  | [] => (flags, [])
  | ch :: format =>
      if ch = '0' then readFlags { flags with zeropad := true } format
      else if ch = '-' then readFlags { flags with left := true } format
      else if ch = '+' then readFlags { flags with plus := true } format
      else if ch = ' ' then readFlags { flags with space := true } format
      else if ch = '#' then readFlags { flags with hash := true } format
      else (flags, ch :: format)

/-- `_atoi`, from the value `i` of the digits read so far. -/
def atoi (i : U32) : List Char → U32 × List Char
  | [] => (i, [])
  | ch :: str =>
      if ch.isDigit then atoi (i * 10 + BitVec.ofNat 32 (ch.toNat - '0'.toNat)) str
      else (i, ch :: str)

/-- `va_arg` of an integer type, before the conversion to its width. -/
def nextWord : List Vararg → Except Fault (U64 × List Vararg)
  | .word value :: va => .ok (value, va)
  | .string _ :: _ => .error .wrongArgument
  | [] => .error .missingArgument

def nextString : List Vararg → Except Fault (List Char × List Vararg)
  | .string text :: va => .ok (text, va)
  | .word _ :: _ => .error .wrongArgument
  | [] => .error .missingArgument

def readWidth (flags : Flags) (format : List Char) (va : List Vararg) :
    Except Fault (Flags × U32 × List Char × List Vararg) :=
  match format with
  | '*' :: format => do
      let (value, va) ← nextWord va
      let w : U32 := value.setWidth 32
      if w.msb then
        let width ← magnitude 32 w.toInt
        return ({ flags with left := true }, BitVec.ofNat 32 width, format, va)
      return (flags, w, format, va)
  | format =>
      let (width, format) := atoi 0 format
      .ok (flags, width, format, va)

def readPrecision (flags : Flags) (format : List Char) (va : List Vararg) :
    Except Fault (Flags × U32 × List Char × List Vararg) :=
  match format with
  | '.' :: '*' :: format => do
      let (value, va) ← nextWord va
      let prec : U32 := value.setWidth 32
      return ({ flags with precision := true }, if prec.msb then 0 else prec, format, va)
  | '.' :: format =>
      let (precision, format) := atoi 0 format
      .ok ({ flags with precision := true }, precision, format, va)
  | format => .ok (flags, 0, format, va)

/-- The length field; `long`, `ptrdiff_t`, `intmax_t` and `size_t` have 64 bits. -/
def readLength (flags : Flags) : List Char → Flags × List Char
  | 'l' :: 'l' :: format => ({ flags with long := true, longLong := true }, format)
  | 'l' :: format => ({ flags with long := true }, format)
  | 'h' :: 'h' :: format => ({ flags with short := true, char := true }, format)
  | 'h' :: format => ({ flags with short := true }, format)
  | 't' :: format => ({ flags with long := true }, format)
  | 'j' :: format => ({ flags with long := true }, format)
  | 'z' :: format => ({ flags with long := true }, format)
  | format => (flags, format)

/-! ### The specifiers -/

def isInteger (specifier : Char) : Bool := specifier ∈ ['d', 'i', 'u', 'x', 'X', 'o', 'b']

def isSigned (specifier : Char) : Bool := specifier ∈ ['i', 'd']

def isFloat (specifier : Char) : Bool := specifier ∈ ['f', 'F', 'e', 'E', 'g', 'G']

def integerBase (specifier : Char) : ℕ :=
  if specifier = 'x' || specifier = 'X' then 16
  else if specifier = 'o' then 8
  else if specifier = 'b' then 2
  else 10

def integerFlags (specifier : Char) (flags : Flags) : Flags :=
  { flags with
    hash := flags.hash && integerBase specifier ≠ 10
    uppercase := flags.uppercase || specifier = 'X'
    plus := flags.plus && isSigned specifier
    space := flags.space && isSigned specifier
    zeropad := flags.zeropad && !flags.precision }

/-- How many bits of an integer argument the conversion keeps. -/
def argumentWidth (flags : Flags) : ℕ :=
  if flags.longLong || flags.long then 64
  else if flags.char then 8
  else if flags.short then 16
  else 32

/-- The width of the type that a signed argument is negated in: a `char` or a `short` is promoted to
an `int`. -/
def promotedWidth (flags : Flags) : ℕ := if flags.longLong || flags.long then 64 else 32

/-- The integer conversions. -/
def convertInteger (specifier : Char) (directive : Directive) (argument : U64) :
    Except Fault (List Char) :=
  let flags := integerFlags specifier directive.flags
  let base := integerBase specifier
  let value := argument.setWidth (argumentWidth flags)
  if isSigned specifier then do
    let abs ← magnitude (promotedWidth flags) value.toInt
    return ntoaLong abs (value.toInt < 0) base directive.precision.toNat directive.width.toNat flags
  else
    .ok (ntoaLong value.toNat false base directive.precision.toNat directive.width.toNat flags)

/-- Pads a text of `length` characters with spaces to the width. -/
def pad (directive : Directive) (length : ℕ) (text : List Char) : List Char :=
  let spaces := List.replicate (directive.width.toNat - length) ' '
  if directive.flags.left then text ++ spaces else spaces ++ text

def convertString (directive : Directive) (text : List Char) : List Char :=
  let shown := if directive.flags.precision then text.take directive.precision.toNat else text
  pad directive shown.length shown

/-- `%p`: at the full width of a pointer. -/
def convertPointer (directive : Directive) (argument : U64) : List Char :=
  ntoaLong argument.toNat false 16 directive.precision.toNat 16
    { directive.flags with zeropad := true, uppercase := true }

/-- Evaluates the specifier. Past the end of the format the C code reads on behind its
terminator. -/
def convert (directive : Directive) (format : List Char) (va : List Vararg) :
    Except Fault (List Char × List Char × List Vararg) :=
  match format with
  | [] => .error .unterminated
  | specifier :: format =>
      if isInteger specifier then do
        let (argument, va) ← nextWord va
        let text ← convertInteger specifier directive argument
        return (text, format, va)
      else if isFloat specifier then .error .floatingPoint
      else if specifier = 'c' then do
        let (argument, va) ← nextWord va
        return (pad directive 1 [Char.ofNat (argument.setWidth 8).toNat], format, va)
      else if specifier = 's' then do
        let (text, va) ← nextString va
        return (convertString directive text, format, va)
      else if specifier = 'p' then do
        let (argument, va) ← nextWord va
        return (convertPointer directive argument, format, va)
      else .ok ([specifier], format, va)

/-- What follows a `%`: the text of the conversion, and what is left of the format and of the
arguments. -/
def directive (format : List Char) (va : List Vararg) :
    Except Fault (List Char × List Char × List Vararg) := do
  let (flags, format) := readFlags {} format
  let (flags, width, format, va) ← readWidth flags format va
  let (flags, precision, format, va) ← readPrecision flags format va
  let (flags, format) := readLength flags format
  convert ⟨flags, width, precision⟩ format va

theorem magnitude_of_nonneg {bits : ℕ} {value : ℤ} (nonneg : 0 ≤ value) :
    magnitude bits value = .ok value.natAbs := by
  have bound : (0 : ℤ) < 2 ^ (bits - 1) := Int.pow_pos (by decide)
  exact if_pos (by omega)

/-! ### A directive uses up its format -/

theorem length_readFlags_le (flags : Flags) (format : List Char) :
    (readFlags flags format).2.length ≤ format.length := by
  induction format generalizing flags with
  | nil => exact Nat.le_refl _
  | cons ch format ih =>
      rw [readFlags]
      split_ifs
      · exact Nat.le_succ_of_le (ih _)
      · exact Nat.le_succ_of_le (ih _)
      · exact Nat.le_succ_of_le (ih _)
      · exact Nat.le_succ_of_le (ih _)
      · exact Nat.le_succ_of_le (ih _)
      · exact Nat.le_refl _

theorem length_atoi_le (i : U32) (str : List Char) : (atoi i str).2.length ≤ str.length := by
  induction str generalizing i with
  | nil => exact Nat.le_refl _
  | cons ch str ih =>
      rw [atoi]
      split_ifs
      · exact Nat.le_succ_of_le (ih _)
      · exact Nat.le_refl _

theorem length_readLength_le (flags : Flags) (format : List Char) :
    (readLength flags format).2.length ≤ format.length := by
  unfold readLength
  split <;> simp <;> omega

theorem length_readWidth_le {flags after : Flags} {width : U32} {format rest : List Char}
    {va remaining : List Vararg}
    (read : readWidth flags format va = .ok (after, width, rest, remaining)) :
    rest.length ≤ format.length := by
  unfold readWidth at read
  split at read
  · rename_i format
    rcases bind_eq_ok_iff.mp read with ⟨⟨value, va⟩, _, read⟩
    dsimp only at read
    split at read
    · rcases bind_eq_ok_iff.mp read with ⟨_, _, read⟩
      cases read
      exact Nat.le_succ _
    · cases read
      exact Nat.le_succ _
  · cases read
    exact length_atoi_le _ _

theorem length_readPrecision_le {flags after : Flags} {precision : U32} {format rest : List Char}
    {va remaining : List Vararg}
    (read : readPrecision flags format va = .ok (after, precision, rest, remaining)) :
    rest.length ≤ format.length := by
  unfold readPrecision at read
  split at read
  · rename_i format
    rcases bind_eq_ok_iff.mp read with ⟨⟨value, va⟩, _, read⟩
    cases read
    exact Nat.le_succ_of_le (Nat.le_succ _)
  · cases read
    exact Nat.le_succ_of_le (length_atoi_le _ _)
  · cases read
    exact Nat.le_refl _

theorem length_convert_lt {directive : Directive} {format text rest : List Char}
    {va remaining : List Vararg}
    (converted : convert directive format va = .ok (text, rest, remaining)) :
    rest.length < format.length := by
  cases format with
  | nil => cases converted
  | cons specifier format =>
      rw [convert] at converted
      split_ifs at converted
      · rcases bind_eq_ok_iff.mp converted with ⟨_, _, converted⟩
        rcases bind_eq_ok_iff.mp converted with ⟨_, _, same⟩
        cases same
        exact Nat.lt_succ_self _
      · rcases bind_eq_ok_iff.mp converted with ⟨_, _, same⟩
        cases same
        exact Nat.lt_succ_self _
      · rcases bind_eq_ok_iff.mp converted with ⟨_, _, same⟩
        cases same
        exact Nat.lt_succ_self _
      · rcases bind_eq_ok_iff.mp converted with ⟨_, _, same⟩
        cases same
        exact Nat.lt_succ_self _
      · cases converted
        exact Nat.lt_succ_self _

theorem length_directive_lt {format text rest : List Char} {va remaining : List Vararg}
    (read : directive format va = .ok (text, rest, remaining)) : rest.length < format.length := by
  rw [directive] at read
  rcases bind_eq_ok_iff.mp read with ⟨⟨flags, width, afterWidth, _⟩, widthRead, read⟩
  rcases bind_eq_ok_iff.mp read with ⟨⟨flags, precision, afterPrecision, _⟩, precisionRead, read⟩
  calc
    rest.length < (readLength flags afterPrecision).2.length := length_convert_lt read
    _ ≤ afterPrecision.length := length_readLength_le flags afterPrecision
    _ ≤ afterWidth.length := length_readPrecision_le precisionRead
    _ ≤ (readFlags {} format).2.length := length_readWidth_le widthRead
    _ ≤ format.length := length_readFlags_le {} format

/-! ### The formatter -/

/-- `_vsnprintf`: the characters passed to the output function before the terminator. -/
def vsnprintf (format : List Char) (va : List Vararg) : Except Fault (List Char) :=
  match format with
  | [] => .ok []
  | ch :: format =>
      if ch ≠ '%' then
        (vsnprintf format va).map (ch :: ·)
      else
        match _read : directive format va with
        | .error fault => .error fault
        | .ok (text, rest, va) => (vsnprintf rest va).map (text ++ ·)
termination_by format.length
decreasing_by
  · exact Nat.lt_succ_self _
  · exact Nat.lt_succ_of_lt (length_directive_lt _read)

/-- `printf`: the characters that reach the console, which `_out_char` keeps free of NUL. -/
def printf (format : String) (va : List Vararg) : Except Fault (List Char) :=
  (vsnprintf format.toList va).map (·.filter (· ≠ '\x00'))

@[simp]
theorem vsnprintf_nil (va : List Vararg) : vsnprintf [] va = .ok [] := by
  rw [vsnprintf]

theorem vsnprintf_cons_of_ne {ch : Char} (plain : ch ≠ '%') (format : List Char)
    (va : List Vararg) : vsnprintf (ch :: format) va = (vsnprintf format va).map (ch :: ·) := by
  rw [vsnprintf, if_pos plain]

theorem vsnprintf_append {text : List Char} (plain : '%' ∉ text) (format : List Char)
    (va : List Vararg) :
    vsnprintf (text ++ format) va = (vsnprintf format va).map (text ++ ·) := by
  induction text with
  | nil =>
      rw [List.nil_append]
      cases vsnprintf format va <;> rfl
  | cons ch text ih =>
      rw [List.mem_cons, not_or] at plain
      rw [List.cons_append, vsnprintf_cons_of_ne (Ne.symm plain.1), ih plain.2]
      cases vsnprintf format va <;> rfl

theorem vsnprintf_directive {format text rest : List Char} {va remaining : List Vararg}
    (read : directive format va = .ok (text, rest, remaining)) :
    vsnprintf ('%' :: format) va = (vsnprintf rest remaining).map (text ++ ·) := by
  rw [vsnprintf, if_neg (by decide)]
  split
  · rename_i failed
    rw [read] at failed
    contradiction
  · rename_i same
    rw [read, Except.ok.injEq, Prod.mk.injEq, Prod.mk.injEq] at same
    rcases same with ⟨rfl, rfl, rfl⟩
    rfl

theorem printf_eq_ok {format : String} {va : List Vararg} {text : List Char}
    (formatted : vsnprintf format.toList va = .ok text) (noNul : '\x00' ∉ text) :
    printf format va = .ok text := by
  rw [printf, formatted, Except.map, Except.ok.injEq, List.filter_eq_self]
  intro ch mem
  have distinct : ch ≠ '\x00' := by
    rintro rfl
    exact noNul mem
  simpa using distinct

/-! ### Formats that fit their arguments -/

def Formats (format : List Char) (va : List Vararg) : Prop :=
  ∃ text, vsnprintf format va = .ok text

/-- The directive takes one integer, whatever it is. -/
def TakesWord (specifier : List Char) : Prop :=
  ∀ (format : List Char) (value : U64) (va : List Vararg),
    ∃ text, directive (specifier ++ format) (.word value :: va) = .ok (text, format, va)

theorem Formats.nil (va : List Vararg) : Formats [] va := ⟨[], vsnprintf_nil va⟩

theorem Formats.append {text format : List Char} {va : List Vararg} (plain : '%' ∉ text)
    (formats : Formats format va) : Formats (text ++ format) va := by
  rcases formats with ⟨rest, formatted⟩
  exact ⟨text ++ rest, by rw [vsnprintf_append plain, formatted]; rfl⟩

theorem Formats.word {specifier format : List Char} {value : U64} {va : List Vararg}
    (takesWord : TakesWord specifier) (formats : Formats format va) :
    Formats ('%' :: (specifier ++ format)) (.word value :: va) := by
  rcases takesWord format value va with ⟨text, read⟩
  rcases formats with ⟨rest, formatted⟩
  exact ⟨text ++ rest, by rw [vsnprintf_directive read, formatted]; rfl⟩

theorem Formats.string {text format : List Char} {va : List Vararg}
    (formats : Formats format va) : Formats ('%' :: 's' :: format) (.string text :: va) := by
  rcases formats with ⟨rest, formatted⟩
  have read : directive ('s' :: format) (.string text :: va) =
      .ok (convertString ⟨{}, 0, 0⟩ text, format, va) := rfl
  exact ⟨_, by rw [vsnprintf_directive read, formatted]; rfl⟩

/-! ### Plain integer conversions -/

theorem ntoaDigit_eq {digit : ℕ} (small : digit < 16) :
    ntoaDigit false digit = digit.digitChar := by
  have table : ∀ digit < 16, ntoaDigit false digit = digit.digitChar := by
    decide
  exact table digit small

/-- With enough room the loop writes all digits of the number. -/
theorem reverse_ntoaDigits {base : ℕ} (lower : 1 < base) (base_le : base ≤ 16) {room value : ℕ}
    (positive : 0 < room) (fits : value < base ^ room) :
    (ntoaDigits false base room value).reverse = Nat.toDigits base value := by
  induction room generalizing value with
  | zero => contradiction
  | succ room ih =>
      have digit := Nat.mod_lt value (show 0 < base by omega)
      rw [ntoaDigits, List.reverse_cons, ntoaDigit_eq (by omega)]
      rcases Nat.lt_or_ge value base with small | large
      · rw [if_neg (by simp [Nat.div_eq_of_lt small]), Nat.toDigits_of_lt_base small,
          Nat.mod_eq_of_lt small]
        rfl
      · have quotient : value / base ≠ 0 := by
          have := Nat.div_pos large (show 0 < base by omega)
          omega
        have quotientFits : value / base < base ^ room := by
          rw [Nat.pow_succ] at fits
          exact Nat.div_lt_of_lt_mul (by rwa [Nat.mul_comm])
        have roomLeft : 0 < room := by
          rcases Nat.eq_zero_or_pos room with rfl | roomLeft
          · simp at quotientFits
            omega
          · exact roomLeft
        rw [if_pos quotient, ih roomLeft quotientFits, Nat.toDigits_of_base_le lower large]

theorem ntoaLong_plain {base value : ℕ} (lower : 1 < base) (base_le : base ≤ 16)
    (fits : value < 2 ^ 32) : ntoaLong value false base 0 0 {} = Nat.toDigits base value := by
  have power : 2 ^ 32 ≤ base ^ ntoaBufferSize := Nat.pow_le_pow_left lower 32
  have written := reverse_ntoaDigits lower base_le (show 0 < ntoaBufferSize by decide)
    (Nat.lt_of_lt_of_le fits power)
  rw [← written]
  simp [ntoaLong, ntoaFormat, padZeros, outRev]

theorem directive_x (format : List Char) (value : U64) (va : List Vararg) :
    directive ('x' :: format) (.word value :: va) =
      .ok (Nat.toDigits 16 (value.toNat % 2 ^ 32), format, va) := by
  have small := Nat.mod_lt value.toNat (show 0 < 2 ^ 32 by decide)
  rw [← ntoaLong_plain (by decide) (by decide) small]
  rfl

/-- `%d` prints an `int` that is not negative. -/
theorem directive_d (format : List Char) {value : U64} (va : List Vararg)
    (nonneg : value.toNat % 2 ^ 32 < 2 ^ 31) :
    directive ('d' :: format) (.word value :: va) =
      .ok (Nat.toDigits 10 (value.toNat % 2 ^ 32), format, va) := by
  have toInt_eq : (value.setWidth 32).toInt = (value.toNat % 2 ^ 32 : ℕ) := by
    rw [BitVec.toInt_eq_toNat_of_lt]
    · rw [BitVec.toNat_setWidth]
    · rw [BitVec.toNat_setWidth]
      omega
  rw [← ntoaLong_plain (by decide) (by decide) (Nat.lt_trans nonneg (by decide))]
  have converted : directive ('d' :: format) (.word value :: va) =
      magnitude 32 (value.setWidth 32).toInt >>= fun abs =>
        .ok (ntoaLong abs ((value.setWidth 32).toInt < 0) 10 0 0 {}, format, va) := by
    change (magnitude 32 (value.setWidth 32).toInt >>= fun abs => pure _) >>= _ = _
    rw [bind_assoc]
    rfl
  have notNegative : ¬((value.toNat % 2 ^ 32 : ℕ) : ℤ) < 0 := by omega
  rw [converted, toInt_eq, magnitude_of_nonneg (Int.natCast_nonneg _), Int.natAbs_natCast,
    decide_eq_false notNegative]
  rfl

end Benamos.Console
