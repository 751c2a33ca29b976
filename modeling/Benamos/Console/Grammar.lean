import Benamos.Console.Formatter

/-!
# The formats of `_vsnprintf`

What the loop over the format accepts, as a grammar: plain characters and directives
`%[flags][width][.precision][length]` with a specifier. The reading functions take as many
characters for each field as they can, so a directive stands for itself in any text once every field
ends where the next character could not belong to it.
-/

namespace Benamos.Console

open Checked

def isFlag (ch : Char) : Bool := ch ∈ ['0', '-', '+', ' ', '#']

/-- The text does not go on with such a character. -/
def StopsAt (taken : Char → Bool) (text : List Char) : Prop :=
  ∀ ch ∈ text.head?, taken ch = false

/-- A width or a precision: its digits, or the argument that holds it. -/
inductive Amount
  | digits (numeral : List Char)
  | star

inductive Length
  | none | l | ll | h | hh | t | j | z
deriving DecidableEq

/-- What stands between the `%` and the specifier. -/
structure Fields where
  flags : List Char
  width : Amount
  precision : Option Amount
  length : Length

structure Spec extends Fields where
  specifier : Char

/-! ### The text of a directive -/

def Amount.text : Amount → List Char
  | .digits numeral => numeral
  | .star => ['*']

def precisionText : Option Amount → List Char
  | none => []
  | some amount => '.' :: amount.text

def Length.text : Length → List Char
  | .none => []
  | .l => ['l']
  | .ll => ['l', 'l']
  | .h => ['h']
  | .hh => ['h', 'h']
  | .t => ['t']
  | .j => ['j']
  | .z => ['z']

namespace Fields

variable (fields : Fields) (rest : List Char)

def afterPrecision : List Char := fields.length.text ++ rest

def afterWidth : List Char := precisionText fields.precision ++ fields.afterPrecision rest

def afterFlags : List Char := fields.width.text ++ fields.afterWidth rest

/-- The fields and what follows them. -/
def textBefore : List Char := fields.flags ++ fields.afterFlags rest

end Fields

def Spec.text (spec : Spec) : List Char := spec.textBefore [spec.specifier]

/-! ### Where a field ends -/

def Amount.EndsAt (rest : List Char) : Amount → Prop
  | .digits numeral =>
      (∀ ch ∈ numeral, ch.isDigit = true) ∧ StopsAt Char.isDigit rest ∧
        (numeral = [] → StopsAt (· = '*') rest)
  | .star => True

def PrecisionEndsAt (rest : List Char) : Option Amount → Prop
  | none => StopsAt (· = '.') rest
  | some amount => amount.EndsAt rest

def Length.EndsAt (rest : List Char) : Length → Prop
  | .none => StopsAt (· ∈ ['l', 'h', 't', 'j', 'z']) rest
  | .l => StopsAt (· = 'l') rest
  | .h => StopsAt (· = 'h') rest
  | _ => True

/-- Every field is as long as the reading functions make it. -/
structure Fields.EndAt (rest : List Char) (fields : Fields) : Prop where
  flags : ∀ ch ∈ fields.flags, isFlag ch = true
  flagsEnd : StopsAt isFlag (fields.afterFlags rest)
  width : fields.width.EndsAt (fields.afterWidth rest)
  precision : PrecisionEndsAt (fields.afterPrecision rest) fields.precision
  length : fields.length.EndsAt rest

def Spec.Delimited (spec : Spec) : Prop := spec.EndAt [spec.specifier]

/-! ### What a directive says -/

def numeralValue (numeral : List Char) : ℕ :=
  numeral.foldl (fun value ch => 10 * value + (ch.toNat - '0'.toNat)) 0

/-- A number is read modulo `2 ^ 32`, an argument as an `int`. -/
def Amount.value (va : List Vararg) : Amount → Except Fault (ℤ × List Vararg)
  | .digits numeral => .ok ((BitVec.ofNat 32 (numeralValue numeral)).toNat, va)
  | .star => do
      let (value, va) ← nextWord va
      return ((value.setWidth 32).toInt, va)

def precisionValue (va : List Vararg) : Option Amount → Except Fault (ℤ × List Vararg)
  | none => .ok (0, va)
  | some amount => amount.value va

/-- Neither the order of the flag characters nor their number matters. -/
def Fields.meantFlags (fields : Fields) (width : ℤ) : Flags where
  zeropad := '0' ∈ fields.flags
  left := '-' ∈ fields.flags || width < 0
  plus := '+' ∈ fields.flags
  space := ' ' ∈ fields.flags
  hash := '#' ∈ fields.flags
  char := fields.length = .hh
  short := fields.length ∈ [Length.h, .hh]
  long := fields.length ∈ [Length.l, .ll, .t, .j, .z]
  longLong := fields.length = .ll
  precision := fields.precision.isSome

/-- The directive that is evaluated, and the arguments left for its specifier. -/
def Fields.meaning (fields : Fields) (va : List Vararg) :
    Except Fault (Directive × List Vararg) := do
  let (width, va) ← fields.width.value va
  let columns ← magnitude 32 width
  let (precision, va) ← precisionValue va fields.precision
  return (⟨fields.meantFlags width, BitVec.ofNat 32 columns, BitVec.ofNat 32 precision.toNat⟩, va)

/-- The text of the conversion and the arguments it leaves. -/
def specified (directive : Directive) (specifier : Char) (va : List Vararg) :
    Except Fault (List Char × List Vararg) :=
  (convert directive [specifier] va).map fun converted => (converted.1, converted.2.2)

def Spec.meaning (spec : Spec) (va : List Vararg) : Except Fault (List Char × List Vararg) := do
  let (directive, va) ← spec.toFields.meaning va
  specified directive spec.specifier va

/-! ### Reading the fields -/

@[simp]
theorem stopsAt_nil (taken : Char → Bool) : StopsAt taken [] := by simp [StopsAt]

@[simp]
theorem stopsAt_cons {taken : Char → Bool} {ch : Char} {text : List Char} :
    StopsAt taken (ch :: text) ↔ taken ch = false := by
  simp [StopsAt]

theorem readFlags_append (before : Flags) {taken rest : List Char}
    (areFlags : ∀ ch ∈ taken, isFlag ch = true) (stops : StopsAt isFlag rest) :
    readFlags before (taken ++ rest) =
      ({ before with
          zeropad := before.zeropad || '0' ∈ taken
          left := before.left || '-' ∈ taken
          plus := before.plus || '+' ∈ taken
          space := before.space || ' ' ∈ taken
          hash := before.hash || '#' ∈ taken }, rest) := by
  induction taken generalizing before with
  | nil =>
      cases rest with
      | nil => simp [readFlags]
      | cons ch rest =>
          simp only [stopsAt_cons, isFlag, List.mem_cons, List.not_mem_nil, or_false,
            decide_eq_false_iff_not, not_or] at stops
          simp [readFlags, stops]
  | cons ch taken ih =>
      rw [List.forall_mem_cons] at areFlags
      have isOne : ch ∈ ['0', '-', '+', ' ', '#'] := of_decide_eq_true areFlags.1
      rw [List.cons_append, readFlags]
      fin_cases isOne <;> simp [ih _ areFlags.2]

theorem atoi_append (value : ℕ) {numeral rest : List Char}
    (digits : ∀ ch ∈ numeral, ch.isDigit = true) (stops : StopsAt Char.isDigit rest) :
    atoi (BitVec.ofNat 32 value) (numeral ++ rest) =
      (BitVec.ofNat 32
        (numeral.foldl (fun value ch => 10 * value + (ch.toNat - '0'.toNat)) value), rest) := by
  induction numeral generalizing value with
  | nil =>
      cases rest with
      | nil => rfl
      | cons ch rest => simp [atoi, stopsAt_cons.mp stops]
  | cons ch numeral ih =>
      rw [List.forall_mem_cons] at digits
      have step : BitVec.ofNat 32 value * 10 + BitVec.ofNat 32 (ch.toNat - '0'.toNat) =
          BitVec.ofNat 32 (10 * value + (ch.toNat - '0'.toNat)) := by
        rw [BitVec.ofNat_add, BitVec.ofNat_mul, BitVec.mul_comm]
        rfl
      rw [List.cons_append, atoi, if_pos digits.1, step, ih _ digits.2, List.foldl_cons]

theorem atoi_numeral {numeral rest : List Char} (digits : ∀ ch ∈ numeral, ch.isDigit = true)
    (stops : StopsAt Char.isDigit rest) :
    atoi 0 (numeral ++ rest) = (BitVec.ofNat 32 (numeralValue numeral), rest) :=
  atoi_append 0 digits stops

/-- A field read as digits does not begin with a star. -/
theorem head_ne_star {numeral rest : List Char} (endsAt : (Amount.digits numeral).EndsAt rest) :
    ∀ more, numeral ++ rest ≠ '*' :: more := by
  rintro more same
  cases numeral with
  | nil =>
      rw [List.nil_append] at same
      have noStar := endsAt.2.2 rfl
      simp [same] at noStar
  | cons ch numeral =>
      rw [List.cons_append, List.cons.injEq] at same
      have digit := endsAt.1 ch List.mem_cons_self
      rw [same.1] at digit
      contradiction

theorem readWidth_of_noStar (before : Flags) {format : List Char}
    (noStar : ∀ more, format ≠ '*' :: more) (va : List Vararg) :
    readWidth before format va = .ok (before, (atoi 0 format).1, (atoi 0 format).2, va) := by
  unfold readWidth
  split
  · rename_i more
    exact absurd rfl (noStar more)
  · rfl

theorem readWidth_append (before : Flags) {amount : Amount} {rest : List Char}
    (endsAt : amount.EndsAt rest) (va : List Vararg) :
    readWidth before (amount.text ++ rest) va =
      amount.value va >>= fun read =>
        magnitude 32 read.1 >>= fun columns =>
          .ok ({ before with left := before.left || read.1 < 0 },
            BitVec.ofNat 32 columns, rest, read.2) := by
  cases amount with
  | digits numeral =>
      rw [Amount.text, readWidth_of_noStar before (head_ne_star endsAt),
        atoi_numeral endsAt.1 endsAt.2.1, Amount.value]
      generalize BitVec.ofNat 32 (numeralValue numeral) = width
      have nonneg : ¬(width.toNat : ℤ) < 0 := Int.not_lt.mpr (Int.natCast_nonneg _)
      simp [Bind.bind, Except.bind, nonneg, magnitude_of_nonneg]
  | star =>
      rw [Amount.text, List.singleton_append, readWidth, Amount.value, bind_assoc]
      congr 1
      funext ⟨value, va⟩
      simp only [pure_bind]
      generalize value.setWidth 32 = w
      rw [← @BitVec.msb_eq_toInt _ w]
      cases negative : w.msb with
      | true => simp [pure, Except.pure]
      | false =>
          have columns : magnitude 32 w.toInt = .ok w.toNat := by
            rw [BitVec.toInt_eq_toNat_of_msb negative, magnitude_of_nonneg (Int.natCast_nonneg _),
              Int.natAbs_natCast]
          rw [columns]
          simp [pure, Except.pure, Bind.bind, Except.bind]

theorem positive_precision (prec : U32) :
    (if prec.msb then 0 else prec) = BitVec.ofNat 32 prec.toInt.toNat := by
  rw [BitVec.toInt_eq_msb_cond]
  have small := prec.isLt
  split_ifs with negative
  · rw [Int.toNat_of_nonpos (by omega)]
    rfl
  · rw [Int.toNat_natCast, BitVec.ofNat_toNat, BitVec.setWidth_eq]

theorem readPrecision_of_noDot (before : Flags) {format : List Char}
    (noDot : ∀ more, format ≠ '.' :: more) (va : List Vararg) :
    readPrecision before format va = .ok (before, 0, format, va) := by
  unfold readPrecision
  split
  · exact absurd rfl (noDot _)
  · exact absurd rfl (noDot _)
  · rfl

theorem readPrecision_of_noStar (before : Flags) {format : List Char}
    (noStar : ∀ more, format ≠ '*' :: more) (va : List Vararg) :
    readPrecision before ('.' :: format) va =
      .ok ({ before with precision := true }, (atoi 0 format).1, (atoi 0 format).2, va) := by
  unfold readPrecision
  split
  · rename_i more same
    rw [List.cons.injEq] at same
    exact absurd same.2 (noStar more)
  · rename_i same
    rw [(List.cons.inj same).2]
  · rename_i noDot
    exact absurd rfl (noDot format)

theorem readPrecision_append (before : Flags) {precision : Option Amount} {rest : List Char}
    (endsAt : PrecisionEndsAt rest precision) (va : List Vararg) :
    readPrecision before (precisionText precision ++ rest) va =
      precisionValue va precision >>= fun read =>
        .ok ({ before with precision := before.precision || precision.isSome },
          BitVec.ofNat 32 read.1.toNat, rest, read.2) := by
  cases precision with
  | none =>
      have noDot : ∀ more, rest ≠ '.' :: more := by
        rintro more rfl
        simp [PrecisionEndsAt] at endsAt
      rw [precisionText, List.nil_append, readPrecision_of_noDot before noDot]
      simp [precisionValue, Bind.bind, Except.bind]
  | some amount =>
      rw [precisionText, List.cons_append]
      cases amount with
      | digits numeral =>
          rw [Amount.text, readPrecision_of_noStar before (head_ne_star endsAt),
            atoi_numeral endsAt.1 endsAt.2.1, precisionValue, Amount.value]
          generalize BitVec.ofNat 32 (numeralValue numeral) = prec
          simp [Bind.bind, Except.bind]
      | star =>
          rw [Amount.text, List.singleton_append, readPrecision, precisionValue, Amount.value,
            bind_assoc]
          congr 1
          funext ⟨value, va⟩
          have prec := positive_precision (value.setWidth 32)
          simp only [pure_bind, ← prec]
          simp [pure, Except.pure]

theorem readLength_append (before : Flags) {length : Length} {rest : List Char}
    (endsAt : length.EndsAt rest) :
    readLength before (length.text ++ rest) =
      ({ before with
          char := before.char || length = .hh
          short := before.short || length ∈ [Length.h, .hh]
          long := before.long || length ∈ [Length.l, .ll, .t, .j, .z]
          longLong := before.longLong || length = .ll }, rest) := by
  cases length with
  | none =>
      simp only [Length.EndsAt] at endsAt
      rw [Length.text, List.nil_append]
      unfold readLength
      split <;> simp_all
  | l =>
      simp only [Length.EndsAt] at endsAt
      rw [Length.text, List.singleton_append]
      unfold readLength
      split <;> simp_all
  | h =>
      simp only [Length.EndsAt] at endsAt
      rw [Length.text, List.singleton_append]
      unfold readLength
      split <;> simp_all
  | ll => simp [Length.text, readLength]
  | hh => simp [Length.text, readLength]
  | t => simp [Length.text, readLength]
  | j => simp [Length.text, readLength]
  | z => simp [Length.text, readLength]

/-! ### Directives -/

theorem convert_cons (directive : Directive) (specifier : Char) (rest : List Char)
    (va : List Vararg) :
    convert directive (specifier :: rest) va =
      specified directive specifier va >>= fun converted =>
        .ok (converted.1, rest, converted.2) := by
  rw [specified]
  simp only [convert]
  split_ifs
  · cases nextWord va with
    | error fault => rfl
    | ok found =>
        simp only [Bind.bind, Except.bind]
        cases convertInteger specifier directive found.1 <;> rfl
  · rfl
  · cases nextWord va <;> rfl
  · cases nextString va <;> rfl
  · cases nextWord va <;> rfl
  · rfl

theorem readDirective_textBefore {fields : Fields} {rest : List Char}
    (endAt : fields.EndAt rest) (va : List Vararg) :
    readDirective (fields.textBefore rest) va =
      fields.meaning va >>= fun read => .ok (read.1, rest, read.2) := by
  rw [readDirective, Fields.textBefore, readFlags_append {} endAt.flags endAt.flagsEnd,
    Fields.meaning]
  simp only [Fields.afterFlags]
  rw [readWidth_append _ endAt.width]
  cases fields.width.value va with
  | error fault => rfl
  | ok width =>
      simp only [Bind.bind, Except.bind]
      cases magnitude 32 width.1 with
      | error fault => rfl
      | ok columns =>
          simp only [Fields.afterWidth]
          rw [readPrecision_append _ endAt.precision]
          cases precisionValue width.2 fields.precision with
          | error fault => rfl
          | ok precision =>
              simp only [Bind.bind, Except.bind, Fields.afterPrecision]
              rw [readLength_append _ endAt.length]
              simp only [Bool.false_or]
              rfl

/-! ### Only the next character decides where a field ends -/

theorem head?_append_congr (text : List Char) {rest other : List Char}
    (same : rest.head? = other.head?) : (text ++ rest).head? = (text ++ other).head? := by
  rw [List.head?_append, List.head?_append, same]

theorem StopsAt.congr {taken : Char → Bool} {rest other : List Char} (stops : StopsAt taken rest)
    (same : rest.head? = other.head?) : StopsAt taken other := by
  rwa [StopsAt, ← same]

theorem Amount.EndsAt.congr {amount : Amount} {rest other : List Char}
    (endsAt : amount.EndsAt rest) (same : rest.head? = other.head?) : amount.EndsAt other := by
  cases amount with
  | digits numeral =>
      refine ⟨endsAt.1, endsAt.2.1.congr same, ?_⟩
      intro empty
      exact (endsAt.2.2 empty).congr same
  | star => exact trivial

theorem Fields.EndAt.congr {fields : Fields} {rest other : List Char} (endAt : fields.EndAt rest)
    (same : rest.head? = other.head?) : fields.EndAt other where
  flags := endAt.flags
  flagsEnd := by
    apply endAt.flagsEnd.congr
    exact head?_append_congr _ (head?_append_congr _ (head?_append_congr _ same))
  width := endAt.width.congr (head?_append_congr _ (head?_append_congr _ same))
  precision := by
    have ends := endAt.precision
    cases kind : fields.precision with
    | none =>
        rw [kind] at ends
        exact StopsAt.congr ends (head?_append_congr _ same)
    | some amount =>
        rw [kind] at ends
        exact Amount.EndsAt.congr ends (head?_append_congr _ same)
  length := by
    have ends := endAt.length
    cases kind : fields.length with
    | none | l | h =>
        rw [kind] at ends
        exact StopsAt.congr ends same
    | _ => exact trivial

theorem Fields.textBefore_append (fields : Fields) (rest more : List Char) :
    fields.textBefore rest ++ more = fields.textBefore (rest ++ more) := by
  simp [textBefore, afterFlags, afterWidth, afterPrecision]

/-- A directive is read as itself, whatever follows it. -/
theorem directive_append {spec : Spec} (delimited : spec.Delimited) (rest : List Char)
    (va : List Vararg) :
    directive (spec.text ++ rest) va =
      spec.meaning va >>= fun read => .ok (read.1, rest, read.2) := by
  have endAt : spec.EndAt (spec.specifier :: rest) := delimited.congr rfl
  rw [Spec.text, Fields.textBefore_append, List.singleton_append, directive_eq,
    readDirective_textBefore endAt, Spec.meaning, bind_assoc, bind_assoc]
  congr 1
  funext ⟨directive, va⟩
  exact convert_cons directive spec.specifier rest va

/-! ### Formats -/

inductive Piece
  | plain (ch : Char)
  | directive (spec : Spec)

namespace Piece

def text : Piece → List Char
  | .plain ch => [ch]
  | .directive spec => '%' :: spec.text

def Delimited : Piece → Prop
  | .plain ch => ch ≠ '%'
  | .directive spec => spec.Delimited

def meaning (va : List Vararg) : Piece → Except Fault (List Char × List Vararg)
  | .plain ch => .ok ([ch], va)
  | .directive spec => spec.meaning va

end Piece

def render (pieces : List Piece) : List Char := pieces.flatMap Piece.text

/-- The text of all pieces, each of which takes its arguments from those the ones before it left. -/
def meaning : List Piece → List Vararg → Except Fault (List Char × List Vararg)
  | [], va => .ok ([], va)
  | piece :: pieces, va => do
      let (text, va) ← piece.meaning va
      let (more, va) ← meaning pieces va
      return (text ++ more, va)

/-- A rendered format means what its pieces mean, and then what follows it is formatted with the
arguments they left. -/
theorem vsnprintf_render_append {pieces : List Piece}
    (delimited : ∀ piece ∈ pieces, piece.Delimited) (rest : List Char) (va : List Vararg) :
    vsnprintf (render pieces ++ rest) va =
      meaning pieces va >>= fun read => (vsnprintf rest read.2).map (read.1 ++ ·) := by
  induction pieces generalizing va with
  | nil =>
      simp only [render, List.flatMap_nil, List.nil_append, meaning, Bind.bind, Except.bind]
      cases vsnprintf rest va <;> rfl
  | cons piece pieces ih =>
      rw [List.forall_mem_cons] at delimited
      rcases delimited with ⟨delimited, others⟩
      have step (text : List Char) (va : List Vararg) :
          (vsnprintf (render pieces ++ rest) va).map (text ++ ·) =
            (meaning pieces va >>= fun read => .ok (text ++ read.1, read.2)) >>= fun read =>
              (vsnprintf rest read.2).map (read.1 ++ ·) := by
        rw [ih others]
        cases meaning pieces va with
        | error fault => rfl
        | ok read =>
            cases run : vsnprintf rest read.2 with
            | error fault => simp [Bind.bind, Except.bind, run, Except.map]
            | ok shown => simp [Bind.bind, Except.bind, run, Except.map]
      cases piece with
      | plain ch =>
          rw [render, List.flatMap_cons, Piece.text, List.append_assoc, List.singleton_append,
            vsnprintf_cons_of_ne delimited]
          exact step [ch] va
      | directive spec =>
          have read := directive_append delimited (render pieces ++ rest) va
          rw [render, List.flatMap_cons, Piece.text, List.append_assoc, List.cons_append,
            meaning, Piece.meaning]
          cases said : spec.meaning va with
          | error fault =>
              rw [said] at read
              exact vsnprintf_of_error read
          | ok result =>
              rw [said] at read
              rw [← render, vsnprintf_directive read]
              exact step result.1 result.2

/-- The text of the grammar says what its pieces say, whatever the order and the number of the flag
characters and however the numbers are written. -/
theorem vsnprintf_render {pieces : List Piece} (delimited : ∀ piece ∈ pieces, piece.Delimited)
    (va : List Vararg) :
    vsnprintf (render pieces) va = (meaning pieces va).map Prod.fst := by
  have whole := vsnprintf_render_append delimited [] va
  rw [List.append_nil] at whole
  rw [whole]
  cases meaning pieces va with
  | error fault => rfl
  | ok read => simp [Bind.bind, Except.bind, Except.map]

/-- `n=%+0+6.*lld;`, with the precision among the arguments. -/
theorem vsnprintf_render_starred :
    vsnprintf (render [.plain 'n', .plain '=',
        .directive ⟨⟨['+', '0', '+'], .digits ['6'], some .star, .ll⟩, 'd'⟩, .plain ';'])
      [.word 3, .word 42] = .ok "n=  +042;".toList := by
  have delimited : Spec.Delimited ⟨⟨['+', '0', '+'], .digits ['6'], some .star, .ll⟩, 'd'⟩ :=
    ⟨by simp [isFlag], stopsAt_cons.mpr rfl,
      ⟨List.forall_mem_singleton.mpr rfl, stopsAt_cons.mpr rfl, by simp⟩, trivial, trivial⟩
  apply (vsnprintf_render _ _).trans
  · rfl
  · simp [Piece.Delimited, delimited]

end Benamos.Console
