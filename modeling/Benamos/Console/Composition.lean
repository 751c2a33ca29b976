import Mathlib.Data.List.TakeWhile
import Benamos.Console.Grammar

/-!
# How formats compose

A format takes a fixed number of arguments from the front and does not look at the ones behind them.
Since whatever can be formatted is a text of the grammar, printing two formats one after the other
is printing their concatenation.
-/

namespace Benamos.Console

open Checked

section

variable {Result Next : Type} {run : List Vararg → Except Fault (Result × List Vararg)}
  {next : Result → List Vararg → Except Fault (Next × List Vararg)}

/-- The second takes its arguments from those the first left. -/
def andThen (run : List Vararg → Except Fault (Result × List Vararg))
    (next : Result → List Vararg → Except Fault (Next × List Vararg)) (va : List Vararg) :
    Except Fault (Next × List Vararg) :=
  run va >>= fun read => next read.1 read.2

/-- These arguments are taken, whatever stands behind them. -/
def Takes (run : List Vararg → Except Fault (Result × List Vararg)) (used : List Vararg)
    (result : Result) : Prop :=
  ∀ more, run (used ++ more) = .ok (result, more)

/-- What is taken and what comes of it depends on the arguments that are taken only. -/
def TakesFront (run : List Vararg → Except Fault (Result × List Vararg)) : Prop :=
  ∀ va result rest, run va = .ok (result, rest) → ∃ used, va = used ++ rest ∧ Takes run used result

theorem takes_pure (result : Result) : Takes (fun va => .ok (result, va)) [] result :=
  fun _ => rfl

theorem Takes.bind {used more : List Vararg} {result : Result} {after : Next}
    (takes : Takes run used result) (takesMore : Takes (next result) more after) :
    Takes (andThen run next) (used ++ more) after := by
  intro rest
  rw [andThen, List.append_assoc, takes]
  exact takesMore rest

theorem takesFront_pure (result : Result) : TakesFront fun va => .ok (result, va) := by
  rintro va _ _ ⟨⟩
  exact ⟨[], rfl, takes_pure result⟩

theorem TakesFront.bind (takesFront : TakesFront run)
    (nextTakes : ∀ result, TakesFront (next result)) :
    TakesFront (andThen run next) := by
  intro va after rest ok
  rcases bind_eq_ok_iff.mp ok with ⟨⟨result, middle⟩, ran, nextRan⟩
  rcases takesFront va result middle ran with ⟨used, rfl, takes⟩
  rcases nextTakes result middle after rest nextRan with ⟨more, rfl, takesMore⟩
  exact ⟨used ++ more, (List.append_assoc ..).symm, takes.bind takesMore⟩

/-- What can fail without taking an argument. -/
def withoutArguments (computation : Except Fault Result) (va : List Vararg) :
    Except Fault (Result × List Vararg) :=
  computation.map (·, va)

theorem andThen_withoutArguments (computation : Except Fault Result)
    (next : Result → List Vararg → Except Fault (Next × List Vararg)) :
    andThen (withoutArguments computation) next =
      fun va => computation >>= fun value => next value va := by
  cases computation <;> rfl

theorem takes_withoutArguments (result : Result) :
    Takes (withoutArguments (.ok result)) [] result :=
  fun _ => rfl

theorem takesFront_withoutArguments (computation : Except Fault Result) :
    TakesFront (withoutArguments computation) := by
  intro va result rest ok
  cases computation with
  | error fault => contradiction
  | ok value =>
      cases ok
      exact ⟨[], rfl, takes_withoutArguments result⟩

theorem takes_nextWord (value : U64) : Takes nextWord [.word value] value := fun _ => rfl

theorem takes_nextString (text : List Char) : Takes nextString [.string text] text := fun _ => rfl

theorem takesFront_nextWord : TakesFront nextWord := by
  intro va value rest taken
  unfold nextWord at taken
  split at taken <;> cases taken
  exact ⟨[.word value], rfl, takes_nextWord value⟩

theorem takesFront_nextString : TakesFront nextString := by
  intro va text rest taken
  unfold nextString at taken
  split at taken <;> cases taken
  exact ⟨[.string text], rfl, takes_nextString text⟩

end

/-! ### What the pieces take -/

theorem exists_convertInteger_zero (specifier : Char) (directive : Directive) :
    ∃ text, convertInteger specifier directive 0 = .ok text := by
  have zero (bits : ℕ) : ((0 : U64).setWidth bits).toInt = 0 := by simp
  rw [convertInteger]
  split_ifs
  · rw [magnitude_of_nonneg (Int.le_of_eq (zero _).symm)]
    exact ⟨_, rfl⟩
  · exact ⟨_, rfl⟩

/-- A conversion takes one argument or none, and a zero is never refused. -/
theorem specified_cases (directive : Directive) (specifier : Char) :
    (∃ text : U64 → Except Fault (List Char), (∃ shown, text 0 = .ok shown) ∧
      specified directive specifier = andThen nextWord fun value => withoutArguments (text value)) ∨
    (∃ text : List Char → List Char, specified directive specifier =
      andThen nextString fun shown va => .ok (text shown, va)) ∨
    (∃ text, specified directive specifier = fun va => .ok (text, va)) ∨
    (isFloat specifier = true ∧
      specified directive specifier = fun _ => .error .floatingPoint) := by
  by_cases integer : isInteger specifier = true
  · refine .inl ⟨convertInteger specifier directive, exists_convertInteger_zero specifier directive,
      funext fun va => ?_⟩
    simp only [specified, convert, if_pos integer, andThen]
    cases nextWord va with
    | error fault => rfl
    | ok found =>
        simp only [Bind.bind, Except.bind]
        cases convertInteger specifier directive found.1 <;> rfl
  by_cases float : isFloat specifier = true
  · refine .inr (.inr (.inr ⟨float, funext fun va => ?_⟩))
    simp only [specified, convert, if_neg integer, if_pos float]
    rfl
  by_cases character : specifier = 'c'
  · refine .inl ⟨fun argument => .ok (pad directive 1 [Char.ofNat (argument.setWidth 8).toNat]),
      ⟨_, rfl⟩, funext fun va => ?_⟩
    simp only [specified, convert, if_neg integer, if_neg float, if_pos character,
      andThen]
    cases nextWord va <;> rfl
  by_cases string : specifier = 's'
  · refine .inr (.inl ⟨convertString directive, funext fun va => ?_⟩)
    simp only [specified, convert, if_neg integer, if_neg float, if_neg character,
      if_pos string, andThen]
    cases nextString va <;> rfl
  by_cases pointer : specifier = 'p'
  · refine .inl ⟨fun argument => .ok (convertPointer directive argument), ⟨_, rfl⟩,
      funext fun va => ?_⟩
    simp only [specified, convert, if_neg integer, if_neg float, if_neg character, if_neg string,
      if_pos pointer, andThen]
    cases nextWord va <;> rfl
  · refine .inr (.inr (.inl ⟨[specifier], funext fun va => ?_⟩))
    simp only [specified, convert, if_neg integer, if_neg float, if_neg character, if_neg string,
      if_neg pointer]
    rfl

theorem takesFront_specified (directive : Directive) (specifier : Char) :
    TakesFront (specified directive specifier) := by
  rcases specified_cases directive specifier with
    ⟨text, _, same⟩ | ⟨text, same⟩ | ⟨text, same⟩ | ⟨_, same⟩
  · rw [same]
    exact takesFront_nextWord.bind fun value => takesFront_withoutArguments (text value)
  · rw [same]
    exact takesFront_nextString.bind fun shown => takesFront_pure (text shown)
  · rw [same]
    exact takesFront_pure text
  · rw [same]
    intro va result rest ok
    contradiction

theorem value_star :
    (fun va => Amount.value va .star) =
      andThen nextWord fun value va => .ok ((value.setWidth 32).toInt, va) := rfl

theorem meaning_fields (fields : Fields) :
    fields.meaning =
      andThen (fun va => fields.width.value va) fun width =>
        andThen (withoutArguments (magnitude 32 width)) fun columns =>
          andThen (fun va => precisionValue va fields.precision) fun precision va =>
            .ok (⟨fields.meantFlags width, BitVec.ofNat 32 columns,
              BitVec.ofNat 32 precision.toNat⟩, va) := by
  simp only [andThen_withoutArguments]
  rfl

theorem meaning_directive (spec : Spec) :
    (fun va => Piece.meaning va (.directive spec)) =
      andThen spec.toFields.meaning fun directive => specified directive spec.specifier := rfl

theorem meaning_cons (piece : Piece) (pieces : List Piece) :
    meaning (piece :: pieces) =
      andThen (fun va => piece.meaning va) fun text =>
        andThen (meaning pieces) fun more va => .ok (text ++ more, va) := rfl

theorem takesFront_value (amount : Amount) : TakesFront fun va => amount.value va := by
  cases amount with
  | digits numeral => exact takesFront_pure _
  | star =>
      rw [value_star]
      exact takesFront_nextWord.bind fun value => takesFront_pure _

theorem takesFront_precisionValue (precision : Option Amount) :
    TakesFront fun va => precisionValue va precision := by
  cases precision with
  | none => exact takesFront_pure 0
  | some amount => exact takesFront_value amount

theorem takesFront_fields (fields : Fields) : TakesFront fields.meaning := by
  rw [meaning_fields]
  apply (takesFront_value fields.width).bind
  intro width
  apply (takesFront_withoutArguments (magnitude 32 width)).bind
  intro columns
  exact (takesFront_precisionValue fields.precision).bind fun precision => takesFront_pure _

theorem takesFront_piece (piece : Piece) : TakesFront fun va => piece.meaning va := by
  cases piece with
  | plain ch => exact takesFront_pure [ch]
  | directive spec =>
      rw [meaning_directive]
      apply (takesFront_fields spec.toFields).bind
      intro directive
      exact takesFront_specified directive spec.specifier

theorem takesFront_meaning (pieces : List Piece) : TakesFront (meaning pieces) := by
  induction pieces with
  | nil => exact takesFront_pure []
  | cons piece pieces ih =>
      rw [meaning_cons]
      apply (takesFront_piece piece).bind
      intro text
      exact ih.bind fun more => takesFront_pure (text ++ more)

/-! ### What can be formatted -/

/-- Floating-point conversions are not part of this model. -/
def Piece.Supported : Piece → Prop
  | .plain _ => True
  | .directive spec => isFloat spec.specifier = false

theorem exists_takes_value (amount : Amount) :
    ∃ used value, 0 ≤ value ∧ Takes (fun va => amount.value va) used value := by
  cases amount with
  | digits numeral => exact ⟨[], _, Int.natCast_nonneg _, takes_pure _⟩
  | star =>
      rw [value_star]
      exact ⟨_, _, Int.le_refl 0, (takes_nextWord 0).bind (takes_pure _)⟩

theorem exists_takes_precisionValue (precision : Option Amount) :
    ∃ used value, Takes (fun va => precisionValue va precision) used value := by
  cases precision with
  | none => exact ⟨[], 0, takes_pure 0⟩
  | some amount =>
      rcases exists_takes_value amount with ⟨used, value, _, takes⟩
      exact ⟨used, value, takes⟩

theorem exists_takes_specified (directive : Directive) {specifier : Char}
    (supported : isFloat specifier = false) :
    ∃ used text, Takes (specified directive specifier) used text := by
  rcases specified_cases directive specifier with
    ⟨text, ⟨shown, zero⟩, same⟩ | ⟨text, same⟩ | ⟨text, same⟩ | ⟨float, _⟩
  · rw [same]
    have takes : Takes (withoutArguments (text 0)) [] shown := by
      rw [zero]
      exact takes_withoutArguments shown
    exact ⟨_, _, (takes_nextWord 0).bind takes⟩
  · rw [same]
    exact ⟨_, _, (takes_nextString []).bind (takes_pure (text []))⟩
  · rw [same]
    exact ⟨[], text, takes_pure text⟩
  · rw [supported] at float
    contradiction

theorem exists_takes_fields (fields : Fields) :
    ∃ used directive, Takes fields.meaning used directive := by
  rcases exists_takes_value fields.width with ⟨_, width, nonneg, takesWidth⟩
  rcases exists_takes_precisionValue fields.precision with ⟨_, precision, takesPrecision⟩
  have takesColumns : Takes (withoutArguments (magnitude 32 width)) [] width.natAbs := by
    rw [magnitude_of_nonneg nonneg]
    exact takes_withoutArguments width.natAbs
  rw [meaning_fields]
  exact ⟨_, _, takesWidth.bind (takesColumns.bind (takesPrecision.bind (takes_pure _)))⟩

theorem exists_takes_piece {piece : Piece} (supported : piece.Supported) :
    ∃ used text, Takes (fun va => piece.meaning va) used text := by
  cases piece with
  | plain ch => exact ⟨[], [ch], takes_pure [ch]⟩
  | directive spec =>
      rw [meaning_directive]
      rcases exists_takes_fields spec.toFields with ⟨_, directive, takes⟩
      rcases exists_takes_specified directive supported with ⟨_, text, takesText⟩
      exact ⟨_, text, takes.bind takesText⟩

theorem exists_takes_meaning {pieces : List Piece}
    (supported : ∀ piece ∈ pieces, piece.Supported) :
    ∃ used text, Takes (meaning pieces) used text := by
  induction pieces with
  | nil => exact ⟨[], [], takes_pure []⟩
  | cons piece pieces ih =>
      rw [List.forall_mem_cons] at supported
      rcases exists_takes_piece supported.1 with ⟨_, text, takes⟩
      rcases ih supported.2 with ⟨_, more, takesMore⟩
      rw [meaning_cons]
      exact ⟨_, text ++ more, takes.bind (takesMore.bind (takes_pure _))⟩

/-! ### Every format that works is a text of the grammar -/

theorem stopsAt_dropWhile (taken : Char → Bool) (text : List Char) :
    StopsAt taken (text.dropWhile taken) := by
  intro ch mem
  have stops := List.head?_dropWhile_not taken text
  rw [Option.mem_def.mp mem] at stops
  simpa using stops

theorem begins_or_stops (ch : Char) (format : List Char) :
    (∃ more, format = ch :: more) ∨ StopsAt (· = ch) format := by
  cases format with
  | nil => simp
  | cons head more =>
      by_cases same : head = ch
      · exact .inl ⟨more, by rw [same]⟩
      · simp [same]

theorem exists_amount (format : List Char) :
    ∃ (amount : Amount) (rest : List Char),
      amount.EndsAt rest ∧ format = amount.text ++ rest := by
  rcases begins_or_stops '*' format with ⟨more, rfl⟩ | noStar
  · exact ⟨.star, more, trivial, rfl⟩
  · have whole := @List.takeWhile_append_dropWhile _ Char.isDigit format
    refine ⟨.digits (format.takeWhile Char.isDigit), format.dropWhile Char.isDigit,
      ⟨fun ch mem => List.mem_takeWhile_imp mem, stopsAt_dropWhile _ _, ?_⟩, whole.symm⟩
    intro none
    rw [none, List.nil_append] at whole
    rwa [whole]

theorem exists_precision (format : List Char) :
    ∃ (precision : Option Amount) (rest : List Char),
      PrecisionEndsAt rest precision ∧ format = precisionText precision ++ rest := by
  rcases begins_or_stops '.' format with ⟨more, rfl⟩ | noDot
  · rcases exists_amount more with ⟨amount, rest, endsAt, rfl⟩
    exact ⟨some amount, rest, endsAt, rfl⟩
  · exact ⟨none, format, noDot, rfl⟩

theorem exists_length (format : List Char) :
    ∃ (length : Length) (rest : List Char),
      length.EndsAt rest ∧ format = length.text ++ rest := by
  rcases begins_or_stops 'l' format with ⟨more, rfl⟩ | noL
  · rcases begins_or_stops 'l' more with ⟨rest, rfl⟩ | stops
    · exact ⟨.ll, rest, trivial, rfl⟩
    · exact ⟨.l, more, stops, rfl⟩
  rcases begins_or_stops 'h' format with ⟨more, rfl⟩ | noH
  · rcases begins_or_stops 'h' more with ⟨rest, rfl⟩ | stops
    · exact ⟨.hh, rest, trivial, rfl⟩
    · exact ⟨.h, more, stops, rfl⟩
  rcases begins_or_stops 't' format with ⟨rest, rfl⟩ | noT
  · exact ⟨.t, rest, trivial, rfl⟩
  rcases begins_or_stops 'j' format with ⟨rest, rfl⟩ | noJ
  · exact ⟨.j, rest, trivial, rfl⟩
  rcases begins_or_stops 'z' format with ⟨rest, rfl⟩ | noZ
  · exact ⟨.z, rest, trivial, rfl⟩
  · refine ⟨.none, format, ?_, rfl⟩
    intro ch mem
    have other : ch ≠ 'l' ∧ ch ≠ 'h' ∧ ch ≠ 't' ∧ ch ≠ 'j' ∧ ch ≠ 'z' :=
      ⟨of_decide_eq_false (noL ch mem), of_decide_eq_false (noH ch mem),
        of_decide_eq_false (noT ch mem), of_decide_eq_false (noJ ch mem),
        of_decide_eq_false (noZ ch mem)⟩
    simpa using other

theorem exists_fields (format : List Char) :
    ∃ (fields : Fields) (rest : List Char),
      fields.EndAt rest ∧ format = fields.textBefore rest := by
  have whole := @List.takeWhile_append_dropWhile _ isFlag format
  rcases exists_amount (format.dropWhile isFlag) with ⟨width, afterWidth, widthEnds, widthText⟩
  rcases exists_precision afterWidth with ⟨precision, afterPrecision, precisionEnds, rfl⟩
  rcases exists_length afterPrecision with ⟨length, rest, lengthEnds, rfl⟩
  refine ⟨⟨format.takeWhile isFlag, width, precision, length⟩, rest,
    ⟨fun ch mem => List.mem_takeWhile_imp mem, ?_, widthEnds, precisionEnds, lengthEnds⟩, ?_⟩
  · have stops := stopsAt_dropWhile isFlag format
    rwa [widthText] at stops
  · rw [widthText] at whole
    exact whole.symm

/-- A directive that is read at all is one of the grammar. -/
theorem exists_spec {format text rest : List Char} {va remaining : List Vararg}
    (ok : directive format va = .ok (text, rest, remaining)) :
    ∃ spec : Spec, spec.Delimited ∧ format = spec.text ++ rest := by
  rcases exists_fields format with ⟨fields, behind, endAt, rfl⟩
  rw [directive_eq, readDirective_textBefore endAt, bind_assoc] at ok
  rcases bind_eq_ok_iff.mp ok with ⟨read, _, converted⟩
  cases behind with
  | nil => contradiction
  | cons specifier behind =>
      have same := (convert_spec converted).1
      refine ⟨⟨fields, specifier⟩, endAt.congr rfl, ?_⟩
      rw [Spec.text, Fields.textBefore_append, List.singleton_append, same]

theorem map_eq_ok {shown text : List Char} {formatted : Except Fault (List Char)}
    (ok : formatted.map (shown ++ ·) = .ok text) : ∃ more, formatted = .ok more := by
  cases formatted with
  | error fault => contradiction
  | ok more => exact ⟨more, rfl⟩

/-- Whatever can be formatted is a text of the grammar. -/
theorem exists_pieces {format text : List Char} {va : List Vararg}
    (ok : vsnprintf format va = .ok text) :
    ∃ pieces : List Piece, (∀ piece ∈ pieces, piece.Delimited) ∧ render pieces = format := by
  fun_induction vsnprintf format va generalizing text with
  | case1 va => exact ⟨[], by simp, rfl⟩
  | case2 va ch format plain ih =>
      rcases @map_eq_ok [ch] _ _ ok with ⟨more, formatted⟩
      rcases ih formatted with ⟨pieces, delimited, rfl⟩
      exact ⟨.plain ch :: pieces, List.forall_mem_cons.mpr ⟨plain, delimited⟩, rfl⟩
  | case3 va ch format percent fault read => contradiction
  | case4 va ch format percent shown rest remaining read ih =>
      rcases map_eq_ok ok with ⟨more, formatted⟩
      rcases ih formatted with ⟨pieces, others, rfl⟩
      rcases exists_spec read with ⟨spec, delimited, rfl⟩
      rw [not_not.mp percent]
      exact ⟨.directive spec :: pieces, List.forall_mem_cons.mpr ⟨delimited, others⟩, rfl⟩

theorem specified_float (directive : Directive) {specifier : Char}
    (float : isFloat specifier = true) (va : List Vararg) :
    specified directive specifier va = .error .floatingPoint := by
  have mem : specifier ∈ ['f', 'F', 'e', 'E', 'g', 'G'] := of_decide_eq_true float
  fin_cases mem <;> rfl

theorem supported_of_meaning {pieces : List Piece} {va : List Vararg}
    {read : List Char × List Vararg} (ok : meaning pieces va = .ok read) :
    ∀ piece ∈ pieces, piece.Supported := by
  induction pieces generalizing va read with
  | nil => simp
  | cons piece pieces ih =>
      rcases bind_eq_ok_iff.mp ok with ⟨⟨text, between⟩, said, ok⟩
      rcases bind_eq_ok_iff.mp ok with ⟨⟨more, after⟩, saidMore, _⟩
      refine List.forall_mem_cons.mpr ⟨?_, ih saidMore⟩
      cases piece with
      | plain ch => exact trivial
      | directive spec =>
          rcases bind_eq_ok_iff.mp said with ⟨⟨directive, va⟩, _, converted⟩
          apply Bool.eq_false_of_not_eq_true
          intro float
          have failed := specified_float directive float va
          exact absurd (failed.symm.trans converted) (by simp)

/-- Which formats there are: the texts of the grammar, each of which some arguments serve. -/
theorem exists_formatted_iff (format : List Char) :
    (∃ va text, vsnprintf format va = .ok text) ↔
      ∃ pieces : List Piece, (∀ piece ∈ pieces, piece.Delimited ∧ piece.Supported) ∧
        render pieces = format := by
  constructor
  · rintro ⟨va, text, ok⟩
    rcases exists_pieces ok with ⟨pieces, delimited, rfl⟩
    have same := vsnprintf_render_append delimited [] va
    rw [List.append_nil, ok] at same
    rcases bind_eq_ok_iff.mp same.symm with ⟨read, said, _⟩
    exact ⟨pieces, fun piece mem => ⟨delimited piece mem, supported_of_meaning said piece mem⟩, rfl⟩
  · rintro ⟨pieces, wellFormed, rfl⟩
    rcases exists_takes_meaning fun piece mem => (wellFormed piece mem).2 with ⟨used, text, takes⟩
    have same := vsnprintf_render_append (fun piece mem => (wellFormed piece mem).1) [] used
    have said := takes []
    rw [List.append_nil] at said same
    refine ⟨used, text, ?_⟩
    rw [same, said]
    simp [Bind.bind, Except.bind, Except.map]

/-! ### One call after the other -/

/-- A format that works takes some arguments from the front. Formatting another one behind it, with
the arguments behind those, puts the other text behind its text. -/
theorem vsnprintf_splits {format text : List Char} {va : List Vararg}
    (ok : vsnprintf format va = .ok text) :
    ∃ used rest, va = used ++ rest ∧ ∀ other more,
      vsnprintf (format ++ other) (used ++ more) = (vsnprintf other more).map (text ++ ·) := by
  rcases exists_pieces ok with ⟨pieces, delimited, rfl⟩
  have whole := vsnprintf_render_append delimited [] va
  rw [List.append_nil, ok] at whole
  rcases bind_eq_ok_iff.mp whole.symm with ⟨⟨shown, rest⟩, said, same⟩
  simp [Except.map] at same
  rcases takesFront_meaning pieces va shown rest said with ⟨used, rfl, takes⟩
  refine ⟨used, rest, rfl, fun other more => ?_⟩
  rw [vsnprintf_render_append delimited, takes, same]
  rfl

theorem formatted_d : vsnprintf "%d".toList [.word 42] = .ok "42".toList := by
  have read : directive "d".toList [.word 42] = .ok ("42".toList, [], []) := rfl
  apply (vsnprintf_directive read).trans
  rw [vsnprintf_nil]
  rfl

theorem vsnprintf_splits_d :
    ∃ used rest, [Vararg.word 42] = used ++ rest ∧ ∀ other more,
      vsnprintf ("%d".toList ++ other) (used ++ more) =
        (vsnprintf other more).map ("42".toList ++ ·) :=
  vsnprintf_splits formatted_d

end Benamos.Console
