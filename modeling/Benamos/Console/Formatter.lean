import Benamos.Console.Output

/-!
# `_vsnprintf` with its output function

The main loop of `printf.c` over an arbitrary output function. Whatever becomes of the characters,
they are those of the text that `Benamos.Console.Printf` gives for the format and its arguments, in
this order and with consecutive indices, the conversion buffer is never overrun, and the number that
is returned is that of the characters. What the library's entry points do follows for each output
function by itself.
-/

namespace Benamos.Console

open Checked

/-- The part of a directive before its specifier. -/
def readDirective (format : List Char) (va : List Vararg) :
    Except Fault (Directive × List Char × List Vararg) := do
  let (flags, format) := readFlags {} format
  let (flags, width, format, va) ← readWidth flags format va
  let (flags, precision, format, va) ← readPrecision flags format va
  let (flags, format) := readLength flags format
  return (⟨flags, width, precision⟩, format, va)

theorem directive_eq (format : List Char) (va : List Vararg) :
    directive format va =
      readDirective format va >>= fun read => convert read.1 read.2.1 read.2.2 := by
  rw [directive, readDirective]
  simp only [bind_assoc, pure_bind]

theorem vsnprintf_of_error {format : List Char} {va : List Vararg} {fault : Fault}
    (failed : directive format va = .error fault) :
    vsnprintf ('%' :: format) va = .error fault := by
  rw [vsnprintf, if_neg (by decide)]
  split
  · rename_i same
    rw [failed, Except.error.injEq] at same
    rw [same]
  · rename_i read
    rw [failed] at read
    contradiction

theorem length_readDirective_le {format rest : List Char} {va remaining : List Vararg}
    {read : Directive} (ok : readDirective format va = .ok (read, rest, remaining)) :
    rest.length ≤ format.length := by
  rcases bind_eq_ok_iff.mp ok with ⟨⟨flags, width, afterWidth, _⟩, widthRead, ok⟩
  rcases bind_eq_ok_iff.mp ok with ⟨⟨flags, precision, afterPrecision, _⟩, precisionRead, ok⟩
  cases ok
  calc
    (readLength flags afterPrecision).2.length ≤ afterPrecision.length :=
      length_readLength_le flags afterPrecision
    _ ≤ afterWidth.length := length_readPrecision_le precisionRead
    _ ≤ (readFlags {} format).2.length := length_readWidth_le widthRead
    _ ≤ format.length := length_readFlags_le {} format

/-! ### What a directive leaves of the arguments -/

theorem suffix_nextWord {va remaining : List Vararg} {value : U64}
    (taken : nextWord va = .ok (value, remaining)) : remaining <:+ va := by
  unfold nextWord at taken
  split at taken <;> cases taken
  exact List.suffix_cons _ _

theorem suffix_nextString {va remaining : List Vararg} {text : List Char}
    (taken : nextString va = .ok (text, remaining)) : .string text ∈ va ∧ remaining <:+ va := by
  unfold nextString at taken
  split at taken <;> cases taken
  exact ⟨List.mem_cons_self, List.suffix_cons _ _⟩

theorem suffix_readWidth {flags after : Flags} {width : U32} {format rest : List Char}
    {va remaining : List Vararg}
    (read : readWidth flags format va = .ok (after, width, rest, remaining)) :
    remaining <:+ va := by
  unfold readWidth at read
  split at read
  · rcases bind_eq_ok_iff.mp read with ⟨⟨value, va⟩, taken, read⟩
    dsimp only at read
    split at read
    · rcases bind_eq_ok_iff.mp read with ⟨_, _, read⟩
      cases read
      exact suffix_nextWord taken
    · cases read
      exact suffix_nextWord taken
  · cases read
    exact List.suffix_refl _

/-- A directive without the precision flag has precision zero. -/
theorem readPrecision_spec {flags after : Flags} {precision : U32} {format rest : List Char}
    {va remaining : List Vararg}
    (read : readPrecision flags format va = .ok (after, precision, rest, remaining)) :
    remaining <:+ va ∧ (after.precision = true ∨ precision = 0) := by
  unfold readPrecision at read
  split at read
  · rcases bind_eq_ok_iff.mp read with ⟨⟨value, va⟩, taken, read⟩
    cases read
    exact ⟨suffix_nextWord taken, Or.inl rfl⟩
  · cases read
    exact ⟨List.suffix_refl _, Or.inl rfl⟩
  · cases read
    exact ⟨List.suffix_refl _, Or.inr rfl⟩

theorem precision_readLength (flags : Flags) (format : List Char) :
    (readLength flags format).1.precision = flags.precision := by
  unfold readLength
  split <;> rfl

theorem readDirective_spec {format rest : List Char} {va remaining : List Vararg}
    {read : Directive} (ok : readDirective format va = .ok (read, rest, remaining)) :
    remaining <:+ va ∧ (read.flags.precision = true ∨ read.precision = 0) := by
  rcases bind_eq_ok_iff.mp ok with ⟨⟨flags, width, afterWidth, _⟩, widthRead, ok⟩
  rcases bind_eq_ok_iff.mp ok with ⟨⟨flags, precision, afterPrecision, _⟩, precisionRead, ok⟩
  cases ok
  rcases readPrecision_spec precisionRead with ⟨suffix, unlimited⟩
  refine ⟨suffix.trans (suffix_readWidth widthRead), ?_⟩
  exact unlimited.imp_left (precision_readLength flags afterPrecision).trans

theorem convert_spec {directive : Directive} {specifier : Char} {format text rest : List Char}
    {va remaining : List Vararg}
    (converted : convert directive (specifier :: format) va = .ok (text, rest, remaining)) :
    rest = format ∧ remaining <:+ va := by
  rw [convert] at converted
  split_ifs at converted
  · rcases bind_eq_ok_iff.mp converted with ⟨_, taken, converted⟩
    rcases bind_eq_ok_iff.mp converted with ⟨_, _, same⟩
    cases same
    exact ⟨rfl, suffix_nextWord taken⟩
  · rcases bind_eq_ok_iff.mp converted with ⟨_, taken, same⟩
    cases same
    exact ⟨rfl, suffix_nextWord taken⟩
  · rcases bind_eq_ok_iff.mp converted with ⟨_, taken, same⟩
    cases same
    exact ⟨rfl, (suffix_nextString taken).2⟩
  · rcases bind_eq_ok_iff.mp converted with ⟨_, taken, same⟩
    cases same
    exact ⟨rfl, suffix_nextWord taken⟩
  · cases converted
    exact ⟨rfl, List.suffix_refl _⟩

namespace Output

section

variable {Sink : Type} (out : OutFct Sink) (maxlen : U64)

/-! ### The specifiers -/

/-- The length `_strnlen_s` counts, before it is narrowed to an `unsigned int`. -/
def countUpTo : List Char → U64 → ℕ
  | [], _ => 0
  | _ :: str, maxsize => if maxsize = 0 then 0 else countUpTo str (maxsize - 1) + 1

def strnlenS (str : List Char) (maxsize : U64) : U32 := BitVec.ofNat 32 (countUpTo str maxsize)

/-- `while ((*p != 0) && (!(flags & FLAGS_PRECISION) || precision--)) out(*(p++), ...)`. -/
def emitString (limited : Bool) : List Char → U32 → Cursor Sink → Cursor Sink
  | [], _, cursor => cursor
  | character :: p, precision, cursor =>
      if limited then
        if precision ≠ 0 then
          emitString limited p (precision - 1) (emit out maxlen character cursor)
        else cursor
      else emitString limited p precision (emit out maxlen character cursor)

/-- A call into the part of the formatter that the two models share. -/
def lift {α : Type} : Except Fault α → Except Failure α
  | .ok value => .ok value
  | .error fault => .error (.fault fault)

def convertInteger (stack : Vector Char ntoaBufferSize) (specifier : Char) (directive : Directive)
    (argument : U64) (cursor : Cursor Sink) : Except Failure (Cursor Sink) :=
  let flags := integerFlags specifier directive.flags
  let base := integerBase specifier
  let value := argument.setWidth (argumentWidth flags)
  if isSigned specifier then do
    let abs ← lift (magnitude (promotedWidth flags) value.toInt)
    ntoaLong out maxlen stack abs (value.toInt < 0) base directive.precision directive.width flags
      cursor
  else
    ntoaLong out maxlen stack value.toNat false base directive.precision directive.width flags
      cursor

/-- `case 'c'`. -/
def convertChar (directive : Directive) (character : Char) (cursor : Cursor Sink) : Cursor Sink :=
  let cursor :=
    if !directive.flags.left then padFrom out maxlen 1 directive.width cursor else cursor
  let cursor := emit out maxlen character cursor
  if directive.flags.left then padFrom out maxlen 1 directive.width cursor else cursor

/-- `case 's'`. -/
def convertString (directive : Directive) (p : List Char) (cursor : Cursor Sink) : Cursor Sink :=
  let precision := directive.precision
  let l := strnlenS p (if precision ≠ 0 then precision.setWidth 64 else -1)
  let l := if directive.flags.precision then if l < precision then l else precision else l
  let cursor :=
    if !directive.flags.left then padFrom out maxlen l.toNat directive.width cursor else cursor
  let cursor := emitString out maxlen directive.flags.precision p precision cursor
  if directive.flags.left then padFrom out maxlen l.toNat directive.width cursor else cursor

/-- `case 'p'`. -/
def convertPointer (stack : Vector Char ntoaBufferSize) (directive : Directive) (argument : U64)
    (cursor : Cursor Sink) : Except Failure (Cursor Sink) :=
  ntoaLong out maxlen stack argument.toNat false 16 directive.precision 16
    { directive.flags with zeropad := true, uppercase := true } cursor

/-- `switch (*format)`. -/
def convert (stack : Vector Char ntoaBufferSize) (directive : Directive) (specifier : Char)
    (va : List Vararg) (cursor : Cursor Sink) : Except Failure (Cursor Sink × List Vararg) :=
  if isInteger specifier then do
    let (argument, va) ← lift (nextWord va)
    let cursor ← convertInteger out maxlen stack specifier directive argument cursor
    return (cursor, va)
  else if isFloat specifier then .error (.fault .floatingPoint)
  else if specifier = 'c' then do
    let (argument, va) ← lift (nextWord va)
    return (convertChar out maxlen directive (Char.ofNat (argument.setWidth 8).toNat) cursor, va)
  else if specifier = 's' then do
    let (p, va) ← lift (nextString va)
    return (convertString out maxlen directive p cursor, va)
  else if specifier = 'p' then do
    let (argument, va) ← lift (nextWord va)
    let cursor ← convertPointer out maxlen stack directive argument cursor
    return (cursor, va)
  else .ok (emit out maxlen specifier cursor, va)

/-- The main loop of `_vsnprintf`, up to the end of the format. -/
def formatLoop (stack : Vector Char ntoaBufferSize) (format : List Char) (va : List Vararg)
    (cursor : Cursor Sink) : Except Failure (Cursor Sink) :=
  match format with
  | [] => .ok cursor
  | character :: format =>
      if character ≠ '%' then
        formatLoop stack format va (emit out maxlen character cursor)
      else
        match _read : readDirective format va with
        | .error fault => .error (.fault fault)
        | .ok (_, [], _) => .error (.fault .unterminated)
        | .ok (directive, specifier :: rest, va) =>
            match convert out maxlen stack directive specifier va cursor with
            | .error failure => .error failure
            | .ok (cursor, va) => formatLoop stack rest va cursor
termination_by format.length
decreasing_by
  · exact Nat.lt_succ_self _
  · have shorter := length_readDirective_le _read
    simp only [List.length_cons] at shorter ⊢
    omega

/-- `idx < maxlen ? idx : maxlen - 1U`, where the terminator goes. -/
def lastIdx (idx maxlen : U64) : U64 := if idx < maxlen then idx else maxlen - 1

/-- `_vsnprintf`: what lies behind `buffer` in the end, and the value returned. -/
def vsnprintf (stack : Vector Char ntoaBufferSize) (buffer : Sink) (format : List Char)
    (va : List Vararg) : Except Failure (Sink × U32) := do
  let cursor ← formatLoop out maxlen stack format va ⟨buffer, 0⟩
  return (out '\x00' (lastIdx cursor.idx maxlen) maxlen cursor.buffer, cursor.idx.setWidth 32)

/-! ### The conversions put out their texts -/

theorem countUpTo_eq (str : List Char) (maxsize : U64) :
    countUpTo str maxsize = min str.length maxsize.toNat := by
  induction str generalizing maxsize with
  | nil => simp [countUpTo]
  | cons character str ih =>
      rw [countUpTo]
      by_cases zero : maxsize = 0
      · simp [zero]
      · have pred := toNat_sub_one zero
        rw [if_neg zero, ih, List.length_cons]
        omega

theorem emitString_eq (limited : Bool) (p : List Char) (precision : U32) (cursor : Cursor Sink) :
    emitString out maxlen limited p precision cursor =
      emitAll out maxlen (if limited then p.take precision.toNat else p) cursor := by
  induction p generalizing precision cursor with
  | nil => cases limited <;> simp [emitString]
  | cons character p ih =>
      rw [emitString, ih, ih]
      cases limited with
      | false => rfl
      | true =>
          by_cases zero : precision = 0
          · simp [zero]
          · simp only [zero, ne_eq, not_false_eq_true, if_true]
            rw [← toNat_sub_one zero, List.take_succ_cons, emitAll_cons]

/-- The padded text of one character or of a string. -/
theorem pad_eq (directive : Directive) (text : List Char) {l : ℕ} (cursor : Cursor Sink)
    (put : Cursor Sink → Cursor Sink)
    (put_eq : ∀ cursor, put cursor = emitAll out maxlen text cursor) :
    (let cursor := if !directive.flags.left then padFrom out maxlen l directive.width cursor
      else cursor
    let cursor := put cursor
    if directive.flags.left then padFrom out maxlen l directive.width cursor else cursor) =
      emitAll out maxlen (pad directive l text) cursor := by
  rw [pad]
  cases directive.flags.left with
  | false => simp [padFrom_eq, put_eq, emitAll_append]
  | true => simp [padFrom_eq, put_eq, emitAll_append]

theorem convertChar_eq (directive : Directive) (character : Char) (cursor : Cursor Sink) :
    convertChar out maxlen directive character cursor =
      emitAll out maxlen (pad directive 1 [character]) cursor :=
  pad_eq out maxlen directive [character] cursor (emit out maxlen character) fun _ => rfl

theorem convertString_eq {directive : Directive} {p : List Char}
    (unlimited : directive.flags.precision = true ∨ directive.precision = 0)
    (short : p.length < 2 ^ 32) (cursor : Cursor Sink) :
    convertString out maxlen directive p cursor =
      emitAll out maxlen (Console.convertString directive p) cursor := by
  rw [convertString, Console.convertString]
  have counted : (if directive.flags.precision then
      if strnlenS p (if directive.precision ≠ 0 then directive.precision.setWidth 64 else -1) <
          directive.precision then
        strnlenS p (if directive.precision ≠ 0 then directive.precision.setWidth 64 else -1)
      else directive.precision
    else
      strnlenS p (if directive.precision ≠ 0 then directive.precision.setWidth 64 else -1)).toNat =
      (if directive.flags.precision then p.take directive.precision.toNat else p).length := by
    cases limited : directive.flags.precision with
    | false =>
        have none : directive.precision = 0 := by simpa [limited] using unlimited
        simp only [none, strnlenS, countUpTo_eq, ne_eq, not_true_eq_false, if_false,
          Bool.false_eq_true, BitVec.toNat_ofNat]
        rw [Nat.min_eq_left (Nat.le_trans (Nat.le_of_lt short) (by decide)), Nat.mod_eq_of_lt short]
    | true =>
        simp only [if_true, List.length_take]
        by_cases zero : directive.precision = 0
        · simp [zero]
        · have inside := directive.precision.isLt
          have strnlen : (strnlenS p (directive.precision.setWidth 64)).toNat =
              min directive.precision.toNat p.length := by
            rw [strnlenS, countUpTo_eq, BitVec.toNat_ofNat, BitVec.toNat_setWidth]
            omega
          simp only [ne_eq, zero, not_false_eq_true, if_true]
          split_ifs with less
          · exact strnlen
          · rw [BitVec.lt_def, strnlen] at less
            omega
  rw [← counted]
  exact pad_eq out maxlen directive _ cursor _ fun cursor => emitString_eq out maxlen _ p _ cursor

theorem convertInteger_eq (stack : Vector Char ntoaBufferSize) (specifier : Char)
    (directive : Directive) (argument : U64) (cursor : Cursor Sink) :
    convertInteger out maxlen stack specifier directive argument cursor =
      lift (Console.convertInteger specifier directive argument) >>= fun text =>
        .ok (emitAll out maxlen text cursor) := by
  simp only [convertInteger, Console.convertInteger, ntoaLong_eq]
  split_ifs
  · cases magnitude _ _ <;> rfl
  · rfl

theorem convertPointer_eq (stack : Vector Char ntoaBufferSize) (directive : Directive)
    (argument : U64) (cursor : Cursor Sink) :
    convertPointer out maxlen stack directive argument cursor =
      .ok (emitAll out maxlen (Console.convertPointer directive argument) cursor) :=
  ntoaLong_eq out maxlen stack _ _ _ _ _ _ cursor

/-- The strings among the arguments are shorter than an `unsigned int` can count. -/
def ShortStrings (va : List Vararg) : Prop := ∀ text, .string text ∈ va → text.length < 2 ^ 32

theorem convert_eq (stack : Vector Char ntoaBufferSize) {directive : Directive}
    (unlimited : directive.flags.precision = true ∨ directive.precision = 0) (specifier : Char)
    (rest : List Char) {va : List Vararg} (short : ShortStrings va) (cursor : Cursor Sink) :
    convert out maxlen stack directive specifier va cursor =
      lift (Console.convert directive (specifier :: rest) va) >>= fun converted =>
        .ok (emitAll out maxlen converted.1 cursor, converted.2.2) := by
  simp only [convert, Console.convert, convertInteger_eq, convertPointer_eq, convertChar_eq]
  split_ifs with isInt isFl isChar isString isPointer
  · cases nextWord va with
    | error fault => rfl
    | ok found =>
        simp only [lift, Bind.bind, Except.bind]
        cases Console.convertInteger specifier directive found.1 <;> rfl
  · rfl
  · cases nextWord va <;> rfl
  · cases taken : nextString va with
    | error fault => rfl
    | ok found =>
        have mem := (suffix_nextString taken).1
        have put := convertString_eq out maxlen unlimited (short _ mem) cursor
        simp only [lift, Bind.bind, Except.bind, put]
        rfl
  · cases nextWord va <;> rfl
  · rfl

/-! ### The main loop puts out the text -/

theorem formatLoop_eq (stack : Vector Char ntoaBufferSize) (format : List Char)
    {va : List Vararg} (short : ShortStrings va) (cursor : Cursor Sink) :
    formatLoop out maxlen stack format va cursor =
      lift (Console.vsnprintf format va) >>= fun text => .ok (emitAll out maxlen text cursor) := by
  fun_induction formatLoop out maxlen stack format va cursor with
  | case1 va cursor =>
      rw [vsnprintf_nil]
      rfl
  | case2 va cursor character format plain ih =>
      rw [ih short, vsnprintf_cons_of_ne plain]
      cases Console.vsnprintf format va <;> rfl
  | case3 va cursor character format percent fault read =>
      rw [not_not.mp percent, vsnprintf_of_error]
      · rfl
      · rw [directive_eq, read]
        rfl
  | case4 va cursor character format percent directive remaining read =>
      rw [not_not.mp percent, vsnprintf_of_error]
      · rfl
      · rw [directive_eq, read]
        rfl
  | case5 va cursor character format percent directive specifier rest remaining read failure
      failed =>
      rcases readDirective_spec read with ⟨suffix, unlimited⟩
      have shortRest : ShortStrings remaining := fun text mem => short text (suffix.mem mem)
      rw [convert_eq out maxlen stack unlimited specifier rest shortRest] at failed
      cases converted : Console.convert directive (specifier :: rest) remaining with
      | error fault =>
          rw [converted] at failed
          cases failed
          rw [not_not.mp percent, vsnprintf_of_error]
          · rfl
          · rw [directive_eq, read]
            exact converted
      | ok found =>
          rw [converted] at failed
          cases failed
  | case6 va cursor character format percent directive specifier rest remaining read next left
      done ih =>
      rcases readDirective_spec read with ⟨suffix, unlimited⟩
      have shortRest : ShortStrings remaining := fun text mem => short text (suffix.mem mem)
      rw [convert_eq out maxlen stack unlimited specifier rest shortRest] at done
      cases converted : Console.convert directive (specifier :: rest) remaining with
      | error fault =>
          rw [converted] at done
          cases done
      | ok found =>
          rcases found with ⟨text, after, unread⟩
          rcases convert_spec converted with ⟨after_eq, unreadSuffix⟩
          subst after_eq
          have taken : Console.directive format va = .ok (text, after, unread) := by
            rw [directive_eq, read]
            exact converted
          rw [converted] at done
          cases done
          rw [ih fun text mem => shortRest text (unreadSuffix.mem mem), not_not.mp percent,
            vsnprintf_directive taken]
          cases Console.vsnprintf after unread with
          | error fault => rfl
          | ok more => simp [lift, Except.map, Bind.bind, Except.bind, emitAll_append]

/-- What `_vsnprintf` does with a format that fits its arguments. -/
theorem vsnprintf_of_formatted (stack : Vector Char ntoaBufferSize) (buffer : Sink)
    {format : List Char} {va : List Vararg} {text : List Char} (short : ShortStrings va)
    (formatted : Console.vsnprintf format va = .ok text) :
    vsnprintf out maxlen stack buffer format va =
      .ok (out '\x00' (lastIdx (BitVec.ofNat 64 text.length) maxlen) maxlen
        (emitAll out maxlen text ⟨buffer, 0⟩).buffer, BitVec.ofNat 32 text.length) := by
  have length : (emitAll out maxlen text ⟨buffer, 0⟩).idx = BitVec.ofNat 64 text.length := by
    rw [idx_emitAll]
    exact BitVec.zero_add _
  have returned : (BitVec.ofNat 64 text.length).setWidth 32 = BitVec.ofNat 32 text.length := by
    apply BitVec.eq_of_toNat_eq
    rw [BitVec.toNat_setWidth, BitVec.toNat_ofNat, BitVec.toNat_ofNat]
    exact Nat.mod_mod_of_dvd _ (by decide)
  rw [vsnprintf, formatLoop_eq out maxlen stack format short, bind_assoc, formatted]
  simp only [lift, Bind.bind, Except.bind, length, returned]
  rfl

theorem vsnprintf_of_failed (stack : Vector Char ntoaBufferSize) (buffer : Sink)
    {format : List Char} {va : List Vararg} {fault : Fault} (short : ShortStrings va)
    (failed : Console.vsnprintf format va = .error fault) :
    vsnprintf out maxlen stack buffer format va = .error (.fault fault) := by
  rw [vsnprintf, formatLoop_eq out maxlen stack format short, bind_assoc, failed]
  rfl

/-- `_vsnprintf` hands the text of the format to the output function, character by character with
consecutive indices, and then the terminator, and returns the length of the text. The conversion
buffer is never overrun. -/
theorem vsnprintf_puts_out (stack : Vector Char ntoaBufferSize) (buffer : Sink)
    (format : List Char) {va : List Vararg} (short : ShortStrings va) :
    vsnprintf out maxlen stack buffer format va =
      lift (Console.vsnprintf format va) >>= fun text =>
        .ok (out '\x00' (lastIdx (BitVec.ofNat 64 text.length) maxlen) maxlen
          (emitAll out maxlen text ⟨buffer, 0⟩).buffer, BitVec.ofNat 32 text.length) := by
  cases text_eq : Console.vsnprintf format va with
  | error fault => exact vsnprintf_of_failed out maxlen stack buffer short text_eq
  | ok text => exact vsnprintf_of_formatted out maxlen stack buffer short text_eq

end

/-- The characters of "%s!" with the text "hi", where each of them goes to the end of a list. -/
theorem vsnprintf_puts_out_text :
    vsnprintf (fun character _ _ put => put ++ [character]) 8 (Vector.replicate 32 'x') []
        "%s!".toList [.string "hi".toList] =
      lift (Console.vsnprintf "%s!".toList [.string "hi".toList]) >>= fun text =>
        .ok ((emitAll (fun character _ _ put => put ++ [character]) 8 text ⟨[], 0⟩).buffer ++
          ['\x00'], BitVec.ofNat 32 text.length) := by
  apply vsnprintf_puts_out
  intro text mem
  rw [List.mem_singleton, Vararg.string.injEq] at mem
  rw [mem]
  decide

end Output

end Benamos.Console
