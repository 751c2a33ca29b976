import Benamos.Console.Printf
import Benamos.X86.Memory

/-!
# The output of `printf.c`, character by character

The functions of `printf.c` never build a text. They hand each character to an output function,
together with a running index, and convert a number in a buffer of 32 bytes on their stack. This is
`_vsnprintf` as it is written: with its loops, and with every store into the buffer checked against
the end of the buffer. The formatter of `Benamos.Console.Printf` says what it puts out.
-/

namespace Benamos.Console.Output

open Checked

/-- `out_fct_type`: what a character, an index and the limit make of the thing behind `buffer`. -/
abbrev OutFct (Sink : Type) := Char → U64 → U64 → Sink → Sink

structure Cursor (Sink : Type) where
  buffer : Sink
  idx : U64
deriving DecidableEq, Repr

inductive Failure where
  | fault (fault : Fault)
  | overrun
deriving DecidableEq, Repr

theorem toNat_sub_one {width : ℕ} {value : BitVec width} (nonzero : value ≠ 0) :
    (value - 1).toNat + 1 = value.toNat := by
  have positive : value.toNat ≠ 0 :=
    fun zero => nonzero (BitVec.eq_of_toNat_eq (by simpa using zero))
  have inside := value.isLt
  have one : (1 : BitVec width).toNat = 1 :=
    Nat.mod_eq_of_lt (show 1 < 2 ^ width by omega)
  rw [BitVec.toNat_sub_of_le (by rw [BitVec.le_def]; omega), one]
  omega

section

variable {Sink : Type} (out : OutFct Sink) (maxlen : U64)

/-- `out(character, buffer, idx++, maxlen)`. -/
def emit (character : Char) (cursor : Cursor Sink) : Cursor Sink where
  buffer := out character cursor.idx maxlen cursor.buffer
  idx := cursor.idx + 1

def emitAll (text : List Char) (cursor : Cursor Sink) : Cursor Sink :=
  text.foldl (fun cursor character => emit out maxlen character cursor) cursor

@[simp]
theorem emitAll_nil (cursor : Cursor Sink) : emitAll out maxlen [] cursor = cursor := rfl

@[simp]
theorem emitAll_cons (character : Char) (text : List Char) (cursor : Cursor Sink) :
    emitAll out maxlen (character :: text) cursor =
      emitAll out maxlen text (emit out maxlen character cursor) := rfl

theorem emitAll_append (text more : List Char) (cursor : Cursor Sink) :
    emitAll out maxlen (text ++ more) cursor =
      emitAll out maxlen more (emitAll out maxlen text cursor) := by
  simp [emitAll]

theorem idx_emitAll (text : List Char) (cursor : Cursor Sink) :
    (emitAll out maxlen text cursor).idx = cursor.idx + BitVec.ofNat 64 text.length := by
  induction text generalizing cursor with
  | nil => simp
  | cons character text ih =>
      rw [emitAll_cons, ih, emit, List.length_cons, BitVec.ofNat_add, BitVec.add_assoc]
      exact congrArg (cursor.idx + ·) (BitVec.add_comm _ _)

/-! ### Padding -/

/-- `while (l++ < width) out(' ', ...)`. No `l` below the width wraps around. -/
def padFrom (l : ℕ) (width : U32) (cursor : Cursor Sink) : Cursor Sink :=
  if l < width.toNat then padFrom (l + 1) width (emit out maxlen ' ' cursor) else cursor
termination_by width.toNat - l

theorem padFrom_eq (l : ℕ) (width : U32) (cursor : Cursor Sink) :
    padFrom out maxlen l width cursor =
      emitAll out maxlen (List.replicate (width.toNat - l) ' ') cursor := by
  fun_induction padFrom out maxlen l width cursor with
  | case1 l cursor below ih =>
      have rest : width.toNat - l = width.toNat - (l + 1) + 1 := by omega
      rw [ih, rest, List.replicate_succ, emitAll_cons]
  | case2 l cursor above =>
      rw [Nat.sub_eq_zero_of_le (Nat.le_of_not_lt above), List.replicate_zero, emitAll_nil]

theorem toNat_succ_sub {idx start : U64} {width : U32}
    (below : (idx - start).toNat < width.toNat) :
    (idx + 1 - start).toNat = (idx - start).toNat + 1 := by
  have small := width.isLt
  have moved : idx + 1 - start = idx - start + BitVec.ofNat 64 1 := by
    rw [BitVec.sub_eq_add_neg, BitVec.sub_eq_add_neg, BitVec.add_assoc, BitVec.add_assoc,
      BitVec.add_comm (-start)]
    rfl
  rw [moved, BitVec.toNat_add, BitVec.toNat_ofNat]
  omega

/-- `while (idx - start_idx < width) out(' ', ...)`. -/
def padRight (startIdx : U64) (width : U32) (cursor : Cursor Sink) : Cursor Sink :=
  if (cursor.idx - startIdx).toNat < width.toNat then
    padRight startIdx width (emit out maxlen ' ' cursor)
  else
    cursor
termination_by width.toNat - (cursor.idx - startIdx).toNat
decreasing_by
  have below : (cursor.idx - startIdx).toNat < width.toNat := by assumption
  rw [emit, toNat_succ_sub below]
  omega

theorem padRight_eq (startIdx : U64) (width : U32) (cursor : Cursor Sink) :
    padRight out maxlen startIdx width cursor =
      emitAll out maxlen
        (List.replicate (width.toNat - (cursor.idx - startIdx).toNat) ' ') cursor := by
  fun_induction padRight out maxlen startIdx width cursor with
  | case1 cursor below ih =>
      have next : ((emit out maxlen ' ' cursor).idx - startIdx).toNat =
          (cursor.idx - startIdx).toNat + 1 := toNat_succ_sub below
      have rest : width.toNat - (cursor.idx - startIdx).toNat =
          width.toNat - ((cursor.idx - startIdx).toNat + 1) + 1 := by omega
      rw [ih, next, rest, List.replicate_succ, emitAll_cons]
  | case2 cursor above =>
      rw [Nat.sub_eq_zero_of_le (Nat.le_of_not_lt above), List.replicate_zero, emitAll_nil]

/-- After `count` characters have been put out since `startIdx`. -/
theorem padRight_of_idx_eq {startIdx : U64} {cursor : Cursor Sink} {count : ℕ}
    (idx_eq : cursor.idx = startIdx + BitVec.ofNat 64 count) (small : count < 2 ^ 64)
    (width : U32) :
    padRight out maxlen startIdx width cursor =
      emitAll out maxlen (List.replicate (width.toNat - count) ' ') cursor := by
  rw [padRight_eq, idx_eq, X86.add_sub_self_toNat startIdx small]

end

/-! ### The conversion buffer -/

/-- `char buf[PRINTF_NTOA_BUFFER_SIZE]` and the number of characters in it. -/
structure NtoaBuffer where
  buf : Vector Char ntoaBufferSize
  len : ℕ
deriving Repr

namespace NtoaBuffer

/-- `buf[len++] = character`. -/
def append (character : Char) (buffer : NtoaBuffer) : Except Failure NtoaBuffer :=
  if inside : buffer.len < ntoaBufferSize then
    .ok ⟨buffer.buf.set buffer.len character inside, buffer.len + 1⟩
  else
    .error .overrun

/-- `if (len < PRINTF_NTOA_BUFFER_SIZE) buf[len++] = character`. -/
def appendIfRoom (character : Char) (buffer : NtoaBuffer) : Except Failure NtoaBuffer :=
  if buffer.len < ntoaBufferSize then buffer.append character else .ok buffer

theorem append_of_lt {buffer : NtoaBuffer} (character : Char)
    (inside : buffer.len < ntoaBufferSize) :
    buffer.append character = .ok ⟨buffer.buf.set buffer.len character inside, buffer.len + 1⟩ :=
  dif_pos inside

theorem append_eq_ok {buffer next : NtoaBuffer} {character : Char}
    (appended : buffer.append character = .ok next) :
    buffer.len < ntoaBufferSize ∧ next.len = buffer.len + 1 := by
  rw [append] at appended
  split at appended
  · cases appended
    exact ⟨by assumption, rfl⟩
  · cases appended

/-- `while ((len < count) && (len < PRINTF_NTOA_BUFFER_SIZE)) buf[len++] = '0'`. -/
def fillZeros (count : ℕ) : While Failure NtoaBuffer where
  guard buffer := buffer.len < count && buffer.len < ntoaBufferSize
  body := append '0'
  rank buffer := ntoaBufferSize - buffer.len
  rank_lt _ appended := by
    have := append_eq_ok appended
    omega

/-- The characters in use are those of `text`. -/
structure Holds (buffer : NtoaBuffer) (text : List Char) : Prop where
  len_eq : buffer.len = text.length
  fits : text.length ≤ ntoaBufferSize
  reads : ∀ {line : ℕ} {character : Char}, text[line]? = some character →
    ∀ inside : line < ntoaBufferSize, buffer.buf.get ⟨line, inside⟩ = character

theorem holds_nil (buf : Vector Char ntoaBufferSize) : Holds ⟨buf, 0⟩ [] where
  len_eq := rfl
  fits := Nat.zero_le _
  reads here := by simp at here

namespace Holds

variable {buffer : NtoaBuffer} {text : List Char}

theorem append (holds : buffer.Holds text) (room : text.length < ntoaBufferSize)
    (character : Char) :
    ∃ next, buffer.append character = .ok next ∧ next.Holds (text ++ [character]) := by
  have inside : buffer.len < ntoaBufferSize := by rwa [holds.len_eq]
  refine ⟨_, append_of_lt character inside, ?_, ?_, ?_⟩
  · simp [holds.len_eq]
  · rw [List.length_append]
    exact room
  · intro line other here lineInside
    apply (Vector.getElem_set inside lineInside).trans
    split_ifs with last
    · rw [← last, holds.len_eq, List.getElem?_concat_length, Option.some_inj] at here
      exact here
    · apply holds.reads _ lineInside
      rw [← here, List.getElem?_append_left]
      have before := (List.getElem?_eq_some_iff.mp here).1
      rw [holds.len_eq] at last
      simp only [List.length_append, List.length_singleton] at before
      omega

theorem appendIfRoom (holds : buffer.Holds text) (character : Char) :
    ∃ next, buffer.appendIfRoom character = .ok next ∧ next.Holds (pushChar text character) := by
  rw [NtoaBuffer.appendIfRoom, pushChar, holds.len_eq]
  split_ifs with room
  · exact holds.append room character
  · exact ⟨buffer, rfl, holds⟩

theorem fillZeros (holds : buffer.Holds text) (count : ℕ) :
    ∃ next, (fillZeros count).run buffer = .ok next ∧ next.Holds (padZeros text count) := by
  induction missing_eq : min count ntoaBufferSize - text.length generalizing buffer text with
  | zero =>
      refine ⟨buffer, While.run_of_refused ?_, ?_⟩
      · simp only [NtoaBuffer.fillZeros, holds.len_eq, Bool.and_eq_false_iff,
          decide_eq_false_iff_not]
        omega
      · rwa [padZeros, missing_eq, List.replicate_zero, List.append_nil]
  | succ missing ih =>
      rcases holds.append (by omega) '0' with ⟨next, appended, nextHolds⟩
      have rest : min count ntoaBufferSize - (text ++ ['0']).length = missing := by
        rw [List.length_append, List.length_singleton]
        omega
      rcases ih nextHolds rest with ⟨filled, ran, filledHolds⟩
      refine ⟨filled, ?_, ?_⟩
      · rw [While.run_of_ok _ appended, ran]
        simp only [NtoaBuffer.fillZeros, holds.len_eq, Bool.and_eq_true, decide_eq_true_eq]
        omega
      · rwa [padZeros, rest, List.append_assoc, List.singleton_append, ← List.replicate_succ,
          ← missing_eq, ← padZeros] at filledHolds

/-- `len--`. -/
theorem dropLast (holds : buffer.Holds text) :
    Holds { buffer with len := buffer.len - 1 } text.dropLast where
  len_eq := by rw [List.length_dropLast, holds.len_eq]
  fits := Nat.le_trans (by simp) holds.fits
  reads here := by
    apply holds.reads
    rw [List.getElem?_dropLast] at here
    split at here
    · exact here
    · contradiction

end Holds

/-- The loop of `_ntoa_long`, which makes its first round unconditionally. -/
def digitLoop (uppercase : Bool) (base : ℕ) : While Failure (ℕ × NtoaBuffer) where
  guard state := state.1 ≠ 0 && state.2.len < ntoaBufferSize
  body state := do
    let buffer ← state.2.append (ntoaDigit uppercase (state.1 % base))
    return (state.1 / base, buffer)
  rank state := ntoaBufferSize - state.2.len
  rank_lt _ stepped := by
    rcases bind_eq_ok_iff.mp stepped with ⟨buffer, appended, same⟩
    cases same
    have := append_eq_ok appended
    dsimp only
    omega

def digits (uppercase : Bool) (base value : ℕ) (buffer : NtoaBuffer) :
    Except Failure NtoaBuffer := do
  let state ← (digitLoop uppercase base).body (value, buffer)
  let state ← (digitLoop uppercase base).run state
  return state.2

section

variable {uppercase : Bool} {base value : ℕ} {buffer next : NtoaBuffer} {text : List Char}

theorem digits_of_append
    (appended : buffer.append (ntoaDigit uppercase (value % base)) = .ok next) :
    buffer.digits uppercase base value =
      (digitLoop uppercase base).run (value / base, next) >>= fun state => return state.2 := by
  have body : (digitLoop uppercase base).body (value, buffer) = .ok (value / base, next) :=
    bind_eq_ok_iff.mpr ⟨next, appended, rfl⟩
  rw [digits, body]
  rfl

theorem digits_last
    (appended : buffer.append (ntoaDigit uppercase (value % base)) = .ok next)
    (last : value / base = 0 ∨ ntoaBufferSize ≤ next.len) :
    buffer.digits uppercase base value = .ok next := by
  have refused : (digitLoop uppercase base).guard (value / base, next) = false := by
    simp only [digitLoop, Bool.and_eq_false_iff, decide_eq_false_iff_not]
    omega
  rw [digits_of_append appended, While.run_of_refused refused]
  rfl

theorem digits_next
    (appended : buffer.append (ntoaDigit uppercase (value % base)) = .ok next)
    (more : value / base ≠ 0) (room : next.len < ntoaBufferSize) :
    buffer.digits uppercase base value = next.digits uppercase base (value / base) := by
  have guarded : (digitLoop uppercase base).guard (value / base, next) = true := by
    simp [digitLoop, more, room]
  rw [digits_of_append appended, While.run_of_guarded guarded, bind_assoc]
  rfl

theorem Holds.digits (holds : buffer.Holds text) (uppercase : Bool) (base value : ℕ) {room : ℕ}
    (room_eq : text.length + (room + 1) = ntoaBufferSize) :
    ∃ next, buffer.digits uppercase base value = .ok next ∧
      next.Holds (text ++ ntoaDigits uppercase base (room + 1) value) := by
  induction room generalizing buffer text value with
  | zero =>
      rcases holds.append (by omega) (ntoaDigit uppercase (value % base)) with
        ⟨next, appended, nextHolds⟩
      have length := nextHolds.len_eq
      rw [List.length_append, List.length_singleton] at length
      refine ⟨next, digits_last appended (Or.inr (by omega)), ?_⟩
      simpa [ntoaDigits] using nextHolds
  | succ room ih =>
      rcases holds.append (by omega) (ntoaDigit uppercase (value % base)) with
        ⟨next, appended, nextHolds⟩
      have length := nextHolds.len_eq
      rw [List.length_append, List.length_singleton] at length
      rw [ntoaDigits]
      by_cases more : value / base = 0
      · refine ⟨next, digits_last appended (Or.inl more), ?_⟩
        simpa [more] using nextHolds
      · rw [digits_next appended more (by omega), if_pos more]
        have rest := ih nextHolds (value / base) (by simp; omega)
        simpa using rest

end

/-- The hash flag takes back digits to make room for its own characters. -/
def takeBack (base : ℕ) (prec width : U32) (flags : Flags) (buffer : NtoaBuffer) : NtoaBuffer :=
  if !flags.precision && buffer.len ≠ 0 &&
      (buffer.len = prec.toNat || buffer.len = width.toNat) then
    let shorter := { buffer with len := buffer.len - 1 }
    if shorter.len ≠ 0 && base = 16 then { shorter with len := shorter.len - 1 } else shorter
  else
    buffer

def mark (base : ℕ) (flags : Flags) (buffer : NtoaBuffer) : Except Failure NtoaBuffer :=
  if base = 16 && !flags.uppercase && buffer.len < ntoaBufferSize then buffer.append 'x'
  else if base = 16 && flags.uppercase && buffer.len < ntoaBufferSize then buffer.append 'X'
  else if base = 2 && buffer.len < ntoaBufferSize then buffer.append 'b'
  else .ok buffer

/-- The part of `_ntoa_format` that handles the hash flag. -/
def hash (base : ℕ) (prec width : U32) (flags : Flags) (buffer : NtoaBuffer) :
    Except Failure NtoaBuffer := do
  let buffer ← (buffer.takeBack base prec width flags).mark base flags
  buffer.appendIfRoom '0'

/-- The leading zeros. The second loop tests the zero flag in its condition. -/
def leadingZeros (prec width : U32) (flags : Flags) (buffer : NtoaBuffer) :
    Except Failure NtoaBuffer :=
  if !flags.left then do
    let buffer ← (fillZeros prec.toNat).run buffer
    if flags.zeropad then (fillZeros width.toNat).run buffer else pure buffer
  else
    .ok buffer

/-- The sign, or the space in its place. -/
def sign (negative : Bool) (flags : Flags) (buffer : NtoaBuffer) : Except Failure NtoaBuffer :=
  if buffer.len < ntoaBufferSize then
    if negative then buffer.append '-'
    else if flags.plus then buffer.append '+'
    else if flags.space then buffer.append ' '
    else .ok buffer
  else
    .ok buffer

end NtoaBuffer

/-! ### Output of a number -/

section

variable {Sink : Type} (out : OutFct Sink) (maxlen : U64)

/-- `while (len) out(buf[--len], ...)`. -/
def emitReversed (buf : Vector Char ntoaBufferSize) :
    ℕ → Cursor Sink → Except Failure (Cursor Sink)
  | 0, cursor => .ok cursor
  | len + 1, cursor =>
      if inside : len < ntoaBufferSize then
        emitReversed buf len (emit out maxlen (buf.get ⟨len, inside⟩) cursor)
      else
        .error .overrun

/-- `_out_rev`. -/
def outRev (buffer : NtoaBuffer) (width : U32) (flags : Flags) (cursor : Cursor Sink) :
    Except Failure (Cursor Sink) := do
  let startIdx := cursor.idx
  let cursor :=
    if !flags.left && !flags.zeropad then padFrom out maxlen buffer.len width cursor else cursor
  let cursor ← emitReversed out maxlen buffer.buf buffer.len cursor
  return if flags.left then padRight out maxlen startIdx width cursor else cursor

/-- What is left of the width beside a sign in front of leading zeros. -/
def signWidth (negative : Bool) (width : U32) (flags : Flags) : U32 :=
  if !flags.left && (width ≠ 0 && flags.zeropad && (negative || flags.plus || flags.space)) then
    width - 1
  else
    width

/-- `_ntoa_format`. -/
def ntoaFormat (buffer : NtoaBuffer) (negative : Bool) (base : ℕ) (prec width : U32)
    (flags : Flags) (cursor : Cursor Sink) : Except Failure (Cursor Sink) := do
  let width := signWidth negative width flags
  let buffer ← buffer.leadingZeros prec width flags
  let buffer ← (if flags.hash then buffer.hash base prec width flags else .ok buffer)
  let buffer ← buffer.sign negative flags
  outRev out maxlen buffer width flags cursor

/-- `_ntoa_long` and `_ntoa_long_long`, with `stack` where `buf` is put. -/
def ntoaLong (stack : Vector Char ntoaBufferSize) (value : ℕ) (negative : Bool) (base : ℕ)
    (prec width : U32) (flags : Flags) (cursor : Cursor Sink) :
    Except Failure (Cursor Sink) := do
  let flags := if value = 0 then { flags with hash := false } else flags
  let buffer ←
    (if !flags.precision || value ≠ 0 then
      NtoaBuffer.digits flags.uppercase base value ⟨stack, 0⟩
    else .ok ⟨stack, 0⟩)
  ntoaFormat out maxlen buffer negative base prec width flags cursor

end

/-! ### It puts out what the conversion says -/

namespace NtoaBuffer.Holds

variable {buffer : NtoaBuffer} {text : List Char}

theorem takeBack (holds : buffer.Holds text) (base : ℕ) (prec width : U32) (flags : Flags) :
    (buffer.takeBack base prec width flags).Holds
      (if !flags.precision && text.length ≠ 0 &&
          (text.length = prec.toNat || text.length = width.toNat) then
        if base = 16 then text.dropLast.dropLast else text.dropLast
      else text) := by
  have once := holds.dropLast
  rw [NtoaBuffer.takeBack, ← holds.len_eq]
  split
  · by_cases isHex : base = 16
    · by_cases empty : buffer.len - 1 = 0
      · have none : text.dropLast = [] := by
          rw [← List.length_eq_zero_iff, ← once.len_eq]
          exact empty
        simpa [isHex, empty, none] using once
      · simpa [isHex, empty] using once.dropLast
    · simpa [isHex] using once
  · exact holds

theorem mark (holds : buffer.Holds text) (base : ℕ) (flags : Flags) :
    ∃ next, buffer.mark base flags = .ok next ∧
      next.Holds
        (if base = 16 && !flags.uppercase then pushChar text 'x'
        else if base = 16 && flags.uppercase then pushChar text 'X'
        else if base = 2 then pushChar text 'b'
        else text) := by
  by_cases room : text.length < ntoaBufferSize
  · have pushed (character : Char) : ∃ next, buffer.append character = .ok next ∧
        next.Holds (pushChar text character) := by
      rw [pushChar, if_pos room]
      exact holds.append room character
    simp only [NtoaBuffer.mark, holds.len_eq, room, decide_true, Bool.and_true, decide_eq_true_eq]
    split_ifs
    · exact pushed 'x'
    · exact pushed 'X'
    · exact pushed 'b'
    · exact ⟨buffer, rfl, holds⟩
  · simp only [NtoaBuffer.mark, holds.len_eq, room, pushChar, decide_false, Bool.and_false,
      if_false, ite_self]
    exact ⟨buffer, rfl, holds⟩

theorem hash (holds : buffer.Holds text) (base : ℕ) (prec width : U32) (flags : Flags) :
    ∃ next, buffer.hash base prec width flags = .ok next ∧
      next.Holds (hashFormat text base prec.toNat width.toNat flags) := by
  rcases (holds.takeBack base prec width flags).mark base flags with ⟨marked, ran, marks⟩
  rcases marks.appendIfRoom '0' with ⟨next, appended, nextHolds⟩
  exact ⟨next, bind_eq_ok_iff.mpr ⟨marked, ran, appended⟩, nextHolds⟩

theorem leadingZeros (holds : buffer.Holds text) (prec width : U32) (flags : Flags) :
    ∃ next, buffer.leadingZeros prec width flags = .ok next ∧
      next.Holds
        (if flags.left then text
        else
          let text := padZeros text prec.toNat
          if flags.zeropad then padZeros text width.toNat else text) := by
  rw [NtoaBuffer.leadingZeros]
  cases flags.left with
  | true => exact ⟨buffer, rfl, holds⟩
  | false =>
      rcases holds.fillZeros prec.toNat with ⟨first, ran, firstHolds⟩
      rcases firstHolds.fillZeros width.toNat with ⟨second, ranOn, secondHolds⟩
      cases flags.zeropad with
      | true => exact ⟨second, bind_eq_ok_iff.mpr ⟨first, ran, ranOn⟩, secondHolds⟩
      | false => exact ⟨first, bind_eq_ok_iff.mpr ⟨first, ran, rfl⟩, firstHolds⟩

theorem sign (holds : buffer.Holds text) (negative : Bool) (flags : Flags) :
    ∃ next, buffer.sign negative flags = .ok next ∧
      next.Holds
        (if negative then pushChar text '-'
        else if flags.plus then pushChar text '+'
        else if flags.space then pushChar text ' '
        else text) := by
  by_cases room : text.length < ntoaBufferSize
  · simp only [NtoaBuffer.sign, holds.len_eq, room, pushChar, if_true]
    split_ifs
    · exact holds.append room '-'
    · exact holds.append room '+'
    · exact holds.append room ' '
    · exact ⟨buffer, rfl, holds⟩
  · simp only [NtoaBuffer.sign, holds.len_eq, room, pushChar, if_false, ite_self]
    exact ⟨buffer, rfl, holds⟩

end NtoaBuffer.Holds

section

variable {Sink : Type} (out : OutFct Sink) (maxlen : U64) {buffer : NtoaBuffer} {text : List Char}

theorem emitReversed_eq (holds : buffer.Holds text) {len : ℕ} (inside : len ≤ text.length)
    (cursor : Cursor Sink) :
    emitReversed out maxlen buffer.buf len cursor =
      .ok (emitAll out maxlen (text.take len).reverse cursor) := by
  induction len generalizing cursor with
  | zero => rfl
  | succ len ih =>
      have fits := holds.fits
      have here : text[len]? = some text[len] := List.getElem?_eq_getElem inside
      rw [emitReversed, dif_pos (show len < ntoaBufferSize by omega),
        holds.reads here, ih (Nat.le_of_lt inside), List.take_add_one, here, List.reverse_append]
      rfl

theorem outRev_eq (holds : buffer.Holds text) (width : U32) (flags : Flags)
    (cursor : Cursor Sink) :
    outRev out maxlen buffer width flags cursor =
      .ok (emitAll out maxlen (Console.outRev text width.toNat flags) cursor) := by
  have reversed (start : Cursor Sink) :
      emitReversed out maxlen buffer.buf buffer.len start =
        .ok (emitAll out maxlen text.reverse start) := by
    rw [holds.len_eq, emitReversed_eq out maxlen holds (Nat.le_refl _), List.take_length]
  rw [outRev, Console.outRev]
  cases left : flags.left with
  | false =>
      cases zeropad : flags.zeropad with
      | false =>
          simp [reversed, padFrom_eq, emitAll_append, ← holds.len_eq]
      | true => simp [reversed]
  | true =>
      have fits := holds.fits
      have idx_eq : (emitAll out maxlen text.reverse cursor).idx =
          cursor.idx + BitVec.ofNat 64 text.length := by
        rw [idx_emitAll, List.length_reverse]
      have padded := padRight_of_idx_eq out maxlen idx_eq
        (Nat.lt_of_le_of_lt fits (by decide)) width
      simp [reversed, emitAll_append, padded]

theorem toNat_signWidth (negative : Bool) (width : U32) (flags : Flags) :
    (signWidth negative width flags).toNat =
      if !flags.left && width.toNat ≠ 0 && flags.zeropad &&
        (negative || flags.plus || flags.space) then width.toNat - 1 else width.toNat := by
  rw [signWidth]
  by_cases zero : width = 0
  · simp [zero]
  · have pred := toNat_sub_one zero
    have positive : width.toNat ≠ 0 := by omega
    simp only [ne_eq, zero, positive, not_false_eq_true, decide_true, Bool.true_and,
      Bool.and_true, Bool.and_assoc]
    split_ifs
    · exact Nat.eq_sub_of_add_eq pred
    · rfl

theorem ntoaFormat_eq (holds : buffer.Holds text) (negative : Bool) (base : ℕ)
    (prec width : U32) (flags : Flags) (cursor : Cursor Sink) :
    ntoaFormat out maxlen buffer negative base prec width flags cursor =
      .ok (emitAll out maxlen
        (Console.ntoaFormat text negative base prec.toNat width.toNat flags) cursor) := by
  rw [ntoaFormat, Console.ntoaFormat, ← toNat_signWidth]
  generalize signWidth negative width flags = width
  rcases holds.leadingZeros prec width flags with ⟨filled, ran, fills⟩
  generalize (if flags.left then text else _) = zeros at fills ⊢
  have hashed : ∃ next,
      (if flags.hash then filled.hash base prec width flags else .ok filled) = .ok next ∧
      next.Holds (if flags.hash then hashFormat zeros base prec.toNat width.toNat flags
        else zeros) := by
    split_ifs
    · exact fills.hash base prec width flags
    · exact ⟨filled, rfl, fills⟩
  rcases hashed with ⟨hashed, ranOn, marks⟩
  rcases marks.sign negative flags with ⟨signed, ranOut, signs⟩
  simp only [bind_eq_ok_iff]
  exact ⟨filled, ran, hashed, ranOn, signed, ranOut, outRev_eq out maxlen signs width flags cursor⟩

theorem ntoaLong_eq (stack : Vector Char ntoaBufferSize) (value : ℕ) (negative : Bool)
    (base : ℕ) (prec width : U32) (flags : Flags) (cursor : Cursor Sink) :
    ntoaLong out maxlen stack value negative base prec width flags cursor =
      .ok (emitAll out maxlen
        (Console.ntoaLong value negative base prec.toNat width.toNat flags) cursor) := by
  have empty := NtoaBuffer.holds_nil stack
  rw [ntoaLong, Console.ntoaLong]
  generalize (if value = 0 then { flags with hash := false } else flags) = flags
  have written : ∃ next,
      (if !flags.precision || value ≠ 0 then
        NtoaBuffer.digits flags.uppercase base value ⟨stack, 0⟩
      else .ok ⟨stack, 0⟩) = .ok next ∧
      next.Holds (if !flags.precision || value ≠ 0 then
        ntoaDigits flags.uppercase base ntoaBufferSize value else []) := by
    split_ifs
    · exact empty.digits flags.uppercase base value (show 0 + (31 + 1) = ntoaBufferSize by rfl)
    · exact ⟨_, rfl, empty⟩
  rcases written with ⟨buffer, ran, holds⟩
  exact bind_eq_ok_iff.mpr
    ⟨buffer, ran, ntoaFormat_eq out maxlen holds negative base prec width flags cursor⟩

end

end Benamos.Console.Output
