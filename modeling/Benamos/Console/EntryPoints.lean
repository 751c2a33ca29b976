import Benamos.Console.Formatter

/-!
# The entry points of `printf.c`

Each of them is `_vsnprintf` with an output function of its own. `snprintf` stores into a buffer
and keeps inside it, whatever the text; `printf` and `fctprintf` pass the characters on and leave
out the terminator.
-/

namespace Benamos.Console.Output

open X86

/-- A `char` as the byte it is stored as. -/
def charByte (character : Char) : U8 := BitVec.ofNat 8 character.toNat

/-- `_out_buffer`, for the buffer at this address. -/
def outBuffer (buffer : U64) : OutFct Memory := fun character idx maxlen memory =>
  if idx < maxlen then Function.update memory (buffer + idx) (charByte character) else memory

/-- `_out_null`. -/
def outNull {Sink : Type} : OutFct Sink := fun _ _ _ sink => sink

/-- `_out_char`, for the `_putchar` the library is linked with. -/
def outChar {Sink : Type} (putchar : Char → Sink → Sink) : OutFct Sink := fun character _ _ sink =>
  if character ≠ '\x00' then putchar character sink else sink

/-- `_out_fct`, where `fct` changes what its second argument points to. -/
def outFct {Arg : Type} (fct : Char → Arg → Arg) : OutFct Arg := fun character _ _ arg =>
  if character ≠ '\x00' then fct character arg else arg

section

variable (stack : Vector Char ntoaBufferSize)

/-- `vsnprintf_`. A null pointer makes `_vsnprintf` drop the characters. -/
def vsnprintf_ (buffer count : U64) (format : List Char) (va : List Vararg) (memory : Memory) :
    Except Failure (Memory × U32) :=
  if buffer = 0 then vsnprintf outNull count stack memory format va
  else vsnprintf (outBuffer buffer) count stack memory format va

def snprintf_ (buffer count : U64) (format : List Char) (va : List Vararg) (memory : Memory) :
    Except Failure (Memory × U32) :=
  vsnprintf_ stack buffer count format va memory

def vprintf_ {Sink : Type} (putchar : Char → Sink → Sink) (format : List Char) (va : List Vararg)
    (sink : Sink) : Except Failure (Sink × U32) :=
  vsnprintf (outChar putchar) (-1) stack sink format va

def printf_ {Sink : Type} (putchar : Char → Sink → Sink) (format : List Char) (va : List Vararg)
    (sink : Sink) : Except Failure (Sink × U32) :=
  vprintf_ stack putchar format va sink

def fctprintf {Arg : Type} (out : Char → Arg → Arg) (arg : Arg) (format : List Char)
    (va : List Vararg) : Except Failure (Arg × U32) :=
  vsnprintf (outFct out) (-1) stack arg format va

end

/-! ### A bounded buffer -/

/-- The C string at this address. -/
structure StringAt (memory : Memory) (address : U64) (text : List Char) : Prop where
  characters : ∀ line (inside : line < text.length),
    memory (address + BitVec.ofNat 64 line) = charByte text[line]
  terminator : memory (address + BitVec.ofNat 64 text.length) = 0

section

variable {buffer maxlen : U64} {text : List Char} {memory : Memory} {idx place : U64}

theorem offset_toNat (buffer idx : U64) : (buffer + idx - buffer).toNat = idx.toNat := by
  rw [BitVec.add_comm, BitVec.add_sub_cancel]

theorem outBuffer_of_ne {character : Char} (apart : (place - buffer).toNat ≠ idx.toNat) :
    outBuffer buffer character idx maxlen memory place = memory place := by
  rw [outBuffer]
  split_ifs
  · apply Function.update_of_ne
    rintro rfl
    exact apart (offset_toNat buffer idx)
  · rfl

theorem outBuffer_of_le {character : Char} (full : maxlen.toNat ≤ idx.toNat) :
    outBuffer buffer character idx maxlen memory = memory :=
  if_neg (Nat.not_lt.mpr full)

theorem outBuffer_self (character : Char) (room : idx.toNat < maxlen.toNat) :
    outBuffer buffer character idx maxlen memory (buffer + idx) = charByte character := by
  rw [outBuffer, if_pos (show idx < maxlen from room), Function.update_self]

theorem toNat_idx_succ (fits : idx.toNat + (text.length + 1) < 2 ^ 64) :
    (idx + 1).toNat = idx.toNat + 1 :=
  @toNat_add_ofNat idx 1 (by omega)

theorem emitAll_outBuffer_outside (fits : idx.toNat + text.length < 2 ^ 64)
    (outside : (place - buffer).toNat < idx.toNat ∨
      min maxlen.toNat (idx.toNat + text.length) ≤ (place - buffer).toNat) :
    (emitAll (outBuffer buffer) maxlen text ⟨memory, idx⟩).buffer place = memory place := by
  induction text generalizing memory idx with
  | nil => rfl
  | cons character text ih =>
      have next := toNat_idx_succ fits
      rw [List.length_cons] at outside fits
      rw [emitAll_cons, emit]
      dsimp only
      rw [ih (by omega) (by omega)]
      by_cases here : (place - buffer).toNat = idx.toNat
      · rw [outBuffer_of_le (by omega)]
      · exact outBuffer_of_ne here

theorem emitAll_outBuffer_inside (fits : idx.toNat + text.length < 2 ^ 64) {line : ℕ}
    (inside : line < text.length) (room : idx.toNat + line < maxlen.toNat) :
    (emitAll (outBuffer buffer) maxlen text ⟨memory, idx⟩).buffer
      (buffer + (idx + BitVec.ofNat 64 line)) = charByte text[line] := by
  induction text generalizing memory idx line with
  | nil => simp at inside
  | cons character text ih =>
      have next := toNat_idx_succ fits
      rw [List.length_cons] at fits inside
      rw [emitAll_cons, emit]
      dsimp only
      cases line with
      | zero =>
          rw [BitVec.add_zero]
          apply (emitAll_outBuffer_outside (by omega) _).trans
          · exact outBuffer_self character room
          · rw [offset_toNat]
            exact Or.inl (by omega)
      | succ line =>
          rw [add_ofNat_succ]
          exact ih (by omega) (by omega) (by omega)

/-- What a bounded call leaves behind: the buffer holds the part of the text that fits before a
terminator, and the memory behind that is as it was. -/
structure Written (buffer count : U64) (text : List Char) (memory after : Memory) : Prop where
  string : 0 < count.toNat → StringAt after buffer (text.take (count.toNat - 1))
  outside : ∀ place, min count.toNat (text.length + 1) ≤ (place - buffer).toNat →
    after place = memory place

theorem toNat_lastIdx (positive : 0 < maxlen.toNat) :
    (lastIdx idx maxlen).toNat = min idx.toNat (maxlen.toNat - 1) := by
  rw [lastIdx]
  split_ifs with room
  · rw [BitVec.lt_def] at room
    omega
  · have nonzero : maxlen ≠ 0 := by
      rintro rfl
      exact absurd positive (by decide)
    have pred := toNat_sub_one nonzero
    rw [BitVec.lt_def] at room
    omega

theorem written_terminated (small : text.length < 2 ^ 64) :
    Written buffer maxlen text memory
      (outBuffer buffer '\x00' (lastIdx (BitVec.ofNat 64 text.length) maxlen) maxlen
        (emitAll (outBuffer buffer) maxlen text ⟨memory, 0⟩).buffer) := by
  have fits : (0 : U64).toNat + text.length < 2 ^ 64 := by simpa using small
  have length : (BitVec.ofNat 64 text.length).toNat = text.length := by
    rw [BitVec.toNat_ofNat, Nat.mod_eq_of_lt small]
  constructor
  · intro positive
    have last := @toNat_lastIdx maxlen (BitVec.ofNat 64 text.length) positive
    rw [length] at last
    have shown : (text.take (maxlen.toNat - 1)).length =
        (lastIdx (BitVec.ofNat 64 text.length) maxlen).toNat := by
      rw [List.length_take, last, Nat.min_comm]
    constructor
    · intro line inside
      rw [shown] at inside
      have offset : (buffer + BitVec.ofNat 64 line - buffer).toNat = line := by
        rw [offset_toNat, BitVec.toNat_ofNat, Nat.mod_eq_of_lt (by omega)]
      rw [outBuffer_of_ne (by omega), List.getElem_take]
      have written := @emitAll_outBuffer_inside buffer maxlen text memory 0 fits line (by omega)
        (by simpa using (by omega : line < maxlen.toNat))
      simpa using written
    · rw [shown, BitVec.ofNat_toNat, BitVec.setWidth_eq]
      apply outBuffer_self
      omega
  · intro place outside
    have unwritten : (emitAll (outBuffer buffer) maxlen text ⟨memory, 0⟩).buffer place =
        memory place := by
      apply emitAll_outBuffer_outside fits
      right
      simpa using (by omega : min maxlen.toNat text.length ≤ (place - buffer).toNat)
    rw [← unwritten]
    rcases Nat.eq_zero_or_pos maxlen.toNat with none | positive
    · rw [outBuffer_of_le (by omega)]
    · have last := @toNat_lastIdx maxlen (BitVec.ofNat 64 text.length) positive
      rw [length] at last
      apply outBuffer_of_ne
      omega

theorem snprintf_of_formatted (stack : Vector Char ntoaBufferSize) {buffer : U64} (count : U64)
    {format : List Char} {va : List Vararg} (memory : Memory) (nonnull : buffer ≠ 0)
    (short : ShortStrings va) (formatted : Console.vsnprintf format va = .ok text) :
    snprintf_ stack buffer count format va memory =
      .ok (outBuffer buffer '\x00' (lastIdx (BitVec.ofNat 64 text.length) count) count
        (emitAll (outBuffer buffer) count text ⟨memory, 0⟩).buffer,
          BitVec.ofNat 32 text.length) := by
  rw [snprintf_, vsnprintf_, if_neg nonnull]
  exact vsnprintf_of_formatted _ count stack memory short formatted

/-- `snprintf` never stores outside its buffer, leaves a terminated string in it unless it has no
room at all, and returns the length the whole text would have. -/
theorem snprintf_writes (stack : Vector Char ntoaBufferSize) (buffer count : U64)
    {format : List Char} {va : List Vararg} (memory : Memory) (nonnull : buffer ≠ 0)
    (short : ShortStrings va) (formatted : Console.vsnprintf format va = .ok text)
    (small : text.length < 2 ^ 64) :
    ∃ after, snprintf_ stack buffer count format va memory =
        .ok (after, BitVec.ofNat 32 text.length) ∧
      Written buffer count text memory after := by
  rw [snprintf_of_formatted stack count memory nonnull short formatted]
  exact ⟨_, rfl, written_terminated small⟩

theorem formatted_percent : Console.vsnprintf "%d%%".toList [.word 42] = .ok "42%".toList := by
  have read : Console.directive "d%%".toList [.word 42] = .ok ("42".toList, "%%".toList, []) :=
    Console.directive_d _ [] (by decide)
  have sign : Console.directive "%".toList [] = .ok ("%".toList, [], []) := rfl
  have rest : Console.vsnprintf "%%".toList [] = .ok "%".toList := by
    apply (vsnprintf_directive sign).trans
    rw [vsnprintf_nil]
    rfl
  apply (vsnprintf_directive read).trans
  rw [rest]
  rfl

theorem shortStrings_word (value : U64) : ShortStrings [.word value] := by
  intro text mem
  simp at mem

/-- Three of the four bytes of "42%" and its terminator fit into three bytes. -/
theorem snprintf_writes_truncated :
    ∃ after, snprintf_ (Vector.replicate 32 'x') 0x1000 3 "%d%%".toList [.word 42] (fun _ => 1) =
        .ok (after, 3) ∧
      Written 0x1000 3 "42%".toList (fun _ => 1) after :=
  snprintf_writes (Vector.replicate 32 'x') 0x1000 3 (fun _ => 1) (by decide)
    (shortStrings_word 42) formatted_percent (by decide)

theorem emitAll_outNull {Sink : Type} (maxlen : U64) (text : List Char) (cursor : Cursor Sink) :
    (emitAll outNull maxlen text cursor).buffer = cursor.buffer := by
  induction text generalizing cursor with
  | nil => rfl
  | cons character text ih => exact ih _

/-- The text that a call without a buffer has measured fits into a buffer of one character more. -/
theorem snprintf_measured (stack : Vector Char ntoaBufferSize) {format : List Char}
    {va : List Vararg} (memory : Memory) (short : ShortStrings va)
    (formatted : Console.vsnprintf format va = .ok text) (small : text.length < 2 ^ 31 - 1) :
    ∃ measured : U32, snprintf_ stack 0 0 format va memory = .ok (memory, measured) ∧
      measured.toInt = text.length ∧
      ∀ buffer : U64, buffer ≠ 0 →
        ∃ after, snprintf_ stack buffer ((measured + 1).signExtend 64) format va memory =
            .ok (after, measured) ∧
          StringAt after buffer text ∧
          ∀ place, text.length < (place - buffer).toNat → after place = memory place := by
  have length : (BitVec.ofNat 32 text.length).toNat = text.length := by
    rw [BitVec.toNat_ofNat, Nat.mod_eq_of_lt (by omega)]
  have succ : (BitVec.ofNat 32 text.length + 1).toNat = text.length + 1 := by
    rw [BitVec.toNat_add, length]
    exact Nat.mod_eq_of_lt (show text.length + 1 < 2 ^ 32 by omega)
  have count : ((BitVec.ofNat 32 text.length + 1).signExtend 64).toNat = text.length + 1 := by
    have nonneg : (BitVec.ofNat 32 text.length + 1).msb = false := by
      rw [BitVec.msb_eq_decide, succ]
      exact decide_eq_false (by omega)
    rw [BitVec.signExtend_eq_setWidth_of_msb_false nonneg, BitVec.toNat_setWidth, succ]
    omega
  refine ⟨BitVec.ofNat 32 text.length, ?_, ?_, ?_⟩
  · rw [snprintf_, vsnprintf_, if_pos rfl, vsnprintf_of_formatted _ 0 stack memory short formatted,
      emitAll_outNull]
    rfl
  · rw [BitVec.toInt_eq_toNat_of_lt (by omega), length]
  · intro buffer nonnull
    have written := @written_terminated buffer ((BitVec.ofNat 32 text.length + 1).signExtend 64)
      text memory (by omega)
    have whole := written.string (by omega)
    rw [count, Nat.add_sub_cancel, List.take_length] at whole
    refine ⟨_, snprintf_of_formatted stack _ memory nonnull short formatted, whole, ?_⟩
    intro place outside
    apply written.outside
    omega

theorem snprintf_measured_percent :
    ∃ measured : U32,
      snprintf_ (Vector.replicate 32 'x') 0 0 "%d%%".toList [.word 42] (fun _ => 1) =
        .ok (fun _ => 1, measured) ∧
      measured.toInt = "42%".toList.length ∧
      ∀ buffer : U64, buffer ≠ 0 →
        ∃ after, snprintf_ (Vector.replicate 32 'x') buffer ((measured + 1).signExtend 64)
            "%d%%".toList [.word 42] (fun _ => 1) = .ok (after, measured) ∧
          StringAt after buffer "42%".toList ∧
          ∀ place, "42%".toList.length < (place - buffer).toNat → after place = 1 :=
  snprintf_measured (Vector.replicate 32 'x') (fun _ => 1) (shortStrings_word 42)
    formatted_percent (by decide)

theorem emitAll_outFct {Arg : Type} (fct : Char → Arg → Arg) (maxlen : U64) (text : List Char)
    (cursor : Cursor Arg) :
    (emitAll (outFct fct) maxlen text cursor).buffer =
      (text.filter (· ≠ '\x00')).foldl (fun arg character => fct character arg)
        cursor.buffer := by
  induction text generalizing cursor with
  | nil => rfl
  | cons character text ih =>
      rw [emitAll_cons, ih, emit, outFct]
      by_cases nul : character = '\x00'
      · simp [nul]
      · simp [nul]

/-- `fctprintf` calls its function once for each character of the text, in order, and for no
other. -/
theorem fctprintf_eq {Arg : Type} (stack : Vector Char ntoaBufferSize)
    (out : Char → Arg → Arg) (arg : Arg) (format : List Char) {va : List Vararg}
    (short : ShortStrings va) :
    fctprintf stack out arg format va =
      lift (Console.vsnprintf format va) >>= fun text =>
        .ok ((text.filter (· ≠ '\x00')).foldl (fun arg character => out character arg) arg,
          BitVec.ofNat 32 text.length) := by
  cases text_eq : Console.vsnprintf format va with
  | error fault => exact vsnprintf_of_failed _ _ stack arg short text_eq
  | ok text =>
      rw [fctprintf, vsnprintf_of_formatted _ _ stack arg short text_eq, emitAll_outFct]
      rfl

/-- `printf` is `fctprintf` with `_putchar`. -/
theorem printf_puts {Sink : Type} (stack : Vector Char ntoaBufferSize)
    (putchar : Char → Sink → Sink) (sink : Sink) (format : List Char) {va : List Vararg}
    (short : ShortStrings va) :
    printf_ stack putchar format va sink =
      lift (Console.vsnprintf format va) >>= fun text =>
        .ok ((text.filter (· ≠ '\x00')).foldl (fun sink character => putchar character sink) sink,
          BitVec.ofNat 32 text.length) :=
  fctprintf_eq stack putchar sink format short

end

end Benamos.Console.Output
