import Benamos.Console.Standard

/-!
# Integer conversions with the flag `#`

When the digits and the zeros in front of them are as many as the field is wide, the flag takes back
one or two characters of the buffer to make room for its mark. They are the zeros that filled the
field if there are any, and otherwise the first digits of the number.
-/

namespace Benamos.Console

/-- What the flag `#` appends to the buffer. -/
def marks (base : ℕ) (uppercase : Bool) : List Char :=
  if base = 16 then [if uppercase then 'X' else 'x', '0']
  else if base = 2 then ['b', '0']
  else ['0']

/-- How many characters it takes back first, of a buffer that is as long as the field. -/
def takenBack (length base width : ℕ) (flags : Flags) : ℕ :=
  if !flags.precision && length = width then if base = 16 then 2 else 1 else 0

theorem pushChar_eq (buf : List Char) (ch : Char) :
    pushChar buf ch = buf ++ [ch].take (ntoaBufferSize - buf.length) := by
  rw [pushChar]
  split_ifs with room
  · rw [List.take_of_length_le (by rw [List.length_singleton]; omega)]
  · rw [Nat.sub_eq_zero_of_le (Nat.not_lt.mp room), List.take_zero, List.append_nil]

theorem pushChar_pushChar (buf : List Char) (first second : Char) :
    pushChar (pushChar buf first) second =
      buf ++ [first, second].take (ntoaBufferSize - buf.length) := by
  rw [pushChar_eq, pushChar_eq, List.append_assoc]
  congr 1
  rcases room : ntoaBufferSize - buf.length with _ | _ | more
  · simp [room]
  · simp
    omega
  · simp
    omega

theorem hashFormat_eq {buf : List Char} (nonempty : buf ≠ []) (base : ℕ) {prec : ℕ} (width : ℕ)
    {flags : Flags} (noPrecision : flags.precision = false → prec = 0) :
    hashFormat buf base prec width flags =
      let kept := buf.take (buf.length - takenBack buf.length base width flags)
      kept ++ (marks base flags.uppercase).take (ntoaBufferSize - kept.length) := by
  have positive := List.length_pos_iff.mpr nonempty
  have shortened : (if !flags.precision && buf.length ≠ 0 &&
        (buf.length = prec || buf.length = width) then
      if base = 16 then buf.dropLast.dropLast else buf.dropLast else buf) =
        buf.take (buf.length - takenBack buf.length base width flags) := by
    rw [takenBack]
    cases precision : flags.precision with
    | true => simp
    | false =>
        have none := noPrecision precision
        by_cases full : buf.length = width
        · have twice : min (buf.length - 1 - 1) buf.length = buf.length - 2 := by omega
          split_ifs <;> simp_all [List.dropLast_eq_take, List.take_take]
        · simp [full, none, nonempty]
  rw [hashFormat]
  simp only [shortened]
  generalize buf.take _ = kept
  rw [marks]
  by_cases sixteen : base = 16
  · cases flags.uppercase with
    | true =>
        simp only [sixteen, decide_true, Bool.not_true, Bool.and_false, Bool.false_eq_true,
          Bool.and_true, if_false, if_true]
        exact pushChar_pushChar _ _ _
    | false =>
        simp only [sixteen, decide_true, Bool.not_false, Bool.and_true, Bool.false_eq_true,
          if_false, if_true]
        exact pushChar_pushChar _ _ _
  · simp only [sixteen, decide_false, Bool.false_and, Bool.false_eq_true, if_false]
    split_ifs with two
    · exact pushChar_pushChar _ _ _
    · exact pushChar_eq _ _

theorem ntoaFormat_hash (buf : List Char) (base prec width : ℕ) {flags : Flags}
    (hash : flags.hash = true) (plus : flags.plus = false) (space : flags.space = false) :
    ntoaFormat buf false base prec width flags =
      outRev (hashFormat (buf ++ List.replicate (fieldZeros buf.length prec width flags) '0') base
        prec width flags) width flags := by
  rw [← padZeros_fieldZeros, ntoaFormat, hash, plus, space]
  simp

/-- The buffer after the flag `#`, which took back `taken` characters and appended `mark`. -/
structure Marked (buf : List Char) (zeros taken : ℕ) (mark marked : List Char) : Prop where
  length : marked.length =
    buf.length + zeros - taken + min mark.length (ntoaBufferSize - (buf.length + zeros - taken))
  noBlank : ' ' ∉ marked
  reverse : taken ≤ zeros → marked.reverse =
    (mark.take (ntoaBufferSize - (buf.length + zeros - taken))).reverse ++
      (List.replicate (zeros - taken) '0' ++ buf.reverse)

theorem noBlank_marks (base : ℕ) (uppercase : Bool) : ' ' ∉ marks base uppercase := by
  rw [marks]
  cases uppercase <;> split_ifs <;> decide

theorem marked_hashFormat {buf : List Char} (nonempty : buf ≠ []) (noBlank : ' ' ∉ buf)
    (zeros base : ℕ) {prec : ℕ} (width : ℕ) {flags : Flags}
    (noPrecision : flags.precision = false → prec = 0) :
    Marked buf zeros (takenBack (buf.length + zeros) base width flags) (marks base flags.uppercase)
      (hashFormat (buf ++ List.replicate zeros '0') base prec width flags) := by
  have appended : buf ++ List.replicate zeros '0' ≠ [] := by simp [nonempty]
  have marked := hashFormat_eq appended base width noPrecision
  have noBlankMark := noBlank_marks base flags.uppercase
  rw [List.length_append, List.length_replicate] at marked
  generalize takenBack (buf.length + zeros) base width flags = taken at marked ⊢
  generalize marks base flags.uppercase = mark at marked noBlankMark ⊢
  refine ⟨?_, ?_, ?_⟩
  · rw [marked]
    simp only [List.length_append, List.length_take, List.length_replicate]
    omega
  · rw [marked, List.mem_append, not_or]
    constructor
    · intro mem
      have inside := List.mem_of_mem_take mem
      simp [noBlank] at inside
    · intro mem
      exact noBlankMark (List.mem_of_mem_take mem)
  · intro inZeros
    have kept : (buf ++ List.replicate zeros '0').take (buf.length + zeros - taken) =
        buf ++ List.replicate (zeros - taken) '0' := by
      rw [Nat.add_sub_assoc inZeros, List.take_length_add_append, List.take_replicate,
        Nat.min_eq_left (Nat.sub_le ..)]
    have length : buf.length + (zeros - taken) = buf.length + zeros - taken := by omega
    rw [marked]
    simp only [kept, List.reverse_append, List.length_append, List.length_replicate,
      List.reverse_replicate, length]

theorem standardNumber_octal {digits : List Char} (head : digits.head? ≠ some '0') (prec : ℕ) :
    standardNumber digits true prec =
      List.replicate (if digits.length < prec then prec - digits.length else 1) '0' ++ digits := by
  rw [standardNumber]
  by_cases long : digits.length < prec
  · have positive : prec - digits.length = prec - digits.length - 1 + 1 := by omega
    rw [if_pos long, positive, List.replicate_succ]
    simp
  · simp [Nat.sub_eq_zero_of_le (Nat.not_lt.mp long), head, long]

/-- Without blanks of its own a text is what is printed, apart from the blanks of the field. -/
theorem reverse_eq_of_outRev_eq {buf body : List Char} {inner width : ℕ} {flags : Flags}
    (noBlank : ' ' ∉ buf) (bodyNoBlank : ' ' ∉ body)
    (same : outRev buf inner flags = inField flags.left width body) : buf.reverse = body := by
  have blanks (count : ℕ) : (List.replicate count ' ').filter (· ≠ ' ') = [] := by
    simp
  have kept {text : List Char} (noBlank : ' ' ∉ text) : text.filter (· ≠ ' ') = text := by
    rw [List.filter_eq_self]
    intro ch mem
    rw [decide_eq_true_eq]
    rintro rfl
    exact noBlank mem
  have ink := congrArg (List.filter (· ≠ ' ')) same
  have reversed : ' ' ∉ buf.reverse := by rwa [List.mem_reverse]
  rw [outRev, inField] at ink
  split_ifs at ink <;>
    simpa only [List.filter_append, blanks, kept reversed, kept bodyNoBlank, List.nil_append,
      List.append_nil, List.filter_nil] using ink

section

variable {length prec width zeros taken front : ℕ} {flags : Flags}
  (positive : 0 < length) (noPrecision : flags.precision = false → prec = 0)
  (modes : flags.precision = true → flags.zeropad = false)
  (zeros_eq : fieldZeros length prec width flags = zeros)
include positive noPrecision modes zeros_eq

/-- An octal number is right if the zeros add up. -/
theorem octalConforms_iff (short : length < 32)
    (taken_eq : takenBack (length + zeros) 8 width flags = taken)
    (front_eq : (if flags.zeropad && !flags.left then
      width - ((if length < prec then prec - length else 1) + length) else 0) +
        (if length < prec then prec - length else 1) = front) :
    OctalConforms length prec width flags.precision flags.zeropad flags.left ↔
      taken ≤ zeros ∧ min 1 (32 - (length + zeros - taken)) + (zeros - taken) = front := by
  rw [fieldZeros, ntoaBufferSize] at zeros_eq
  rw [takenBack] at taken_eq
  rw [OctalConforms]
  grind

theorem octalConforms_of_length (short : length < 32)
    (taken_eq : takenBack (length + zeros) 8 width flags = taken)
    (front_eq : (if flags.zeropad && !flags.left then
      width - ((if length < prec then prec - length else 1) + length) else 0) +
        (if length < prec then prec - length else 1) = front)
    (same : length + zeros - taken + min 1 (32 - (length + zeros - taken)) = front + length) :
    OctalConforms length prec width flags.precision flags.zeropad flags.left := by
  rw [fieldZeros, ntoaBufferSize] at zeros_eq
  rw [takenBack] at taken_eq
  rw [OctalConforms]
  grind

/-- A number with a mark is right if no digit was taken back and the mark found room. -/
theorem markConforms_iff {base : ℕ} (fits : length + 2 ≤ 32)
    (taken_eq : takenBack (length + zeros) base width flags = taken)
    (front_eq : (if flags.zeropad && !flags.left then
      width - (2 + (prec - length + length)) else 0) + (prec - length) = front) :
    MarkConforms base length prec width flags.precision flags.zeropad flags.left ↔
      taken ≤ zeros ∧ length + zeros - taken ≤ 30 ∧ zeros - taken = front := by
  rw [fieldZeros, ntoaBufferSize] at zeros_eq
  rw [takenBack] at taken_eq
  rw [MarkConforms]
  grind

theorem markConforms_of_length {base : ℕ} (fits : length + 2 ≤ 32)
    (taken_eq : takenBack (length + zeros) base width flags = taken)
    (front_eq : (if flags.zeropad && !flags.left then
      width - (2 + (prec - length + length)) else 0) + (prec - length) = front)
    (whole : length + zeros - taken ≠ 31)
    (same : length + zeros - taken + min 2 (32 - (length + zeros - taken)) =
      2 + (front + length)) :
    MarkConforms base length prec width flags.precision flags.zeropad flags.left := by
  rw [fieldZeros, ntoaBufferSize] at zeros_eq
  rw [takenBack] at taken_eq
  rw [MarkConforms]
  grind

end

theorem add_fieldZeros_le {length : ℕ} (prec width : ℕ) (flags : Flags)
    (fits : length ≤ ntoaBufferSize) :
    length + fieldZeros length prec width flags ≤ ntoaBufferSize := by
  rw [fieldZeros]
  grind

theorem noBlank_zeros {digits : List Char} (noBlank : ' ' ∉ digits) (zeros : ℕ) :
    ' ' ∉ List.replicate zeros '0' ++ digits := by
  simp [noBlank]

section

variable {buf digits : List Char} (cut : Cut buf digits) (nonempty : digits ≠ [])
  (prec width : ℕ) {flags : Flags} (hash : flags.hash = true) (plus : flags.plus = false)
  (space : flags.space = false) (noPrecision : flags.precision = false → prec = 0)
  (modes : flags.precision = true → flags.zeropad = false)
include cut nonempty hash plus space noPrecision modes

theorem ntoaFormat_octal_iff (head : digits.head? ≠ some '0')
    (short : digits.length < ntoaBufferSize) :
    ntoaFormat buf false 8 prec width flags =
        inField flags.left width (standardBody [] (standardNumber digits true prec) width
          flags.zeropad flags.left) ↔
      OctalConforms digits.length prec width flags.precision flags.zeropad flags.left := by
  have length_eq : buf.length = digits.length := by
    rw [cut.length]
    omega
  have positive := List.length_pos_iff.mpr nonempty
  have bufNonempty : buf ≠ [] := List.length_pos_iff.mp (by omega)
  have marked := marked_hashFormat bufNonempty cut.bufNoBlank
    (fieldZeros buf.length prec width flags) 8 width noPrecision
  have oneMark : marks 8 flags.uppercase = List.replicate 1 '0' := rfl
  rw [ntoaFormat_hash _ _ _ _ hash plus space, standardNumber_octal head, standardBody_eq,
    List.nil_append, List.length_nil, Nat.zero_add]
  rw [length_eq, oneMark] at marked
  generalize zeros_eq : fieldZeros digits.length prec width flags = zeros at marked
  generalize taken_eq : takenBack (digits.length + zeros) 8 width flags = taken at marked
  rw [length_eq, zeros_eq]
  generalize hashFormat _ _ _ _ _ = pushed at marked ⊢
  rcases marked with ⟨length, noBlank, reverse⟩
  rw [cut.reverse (Nat.le_of_lt short), length_eq, List.take_replicate, List.reverse_replicate,
    ← List.append_assoc, List.replicate_append_replicate] at reverse
  rw [length_eq, List.length_replicate] at length
  constructor
  · intro same
    have whole := congrArg List.length
      (reverse_eq_of_outRev_eq noBlank (noBlank_zeros cut.noBlank _) same)
    rw [List.length_reverse, length, List.length_append, List.length_replicate] at whole
    exact octalConforms_of_length positive noPrecision modes zeros_eq short taken_eq rfl whole
  · intro conforms
    rcases (octalConforms_iff positive noPrecision modes zeros_eq short taken_eq rfl).mp conforms
      with ⟨inZeros, counted⟩
    rw [Nat.min_comm, ntoaBufferSize, counted] at reverse
    apply outRev_eq_inField (reverse inZeros)
    · intro zeropad left
      rw [zeropad, left, List.length_append, List.length_replicate]
      simp only [Bool.not_false, Bool.and_true, if_true]
      omega
    · intro _
      rfl

theorem ntoaFormat_mark_iff {base : ℕ} {letter : Char}
    (mark_eq : marks base flags.uppercase = [letter, '0']) (isLetter : letter ≠ '0') :
    ntoaFormat buf false base prec width flags =
        inField flags.left width (standardBody ['0', letter]
          (List.replicate (prec - digits.length) '0' ++ digits) width flags.zeropad flags.left) ↔
      MarkConforms base digits.length prec width flags.precision flags.zeropad flags.left := by
  have positive := List.length_pos_iff.mpr nonempty
  have cut_length := cut.length
  have bufNonempty : buf ≠ [] := by
    apply List.length_pos_iff.mp
    rw [cut_length, ntoaBufferSize]
    omega
  have filled := add_fieldZeros_le prec width flags (cut_length ▸ Nat.min_le_left ..)
  have marked := marked_hashFormat bufNonempty cut.bufNoBlank
    (fieldZeros buf.length prec width flags) base width noPrecision
  have noBlankLetter : ' ' ∉ ['0', letter] := by
    have noBlank := noBlank_marks base flags.uppercase
    rw [mark_eq] at noBlank
    simpa using noBlank
  rw [ntoaFormat_hash _ _ _ _ hash plus space, standardBody_eq, List.length_cons,
    List.length_singleton]
  rw [mark_eq] at marked
  generalize zeros_eq : fieldZeros buf.length prec width flags = zeros at marked filled
  generalize taken_eq : takenBack (buf.length + zeros) base width flags = taken at marked
  generalize hashFormat _ _ _ _ _ = pushed at marked ⊢
  rcases marked with ⟨length, noBlank, reverse⟩
  rw [List.length_cons, List.length_singleton, ntoaBufferSize] at length
  rw [ntoaBufferSize] at reverse filled cut_length
  constructor
  · intro same
    have whole := reverse_eq_of_outRev_eq noBlank (by
      rw [List.mem_append, not_or]
      exact ⟨noBlankLetter, noBlank_zeros cut.noBlank _⟩) same
    have lengths := congrArg List.length whole
    rw [List.length_reverse, length, List.length_append, List.length_append,
      List.length_replicate, List.length_cons, List.length_singleton] at lengths
    have length_eq : buf.length = digits.length := by omega
    rw [length_eq] at zeros_eq taken_eq lengths reverse
    apply markConforms_of_length positive noPrecision modes zeros_eq (by omega) taken_eq rfl _
      lengths
    -- With room for one character only the text would begin with the letter.
    intro oneLeft
    have reversed := reverse (by omega)
    rw [oneLeft, whole] at reversed
    simp at reversed
    exact isLetter reversed.1.symm
  · intro conforms
    have fits := conforms.1
    have length_eq : buf.length = digits.length := by omega
    rw [length_eq] at zeros_eq taken_eq reverse
    rcases (markConforms_iff positive noPrecision modes zeros_eq fits taken_eq rfl).mp conforms
      with ⟨inZeros, room, counted⟩
    have reversed := reverse inZeros
    rw [List.take_of_length_le (by rw [List.length_cons, List.length_singleton]; omega), counted,
      cut.reverse (by rw [ntoaBufferSize]; omega)] at reversed
    apply outRev_eq_inField reversed
    · intro zeropad left
      rw [zeropad, left, List.length_append, List.length_append, List.length_replicate]
      simp only [Bool.not_false, Bool.and_true, if_true, List.length_reverse, List.length_cons]
      omega
    · intro _
      rfl

end

end Benamos.Console
