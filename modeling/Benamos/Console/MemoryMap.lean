import Benamos.Console.Printf
import Benamos.Numeral

/-!
# The memory map in the boot log

`kmain` prints the memory map it gets from the bootloader, a line with the number of entries and a
line for each of them. The entries are 64-bit numbers, but `%x` and `%d` take the low 32 bits of
their arguments, so the log tells the low halves of the bases and lengths only.
-/

namespace Benamos.Console

open Checked Numeral

@[ext]
structure MemmapEntry where
  base : U64
  length : U64
  type : U64
deriving DecidableEq, Repr

/-- A memory map the bootloader may hand over. -/
structure MemoryMap where
  entries : List MemmapEntry
  few : entries.length < 2 ^ 31
  types : ∀ entry ∈ entries, entry.type.toNat < 2 ^ 31

/-! ### What `kmain` prints -/

def printEntry (entry : MemmapEntry) : Except Fault (List Char) :=
  printf "base: 0x%x, type: %d, length: 0x%x\n"
    [.word entry.base, .word entry.type, .word entry.length]

def printEntries : List MemmapEntry → Except Fault (List Char)
  | [] => .ok []
  | entry :: entries => do
      let line ← printEntry entry
      let lines ← printEntries entries
      return line ++ lines

def printMemoryMap (entries : List MemmapEntry) : Except Fault (List Char) := do
  let count ← printf "Amount of entries: %d\n" [.word (BitVec.ofNat 64 entries.length)]
  let lines ← printEntries entries
  return count ++ lines

/-! ### Reading the log -/

def readEntry (text : List Char) : Option (MemmapEntry × List Char) := do
  let text ← text.dropPrefix? "base: 0x".toList
  let (base, text) ← readNumeral 16 text
  let text ← text.dropPrefix? ", type: ".toList
  let (type, text) ← readNumeral 10 text
  let text ← text.dropPrefix? ", length: 0x".toList
  let (length, text) ← readNumeral 16 text
  let text ← text.dropPrefix? "\n".toList
  return (⟨BitVec.ofNat 64 base, BitVec.ofNat 64 length, BitVec.ofNat 64 type⟩, text)

def readEntries : ℕ → List Char → Option (List MemmapEntry × List Char)
  | 0, text => some ([], text)
  | count + 1, text => do
      let (entry, text) ← readEntry text
      let (entries, text) ← readEntries count text
      return (entry :: entries, text)

/-- The memory map a log tells, with nothing after it. -/
def readLog (text : List Char) : Option (List MemmapEntry) := do
  let text ← text.dropPrefix? "Amount of entries: ".toList
  let (count, text) ← readNumeral 10 text
  let text ← text.dropPrefix? "\n".toList
  let (entries, text) ← readEntries count text
  if text = [] then some entries else none

def RecordedFaithfully (map : MemoryMap) : Prop :=
  ∃ log, printMemoryMap map.entries = .ok log ∧ readLog log = some map.entries

/-! ### What the log tells -/

theorem dropPrefix?_append (literal text : List Char) :
    (literal ++ text).dropPrefix? literal = some text :=
  List.dropPrefix?_append_of_beq text (beq_self_eq_true literal)

def lowHalf (value : U64) : U64 := BitVec.ofNat 64 (value.toNat % 2 ^ 32)

theorem lowHalf_eq_iff (value : U64) : lowHalf value = value ↔ value.toNat < 2 ^ 32 := by
  rw [lowHalf, ← BitVec.toNat_inj, BitVec.toNat_ofNat]
  omega

def MemmapEntry.logged (entry : MemmapEntry) : MemmapEntry :=
  ⟨lowHalf entry.base, lowHalf entry.length, entry.type⟩

def entryLine (entry : MemmapEntry) : List Char :=
  "base: 0x".toList ++ (Nat.toDigits 16 (entry.base.toNat % 2 ^ 32) ++ (", type: ".toList ++
    (Nat.toDigits 10 entry.type.toNat ++ (", length: 0x".toList ++
      (Nat.toDigits 16 (entry.length.toNat % 2 ^ 32) ++ "\n".toList)))))

section

variable {base : ℕ} (usual : base = 10 ∨ base = 16) (n : ℕ)
include usual

theorem nul_notMem_toDigits : '\x00' ∉ Nat.toDigits base n := by
  apply notMem_toDigits (by omega) (by omega)
  rcases usual with rfl | rfl <;> rfl

theorem readNumeral_literal {literal : List Char} (nonempty : literal ≠ [])
    (startsNoDigit : literal.head?.bind (digitValue base) = none) (more : List Char) :
    readNumeral base (Nat.toDigits base n ++ (literal ++ more)) = some (n, literal ++ more) := by
  apply readNumeral_toDigits (by omega) (by omega)
  exact startsNoDigit_append nonempty startsNoDigit more

end

theorem printEntry_eq {entry : MemmapEntry} (small : entry.type.toNat < 2 ^ 31) :
    printEntry entry = .ok (entryLine entry) := by
  have type_eq : entry.type.toNat % 2 ^ 32 = entry.type.toNat := Nat.mod_eq_of_lt (by omega)
  have format : "base: 0x%x, type: %d, length: 0x%x\n".toList =
      "base: 0x".toList ++ '%' :: 'x' :: (", type: ".toList ++ '%' :: 'd' ::
        (", length: 0x".toList ++ '%' :: 'x' :: ("\n".toList ++ []))) := by
    decide
  unfold printEntry entryLine
  apply printf_eq_ok
  · rw [format, vsnprintf_append (by decide), vsnprintf_directive (directive_x _ _ _),
      vsnprintf_append (by decide), vsnprintf_directive (directive_d _ _ (by rwa [type_eq])),
      vsnprintf_append (by decide), vsnprintf_directive (directive_x _ _ _),
      vsnprintf_append (by decide), vsnprintf_nil, type_eq]
    simp only [Except.map, List.append_nil]
  · simp only [List.mem_append, not_or]
    exact ⟨by decide, nul_notMem_toDigits (.inr rfl) _, by decide,
      nul_notMem_toDigits (.inl rfl) _, by decide, nul_notMem_toDigits (.inr rfl) _, by decide⟩

theorem readEntry_entryLine (entry : MemmapEntry) (text : List Char) :
    readEntry (entryLine entry ++ text) = some (entry.logged, text) := by
  unfold readEntry entryLine
  simp only [List.append_assoc, dropPrefix?_append, Option.bind_eq_bind, Option.bind_some]
  rw [readNumeral_literal (.inr rfl) _ (by decide) (by decide)]
  simp only [Option.bind_some, dropPrefix?_append]
  rw [readNumeral_literal (.inl rfl) _ (by decide) (by decide)]
  simp only [Option.bind_some, dropPrefix?_append]
  rw [readNumeral_literal (.inr rfl) _ (by decide) (by decide)]
  simp only [Option.bind_some, dropPrefix?_append]
  simp [MemmapEntry.logged, lowHalf]

theorem printEntries_eq {entries : List MemmapEntry}
    (small : ∀ entry ∈ entries, entry.type.toNat < 2 ^ 31) :
    printEntries entries = .ok (entries.flatMap entryLine) := by
  induction entries with
  | nil => rfl
  | cons entry entries ih =>
      rw [List.forall_mem_cons] at small
      rw [printEntries, printEntry_eq small.1, ih small.2, List.flatMap_cons]
      rfl

theorem readEntries_flatMap (entries : List MemmapEntry) (text : List Char) :
    readEntries entries.length (entries.flatMap entryLine ++ text) =
      some (entries.map MemmapEntry.logged, text) := by
  induction entries with
  | nil => rfl
  | cons entry entries ih =>
      rw [List.length_cons, readEntries, List.flatMap_cons, List.append_assoc,
        readEntry_entryLine, Option.bind_eq_bind, Option.bind_some]
      simp only [ih, Option.bind_eq_bind, Option.bind_some]
      rfl

def countLine (count : ℕ) : List Char :=
  "Amount of entries: ".toList ++ (Nat.toDigits 10 count ++ "\n".toList)

theorem printCount_eq {count : ℕ} (few : count < 2 ^ 31) :
    printf "Amount of entries: %d\n" [.word (BitVec.ofNat 64 count)] = .ok (countLine count) := by
  have count_eq : (BitVec.ofNat 64 count).toNat % 2 ^ 32 = count := by
    rw [BitVec.toNat_ofNat]
    omega
  have format : "Amount of entries: %d\n".toList =
      "Amount of entries: ".toList ++ '%' :: 'd' :: ("\n".toList ++ []) := by
    decide
  unfold countLine
  apply printf_eq_ok
  · rw [format, vsnprintf_append (by decide),
      vsnprintf_directive (directive_d _ _ (by rwa [count_eq])), vsnprintf_append (by decide),
      vsnprintf_nil, count_eq]
    simp only [Except.map, List.append_nil]
  · simp only [List.mem_append, not_or]
    exact ⟨by decide, nul_notMem_toDigits (.inl rfl) _, by decide⟩

theorem printMemoryMap_eq (map : MemoryMap) :
    printMemoryMap map.entries =
      .ok (countLine map.entries.length ++ map.entries.flatMap entryLine) := by
  rw [printMemoryMap, printCount_eq map.few, printEntries_eq map.types]
  rfl

/-- The log tells the entries with the low halves of their bases and lengths. -/
theorem readLog_printed (entries : List MemmapEntry) :
    readLog (countLine entries.length ++ entries.flatMap entryLine) =
      some (entries.map MemmapEntry.logged) := by
  unfold readLog countLine
  simp only [List.append_assoc, dropPrefix?_append, Option.bind_eq_bind, Option.bind_some]
  rw [readNumeral_literal (.inl rfl) _ (by decide) (by decide)]
  simp only [Option.bind_some, dropPrefix?_append]
  have read := readEntries_flatMap entries []
  rw [List.append_nil] at read
  rw [read, Option.bind_some, if_pos rfl]

/-- The log is a faithful record exactly of the maps below 4 GiB. -/
theorem recordedFaithfully_iff (map : MemoryMap) :
    RecordedFaithfully map ↔
      ∀ entry ∈ map.entries, entry.base.toNat < 2 ^ 32 ∧ entry.length.toNat < 2 ^ 32 := by
  have logged_eq_iff (entry : MemmapEntry) :
      entry.logged = entry ↔ entry.base.toNat < 2 ^ 32 ∧ entry.length.toNat < 2 ^ 32 := by
    rw [MemmapEntry.ext_iff, ← lowHalf_eq_iff, ← lowHalf_eq_iff]
    simp [MemmapEntry.logged]
  have unchanged_iff : map.entries.map MemmapEntry.logged = map.entries ↔
      ∀ entry ∈ map.entries, entry.logged = entry := by
    conv_lhs => rw [← List.map_id map.entries, List.map_map]
    exact List.map_inj_left
  simp only [← logged_eq_iff, ← unchanged_iff]
  constructor
  · rintro ⟨log, printed, read⟩
    rw [printMemoryMap_eq, Except.ok.injEq] at printed
    rwa [← printed, readLog_printed, Option.some_inj] at read
  · intro unchanged
    refine ⟨_, printMemoryMap_eq map, ?_⟩
    rw [readLog_printed, unchanged]

/-- A gigabyte at 4 GiB, which is logged as a gigabyte at 0. -/
def highMap : MemoryMap where
  entries := [⟨0x100000000, 0x40000000, 0⟩]
  few := by decide
  types := by decide

theorem not_recordedFaithfully : ¬∀ map : MemoryMap, RecordedFaithfully map := by
  intro claim
  rcases claim highMap with ⟨log, printed, read⟩
  rw [printMemoryMap_eq, Except.ok.injEq] at printed
  rw [← printed, readLog_printed] at read
  revert read
  decide

end Benamos.Console
