import Mathlib.Data.List.Lex
import Benamos.Mandatory

/-!
# The byte functions of `mandatory.c` together

The compiler calls `memcpy`, `memset`, `memmove` and `memcmp` wherever it likes, so what counts is
any sequence of calls: every byte that such a sequence leaves is a byte one `memset` was given, or a
byte of the memory before, found by following the calls backwards. `memcmp` compares two ranges as
words over the bytes.
-/

namespace Benamos

open X86 Copying

/-- The loop is that of `memmove` upwards; the ranges may not overlap (`restrict`). -/
def memcpy (dest src n : U64) (memory : Memory) : U64 × Memory :=
  (dest, copyForward dest src n 0 memory)

/-- The loop of `memset`. -/
def fill (s : U64) (value : BitVec 8) (n i : U64) (memory : Memory) : Memory :=
  if i < n then
    fill s value n (i + 1) (Function.update memory (s + i) value)
  else
    memory
termination_by n.toNat - i.toNat
decreasing_by
  have below : i < n := by assumption
  have small : i.toNat < n.toNat := below
  rw [toNat_succ below]
  omega

/-- The address it returns and the memory it leaves; `c` is an `int`. -/
def memset (s : U64) (c : BitVec 32) (n : U64) (memory : Memory) : U64 × Memory :=
  (s, fill s (c.setWidth 8) n 0 memory)

/-- The loop of `memcmp`. -/
def compareFrom (s1 s2 n i : U64) (memory : Memory) : ℤ :=
  if i < n then
    if memory (s1 + i) ≠ memory (s2 + i) then
      if memory (s1 + i) < memory (s2 + i) then -1 else 1
    else
      compareFrom s1 s2 n (i + 1) memory
  else
    0
termination_by n.toNat - i.toNat
decreasing_by
  have below : i < n := by assumption
  have small : i.toNat < n.toNat := below
  rw [toNat_succ below]
  omega

def memcmp (s1 s2 n : U64) (memory : Memory) : ℤ := compareFrom s1 s2 n 0 memory

/-! ### Sequences of calls -/

inductive Call
  | memcpy (dest src n : U64)
  | memset (s : U64) (c : BitVec 32) (n : U64)
  | memmove (dest src n : U64)

namespace Call

def perform : Call → Memory → Memory
  | .memcpy dest src n, memory => (Benamos.memcpy dest src n memory).2
  | .memset s c n, memory => (Benamos.memset s c n memory).2
  | .memmove dest src n, memory => (Benamos.memmove dest src n memory).2

/-- What the language asks of the arguments: ranges inside the address space, those of `memcpy`
without a common byte. -/
def Allowed : Call → Prop
  | .memcpy dest src n =>
      dest.toNat + n.toNat ≤ 2 ^ 64 ∧ src.toNat + n.toNat ≤ 2 ^ 64 ∧
        (dest.toNat + n.toNat ≤ src.toNat ∨ src.toNat + n.toNat ≤ dest.toNat)
  | .memset s _ n => s.toNat + n.toNat ≤ 2 ^ 64
  | .memmove dest src n => dest.toNat + n.toNat ≤ 2 ^ 64 ∧ src.toNat + n.toNat ≤ 2 ^ 64

/-- The byte a place is given, or the place its byte is taken from. -/
def origin : Call → U64 → BitVec 8 ⊕ U64
  | .memcpy dest src n, place
  | .memmove dest src n, place =>
      .inr (if place - dest < n then src + (place - dest) else place)
  | .memset s c n, place => if place - s < n then .inl (c.setWidth 8) else .inr place

end Call

def performAll (calls : List Call) (memory : Memory) : Memory :=
  calls.foldl (fun memory call => call.perform memory) memory

/-- The calls followed backwards from the last one. -/
def originThrough : List Call → U64 → BitVec 8 ⊕ U64
  | [] => .inr
  | call :: later => through call.origin (originThrough later)

theorem byteAt_sub (start place : U64) : byteAt start (place - start).toNat = place := by
  rw [byteAt_toNat, BitVec.add_comm, BitVec.sub_add_cancel]

theorem sub_lt_of_byteAt {start n : U64} {offset : ℕ} (inside : offset < n.toNat) :
    byteAt start offset - start < n := by
  have small : offset < 2 ^ 64 := Nat.lt_trans inside n.isLt
  rw [byteAt, BitVec.add_comm, BitVec.add_sub_cancel, BitVec.lt_def, BitVec.toNat_ofNat,
    Nat.mod_eq_of_lt small]
  exact inside

theorem Moved.apply {dest src n : U64} {memory after : Memory}
    (moved : Moved dest src n memory after) (place : U64) :
    after place = memory (if place - dest < n then src + (place - dest) else place) := by
  split_ifs with inside
  · have copied := moved.copied (place - dest).toNat inside
    rwa [byteAt_sub, byteAt_toNat] at copied
  · apply moved.outside
    intro offset small same
    apply inside
    rw [same]
    exact sub_lt_of_byteAt small

theorem fill_apply (s : U64) (value : BitVec 8) (n i : U64) (memory : Memory) (place : U64) :
    fill s value n i memory place =
      if i ≤ place - s ∧ place - s < n then value else memory place := by
  fun_induction fill s value n i memory with
  | case1 i memory below ih =>
      have next := toNat_succ below
      rw [ih]
      by_cases here : place = s + i
      · have distance : place - s = i := by rw [here, BitVec.add_comm, BitVec.add_sub_cancel]
        simp [here, below]
      · have distance : place - s ≠ i := by
          intro same
          apply here
          rw [← same, BitVec.add_comm, BitVec.sub_add_cancel]
        have further : i + 1 ≤ place - s ↔ i ≤ place - s := by
          have apart : (place - s).toNat ≠ i.toNat := by
            intro same
            exact distance (BitVec.eq_of_toNat_eq same)
          rw [BitVec.le_def, BitVec.le_def, next]
          omega
        rw [Function.update_of_ne here]
        simp only [further]
  | case2 i memory above =>
      have outside : ¬(i ≤ place - s ∧ place - s < n) := by
        rintro ⟨from_i, to_n⟩
        exact above (Nat.lt_of_le_of_lt from_i to_n)
      exact (if_neg outside).symm

theorem moved_memcpy {dest src n : U64} (memory : Memory)
    (destFits : dest.toNat + n.toNat ≤ 2 ^ 64) (srcFits : src.toNat + n.toNat ≤ 2 ^ 64)
    (apart : dest.toNat + n.toNat ≤ src.toNat ∨ src.toNat + n.toNat ≤ dest.toNat) :
    Moved dest src n memory (memcpy dest src n memory).2 := by
  rw [memcpy, copyForward_eq dest src n 0 memory (BitVec.le_def.mpr (Nat.zero_le _))]
  apply moved_of_ordered memory
  · apply List.Pairwise.imp_of_mem _ List.pairwise_lt_range'
    intro earlier later earlierMem laterMem before
    simp only [List.mem_range'_1] at earlierMem laterMem
    constructor
    · apply byteAt_ne <;> omega
    · apply byteAt_ne <;> omega
  · intro offset
    simp

theorem Call.traces (call : Call) (allowed : call.Allowed) : Traces call.perform call.origin := by
  intro memory place
  cases call with
  | memcpy dest src n => exact (moved_memcpy memory allowed.1 allowed.2.1 allowed.2.2).apply place
  | memset s c n =>
      simp only [Call.perform, Call.origin, Benamos.memset]
      rw [fill_apply]
      by_cases inside : place - s < n
      · simp [inside]
      · simp [inside]
  | memmove dest src n => exact (moved_memmove memory allowed.1 allowed.2).apply place

theorem performAll_traces (calls : List Call) (allowed : ∀ call ∈ calls, call.Allowed) :
    Traces (performAll calls) (originThrough calls) := by
  induction calls with
  | nil => exact traces_id
  | cons call later ih =>
      rw [List.forall_mem_cons] at allowed
      exact (call.traces allowed.1).comp (ih allowed.2)

/-- After any calls, each byte is one that a `memset` was given, or one that was there before. -/
theorem calls_provenance (calls : List Call) (allowed : ∀ call ∈ calls, call.Allowed)
    (memory : Memory) (place : U64) :
    performAll calls memory place = Sum.elim id memory (originThrough calls place) :=
  performAll_traces calls allowed memory place

/-- Two bytes are cleared, the first ones are copied one place further, and the word away. -/
theorem calls_provenance_moved :
    performAll [.memset 16 0 2, .memmove 17 16 3, .memcpy 32 16 4] (fun place => place.setWidth 8)
      35 = 18 :=
  calls_provenance [.memset 16 0 2, .memmove 17 16 3, .memcpy 32 16 4] (by simp [Call.Allowed])
    (fun place => place.setWidth 8) 35

/-! ### Two ranges compared -/

def bytesFrom (memory : Memory) (start n i : U64) : List ℕ :=
  (List.range' i.toNat (n.toNat - i.toNat)).map fun offset =>
    (memory (byteAt start offset)).toNat

def bytes (memory : Memory) (start n : U64) : List ℕ := bytesFrom memory start n 0

theorem bytesFrom_cons (memory : Memory) (start : U64) {n i : U64} (below : i < n) :
    bytesFrom memory start n i =
      (memory (start + i)).toNat :: bytesFrom memory start n (i + 1) := by
  have small : i.toNat < n.toNat := below
  have next := toNat_succ below
  have rest : n.toNat - i.toNat = n.toNat - (i + 1).toNat + 1 := by omega
  rw [bytesFrom, rest, List.range'_succ, List.map_cons, byteAt_toNat, bytesFrom, next]

theorem bytesFrom_nil (memory : Memory) (start : U64) {n i : U64} (above : ¬i < n) :
    bytesFrom memory start n i = [] := by
  have large : n.toNat ≤ i.toNat := Nat.le_of_not_lt above
  rw [bytesFrom, Nat.sub_eq_zero_of_le large, List.range'_zero, List.map_nil]

/-- The sign of a result against the order of two words. -/
def Orders (result : ℤ) (left right : List ℕ) : Prop :=
  result < 0 ∧ left < right ∨ result = 0 ∧ left = right ∨ 0 < result ∧ right < left

theorem Orders.cons {result : ℤ} {left right : List ℕ} (orders : Orders result left right)
    (byte : ℕ) : Orders result (byte :: left) (byte :: right) := by
  rcases orders with ⟨negative, below⟩ | ⟨zero, same⟩ | ⟨positive, above⟩
  · exact .inl ⟨negative, List.cons_lt_cons_iff.mpr (.inr ⟨rfl, below⟩)⟩
  · exact .inr (.inl ⟨zero, by rw [same]⟩)
  · exact .inr (.inr ⟨positive, List.cons_lt_cons_iff.mpr (.inr ⟨rfl, above⟩)⟩)

/-- The first difference decides, whatever follows it. -/
theorem compareFrom_orders (s1 s2 n i : U64) (memory : Memory) :
    Orders (compareFrom s1 s2 n i memory) (bytesFrom memory s1 n i) (bytesFrom memory s2 n i) := by
  fun_induction compareFrom s1 s2 n i memory with
  | case1 i below differ smaller =>
      rw [bytesFrom_cons memory s1 below, bytesFrom_cons memory s2 below]
      exact .inl ⟨by decide, List.cons_lt_cons_iff.mpr (.inl smaller)⟩
  | case2 i below differ larger =>
      have above : (memory (s2 + i)).toNat < (memory (s1 + i)).toNat := by
        apply Nat.lt_of_le_of_ne (Nat.le_of_not_lt larger)
        intro same
        exact differ (BitVec.eq_of_toNat_eq same.symm)
      rw [bytesFrom_cons memory s1 below, bytesFrom_cons memory s2 below]
      exact .inr (.inr ⟨by decide, List.cons_lt_cons_iff.mpr (.inl above)⟩)
  | case3 i below same ih =>
      rw [bytesFrom_cons memory s1 below, bytesFrom_cons memory s2 below, not_not.mp same]
      exact ih.cons _
  | case4 i above =>
      rw [bytesFrom_nil memory s1 above, bytesFrom_nil memory s2 above]
      exact .inr (.inl ⟨rfl, rfl⟩)

theorem Orders.trichotomy {result : ℤ} {left right : List ℕ} (orders : Orders result left right) :
    (result < 0 ↔ left < right) ∧ (result = 0 ↔ left = right) ∧ (0 < result ↔ right < left) := by
  rcases orders with ⟨negative, below⟩ | ⟨zero, same⟩ | ⟨positive, above⟩
  · simp [negative, below, negative.ne, below.ne, negative.asymm, below.asymm]
  · simp [zero, same]
  · simp [positive, above, positive.ne', above.ne', positive.asymm, above.asymm]

/-- `memcmp` is the lexicographic order of the two ranges read as words over the bytes. -/
theorem memcmp_orders (s1 s2 n : U64) (memory : Memory) :
    (memcmp s1 s2 n memory < 0 ↔ bytes memory s1 n < bytes memory s2 n) ∧
      (memcmp s1 s2 n memory = 0 ↔ bytes memory s1 n = bytes memory s2 n) ∧
      (0 < memcmp s1 s2 n memory ↔ bytes memory s2 n < bytes memory s1 n) :=
  (compareFrom_orders s1 s2 n 0 memory).trichotomy

end Benamos
