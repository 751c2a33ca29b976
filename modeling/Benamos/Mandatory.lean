import Benamos.Types
import Benamos.Copying
import Benamos.X86.Memory

/-!
# `memmove` of `mandatory.c`

Ranges that overlap are copied upwards when the source lies above the destination and downwards when
it lies below. Both loops are the same copy through an order of the offsets, and the comparison of
the addresses picks the order in which no byte is read after it was written.
-/

namespace Benamos

open X86 Copying

theorem toNat_succ {i n : U64} (below : i < n) : (i + 1).toNat = i.toNat + 1 := by
  have small : i.toNat < n.toNat := below
  have inside := n.isLt
  exact @toNat_add_ofNat i 1 (by omega)

theorem toNat_pred {i : U64} (positive : 0 < i) : (i - 1).toNat = i.toNat - 1 :=
  @toNat_sub_ofNat i 1 positive

/-- The loop of `memmove` that counts up. -/
def copyForward (dest src n i : U64) (memory : Memory) : Memory :=
  if i < n then
    copyForward dest src n (i + 1) (Function.update memory (dest + i) (memory (src + i)))
  else
    memory
termination_by n.toNat - i.toNat
decreasing_by
  have below : i < n := by assumption
  have small : i.toNat < n.toNat := below
  rw [toNat_succ below]
  omega

/-- The loop of `memmove` that counts down. -/
def copyBackward (dest src i : U64) (memory : Memory) : Memory :=
  if 0 < i then
    copyBackward dest src (i - 1)
      (Function.update memory (dest + (i - 1)) (memory (src + (i - 1))))
  else
    memory
termination_by i.toNat
decreasing_by
  have positive : 0 < i := by assumption
  have above : 0 < i.toNat := positive
  rw [toNat_pred positive]
  omega

/-- The address it returns and the memory it leaves. -/
def memmove (dest src n : U64) (memory : Memory) : U64 × Memory :=
  if src > dest then
    (dest, copyForward dest src n 0 memory)
  else if src < dest then
    (dest, copyBackward dest src n memory)
  else
    (dest, memory)

/-! ### The order of the offsets -/

def byteAt (start : U64) (offset : ℕ) : U64 := start + BitVec.ofNat 64 offset

theorem byteAt_toNat (start offset : U64) : byteAt start offset.toNat = start + offset := by
  rw [byteAt, BitVec.ofNat_toNat, BitVec.setWidth_eq]

theorem byteAt_ne {start other : U64} {offset place : ℕ} (inside : start.toNat + offset < 2 ^ 64)
    (otherInside : other.toNat + place < 2 ^ 64)
    (apart : start.toNat + offset ≠ other.toNat + place) :
    byteAt start offset ≠ byteAt other place := by
  intro same
  apply apart
  rw [← toNat_add_ofNat inside, ← toNat_add_ofNat otherInside]
  exact congrArg BitVec.toNat same

theorem copyForward_eq (dest src n i : U64) (memory : Memory) (inside : i ≤ n) :
    copyForward dest src n i memory =
      copyAll (byteAt dest) (byteAt src) (List.range' i.toNat (n.toNat - i.toNat)) memory := by
  fun_induction copyForward dest src n i memory with
  | case1 i memory below ih =>
      have small : i.toNat < n.toNat := below
      have next := toNat_succ below
      have rest : n.toNat - i.toNat = n.toNat - (i + 1).toNat + 1 := by omega
      rw [ih, rest, List.range'_succ, copyAll_cons, byteAt_toNat, byteAt_toNat, next]
      rw [BitVec.le_def]
      omega
  | case2 i memory above =>
      have large : n.toNat ≤ i.toNat := Nat.le_of_not_lt above
      rw [Nat.sub_eq_zero_of_le large, List.range'_zero, copyAll_nil]

theorem copyBackward_eq (dest src i : U64) (memory : Memory) :
    copyBackward dest src i memory =
      copyAll (byteAt dest) (byteAt src) (List.range i.toNat).reverse memory := by
  fun_induction copyBackward dest src i memory with
  | case1 i memory positive ih =>
      have above : 1 ≤ i.toNat := positive
      have previous := toNat_pred positive
      have last : i.toNat = (i - 1).toNat + 1 := by omega
      rw [ih, last, List.range_succ, List.reverse_append, List.reverse_singleton,
        List.singleton_append, copyAll_cons, byteAt_toNat, byteAt_toNat]
  | case2 i memory zero =>
      have none : i.toNat = 0 := Nat.eq_zero_of_not_pos zero
      rw [none, List.range_zero, List.reverse_nil, copyAll_nil]

section

variable {dest src n : U64}

theorem ordered_forward (below : dest < src) (destFits : dest.toNat + n.toNat ≤ 2 ^ 64)
    (srcFits : src.toNat + n.toNat ≤ 2 ^ 64) :
    Ordered (byteAt dest) (byteAt src) (List.range' 0 n.toNat) := by
  have apart : dest.toNat < src.toNat := below
  apply List.Pairwise.imp_of_mem _ List.pairwise_lt_range'
  intro earlier later earlierMem laterMem before
  simp only [List.mem_range'_1] at earlierMem laterMem
  constructor
  · apply byteAt_ne <;> omega
  · apply byteAt_ne <;> omega

theorem ordered_backward (above : src < dest) (destFits : dest.toNat + n.toNat ≤ 2 ^ 64) :
    Ordered (byteAt dest) (byteAt src) (List.range n.toNat).reverse := by
  have apart : src.toNat < dest.toNat := above
  rw [Ordered, List.pairwise_reverse]
  apply List.Pairwise.imp_of_mem _ List.pairwise_lt_range
  intro later earlier laterMem earlierMem before
  rw [List.mem_range] at earlierMem laterMem
  constructor
  · apply byteAt_ne <;> omega
  · apply byteAt_ne <;> omega

/-- What both loops leave: the range at `dest` holds what the range at `src` held, and the rest is
as it was. -/
structure Moved (dest src n : U64) (memory after : Memory) : Prop where
  copied : ∀ offset < n.toNat, after (byteAt dest offset) = memory (byteAt src offset)
  outside : ∀ place, (∀ offset < n.toNat, place ≠ byteAt dest offset) → after place = memory place

theorem moved_of_ordered {order : List ℕ} (memory : Memory)
    (ordered : Ordered (byteAt dest) (byteAt src) order)
    (mem_iff : ∀ offset, offset ∈ order ↔ offset < n.toNat) :
    Moved dest src n memory (copyAll (byteAt dest) (byteAt src) order memory) where
  copied offset inside := copyAll_target ordered memory ((mem_iff offset).mpr inside)
  outside place apart := by
    apply copyAll_outside
    intro offset mem
    exact apart offset ((mem_iff offset).mp mem)

theorem moved_copyForward (memory : Memory) (below : dest < src)
    (destFits : dest.toNat + n.toNat ≤ 2 ^ 64) (srcFits : src.toNat + n.toNat ≤ 2 ^ 64) :
    Moved dest src n memory (copyForward dest src n 0 memory) := by
  rw [copyForward_eq dest src n 0 memory (BitVec.le_def.mpr (Nat.zero_le _))]
  apply moved_of_ordered memory (ordered_forward below destFits srcFits)
  intro offset
  simp

theorem moved_copyBackward (memory : Memory) (above : src < dest)
    (destFits : dest.toNat + n.toNat ≤ 2 ^ 64) :
    Moved dest src n memory (copyBackward dest src n memory) := by
  rw [copyBackward_eq]
  apply moved_of_ordered memory (ordered_backward above destFits)
  intro offset
  simp

theorem moved_memmove (memory : Memory) (destFits : dest.toNat + n.toNat ≤ 2 ^ 64)
    (srcFits : src.toNat + n.toNat ≤ 2 ^ 64) :
    Moved dest src n memory (memmove dest src n memory).2 := by
  rw [memmove]
  split_ifs with below above
  · exact moved_copyForward memory below destFits srcFits
  · exact moved_copyBackward memory above destFits
  · have same : dest = src := BitVec.le_antisymm (BitVec.not_lt.mp above) (BitVec.not_lt.mp below)
    rw [same]
    exact ⟨fun _ _ => rfl, fun _ _ => rfl⟩

theorem memmove_moves (dest src n : U64) (memory : Memory)
    (destFits : dest.toNat + n.toNat ≤ 2 ^ 64) (srcFits : src.toNat + n.toNat ≤ 2 ^ 64) :
    (memmove dest src n memory).1 = dest ∧
      Moved dest src n memory (memmove dest src n memory).2 := by
  refine ⟨?_, moved_memmove memory destFits srcFits⟩
  rw [memmove]
  split_ifs <;> rfl

/-- Three bytes are moved up by two, onto the last one of them. -/
theorem memmove_moves_overlapping :
    (memmove 2 0 3 (fun place => place.setWidth 8)).1 = 2 ∧
      Moved 2 0 3 (fun place => place.setWidth 8)
        (memmove 2 0 3 (fun place => place.setWidth 8)).2 :=
  memmove_moves 2 0 3 (fun place => place.setWidth 8) (by decide) (by decide)

end

end Benamos
