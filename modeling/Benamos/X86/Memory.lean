import Mathlib.Data.BitVec
import Mathlib.Tactic.Common
import Mathlib.Tactic.FinCases

/-!
# Byte-addressed memory

A 64-bit address space of bytes with little-endian loads and stores of any size. Addresses wrap
around, so the basic facts are about the distance of an address from the start of a store. The last
section is about memories that agree on an interval of the address space read as numbers, which is
how a stack that grows towards lower addresses is framed.
-/

namespace X86

abbrev Memory := BitVec 64 → BitVec 8

/-- The little-endian number in the `size` bytes from `address` on. -/
def load (memory : Memory) (address : BitVec 64) : (size : ℕ) → BitVec (8 * size)
  | 0 => 0#0
  | size + 1 => load memory (address + 1#64) size ++ memory address

/-- Writes the `size` bytes of `value` from `address` on. -/
def store (memory : Memory) (address : BitVec 64) (size : ℕ) (value : BitVec (8 * size)) : Memory :=
  fun place =>
    if (place - address).toNat < size then
      value.extractLsb' (8 * (place - address).toNat) 8
    else
      memory place

abbrev load64 (memory : Memory) (address : BitVec 64) : BitVec 64 := load memory address 8

abbrev store64 (memory : Memory) (address value : BitVec 64) : Memory :=
  store memory address 8 value

def word (bytes : Vector (BitVec 8) 8) : BitVec 64 :=
  bytes[7] ++ bytes[6] ++ bytes[5] ++ bytes[4] ++ bytes[3] ++ bytes[2] ++ bytes[1] ++ bytes[0]

/-- A mask of ones on the low bits does nothing to a cast that keeps only these. -/
theorem setWidth_and_ones {width size : ℕ} (value : BitVec width) {mask : BitVec width}
    (ones : mask.setWidth size = BitVec.allOnes size) :
    (value &&& mask).setWidth size = value.setWidth size := by
  rw [BitVec.setWidth_and, ones, BitVec.and_allOnes]

theorem store_outside {memory : Memory} {address place : BitVec 64} {size : ℕ}
    {value : BitVec (8 * size)} (outside : size ≤ (place - address).toNat) :
    store memory address size value place = memory place :=
  if_neg (Nat.not_lt.mpr outside)

theorem add_ofNat_succ (address : BitVec 64) (offset : ℕ) :
    address + BitVec.ofNat 64 (offset + 1) = address + 1#64 + BitVec.ofNat 64 offset := by
  rw [BitVec.add_assoc, BitVec.ofNat_add, BitVec.add_comm (BitVec.ofNat 64 offset)]

theorem getLsbD_load (memory : Memory) (address : BitVec 64) (size bit : ℕ)
    (inside : bit < 8 * size) :
    (load memory address size).getLsbD bit =
      (memory (address + BitVec.ofNat 64 (bit / 8))).getLsbD (bit % 8) := by
  induction size generalizing address bit with
  | zero => omega
  | succ size ih =>
      simp only [load]
      rw [BitVec.getLsbD_append]
      by_cases low : bit < 8
      · simp [low, Nat.div_eq_of_lt low, Nat.mod_eq_of_lt low]
      · rw [if_neg low, ih _ _ (by omega)]
        have quotient : bit / 8 = (bit - 8) / 8 + 1 := by omega
        have remainder : bit % 8 = (bit - 8) % 8 := by omega
        rw [quotient, remainder, add_ofNat_succ address ((bit - 8) / 8)]

theorem load_zero (address : BitVec 64) (size : ℕ) : load (fun _ => 0) address size = 0 := by
  apply BitVec.eq_of_getLsbD_eq
  intro bit inside
  simp [getLsbD_load _ _ _ _ inside]

theorem load_congr {memory other : Memory} {address : BitVec 64} {size : ℕ}
    (same : ∀ offset < size,
      memory (address + BitVec.ofNat 64 offset) = other (address + BitVec.ofNat 64 offset)) :
    load memory address size = load other address size := by
  apply BitVec.eq_of_getLsbD_eq
  intro bit inside
  rw [getLsbD_load _ _ _ _ inside, getLsbD_load _ _ _ _ inside, same _ (by omega)]

theorem add_sub_self_toNat (address : BitVec 64) {offset : ℕ} (small : offset < 2 ^ 64) :
    (address + BitVec.ofNat 64 offset - address).toNat = offset := by
  rw [BitVec.add_comm, BitVec.add_sub_cancel, BitVec.toNat_ofNat, Nat.mod_eq_of_lt small]

theorem toNat_sub_ofNat {address : BitVec 64} {offset : ℕ} (noWrap : offset ≤ address.toNat) :
    (address - BitVec.ofNat 64 offset).toNat = address.toNat - offset := by
  have inside := address.isLt
  have small : (BitVec.ofNat 64 offset).toNat = offset := by
    rw [BitVec.toNat_ofNat, Nat.mod_eq_of_lt (by omega)]
  rw [BitVec.toNat_sub_of_le, small]
  rwa [BitVec.le_def, small]

theorem toNat_add_ofNat {address : BitVec 64} {offset : ℕ}
    (noWrap : address.toNat + offset < 2 ^ 64) :
    (address + BitVec.ofNat 64 offset).toNat = address.toNat + offset := by
  have small : (BitVec.ofNat 64 offset).toNat = offset := by
    rw [BitVec.toNat_ofNat, Nat.mod_eq_of_lt (by omega)]
  rw [BitVec.toNat_add, small, Nat.mod_eq_of_lt noWrap]

theorem load_store_same (memory : Memory) (address : BitVec 64) {size : ℕ}
    (value : BitVec (8 * size)) (fits : size ≤ 2 ^ 64) :
    load (store memory address size value) address size = value := by
  apply BitVec.eq_of_getLsbD_eq
  intro bit inside
  have distance : bit / 8 < 2 ^ 64 := by omega
  rw [getLsbD_load _ _ _ _ inside, store, add_sub_self_toNat _ distance, if_pos (by omega),
    BitVec.getLsbD_extractLsb']
  simp [Nat.mod_lt, Nat.div_add_mod]

/-- A load that starts `gap` bytes after the start of a store, past its end and short of wrapping
around to it, does not see the store. -/
theorem load_store_apart (memory : Memory) {address place : BitVec 64} {size length gap : ℕ}
    (value : BitVec (8 * size)) (place_eq : place = address + BitVec.ofNat 64 gap)
    (past : size ≤ gap) (noWrap : gap + length ≤ 2 ^ 64) :
    load (store memory address size value) place length = load memory place length := by
  apply load_congr
  intro offset inside
  apply store_outside
  rw [place_eq, BitVec.add_assoc, ← BitVec.ofNat_add, add_sub_self_toNat _ (by omega)]
  omega

theorem load64_store64_same (memory : Memory) (address value : BitVec 64) :
    load64 (store64 memory address value) address = value :=
  @load_store_same memory address 8 value (by decide)

theorem load64_store64_apart (memory : Memory) {address place : BitVec 64} {gap : ℕ}
    (value : BitVec 64) (place_eq : place = address + BitVec.ofNat 64 gap) (past : 8 ≤ gap)
    (noWrap : gap + 8 ≤ 2 ^ 64) :
    load64 (store64 memory address value) place = load64 memory place :=
  @load_store_apart memory address place 8 8 gap value place_eq past noWrap

/-! ### Agreement on an interval -/

/-- The memories have the same bytes at the addresses from `low` up to, but not including,
`high`. -/
def AgreeOn (low high : ℕ) (memory other : Memory) : Prop :=
  ∀ place : BitVec 64, low ≤ place.toNat → place.toNat < high → memory place = other place

namespace AgreeOn

variable {low high : ℕ} {memory other third : Memory}

theorem refl (low high : ℕ) (memory : Memory) : AgreeOn low high memory memory :=
  fun _ _ _ => rfl

theorem symm (agree : AgreeOn low high memory other) : AgreeOn low high other memory :=
  fun place above below => (agree place above below).symm

theorem trans (first : AgreeOn low high memory other) (second : AgreeOn low high other third) :
    AgreeOn low high memory third :=
  fun place above below => (first place above below).trans (second place above below)

theorem mono {lower higher : ℕ} (agree : AgreeOn low high memory other) (above : low ≤ lower)
    (below : higher ≤ high) : AgreeOn lower higher memory other :=
  fun place isAbove isBelow => agree place (by omega) (by omega)

theorem store_below {address : BitVec 64} {size : ℕ} (value : BitVec (8 * size))
    (agree : AgreeOn low high memory other) (below : address.toNat + size ≤ low) :
    AgreeOn low high (store memory address size value) other := by
  intro place isAbove isBelow
  rw [store_outside, agree place isAbove isBelow]
  rw [BitVec.toNat_sub_of_le (by rw [BitVec.le_def]; omega)]
  omega

theorem store_apart {address : BitVec 64} {size : ℕ} (value : BitVec (8 * size))
    (agree : AgreeOn low high memory other)
    (apart : address.toNat + size ≤ low ∨ high ≤ address.toNat)
    (fits : address.toNat + size ≤ 2 ^ 64) :
    AgreeOn low high (store memory address size value) other := by
  rcases apart with below | above
  · exact agree.store_below value below
  · intro place isAbove isBelow
    have inside := address.isLt
    rw [store_outside, agree place isAbove isBelow]
    rw [BitVec.toNat_sub, Nat.mod_eq_of_lt (by omega)]
    omega

theorem load_eq {address : BitVec 64} {size : ℕ} (agree : AgreeOn low high memory other)
    (above : low ≤ address.toNat) (below : address.toNat + size ≤ high) (top : high ≤ 2 ^ 64) :
    load memory address size = load other address size := by
  apply load_congr
  intro offset inside
  have place : (address + BitVec.ofNat 64 offset).toNat = address.toNat + offset :=
    toNat_add_ofNat (by omega)
  exact agree _ (by omega) (by omega)

end AgreeOn

theorem load_store_disjoint (memory : Memory) {address place : BitVec 64} {size length : ℕ}
    (value : BitVec (8 * size))
    (apart : address.toNat + size ≤ place.toNat ∨ place.toNat + length ≤ address.toNat)
    (fits : address.toNat + size ≤ 2 ^ 64) (placeFits : place.toNat + length ≤ 2 ^ 64) :
    load (store memory address size value) place length = load memory place length := by
  have unchanged := (AgreeOn.refl place.toNat (place.toNat + length) memory).store_apart value apart
    fits
  exact unchanged.load_eq (Nat.le_refl _) (Nat.le_refl _) placeFits

end X86
