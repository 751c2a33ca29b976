import Benamos.Pmm.Scan
import Benamos.Pmm.SizeClass

/-!
# What a null pointer from `alloc_page` means

`alloc_page` returns `NULL` when it refuses a size and when its scan finds nothing, and neither path
touches a bitmap. The pointer to a block that was found is a product of the block's indices, so it
is null as well for every block of order 0, in run 0 or at position 0, and for those whose product
is a multiple of the address space.
-/

namespace Benamos.Pmm

/-- A null result means failure and nothing else: it comes with every bitmap as it was, and no block
the scan finds has a null address. -/
structure NullMeansFailure (size : Usize) (state : PmmState) : Prop where
  failure_keeps : ∀ after, allocPage size state = .ok .null after →
    after.allocator = state.allocator
  block_ne_null : ∀ (inside : (minimalBuddyOrder size).toNat < buddyCount) (runs : U64) (i : U8),
    search (state.allocator.buddies ⟨(minimalBuddyOrder size).toNat, inside⟩).bitmaps 0 =
      some (runs, i) →
    convertPositionToAddr (minimalBuddyOrder size) i runs ≠ 0

theorem failure_keeps (size : Usize) {state after : PmmState}
    (failed : allocPage size state = .ok .null after) : after.allocator = state.allocator := by
  by_cases large : minimalBuddyOrder size > 4
  · rw [allocPage_of_large large, EStateM.Result.ok.injEq] at failed
    rw [← failed.2]
    rfl
  · by_cases inside : (minimalBuddyOrder size).toNat < buddyCount
    · rw [allocPage_of_inBounds inside] at failed
      cases found : search (state.allocator.buddies
        ⟨(minimalBuddyOrder size).toNat, inside⟩).bitmaps 0 with
      | none =>
          rw [found, finishAllocation_none, EStateM.Result.ok.injEq] at failed
          rw [← failed.2]
      | some pick =>
          rw [found] at failed
          exact absurd failed (finishAllocation_some_ne_ok _ _ _ _ _ _)
    · rw [allocPage_of_outOfBounds large inside] at failed
      cases failed

theorem convertPositionToAddr_eq_zero_iff (order : Usize) (position : U8) (runs : U64) :
    convertPositionToAddr order position runs = 0 ↔
      2 ^ 52 ∣ order.toNat * position.toNat * runs.toNat := by
  have product : (convertPositionToAddr order position runs).toNat =
      2 ^ 12 * (order.toNat * position.toNat * runs.toNat) % (2 ^ 12 * 2 ^ 52) := by
    have width : (position.setWidth 64).toNat = position.toNat := by
      rw [BitVec.toNat_setWidth]
      omega
    have unit : (BitVec.ofNat 64 baseRevision).toNat = 2 ^ 12 := rfl
    rw [convertPositionToAddr, BitVec.toNat_mul, BitVec.toNat_mul, BitVec.toNat_mul, width, unit,
      Nat.mod_mul_mod, Nat.mul_assoc _ position.toNat, Nat.mod_mul_mod, Nat.mul_comm order.toNat,
      Nat.mul_assoc, Nat.mul_assoc order.toNat, ← Nat.pow_add]
  rw [← BitVec.toNat_inj, product, Nat.mul_mod_mul_left]
  simp [Nat.dvd_iff_mod_eq_zero]

/-- A null pointer means failure exactly when the block the scan finds has indices whose product is
no multiple of `2 ^ 52`; in particular none of them is 0. -/
theorem nullMeansFailure_iff (size : Usize) (state : PmmState) :
    NullMeansFailure size state ↔
      ∀ (inside : (minimalBuddyOrder size).toNat < buddyCount) (runs bit : ℕ),
        FirstClear (state.allocator.buddies ⟨(minimalBuddyOrder size).toNat, inside⟩).bitmaps
          runs bit →
        ¬2 ^ 52 ∣ (minimalBuddyOrder size).toNat * bit * runs := by
  constructor
  · intro nullMeans inside runs bit first divides
    have addressable :=
      (state.allocator.buddies ⟨(minimalBuddyOrder size).toNat, inside⟩).addressable
    have runsEq : (BitVec.ofNat 64 runs).toNat = runs :=
      Nat.mod_eq_of_lt (Nat.lt_trans first.inList addressable)
    have bitEq : (BitVec.ofNat 8 bit).toNat = bit :=
      Nat.mod_eq_of_lt (Nat.lt_trans first.bit_lt (by decide))
    apply nullMeans.block_ne_null inside (BitVec.ofNat 64 runs) (BitVec.ofNat 8 bit)
    · rw [search_eq_some_iff addressable, runsEq, bitEq]
      exact first
    · rw [convertPositionToAddr_eq_zero_iff, runsEq, bitEq]
      exact divides
  · intro avoids
    constructor
    · intro after failed
      exact failure_keeps size failed
    · intro inside runs i found null
      have addressable :=
        (state.allocator.buddies ⟨(minimalBuddyOrder size).toNat, inside⟩).addressable
      have first := (search_eq_some_iff addressable runs i).mp found
      exact avoids inside runs.toNat i.toNat first
        ((convertPositionToAddr_eq_zero_iff _ _ _).mp null)

/-- The first block of a freshly zeroed order is at address 0. -/
theorem not_nullMeansFailure :
    ¬∀ (size : Usize) (state : PmmState), NullMeansFailure size state := by
  intro claim
  have nonNull := (claim 1 ⟨.zero, []⟩).block_ne_null (by decide) 0 0 (by decide)
  exact nonNull (by decide)

end Benamos.Pmm
