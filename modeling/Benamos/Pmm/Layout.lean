import Benamos.Pmm.MarkedBlocks
import Mathlib.Tactic.Ring

/-!
# The addresses of `convert_position_to_addr`

The comment in `cpu/pmm.h` gives the blocks of order `o` the size `4K * 2 ^ o`. In a buddy heap
they follow each other from one base address, which makes their byte ranges laminar. The code
multiplies the order, the position and the run instead, and so meets that layout only for the
first block of each order.
-/

namespace Benamos.Pmm

structure Slot where
  order : Fin buddyCount
  position : Fin bitmapSize
  runs : U64

namespace Slot

def size (slot : Slot) : ℕ := baseRevision * 2 ^ (slot.order : ℕ)

/-- The slot's place among the blocks of its order. -/
def number (slot : Slot) : ℕ := bitmapSize * slot.runs.toNat + slot.position

def block (slot : Slot) : BuddyTree.Block := ⟨slot.order, slot.number⟩

def address (slot : Slot) : ℕ :=
  (convertPositionToAddr (BitVec.ofNat 64 slot.order) (BitVec.ofNat 8 slot.position)
    slot.runs).toNat

def range (slot : Slot) : Set ℕ := Set.Ico slot.address (slot.address + slot.size)

def NoWrap (slot : Slot) : Prop := (slot.number + 1) * slot.size ≤ 2 ^ 64

theorem number_mul_size (slot : Slot) :
    slot.number * slot.size = slot.block.start * baseRevision := by
  simp only [size, block, BuddyTree.Block.start]
  ring

theorem stop_mul_baseRevision (slot : Slot) :
    slot.block.stop * baseRevision = slot.number * slot.size + slot.size := by
  simp only [size, block, BuddyTree.Block.stop]
  ring

end Slot

/-- The slots lie in memory as the blocks of one buddy heap: they follow each other from one base,
and their ranges are disjoint, equal or nested, nested exactly along the tree. -/
structure IsHeapLayout (slots : Set Slot) : Prop where
  based : ∃ base : ℕ, ∀ slot ∈ slots, slot.address = base + slot.number * slot.size
  laminar : ∀ first ∈ slots, ∀ second ∈ slots,
    Disjoint first.range second.range ∨ first.range = second.range ∨
      first.range ⊂ second.range ∨ second.range ⊂ first.range
  nested_iff : ∀ inner ∈ slots, ∀ outer ∈ slots,
    (inner.range ⊂ outer.range ↔ outer.block.IsProperAncestor inner.block)

theorem isHeapLayout_of_based {slots : Set Slot} (base : ℕ)
    (based : ∀ slot ∈ slots, slot.address = base + slot.number * slot.size) :
    IsHeapLayout slots := by
  have range_eq : ∀ slot ∈ slots, slot.range = slot.block.bytes base baseRevision := by
    intro slot mem
    rw [Slot.range, BuddyTree.Block.bytes, based slot mem, slot.stop_mul_baseRevision,
      ← slot.number_mul_size, Nat.add_assoc]
  refine ⟨⟨base, based⟩, ?_, ?_⟩
  · intro first firstMem second secondMem
    rw [range_eq first firstMem, range_eq second secondMem]
    have unitPos : 0 < baseRevision := by decide
    rcases BuddyTree.Block.bytes_disjoint_or_subset base unitPos first.block second.block with
      disjoint | inside | inside
    · exact Or.inl disjoint
    · rcases eq_or_ssubset_of_subset inside with equal | proper
      · exact Or.inr (Or.inl equal)
      · exact Or.inr (Or.inr (Or.inl proper))
    · rcases eq_or_ssubset_of_subset inside with equal | proper
      · exact Or.inr (Or.inl equal.symm)
      · exact Or.inr (Or.inr (Or.inr proper))
  · intro inner innerMem outer outerMem
    rw [range_eq inner innerMem, range_eq outer outerMem]
    exact BuddyTree.Block.bytes_ssubset_iff (by decide) _ _

theorem toNat_mul_le (left right : U64) : (left * right).toNat ≤ left.toNat * right.toNat := by
  rw [BitVec.toNat_mul]
  exact Nat.mod_le _ _

/-- Whether or not the product wraps, it is at most the product of the indices. -/
theorem address_le (slot : Slot) :
    slot.address ≤ slot.order * baseRevision * (slot.position * slot.runs.toNat) := by
  have position_lt := slot.position.isLt
  have positionEq : ((BitVec.ofNat 8 (slot.position : ℕ)).setWidth 64).toNat =
      slot.position := by
    simp only [bitmapSize] at position_lt
    simp
    omega
  have orderEq := toNat_ofNat_order slot.order
  calc slot.address
      ≤ _ := toNat_mul_le _ _
    _ ≤ _ := Nat.mul_le_mul_right _ (toNat_mul_le _ _)
    _ ≤ _ := Nat.mul_le_mul_right _ (Nat.mul_le_mul_right _ (toNat_mul_le _ _))
    _ = slot.order * baseRevision * slot.position * slot.runs.toNat := by
        rw [positionEq, orderEq]
        rfl
    _ = _ := Nat.mul_assoc _ _ _

/-- The code puts a slot where a heap would only if the heap starts at 0 and the slot is the first
of its order. -/
theorem address_eq_iff (slot : Slot) (base : ℕ) :
    slot.address = base + slot.number * slot.size ↔
      base = 0 ∧ slot.position = 0 ∧ slot.runs = 0 := by
  constructor
  · intro equal
    have bound := address_le slot
    rw [equal, Slot.number, Slot.size] at bound
    have position_lt := slot.position.isLt
    have order_lt := slot.order.isLt
    have product : (slot.position : ℕ) * slot.runs.toNat ≤ 63 * slot.runs.toNat := by
      apply Nat.mul_le_mul_right
      simp only [bitmapSize] at position_lt
      omega
    have zeros : base = 0 ∧ (slot.position : ℕ) = 0 ∧ slot.runs.toNat = 0 := by
      simp only [bitmapSize, baseRevision, buddyCount] at bound order_lt
      interval_cases (slot.order : ℕ) <;> omega
    exact ⟨zeros.1, Fin.ext zeros.2.1, BitVec.eq_of_toNat_eq zeros.2.2⟩
  · rintro ⟨rfl, position, runs⟩
    simp [Slot.address, Slot.number, convertPositionToAddr, position, runs]

/-- The slots the code lays out as a buddy heap are the first ones of each order. -/
theorem isHeapLayout_iff (slots : Set Slot) :
    IsHeapLayout slots ↔ ∀ slot ∈ slots, slot.position = 0 ∧ slot.runs = 0 := by
  constructor
  · intro layout slot mem
    rcases layout.based with ⟨base, based⟩
    exact ((address_eq_iff slot base).mp (based slot mem)).2
  · intro first
    apply isHeapLayout_of_based 0
    intro slot mem
    exact (address_eq_iff slot 0).mpr ⟨rfl, first slot mem⟩

/-- The second 4K block of the first run is given the address of the first one. -/
theorem not_isHeapLayout : ¬IsHeapLayout {slot | slot.NoWrap} := by
  intro layout
  rcases layout.based with ⟨base, based⟩
  have second := based ⟨0, 1, 0⟩ (by simp [Slot.NoWrap, Slot.number, Slot.size]; decide)
  have impossible := ((address_eq_iff _ base).mp second).2.1
  exact absurd impossible (by decide)

end Benamos.Pmm
