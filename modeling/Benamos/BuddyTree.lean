import Mathlib.Order.CompletePartialOrder
import Mathlib.Order.Interval.Set.Disjoint
import Mathlib.Order.Interval.Set.LinearOrder
import Mathlib.Algebra.Order.Ring.Nat
import Mathlib.Tactic.Common

/-!
# The binary buddy tree

A block of order `o` and number `k` covers the base units from `k * 2 ^ o` up to, but not
including, `(k + 1) * 2 ^ o`. The blocks of all orders form a forest of binary trees: the children
of `(o + 1, k)` are `(o, 2 * k)` and `(o, 2 * k + 1)`.

The central fact is that two blocks cover a common unit exactly when one is an ancestor of the
other, so the covered intervals are laminar. The last section scales the units to byte ranges
`[base + start * unit, base + stop * unit)` and transports laminarity to them.
-/

namespace BuddyTree

/-- A block of a buddy tree: its order and its number among the blocks of that order. -/
@[ext]
structure Block where
  order : ℕ
  index : ℕ
deriving DecidableEq, Repr

namespace Block

def start (block : Block) : ℕ := block.index * 2 ^ block.order

def stop (block : Block) : ℕ := (block.index + 1) * 2 ^ block.order

def units (block : Block) : Set ℕ := Set.Ico block.start block.stop

def Overlaps (first second : Block) : Prop := (first.units ∩ second.units).Nonempty

/-- `ancestor` is `block` itself or lies above it in the tree. -/
def IsAncestor (ancestor block : Block) : Prop :=
  block.order ≤ ancestor.order ∧
    block.index / 2 ^ (ancestor.order - block.order) = ancestor.index

def IsProperAncestor (ancestor block : Block) : Prop :=
  ancestor ≠ block ∧ ancestor.IsAncestor block

instance (ancestor block : Block) : Decidable (ancestor.IsAncestor block) := by
  unfold IsAncestor
  infer_instance

theorem stop_eq (block : Block) : block.stop = block.start + 2 ^ block.order := by
  simp [stop, start, Nat.add_mul]

theorem start_lt_stop (block : Block) : block.start < block.stop := by
  rw [stop_eq]
  have := Nat.two_pow_pos block.order
  omega

theorem mem_units {block : Block} {unit : ℕ} :
    unit ∈ block.units ↔ unit / 2 ^ block.order = block.index := by
  have positive := Nat.two_pow_pos block.order
  rw [units, Set.mem_Ico, start, stop, Nat.div_eq_iff positive]
  constructor
  · rintro ⟨lower, upper⟩
    exact ⟨lower, by rw [Nat.add_mul] at upper; omega⟩
  · rintro ⟨lower, upper⟩
    refine ⟨lower, ?_⟩
    rw [Nat.add_mul]
    omega

theorem isAncestor_refl (block : Block) : block.IsAncestor block := by
  simp [IsAncestor]

theorem eq_of_isAncestor_of_order_eq {ancestor block : Block}
    (above : ancestor.IsAncestor block) (sameOrder : ancestor.order = block.order) :
    ancestor = block := by
  rcases above with ⟨_, quotient⟩
  ext
  · exact sameOrder
  · simpa [sameOrder] using quotient.symm

theorem IsProperAncestor.order_lt {ancestor block : Block}
    (above : ancestor.IsProperAncestor block) : block.order < ancestor.order := by
  rcases above with ⟨distinct, isAncestor⟩
  rcases Nat.lt_or_eq_of_le isAncestor.1 with smaller | sameOrder
  · exact smaller
  · exact absurd (eq_of_isAncestor_of_order_eq isAncestor sameOrder.symm) distinct

/-- Units are numbered so that a block's number is the quotient of any of its units. -/
theorem isAncestor_of_mem_units {ancestor block : Block} {unit : ℕ}
    (orderLe : block.order ≤ ancestor.order) (inAncestor : unit ∈ ancestor.units)
    (inBlock : unit ∈ block.units) : ancestor.IsAncestor block := by
  rw [mem_units] at inAncestor inBlock
  refine ⟨orderLe, ?_⟩
  rw [← inBlock, ← inAncestor, Nat.div_div_eq_div_mul, ← Nat.pow_add,
    Nat.add_sub_cancel' orderLe]

theorem units_subset_of_isAncestor {ancestor block : Block}
    (above : ancestor.IsAncestor block) : block.units ⊆ ancestor.units := by
  intro unit inBlock
  rcases above with ⟨orderLe, quotient⟩
  rw [mem_units] at inBlock ⊢
  rw [← quotient, ← inBlock, Nat.div_div_eq_div_mul, ← Nat.pow_add,
    Nat.add_sub_cancel' orderLe]

theorem start_mem_units (block : Block) : block.start ∈ block.units :=
  ⟨Nat.le_refl _, block.start_lt_stop⟩

/-- Two blocks cover a common unit exactly when one is an ancestor of the other. -/
theorem overlaps_iff (first second : Block) :
    first.Overlaps second ↔ first.IsAncestor second ∨ second.IsAncestor first := by
  constructor
  · rintro ⟨unit, inFirst, inSecond⟩
    rcases Nat.le_total second.order first.order with orderLe | orderLe
    · exact Or.inl (isAncestor_of_mem_units orderLe inFirst inSecond)
    · exact Or.inr (isAncestor_of_mem_units orderLe inSecond inFirst)
  · rintro (above | above)
    · exact ⟨second.start, units_subset_of_isAncestor above second.start_mem_units,
        second.start_mem_units⟩
    · exact ⟨first.start, first.start_mem_units,
        units_subset_of_isAncestor above first.start_mem_units⟩

instance (first second : Block) : Decidable (first.Overlaps second) :=
  decidable_of_iff _ (overlaps_iff first second).symm

/-- The order of a block is determined by how many units it covers. -/
theorem order_le_of_units_subset {inner outer : Block} (subset : inner.units ⊆ outer.units) :
    inner.order ≤ outer.order := by
  have bounds := (Set.Ico_subset_Ico_iff inner.start_lt_stop).mp subset
  rw [stop_eq, stop_eq] at bounds
  have powers : 2 ^ inner.order ≤ 2 ^ outer.order := by omega
  exact (Nat.pow_le_pow_iff_right (by omega)).mp powers

theorem units_subset_iff (inner outer : Block) :
    inner.units ⊆ outer.units ↔ outer.IsAncestor inner := by
  constructor
  · intro subset
    exact isAncestor_of_mem_units (order_le_of_units_subset subset)
      (subset inner.start_mem_units) inner.start_mem_units
  · exact units_subset_of_isAncestor

end Block

/-! ### Byte ranges -/

namespace Block

/-- The bytes of a block when base unit `n` starts at `base + n * unit`. -/
def bytes (base unit : ℕ) (block : Block) : Set ℕ :=
  Set.Ico (base + block.start * unit) (base + block.stop * unit)

theorem bytes_subset_iff {base unit : ℕ} (unitPos : 0 < unit) (inner outer : Block) :
    inner.bytes base unit ⊆ outer.bytes base unit ↔ outer.IsAncestor inner := by
  have scaled : base + inner.start * unit < base + inner.stop * unit :=
    Nat.add_lt_add_left (Nat.mul_lt_mul_of_pos_right inner.start_lt_stop unitPos) _
  rw [← units_subset_iff, bytes, bytes, units, units, Set.Ico_subset_Ico_iff scaled,
    Set.Ico_subset_Ico_iff inner.start_lt_stop, Nat.add_le_add_iff_left, Nat.add_le_add_iff_left,
    Nat.mul_le_mul_right_iff unitPos, Nat.mul_le_mul_right_iff unitPos]

theorem bytes_disjoint_iff {base unit : ℕ} (unitPos : 0 < unit) (first second : Block) :
    Disjoint (first.bytes base unit) (second.bytes base unit) ↔ ¬first.Overlaps second := by
  have unitsDisjoint : ¬first.Overlaps second ↔ Disjoint first.units second.units := by
    rw [Overlaps, Set.not_nonempty_iff_eq_empty, Set.disjoint_iff_inter_eq_empty]
  rw [unitsDisjoint, bytes, bytes, units, units, Set.Ico_disjoint_Ico, Set.Ico_disjoint_Ico]
  simp only [min_le_iff, le_max_iff, Nat.add_le_add_iff_left, Nat.mul_le_mul_right_iff unitPos]

theorem bytes_ssubset_iff {base unit : ℕ} (unitPos : 0 < unit) (inner outer : Block) :
    inner.bytes base unit ⊂ outer.bytes base unit ↔ outer.IsProperAncestor inner := by
  rw [ssubset_iff_subset_not_subset, bytes_subset_iff unitPos, bytes_subset_iff unitPos,
    IsProperAncestor]
  constructor
  · rintro ⟨above, notBelow⟩
    refine ⟨?_, above⟩
    rintro rfl
    exact notBelow outer.isAncestor_refl
  · intro proper
    refine ⟨proper.2, ?_⟩
    intro below
    have smaller := IsProperAncestor.order_lt proper
    have larger := below.1
    omega

/-- Byte ranges of a buddy layout are laminar. -/
theorem bytes_disjoint_or_subset (base : ℕ) {unit : ℕ} (unitPos : 0 < unit) (first second : Block) :
    Disjoint (first.bytes base unit) (second.bytes base unit) ∨
      first.bytes base unit ⊆ second.bytes base unit ∨
      second.bytes base unit ⊆ first.bytes base unit := by
  rw [bytes_disjoint_iff unitPos, bytes_subset_iff unitPos, bytes_subset_iff unitPos,
    overlaps_iff]
  tauto

end Block

end BuddyTree
