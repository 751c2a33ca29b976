import Benamos.BuddyTree
import Benamos.Pmm.Coverage
import Mathlib.Logic.Function.Iterate
import Mathlib.Tactic.IntervalCases

/-!
# The blocks the marking recursions mark

Bit `i` of bitmap `r` of the list of order `o` stands for block `64 * r + i` of that order in the
buddy tree. Marking a block should mark exactly the blocks that overlap it. The two recursions do
so only for a block of order 0 whose bit is at most 30 and whose run is a multiple of 8: the
upwards one follows only the first of the two children, the halved run and bit lose the parity of
the run, and bit 31 sets the 32 bits above it too.
-/

namespace Benamos.Pmm

def blockAt (order runs bit : ℕ) : BuddyTree.Block := ⟨order, bitmapSize * runs + bit⟩

def BuddyList.cleared (list : BuddyList) : BuddyList where
  bitmaps := list.bitmaps.map fun _ => 0
  nonempty := by simpa using list.nonempty
  addressable := by simpa using list.addressable

def BuddyAllocator.cleared (allocator : BuddyAllocator) : BuddyAllocator :=
  ⟨fun order => (allocator.buddies order).cleared⟩

@[simp]
theorem bitSet_cleared (allocator : BuddyAllocator) (order : Fin buddyCount) (runs bit : ℕ) :
    allocator.cleared.bitSet order runs bit = false := by
  simp only [BuddyAllocator.bitSet, BuddyAllocator.cleared, BuddyList.cleared, bitSet,
    List.getElem?_map]
  cases (allocator.buddies order).bitmaps[runs]? <;> simp

theorem BuddyAllocator.Covers.cleared {allocator : BuddyAllocator} {size : ℕ}
    (covers : allocator.Covers size) : allocator.cleared.Covers size := by
  intro order
  simpa [BuddyAllocator.cleared, BuddyList.cleared] using covers order

/-- The state after both recursions were run on a block, one after the other, whatever fault each
of them ended in. -/
def bothMarkings (order : Usize) (position : U8) (runs : U64) (state : PmmState) : PmmState :=
  finalState (setBuddyPresentDownwardsRec order position runs
    (finalState (setBuddyPresentUpwarsRec order position runs state)))

/-- The two recursions on a block mark the block a bit stands for. -/
def Marks (allocator : BuddyAllocator) (order : Fin buddyCount) (position : U8) (runs : U64)
    (other : Fin buddyCount) (otherRuns bit : ℕ) : Prop :=
  (bothMarkings (BitVec.ofNat 64 order) position runs ⟨allocator.cleared, []⟩).allocator.bitSet
    other otherRuns bit = true

/-- The marks of a block are those of the overlapping blocks, and every position handed on by a
call inside the array is one of a bitmap. -/
structure MarksExactly (allocator : BuddyAllocator) (order : Fin buddyCount) (position : U8)
    (runs : U64) : Prop where
  marks_iff : ∀ (other : Fin buddyCount) (otherRuns bit : ℕ), bit < bitmapSize →
    (Marks allocator order position runs other otherRuns bit ↔
      (blockAt other otherRuns bit).Overlaps (blockAt order runs.toNat position.toNat))
  position_lt : ∀ direction ∈ [upwars, downwards], ∀ steps : ℕ,
    (∀ earlier ≤ steps,
      (direction.next^[earlier] ⟨BitVec.ofNat 64 order, position, runs⟩).order.toNat
        < buddyCount) →
    (direction.next^[steps + 1] ⟨BitVec.ofNat 64 order, position, runs⟩).position.toNat
      < bitmapSize

/-! ### Single runs -/

variable {direction : Direction}

theorem finalState_of_shift_large {call : Call} (inside : call.order.toNat < buddyCount)
    (large : 32 ≤ call.position.toNat) (state : PmmState) :
    finalState (direction.setBuddyPresentRec call state) = state := by
  rw [setBuddyPresentRec_inBounds inside]
  rcases markBuddy_cases ⟨call.order.toNat, inside⟩ call.position call.runs state with
    ⟨fault, _⟩ | ⟨fault, _, _⟩ | ⟨list, _, small, _, _⟩
  · simp [fault]
  · simp [fault]
  · omega

theorem bitSet_of_first_mark (direction : Direction) (call : Call) (state : PmmState)
    (inside : call.order.toNat < buddyCount) (small : call.position.toNat < 32)
    (inList : call.runs.toNat <
      (state.allocator.buddies ⟨call.order.toNat, inside⟩).bitmaps.length)
    {bit : ℕ} (masked : (shiftedOne call.position).getLsbD bit = true) :
    (finalState (direction.setBuddyPresentRec call state)).allocator.bitSet
      ⟨call.order.toNat, inside⟩ call.runs.toNat bit = true := by
  rcases setBuddyPresentRec_marks direction inside small inList with ⟨list, bitmaps, marks⟩
  rw [marks]
  apply bitSet_of_bitSet
  simp [bitSet_marked inList bitmaps, masked]

/-- Doubling the position leaves only even bits to mark. -/
theorem upwars_marks_even {order : Fin buddyCount} {runs bit : ℕ} (bit_lt : bit < 64)
    {call : Call} {state : PmmState} (even : call.position.toNat % 2 = 0)
    (set : (finalState (upwars.setBuddyPresentRec call state)).allocator.bitSet order runs bit =
      true) :
    state.allocator.bitSet order runs bit = true ∨ bit % 2 = 0 := by
  have atEnd : ∃ last : Call, last.position.toNat % 2 = 0 ∧
      ((finalState (upwars.setBuddyPresentRec call state)).allocator.bitSet order runs bit = true →
        state.allocator.bitSet order runs bit = true ∨ bit % 2 = 0) := by
    apply exists_finalState upwars (fun call middle => call.position.toNat % 2 = 0 ∧
      (middle.allocator.bitSet order runs bit = true →
        state.allocator.bitSet order runs bit = true ∨ bit % 2 = 0)) _ _ _ ⟨even, Or.inl⟩
    rintro call middle inside list inList small bitmaps ⟨even, sofar⟩
    constructor
    · simp only [upwars]
      bv_omega
    · intro set
      rw [bitSet_marked inList bitmaps, getLsbD_shiftedOne small bit_lt] at set
      simp only [Bool.or_eq_true, Bool.and_eq_true, decide_eq_true_eq] at set
      rcases set with before | ⟨_, new | ⟨at31, _⟩⟩
      · exact sofar before
      · right
        omega
      · omega
  rcases atEnd with ⟨_, _, sofar⟩
  exact sofar set

/-- From position 30 down, the downwards recursion marks one block at each order from its own on:
the one whose run and bit are its own halved once per order. -/
theorem downwards_bitSet {size : ℕ} (order : Fin buddyCount) (runs bit : ℕ) (bit_lt : bit < 64)
    (call : Call) (state : PmmState) :
    state.allocator.Covers size → call.RunExists size → call.position.toNat ≤ 30 →
      (finalState (downwards.setBuddyPresentRec call state)).allocator.bitSet order runs bit =
        (state.allocator.bitSet order runs bit ||
          decide (call.order.toNat ≤ order ∧
            runs = call.runs.toNat / 2 ^ (order - call.order.toNat) ∧
            bit = call.position.toNat / 2 ^ (order - call.order.toNat))) := by
  apply setBuddyPresentRec_induction downwards
    (motive := fun call state result => state.allocator.Covers size → call.RunExists size →
      call.position.toNat ≤ 30 → (finalState result).allocator.bitSet order runs bit =
        (state.allocator.bitSet order runs bit ||
          decide (call.order.toNat ≤ order ∧
            runs = call.runs.toNat / 2 ^ (order - call.order.toNat) ∧
            bit = call.position.toNat / 2 ^ (order - call.order.toNat))))
  case outside =>
    intro call state outside _ _ _
    have above : ¬call.order.toNat ≤ order := by
      have := order.isLt
      omega
    simp [above]
  case pastEnd =>
    intro call state inside short covers exists_run _
    have inList := exists_run inside
    rw [covers] at short
    simp only at short
    omega
  case shifted =>
    intro call state inside _ large _ _ small
    omega
  case marked =>
    intro call state inside list inList small bitmaps after after_eq ih covers exists_run low
    have nextRuns : (downwards.next call).runs.toNat = call.runs.toNat / 2 := rfl
    have nextPosition : (downwards.next call).position.toNat = call.position.toNat / 2 := rfl
    have nextLow : (downwards.next call).position.toNat ≤ 30 := by omega
    have afterCovers : after.allocator.Covers size := by
      subst after_eq
      exact covers.marked bitmaps
    rw [ih afterCovers (downwards_runExists inside exists_run) nextLow,
      downwards_order call inside, nextRuns, nextPosition]
    subst after_eq
    rw [bitSet_marked inList bitmaps, getLsbD_shiftedOne small bit_lt, Bool.or_assoc]
    congr 1
    rw [← Bool.decide_and, ← Bool.decide_or]
    apply decide_eq_decide.mpr
    rcases Nat.lt_trichotomy call.order.toNat order with before | same | beyond
    · have step : (order : ℕ) - call.order.toNat = order - (call.order.toNat + 1) + 1 := by omega
      have different : order ≠ ⟨call.order.toNat, inside⟩ := by
        intro equal
        simp [equal] at before
      simp only [different, false_and, false_or, step, Nat.pow_succ', Nat.div_div_eq_div_mul]
      constructor <;> rintro ⟨_, rest⟩ <;> exact ⟨by omega, rest⟩
    · have equal : order = ⟨call.order.toNat, inside⟩ := Fin.ext same.symm
      simp only [equal, true_and, Nat.sub_self, Nat.pow_zero, Nat.div_one, Nat.le_refl]
      omega
    · have different : order ≠ ⟨call.order.toNat, inside⟩ := by
        intro equal
        simp [equal] at beyond
      simp only [different, false_and, false_or]
      omega

theorem upwars_bitSet_zero {size : ℕ} {position : U8} {runs : U64} {state : PmmState}
    (covers : state.allocator.Covers size) (inList : runs.toNat < size * 2 ^ 3)
    (low : position.toNat ≤ 30) (order : Fin buddyCount) (otherRuns bit : ℕ) (bit_lt : bit < 64) :
    (finalState (setBuddyPresentUpwarsRec 0 position runs state)).allocator.bitSet order otherRuns
        bit =
      (state.allocator.bitSet order otherRuns bit ||
        decide (order = 0 ∧ otherRuns = runs.toNat ∧ bit = position.toNat)) := by
  have inside : (Call.mk 0 position runs).order.toNat < buddyCount := by
    change (0 : Usize).toNat < buddyCount
    decide
  have past : ¬(upwars.next ⟨0, position, runs⟩).order.toNat < buddyCount := by
    change ¬(0 - 1 : Usize).toNat < buddyCount
    decide
  have atZero : (⟨(Call.mk 0 position runs).order.toNat, inside⟩ : Fin buddyCount) = 0 := rfl
  have listed : runs.toNat < (state.allocator.buddies 0).bitmaps.length := by
    rw [covers 0]
    exact inList
  have small : position.toNat < 32 := by omega
  rcases setBuddyPresentRec_marks upwars inside small listed with ⟨list, bitmaps, marks⟩
  rw [setBuddyPresentUpwarsRec, marks, setBuddyPresentRec_outOfBounds past, finalState_error,
    atZero, bitSet_marked listed bitmaps, getLsbD_shiftedOne small bit_lt]
  congr 1
  rw [← Bool.decide_and]
  apply decide_eq_decide.mpr
  omega

/-! ### Both runs -/

theorem marks_order_zero_iff {size : ℕ} {allocator : BuddyAllocator}
    (covers : allocator.Covers size) {position : U8} {runs : U64}
    (inList : runs.toNat < size * 2 ^ 3) (low : position.toNat ≤ 30)
    (order : Fin buddyCount) (otherRuns bit : ℕ) (bit_lt : bit < 64) :
    Marks allocator 0 position runs order otherRuns bit ↔
      otherRuns = runs.toNat / 2 ^ (order : ℕ) ∧ bit = position.toNat / 2 ^ (order : ℕ) := by
  have exists_run : (Call.mk 0 position runs).RunExists size := fun _ => inList
  have both := downwards_bitSet order otherRuns bit bit_lt ⟨0, position, runs⟩
    (finalState (setBuddyPresentUpwarsRec 0 position runs ⟨allocator.cleared, []⟩))
    (covers_finalState _ covers.cleared) exists_run low
  rw [upwars_bitSet_zero covers.cleared inList low order otherRuns bit bit_lt] at both
  have same : Marks allocator 0 position runs order otherRuns bit ↔ _ = true :=
    Eq.to_iff (congrArg (· = true) both)
  rw [same, bitSet_cleared, Bool.false_or]
  simp only [Bool.or_eq_true, decide_eq_true_eq]
  constructor
  · rintro (⟨rfl, own⟩ | ⟨_, path⟩)
    · simpa using own
    · exact path
  · intro path
    exact Or.inr ⟨Nat.zero_le _, path⟩

theorem upwars_marks_even_below {call : Call} (inside : call.order.toNat < buddyCount)
    (state : PmmState) {below : Fin buddyCount} (orderNe : (below : ℕ) ≠ call.order.toNat)
    (runs bit : ℕ) (bit_lt : bit < 64)
    (marked : (finalState (upwars.setBuddyPresentRec call state)).allocator.bitSet below runs bit =
      true) :
    state.allocator.bitSet below runs bit = true ∨ bit % 2 = 0 := by
  rw [setBuddyPresentRec_inBounds inside] at marked
  rcases markBuddy_cases ⟨call.order.toNat, inside⟩ call.position call.runs state with
    ⟨fault, _⟩ | ⟨fault, _, _⟩ | ⟨list, ok, small, inList, bitmaps⟩
  · rw [fault] at marked
    exact Or.inl marked
  · rw [fault] at marked
    exact Or.inl marked
  · rw [ok] at marked
    have nextEven : (upwars.next call).position.toNat % 2 = 0 := by
      simp only [upwars]
      bv_omega
    rcases upwars_marks_even bit_lt nextEven marked with before | even
    · have different : below ≠ ⟨call.order.toNat, inside⟩ := by
        intro equal
        exact orderNe (congrArg Fin.val equal)
      left
      simpa [bitSet_marked inList bitmaps, different] using before
    · exact Or.inr even

theorem not_marks_odd_below {allocator : BuddyAllocator} {order below : Fin buddyCount}
    (orderEq : (order : ℕ) = below + 1) (position : U8) (runs : U64) (otherRuns : ℕ) {bit : ℕ}
    (bit_lt : bit < 64) (odd : bit % 2 = 1) :
    ¬Marks allocator order position runs below otherRuns bit := by
  intro marked
  have order_toNat := toNat_ofNat_order order
  -- The downwards run stays at the block's own order and above it.
  have untouched := downwards_buddies_of_gt below ⟨BitVec.ofNat 64 order, position, runs⟩
    (finalState (setBuddyPresentUpwarsRec (BitVec.ofNat 64 order) position runs
      ⟨allocator.cleared, []⟩)) (by rw [order_toNat]; omega)
  have upMarked : (finalState (setBuddyPresentUpwarsRec (BitVec.ofNat 64 order) position runs
      ⟨allocator.cleared, []⟩)).allocator.bitSet below otherRuns bit = true := by
    simpa only [Marks, bothMarkings, BuddyAllocator.bitSet, setBuddyPresentDownwardsRec,
      untouched] using marked
  have newOrEven := upwars_marks_even_below (by rw [order_toNat]; exact order.isLt) _
    (by rw [order_toNat]; omega) otherRuns bit bit_lt upMarked
  rcases newOrEven with before | even
  · simp at before
  · omega

theorem not_marks_of_shift_large {allocator : BuddyAllocator} {order : Fin buddyCount}
    {position : U8} (large : 32 ≤ position.toNat) (runs : U64) (other : Fin buddyCount)
    (otherRuns bit : ℕ) : ¬Marks allocator order position runs other otherRuns bit := by
  have inside : (BitVec.ofNat 64 (order : ℕ)).toNat < buddyCount := by
    rw [toNat_ofNat_order]
    exact order.isLt
  simp only [Marks, bothMarkings, setBuddyPresentUpwarsRec, setBuddyPresentDownwardsRec]
  rw [finalState_of_shift_large inside large, finalState_of_shift_large inside large]
  simp

/-- At position 31 the sign extension marks the next block as well. -/
theorem marks_bit_32 {size : ℕ} {allocator : BuddyAllocator} (covers : allocator.Covers size)
    {position : U8} (at31 : position.toNat = 31) {runs : U64}
    (inList : runs.toNat < size * 2 ^ 3) : Marks allocator 0 position runs 0 runs.toNat 32 := by
  have inside : (Call.mk 0 position runs).order.toNat < buddyCount := by
    change (0 : Usize).toNat < buddyCount
    decide
  have masked : (shiftedOne position).getLsbD 32 = true := by
    rw [getLsbD_shiftedOne (by omega) (by omega)]
    simp [at31]
  have listed : runs.toNat < (allocator.cleared.buddies 0).bitmaps.length := by
    rw [covers.cleared 0]
    exact inList
  apply bitSet_of_bitSet
  exact bitSet_of_first_mark upwars ⟨0, position, runs⟩ ⟨allocator.cleared, []⟩ inside
    (by simp [at31]) listed masked

theorem downwards_position_le (steps : ℕ) (call : Call) :
    (downwards.next^[steps] call).position.toNat ≤ call.position.toNat := by
  induction steps with
  | zero => simp
  | succ steps ih =>
      rw [Function.iterate_succ_apply']
      have halved : (downwards.next (downwards.next^[steps] call)).position.toNat =
          (downwards.next^[steps] call).position.toNat / 2 := rfl
      omega

/-! ### Which blocks are marked exactly -/

theorem overlaps_leaf_iff (block : BuddyTree.Block) (index : ℕ) :
    block.Overlaps ⟨0, index⟩ ↔ index / 2 ^ block.order = block.index := by
  rw [BuddyTree.Block.overlaps_iff]
  constructor
  · rintro (above | below)
    · simpa using above.2
    · have leaf : block.order = 0 := Nat.le_zero.mp below.1
      simpa [leaf] using below.2.symm
  · intro quotient
    exact Or.inl ⟨Nat.zero_le _, by simpa using quotient⟩

theorem overlaps_odd_child (order below runs position : ℕ) (orderEq : order = below + 1) :
    (blockAt below ((2 * (bitmapSize * runs + position) + 1) / bitmapSize)
      ((2 * (bitmapSize * runs + position) + 1) % bitmapSize)).Overlaps
        (blockAt order runs position) := by
  rw [BuddyTree.Block.overlaps_iff]
  right
  simp only [BuddyTree.Block.IsAncestor, blockAt, Nat.div_add_mod]
  refine ⟨by omega, ?_⟩
  rw [orderEq, Nat.add_sub_cancel_left]
  omega

theorem order_eq_zero_of_marksExactly {allocator : BuddyAllocator} {order : Fin buddyCount}
    {position : U8} {runs : U64} (exactly : MarksExactly allocator order position runs) :
    order = 0 := by
  by_contra nonzero
  have positive : (order : ℕ) ≠ 0 := fun zero => nonzero (Fin.ext zero)
  have isLt := order.isLt
  let below : Fin buddyCount := ⟨order - 1, by omega⟩
  have orderEq : (order : ℕ) = below + 1 := by
    simp only [below]
    omega
  have bit_lt : (2 * (bitmapSize * runs.toNat + position.toNat) + 1) % bitmapSize < bitmapSize :=
    Nat.mod_lt _ (by decide)
  have childMarked := (exactly.marks_iff below _ _ bit_lt).mpr
    (overlaps_odd_child order below runs.toNat position.toNat orderEq)
  apply not_marks_odd_below orderEq position runs _ bit_lt _ childMarked
  simp only [bitmapSize]
  omega

theorem position_le_of_marksExactly {size : ℕ} {allocator : BuddyAllocator}
    (covers : allocator.Covers size) {position : U8} (position_lt : position.toNat < bitmapSize)
    {runs : U64} (inList : runs.toNat < size * 2 ^ 3)
    (exactly : MarksExactly allocator 0 position runs) : position.toNat ≤ 30 := by
  by_contra high
  by_cases at31 : position.toNat = 31
  · have extra := (exactly.marks_iff 0 runs.toNat 32 (by decide)).mp
      (marks_bit_32 covers at31 inList)
    have sameIndex := (overlaps_leaf_iff _ _).mp extra
    simp only [blockAt, bitmapSize] at sameIndex
    simp at sameIndex
    omega
  · have own := (exactly.marks_iff 0 runs.toNat position.toNat position_lt).mpr
      ((overlaps_leaf_iff _ _).mpr (by simp [blockAt]))
    exact not_marks_of_shift_large (by omega) runs 0 runs.toNat position.toNat own

theorem dvd_of_marksExactly {size : ℕ} {allocator : BuddyAllocator}
    (covers : allocator.Covers size) {position : U8} {runs : U64}
    (inList : runs.toNat < size * 2 ^ 3) (low : position.toNat ≤ 30)
    (exactly : MarksExactly allocator 0 position runs) : 8 ∣ runs.toNat := by
  have root : (blockAt (3 : Fin buddyCount) ((bitmapSize * runs.toNat + position.toNat) / 8 / 64)
      ((bitmapSize * runs.toNat + position.toNat) / 8 % 64)).Overlaps
      (blockAt (0 : Fin buddyCount) runs.toNat position.toNat) := by
    apply (overlaps_leaf_iff _ _).mpr
    change (bitmapSize * runs.toNat + position.toNat) / 2 ^ 3 = 64 * _ + _
    rw [Nat.div_add_mod, show 2 ^ 3 = 8 from rfl]
  have bit_lt : (bitmapSize * runs.toNat + position.toNat) / 8 % 64 < 64 :=
    Nat.mod_lt _ (by decide)
  have marked := (exactly.marks_iff 3 _ _ bit_lt).mpr root
  have bits := ((marks_order_zero_iff covers inList low 3 _ _ bit_lt).mp marked).2
  change _ = position.toNat / 2 ^ 3 at bits
  simp only [bitmapSize] at bits
  omega

/-- The two recursions mark exactly the overlapping blocks for the blocks of order 0 with a bit up
to 30 in every eighth run, and for no other block. -/
theorem marksExactly_iff {size : ℕ} {allocator : BuddyAllocator} (covers : allocator.Covers size)
    (order : Fin buddyCount) (position : U8) (position_lt : position.toNat < bitmapSize)
    (runs : U64) (inList : runs.toNat < (allocator.buddies order).bitmaps.length) :
    MarksExactly allocator order position runs ↔
      order = 0 ∧ position.toNat ≤ 30 ∧ 8 ∣ runs.toNat := by
  constructor
  · intro exactly
    have zero := order_eq_zero_of_marksExactly exactly
    subst zero
    rw [covers 0] at inList
    have low := position_le_of_marksExactly covers position_lt inList exactly
    exact ⟨rfl, low, dvd_of_marksExactly covers inList low exactly⟩
  · rintro ⟨rfl, low, ⟨eighth, runsEq⟩⟩
    rw [covers 0] at inList
    constructor
    · intro other otherRuns bit bit_lt
      rw [marks_order_zero_iff covers inList low other otherRuns bit bit_lt]
      have overlap := overlaps_leaf_iff (blockAt other otherRuns bit)
        (bitmapSize * runs.toNat + position.toNat)
      rw [show blockAt (0 : Fin buddyCount) runs.toNat position.toNat =
        ⟨0, bitmapSize * runs.toNat + position.toNat⟩ from rfl, overlap]
      have other_lt := other.isLt
      simp only [blockAt, bitmapSize, buddyCount] at *
      interval_cases (other : ℕ) <;> omega
    · intro direction mem steps inside
      simp only [List.mem_cons, List.not_mem_nil, or_false] at mem
      rcases mem with rfl | rfl
      · rcases steps with _ | steps
        · change (position * 2).toNat < 64
          bv_omega
        · have second := inside 1 (by omega)
          simp [upwars, buddyCount] at second
      · have shrinks := downwards_position_le (steps + 1)
          ⟨BitVec.ofNat 64 (0 : Fin buddyCount), position, runs⟩
        simp only at shrinks
        omega

theorem marksExactly_unitState : MarksExactly unitState.allocator 0 5 0 :=
  (marksExactly_iff covers_unitState 0 5 (by decide) 0 (by decide)).mpr
    ⟨rfl, by decide, by decide⟩

/-- Taking the first 8K block leaves its second 4K block unmarked. -/
theorem not_marksExactly :
    ¬∀ (size : ℕ) (allocator : BuddyAllocator), allocator.Covers size →
      ∀ (order : Fin buddyCount) (position : U8), position.toNat < bitmapSize →
      ∀ runs : U64, runs.toNat < (allocator.buddies order).bitmaps.length →
        MarksExactly allocator order position runs := by
  intro claim
  have exactly := claim 1 unitState.allocator covers_unitState 1 0 (by decide) 0 (by decide)
  exact absurd (order_eq_zero_of_marksExactly exactly) (by decide)

end Benamos.Pmm
