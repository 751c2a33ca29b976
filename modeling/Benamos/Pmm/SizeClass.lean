import Benamos.Pmm.Marking
import Mathlib.Order.Bounds.Basic
import Mathlib.Tactic.IntervalCases

/-!
# The size class of a request

The classes are 4K, 8K, 16K and 32K, but `alloc_page` finds the class by dividing by 4K, and it
refuses only quotients above `BUDDY_COUNT`. The class is the smallest that fits up to 12K.
-/

namespace Benamos.Pmm

/-- What `alloc_page` leaves behind when it refuses a size. -/
def refusal (size : Usize) (state : PmmState) : PmmState :=
  { state with console := state.console ++
      [⟨"Large memory requested: 0x%x. cannot fullfil request", [size]⟩] }

/-- `alloc_page` refuses the size: it reports it as too large and returns `NULL`. -/
def Refuses (size : Usize) (state : PmmState) : Prop :=
  allocPage size state = .ok .null (refusal size state)

/-! ### The paths of `alloc_page` -/

theorem allocPage_of_large {size : Usize} (large : minimalBuddyOrder size > 4) (state : PmmState) :
    allocPage size state = .ok .null (refusal size state) := by
  have largeOrder : minimalBuddyOrder size > BitVec.ofNat 64 buddyCount := large
  simp only [allocPage, if_pos largeOrder]
  rfl

/-- An order that is not refused but past the array makes `alloc_page` index past it. -/
theorem allocPage_of_outOfBounds {size : Usize} (notLarge : ¬minimalBuddyOrder size > 4)
    (outside : ¬(minimalBuddyOrder size).toNat < buddyCount) (state : PmmState) :
    allocPage size state = .error (.indexOutOfBounds (minimalBuddyOrder size)) state := by
  have notLargeOrder : ¬minimalBuddyOrder size > BitVec.ofNat 64 buddyCount := notLarge
  simp only [allocPage, if_neg notLargeOrder, headOf, dif_neg outside]
  rfl

/-- The rest of `alloc_page`, once its search of the list of `order` has come to an end. -/
def finishAllocation (order : Usize) : Option (U64 × U8) → PmmM Allocation
  | some (runs, i) => do
      setBuddyPresentUpwarsRec order i runs
      setBuddyPresentDownwardsRec order i runs
      return .block (convertPositionToAddr order i runs)
  | none => do
      printf "Out of memory in kernel. NOT GOOD!!!" []
      return .null

theorem allocPage_of_inBounds {size : Usize} (inside : (minimalBuddyOrder size).toNat < buddyCount)
    (state : PmmState) :
    allocPage size state =
      finishAllocation (minimalBuddyOrder size)
        (search (state.allocator.buddies ⟨(minimalBuddyOrder size).toNat, inside⟩).bitmaps 0)
        state := by
  have notLarge : ¬minimalBuddyOrder size > BitVec.ofNat 64 buddyCount := by
    simp only [buddyCount] at *
    bv_omega
  simp only [allocPage, if_neg notLarge, headOf, dif_pos inside]
  rfl

/-- A request that finds a block never returns. -/
theorem finishAllocation_some_ne_ok (order : Usize) (runs : U64) (i : U8) (state : PmmState)
    (allocation : Allocation) (after : PmmState) :
    finishAllocation order (some (runs, i)) state ≠ .ok allocation after := by
  have stuck := setBuddyPresentRec_ne_ok upwars ⟨order, i, runs⟩ state
  intro ok
  simp only [finishAllocation, setBuddyPresentUpwarsRec, bind, EStateM.bind] at ok
  cases run : upwars.setBuddyPresentRec ⟨order, i, runs⟩ state with
  | ok value marked => exact stuck marked run
  | error fault marked => simp [run] at ok

theorem finishAllocation_none (order : Usize) (state : PmmState) :
    finishAllocation order none state = .ok .null { state with
      console := state.console ++ [⟨"Out of memory in kernel. NOT GOOD!!!", []⟩] } := rfl

theorem finishAllocation_ne_refusal (order size : Usize) (found : Option (U64 × U8))
    (state : PmmState) : finishAllocation order found state ≠ .ok .null (refusal size state) := by
  cases found with
  | none =>
      intro same
      have consoles := congrArg (fun result => (finalState result).console) same
      simp [finishAllocation_none, refusal] at consoles
  | some found => exact finishAllocation_some_ne_ok order found.1 found.2 state .null _

theorem refuses_iff (size : Usize) (state : PmmState) :
    Refuses size state ↔ minimalBuddyOrder size > 4 := by
  constructor
  · intro refuses
    by_contra notLarge
    by_cases inside : (minimalBuddyOrder size).toNat < buddyCount
    · rw [Refuses, allocPage_of_inBounds inside] at refuses
      exact finishAllocation_ne_refusal _ _ _ _ refuses
    · rw [Refuses, allocPage_of_outOfBounds notLarge inside] at refuses
      cases refuses
  · intro large
    exact allocPage_of_large large state

/-! ### The class a size is served from -/

/-- `alloc_page` serves the size from the smallest class that fits: it refuses exactly the sizes no
class fits, and the order it searches is otherwise the least one whose blocks are large enough. -/
def ServesSmallestFit (size : Usize) (state : PmmState) : Prop :=
  (Refuses size state ↔ size = 0 ∨ baseRevision * 2 ^ (buddyCount - 1) < size.toNat) ∧
    (¬(size = 0 ∨ baseRevision * 2 ^ (buddyCount - 1) < size.toNat) →
      (minimalBuddyOrder size).toNat < buddyCount ∧
        IsLeast {order : ℕ | size.toNat ≤ baseRevision * 2 ^ order}
          (minimalBuddyOrder size).toNat)

theorem toNat_minimalBuddyOrder {size : Usize} (nonzero : size ≠ 0) :
    (minimalBuddyOrder size).toNat = (size.toNat - 1) / 4096 := by
  have step : (size - 1).toNat = size.toNat - 1 := by bv_omega
  change (size - 1).toNat / 4096 = _
  rw [step]

theorem minimalBuddyOrder_zero_gt : minimalBuddyOrder 0 > 4 := by decide

theorem minimalBuddyOrder_gt_iff (size : Usize) :
    minimalBuddyOrder size > 4 ↔ size = 0 ∨ 20480 < size.toNat := by
  by_cases zero : size = 0
  · subst zero
    simp only [true_or, iff_true]
    exact minimalBuddyOrder_zero_gt
  · have quotient := toNat_minimalBuddyOrder zero
    have four : (4 : Usize).toNat = 4 := rfl
    rw [gt_iff_lt, BitVec.lt_def, quotient, four]
    simp only [zero, false_or]
    omega

theorem isLeast_order_iff {size : Usize} (nonzero : size ≠ 0) (fits : size.toNat ≤ 32768) :
    ((minimalBuddyOrder size).toNat < buddyCount ∧
        IsLeast {order : ℕ | size.toNat ≤ baseRevision * 2 ^ order}
          (minimalBuddyOrder size).toNat) ↔ size.toNat ≤ 12288 := by
  rw [toNat_minimalBuddyOrder nonzero]
  have positive : 0 < size.toNat := by bv_omega
  constructor
  · rintro ⟨inside, _, least⟩
    by_contra high
    simp only [buddyCount] at inside
    have enough : (2 : ℕ) ∈ {order : ℕ | size.toNat ≤ baseRevision * 2 ^ order} := by
      simp only [Set.mem_ofPred_eq, baseRevision]
      omega
    have := least enough
    omega
  · intro low
    refine ⟨by simp only [buddyCount]; omega, ?_, ?_⟩
    · simp only [Set.mem_ofPred_eq, baseRevision]
      have cases_of_low : (size.toNat - 1) / 4096 ≤ 2 := by omega
      interval_cases quotient : (size.toNat - 1) / 4096 <;> omega
    · intro order enough
      simp only [Set.mem_ofPred_eq, baseRevision] at enough
      by_contra smaller
      have order_lt : order < 2 := by omega
      interval_cases order <;> omega

/-- The request is served from the smallest class that fits exactly for the sizes up to three
blocks of 4K and for those no class fits. -/
theorem servesSmallestFit_iff (size : Usize) (state : PmmState) :
    ServesSmallestFit size state ↔ size.toNat ≤ 12288 ∨ 32768 < size.toNat := by
  rw [ServesSmallestFit, refuses_iff, minimalBuddyOrder_gt_iff]
  have largest : baseRevision * 2 ^ (buddyCount - 1) = 32768 := rfl
  rw [largest]
  by_cases zero : size = 0
  · simp [zero]
  · by_cases fits : size.toNat ≤ 32768
    · rw [isLeast_order_iff zero fits]
      simp only [zero, false_or]
      omega
    · simp only [zero, false_or]
      omega

/-- A request of 13K is served from the 32K class. -/
theorem not_servesSmallestFit :
    ¬∀ (size : Usize) (state : PmmState), ServesSmallestFit size state := by
  intro claim
  have least := ((claim 13312 ⟨.zero, []⟩).2 (by decide)).2.2
  have enough : (2 : ℕ) ∈ {order : ℕ | (13312 : Usize).toNat ≤ baseRevision * 2 ^ order} := by
    decide
  exact absurd (least enough) (by decide)

end Benamos.Pmm
