import Benamos.Pmm.Scan
import Benamos.Pmm.SizeClass
import Mathlib.Order.Interval.Set.Defs
import Mathlib.Order.Disjoint

/-!
# Sequences of allocations

From the zeroed allocator the first request that is not refused never comes back: it either
indexes past `allocator.buddies` at once or finds a free bit and runs into the marking recursions.
A sequence of calls therefore returns exactly when all of its sizes are refused.
-/

namespace Benamos.Pmm

/-- A sequence of `alloc_page` calls, with the size and the result of each. -/
def allocPages : List Usize → PmmM (List (Usize × Allocation))
  | [] => pure []
  | size :: sizes => do
      let allocation ← allocPage size
      let later ← allocPages sizes
      return (size, allocation) :: later

def handedOut : Usize × Allocation → Option (Set ℕ)
  | (_, .null) => none
  | (size, .block address) => some (Set.Ico address.toNat (address.toNat + size.toNat))

/-- Every call of the sequence returns, and no byte is handed out by two of them. -/
def ServesDisjointly (sizes : List Usize) : Prop :=
  ∃ results after, allocPages sizes ⟨.zero, []⟩ = .ok results after ∧
    (results.filterMap handedOut).Pairwise Disjoint

theorem search_zero : search BuddyList.zero.bitmaps 0 = some (0, 0) := by decide

/-- From the zeroed allocator a call that returns was refused. -/
theorem large_of_allocPage_ok {size : Usize} {state after : PmmState} {allocation : Allocation}
    (zeroed : state.allocator = .zero) (ok : allocPage size state = .ok allocation after) :
    minimalBuddyOrder size > 4 := by
  by_contra notLarge
  by_cases inside : (minimalBuddyOrder size).toNat < buddyCount
  · rw [allocPage_of_inBounds inside, zeroed] at ok
    change finishAllocation _ (search BuddyList.zero.bitmaps 0) state = _ at ok
    rw [search_zero] at ok
    exact finishAllocation_some_ne_ok _ _ _ _ _ _ ok
  · rw [allocPage_of_outOfBounds notLarge inside] at ok
    cases ok

theorem allocPages_cons_ok {size : Usize} {sizes : List Usize} {state after : PmmState}
    {results : List (Usize × Allocation)}
    (ok : allocPages (size :: sizes) state = .ok results after) :
    ∃ allocation middle later, allocPage size state = .ok allocation middle ∧
      allocPages sizes middle = .ok later after := by
  simp only [allocPages, bind, EStateM.bind] at ok
  cases first : allocPage size state with
  | error fault stopped => simp [first] at ok
  | ok allocation middle =>
      simp only [first] at ok
      cases rest : allocPages sizes middle with
      | error fault stopped => simp [rest] at ok
      | ok later last =>
          simp only [rest, pure, EStateM.pure, EStateM.Result.ok.injEq] at ok
          exact ⟨allocation, middle, later, rfl, by rw [← ok.2]; exact rest⟩

theorem large_of_allocPages_ok {sizes : List Usize} {state after : PmmState}
    {results : List (Usize × Allocation)} (zeroed : state.allocator = .zero)
    (ok : allocPages sizes state = .ok results after) :
    ∀ size ∈ sizes, minimalBuddyOrder size > 4 := by
  induction sizes generalizing state after results with
  | nil => simp
  | cons size sizes ih =>
      rcases allocPages_cons_ok ok with ⟨allocation, middle, later, first, rest⟩
      have large := large_of_allocPage_ok zeroed first
      rw [allocPage_of_large large, EStateM.Result.ok.injEq] at first
      have middleZeroed : middle.allocator = .zero := by
        rw [← first.2]
        exact zeroed
      intro other mem
      rcases List.mem_cons.mp mem with rfl | mem
      · exact large
      · exact ih middleZeroed rest other mem

theorem allocPages_of_large {sizes : List Usize}
    (large : ∀ size ∈ sizes, minimalBuddyOrder size > 4)
    (state : PmmState) :
    ∃ results after, allocPages sizes state = .ok results after ∧
      results.filterMap handedOut = [] := by
  induction sizes generalizing state with
  | nil => exact ⟨[], state, rfl, rfl⟩
  | cons size sizes ih =>
      have first := allocPage_of_large (large size (by simp)) state
      rcases ih (fun other mem => large other (by simp [mem])) (refusal size state) with
        ⟨results, after, ok, none⟩
      refine ⟨(size, .null) :: results, after, ?_, by simpa [handedOut] using none⟩
      simp only [allocPages, bind, EStateM.bind, first, ok]
      rfl

/-- A sequence of requests from the zeroed allocator is served, and served disjointly, exactly when
every one of its sizes is 0 or more than five 4K blocks, so that every request is refused. -/
theorem servesDisjointly_iff (sizes : List Usize) :
    ServesDisjointly sizes ↔ ∀ size ∈ sizes, size = 0 ∨ 20480 < size.toNat := by
  simp only [← minimalBuddyOrder_gt_iff]
  constructor
  · rintro ⟨results, after, ok, _⟩
    exact large_of_allocPages_ok rfl ok
  · intro large
    rcases allocPages_of_large large ⟨.zero, []⟩ with ⟨results, after, ok, none⟩
    exact ⟨results, after, ok, by simp [none]⟩

/-- A single request of one byte does not come back. -/
theorem not_servesDisjointly : ¬∀ sizes : List Usize, ServesDisjointly sizes := by
  intro claim
  rcases claim [1] with ⟨results, after, ok, _⟩
  exact absurd (large_of_allocPages_ok rfl ok 1 (by simp)) (by decide)

end Benamos.Pmm
