import Benamos.Pmm.Marking

/-!
# Marking in an allocator whose orders cover the same memory

An allocator covers `size` runs when its order-`o` list has `size * 2 ^ (3 - o)` nodes, so that
the lists of all four orders describe the same stretch of memory. In such an allocator no marking
run leaves a list, but none returns either.
-/

namespace Benamos.Pmm

/-- The lists of all orders describe the same memory. -/
def BuddyAllocator.Covers (allocator : BuddyAllocator) (size : ℕ) : Prop :=
  ∀ order : Fin buddyCount,
    (allocator.buddies order).bitmaps.length = size * 2 ^ (buddyCount - 1 - order)

/-- An allocator of a given size with every block free. -/
def BuddyAllocator.blank (size : ℕ) (positive : 0 < size) (small : size < 2 ^ 61) :
    BuddyAllocator where
  buddies order :=
    { bitmaps := List.replicate (size * 2 ^ (buddyCount - 1 - order)) 0
      nonempty := by
        have := Nat.mul_pos positive (Nat.two_pow_pos (buddyCount - 1 - order))
        apply List.ne_nil_of_length_pos
        simpa using this
      addressable := by
        have power : 2 ^ (buddyCount - 1 - order) ≤ 2 ^ 3 :=
          Nat.pow_le_pow_right (by omega) (by simp only [buddyCount]; omega)
        have := Nat.mul_le_mul_left size power
        rw [List.length_replicate]
        omega }

theorem BuddyAllocator.covers_blank {size : ℕ} (positive : 0 < size) (small : size < 2 ^ 61) :
    (BuddyAllocator.blank size positive small).Covers size := by
  intro order
  simp [blank]

theorem BuddyAllocator.Covers.marked {allocator : BuddyAllocator} {size : ℕ}
    (covers : allocator.Covers size) {order : Fin buddyCount} {list : BuddyList}
    {runs : ℕ} {mask : U64}
    (bitmaps : list.bitmaps = (allocator.buddies order).bitmaps.modify runs (· ||| mask)) :
    (allocator.update order list).Covers size := by
  intro other
  rw [length_marked bitmaps, covers other]

theorem covers_finalState {direction : Direction} {size : ℕ} (call : Call) {state : PmmState}
    (covers : state.allocator.Covers size) :
    (finalState (direction.setBuddyPresentRec call state)).allocator.Covers size := by
  rcases exists_finalState direction (fun _ state => state.allocator.Covers size)
    (fun _ _ _ _ _ _ bitmaps covers => covers.marked bitmaps) call state covers with ⟨_, after⟩
  exact after

def Call.RunExists (call : Call) (size : ℕ) : Prop :=
  call.order.toNat < buddyCount →
    call.runs.toNat < size * 2 ^ (buddyCount - 1 - call.order.toNat)

theorem upwars_runExists {call : Call} {size : ℕ} (inside : call.order.toNat < buddyCount)
    (exists_run : call.RunExists size) : (upwars.next call).RunExists size := by
  intro nextInside
  have bound := exists_run inside
  have orderEq : call.order.toNat = (call.order - 1).toNat + 1 := by
    simp only [upwars, buddyCount] at *
    bv_omega
  simp only [upwars, buddyCount] at *
  rw [orderEq] at bound inside
  have power : 2 ^ (4 - 1 - (call.order - 1).toNat) =
      2 * 2 ^ (4 - 1 - ((call.order - 1).toNat + 1)) := by
    rw [← Nat.pow_succ']
    congr 1
    omega
  have doubled : (call.runs * 2).toNat ≤ 2 * call.runs.toNat := by bv_omega
  rw [power, Nat.mul_left_comm]
  omega

theorem downwards_order (call : Call) (inside : call.order.toNat < buddyCount) :
    (downwards.next call).order.toNat = call.order.toNat + 1 := by
  simp only [downwards, buddyCount] at *
  bv_omega

theorem downwards_runExists {call : Call} {size : ℕ} (inside : call.order.toNat < buddyCount)
    (exists_run : call.RunExists size) : (downwards.next call).RunExists size := by
  intro nextInside
  have bound := exists_run inside
  have orderEq : (call.order + 1).toNat = call.order.toNat + 1 := downwards_order call inside
  simp only [downwards, buddyCount] at *
  rw [orderEq] at nextInside ⊢
  have power : 2 ^ (4 - 1 - call.order.toNat) = 2 * 2 ^ (4 - 1 - (call.order.toNat + 1)) := by
    rw [← Nat.pow_succ']
    congr 1
    omega
  have halved : (call.runs / 2).toNat = call.runs.toNat / 2 := rfl
  rw [power, Nat.mul_left_comm] at bound
  omega

/-! ### Termination -/

theorem toNat_ofNat_order (order : Fin buddyCount) :
    (BitVec.ofNat 64 (order : ℕ)).toNat = order := by
  have := order.isLt
  simp only [buddyCount] at this
  simp
  omega

def Returns {α : Type} (result : EStateM.Result Fault PmmState α) : Prop :=
  ∃ value after, result = .ok value after

theorem not_returns_setBuddyPresentRec (direction : Direction) (call : Call) (state : PmmState) :
    ¬Returns (direction.setBuddyPresentRec call state) := by
  rintro ⟨value, after, ok⟩
  exact setBuddyPresentRec_ne_ok direction call state after ok

/-- How a marking run ends when it stays inside its lists: by an order past the array, or by a
shift that is too wide. -/
def LeavesArrayAt {α : Type} (exitOrder : Usize) (result : EStateM.Result Fault PmmState α) :
    Prop :=
  ∃ fault after, result = .error fault after ∧
    (fault = .indexOutOfBounds exitOrder ∨ ∃ position, fault = .shiftCount position)

theorem leavesArrayAt_of_covers {direction : Direction} {exitOrder : Usize} {size : ℕ}
    (keepsRuns : ∀ call : Call, call.order.toNat < buddyCount → call.RunExists size →
      (direction.next call).RunExists size)
    (exits : ∀ call : Call, call.order.toNat < buddyCount →
      (direction.next call).order.toNat < buddyCount ∨ (direction.next call).order = exitOrder)
    (call : Call) (state : PmmState) :
    state.allocator.Covers size → call.RunExists size →
      (call.order.toNat < buddyCount ∨ call.order = exitOrder) →
      LeavesArrayAt exitOrder (direction.setBuddyPresentRec call state) := by
  apply setBuddyPresentRec_induction direction
    (motive := fun call state result => state.allocator.Covers size → call.RunExists size →
      (call.order.toNat < buddyCount ∨ call.order = exitOrder) → LeavesArrayAt exitOrder result)
  case outside =>
    intro call state outside _ _ inOrExit
    have atExit : call.order = exitOrder := inOrExit.resolve_left outside
    exact ⟨_, state, rfl, Or.inl (by rw [atExit])⟩
  case pastEnd =>
    intro call state inside short covers exists_run _
    have inList := exists_run inside
    rw [covers] at short
    simp only at short
    omega
  case shifted =>
    intro call state _ _ _ _ _ _
    exact ⟨_, state, rfl, Or.inr ⟨call.position, rfl⟩⟩
  case marked =>
    intro call state inside list _ _ bitmaps after after_eq ih covers exists_run _
    apply ih _ (keepsRuns call inside exists_run) (exits call inside)
    subst after_eq
    exact covers.marked bitmaps

theorem upwars_exits (call : Call) (inside : call.order.toNat < buddyCount) :
    (upwars.next call).order.toNat < buddyCount ∨ (upwars.next call).order = -1 := by
  simp only [upwars, buddyCount] at *
  by_cases bottom : call.order = 0
  · right
    simp [bottom]
  · left
    bv_omega

theorem downwards_exits (call : Call) (inside : call.order.toNat < buddyCount) :
    (downwards.next call).order.toNat < buddyCount ∨ (downwards.next call).order = 4 := by
  simp only [downwards, buddyCount] at *
  by_cases top : call.order = 3
  · right
    simp [top]
  · left
    bv_omega

/-- No call of either marking function on an existing block returns: the upwards recursion runs
on to order `2 ^ 64 - 1` and the downwards one to order 4, unless a shift stops them first. They
do not leave a list on the way. -/
theorem marking_never_returns {size : ℕ} {state : PmmState} (covers : state.allocator.Covers size)
    (order : Fin buddyCount) (position : U8) (_position_lt : position.toNat < bitmapSize)
    (runs : U64) (inList : runs.toNat < (state.allocator.buddies order).bitmaps.length) :
    ¬Returns (setBuddyPresentUpwarsRec (BitVec.ofNat 64 order) position runs state) ∧
      ¬Returns (setBuddyPresentDownwardsRec (BitVec.ofNat 64 order) position runs state) ∧
      LeavesArrayAt (-1) (setBuddyPresentUpwarsRec (BitVec.ofNat 64 order) position runs state) ∧
      LeavesArrayAt 4
        (setBuddyPresentDownwardsRec (BitVec.ofNat 64 order) position runs state) := by
  have inside : (BitVec.ofNat 64 (order : ℕ)).toNat < buddyCount := by
    rw [toNat_ofNat_order]
    exact order.isLt
  have exists_run : (Call.mk (BitVec.ofNat 64 order) position runs).RunExists size := by
    intro _
    rw [covers order] at inList
    simpa only [toNat_ofNat_order] using inList
  refine ⟨not_returns_setBuddyPresentRec _ _ _, not_returns_setBuddyPresentRec _ _ _, ?_, ?_⟩
  · exact leavesArrayAt_of_covers (fun _ => upwars_runExists) upwars_exits _ _ covers exists_run
      (Or.inl inside)
  · exact leavesArrayAt_of_covers (fun _ => downwards_runExists) downwards_exits _ _ covers
      exists_run (Or.inl inside)

/-- The smallest memory the lists can cover, with every block free. -/
def unitState : PmmState := ⟨.blank 1 (by omega) (by omega), []⟩

theorem covers_unitState : unitState.allocator.Covers 1 :=
  BuddyAllocator.covers_blank (by omega) (by omega)

theorem marking_never_returns_unitState :
    ¬Returns (setBuddyPresentUpwarsRec 0 0 0 unitState) ∧
      ¬Returns (setBuddyPresentDownwardsRec 0 0 0 unitState) := by
  have never := marking_never_returns covers_unitState 0 0 (by decide) 0 (by decide)
  exact ⟨never.1, never.2.1⟩

theorem not_marking_returns :
    ¬∀ (size : ℕ) (state : PmmState), state.allocator.Covers size →
      ∀ (order : Fin buddyCount) (position : U8), position.toNat < bitmapSize →
      ∀ runs : U64, runs.toNat < (state.allocator.buddies order).bitmaps.length →
        Returns (setBuddyPresentUpwarsRec (BitVec.ofNat 64 order) position runs state) ∧
          Returns (setBuddyPresentDownwardsRec (BitVec.ofNat 64 order) position runs state) := by
  intro claim
  have returns := claim 1 unitState covers_unitState 0 0 (by decide) 0 (by decide)
  exact not_returns_setBuddyPresentRec _ _ _ returns.1

end Benamos.Pmm
