import Benamos.BuddyTree
import Benamos.Pmm.Allocator
import Mathlib.Logic.Function.Iterate
import Mathlib.Data.Fintype.Basic

/-!
# What the marking recursions write

Both recursions of `cpu/pmm.c` are instances of `Direction.setBuddyPresentRec`. One lemma unfolds
a call inside the array and one a call outside it; everything else about a direction is an
induction on its rank. Since the stop test is never true, a call can only end in a fault, so the
results here are about the state the fault leaves behind.
-/

namespace Benamos.Pmm

/-- The state a run ends in, whether it returned or faulted. -/
def finalState {α : Type} : EStateM.Result Fault PmmState α → PmmState
  | .ok _ state => state
  | .error _ state => state

@[simp]
theorem finalState_ok {α : Type} (value : α) (state : PmmState) :
    finalState (.ok value state) = state := rfl

@[simp]
theorem finalState_error {α : Type} (fault : Fault) (state : PmmState) :
    finalState (α := α) (.error fault state) = state := rfl

/-! ### One mark -/

theorem oneShiftedBy_of_lt {position : U8} (small : position.toNat < 32) :
    oneShiftedBy position = .ok (shiftedOne position) := by
  simp [oneShiftedBy, small]

theorem oneShiftedBy_of_ge {position : U8} (large : 32 ≤ position.toNat) :
    oneShiftedBy position = .error (.shiftCount position) := by
  simp [oneShiftedBy, show ¬position.toNat < 32 by omega]

/-- The mask is the wanted bit, except at 31, where the sign extension also sets every bit above. -/
theorem getLsbD_shiftedOne {position : U8} {bit : ℕ} (small : position.toNat < 32)
    (bit_lt : bit < 64) :
    (shiftedOne position).getLsbD bit =
      decide (bit = position.toNat ∨ (position.toNat = 31 ∧ 31 ≤ bit)) := by
  have table : ∀ shift < 32, ∀ bit < 64, ((1#32 <<< shift).signExtend 64).getLsbD bit =
      decide (bit = shift ∨ (shift = 31 ∧ 31 ≤ bit)) := by decide
  exact table position.toNat small bit bit_lt

theorem bitSet_modify (bitmaps : List U64) {target : ℕ} (inList : target < bitmaps.length)
    (mask : U64) (runs bit : ℕ) :
    bitSet (bitmaps.modify target (· ||| mask)) runs bit =
      (bitSet bitmaps runs bit || (decide (runs = target) && mask.getLsbD bit)) := by
  simp only [bitSet, List.getElem?_modify]
  by_cases same : target = runs
  · subst same
    simp [List.getElem?_eq_getElem inList]
  · simp [same, Ne.symm same]

theorem BuddyList.mark_eq (list : BuddyList) (runs : ℕ) (position : U8) :
    (list.mark runs position).map BuddyList.bitmaps = markRun list.bitmaps runs position := by
  unfold BuddyList.mark
  split <;> simp_all [Except.map]

theorem buddies_update (allocator : BuddyAllocator) (order other : Fin buddyCount)
    (list : BuddyList) :
    (allocator.update order list).buddies other =
      if other = order then list else allocator.buddies other := by
  simp [BuddyAllocator.update, Function.update_apply]

/-- What `markBuddy` does: a fault that leaves the state alone, or one mask or-ed into one node. -/
theorem markBuddy_cases (order : Fin buddyCount) (position : U8) (runs : U64)
    (state : PmmState) :
    (markBuddy order position runs state = .error .nullDereference state ∧
        (state.allocator.buddies order).bitmaps.length ≤ runs.toNat) ∨
      (markBuddy order position runs state = .error (.shiftCount position) state ∧
        runs.toNat < (state.allocator.buddies order).bitmaps.length ∧ 32 ≤ position.toNat) ∨
      ∃ list, markBuddy order position runs state =
          .ok () { state with allocator := state.allocator.update order list } ∧
        position.toNat < 32 ∧ runs.toNat < (state.allocator.buddies order).bitmaps.length ∧
        list.bitmaps = (state.allocator.buddies order).bitmaps.modify runs.toNat
          (· ||| shiftedOne position) := by
  have marked := (state.allocator.buddies order).mark_eq runs.toNat position
  rw [markRun_eq] at marked
  simp only [markBuddy]
  by_cases inList : runs.toNat < (state.allocator.buddies order).bitmaps.length
  · rw [if_pos inList] at marked
    by_cases small : position.toNat < 32
    · rw [oneShiftedBy_of_lt small] at marked
      cases marking : (state.allocator.buddies order).mark runs.toNat position with
      | error fault => simp [marking, Except.map] at marked
      | ok list =>
          simp only [marking, Except.map, Except.ok.injEq] at marked
          exact Or.inr (Or.inr ⟨list, rfl, small, inList, marked⟩)
    · rw [oneShiftedBy_of_ge (by omega)] at marked
      cases marking : (state.allocator.buddies order).mark runs.toNat position with
      | error fault =>
          simp only [marking, Except.map, Except.error.injEq] at marked
          subst marked
          exact Or.inr (Or.inl ⟨rfl, inList, by omega⟩)
      | ok list => simp [marking, Except.map] at marked
  · rw [if_neg inList] at marked
    cases marking : (state.allocator.buddies order).mark runs.toNat position with
    | error fault =>
        simp only [marking, Except.map, Except.error.injEq] at marked
        subst marked
        exact Or.inl ⟨rfl, by omega⟩
    | ok list => simp [marking, Except.map] at marked

/-! ### One call -/

variable {direction : Direction}

theorem setBuddyPresentRec_outOfBounds {call : Call} (outside : ¬call.order.toNat < buddyCount)
    (state : PmmState) :
    direction.setBuddyPresentRec call state = .error (.indexOutOfBounds call.order) state := by
  rw [Direction.setBuddyPresentRec]
  simp [outside]
  rfl

theorem setBuddyPresentRec_inBounds {call : Call} (inside : call.order.toNat < buddyCount)
    (state : PmmState) :
    direction.setBuddyPresentRec call state =
      match markBuddy ⟨call.order.toNat, inside⟩ call.position call.runs state with
      | .ok _ marked => direction.setBuddyPresentRec (direction.next call) marked
      | .error fault stopped => .error fault stopped := by
  rw [Direction.setBuddyPresentRec, if_neg (by simp), dif_pos inside]
  simp only [bind, EStateM.bind]
  cases markBuddy ⟨call.order.toNat, inside⟩ call.position call.runs state <;> rfl

theorem setBuddyPresentRec_marks (direction : Direction) {call : Call}
    (inside : call.order.toNat < buddyCount) (small : call.position.toNat < 32) {state : PmmState}
    (inList : call.runs.toNat <
      (state.allocator.buddies ⟨call.order.toNat, inside⟩).bitmaps.length) :
    ∃ list : BuddyList,
      list.bitmaps = (state.allocator.buddies ⟨call.order.toNat, inside⟩).bitmaps.modify
        call.runs.toNat (· ||| shiftedOne call.position) ∧
      direction.setBuddyPresentRec call state =
        direction.setBuddyPresentRec (direction.next call)
          { state with allocator := state.allocator.update ⟨call.order.toNat, inside⟩ list } := by
  rw [setBuddyPresentRec_inBounds inside]
  rcases markBuddy_cases ⟨call.order.toNat, inside⟩ call.position call.runs state with
    ⟨_, short⟩ | ⟨_, _, large⟩ | ⟨list, ok, _, _, bitmaps⟩
  · omega
  · omega
  · exact ⟨list, bitmaps, by rw [ok]⟩

/-- Induction along a marking recursion: a call outside the array faults at once, a call inside
either faults on its own mark or marks and goes on. -/
theorem setBuddyPresentRec_induction (direction : Direction)
    {motive : Call → PmmState → EStateM.Result Fault PmmState Unit → Prop}
    (outside : ∀ call state, ¬call.order.toNat < buddyCount →
      motive call state (.error (.indexOutOfBounds call.order) state))
    (pastEnd : ∀ call state (inside : call.order.toNat < buddyCount),
      (state.allocator.buddies ⟨call.order.toNat, inside⟩).bitmaps.length ≤ call.runs.toNat →
      motive call state (.error .nullDereference state))
    (shifted : ∀ call state (inside : call.order.toNat < buddyCount),
      call.runs.toNat < (state.allocator.buddies ⟨call.order.toNat, inside⟩).bitmaps.length →
      32 ≤ call.position.toNat →
      motive call state (.error (.shiftCount call.position) state))
    (marked : ∀ call state (inside : call.order.toNat < buddyCount) list,
      call.runs.toNat < (state.allocator.buddies ⟨call.order.toNat, inside⟩).bitmaps.length →
      call.position.toNat < 32 →
      list.bitmaps = (state.allocator.buddies ⟨call.order.toNat, inside⟩).bitmaps.modify
        call.runs.toNat (· ||| shiftedOne call.position) →
      ∀ after, after = { state with
        allocator := state.allocator.update ⟨call.order.toNat, inside⟩ list } →
      motive (direction.next call) after
        (direction.setBuddyPresentRec (direction.next call) after) →
      motive call state (direction.setBuddyPresentRec (direction.next call) after))
    (call : Call) (state : PmmState) :
    motive call state (direction.setBuddyPresentRec call state) := by
  induction rank_eq : direction.rank call using Nat.strong_induction_on generalizing call state with
  | h rank ih =>
      by_cases inside : call.order.toNat < buddyCount
      · rw [setBuddyPresentRec_inBounds inside]
        rcases markBuddy_cases ⟨call.order.toNat, inside⟩ call.position call.runs state with
          ⟨fault, short⟩ | ⟨fault, inList, large⟩ | ⟨list, ok, small, inList, bitmaps⟩
        · rw [fault]
          exact pastEnd call state inside short
        · rw [fault]
          exact shifted call state inside inList large
        · rw [ok]
          apply marked call state inside list inList small bitmaps _ rfl
          apply ih (direction.rank (direction.next call)) _ _ _ rfl
          rw [← rank_eq]
          exact direction.rank_lt call inside
      · rw [setBuddyPresentRec_outOfBounds inside]
        exact outside call state inside

theorem setBuddyPresentRec_ne_ok (direction : Direction) (call : Call) (state : PmmState) :
    ∀ after, direction.setBuddyPresentRec call state ≠ .ok () after := by
  apply setBuddyPresentRec_induction direction
    (motive := fun _ _ result => ∀ after, result ≠ .ok () after)
  case outside => intros; simp
  case pastEnd => intros; simp
  case shifted => intros; simp
  case marked =>
    intro _ _ _ _ _ _ _ _ _ ih
    exact ih

/-! ### Invariants of a marking run -/

/-- A property that each mark hands on to the recursive call holds of the state the run ends in. -/
theorem exists_finalState (direction : Direction) (Holds : Call → PmmState → Prop)
    (marked : ∀ call state (inside : call.order.toNat < buddyCount) list,
      call.runs.toNat < (state.allocator.buddies ⟨call.order.toNat, inside⟩).bitmaps.length →
      call.position.toNat < 32 →
      list.bitmaps = (state.allocator.buddies ⟨call.order.toNat, inside⟩).bitmaps.modify
        call.runs.toNat (· ||| shiftedOne call.position) →
      Holds call state → Holds (direction.next call)
        { state with allocator := state.allocator.update ⟨call.order.toNat, inside⟩ list })
    (call : Call) (state : PmmState) :
    Holds call state →
      ∃ last, Holds last (finalState (direction.setBuddyPresentRec call state)) := by
  apply setBuddyPresentRec_induction direction
    (motive := fun call state result => Holds call state → ∃ last, Holds last (finalState result))
  case outside =>
    intro call _ _ holds
    exact ⟨call, holds⟩
  case pastEnd =>
    intro call _ _ _ holds
    exact ⟨call, holds⟩
  case shifted =>
    intro call _ _ _ _ holds
    exact ⟨call, holds⟩
  case marked =>
    intro call state inside list inList small bitmaps after after_eq ih holds
    apply ih
    subst after_eq
    exact marked call state inside list inList small bitmaps holds

theorem bitSet_marked {allocator : BuddyAllocator} {order : Fin buddyCount} {list : BuddyList}
    {runs : ℕ} {position : U8}
    (inList : runs < (allocator.buddies order).bitmaps.length)
    (bitmaps : list.bitmaps =
      (allocator.buddies order).bitmaps.modify runs (· ||| shiftedOne position))
    (other : Fin buddyCount) (otherRuns bit : ℕ) :
    (allocator.update order list).bitSet other otherRuns bit =
      (allocator.bitSet other otherRuns bit ||
        (decide (other = order ∧ otherRuns = runs) && (shiftedOne position).getLsbD bit)) := by
  simp only [BuddyAllocator.bitSet, buddies_update]
  by_cases same : other = order
  · subst same
    simp [bitmaps, bitSet_modify _ inList]
  · simp [same]

theorem length_marked {allocator : BuddyAllocator} {order : Fin buddyCount} {list : BuddyList}
    {runs : ℕ} {mask : U64}
    (bitmaps : list.bitmaps = (allocator.buddies order).bitmaps.modify runs (· ||| mask))
    (other : Fin buddyCount) :
    ((allocator.update order list).buddies other).bitmaps.length =
      (allocator.buddies other).bitmaps.length := by
  rw [buddies_update]
  split
  · next same =>
      subst same
      simp [bitmaps]
  · rfl

theorem bitSet_of_bitSet (call : Call) {state : PmmState} {order : Fin buddyCount} {runs bit : ℕ}
    (before : state.allocator.bitSet order runs bit = true) :
    (finalState (direction.setBuddyPresentRec call state)).allocator.bitSet order runs bit =
      true := by
  rcases exists_finalState direction
    (fun _ state => state.allocator.bitSet order runs bit = true)
    (fun call state inside list inList _ bitmaps set => by simp [bitSet_marked inList bitmaps, set])
    call state before with ⟨_, after⟩
  exact after

/-- A list no call of the recursion indexes is left alone. -/
theorem buddies_of_avoids {order : Fin buddyCount} (Away : Call → Prop)
    (avoids : ∀ call, Away call → call.order.toNat ≠ order)
    (closed : ∀ call, Away call → call.order.toNat < buddyCount → Away (direction.next call))
    (call : Call) (state : PmmState) (away : Away call) :
    (finalState (direction.setBuddyPresentRec call state)).allocator.buddies order =
      state.allocator.buddies order := by
  have atEnd : ∃ last, Away last ∧
      (finalState (direction.setBuddyPresentRec call state)).allocator.buddies order =
        state.allocator.buddies order := by
    apply exists_finalState direction (fun call middle =>
      Away call ∧ middle.allocator.buddies order = state.allocator.buddies order) _ _ _ ⟨away, rfl⟩
    rintro call middle inside list _ _ _ ⟨away, unchanged⟩
    have different : order ≠ ⟨call.order.toNat, inside⟩ := by
      intro same
      exact avoids call away (by simp [same])
    refine ⟨closed call away inside, ?_⟩
    simp [buddies_update, different, unchanged]
  rcases atEnd with ⟨_, _, unchanged⟩
  exact unchanged

theorem downwards_buddies_of_gt (order : Fin buddyCount) (call : Call) (state : PmmState)
    (below : order < call.order.toNat) :
    (finalState (downwards.setBuddyPresentRec call state)).allocator.buddies order =
      state.allocator.buddies order := by
  apply buddies_of_avoids (fun call => order < call.order.toNat) _ _ _ _ below
  · intro call away
    omega
  · intro call away inside
    simp only [downwards, buddyCount] at *
    bv_omega

end Benamos.Pmm
