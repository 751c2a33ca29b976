import Benamos.Types
import Mathlib.Logic.Function.Basic
import Mathlib.Data.List.Basic

/-!
# The buddy allocator of `cpu/pmm.c`

The allocator keeps, for each of four orders, a linked list of 64-bit bitmaps. `alloc_page` picks
the first clear bit of the list of the requested order and calls two recursive functions that are
meant to mark the block, everything below it and everything above it.

C gives no meaning to an out-of-bounds index, a null dereference or a shift by the width of the
shifted type or more, so each of these stops a run with a `Fault`. The state at the fault is kept:
what was marked before it stays observable.
-/

namespace Benamos.Pmm

def buddyCount : ℕ := 4

instance : NeZero buddyCount := ⟨by decide⟩

/-- `BASE_REVISION`: the size of an order-0 block. -/
def baseRevision : ℕ := 4096

def bitmapSize : ℕ := 64

instance : NeZero bitmapSize := ⟨by decide⟩

/-! ### Data -/

/-- A `struct buddy` with everything its `next` pointers reach, as the list of the bitmaps. The
first node lies in `allocator.buddies` itself, so the list is not empty, and its nodes lie in a
64-bit address space. -/
structure BuddyList where
  bitmaps : List U64
  nonempty : bitmaps ≠ []
  addressable : bitmaps.length < 2 ^ 64

structure BuddyAllocator where
  buddies : Fin buddyCount → BuddyList

/-- The single zeroed node that static initialisation gives each order. -/
def BuddyList.zero : BuddyList := ⟨[0], by simp, by simp⟩

def BuddyAllocator.zero : BuddyAllocator := ⟨fun _ => .zero⟩

/-- Whether the bit of block number `64 * runs + bit` is set in a list of bitmaps. -/
def bitSet (bitmaps : List U64) (runs bit : ℕ) : Bool :=
  (bitmaps[runs]?.getD 0).getLsbD bit

def BuddyAllocator.bitSet (allocator : BuddyAllocator) (order : Fin buddyCount) (runs bit : ℕ) :
    Bool :=
  Pmm.bitSet (allocator.buddies order).bitmaps runs bit

/-- A step the C program gives no meaning to. -/
inductive Fault where
  /-- `&allocator.buddies[order]` with `order` past the array. -/
  | indexOutOfBounds (order : Usize)
  /-- A member access through a null `runner`. -/
  | nullDereference
  /-- A shift of a 32-bit `int` by 32 or more. -/
  | shiftCount (position : U8)
deriving DecidableEq, Repr

structure Printf where
  format : String
  arguments : List U64
deriving DecidableEq, Repr

structure PmmState where
  allocator : BuddyAllocator
  console : List Printf

abbrev PmmM := EStateM Fault PmmState

def printf (format : String) (arguments : List U64) : PmmM Unit :=
  modify fun state => { state with console := state.console ++ [⟨format, arguments⟩] }

/-! ### Marking -/

/-- The value of `1 << position` as an operand of `|` on a `u64`: the shifted `1` is a 32-bit `int`
and the result is sign-extended. -/
def shiftedOne (position : U8) : U64 := (1#32 <<< position.toNat).signExtend 64

/-- `1 << position`, which C leaves undefined from 32 on. -/
def oneShiftedBy (position : U8) : Except Fault U64 :=
  if position.toNat < 32 then .ok (shiftedOne position) else .error (.shiftCount position)

/-- Follow `next` for `runs` steps and execute `bitmap = bitmap | (1 << position)` there. -/
def markRun : List U64 → ℕ → U8 → Except Fault (List U64)
  | [], _, _ => .error .nullDereference
  | bitmap :: next, 0, position =>
      (oneShiftedBy position).map fun mask => (bitmap ||| mask) :: next
  | bitmap :: next, runs + 1, position => (markRun next runs position).map (bitmap :: ·)

/-- Marking writes exactly the node `runs` steps from the head. -/
theorem markRun_eq (bitmaps : List U64) (runs : ℕ) (position : U8) :
    markRun bitmaps runs position =
      if runs < bitmaps.length then
        (oneShiftedBy position).map fun mask => bitmaps.modify runs (· ||| mask)
      else .error .nullDereference := by
  induction bitmaps generalizing runs with
  | nil => simp [markRun]
  | cons bitmap next ih =>
      cases runs with
      | zero => simp [markRun]
      | succ runs =>
          simp only [markRun, ih, List.length_cons, Nat.add_lt_add_iff_right]
          split
          · cases oneShiftedBy position <;> simp [Except.map]
          · rfl

theorem length_of_markRun {bitmaps marked : List U64} {runs : ℕ} {position : U8}
    (ok : markRun bitmaps runs position = .ok marked) : marked.length = bitmaps.length := by
  rw [markRun_eq] at ok
  split at ok
  · cases shifted : oneShiftedBy position with
    | error fault => simp [shifted, Except.map] at ok
    | ok mask =>
        simp only [shifted, Except.map, Except.ok.injEq] at ok
        simp [← ok]
  · cases ok

def BuddyList.mark (list : BuddyList) (runs : ℕ) (position : U8) : Except Fault BuddyList :=
  match marking : markRun list.bitmaps runs position with
  | .error fault => .error fault
  | .ok bitmaps => .ok
      { bitmaps
        nonempty := by
          have sameLength := length_of_markRun marking
          have positive := List.length_pos_iff.mpr list.nonempty
          exact List.length_pos_iff.mp (by omega)
        addressable := by
          rw [length_of_markRun marking]
          exact list.addressable }

def BuddyAllocator.update (allocator : BuddyAllocator) (order : Fin buddyCount)
    (list : BuddyList) : BuddyAllocator :=
  ⟨Function.update allocator.buddies order list⟩

/-- The common body of the two marking functions, once `order` is known to be in bounds. -/
def markBuddy (order : Fin buddyCount) (position : U8) (runs : U64) : PmmM Unit := fun state =>
  match (state.allocator.buddies order).mark runs.toNat position with
  | .error fault => .error fault state
  | .ok list => .ok () { state with allocator := state.allocator.update order list }

@[ext]
structure Call where
  order : Usize
  position : U8
  runs : U64
deriving DecidableEq, Repr

/-- One of the two marking functions: the arguments of its recursive call, and the measure that
bounds how long it can stay inside `allocator.buddies`. -/
structure Direction where
  next : Call → Call
  rank : Call → ℕ
  rank_lt : ∀ call : Call, call.order.toNat < buddyCount → rank (next call) < rank call

def Direction.setBuddyPresentRec (direction : Direction) (call : Call) : PmmM Unit :=
  -- `usize order` is unsigned, so the comparison the recursion relies on to stop is never true.
  if call.order < 0 then pure ()
  else if inBounds : call.order.toNat < buddyCount then do
    markBuddy ⟨call.order.toNat, inBounds⟩ call.position call.runs
    direction.setBuddyPresentRec (direction.next call)
  else throw (.indexOutOfBounds call.order)
termination_by direction.rank call
decreasing_by exact direction.rank_lt call inBounds

/-- The recursion of `set_buddy_present_upwars_rec`. From order 0 the unsigned order wraps. -/
def upwars : Direction where
  next call := ⟨call.order - 1, call.position * 2, call.runs * 2⟩
  rank call := if call.order.toNat < buddyCount then call.order.toNat + 1 else 0
  rank_lt := by
    intro call inBounds
    dsimp only
    rw [if_pos inBounds]
    split <;> simp only [buddyCount] at * <;> bv_omega

def downwards : Direction where
  next call := ⟨call.order + 1, call.position / 2, call.runs / 2⟩
  rank call := buddyCount - call.order.toNat
  rank_lt := by
    intro call inBounds
    simp only [buddyCount] at inBounds ⊢
    bv_omega

def setBuddyPresentUpwarsRec (order : Usize) (position : U8) (runs : U64) : PmmM Unit :=
  upwars.setBuddyPresentRec ⟨order, position, runs⟩

def setBuddyPresentDownwardsRec (order : Usize) (position : U8) (runs : U64) : PmmM Unit :=
  downwards.setBuddyPresentRec ⟨order, position, runs⟩

/-! ### Allocation -/

def convertPositionToAddr (order : Usize) (position : U8) (runs : U64) : U64 :=
  (order * BitVec.ofNat 64 baseRevision) * position.setWidth 64 * runs

/-- The inner loop of `alloc_page`: the first `i` whose bit is clear. -/
def firstClear (bitmap : U64) : Option ℕ :=
  (List.range bitmapSize).find? fun i => ((bitmap >>> i) &&& 1) = 0

/-- The outer loop of `alloc_page`, with the number of nodes already passed. -/
def search : List U64 → U64 → Option (U64 × U8)
  | [], _ => none
  | bitmap :: next, runs =>
      match firstClear bitmap with
      | some i => some (runs, BitVec.ofNat 8 i)
      | none => search next (runs + 1)

/-- `usize minimal_buddy_order = (size - 1) / BASE_REVISION`. -/
def minimalBuddyOrder (size : Usize) : Usize :=
  (size - 1) / BitVec.ofNat 64 baseRevision

/-- What `alloc_page` returns: one of its two `return NULL`, or the address of a block. -/
inductive Allocation where
  | null
  | block (address : U64)
deriving DecidableEq, Repr

/-- `struct buddy *runner = &allocator.buddies[order]`. -/
def headOf (order : Usize) : PmmM BuddyList := do
  if inBounds : order.toNat < buddyCount then
    return (← get).allocator.buddies ⟨order.toNat, inBounds⟩
  else throw (.indexOutOfBounds order)

def allocPage (size : Usize) : PmmM Allocation := do
  if minimalBuddyOrder size > BitVec.ofNat 64 buddyCount then
    printf "Large memory requested: 0x%x. cannot fullfil request" [size]
    return .null
  let runner ← headOf (minimalBuddyOrder size)
  match search runner.bitmaps 0 with
  | some (runs, i) =>
      setBuddyPresentUpwarsRec (minimalBuddyOrder size) i runs
      setBuddyPresentDownwardsRec (minimalBuddyOrder size) i runs
      return .block (convertPositionToAddr (minimalBuddyOrder size) i runs)
  | none =>
      printf "Out of memory in kernel. NOT GOOD!!!" []
      return .null

end Benamos.Pmm
