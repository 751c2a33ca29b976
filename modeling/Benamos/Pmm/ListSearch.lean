import Benamos.Pmm.Scan
import Benamos.LinkedList
import Benamos.X86.Memory
import Mathlib.Data.Prod.Lex
import Mathlib.Order.Bounds.Basic

/-!
# The search of `alloc_page` through its pointers

`alloc_page` reads the nodes of a list in memory. Each step of its two loops is a step here, with
the variables the loops change. The list of bitmaps that the rest of the development scans is what
the pointers reach, and the search through the pointers finds what the scan finds.
-/

namespace Benamos.Pmm

open X86 LinkedList

/-- `runner->bitmap`. -/
def bitmapAt (memory : Memory) (runner : U64) : U64 := load64 memory runner

/-- `runner->next`. -/
def nextAt (memory : Memory) (runner : U64) : U64 := load64 memory (runner + 8)

/-- `&allocator.buddies[order]`. -/
def buddyAddress (allocator : U64) (order : Fin buddyCount) : U64 :=
  allocator + BitVec.ofNat 64 (16 * order)

/-- A memory with the static `allocator` and the nodes its `next` pointers reach. -/
structure BuddyHeap where
  memory : Memory
  allocator : U64
  nonnull : ∀ order, buddyAddress allocator order ≠ 0
  nodes : Fin buddyCount → List U64
  linked : ∀ order, Linked (nextAt memory) 0 (buddyAddress allocator order) (nodes order)

inductive Outcome where
  | found (runs : U64) (i : U8)
  | outOfMemory
deriving DecidableEq, Repr

/-- The variables of the two loops, the nodes that were read and how the search ended. -/
structure Search where
  runner : U64
  runs : U64
  i : U8
  reads : List U64
  outcome : Option Outcome
deriving DecidableEq, Repr

namespace Search

def start (head : U64) : Search := ⟨head, 0, 0, [], none⟩

/-- One round of the inner loop, or the end of it. -/
def step (memory : Memory) (search : Search) : Search :=
  if search.outcome.isSome then
    search
  else if search.runner = 0 then
    { search with outcome := some .outOfMemory }
  else if search.i.toNat < bitmapSize then
    if (bitmapAt memory search.runner >>> search.i.toNat) &&& 1 = 0 then
      { search with
        reads := search.reads ++ [search.runner]
        outcome := some (.found search.runs search.i) }
    else
      { search with
        reads := search.reads ++ [search.runner]
        i := search.i + 1 }
  else
    { search with
      reads := search.reads ++ [search.runner]
      runner := nextAt memory search.runner
      runs := search.runs + 1
      i := 0 }

def run (memory : Memory) (steps : ℕ) (search : Search) : Search := (step memory)^[steps] search

section

variable {memory : Memory} {search : Search} (running : search.outcome = none)

include running

theorem step_null (null : search.runner = 0) :
    search.step memory = { search with outcome := some .outOfMemory } := by
  rw [step, if_neg (by simp [running]), if_pos null]

theorem step_clear (nonnull : search.runner ≠ 0) (inside : search.i.toNat < bitmapSize)
    (clear : (bitmapAt memory search.runner).getLsbD search.i.toNat = false) :
    search.step memory =
      { search with
        reads := search.reads ++ [search.runner]
        outcome := some (.found search.runs search.i) } := by
  have zero := (ushiftRight_and_one_eq_zero_iff _ _).mpr clear
  rw [step, if_neg (by simp [running]), if_neg nonnull, if_pos inside, if_pos zero]

theorem step_set (nonnull : search.runner ≠ 0) (inside : search.i.toNat < bitmapSize)
    (set : (bitmapAt memory search.runner).getLsbD search.i.toNat = true) :
    search.step memory =
      { search with reads := search.reads ++ [search.runner], i := search.i + 1 } := by
  have one : ¬(bitmapAt memory search.runner >>> search.i.toNat) &&& 1 = 0 := by
    rw [ushiftRight_and_one_eq_zero_iff, set]
    simp
  rw [step, if_neg (by simp [running]), if_neg nonnull, if_pos inside, if_neg one]

theorem step_next (nonnull : search.runner ≠ 0) (last : ¬search.i.toNat < bitmapSize) :
    search.step memory =
      { search with
        reads := search.reads ++ [search.runner]
        runner := nextAt memory search.runner
        runs := search.runs + 1
        i := 0 } := by
  rw [step, if_neg (by simp [running]), if_neg nonnull, if_neg last]

end

end Search

/-! ### One step -/

theorem full_append_iff (bitmaps others : List U64) :
    Full (bitmaps ++ others) ↔ Full bitmaps ∧ Full others := by
  induction bitmaps with
  | nil => simp [Full]
  | cons bitmap bitmaps ih =>
      rw [List.cons_append, full_cons_iff, full_cons_iff, ih, and_assoc]

theorem full_map_iff {memory : Memory} {nodes : List U64} :
    Full (nodes.map (bitmapAt memory)) ↔
      ∀ node ∈ nodes, ∀ bit < 64, (bitmapAt memory node).getLsbD bit = true := by
  induction nodes with
  | nil => simp [Full]
  | cons node nodes ih => rw [List.map_cons, full_cons_iff, ih, List.forall_mem_cons]

theorem bitSet_append_cons (bitmaps : List U64) (bitmap : U64) (rest : List U64) (bit : ℕ) :
    bitSet (bitmaps ++ bitmap :: rest) bitmaps.length bit = bitmap.getLsbD bit := by
  simp [bitSet]

theorem bitSet_append_left {bitmaps : List U64} {runs : ℕ} (inside : runs < bitmaps.length)
    (rest : List U64) (bit : ℕ) : bitSet (bitmaps ++ rest) runs bit = bitSet bitmaps runs bit := by
  simp [bitSet, List.getElem?_append_left inside]

def Outcome.Correct (bitmaps : List U64) : Outcome → Prop
  | .found runs i => FirstClear bitmaps runs.toNat i.toNat
  | .outOfMemory => Full bitmaps

section

variable {memory : Memory} {nodes passed rest : List U64} {node : U64} {search : Search}

/-- The search has passed full nodes and the set bits of the node it is at. -/
structure Scanning (memory : Memory) (passed rest : List U64) (search : Search) : Prop where
  linked : Linked (nextAt memory) 0 search.runner rest
  runs_eq : search.runs = BitVec.ofNat 64 passed.length
  i_le : search.i.toNat ≤ 64
  below : ∀ bit < search.i.toNat, (bitmapAt memory search.runner).getLsbD bit = true
  full : Full (passed.map (bitmapAt memory))
  reads_mem : ∀ address ∈ search.reads, address ∈ passed ++ rest
  running : search.outcome = none

structure Concluded (memory : Memory) (nodes : List U64) (search : Search) : Prop where
  reads_mem : ∀ address ∈ search.reads, address ∈ nodes
  correct : ∃ outcome, search.outcome = some outcome ∧
    outcome.Correct (nodes.map (bitmapAt memory))

theorem Concluded.step (concluded : Concluded memory nodes search) :
    search.step memory = search := by
  rcases concluded.correct with ⟨outcome, ended, _⟩
  simp [Search.step, ended]

namespace Scanning

theorem conclude_null (scanning : Scanning memory passed [] search) :
    Concluded memory passed (search.step memory) := by
  have null := Linked.nil_iff.mp scanning.linked
  rw [Search.step_null scanning.running null]
  constructor
  · simpa using scanning.reads_mem
  · exact ⟨_, rfl, scanning.full⟩

theorem reads_runner (scanning : Scanning memory passed (node :: rest) search) :
    ∀ address ∈ search.reads ++ [search.runner], address ∈ passed ++ node :: rest := by
  intro address mem
  rcases Linked.cons_iff.mp scanning.linked with ⟨same, _, _⟩
  rcases List.mem_append.mp mem with earlier | now
  · exact scanning.reads_mem address earlier
  · simp_all

theorem conclude_clear (scanning : Scanning memory passed (node :: rest) search)
    (short : passed.length < 2 ^ 64) (inside : search.i.toNat < bitmapSize)
    (clear : (bitmapAt memory search.runner).getLsbD search.i.toNat = false) :
    Concluded memory (passed ++ node :: rest) (search.step memory) := by
  rcases Linked.cons_iff.mp scanning.linked with ⟨same, nonnull, _⟩
  have place : search.runs.toNat = (passed.map (bitmapAt memory)).length := by
    rw [scanning.runs_eq, BitVec.toNat_ofNat, Nat.mod_eq_of_lt short, List.length_map]
  rw [Search.step_clear scanning.running nonnull inside clear]
  refine ⟨scanning.reads_runner, _, rfl, ?_⟩
  rw [Outcome.Correct, List.map_append, List.map_cons, place, ← same]
  constructor
  · simp
  · exact inside
  · rw [bitSet_append_cons, clear]
  · intro lower below
    rw [bitSet_append_cons, scanning.below lower below]
  · intro earlier before bit bit_lt
    rw [bitSet_append_left before, scanning.full earlier before bit bit_lt]

theorem bit_set (scanning : Scanning memory passed (node :: rest) search)
    (inside : search.i.toNat < bitmapSize)
    (set : (bitmapAt memory search.runner).getLsbD search.i.toNat = true) :
    Scanning memory passed (node :: rest) (search.step memory) ∧
      (search.step memory).i.toNat = search.i.toNat + 1 := by
  rcases Linked.cons_iff.mp scanning.linked with ⟨_, nonnull, _⟩
  have small : search.i.toNat < 64 := inside
  have next : (search.i + 1).toNat = search.i.toNat + 1 := by
    bv_omega
  rw [Search.step_set scanning.running nonnull inside set]
  refine ⟨⟨scanning.linked, scanning.runs_eq, ?_, ?_, scanning.full, scanning.reads_runner,
    scanning.running⟩, next⟩
  · dsimp only
    omega
  · intro bit bit_lt
    rw [next] at bit_lt
    rcases Nat.lt_succ_iff_lt_or_eq.mp bit_lt with lower | rfl
    · exact scanning.below bit lower
    · exact set

theorem node_full (scanning : Scanning memory passed (node :: rest) search)
    (last : ¬search.i.toNat < bitmapSize) :
    Scanning memory (passed ++ [node]) rest (search.step memory) := by
  rcases Linked.cons_iff.mp scanning.linked with ⟨same, nonnull, linked⟩
  have all : search.i.toNat = 64 := Nat.le_antisymm scanning.i_le (Nat.le_of_not_lt last)
  have below := scanning.below
  rw [all, same] at below
  rw [Search.step_next scanning.running nonnull last]
  refine ⟨linked, ?_, ?_, ?_, ?_, ?_, scanning.running⟩
  · simp [scanning.runs_eq, BitVec.ofNat_add]
  · simp
  · simp
  · rw [List.map_append, full_append_iff]
    refine ⟨scanning.full, ?_⟩
    rw [full_map_iff]
    simpa using below
  · simpa using scanning.reads_runner

/-- The steps that remain: one for each bit and one for each node that is passed. -/
def rank (rest : List U64) (search : Search) : ℕ := 66 * rest.length + (65 - search.i.toNat)

/-- One step ends the search rightly or brings it on. -/
theorem progress (scanning : Scanning memory passed rest search)
    (short : (passed ++ rest).length < 2 ^ 64) :
    Concluded memory (passed ++ rest) (search.step memory) ∨
      ∃ passed' rest', passed' ++ rest' = passed ++ rest ∧
        Scanning memory passed' rest' (search.step memory) ∧
        rank rest' (search.step memory) < rank rest search := by
  cases rest with
  | nil =>
      left
      simpa using scanning.conclude_null
  | cons node rest =>
      by_cases inside : search.i.toNat < bitmapSize
      · cases bit : (bitmapAt memory search.runner).getLsbD search.i.toNat with
        | false =>
            left
            apply scanning.conclude_clear _ inside bit
            rw [List.length_append] at short
            omega
        | true =>
            right
            rcases scanning.bit_set inside bit with ⟨stepped, next⟩
            refine ⟨passed, node :: rest, rfl, stepped, ?_⟩
            simp only [rank, next, bitmapSize] at inside ⊢
            omega
      · right
        refine ⟨passed ++ [node], rest, by simp, scanning.node_full inside, ?_⟩
        have i_le := scanning.i_le
        simp only [rank, List.length_cons]
        omega

end Scanning

/-! ### Runs -/

theorem run_succ (memory : Memory) (steps : ℕ) (search : Search) :
    search.run memory (steps + 1) = (search.run memory steps).step memory :=
  Function.iterate_succ_apply' ..

theorem scanning_start {head : U64} (linked : Linked (nextAt memory) 0 head nodes) :
    Scanning memory [] nodes (Search.start head) where
  linked := linked
  runs_eq := rfl
  i_le := Nat.zero_le _
  below bit below := absurd below (Nat.not_lt_zero bit)
  full := by simp [Full]
  reads_mem address mem := absurd mem List.not_mem_nil
  running := rfl

def Sound (memory : Memory) (nodes : List U64) (search : Search) : Prop :=
  Concluded memory nodes search ∨
    ∃ passed rest, passed ++ rest = nodes ∧ Scanning memory passed rest search

theorem Sound.step (sound : Sound memory nodes search) (short : nodes.length < 2 ^ 64) :
    Sound memory nodes (search.step memory) := by
  rcases sound with concluded | ⟨passed, rest, rfl, scanning⟩
  · left
    rwa [concluded.step]
  · rcases scanning.progress short with concluded | ⟨passed', rest', same, stepped, _⟩
    · exact Or.inl concluded
    · exact Or.inr ⟨passed', rest', same, stepped⟩

theorem Sound.run (sound : Sound memory nodes search) (short : nodes.length < 2 ^ 64)
    (steps : ℕ) : Sound memory nodes (search.run memory steps) := by
  induction steps with
  | zero => exact sound
  | succ steps ih =>
      rw [run_succ]
      exact ih.step short

theorem Sound.reads_mem (sound : Sound memory nodes search) :
    ∀ address ∈ search.reads, address ∈ nodes := by
  rcases sound with concluded | ⟨passed, rest, rfl, scanning⟩
  · exact concluded.reads_mem
  · exact scanning.reads_mem

theorem Sound.correct (sound : Sound memory nodes search) {outcome : Outcome}
    (ended : search.outcome = some outcome) : outcome.Correct (nodes.map (bitmapAt memory)) := by
  rcases sound with concluded | ⟨_, _, _, scanning⟩
  · rcases concluded.correct with ⟨other, same, correct⟩
    rw [same, Option.some.injEq] at ended
    rwa [← ended]
  · rw [scanning.running] at ended
    cases ended

theorem Scanning.concludes (scanning : Scanning memory passed rest search)
    (short : (passed ++ rest).length < 2 ^ 64) :
    ∃ steps, Concluded memory (passed ++ rest) (search.run memory steps) := by
  induction left : rank rest search using Nat.strong_induction_on
    generalizing passed rest search with
  | _ left ih =>
      rcases scanning.progress short with concluded | ⟨passed', rest', same, stepped, lower⟩
      · exact ⟨1, concluded⟩
      · rw [← same] at short
        rcases ih _ (left ▸ lower) stepped short rfl with ⟨steps, concluded⟩
        refine ⟨steps + 1, ?_⟩
        rw [← same]
        exact concluded

end

/-! ### The search of one order -/

namespace BuddyHeap

variable (heap : BuddyHeap) (order : Fin buddyCount)

def search (steps : ℕ) : Search :=
  (Search.start (buddyAddress heap.allocator order)).run heap.memory steps

def bitmaps : List U64 := (heap.nodes order).map (bitmapAt heap.memory)

/-- The node that `runs` steps along `next` lead to. -/
def walk (runs : ℕ) : U64 := (nextAt heap.memory)^[runs] (buddyAddress heap.allocator order)

/-- The clear bits of a list, each with its node's distance from the head, in the order of the
scan. -/
def clearBlocks : Set (ℕ ×ₗ ℕ) :=
  {block | (ofLex block).1 < (heap.nodes order).length ∧ (ofLex block).2 < bitmapSize ∧
    (bitmapAt heap.memory (heap.walk order (ofLex block).1)).getLsbD (ofLex block).2 = false}

theorem length_nodes_lt : (heap.nodes order).length < 2 ^ 64 := by
  apply (heap.linked order).length_lt (fun _ _ same => BitVec.eq_of_toNat_eq same)
  intro address
  exact address.isLt

theorem sound_search (steps : ℕ) :
    Sound heap.memory (heap.nodes order) (heap.search order steps) := by
  have start : Sound heap.memory (heap.nodes order)
      (Search.start (buddyAddress heap.allocator order)) :=
    Or.inr ⟨[], _, rfl, scanning_start (heap.linked order)⟩
  exact start.run (heap.length_nodes_lt order) steps

theorem exists_concluded :
    ∃ steps, Concluded heap.memory (heap.nodes order) (heap.search order steps) :=
  (scanning_start (heap.linked order)).concludes (heap.length_nodes_lt order)

theorem bitSet_bitmaps {runs : ℕ} (inside : runs < (heap.nodes order).length) (bit : ℕ) :
    bitSet (heap.bitmaps order) runs bit =
      (bitmapAt heap.memory (heap.walk order runs)).getLsbD bit := by
  have node := (heap.linked order).getElem?_eq inside
  simp [bitSet, bitmaps, walk, node]

theorem isLeast_of_firstClear {runs bit : ℕ} (first : FirstClear (heap.bitmaps order) runs bit) :
    IsLeast (heap.clearBlocks order) (toLex (runs, bit)) := by
  have inList : runs < (heap.nodes order).length := by
    simpa [bitmaps] using first.inList
  constructor
  · refine ⟨inList, first.bit_lt, ?_⟩
    rw [ofLex_toLex, ← heap.bitSet_bitmaps order inList]
    exact first.clear
  · intro block clear
    rcases clear with ⟨inside, bit_lt, clear⟩
    rw [← heap.bitSet_bitmaps order inside] at clear
    apply Prod.Lex.le_iff.mpr
    rcases Nat.lt_trichotomy (ofLex block).1 runs with before | same | after
    · rw [first.earlier _ before _ bit_lt] at clear
      cases clear
    · right
      refine ⟨same.symm, Nat.le_of_not_lt ?_⟩
      intro lower
      rw [same, first.lower _ lower] at clear
      cases clear
    · exact Or.inl after

/-- What the search of one order does: it ends, it reads nodes of the list only, what it finds is
the first clear bit, with the counter at the distance of the node, and it runs out of memory exactly
if every bit is set. -/
structure SearchesList : Prop where
  terminates : ∃ steps outcome, (heap.search order steps).outcome = some outcome
  inside : ∀ steps, ∀ address ∈ (heap.search order steps).reads, address ∈ heap.nodes order
  least : ∀ steps runs i, (heap.search order steps).outcome = some (.found runs i) →
    IsLeast (heap.clearBlocks order) (toLex (runs.toNat, i.toNat))
  exhausted : (∃ steps, (heap.search order steps).outcome = some .outOfMemory) ↔
    ∀ node ∈ heap.nodes order, ∀ bit < bitmapSize,
      (bitmapAt heap.memory node).getLsbD bit = true

theorem searchesList : heap.SearchesList order := by
  rcases heap.exists_concluded order with ⟨steps, _, outcome, ended, correct⟩
  constructor
  · exact ⟨steps, outcome, ended⟩
  · intro steps
    exact (heap.sound_search order steps).reads_mem
  · intro steps runs i found
    apply heap.isLeast_of_firstClear order
    exact (heap.sound_search order steps).correct found
  · constructor
    · rintro ⟨steps, exhausted⟩
      exact full_map_iff.mp ((heap.sound_search order steps).correct exhausted)
    · intro full
      refine ⟨steps, ?_⟩
      cases outcome with
      | outOfMemory => exact ended
      | found runs i =>
          have set := full_map_iff.mpr full runs.toNat correct.inList i.toNat correct.bit_lt
          rw [correct.clear] at set
          cases set

/-! ### The list of the bitmaps -/

/-- The allocator the rest of the development is about. -/
def toAllocator : BuddyAllocator where
  buddies order :=
    { bitmaps := heap.bitmaps order
      nonempty := by
        intro none
        have linked := heap.linked order
        rw [List.map_eq_nil_iff.mp none] at linked
        exact heap.nonnull order (Linked.nil_iff.mp linked)
      addressable := by
        rw [bitmaps, List.length_map]
        exact heap.length_nodes_lt order }

def scanOutcome : Option (U64 × U8) → Outcome
  | some (runs, i) => .found runs i
  | none => .outOfMemory

theorem scanOutcome_of_correct {bitmaps : List U64} (addressable : bitmaps.length < 2 ^ 64)
    {outcome : Outcome} (correct : outcome.Correct bitmaps) :
    outcome = scanOutcome (Pmm.search bitmaps 0) := by
  cases outcome with
  | found runs i => rw [(search_eq_some_iff addressable runs i).mpr correct, scanOutcome]
  | outOfMemory => rw [(search_eq_none_iff bitmaps 0).mpr correct, scanOutcome]

/-- The search through the pointers refines the scan of the list. -/
theorem search_refines (steps : ℕ) {outcome : Outcome}
    (ended : (heap.search order steps).outcome = some outcome) :
    outcome = scanOutcome (Pmm.search (heap.toAllocator.buddies order).bitmaps 0) := by
  apply scanOutcome_of_correct (heap.toAllocator.buddies order).addressable
  exact (heap.sound_search order steps).correct ended

/-- Static initialisation: each order has the zeroed node of the array, at the end of its list. -/
def zero : BuddyHeap where
  memory _ := 0
  allocator := 0x1000
  nonnull := by decide
  nodes order := [buddyAddress 0x1000 order]
  linked order := by
    rw [Linked.cons_iff]
    refine ⟨rfl, ?_, ?_⟩
    · revert order
      decide
    · exact Linked.nil_iff.mpr (load_zero _ 8)

end BuddyHeap

end Benamos.Pmm
