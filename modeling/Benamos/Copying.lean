import Mathlib.Logic.Function.Basic
import Mathlib.Data.List.Range

/-!
# Copying cell by cell

A copy that goes through a list of indices one after the other reads cells that it may have written
before. It still transports what was there at the start when no cell is read or written after it was
written.
-/

namespace Copying

variable {Index Cell Value : Type*} [DecidableEq Cell] {target source : Index → Cell}

/-- The memory after the cells `source index` were copied to `target index` in this order. -/
def copyAll (target source : Index → Cell) : List Index → (Cell → Value) → Cell → Value
  | [], memory => memory
  | index :: order, memory =>
      copyAll target source order (Function.update memory (target index) (memory (source index)))

@[simp]
theorem copyAll_nil (target source : Index → Cell) (memory : Cell → Value) :
    copyAll target source [] memory = memory := rfl

@[simp]
theorem copyAll_cons (target source : Index → Cell) (index : Index) (order : List Index)
    (memory : Cell → Value) :
    copyAll target source (index :: order) memory =
      copyAll target source order
        (Function.update memory (target index) (memory (source index))) := rfl

/-- What an earlier step writes is neither read nor written by a later one. -/
def Ordered (target source : Index → Cell) (order : List Index) : Prop :=
  order.Pairwise fun earlier later =>
    target earlier ≠ source later ∧ target earlier ≠ target later

theorem copyAll_outside {order : List Index} (memory : Cell → Value) {cell : Cell}
    (outside : ∀ index ∈ order, cell ≠ target index) :
    copyAll target source order memory cell = memory cell := by
  induction order generalizing memory with
  | nil => rfl
  | cons index order ih =>
      rw [List.forall_mem_cons] at outside
      rcases outside with ⟨apart, outside⟩
      rw [copyAll_cons, ih _ outside, Function.update_of_ne apart]

theorem copyAll_target {order : List Index} (ordered : Ordered target source order)
    (memory : Cell → Value) {index : Index} (mem : index ∈ order) :
    copyAll target source order memory (target index) = memory (source index) := by
  induction order generalizing memory with
  | nil => simp at mem
  | cons head order ih =>
      rcases List.pairwise_cons.mp ordered with ⟨unread, ordered⟩
      rw [copyAll_cons]
      rcases List.mem_cons.mp mem with rfl | later
      · rw [copyAll_outside, Function.update_self]
        intro other otherMem
        exact (unread other otherMem).2
      · rw [ih ordered _ later, Function.update_of_ne]
        exact (unread index later).1.symm

/-! ### Where a cell comes from

An operation that only moves cells about and fills some with fixed values is summed up by one
question for each cell: the value it is given, or the cell it is taken from.
-/

omit [DecidableEq Cell]

/-- Each cell afterwards holds the value on the left, or what the cell on the right held before. -/
def Traces (perform : (Cell → Value) → Cell → Value) (origin : Cell → Value ⊕ Cell) : Prop :=
  ∀ memory cell, perform memory cell = Sum.elim id memory (origin cell)

/-- A value keeps, and a cell is looked up in what came earlier. -/
def through (earlier later : Cell → Value ⊕ Cell) (cell : Cell) : Value ⊕ Cell :=
  Sum.elim Sum.inl earlier (later cell)

theorem traces_id : Traces (id : (Cell → Value) → Cell → Value) Sum.inr := fun _ _ => rfl

theorem Traces.comp {first second : (Cell → Value) → Cell → Value}
    {earlier later : Cell → Value ⊕ Cell} (firstTraces : Traces first earlier)
    (secondTraces : Traces second later) : Traces (second ∘ first) (through earlier later) := by
  intro memory cell
  rw [Function.comp_apply, secondTraces, through]
  cases later cell with
  | inl value => rfl
  | inr source => exact firstTraces memory source

end Copying
