import Benamos.Types
import Benamos.X86.Cpu

/-!
# The kernel's memory and straight-line C code

The linker gives each static object of the kernel bytes of its own. The C functions of the boot
sequence have no branches and no loops, so each is a list of statements, and running it passes
through the state after each of them. The stack of the bootloader, which carries return addresses
and locals, is not part of the model.
-/

namespace Benamos.Boot

open X86

inductive Object where
  | interruptTable
  | isrHandlerTable
  | idtr
  | globalDescriptorTable
  | gdtr
  | maxPhysAddr
deriving DecidableEq, Repr

def Object.size : Object → ℕ
  | .interruptTable => 256 * 16
  | .isrHandlerTable => 256 * 8
  | .idtr => 10
  | .globalDescriptorTable => 12 * 8 + 8
  | .gdtr => 10
  | .maxPhysAddr => 8

/-- The addresses the linker assigns. -/
structure Symbols where
  isr : U8 → U64
  breakpoint : U64
  reloadCs : U64
  object : Object → U64
  fits : ∀ item, (object item).toNat + item.size ≤ 2 ^ 64
  apart : ∀ item other, item ≠ other →
    (object item).toNat + item.size ≤ (object other).toNat ∨
      (object other).toNat + other.size ≤ (object item).toNat

/-- A statement of a C function, or an instruction of an assembly routine it calls. -/
abbrev Statement := Cpu → Cpu

def execute (code : List Statement) (cpu : Cpu) : Cpu := code.foldl (fun cpu step => step cpu) cpu

/-- The states from `cpu` on, before and after each statement of `code`. -/
def moments (code : List Statement) (cpu : Cpu) : List Cpu :=
  code.scanl (fun cpu step => step cpu) cpu

@[simp]
theorem execute_nil (cpu : Cpu) : execute [] cpu = cpu := rfl

@[simp]
theorem execute_cons (step : Statement) (code : List Statement) (cpu : Cpu) :
    execute (step :: code) cpu = execute code (step cpu) := rfl

theorem execute_append (first second : List Statement) (cpu : Cpu) :
    execute (first ++ second) cpu = execute second (execute first cpu) := by
  simp [execute]

@[simp]
theorem moments_cons (step : Statement) (code : List Statement) (cpu : Cpu) :
    moments (step :: code) cpu = cpu :: moments code (step cpu) := by
  simp [moments]

theorem execute_mem_moments (first second : List Statement) (cpu : Cpu) :
    execute first cpu ∈ moments (first ++ second) cpu := by
  induction first generalizing cpu with
  | nil => cases second <;> simp [moments]
  | cons step first ih => simp [ih]

def storeAt (address : U64) (size : ℕ) (value : BitVec (8 * size)) : Statement :=
  fun cpu => { cpu with memory := store cpu.memory address size value }

def setFlag (flag : ℕ) (value : Bool) : Statement :=
  fun cpu => { cpu with rflags := writeFlag flag value cpu.rflags }

def Symbols.stop (symbols : Symbols) (item : Object) : ℕ := (symbols.object item).toNat + item.size

def Symbols.Same (symbols : Symbols) (item : Object) (memory other : Memory) : Prop :=
  AgreeOn (symbols.object item).toNat (symbols.stop item) memory other

theorem Symbols.toNat_offset (symbols : Symbols) (item : Object) {offset : ℕ}
    (inside : offset < item.size) :
    (symbols.object item + BitVec.ofNat 64 offset).toNat =
      (symbols.object item).toNat + offset := by
  have fits := symbols.fits item
  exact toNat_add_ofNat (by omega)

theorem Symbols.Same.refl (symbols : Symbols) (item : Object) (memory : Memory) :
    symbols.Same item memory memory :=
  AgreeOn.refl _ _ _

theorem Symbols.Same.trans {symbols : Symbols} {item : Object} {memory other third : Memory}
    (first : symbols.Same item memory other) (second : symbols.Same item other third) :
    symbols.Same item memory third :=
  AgreeOn.trans first second

theorem Symbols.Same.store {symbols : Symbols} {item other : Object} {memory before : Memory}
    (same : symbols.Same other memory before) (distinct : item ≠ other) {place : U64}
    (offset size : ℕ)
    (place_eq : place = symbols.object item + BitVec.ofNat 64 offset)
    (value : BitVec (8 * size)) (inside : offset + size ≤ item.size) (positive : 0 < size) :
    symbols.Same other (X86.store memory place size value) before := by
  have fits := symbols.fits item
  have place_toNat := symbols.toNat_offset item (show offset < item.size by omega)
  rw [← place_eq] at place_toNat
  apply AgreeOn.store_apart value same
  · rw [place_toNat]
    rcases symbols.apart item other distinct with below | above
    · left
      omega
    · right
      exact Nat.le_trans above (by omega)
  · omega

/-- One way to link the kernel. -/
def linkedSymbols : Symbols where
  isr vector := 0xffffffff80001000 + BitVec.ofNat 64 (16 * vector.toNat)
  breakpoint := 0xffffffff80003000
  reloadCs := 0xffffffff80004000
  object
    | .interruptTable => 0xffffffff80010000
    | .isrHandlerTable => 0xffffffff80011000
    | .idtr => 0xffffffff80012000
    | .globalDescriptorTable => 0xffffffff80013000
    | .gdtr => 0xffffffff80014000
    | .maxPhysAddr => 0xffffffff80015000
  fits item := by cases item <;> decide
  apart item other distinct := by
    cases item <;> cases other <;> first | contradiction | decide

end Benamos.Boot
