import Benamos.X86.Cpu

/-!
# Comparisons and processor identification

`cmp` with an immediate, the condition of `jle`, and `cpuid`. A 32-bit immediate is extended by its
sign before a 64-bit comparison, and the comparison behind `jle` is one of signed numbers.
-/

namespace X86

def evenLowOnes (result : BitVec 64) : Bool :=
  ((List.range 8).filter fun bit => result.getLsbD bit).length % 2 = 0

def subFlags (left right rflags : BitVec 64) : BitVec 64 :=
  let difference := left - right
  writeFlag Flag.carry (left.toNat < right.toNat) <|
    writeFlag Flag.parity (evenLowOnes difference) <|
    writeFlag Flag.adjust (left.toNat % 16 < right.toNat % 16) <|
    writeFlag Flag.zero (difference = 0#64) <|
    writeFlag Flag.sign difference.msb <|
    writeFlag Flag.overflow (left.msb ≠ right.msb ∧ difference.msb ≠ left.msb) rflags

/-- The status flags `and` leaves behind; the adjust flag is undefined and kept here. -/
def andFlags (result rflags : BitVec 64) : BitVec 64 :=
  writeFlag Flag.carry false <|
    writeFlag Flag.parity (evenLowOnes result) <|
    writeFlag Flag.zero (result = 0#64) <|
    writeFlag Flag.sign result.msb <|
    writeFlag Flag.overflow false rflags

section

variable (left right rflags : BitVec 64)

theorem zero_subFlags : (subFlags left right rflags).getLsbD Flag.zero = decide (left = right) := by
  simp (disch := decide) only [subFlags, getLsbD_writeFlag_of_ne, getLsbD_writeFlag_self]
  rw [decide_eq_decide, BitVec.sub_eq_iff_eq_add, BitVec.zero_add]

theorem sign_subFlags : (subFlags left right rflags).getLsbD Flag.sign = (left - right).msb := by
  simp (disch := decide) only [subFlags, getLsbD_writeFlag_of_ne, getLsbD_writeFlag_self]

theorem overflow_subFlags : (subFlags left right rflags).getLsbD Flag.overflow =
    decide (left.msb ≠ right.msb ∧ (left - right).msb ≠ left.msb) := by
  simp (disch := decide) only [subFlags, getLsbD_writeFlag_of_ne, getLsbD_writeFlag_self]

theorem bmod_neg_iff (difference : ℤ) (above : -2 ^ 64 < difference) (below : difference < 2 ^ 64) :
    difference.bmod (2 ^ 64) < 0 ↔
      (-2 ^ 63 ≤ difference ∧ difference < 0) ∨ 2 ^ 63 ≤ difference := by
  rw [Int.bmod_def]
  split <;> omega

/-- Overflow is what the sign of the wrapped difference misses. -/
theorem sign_ne_overflow_iff :
    ((left - right).msb ≠ decide (left.msb ≠ right.msb ∧ (left - right).msb ≠ left.msb)) ↔
      left.toInt < right.toInt := by
  have left_ge := left.le_toInt
  have left_lt := left.toInt_lt
  have right_ge := right.le_toInt
  have right_lt := right.toInt_lt
  have sign := bmod_neg_iff (left.toInt - right.toInt) (by omega) (by omega)
  rw [← BitVec.toInt_sub] at sign
  simp only [BitVec.msb_eq_toInt, ne_eq, decide_eq_decide, sign]
  omega

end

namespace Cpu

def cmpImm (left : Register) (value : BitVec 32) (cpu : Cpu) : Cpu :=
  { cpu with rflags := subFlags (cpu.registers left) (value.signExtend 64) cpu.rflags }

def andImm (target : Register) (value : BitVec 32) (cpu : Cpu) : Cpu :=
  let result := cpu.registers target &&& value.signExtend 64
  { cpu.setRegister target result with rflags := andFlags result cpu.rflags }

/-- The condition of `jle`. -/
def lessOrEqual (cpu : Cpu) : Bool :=
  cpu.rflags.getLsbD Flag.zero ||
    cpu.rflags.getLsbD Flag.sign != cpu.rflags.getLsbD Flag.overflow

theorem lessOrEqual_cmpImm (left : Register) (value : BitVec 32) (cpu : Cpu) :
    (cpu.cmpImm left value).lessOrEqual = true ↔
      (cpu.registers left).toInt ≤ value.toInt := by
  have extended : (value.signExtend 64).toInt = value.toInt :=
    BitVec.toInt_signExtend_of_le (by decide)
  rw [← extended, Int.le_iff_eq_or_lt, BitVec.toInt_inj, ← sign_ne_overflow_iff]
  simp only [lessOrEqual, cmpImm, zero_subFlags, sign_subFlags, overflow_subFlags, Bool.or_eq_true,
    decide_eq_true_eq, bne_iff_ne]

/-! ### `cpuid` -/

structure Leaf where
  eax : BitVec 32
  ebx : BitVec 32
  ecx : BitVec 32
  edx : BitVec 32
deriving DecidableEq, Repr

def leaf (cpu : Cpu) : BitVec 32 := (cpu.registers .rax).setWidth 32

/-- Writing a 32-bit register clears the upper half of the 64-bit one. -/
def cpuid (report : BitVec 32 → Leaf) (cpu : Cpu) : Cpu :=
  let answer := report cpu.leaf
  ((((cpu.setRegister .rax (answer.eax.setWidth 64)).setRegister .rbx
    (answer.ebx.setWidth 64)).setRegister .rcx (answer.ecx.setWidth 64)).setRegister .rdx
      (answer.edx.setWidth 64))

end Cpu

end X86
