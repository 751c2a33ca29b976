import Benamos.Boot.Kernel
import Benamos.X86.Compare

/-!
# `get_max_phys_addr_bits` of `cpu/pmm.asm`

The routine asks the processor for its highest extended leaf and is meant to fall back on 36 bits
when leaf 0x80000008 is missing. The immediate of its comparison is extended by its sign and so
denotes a negative number, which no leaf number is below: the fallback is never taken.
-/

namespace Benamos.Boot

open X86

/-- The processor and the leaves it was asked for. -/
structure Probe where
  cpu : Cpu
  leaves : List U32

namespace Probe

def run (code : List Statement) (probe : Probe) : Probe :=
  { probe with cpu := execute code probe.cpu }

def cpuid (report : U32 → Cpu.Leaf) (probe : Probe) : Probe where
  cpu := probe.cpu.cpuid report
  leaves := probe.leaves ++ [probe.cpu.leaf]

end Probe

/-- Up to the second `cpuid`, and with the branch still to be decided. -/
def getMaxPhysAddrBits.compared (report : U32 → Cpu.Leaf) (probe : Probe) : Probe :=
  ((probe.run [fun cpu => cpu.push (cpu.registers .rbx),
    fun cpu => cpu.setRegister .rax 0x80000000]).cpuid report).run [Cpu.cmpImm .rax 0x80000008]

def getMaxPhysAddrBits.default (probe : Probe) : Probe :=
  probe.run [fun cpu => cpu.setRegister .rax 36, fun cpu => cpu.pop .rbx, Cpu.ret]

def getMaxPhysAddrBits (report : U32 → Cpu.Leaf) (probe : Probe) : Probe :=
  let probe := getMaxPhysAddrBits.compared report probe
  -- `jle .default`
  if probe.cpu.lessOrEqual then
    getMaxPhysAddrBits.default probe
  else
    ((probe.run [fun cpu => cpu.setRegister .rax 0x80000008]).cpuid report).run
      [Cpu.andImm .rax 0xFF, fun cpu => cpu.pop .rbx, Cpu.ret]

/-! ### The branch -/

section

variable (report : U32 → Cpu.Leaf) (probe : Probe)

theorem top_compared :
    (getMaxPhysAddrBits.compared report probe).cpu.top = probe.cpu.registers .rbx :=
  Cpu.top_push probe.cpu _

theorem toInt_setWidth_nonneg (value : U32) : 0 ≤ (value.setWidth 64).toInt := by
  have inside := value.isLt
  have same : (value.setWidth 64).toNat = value.toNat := BitVec.toNat_setWidth_of_le (by decide)
  rw [BitVec.toInt_eq_toNat_of_lt (by omega)]
  exact Int.natCast_nonneg _

/-- The highest leaf is compared as a number from 0 on, and the immediate as a negative one. -/
theorem lessOrEqual_compared :
    (getMaxPhysAddrBits.compared report probe).cpu.lessOrEqual = false := by
  rw [Bool.eq_false_iff]
  intro taken
  have below : ((report 0x80000000).eax.setWidth 64).toInt ≤ (0x80000008#32).toInt :=
    (Cpu.lessOrEqual_cmpImm _ _ _).mp taken
  have nonneg := toInt_setWidth_nonneg (report 0x80000000).eax
  have negative : (0x80000008#32).toInt < 0 := by decide
  exact absurd (nonneg.trans below) (not_le.mpr negative)

theorem getMaxPhysAddrBits_eq : getMaxPhysAddrBits report probe =
    (((getMaxPhysAddrBits.compared report probe).run
      [fun cpu => cpu.setRegister .rax 0x80000008]).cpuid report).run
        [Cpu.andImm .rax 0xFF, fun cpu => cpu.pop .rbx, Cpu.ret] := by
  rw [getMaxPhysAddrBits, lessOrEqual_compared]
  rfl

/-! ### What it returns -/

theorem leaves_getMaxPhysAddrBits : (getMaxPhysAddrBits report probe).leaves =
    probe.leaves ++ [0x80000000, 0x80000008] := by
  rw [getMaxPhysAddrBits_eq]
  exact List.append_assoc probe.leaves [0x80000000] [0x80000008]

theorem and_low_byte (value : U32) :
    value.setWidth 64 &&& (0xFF#32).signExtend 64 = BitVec.ofNat 64 (value.toNat % 256) := by
  apply BitVec.eq_of_toNat_eq
  have mask : ((0xFF#32).signExtend 64).toNat = 2 ^ 8 - 1 := by decide
  rw [BitVec.toNat_and, mask, Nat.and_two_pow_sub_one_eq_mod,
    BitVec.toNat_setWidth_of_le (by decide), BitVec.toNat_ofNat]
  omega

theorem rax_getMaxPhysAddrBits : (getMaxPhysAddrBits report probe).cpu.registers .rax =
    BitVec.ofNat 64 ((report 0x80000008).eax.toNat % 256) := by
  rw [getMaxPhysAddrBits_eq, ← and_low_byte]
  rfl

theorem rbx_getMaxPhysAddrBits :
    (getMaxPhysAddrBits report probe).cpu.registers .rbx = probe.cpu.registers .rbx := by
  rw [getMaxPhysAddrBits_eq]
  exact top_compared report probe

end

/-! ### What its comment says -/

/-- The routine reports the address bits of leaf 0x80000008 where the processor has that leaf and
36 otherwise, never asks for a leaf that is missing, and hands `rbx` back. -/
structure DetectsBits (report : U32 → Cpu.Leaf) (cpu : Cpu) : Prop where
  result : (getMaxPhysAddrBits report ⟨cpu, []⟩).cpu.registers .rax =
    if 0x80000008 ≤ (report 0x80000000).eax.toNat then
      BitVec.ofNat 64 ((report 0x80000008).eax.toNat % 256)
    else
      36
  available : (report 0x80000000).eax.toNat < 0x80000008 →
    0x80000008 ∉ (getMaxPhysAddrBits report ⟨cpu, []⟩).leaves
  kept : (getMaxPhysAddrBits report ⟨cpu, []⟩).cpu.registers .rbx = cpu.registers .rbx

/-- It asks for leaf 0x80000008 also where that leaf is missing. -/
theorem available_iff (report : U32 → Cpu.Leaf) (cpu : Cpu) :
    ((report 0x80000000).eax.toNat < 0x80000008 →
      0x80000008 ∉ (getMaxPhysAddrBits report ⟨cpu, []⟩).leaves) ↔
      0x80000008 ≤ (report 0x80000000).eax.toNat := by
  rw [leaves_getMaxPhysAddrBits]
  constructor
  · intro unasked
    apply Nat.le_of_not_lt
    intro missing
    apply unasked missing
    simp
  · intro present missing
    omega

theorem detectsBits_iff (report : U32 → Cpu.Leaf) (cpu : Cpu) :
    DetectsBits report cpu ↔ 0x80000008 ≤ (report 0x80000000).eax.toNat := by
  constructor
  · intro detects
    exact (available_iff report cpu).mp detects.available
  · intro present
    refine ⟨?_, (available_iff report cpu).mpr present, ?_⟩
    · rw [if_pos present, rax_getMaxPhysAddrBits]
    · exact rbx_getMaxPhysAddrBits report ⟨cpu, []⟩

/-- A processor whose extended leaves end at 0x80000004, behind the brand string. -/
def brandStringOnly (leaf : U32) : Cpu.Leaf :=
  if leaf = 0x80000000 then ⟨0x80000004, 0, 0, 0⟩ else ⟨0, 0, 0, 0⟩

theorem not_detectsBits : ¬∀ report cpu, DetectsBits report cpu := by
  intro claim
  have detects := claim brandStringOnly default
  have present := (available_iff brandStringOnly default).mp detects.available
  revert present
  decide

end Benamos.Boot
