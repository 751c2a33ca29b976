import Benamos.X86.Stack
import Mathlib.Logic.Function.Basic

/-!
# The processor in 64-bit mode

The part of the state that kernel entry code touches, the stack operations on it, and the delivery
of an interrupt through a gate of the interrupt descriptor table. Delivery aligns the stack pointer
down to 16 bytes and pushes `ss`, `rsp`, `rflags`, `cs`, `rip` and, for some exceptions, an error
code; `iretq` undoes it.

`HasPushed` is the invariant of a push sequence: what the stack holds, how far the stack pointer
has moved, and that the other registers are as they were.
-/

namespace X86

inductive Register where
  | rax | rbx | rcx | rdx | rsi | rdi | rbp | rsp
  | r8 | r9 | r10 | r11 | r12 | r13 | r14 | r15
deriving DecidableEq, Repr

inductive SegmentRegister where
  | cs | ss | ds | es | fs | gs
deriving DecidableEq, Repr

@[ext]
structure TableRegister where
  limit : BitVec 16
  base : BitVec 64
deriving DecidableEq, Repr, Inhabited

@[ext]
structure Cpu where
  registers : Register → BitVec 64
  segments : SegmentRegister → BitVec 16
  rip : BitVec 64
  rflags : BitVec 64
  idtr : TableRegister
  gdtr : TableRegister
  memory : Memory
deriving Inhabited

/-! ### Flags -/

namespace Flag

def carry : ℕ := 0
def parity : ℕ := 2
def adjust : ℕ := 4
def zero : ℕ := 6
def sign : ℕ := 7
def trap : ℕ := 8
def interrupt : ℕ := 9
def direction : ℕ := 10
def overflow : ℕ := 11
def nestedTask : ℕ := 14
def resume : ℕ := 16
def virtual8086 : ℕ := 17

end Flag

def writeFlag (flag : ℕ) (value : Bool) (rflags : BitVec 64) : BitVec 64 :=
  if value then rflags ||| BitVec.twoPow 64 flag else rflags &&& ~~~BitVec.twoPow 64 flag

theorem getLsbD_writeFlag_self {flag : ℕ} (value : Bool) (rflags : BitVec 64)
    (inside : flag < 64) : (writeFlag flag value rflags).getLsbD flag = value := by
  cases value <;> simp [writeFlag, inside]

theorem getLsbD_writeFlag_of_ne {flag bit : ℕ} (value : Bool) (rflags : BitVec 64)
    (distinct : bit ≠ flag) :
    (writeFlag flag value rflags).getLsbD bit = rflags.getLsbD bit := by
  by_cases inside : bit < 64
  · cases value <;> simp [writeFlag, inside, distinct]
  · rw [BitVec.getLsbD_of_ge _ _ (by omega), BitVec.getLsbD_of_ge _ _ (by omega)]

def addFlags (left right rflags : BitVec 64) : BitVec 64 :=
  let sum := left + right
  let lowOnes := ((List.range 8).filter fun bit => sum.getLsbD bit).length
  writeFlag Flag.carry (2 ^ 64 ≤ left.toNat + right.toNat) <|
    writeFlag Flag.parity (lowOnes % 2 = 0) <|
    writeFlag Flag.adjust (16 ≤ left.toNat % 16 + right.toNat % 16) <|
    writeFlag Flag.zero (sum = 0#64) <|
    writeFlag Flag.sign sum.msb <|
    writeFlag Flag.overflow (left.msb = right.msb ∧ sum.msb ≠ left.msb) rflags

namespace Cpu

def setRegister (cpu : Cpu) (register : Register) (value : BitVec 64) : Cpu :=
  { cpu with registers := Function.update cpu.registers register value }

def jump (cpu : Cpu) (target : BitVec 64) : Cpu := { cpu with rip := target }

@[simp]
theorem registers_setRegister_self (cpu : Cpu) (register : Register) (value : BitVec 64) :
    (cpu.setRegister register value).registers register = value :=
  Function.update_self ..

theorem registers_setRegister_of_ne (cpu : Cpu) {register other : Register} (value : BitVec 64)
    (distinct : other ≠ register) :
    (cpu.setRegister register value).registers other = cpu.registers other :=
  Function.update_of_ne distinct ..

@[simp]
theorem memory_setRegister (cpu : Cpu) (register : Register) (value : BitVec 64) :
    (cpu.setRegister register value).memory = cpu.memory := rfl

@[simp]
theorem registers_jump (cpu : Cpu) (target : BitVec 64) :
    (cpu.jump target).registers = cpu.registers := rfl

@[simp]
theorem memory_jump (cpu : Cpu) (target : BitVec 64) : (cpu.jump target).memory = cpu.memory := rfl

@[simp]
theorem rip_jump (cpu : Cpu) (target : BitVec 64) : (cpu.jump target).rip = target := rfl

/-! ### The stack -/

def push (cpu : Cpu) (value : BitVec 64) : Cpu :=
  { cpu.setRegister .rsp (cpu.registers .rsp - 8#64) with
    memory := store64 cpu.memory (cpu.registers .rsp - 8#64) value }

@[simp]
theorem registers_push (cpu : Cpu) (value : BitVec 64) :
    (cpu.push value).registers =
      Function.update cpu.registers .rsp (cpu.registers .rsp - 8#64) := rfl

@[simp]
theorem memory_push (cpu : Cpu) (value : BitVec 64) :
    (cpu.push value).memory = store64 cpu.memory (cpu.registers .rsp - 8#64) value := rfl

def pushAll (cpu : Cpu) (values : List (BitVec 64)) : Cpu := values.foldl push cpu

@[simp]
theorem pushAll_nil (cpu : Cpu) : cpu.pushAll [] = cpu := rfl

@[simp]
theorem pushAll_cons (cpu : Cpu) (value : BitVec 64) (values : List (BitVec 64)) :
    cpu.pushAll (value :: values) = (cpu.push value).pushAll values := rfl

theorem agreeOn_push {low high : ℕ} {memory : Memory} {cpu : Cpu} (value : BitVec 64)
    (agree : AgreeOn low high cpu.memory memory) (above : (cpu.registers .rsp).toNat ≤ low)
    (room : 8 ≤ (cpu.registers .rsp).toNat) : AgreeOn low high (cpu.push value).memory memory := by
  apply agree.store_below
  rw [toNat_sub_ofNat room]
  omega

theorem agreeOn_pushAll {low high : ℕ} {memory : Memory} {cpu : Cpu} (values : List (BitVec 64))
    (agree : AgreeOn low high cpu.memory memory) (above : (cpu.registers .rsp).toNat ≤ low)
    (room : 8 * values.length ≤ (cpu.registers .rsp).toNat) :
    AgreeOn low high (cpu.pushAll values).memory memory := by
  induction values generalizing cpu with
  | nil => exact agree
  | cons value values ih =>
      rw [List.length_cons] at room
      have moved : ((cpu.push value).registers .rsp).toNat = (cpu.registers .rsp).toNat - 8 := by
        rw [registers_push, Function.update_self, toNat_sub_ofNat (by omega)]
      apply ih
      · exact agreeOn_push value agree above (by omega)
      · omega
      · omega

/-- Memory below the pushed words is left alone as well. -/
theorem agreeOn_pushAll_below {low high : ℕ} {memory : Memory} {cpu : Cpu}
    (values : List (BitVec 64)) (agree : AgreeOn low high cpu.memory memory)
    (below : high + 8 * values.length ≤ (cpu.registers .rsp).toNat) :
    AgreeOn low high (cpu.pushAll values).memory memory := by
  induction values generalizing cpu with
  | nil => exact agree
  | cons value values ih =>
      rw [List.length_cons] at below
      have inside := (cpu.registers .rsp).isLt
      have moved : (cpu.registers .rsp - 8#64).toNat = (cpu.registers .rsp).toNat - 8 :=
        toNat_sub_ofNat (by omega)
      apply ih
      · apply agree.store_apart
        · right
          omega
        · omega
      · rw [registers_push, Function.update_self]
        omega

@[simp]
theorem idtr_pushAll (cpu : Cpu) (values : List (BitVec 64)) :
    (cpu.pushAll values).idtr = cpu.idtr := by
  induction values generalizing cpu with
  | nil => rfl
  | cons value values ih => exact ih _

def top (cpu : Cpu) : BitVec 64 := load64 cpu.memory (cpu.registers .rsp)

@[simp]
theorem top_push (cpu : Cpu) (value : BitVec 64) : (cpu.push value).top = value := by
  rw [top, registers_push, Function.update_self, memory_push, load64_store64_same]

def pop (cpu : Cpu) (target : Register) : Cpu :=
  (cpu.setRegister .rsp (cpu.registers .rsp + 8#64)).setRegister target cpu.top

theorem registers_pop_rsp (cpu : Cpu) {target : Register} (isOther : target ≠ .rsp) :
    (cpu.pop target).registers .rsp = cpu.registers .rsp + 8#64 := by
  simp [pop, registers_setRegister_of_ne _ _ isOther.symm]

@[simp]
theorem registers_pop_self (cpu : Cpu) (target : Register) :
    (cpu.pop target).registers target = cpu.top :=
  registers_setRegister_self ..

theorem registers_pop_of_ne (cpu : Cpu) {target other : Register} (distinct : other ≠ target)
    (isOther : other ≠ .rsp) : (cpu.pop target).registers other = cpu.registers other := by
  simp [pop, registers_setRegister_of_ne _ _ distinct, registers_setRegister_of_ne _ _ isOther]

@[simp]
theorem memory_pop (cpu : Cpu) (target : Register) : (cpu.pop target).memory = cpu.memory := rfl

def ret (cpu : Cpu) : Cpu := (cpu.setRegister .rsp (cpu.registers .rsp + 8#64)).jump cpu.top

/-- Resumes the code whose return frame is on top of the stack. The processor faults on a frame
with a selector it does not accept and has no storage for the reserved flags; the frames considered
here hold an image that it accepts as it is. -/
def iretq (cpu : Cpu) : Cpu :=
  { cpu.setRegister .rsp (load64 cpu.memory (cpu.registers .rsp + 24#64)) with
    rip := cpu.top
    segments := Function.update
      (Function.update cpu.segments .cs
        ((load64 cpu.memory (cpu.registers .rsp + 8#64)).setWidth 16))
      .ss ((load64 cpu.memory (cpu.registers .rsp + 32#64)).setWidth 16)
    rflags := load64 cpu.memory (cpu.registers .rsp + 16#64) }

/-- `words` were pushed, the last one first, onto the stack that started at `base`, and the other
registers hold their values in `registers`. -/
structure HasPushed (registers : Register → BitVec 64) (base : BitVec 64)
    (words : List (BitVec 64)) (cpu : Cpu) : Prop where
  rsp_eq : cpu.registers .rsp = base - BitVec.ofNat 64 (8 * words.length)
  holds : StackHolds cpu.memory (cpu.registers .rsp) words
  kept : ∀ register, register ≠ .rsp → cpu.registers register = registers register

theorem hasPushed_start (cpu : Cpu) (base : BitVec 64) :
    HasPushed cpu.registers base [] (cpu.setRegister .rsp base) where
  rsp_eq := by simp
  holds := StackHolds.nil _ _
  kept _ isOther := registers_setRegister_of_ne _ _ isOther

namespace HasPushed

variable {registers : Register → BitVec 64} {base : BitVec 64} {words : List (BitVec 64)}
  {cpu : Cpu}

theorem congr {other : Cpu} (pushed : HasPushed registers base words cpu)
    (sameRegisters : other.registers = cpu.registers) (sameMemory : other.memory = cpu.memory) :
    HasPushed registers base words other where
  rsp_eq := by rw [sameRegisters, pushed.rsp_eq]
  holds := by
    rw [sameRegisters, sameMemory]
    exact pushed.holds
  kept register isOther := by rw [sameRegisters, pushed.kept register isOther]

theorem push (pushed : HasPushed registers base words cpu) (value : BitVec 64)
    (noWrap : 8 * (words.length + 1) ≤ 2 ^ 64) :
    HasPushed registers base (value :: words) (cpu.push value) where
  rsp_eq := by
    simp [pushed.rsp_eq, Nat.mul_succ, BitVec.ofNat_add, BitVec.sub_sub]
  holds := by
    simpa using pushed.holds.push value noWrap
  kept register isOther := by
    simp [Function.update_of_ne isOther, pushed.kept register isOther]

theorem jump (pushed : HasPushed registers base words cpu) (target : BitVec 64) :
    HasPushed registers base words (cpu.jump target) :=
  pushed.congr rfl rfl

theorem toNat_rsp (pushed : HasPushed registers base words cpu)
    (noWrap : 8 * words.length ≤ base.toNat) :
    (cpu.registers .rsp).toNat = base.toNat - 8 * words.length := by
  rw [pushed.rsp_eq, toNat_sub_ofNat noWrap]

/-- Code that leaves the registers and the words on the stack alone keeps the invariant. -/
theorem agree {other : Cpu} {high : ℕ} (pushed : HasPushed registers base words cpu)
    (sameRegisters : other.registers = cpu.registers)
    (agree : AgreeOn (cpu.registers .rsp).toNat high cpu.memory other.memory)
    (noWrap : 8 * words.length ≤ base.toNat) (below : base.toNat ≤ high) (top : high ≤ 2 ^ 64) :
    HasPushed registers base words other where
  rsp_eq := by rw [sameRegisters, pushed.rsp_eq]
  holds := by
    rw [sameRegisters]
    apply pushed.holds.congr agree (Nat.le_refl _) _ top
    rw [pushed.toNat_rsp noWrap]
    omega
  kept register isOther := by rw [sameRegisters, pushed.kept register isOther]

theorem pushAll (pushed : HasPushed registers base words cpu) (values : List (BitVec 64))
    (noWrap : 8 * (values.length + words.length) ≤ 2 ^ 64) :
    HasPushed registers base (values.reverse ++ words) (cpu.pushAll values) := by
  induction values generalizing cpu words with
  | nil => simpa using pushed
  | cons value values ih =>
      rw [List.length_cons] at noWrap
      have first := pushed.push value (by omega)
      simpa using ih first (by rw [List.length_cons]; omega)

end HasPushed

end Cpu

/-! ### Descriptors -/

/-- What a 16-byte entry of the interrupt descriptor table says. -/
@[ext]
structure Gate where
  offset : BitVec 64
  selector : BitVec 16
  ist : BitVec 3
  type : BitVec 4
  privilege : BitVec 2
  present : Bool
deriving DecidableEq, Repr

namespace Gate

/-- The layout of a gate descriptor in 64-bit mode. -/
def decode (descriptor : BitVec 128) : Gate where
  offset := descriptor.extractLsb' 64 32 ++ descriptor.extractLsb' 48 16 ++
    descriptor.extractLsb' 0 16
  selector := descriptor.extractLsb' 16 16
  ist := descriptor.extractLsb' 32 3
  type := descriptor.extractLsb' 40 4
  privilege := descriptor.extractLsb' 45 2
  present := descriptor.extractLsb' 47 1 = 1#1

def interruptGate : BitVec 4 := 0xE#4

def trapGate : BitVec 4 := 0xF#4

/-- The flags on entry: only an interrupt gate clears the interrupt flag. -/
def entryFlags (gate : Gate) (rflags : BitVec 64) : BitVec 64 :=
  let rflags := writeFlag Flag.trap false <| writeFlag Flag.nestedTask false <|
    writeFlag Flag.resume false <| writeFlag Flag.virtual8086 false rflags
  if gate.type = interruptGate then writeFlag Flag.interrupt false rflags else rflags

end Gate

/-- What an entry of the global descriptor table for code or data says. -/
@[ext]
structure Segment where
  base : BitVec 32
  limit : BitVec 20
  access : BitVec 8
  flags : BitVec 4
deriving DecidableEq, Repr

/-- The layout of a segment descriptor. -/
def Segment.decode (descriptor : BitVec 64) : Segment where
  base := descriptor.extractLsb' 56 8 ++ descriptor.extractLsb' 16 24
  limit := descriptor.extractLsb' 48 4 ++ descriptor.extractLsb' 0 16
  access := descriptor.extractLsb' 40 8
  flags := descriptor.extractLsb' 52 4

/-- The exceptions for which the processor pushes an error code. -/
def pushesErrorCode (vector : BitVec 8) : Bool :=
  vector ∈ [8#8, 10#8, 11#8, 12#8, 13#8, 14#8, 17#8, 21#8, 29#8, 30#8]

def alignDown (stack : BitVec 64) : BitVec 64 := stack - stack % 16#64

theorem toNat_alignDown (stack : BitVec 64) :
    (alignDown stack).toNat = stack.toNat - stack.toNat % 16 := by
  rw [alignDown, BitVec.toNat_sub_of_le, BitVec.toNat_umod]
  · rfl
  · rw [BitVec.le_def, BitVec.toNat_umod]
    exact Nat.mod_le ..

namespace Cpu

/-- The words pushed on delivery, in the order in which they are pushed. -/
def interruptWords (cpu : Cpu) (errorCode : Option (BitVec 32)) : List (BitVec 64) :=
  [(cpu.segments .ss).setWidth 64, cpu.registers .rsp, cpu.rflags,
    (cpu.segments .cs).setWidth 64, cpu.rip] ++
    (errorCode.map (BitVec.setWidth 64)).toList

/-- Delivery through `gate` on the stack the processor selects for it, which is the interrupted one
when the gate names no other stack and the privilege level does not change. -/
def deliver (cpu : Cpu) (gate : Gate) (stack : BitVec 64) (errorCode : Option (BitVec 32)) : Cpu :=
  { (cpu.setRegister .rsp (alignDown stack)).pushAll (cpu.interruptWords errorCode) with
    rip := gate.offset
    segments := Function.update cpu.segments .cs gate.selector
    rflags := gate.entryFlags cpu.rflags }

theorem registers_deliver (cpu : Cpu) (gate : Gate) (stack : BitVec 64)
    (errorCode : Option (BitVec 32)) :
    (cpu.deliver gate stack errorCode).registers =
      ((cpu.setRegister .rsp (alignDown stack)).pushAll
        (cpu.interruptWords errorCode)).registers := by
  rw [deliver]

theorem memory_deliver (cpu : Cpu) (gate : Gate) (stack : BitVec 64)
    (errorCode : Option (BitVec 32)) :
    (cpu.deliver gate stack errorCode).memory =
      ((cpu.setRegister .rsp (alignDown stack)).pushAll
        (cpu.interruptWords errorCode)).memory := by
  rw [deliver]

theorem length_interruptWords_le (cpu : Cpu) (errorCode : Option (BitVec 32)) :
    (cpu.interruptWords errorCode).length ≤ 6 := by
  cases errorCode <;> simp [interruptWords]

theorem agreeOn_deliver (cpu : Cpu) (gate : Gate) (stack : BitVec 64)
    (errorCode : Option (BitVec 32)) (high : ℕ) (room : 48 ≤ (alignDown stack).toNat) :
    AgreeOn stack.toNat high (cpu.deliver gate stack errorCode).memory cpu.memory := by
  have short := cpu.length_interruptWords_le errorCode
  rw [memory_deliver]
  apply agreeOn_pushAll
  · exact AgreeOn.refl _ _ _
  · rw [registers_setRegister_self, toNat_alignDown]
    exact Nat.sub_le ..
  · rw [registers_setRegister_self]
    omega

theorem agreeOn_deliver_below (cpu : Cpu) (gate : Gate) (stack : BitVec 64)
    (errorCode : Option (BitVec 32)) (low : ℕ) {high : ℕ}
    (below : high + 48 ≤ (alignDown stack).toNat) :
    AgreeOn low high (cpu.deliver gate stack errorCode).memory cpu.memory := by
  have short := cpu.length_interruptWords_le errorCode
  rw [memory_deliver]
  apply agreeOn_pushAll_below
  · exact AgreeOn.refl _ _ _
  · rw [registers_setRegister_self]
    omega

theorem idtr_deliver (cpu : Cpu) (gate : Gate) (stack : BitVec 64)
    (errorCode : Option (BitVec 32)) : (cpu.deliver gate stack errorCode).idtr = cpu.idtr := by
  simp only [deliver, idtr_pushAll]
  rfl

theorem hasPushed_deliver (cpu : Cpu) (gate : Gate) (stack : BitVec 64)
    (errorCode : Option (BitVec 32)) :
    HasPushed cpu.registers (alignDown stack) (cpu.interruptWords errorCode).reverse
      (cpu.deliver gate stack errorCode) := by
  have short := cpu.length_interruptWords_le errorCode
  have pushed := (cpu.hasPushed_start (alignDown stack)).pushAll
    (cpu.interruptWords errorCode) (by rw [List.length_nil]; omega)
  rw [List.append_nil] at pushed
  exact pushed.congr (cpu.registers_deliver gate stack errorCode)
    (cpu.memory_deliver gate stack errorCode)

end Cpu

end X86
