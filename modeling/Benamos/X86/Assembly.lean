import Benamos.X86.Cpu

/-!
# Assembled routines

A text gives each routine its lines of instructions, and an image places the lines at addresses. The
processor finds the instruction to execute from `rip`, so code that was interrupted at any line
resumes there. Routines without lines stand for code outside the text.
-/

namespace X86

inductive Instruction (Routine : Type) where
  | push (source : Register)
  | pushImm (value : BitVec 32)
  | pop (target : Register)
  | mov (target source : Register)
  | addImm (target : Register) (value : BitVec 32)
  | cld
  | jmp (target : Routine)
  | call (target : Routine)
  | iretq
deriving DecidableEq, Repr

/-- The places of the lines of a text, with the lookup the processor does by address. -/
structure Image {Routine : Type} (text : Routine → List (Instruction Routine)) where
  address : Routine → ℕ → BitVec 64
  locate : BitVec 64 → Option (Routine × ℕ)
  locate_address : ∀ routine line, line < (text routine).length →
    locate (address routine line) = some (routine, line)

namespace Image

open Cpu

variable {Routine : Type} {text : Routine → List (Instruction Routine)} (image : Image text)

/-- The line `rip` points to and its instruction. -/
def fetch (rip : BitVec 64) : Option (Routine × ℕ × Instruction Routine) := do
  let (routine, line) ← image.locate rip
  let instruction ← (text routine)[line]?
  return (routine, line, instruction)

/-- The effect of the instruction at `line` of `routine`. -/
def execute (routine : Routine) (line : ℕ) (instruction : Instruction Routine) (cpu : Cpu) : Cpu :=
  let next := image.address routine (line + 1)
  match instruction with
  | .push source => (cpu.push (cpu.registers source)).jump next
  | .pushImm value => (cpu.push (value.signExtend 64)).jump next
  | .pop target => (cpu.pop target).jump next
  | .mov target source => (cpu.setRegister target (cpu.registers source)).jump next
  | .addImm target value =>
      { cpu.setRegister target (cpu.registers target + value.signExtend 64) with
        rip := next
        rflags := addFlags (cpu.registers target) (value.signExtend 64) cpu.rflags }
  | .cld => { cpu with rip := next, rflags := writeFlag Flag.direction false cpu.rflags }
  | .jmp target => cpu.jump (image.address target 0)
  | .call target => (cpu.push next).jump (image.address target 0)
  | .iretq => cpu.iretq

def step (cpu : Cpu) : Option Cpu := do
  let (routine, line, instruction) ← image.fetch cpu.rip
  return image.execute routine line instruction cpu

/-- Executes `count` instructions with nothing in between. -/
def run : ℕ → Cpu → Option Cpu
  | 0, cpu => some cpu
  | count + 1, cpu => image.step cpu >>= run count

variable {image}

theorem fetch_address {routine : Routine} {line : ℕ} {instruction : Instruction Routine}
    (code : (text routine)[line]? = some instruction) :
    image.fetch (image.address routine line) = some (routine, line, instruction) := by
  have inside : line < (text routine).length := by
    rcases List.getElem?_eq_some_iff.mp code with ⟨inside, _⟩
    exact inside
  simp [fetch, image.locate_address routine line inside, code]

theorem eq_of_address_eq {routine other : Routine} {line otherLine : ℕ}
    (same : image.address routine line = image.address other otherLine)
    (inside : line < (text routine).length) (otherInside : otherLine < (text other).length) :
    routine = other ∧ line = otherLine := by
  have located := image.locate_address routine line inside
  rw [same, image.locate_address other otherLine otherInside] at located
  simpa [eq_comm] using located

theorem step_of_rip {routine : Routine} {line : ℕ} {instruction : Instruction Routine} {cpu : Cpu}
    (rip_eq : cpu.rip = image.address routine line)
    (code : (text routine)[line]? = some instruction) :
    image.step cpu = some (image.execute routine line instruction cpu) := by
  simp [step, rip_eq, fetch_address code]

/-- An instruction writes no memory above the stack pointer. -/
theorem agreeOn_step {cpu next : Cpu} (stepped : image.step cpu = some next) (high : ℕ)
    (room : 8 ≤ (cpu.registers .rsp).toNat) :
    AgreeOn (cpu.registers .rsp).toNat high next.memory cpu.memory := by
  simp only [step, Option.bind_eq_bind, Option.bind_eq_some_iff] at stepped
  rcases stepped with ⟨⟨routine, line, instruction⟩, _, executed⟩
  cases executed
  have unchanged := AgreeOn.refl (cpu.registers .rsp).toNat high cpu.memory
  cases instruction with
  | push source => exact agreeOn_push _ unchanged (Nat.le_refl _) room
  | pushImm value => exact agreeOn_push _ unchanged (Nat.le_refl _) room
  | call target => exact agreeOn_push _ unchanged (Nat.le_refl _) room
  | pop target => exact unchanged
  | mov target source => exact unchanged
  | addImm target value => exact unchanged
  | cld => exact unchanged
  | jmp target => exact unchanged
  | iretq => exact unchanged

/-- Nor does it write below the word it pushes. -/
theorem agreeOn_step_below {cpu next : Cpu} (stepped : image.step cpu = some next) (low : ℕ)
    {high : ℕ} (below : high + 8 ≤ (cpu.registers .rsp).toNat) :
    AgreeOn low high next.memory cpu.memory := by
  simp only [step, Option.bind_eq_bind, Option.bind_eq_some_iff] at stepped
  rcases stepped with ⟨⟨routine, line, instruction⟩, _, executed⟩
  cases executed
  have unchanged := AgreeOn.refl low high cpu.memory
  have pushed (value : BitVec 64) : AgreeOn low high (cpu.push value).memory cpu.memory :=
    agreeOn_pushAll_below [value] unchanged below
  cases instruction with
  | push source => exact pushed _
  | pushImm value => exact pushed _
  | call target => exact pushed _
  | pop target => exact unchanged
  | mov target source => exact unchanged
  | addImm target value => exact unchanged
  | cld => exact unchanged
  | jmp target => exact unchanged
  | iretq => exact unchanged

theorem idtr_step {cpu next : Cpu} (stepped : image.step cpu = some next) :
    next.idtr = cpu.idtr := by
  simp only [step, Option.bind_eq_bind, Option.bind_eq_some_iff] at stepped
  rcases stepped with ⟨⟨routine, line, instruction⟩, _, executed⟩
  cases executed
  cases instruction <;> rfl

end Image

end X86
