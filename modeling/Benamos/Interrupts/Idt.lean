import Benamos.Types
import Benamos.X86.Cpu

/-!
# The data types of `cpu/idt.h`

`createInterruptDescriptor` splits a handler's address over three fields of a packed descriptor.
Read as a gate the way the processor does it, the descriptor gives back that address, whatever it
is. `Registers` is the packed struct that `isr_handler` gets a pointer to.
-/

namespace Benamos.Interrupts

open X86

structure InterruptDescriptor where
  offsetLow : U16
  segmentSelector : U16
  options : U16
  offsetMiddle : U16
  offsetHigh : U32
  reserved : U32
deriving DecidableEq, Repr

/-- The 16 bytes of the packed struct, as one little-endian number. -/
def InterruptDescriptor.bits (descriptor : InterruptDescriptor) : BitVec 128 :=
  descriptor.reserved ++ descriptor.offsetHigh ++ descriptor.offsetMiddle ++ descriptor.options ++
    descriptor.segmentSelector ++ descriptor.offsetLow

def createInterruptDescriptor (handler : U64) (segmentSelector : U16) (ist : U8) :
    InterruptDescriptor :=
  let attributes : U8 := 0x8F
  let offsetLow : U16 := (handler &&& 0xFFFF).setWidth 16
  let offsetMiddle : U16 := ((handler >>> 16) &&& 0xFFFF).setWidth 16
  let offsetHigh : U32 := (handler >>> 32).setWidth 32
  -- the shift promotes `attributes` to `int`, so no bit of it is lost
  let options : U16 := ((attributes.setWidth 32 <<< 8) ||| ist.setWidth 32).setWidth 16
  { offsetHigh, offsetLow, offsetMiddle, options, segmentSelector, reserved := 0 }

theorem setWidth_low (value : U64) : (value &&& 0xFFFF).setWidth 16 = value.setWidth 16 :=
  setWidth_and_ones value (by decide)

theorem append_offset (handler : U64) :
    handler.extractLsb' 32 32 ++ handler.extractLsb' 16 16 ++ handler.extractLsb' 0 16 =
      handler := by
  rw [BitVec.extractLsb'_append_extractLsb'_eq_extractLsb' (show 32 = 16 + 16 by rfl),
    BitVec.extractLsb'_append_extractLsb'_eq_extractLsb' (show 16 = 0 + 16 by rfl)]
  exact BitVec.extractLsb'_eq_self

/-- The fields of the descriptor, each at its place among the 16 bytes. -/
theorem bits_createInterruptDescriptor (handler : U64) (segmentSelector : U16) (ist : U8) :
    (createInterruptDescriptor handler segmentSelector ist).bits =
      0#32 ++ handler.extractLsb' 32 32 ++ handler.extractLsb' 16 16 ++ (0x8F#8 ++ ist) ++
        segmentSelector ++ handler.extractLsb' 0 16 := by
  have options : ((0x8F#8).setWidth 32 <<< 8 ||| ist.setWidth 32).setWidth 16 = 0x8F#8 ++ ist := by
    revert ist
    decide
  rw [← options, ← BitVec.setWidth_eq_extractLsb' (by decide)]
  simp only [InterruptDescriptor.bits, createInterruptDescriptor, setWidth_low,
    BitVec.setWidth_ushiftRight_eq_extractLsb]
  rfl

/-- What `REGISTER_ISR` puts into the table is a present trap gate of ring 0 in the kernel's code
segment, on the interrupted stack, at the address of the stub. -/
theorem decode_createInterruptDescriptor (handler : U64) (segmentSelector : U16) (ist : U8) :
    Gate.decode (createInterruptDescriptor handler segmentSelector ist).bits =
      { offset := handler, selector := segmentSelector, ist := ist.setWidth 3,
        type := Gate.trapGate, privilege := 0, present := true } := by
  rw [bits_createInterruptDescriptor, Gate.decode]
  simp (disch := decide) only [BitVec.extractLsb'_append_eq_of_le,
    BitVec.extractLsb'_append_eq_of_add_le]
  simp only [Nat.reduceAdd, Nat.reduceSub, BitVec.extractLsb'_eq_self, append_offset]
  rw [← BitVec.setWidth_eq_extractLsb' (by decide)]
  rfl

/-! ### The saved registers -/

/-- The packed `struct registers`. -/
@[ext]
structure Registers where
  r15 : U64
  r14 : U64
  r13 : U64
  r12 : U64
  r11 : U64
  r10 : U64
  r9 : U64
  r8 : U64
  rsi : U64
  rdi : U64
  rbp : U64
  rdx : U64
  rcx : U64
  rbx : U64
  rax : U64
  intNo : U64
  error : U64
  rip : U64
  cs : U64
  rflags : U64
  rsp : U64
  ss : U64
deriving DecidableEq, Repr

namespace Registers

def read (memory : Memory) (address : U64) : Registers where
  r15 := load64 memory address
  r14 := load64 memory (address + 8)
  r13 := load64 memory (address + 16)
  r12 := load64 memory (address + 24)
  r11 := load64 memory (address + 32)
  r10 := load64 memory (address + 40)
  r9 := load64 memory (address + 48)
  r8 := load64 memory (address + 56)
  rsi := load64 memory (address + 64)
  rdi := load64 memory (address + 72)
  rbp := load64 memory (address + 80)
  rdx := load64 memory (address + 88)
  rcx := load64 memory (address + 96)
  rbx := load64 memory (address + 104)
  rax := load64 memory (address + 112)
  intNo := load64 memory (address + 120)
  error := load64 memory (address + 128)
  rip := load64 memory (address + 136)
  cs := load64 memory (address + 144)
  rflags := load64 memory (address + 152)
  rsp := load64 memory (address + 160)
  ss := load64 memory (address + 168)

def general (frame : Registers) : Register → U64
  | .rax => frame.rax
  | .rbx => frame.rbx
  | .rcx => frame.rcx
  | .rdx => frame.rdx
  | .rsi => frame.rsi
  | .rdi => frame.rdi
  | .rbp => frame.rbp
  | .rsp => frame.rsp
  | .r8 => frame.r8
  | .r9 => frame.r9
  | .r10 => frame.r10
  | .r11 => frame.r11
  | .r12 => frame.r12
  | .r13 => frame.r13
  | .r14 => frame.r14
  | .r15 => frame.r15

/-- The fields in the order of their addresses. -/
def words (frame : Registers) : List U64 :=
  [frame.r15, frame.r14, frame.r13, frame.r12, frame.r11, frame.r10, frame.r9, frame.r8, frame.rsi,
    frame.rdi, frame.rbp, frame.rdx, frame.rcx, frame.rbx, frame.rax, frame.intNo, frame.error,
    frame.rip, frame.cs, frame.rflags, frame.rsp, frame.ss]

/-- What the struct should say about an interrupted `cpu`. -/
def saved (cpu : Cpu) (intNo error : U64) : Registers where
  r15 := cpu.registers .r15
  r14 := cpu.registers .r14
  r13 := cpu.registers .r13
  r12 := cpu.registers .r12
  r11 := cpu.registers .r11
  r10 := cpu.registers .r10
  r9 := cpu.registers .r9
  r8 := cpu.registers .r8
  rsi := cpu.registers .rsi
  rdi := cpu.registers .rdi
  rbp := cpu.registers .rbp
  rdx := cpu.registers .rdx
  rcx := cpu.registers .rcx
  rbx := cpu.registers .rbx
  rax := cpu.registers .rax
  intNo
  error
  rip := cpu.rip
  cs := (cpu.segments .cs).setWidth 64
  rflags := cpu.rflags
  rsp := cpu.registers .rsp
  ss := (cpu.segments .ss).setWidth 64

@[simp]
theorem length_words (frame : Registers) : frame.words.length = 22 := rfl

theorem general_saved (cpu : Cpu) (intNo error : U64) (register : Register) :
    (saved cpu intNo error).general register = cpu.registers register := by
  cases register <;> rfl

theorem stackHolds_words_iff {memory : Memory} {address : U64} {frame : Registers} :
    StackHolds memory address frame.words ↔ read memory address = frame := by
  simp only [words, StackHolds, read, Registers.ext_iff, BitVec.add_assoc, BitVec.reduceAdd,
    and_true]
  rfl

end Registers

end Benamos.Interrupts
