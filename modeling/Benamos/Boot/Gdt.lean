import Benamos.Boot.Kernel

/-!
# The segments: `cpu/gdt.c` and `cpu/gdt.asm`

`initialize_gdt` appends four descriptors to the table, loads it, reloads the segment registers and,
at its end, enables interrupts.
-/

namespace Benamos.Boot

open X86

structure SegmentDescriptor where
  limit : U16
  baseLow : U16
  baseMiddle : U8
  access : U8
  options : U8
  baseHigh : U8
deriving DecidableEq, Repr

/-- The eight bytes of the packed struct. -/
def SegmentDescriptor.bits (descriptor : SegmentDescriptor) : U64 :=
  descriptor.baseHigh ++ descriptor.options ++ descriptor.access ++ descriptor.baseMiddle ++
    descriptor.baseLow ++ descriptor.limit

def createSegment (base limit : U32) (access flags : U8) : SegmentDescriptor :=
  let options : U8 :=
    (((limit >>> 16) &&& 0x0F) ||| ((flags.setWidth 32 <<< 4) &&& 0xF0)).setWidth 8
  let limitLow : U16 := (limit &&& 0xFFFF).setWidth 16
  let baseLow : U16 := (base &&& 0xFFFF).setWidth 16
  let baseMiddle : U8 := ((base >>> 16) &&& 0xFF).setWidth 8
  let baseHigh : U8 := ((base >>> 24) &&& 0xFF).setWidth 8
  { limit := limitLow, baseLow, baseMiddle, access, options, baseHigh }

def createKernelCodeSegment : SegmentDescriptor := createSegment 0 0xFFFFF 0b10011010 0x2

def createKernelDataSegment : SegmentDescriptor := createSegment 0 0xFFFFF 0b10010010 0xC

def createUserCodeSegment : SegmentDescriptor := createSegment 0 0xFFFFF 0b11111010 0x2

def createUserDataSegment : SegmentDescriptor := createSegment 0 0xFFFFF 0b11110010 0x2

/-! ### The assembly routines -/

def clearInterrupts : List Statement := [setFlag Flag.interrupt false]

def setInterrupts : List Statement := [setFlag Flag.interrupt true]

def lgdt (place : U64) : Statement := fun cpu =>
  { cpu with gdtr := ⟨load cpu.memory place 2, load cpu.memory (place + 2#64) 8⟩ }

def setGdt (symbols : Symbols) : List Statement :=
  [fun cpu => storeAt (symbols.object .gdtr) 2 ((cpu.registers .rdi).setWidth 16) cpu,
    fun cpu => storeAt (symbols.object .gdtr + 2#64) 8 (cpu.registers .rsi) cpu,
    lgdt (symbols.object .gdtr)]

def movSegment (segment : SegmentRegister) : Statement := fun cpu =>
  { cpu with
    segments := Function.update cpu.segments segment ((cpu.registers .rax).setWidth 16) }

/-- `reload_segments`. The far return takes the selector 0x8 and the address in `rax`. -/
def reloadSegments (symbols : Symbols) : List Statement :=
  [fun cpu => cpu.setRegister .rax symbols.reloadCs,
    fun cpu => { cpu with segments := Function.update cpu.segments .cs 0x8 },
    fun cpu => cpu.setRegister .rax ((cpu.registers .rax).extractLsb' 16 48 ++ 0x10#16),
    movSegment .ss, movSegment .ds, movSegment .es, movSegment .gs, movSegment .fs]

/-! ### `initialize_gdt` -/

/-- The address of `global_descriptor_table.length`, behind the twelve entries. -/
def lengthAddress (symbols : Symbols) : U64 :=
  symbols.object .globalDescriptorTable + 96#64

def tableLength (symbols : Symbols) (cpu : Cpu) : U64 := load64 cpu.memory (lengthAddress symbols)

def setLength (symbols : Symbols) (length : U64) : Statement :=
  storeAt (lengthAddress symbols) 8 length

/-- `entries[length] = descriptor; length++`. -/
def appendEntry (symbols : Symbols) (descriptor : SegmentDescriptor) : List Statement :=
  [fun cpu => storeAt (symbols.object .globalDescriptorTable +
      BitVec.ofNat 64 (8 * (tableLength symbols cpu).toNat)) 8 descriptor.bits cpu,
    fun cpu => setLength symbols (tableLength symbols cpu + 1) cpu]

/-- `set_gdt(length * sizeof(u64) - 1, entries)`. -/
def callSetGdt (symbols : Symbols) : List Statement :=
  (fun cpu => (cpu.setRegister .rdi
      ((tableLength symbols cpu * 8 - 1).setWidth 16 |>.setWidth 64)).setRegister .rsi
      (symbols.object .globalDescriptorTable)) ::
    setGdt symbols

def initializeGdt (symbols : Symbols) : List Statement :=
  [setLength symbols 1] ++ clearInterrupts ++ appendEntry symbols createKernelCodeSegment ++
    appendEntry symbols createKernelDataSegment ++ appendEntry symbols createUserCodeSegment ++
    appendEntry symbols createUserDataSegment ++ callSetGdt symbols ++ reloadSegments symbols ++
    setInterrupts

/-! ### What it leaves alone -/

section

variable {symbols : Symbols} {cpu : Cpu}

theorem tableLength_setLength (symbols : Symbols) (length : U64) (cpu : Cpu) :
    tableLength symbols (setLength symbols length cpu) = length :=
  load64_store64_same _ _ _

theorem same_setLength (symbols : Symbols) (length : U64) (cpu : Cpu) :
    symbols.Same .interruptTable (setLength symbols length cpu).memory cpu.memory := by
  have distinct : Object.globalDescriptorTable ≠ .interruptTable := by decide
  exact (Symbols.Same.refl symbols .interruptTable cpu.memory).store distinct 96 8 rfl length
    (by decide) (by decide)

/-- `entries[length] = descriptor`. -/
theorem storeEntry_spec (symbols : Symbols) (descriptor : SegmentDescriptor) {length : ℕ}
    (inside : length < 12) (cpu : Cpu) :
    let stored := storeAt (symbols.object .globalDescriptorTable + BitVec.ofNat 64 (8 * length)) 8
      descriptor.bits cpu
    tableLength symbols stored = tableLength symbols cpu ∧
      symbols.Same .interruptTable stored.memory cpu.memory := by
  have fits := symbols.fits .globalDescriptorTable
  have entry := symbols.toNat_offset .globalDescriptorTable
    (show 8 * length < Object.globalDescriptorTable.size by simp only [Object.size]; omega)
  have place : (lengthAddress symbols).toNat =
      (symbols.object .globalDescriptorTable).toNat + 96 :=
    symbols.toNat_offset .globalDescriptorTable (by decide)
  simp only [Object.size] at fits
  constructor
  · apply @load_store_disjoint cpu.memory _ _ 8 8
    · rw [entry, place]
      omega
    · omega
    · omega
  · have distinct : Object.globalDescriptorTable ≠ .interruptTable := by decide
    apply (Symbols.Same.refl symbols .interruptTable cpu.memory).store distinct (8 * length) 8 rfl
    · simp only [Object.size]
      omega
    · decide

/-- The table of segments has `length` entries, and nothing was written into the interrupt table
since `start`. -/
structure Appended (symbols : Symbols) (start : Cpu) (length : U64) (cpu : Cpu) : Prop where
  length_eq : tableLength symbols cpu = length
  same : symbols.Same .interruptTable cpu.memory start.memory

theorem appended_start (symbols : Symbols) (start : Cpu) :
    Appended symbols start 1 (execute clearInterrupts (setLength symbols 1 start)) where
  length_eq := tableLength_setLength symbols 1 start
  same := same_setLength symbols 1 start

theorem Appended.append {start : Cpu} {length : U64} (descriptor : SegmentDescriptor)
    (appended : Appended symbols start length cpu) (inside : length.toNat < 12) :
    Appended symbols start (length + 1) (execute (appendEntry symbols descriptor) cpu) := by
  rcases appended with ⟨length_eq, same⟩
  rcases storeEntry_spec symbols descriptor inside cpu with ⟨stored_length, stored_same⟩
  simp only [appendEntry, execute_cons, execute_nil]
  rw [length_eq]
  constructor
  · rw [tableLength_setLength, stored_length, length_eq]
  · exact ((same_setLength symbols _ _).trans stored_same).trans same

theorem same_callSetGdt (symbols : Symbols) (cpu : Cpu) :
    symbols.Same .interruptTable (execute (callSetGdt symbols) cpu).memory cpu.memory := by
  have distinct : Object.gdtr ≠ .interruptTable := by decide
  have unchanged := Symbols.Same.refl symbols .interruptTable cpu.memory
  simp only [callSetGdt, setGdt, execute_cons, execute_nil, storeAt, lgdt]
  apply Symbols.Same.store _ distinct 2 8 rfl _ (by decide) (by decide)
  exact unchanged.store distinct 0 2 (BitVec.add_zero _).symm _ (by decide) (by decide)

theorem memory_reloadSegments (symbols : Symbols) (cpu : Cpu) :
    (execute (reloadSegments symbols) cpu).memory = cpu.memory := rfl

theorem memory_setInterrupts (cpu : Cpu) :
    (execute setInterrupts cpu).memory = cpu.memory := rfl

theorem same_initializeGdt (symbols : Symbols) (cpu : Cpu) :
    symbols.Same .interruptTable (execute (initializeGdt symbols) cpu).memory cpu.memory := by
  have code := (appended_start symbols cpu).append createKernelCodeSegment (by decide)
  have data := code.append createKernelDataSegment (by decide)
  have userCode := data.append createUserCodeSegment (by decide)
  have userData := userCode.append createUserDataSegment (by decide)
  rw [initializeGdt, execute_append, memory_setInterrupts, execute_append, memory_reloadSegments,
    execute_append]
  apply Symbols.Same.trans (same_callSetGdt symbols _)
  rw [execute_append, execute_append, execute_append, execute_append, execute_append]
  exact userData.same

theorem enabled_initializeGdt (symbols : Symbols) (cpu : Cpu) :
    (execute (initializeGdt symbols) cpu).rflags.getLsbD Flag.interrupt = true := by
  simp only [initializeGdt, execute_append, setInterrupts, execute_cons, execute_nil]
  exact getLsbD_writeFlag_self true _ (by decide)

end

end Benamos.Boot
