import Benamos.Boot.Kernel
import Benamos.Interrupts.Idt
import Benamos.Interrupts.Isr

/-!
# Filling and loading the interrupt table

`initialize_idt` of `cpu/idt.c` registers a gate for each stub and calls `load_idt` of
`cpu/idt.asm`. Filling the table is right for every link-time address. Loading it is another matter:
`load_idt` takes the limit from `di` and the base from `rsi`, as `set_gdt` does, but it is declared
and called without arguments, so the two registers hold whatever the compiled code left in them.
-/

namespace Benamos.Interrupts

open X86 Boot

/-- The lines of `set_interrupts_in_table`: `REGISTER_ISR(isrN, N)` for each of these. -/
def registeredIsrs : List U8 :=
  [0, 1, 2, 3, 4, 5, 6, 7, 8, 9, 10, 11, 12, 13, 14, 15, 16, 17, 18, 19, 20, 21, 22, 23, 24, 25, 26,
    27, 28, 29, 30, 31, 128]

def entryAddress (table : U64) (index : U8) : U64 := table + BitVec.ofNat 64 (16 * index.toNat)

/-- `REGISTER_ISR(isr, index)`. -/
def registerIsr (symbols : Symbols) (isr : U64) (index : U8) : Statement :=
  storeAt (entryAddress (symbols.object .interruptTable) index) 16
    (createInterruptDescriptor isr 0x8 0).bits

def setInterruptsInTable (symbols : Symbols) : List Statement :=
  registeredIsrs.map fun vector => registerIsr symbols (symbols.isr vector) vector

def registerHandler (symbols : Symbols) (handler : U64) (index : U8) : Statement :=
  storeAt (symbols.object .isrHandlerTable + BitVec.ofNat 64 (8 * index.toNat)) 8 handler

def loadCustomInterrupts (symbols : Symbols) : List Statement :=
  [registerHandler symbols symbols.breakpoint 0x03]

def lidt (place : U64) : Statement := fun cpu =>
  { cpu with idtr := ⟨load cpu.memory place 2, load cpu.memory (place + 2#64) 8⟩ }

def loadIdt (symbols : Symbols) : List Statement :=
  [fun cpu => storeAt (symbols.object .idtr) 2 ((cpu.registers .rdi).setWidth 16) cpu,
    fun cpu => storeAt (symbols.object .idtr + 2#64) 8 (cpu.registers .rsi) cpu,
    lidt (symbols.object .idtr)]

/-- What the compiled code makes of the registers from the entry of `initialize_idt` to its call of
`load_idt`. The prototype has no parameters, so nothing is known about it. -/
abbrev Leftover := (Register → U64) → Register → U64

def callLoadIdt (symbols : Symbols) (leftover : Leftover) : List Statement :=
  (fun cpu => { cpu with registers := leftover cpu.registers }) :: loadIdt symbols

def initializeIdt (symbols : Symbols) (leftover : Leftover) : List Statement :=
  setInterruptsInTable symbols ++ loadCustomInterrupts symbols ++ callLoadIdt symbols leftover

/-- The gate the processor finds for `vector`. -/
def Cpu.lookup (cpu : Cpu) (vector : U8) : Gate :=
  Gate.decode (load cpu.memory (entryAddress cpu.idtr.base vector) 16)

/-- The processor's lookup reaches the stubs: `idtr` describes the interrupt table, and the gate of
each vector with a stub leads there. -/
structure IdtReady (symbols : Symbols) (cpu : Cpu) : Prop where
  base : cpu.idtr.base = symbols.object .interruptTable
  limit : cpu.idtr.limit = 256 * 16 - 1
  present : ∀ stub : Stub, (Cpu.lookup cpu stub.vector).present
  selector : ∀ stub : Stub, (Cpu.lookup cpu stub.vector).selector = 0x8
  type : ∀ stub : Stub, (Cpu.lookup cpu stub.vector).type = Gate.trapGate
  offset : ∀ stub : Stub, (Cpu.lookup cpu stub.vector).offset = symbols.isr stub.vector

theorem mem_registeredIsrs (stub : Stub) : stub.vector ∈ registeredIsrs := by
  have table : ∀ entry ∈ stubTable, entry.1 ∈ registeredIsrs := by
    decide
  exact table _ stub.declared

/-! ### The table -/

/-- The entries of `vectors` hold the gates of their stubs. -/
def Filled (symbols : Symbols) (vectors : List U8) (memory : Memory) : Prop :=
  ∀ vector ∈ vectors,
    load memory (entryAddress (symbols.object .interruptTable) vector) 16 =
      (createInterruptDescriptor (symbols.isr vector) 0x8 0).bits

section

variable {symbols : Symbols} {leftover : Leftover} {cpu : Cpu}

theorem toNat_entryAddress (symbols : Symbols) (vector : U8) :
    (entryAddress (symbols.object .interruptTable) vector).toNat =
      (symbols.object .interruptTable).toNat + 16 * vector.toNat := by
  have small := vector.isLt
  apply symbols.toNat_offset
  simp only [Object.size]
  omega

theorem entry_fits (symbols : Symbols) (vector : U8) :
    (entryAddress (symbols.object .interruptTable) vector).toNat + 16 ≤
      symbols.stop .interruptTable := by
  have small := vector.isLt
  rw [toNat_entryAddress]
  simp only [Symbols.stop, Object.size]
  omega

theorem load_registerIsr_self (isr : U64) (vector : U8) :
    load (registerIsr symbols isr vector cpu).memory
      (entryAddress (symbols.object .interruptTable) vector) 16 =
      (createInterruptDescriptor isr 0x8 0).bits :=
  @load_store_same cpu.memory _ 16 _ (by decide)

theorem load_registerIsr_of_ne {isr : U64} {vector other : U8} (distinct : other ≠ vector) :
    load (registerIsr symbols isr vector cpu).memory
      (entryAddress (symbols.object .interruptTable) other) 16 =
      load cpu.memory (entryAddress (symbols.object .interruptTable) other) 16 := by
  have fits := symbols.fits .interruptTable
  have entryFits := entry_fits symbols vector
  have otherFits := entry_fits symbols other
  simp only [Symbols.stop] at entryFits otherFits
  have apart : vector.toNat ≠ other.toNat := by
    intro same
    exact distinct (BitVec.eq_of_toNat_eq same.symm)
  apply @load_store_disjoint cpu.memory _ _ 16 16
  · rw [toNat_entryAddress, toNat_entryAddress]
    omega
  · omega
  · omega

theorem load_register_of_notMem {vectors : List U8} {vector : U8} (notMem : vector ∉ vectors) :
    load (execute (vectors.map fun other => registerIsr symbols (symbols.isr other) other)
      cpu).memory (entryAddress (symbols.object .interruptTable) vector) 16 =
      load cpu.memory (entryAddress (symbols.object .interruptTable) vector) 16 := by
  induction vectors generalizing cpu with
  | nil => rfl
  | cons head vectors ih =>
      simp only [List.mem_cons, not_or] at notMem
      rcases notMem with ⟨distinct, notMem⟩
      rw [List.map_cons, execute_cons, ih notMem, load_registerIsr_of_ne distinct]

/-- Registering distinct vectors one after the other fills the entries of all of them. -/
theorem filled_register {vectors : List U8} (distinct : vectors.Nodup) :
    Filled symbols vectors (execute (vectors.map fun vector =>
      registerIsr symbols (symbols.isr vector) vector) cpu).memory := by
  induction vectors generalizing cpu with
  | nil => simp [Filled]
  | cons head vectors ih =>
      rcases List.nodup_cons.mp distinct with ⟨notMem, distinct⟩
      intro vector mem
      rw [List.map_cons, execute_cons]
      rcases List.mem_cons.mp mem with rfl | mem
      · rw [load_register_of_notMem notMem, load_registerIsr_self]
      · exact ih distinct vector mem

theorem Filled.same {vectors : List U8} {memory other : Memory}
    (filled : Filled symbols vectors memory) (same : symbols.Same .interruptTable other memory) :
    Filled symbols vectors other := by
  intro vector mem
  rw [← filled vector mem]
  apply same.load_eq
  · rw [toNat_entryAddress]
    exact Nat.le_add_right ..
  · exact entry_fits symbols vector
  · exact symbols.fits .interruptTable

/-! ### After `initialize_idt` -/

theorem registers_loadCustomInterrupts (symbols : Symbols) (cpu : Cpu) :
    (execute (loadCustomInterrupts symbols) cpu).registers = cpu.registers := rfl

theorem registers_register (vectors : List U8) :
    (execute (vectors.map fun vector => registerIsr symbols (symbols.isr vector) vector)
      cpu).registers = cpu.registers := by
  induction vectors generalizing cpu with
  | nil => rfl
  | cons head vectors ih => exact ih

theorem idtr_loadIdt (symbols : Symbols) (cpu : Cpu) :
    (execute (loadIdt symbols) cpu).idtr =
      ⟨(cpu.registers .rdi).setWidth 16, cpu.registers .rsi⟩ := by
  have fits := symbols.fits .idtr
  have place : (symbols.object .idtr + 2#64).toNat = (symbols.object .idtr).toNat + 2 :=
    symbols.toNat_offset .idtr (by decide)
  simp only [Object.size] at fits
  simp only [loadIdt, execute_cons, execute_nil, storeAt, lidt, TableRegister.mk.injEq]
  constructor
  · rw [@load_store_disjoint _ _ _ 8 2 _ (by omega) (by omega) (by omega)]
    exact @load_store_same cpu.memory _ 2 _ (by decide)
  · exact @load_store_same _ _ 8 _ (by decide)

theorem same_loadIdt (symbols : Symbols) (cpu : Cpu) :
    symbols.Same .interruptTable (execute (loadIdt symbols) cpu).memory cpu.memory := by
  have unchanged := Symbols.Same.refl symbols .interruptTable cpu.memory
  have distinct : Object.idtr ≠ .interruptTable := by decide
  have limit := unchanged.store distinct 0 2 (BitVec.add_zero _).symm
    ((cpu.registers .rdi).setWidth 16) (by decide) (by decide)
  exact limit.store distinct 2 8 rfl (cpu.registers .rsi) (by decide) (by decide)

theorem same_loadCustomInterrupts (symbols : Symbols) (cpu : Cpu) :
    symbols.Same .interruptTable (execute (loadCustomInterrupts symbols) cpu).memory
      cpu.memory := by
  have unchanged := Symbols.Same.refl symbols .interruptTable cpu.memory
  have distinct : Object.isrHandlerTable ≠ .interruptTable := by decide
  exact unchanged.store distinct (8 * 3) 8 rfl symbols.breakpoint (by decide) (by decide)

theorem filled_initializeIdt (symbols : Symbols) (leftover : Leftover) (cpu : Cpu) :
    Filled symbols registeredIsrs (execute (initializeIdt symbols leftover) cpu).memory := by
  have filled : Filled symbols registeredIsrs
      (execute (setInterruptsInTable symbols) cpu).memory := by
    rw [setInterruptsInTable]
    exact filled_register (show registeredIsrs.Nodup by decide)
  simp only [initializeIdt, execute_append, callLoadIdt, execute_cons]
  apply filled.same
  apply Symbols.Same.trans (same_loadIdt symbols _)
  exact same_loadCustomInterrupts symbols _

/-- The table register gets what the compiled code left in `di` and `rsi`. -/
theorem idtr_initializeIdt (symbols : Symbols) (leftover : Leftover) (cpu : Cpu) :
    (execute (initializeIdt symbols leftover) cpu).idtr =
      ⟨(leftover cpu.registers .rdi).setWidth 16, leftover cpu.registers .rsi⟩ := by
  have filled_eq : (execute (setInterruptsInTable symbols) cpu).registers = cpu.registers := by
    rw [setInterruptsInTable, registers_register]
  simp only [initializeIdt, execute_append, callLoadIdt, execute_cons]
  rw [idtr_loadIdt]
  simp only [registers_loadCustomInterrupts, filled_eq]

theorem lookup_of_filled (filled : Filled symbols registeredIsrs cpu.memory)
    (base : cpu.idtr.base = symbols.object .interruptTable) (stub : Stub) :
    Cpu.lookup cpu stub.vector =
      { offset := symbols.isr stub.vector, selector := 0x8, ist := 0, type := Gate.trapGate,
        privilege := 0, present := true } := by
  rw [Cpu.lookup, base, filled stub.vector (mem_registeredIsrs stub)]
  exact decode_createInterruptDescriptor _ _ _

theorem idtReady_of_filled (filled : Filled symbols registeredIsrs cpu.memory)
    (base : cpu.idtr.base = symbols.object .interruptTable)
    (limit : cpu.idtr.limit = 256 * 16 - 1) : IdtReady symbols cpu where
  base := base
  limit := limit
  present stub := by rw [lookup_of_filled filled base]
  selector stub := by rw [lookup_of_filled filled base]
  type stub := by rw [lookup_of_filled filled base]
  offset stub := by rw [lookup_of_filled filled base]

/-- The processor's lookup reaches the stubs exactly when the compiled code happens to call
`load_idt` with the table's limit in `di` and its address in `rsi`. -/
theorem idtReady_initializeIdt_iff (symbols : Symbols) (leftover : Leftover) (cpu : Cpu) :
    IdtReady symbols (execute (initializeIdt symbols leftover) cpu) ↔
      (leftover cpu.registers .rdi).setWidth 16 = (256 * 16 - 1 : U16) ∧
        leftover cpu.registers .rsi = symbols.object .interruptTable := by
  have idtr_eq := idtr_initializeIdt symbols leftover cpu
  constructor
  · intro ready
    have base := ready.base
    have limit := ready.limit
    rw [idtr_eq] at base limit
    exact ⟨limit, base⟩
  · rintro ⟨limit, base⟩
    apply idtReady_of_filled (filled_initializeIdt symbols leftover cpu)
    · rw [idtr_eq]
      exact base
    · rw [idtr_eq]
      exact limit

end

/-- Registers that are zero at the call leave the table register empty. -/
theorem not_idtReady_initializeIdt :
    ¬∀ (symbols : Symbols) (leftover : Leftover) (cpu : Cpu),
      IdtReady symbols (execute (initializeIdt symbols leftover) cpu) := by
  intro claim
  have limit := (claim linkedSymbols id default).limit
  rw [idtr_initializeIdt] at limit
  revert limit
  decide

end Benamos.Interrupts
