import Benamos.Boot.Tables
import Benamos.Interrupts.Report

/-!
# The machine after `init`

The tables `init` leaves behind: the segments, a gate for each stub and none for the other vectors,
and a table of handlers with a single entry. So the kernel survives one interrupt only, the
breakpoint; each of the others ends in a report, except the last one, for which there is no
message.
-/

namespace Benamos.Boot

open X86 Interrupts Console Reading

/-- The static objects without initial values are zero when the bootloader hands over. -/
structure StaticBoot (symbols : Symbols) extends BootState symbols where
  noHandlers : symbols.Same .isrHandlerTable cpu.memory fun _ => 0

/-- The gate in the kernel's interrupt table. -/
def gateAt (symbols : Symbols) (cpu : Cpu) (vector : U8) : Gate :=
  Gate.decode (load cpu.memory (entryAddress (symbols.object .interruptTable) vector) 16)

/-- The entry of `isr_handler_table`. -/
def handlerAt (symbols : Symbols) (cpu : Cpu) (vector : U8) : U64 :=
  load64 cpu.memory (symbols.object .isrHandlerTable + BitVec.ofNat 64 (8 * vector.toNat))

structure Booted (symbols : Symbols) (report : U32 → Cpu.Leaf) (cpu : Cpu) : Prop where
  segments : SegmentsReady symbols cpu
  gates : ∀ stub : Stub, gateAt symbols cpu stub.vector =
    { offset := symbols.isr stub.vector, selector := 0x8, ist := 0, type := Gate.trapGate,
      privilege := 0, present := true }
  absent : ∀ vector, vector ∉ registeredIsrs → (gateAt symbols cpu vector).present = false
  handlers : ∀ vector, handlerAt symbols cpu vector = if vector = 3 then symbols.breakpoint else 0
  maxPhysAddr : load64 cpu.memory (symbols.object .maxPhysAddr) =
    BitVec.ofNat 64 ((report 0x80000008).eax.toNat % 256)
  enabled : cpu.rflags.getLsbD Flag.interrupt = true

/-! ### What each function leaves alone -/

section

variable {symbols : Symbols} {leftover : Leftover} {cpu : Cpu} {item : Object}

theorem keeps_same {code : List Statement} (before : Memory)
    (same : ∀ statement ∈ code, ∀ cpu, symbols.Same item (statement cpu).memory cpu.memory) :
    Keeps (fun cpu => symbols.Same item cpu.memory before) code :=
  fun statement mem cpu holds => (same statement mem cpu).trans holds

theorem same_execute {code : List Statement}
    (same : ∀ statement ∈ code, ∀ cpu, symbols.Same item (statement cpu).memory cpu.memory)
    (cpu : Cpu) : symbols.Same item (execute code cpu).memory cpu.memory :=
  (keeps_same cpu.memory same).execute (Symbols.Same.refl _ _ _)

theorem same_setInterruptsInTable (isOther : item ≠ .interruptTable) (cpu : Cpu) :
    symbols.Same item (execute (setInterruptsInTable symbols) cpu).memory cpu.memory := by
  apply same_execute
  intro statement mem cpu
  rcases List.mem_map.mp mem with ⟨vector, _, rfl⟩
  have small := vector.isLt
  apply same_storeAt symbols isOther.symm (16 * vector.toNat) 16 rfl
  · simp only [Object.size]
    omega
  · decide

theorem same_registerHandler (isOther : item ≠ .isrHandlerTable) (cpu : Cpu) :
    symbols.Same item (execute (loadCustomInterrupts symbols) cpu).memory cpu.memory :=
  same_storeAt symbols isOther.symm (8 * 3) 8 rfl symbols.breakpoint (by decide) (by decide) cpu

theorem same_callLoadIdt (isOther : item ≠ .idtr) (cpu : Cpu) :
    symbols.Same item (execute (callLoadIdt symbols leftover) cpu).memory cpu.memory := by
  have unchanged := Symbols.Same.refl symbols item cpu.memory
  have limit := unchanged.store isOther.symm 0 2 (BitVec.add_zero _).symm
    ((leftover cpu.registers .rdi).setWidth 16) (by decide) (by decide)
  exact limit.store isOther.symm 2 8 rfl (leftover cpu.registers .rsi) (by decide) (by decide)

theorem same_initializePaging (isOther : item ≠ .maxPhysAddr) (report : U32 → Cpu.Leaf)
    (cpu : Cpu) :
    symbols.Same item (execute (initializePaging symbols report) cpu).memory cpu.memory :=
  same_storeAt symbols isOther.symm 0 8 (BitVec.add_zero _).symm (maxPhysAddrBits report cpu)
    (by decide) (by decide) cpu

/-- Up to the call of `initialize_idt` its two tables stay as they are. -/
theorem same_before_initializeIdt (notTable : item ≠ .globalDescriptorTable)
    (notRegister : item ≠ .gdtr) (cpu : Cpu) :
    symbols.Same item (execute (initializeCom1 ++ initializeGdt symbols) cpu).memory
      cpu.memory := by
  rw [execute_append, initializeGdt_eq, execute_append, memory_setInterrupts]
  have same := (loaded_segmentSetup symbols (execute initializeCom1 cpu)).2 item notTable
    notRegister
  rwa [memory_initializeCom1] at same

theorem handlerAt_same {other : Cpu}
    (same : symbols.Same .isrHandlerTable other.memory cpu.memory) (vector : U8) :
    handlerAt symbols other vector = handlerAt symbols cpu vector := by
  have small := vector.isLt
  apply @Symbols.Same.load_inside symbols _ _ .isrHandlerTable same _ 8
  · simp only [Object.size]
    omega
  · decide

theorem load_entryAddress_same {memory before : Memory}
    (same : symbols.Same .interruptTable memory before) (vector : U8) :
    load memory (entryAddress (symbols.object .interruptTable) vector) 16 =
      load before (entryAddress (symbols.object .interruptTable) vector) 16 := by
  have small := vector.isLt
  apply same.load_inside
  · simp only [Object.size]
    omega
  · decide

/-! ### The two tables of `initialize_idt` -/

theorem handlerAt_loadCustomInterrupts (vector : U8) :
    handlerAt symbols (execute (loadCustomInterrupts symbols) cpu) vector =
      if vector = 3 then symbols.breakpoint else handlerAt symbols cpu vector := by
  have place (vector : U8) :
      (symbols.object .isrHandlerTable + BitVec.ofNat 64 (8 * vector.toNat)).toNat =
        (symbols.object .isrHandlerTable).toNat + 8 * vector.toNat := by
    have small := vector.isLt
    apply symbols.toNat_offset
    simp only [Object.size]
    omega
  have fits := symbols.fits .isrHandlerTable
  simp only [Object.size] at fits
  split_ifs with isBreakpoint
  · rw [isBreakpoint]
    exact load64_store64_same _ _ _
  · have small := vector.isLt
    have distinct : vector.toNat ≠ (3 : U8).toNat :=
      fun same => isBreakpoint (BitVec.eq_of_toNat_eq same)
    have three : (3 : U8).toNat = 3 := rfl
    apply @load_store_disjoint cpu.memory _ _ 8 8
    · rw [place, place]
      omega
    · rw [place]
      omega
    · rw [place]
      omega

theorem handlerAt_initializeIdt (vector : U8) :
    handlerAt symbols (execute (initializeIdt symbols leftover) cpu) vector =
      if vector = 3 then symbols.breakpoint else handlerAt symbols cpu vector := by
  simp only [initializeIdt, execute_append]
  rw [handlerAt_same (same_callLoadIdt (by decide) _), handlerAt_loadCustomInterrupts,
    handlerAt_same (same_setInterruptsInTable (by decide) _)]

theorem load_entry_initializeIdt {vector : U8} (notMem : vector ∉ registeredIsrs) :
    load (execute (initializeIdt symbols leftover) cpu).memory
      (entryAddress (symbols.object .interruptTable) vector) 16 =
      load cpu.memory (entryAddress (symbols.object .interruptTable) vector) 16 := by
  simp only [initializeIdt, execute_append]
  rw [load_entryAddress_same (same_callLoadIdt (by decide) _),
    load_entryAddress_same (same_registerHandler (by decide) _), setInterruptsInTable,
    load_register_of_notMem notMem]

theorem rflags_initializeIdt :
    (execute (initializeIdt symbols leftover) cpu).rflags = cpu.rflags := by
  have stubs : (execute (setInterruptsInTable symbols) cpu).rflags = cpu.rflags := by
    have keeps : Keeps (fun later => later.rflags = cpu.rflags)
        (setInterruptsInTable symbols) := by
      intro statement mem later same
      rcases List.mem_map.mp mem with ⟨vector, _, rfl⟩
      exact same
    exact keeps.execute rfl
  rw [initializeIdt, execute_append, execute_append]
  generalize execute (setInterruptsInTable symbols) cpu = filled at stubs ⊢
  exact stubs

theorem rflags_initializePaging (report : U32 → Cpu.Leaf) (cpu : Cpu) :
    (execute (initializePaging symbols report) cpu).rflags = cpu.rflags := rfl

theorem gateAt_same {other : Cpu}
    (same : symbols.Same .interruptTable other.memory cpu.memory) (vector : U8) :
    gateAt symbols other vector = gateAt symbols cpu vector := by
  rw [gateAt, load_entryAddress_same same, gateAt]

/-- A vector without a gate. -/
theorem present_zero : (Gate.decode 0).present = false := by
  decide

theorem init_eq (symbols : Symbols) (leftover : Leftover) (report : U32 → Cpu.Leaf) :
    init symbols leftover report = (initializeCom1 ++ initializeGdt symbols) ++
      (initializeIdt symbols leftover ++ initializePaging symbols report) := by
  simp only [init, List.append_assoc]

/-- `load_idt` gets what the compiled code left in `di` and `rsi`. -/
theorem idtr_init (symbols : Symbols) (leftover : Leftover) (report : U32 → Cpu.Leaf) (cpu : Cpu) :
    (execute (init symbols leftover report) cpu).idtr =
      let registers := leftover (execute (initializeCom1 ++ initializeGdt symbols) cpu).registers
      ⟨(registers .rdi).setWidth 16, registers .rsi⟩ := by
  have recorded (cpu : Cpu) :
      (execute (initializePaging symbols report) cpu).idtr = cpu.idtr := rfl
  rw [init_eq, execute_append, execute_append, recorded, idtr_initializeIdt]

theorem handlerAt_init (leftover : Leftover) (report : U32 → Cpu.Leaf)
    (boot : StaticBoot symbols) (vector : U8) :
    handlerAt symbols (execute (init symbols leftover report) boot.cpu) vector =
      if vector = 3 then symbols.breakpoint else 0 := by
  have early := @same_before_initializeIdt symbols .isrHandlerTable (by decide) (by decide) boot.cpu
  have noHandlers := early.trans boot.noHandlers
  rw [init_eq, execute_append]
  generalize execute (initializeCom1 ++ initializeGdt symbols) boot.cpu = cpu at noHandlers ⊢
  have blank : handlerAt symbols cpu vector = 0 := by
    have blank := @handlerAt_same symbols { cpu with memory := fun _ => 0 } cpu noHandlers vector
    rw [blank]
    exact load_zero _ 8
  rw [execute_append, handlerAt_same (same_initializePaging (by decide) _ _),
    handlerAt_initializeIdt, blank]

theorem zeroed_initializeGdt (boot : StaticBoot symbols) :
    symbols.Same .interruptTable
      (execute (initializeCom1 ++ initializeGdt symbols) boot.cpu).memory fun _ => 0 :=
  (same_before_initializeIdt (by decide) (by decide) boot.cpu).trans boot.zeroed

theorem gateAt_init (leftover : Leftover) (report : U32 → Cpu.Leaf)
    (boot : StaticBoot symbols) (stub : Stub) :
    gateAt symbols (execute (init symbols leftover report) boot.cpu) stub.vector =
      { offset := symbols.isr stub.vector, selector := 0x8, ist := 0, type := Gate.trapGate,
        privilege := 0, present := true } := by
  rw [init_eq, execute_append]
  generalize execute (initializeCom1 ++ initializeGdt symbols) boot.cpu = cpu
  rw [execute_append, gateAt_same (same_initializePaging (by decide) _ _), gateAt,
    filled_initializeIdt symbols leftover cpu stub.vector (mem_registeredIsrs stub)]
  exact decode_createInterruptDescriptor _ _ _

theorem present_gateAt_init (leftover : Leftover) (report : U32 → Cpu.Leaf)
    (boot : StaticBoot symbols) {vector : U8} (notMem : vector ∉ registeredIsrs) :
    (gateAt symbols (execute (init symbols leftover report) boot.cpu) vector).present =
      false := by
  have zeroed := zeroed_initializeGdt boot
  rw [init_eq, execute_append]
  generalize execute (initializeCom1 ++ initializeGdt symbols) boot.cpu = cpu at zeroed ⊢
  rw [execute_append, gateAt_same (same_initializePaging (by decide) _ _), gateAt,
    load_entry_initializeIdt notMem, load_entryAddress_same zeroed, load_zero]
  exact present_zero

end

/-! ### What becomes of an interrupt -/

/-- `breakpoint`, the only handler of the kernel. It does nothing with its argument. -/
def breakpoint : HandlerM Unit := print "CUSTOM BREAKPOINT\n" []

/-- What a run of the handler makes of the frame it is called with. -/
def frameAfter (handler : HandlerM Unit) (frame : Registers) : Registers :=
  match handler ⟨frame, [], []⟩ with
  | .ok _ after => after.frame
  | .error _ after => after.frame

/-- What `isr_handler` meets in the running kernel. -/
def kernelEnvironment (symbols : Symbols) (cpu : Cpu) (rest : Environment) : Environment :=
  { rest with
    isrHandlerTable := Vector.ofFn fun index => handlerAt symbols cpu (BitVec.ofFin index)
    behavior := fun handler frame =>
      if handler = symbols.breakpoint then frameAfter breakpoint frame else frame }

structure Dispatches (symbols : Symbols) (environment : Environment) (stub : Stub)
    (frame : Registers) : Prop where
  /-- A breakpoint is announced and goes on with the frame as it was. -/
  breakpoint : stub.vector = 3 →
    isrHandler environment ⟨frame, [], []⟩ =
        .ok () ⟨frame, [(symbols.breakpoint, frame)], []⟩ ∧
      Boot.breakpoint ⟨frame, [], []⟩ = .ok () ⟨frame, [], "CUSTOM BREAKPOINT\n".toList⟩
  /-- An exception halts the machine with a report of the frame. -/
  exception : stub.vector ≠ 3 → ∀ hasMessage : (stub.vector.setWidth 64).toNat < 32,
    ∃ console, isrHandler environment ⟨frame, [], []⟩ = .error .halted ⟨frame, [], console⟩ ∧
      readReport console =
        some (environment.report ⟨(stub.vector.setWidth 64).toNat, hasMessage⟩ frame, [])
  /-- The software interrupt reads past the messages. -/
  software : stub.vector = 128 →
    ∃ console, isrHandler environment ⟨frame, [], []⟩ =
      .error (.outOfBounds 128) ⟨frame, [], console⟩

theorem prints_breakpoint : Prints breakpoint "CUSTOM BREAKPOINT\n".toList := by
  apply prints_print
  · have plain := vsnprintf_append (show '%' ∉ "CUSTOM BREAKPOINT\n".toList by decide) [] []
    rwa [List.append_nil, vsnprintf_nil] at plain
  · decide

section

variable {symbols : Symbols} {report : U32 → Cpu.Leaf} {cpu : Cpu} {rest : Environment}

theorem frameAfter_breakpoint (frame : Registers) : frameAfter breakpoint frame = frame := by
  rw [frameAfter, prints_breakpoint]

theorem handlerOf_kernelEnvironment (vector : U8) :
    (kernelEnvironment symbols cpu rest).handlerOf vector = handlerAt symbols cpu vector :=
  Vector.getElem_ofFn _

/-- After `init` every interrupt with a stub is a breakpoint that goes on, a panic that is told in
full, or the one vector without a message. -/
theorem init_dispatches (leftover : Leftover) (boot : StaticBoot symbols)
    (linked : symbols.breakpoint ≠ 0) (stub : Stub) {frame : Registers}
    (intNo : frame.intNo = stub.vector.setWidth 64) :
    Dispatches symbols
      (kernelEnvironment symbols (execute (init symbols leftover report) boot.cpu) rest)
      stub frame := by
  have handler := handlerAt_init leftover report boot stub.vector
  rw [← @handlerOf_kernelEnvironment _ _ rest] at handler
  generalize execute (init symbols leftover report) boot.cpu = cpu at handler ⊢
  constructor
  · intro isBreakpoint
    rw [if_pos isBreakpoint] at handler
    have behavior : (kernelEnvironment symbols cpu rest).behavior symbols.breakpoint frame =
        frame := (if_pos rfl).trans (frameAfter_breakpoint frame)
    refine ⟨?_, prints_breakpoint _⟩
    rw [isrHandler_of_registered intNo (by rwa [handler]), handler, behavior]
  · intro isOther hasMessage
    rw [if_neg isOther] at handler
    exact isrHandler_report intNo handler hasMessage
  · intro isSoftware
    have isOther : stub.vector ≠ 3 := by
      rw [isSoftware]
      decide
    rw [if_neg isOther] at handler
    have outOfBounds := exists_outOfBounds intNo handler (by rw [isSoftware]; decide)
    rw [isSoftware] at outOfBounds
    exact outOfBounds

end

/-- The handover in which all of memory is zero. -/
def zeroStaticBoot : StaticBoot linkedSymbols where
  toBootState := zeroBoot
  noHandlers := AgreeOn.refl _ _ _

def breakpointFrame : Registers := { Registers.read (fun _ => 0) 0 with intNo := 3 }

theorem init_dispatches_breakpoint :
    isrHandler (kernelEnvironment linkedSymbols
        (execute (init linkedSymbols id brandStringOnly) zeroStaticBoot.cpu) noHandlers)
      ⟨breakpointFrame, [], []⟩ =
        .ok () ⟨breakpointFrame, [(linkedSymbols.breakpoint, breakpointFrame)], []⟩ :=
  ((init_dispatches id zeroStaticBoot (by decide) ⟨3, .noErrCode, by decide⟩ rfl).breakpoint
    rfl).1

end Benamos.Boot
