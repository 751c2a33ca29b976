import Benamos.Boot.Outcome
import Benamos.Interrupts.Depth

/-!
# The running kernel

Nothing writes the interrupt table and the table of handlers once `init` is through. So the
processor always finds the gate of a stub, and `isr_handler` always finds `breakpoint` or nothing.
A breakpoint comes back, and what it interrupted does not notice it, be it the program, a stub or
the report of another interrupt. Every other interrupt is the end of what it interrupted.
-/

namespace Benamos.Boot

open X86 X86.Cpu Interrupts Console

/-- The linked kernel and the stack it runs on. -/
structure Kernel where
  symbols : Symbols
  image : Image isrText
  area : StackArea
  isr_eq : ∀ stub : Stub, symbols.isr stub.vector = image.address (.isr stub) 0
  breakpoint_ne : symbols.breakpoint ≠ 0
  apart : ∀ item, symbols.stop item ≤ area.bottom ∨ area.top ≤ (symbols.object item).toNat

/-- The vector the processor goes through: a gate that is not present raises the exception 11. -/
def raised (cpu : Cpu) (vector : U8) : U8 :=
  if (Cpu.lookup cpu vector).present then vector else 11

/-- `next` has the tables of `cpu`. -/
structure Untouched (symbols : Symbols) (cpu next : Cpu) : Prop where
  idtr : next.idtr = cpu.idtr
  gates : symbols.Same .interruptTable next.memory cpu.memory
  handlers : symbols.Same .isrHandlerTable next.memory cpu.memory

namespace Kernel

/-- What can happen once `init` is through. The code outside the stubs does anything but write to
the tables; a handler also leaves the stack above its frame alone, and what becomes of the frame is
up to `isr_handler`. Left out are the vector 128, for which there is no message, the four exceptions
whose stubs are written with the wrong macro, and interrupts without room on the stack. -/
inductive Step (kernel : Kernel) : Config → Config → Prop
  | program {cpu next : Cpu} (untouched : Untouched kernel.symbols cpu next) :
      Step kernel ⟨cpu, []⟩ ⟨next, []⟩
  | deliver {cpu : Cpu} {active : List Activation} (vector : U8) (stub : Stub) (errorCode : U32)
      (isOther : vector ≠ 128) (stub_eq : stub.vector = raised cpu vector)
      (expected : stub.vector ∉ ([17, 21, 29, 30] : List U8))
      (room : kernel.area.bottom + 184 ≤ (alignDown (cpu.registers .rsp)).toNat)
      (onStack : (cpu.registers .rsp).toNat ≤ kernel.area.top) :
      Step kernel ⟨cpu, active⟩
        ⟨cpu.deliver (Cpu.lookup cpu stub.vector) (cpu.registers .rsp)
            (pushedErrorCode stub.vector errorCode),
          ⟨stub, cpu, errorCode, .saving⟩ :: active⟩
  | save {cpu next : Cpu} {activation : Activation} {active : List Activation}
      (stage : activation.stage = .saving)
      (notCall : cpu.rip ≠ kernel.image.address .isrCommonStub callLine)
      (stepped : kernel.image.step cpu = some next) :
      Step kernel ⟨cpu, activation :: active⟩ ⟨next, activation :: active⟩
  | call {cpu next : Cpu} {activation : Activation} {active : List Activation}
      (stage : activation.stage = .saving)
      (atCall : cpu.rip = kernel.image.address .isrCommonStub callLine)
      (stepped : kernel.image.step cpu = some next) :
      Step kernel ⟨cpu, activation :: active⟩
        ⟨next, { activation with stage := .handling next } :: active⟩
  | handle {cpu next entry : Cpu} {activation : Activation} {active : List Activation}
      (stage : activation.stage = .handling entry)
      (handler : HandlerStep kernel.area active.isEmpty entry cpu next)
      (untouched : Untouched kernel.symbols cpu next) :
      Step kernel ⟨cpu, activation :: active⟩ ⟨next, activation :: active⟩
  | ret {cpu entry : Cpu} {activation : Activation} {active : List Activation}
      {after : HandlerState} (rest : Environment) (stage : activation.stage = .handling entry)
      (stackPointer : cpu.registers .rsp = entry.registers .rsp)
      (returnAddress : cpu.top = entry.top)
      (returned : isrHandler (kernelEnvironment kernel.symbols entry rest)
        ⟨Registers.read entry.memory (entry.registers .rdi), [], []⟩ = .ok () after)
      (frame : Registers.read cpu.memory (entry.registers .rdi) = after.frame) :
      Step kernel ⟨cpu, activation :: active⟩
        ⟨cpu.ret, { activation with stage := .restoring entry cpu.ret } :: active⟩
  | restore {cpu next entry returned : Cpu} {activation : Activation} {active : List Activation}
      (stage : activation.stage = .restoring entry returned)
      (notIretq : cpu.rip ≠ kernel.image.address .isrCommonStub iretqLine)
      (stepped : kernel.image.step cpu = some next) :
      Step kernel ⟨cpu, activation :: active⟩ ⟨next, activation :: active⟩
  | iretq {cpu next entry returned : Cpu} {activation : Activation} {active : List Activation}
      (stage : activation.stage = .restoring entry returned)
      (atIretq : cpu.rip = kernel.image.address .isrCommonStub iretqLine)
      (stepped : kernel.image.step cpu = some next) :
      Step kernel ⟨cpu, activation :: active⟩ ⟨next, active⟩

abbrev Run (kernel : Kernel) : Config → Config → Prop := Relation.ReflTransGen kernel.Step

/-- What a run makes of interrupts. -/
structure Survives (kernel : Kernel) (config : Config) : Prop where
  /-- Whatever is raised now goes to a stub. -/
  gates : ∀ vector, ∃ stub : Stub, stub.vector = raised config.cpu vector ∧
    Cpu.lookup config.cpu stub.vector = stub.gate kernel.image
  /-- With room on the stack a breakpoint comes to its handler, in which `isr_handler` returns. -/
  entered : kernel.area.bottom + 184 ≤ (alignDown (config.cpu.registers .rsp)).toNat →
    (config.cpu.registers .rsp).toNat ≤ kernel.area.top →
    ∃ entry, kernel.Run config
        ⟨entry, ⟨breakpointStub, config.cpu, 0, .handling entry⟩ :: config.active⟩ ∧
      ∀ rest, ∃ calls, isrHandler (kernelEnvironment kernel.symbols entry rest)
          ⟨Registers.read entry.memory (entry.registers .rdi), [], []⟩ =
        .ok () ⟨Registers.read entry.memory (entry.registers .rdi), calls, []⟩
  /-- Whatever its handler has done: once it is about to return with the frame it was given, the
  breakpoint can be left. -/
  left : ∀ {activation active entry}, config.active = activation :: active →
    activation.stage = .handling entry → activation.stub.vector = 3 →
    config.cpu.registers .rsp = entry.registers .rsp → config.cpu.top = entry.top →
    Registers.read config.cpu.memory (entry.registers .rdi) =
      Registers.read entry.memory (entry.registers .rdi) →
    ∃ later, kernel.Run config later ∧ later.active = active ∧
      SameContext activation.interrupted later.cpu ∧
      AgreeOn (activation.interrupted.registers .rsp).toNat kernel.area.top later.cpu.memory
        activation.interrupted.memory
  /-- Only breakpoints come back, and what they interrupted is as it was. -/
  unnoticed : ∀ {activation active entry returned next},
    ResumesAt kernel.image config activation active entry returned next →
    activation.stub.vector = 3 ∧ SameContext activation.interrupted next ∧
      AgreeOn (activation.interrupted.registers .rsp).toNat kernel.area.top next.memory
        activation.interrupted.memory
  /-- Every other interrupt reports what it interrupted, and that never goes on. -/
  reported : ∀ {activation active}, config.active = activation :: active →
    activation.stage = .handling config.cpu → activation.stub.vector ≠ 3 →
    ∀ rest, ∃ hasMessage : (activation.stub.vector.setWidth 64).toNat < 32, ∃ console,
      isrHandler (kernelEnvironment kernel.symbols config.cpu rest)
          ⟨Registers.read config.cpu.memory (config.cpu.registers .rdi), [], []⟩ =
        .error .halted ⟨activation.saved, [], console⟩ ∧
      readReport console = some ((kernelEnvironment kernel.symbols config.cpu rest).report
        ⟨(activation.stub.vector.setWidth 64).toNat, hasMessage⟩ activation.saved, [])
  stopped : ∀ {newer activation older later}, config.active = newer ++ activation :: older →
    activation.stub.vector ≠ 3 → kernel.Run config later →
    ∃ newer stage, later.active = newer ++ { activation with stage } :: older

end Kernel

/-! ### The tables -/

/-- The tables as `init` leaves them, if `load_idt` got its arguments. -/
structure Tables (symbols : Symbols) (cpu : Cpu) : Prop where
  idtr : cpu.idtr = ⟨256 * 16 - 1, symbols.object .interruptTable⟩
  gates : ∀ stub : Stub, gateAt symbols cpu stub.vector =
    { offset := symbols.isr stub.vector, selector := 0x8, ist := 0, type := Gate.trapGate,
      privilege := 0, present := true }
  absent : ∀ vector, vector ∉ registeredIsrs → (gateAt symbols cpu vector).present = false
  handlers : ∀ vector, handlerAt symbols cpu vector = if vector = 3 then symbols.breakpoint else 0

theorem exists_stub {vector : U8} (mem : vector ∈ registeredIsrs) :
    ∃ stub : Stub, stub.vector = vector := by
  have declared : ∀ vector ∈ registeredIsrs,
      (vector, .noErrCode) ∈ stubTable ∨ (vector, .errCode) ∈ stubTable := by
    decide
  rcases declared vector mem with noErrCode | errCode
  · exact ⟨⟨vector, .noErrCode, noErrCode⟩, rfl⟩
  · exact ⟨⟨vector, .errCode, errCode⟩, rfl⟩

namespace Tables

variable {symbols : Symbols} {cpu next entry : Cpu}

theorem of_init (leftover : Leftover) (report : U32 → Cpu.Leaf)
    (boot : StaticBoot symbols)
    (loaded : (execute (init symbols leftover report) boot.cpu).idtr =
      ⟨256 * 16 - 1, symbols.object .interruptTable⟩) :
    Tables symbols (execute (init symbols leftover report) boot.cpu) where
  idtr := loaded
  gates := gateAt_init leftover report boot
  absent _ notMem := present_gateAt_init leftover report boot notMem
  handlers := handlerAt_init leftover report boot

theorem untouched (tables : Tables symbols cpu) (untouched : Untouched symbols cpu next) :
    Tables symbols next := by
  rcases tables with ⟨idtr, gates, absent, handlers⟩
  rcases untouched with ⟨idtr_eq, sameGates, sameHandlers⟩
  refine ⟨idtr_eq.trans idtr, ?_, ?_, ?_⟩
  · intro stub
    rw [gateAt_same sameGates, gates]
  · intro vector notMem
    rw [gateAt_same sameGates, absent vector notMem]
  · intro vector
    rw [handlerAt_same sameHandlers, handlers]

theorem lookup_eq (tables : Tables symbols cpu) (vector : U8) :
    Cpu.lookup cpu vector = gateAt symbols cpu vector := by
  rw [Cpu.lookup, tables.idtr, gateAt]

theorem raised_eq (tables : Tables symbols cpu) (vector : U8) :
    raised cpu vector = if vector ∈ registeredIsrs then vector else 11 := by
  rw [raised, tables.lookup_eq]
  split_ifs with present mem mem
  · rfl
  · rw [tables.absent vector mem] at present
    contradiction
  · rcases exists_stub mem with ⟨stub, rfl⟩
    rw [tables.gates stub] at present
    contradiction
  · rfl

theorem isrHandler_breakpoint (tables : Tables symbols entry) (linked : symbols.breakpoint ≠ 0)
    (rest : Environment) {stub : Stub} (isBreakpoint : stub.vector = 3) {frame : Registers}
    (intNo : frame.intNo = stub.vector.setWidth 64) :
    ∃ calls, isrHandler (kernelEnvironment symbols entry rest) ⟨frame, [], []⟩ =
      .ok () ⟨frame, calls, []⟩ := by
  have handler := tables.handlers stub.vector
  rw [← @handlerOf_kernelEnvironment _ _ rest, if_pos isBreakpoint] at handler
  have behavior : (kernelEnvironment symbols entry rest).behavior symbols.breakpoint frame =
      frame := (if_pos rfl).trans (frameAfter_breakpoint frame)
  refine ⟨[(symbols.breakpoint, frame)], ?_⟩
  rw [isrHandler_of_registered intNo (by rwa [handler]), handler, behavior]

theorem handlerOf_eq_zero (tables : Tables symbols entry) (rest : Environment) {vector : U8}
    (isOther : vector ≠ 3) : (kernelEnvironment symbols entry rest).handlerOf vector = 0 := by
  rw [handlerOf_kernelEnvironment, tables.handlers, if_neg isOther]

/-- What `isr_handler` returns from is a breakpoint, and it leaves the frame as it was. -/
theorem returned (tables : Tables symbols entry) (linked : symbols.breakpoint ≠ 0)
    {rest : Environment} {stub : Stub} {frame : Registers} {after : HandlerState}
    (intNo : frame.intNo = stub.vector.setWidth 64)
    (ran : isrHandler (kernelEnvironment symbols entry rest) ⟨frame, [], []⟩ = .ok () after) :
    stub.vector = 3 ∧ after.frame = frame := by
  by_cases isBreakpoint : stub.vector = 3
  · rcases tables.isrHandler_breakpoint linked rest isBreakpoint intNo with ⟨calls, handled⟩
    rw [handled] at ran
    cases ran
    exact ⟨isBreakpoint, rfl⟩
  · have handler := tables.handlerOf_eq_zero rest isBreakpoint
    by_cases hasMessage : (stub.vector.setWidth 64).toNat < 32
    · rcases exists_halted intNo handler hasMessage with ⟨console, halted⟩
      rw [halted] at ran
      cases ran
    · rcases exists_outOfBounds intNo handler (Nat.not_lt.mp hasMessage) with ⟨console, stopped⟩
      rw [stopped] at ran
      cases ran

end Tables

namespace Kernel

section

variable {kernel : Kernel} {config after : Config} {cpu next : Cpu} {activation : Activation}
  {active : List Activation}

theorem lookup_eq_gate (tables : Tables kernel.symbols cpu) (stub : Stub) :
    Cpu.lookup cpu stub.vector = stub.gate kernel.image := by
  rw [tables.lookup_eq, tables.gates, kernel.isr_eq, stub.gate_eq]

/-! ### What each step keeps -/

/-- Where the stack is written the tables are not. -/
theorem untouched_of_agree (idtr : next.idtr = cpu.idtr)
    (agree : ∀ low high, high ≤ kernel.area.bottom ∨ kernel.area.top ≤ low →
      AgreeOn low high next.memory cpu.memory) : Untouched kernel.symbols cpu next where
  idtr := idtr
  gates := agree _ _ (kernel.apart .interruptTable)
  handlers := agree _ _ (kernel.apart .isrHandlerTable)

theorem untouched_deliver (gate : Gate) (errorCode : Option U32)
    (room : kernel.area.bottom + 184 ≤ (alignDown (cpu.registers .rsp)).toNat)
    (onStack : (cpu.registers .rsp).toNat ≤ kernel.area.top) :
    Untouched kernel.symbols cpu (cpu.deliver gate (cpu.registers .rsp) errorCode) := by
  apply untouched_of_agree (idtr_deliver ..)
  intro low high apart
  rcases apart with below | above
  · exact agreeOn_deliver_below cpu gate _ errorCode low (by omega)
  · exact (agreeOn_deliver cpu gate _ errorCode high (by omega)).mono
      (Nat.le_trans onStack above) (Nat.le_refl _)

theorem untouched_step (valid : Valid kernel.image kernel.area active.isEmpty activation cpu)
    (notHandling : ∀ entry, activation.stage ≠ .handling entry)
    (stepped : kernel.image.step cpu = some next) : Untouched kernel.symbols cpu next := by
  have room := valid.bottom_add_le notHandling
  have onStack := Nat.le_trans valid.rsp_le valid.onStack
  apply untouched_of_agree (Image.idtr_step stepped)
  intro low high apart
  rcases apart with below | above
  · exact Image.agreeOn_step_below stepped low (by omega)
  · exact (Image.agreeOn_step stepped high (by omega)).mono (Nat.le_trans onStack above)
      (Nat.le_refl _)

theorem Step.untouched (step : kernel.Step config after)
    (invariant : Interrupts.Invariant kernel.image kernel.area config.cpu config.active) :
    Untouched kernel.symbols config.cpu after.cpu := by
  cases step with
  | program untouched => exact untouched
  | deliver vector stub errorCode isOther stub_eq expected room onStack =>
      exact untouched_deliver _ _ room onStack
  | save stage notCall stepped => exact untouched_step invariant.1 (by simp [stage]) stepped
  | call stage atCall stepped => exact untouched_step invariant.1 (by simp [stage]) stepped
  | handle stage handler untouched => exact untouched
  | ret rest stage stackPointer returnAddress returned frame =>
      exact untouched_of_agree rfl fun _ _ _ => AgreeOn.refl _ _ _
  | restore stage notIretq stepped => exact untouched_step invariant.1 (by simp [stage]) stepped
  | iretq stage atIretq stepped => exact untouched_step invariant.1 (by simp [stage]) stepped

/-- With the tables in place the kernel goes through the interrupts of `Interrupts.Step`. -/
theorem Step.nested (step : kernel.Step config after) (tables : Tables kernel.symbols config.cpu) :
    Interrupts.Step kernel.image kernel.area config after := by
  cases step with
  | program => exact .program
  | deliver vector stub errorCode isOther stub_eq expected room onStack =>
      rw [lookup_eq_gate tables, (pushedErrorCode_eq_iff stub errorCode).mpr expected]
      exact .deliver stub errorCode room onStack
  | save stage notCall stepped => exact .save stage notCall stepped
  | call stage atCall stepped => exact .call stage atCall stepped
  | handle stage handler => exact .handle stage handler
  | ret rest stage stackPointer returnAddress => exact .ret stage stackPointer returnAddress
  | restore stage notIretq stepped => exact .restore stage notIretq stepped
  | iretq stage atIretq stepped => exact .iretq stage atIretq stepped

/-- What is known of an active interrupt, apart from where the processor is. -/
structure Known (kernel : Kernel) (activation : Activation) : Prop where
  isOther : activation.stub.vector ≠ 128
  entered : ∀ entry, activation.stage = .handling entry → Tables kernel.symbols entry
  returned : ∀ entry returned, activation.stage = .restoring entry returned →
    activation.stub.vector = 3 ∧
      Registers.read returned.memory (entry.registers .rdi) =
        Registers.read entry.memory (entry.registers .rdi)

structure Invariant (kernel : Kernel) (config : Config) : Prop where
  reachable : Reachable kernel.image kernel.area config
  tables : Tables kernel.symbols config.cpu
  known : ∀ activation ∈ config.active, kernel.Known activation

/-- What an interrupt's handler was given to read. -/
theorem Invariant.entered {entry : Cpu} (invariant : kernel.Invariant ⟨cpu, activation :: active⟩)
    (stage : activation.stage = .handling entry) :
    Tables kernel.symbols entry ∧ Entered kernel.image activation entry ∧
      (Registers.read entry.memory (entry.registers .rdi)).intNo =
        activation.stub.vector.setWidth 64 := by
  have known := (invariant.known activation List.mem_cons_self).entered entry stage
  rcases invariant.reachable.invariant with ⟨⟨_, _, _, progress⟩, _⟩
  simp only [Progress, stage] at progress
  have saved := progress.1.saved
  rw [← progress.1.rdi_eq] at saved
  refine ⟨known, progress.1, ?_⟩
  rw [saved]
  rfl

theorem known_saving {stub : Stub} (isOther : stub.vector ≠ 128) (errorCode : U32) :
    kernel.Known ⟨stub, cpu, errorCode, .saving⟩ where
  isOther := isOther
  entered _ stage := by cases stage
  returned _ _ stage := by cases stage

theorem Known.call (known : kernel.Known activation) (tables : Tables kernel.symbols next) :
    kernel.Known { activation with stage := .handling next } where
  isOther := known.isOther
  entered _ stage := by
    cases stage
    exact tables
  returned _ _ stage := by cases stage

theorem Known.ret {entry : Cpu} (known : kernel.Known activation)
    (stage : activation.stage = .handling entry) {rest : Environment} {after : HandlerState}
    (intNo : (Registers.read entry.memory (entry.registers .rdi)).intNo =
      activation.stub.vector.setWidth 64)
    (returned : isrHandler (kernelEnvironment kernel.symbols entry rest)
      ⟨Registers.read entry.memory (entry.registers .rdi), [], []⟩ = .ok () after)
    (frame : Registers.read cpu.memory (entry.registers .rdi) = after.frame) :
    kernel.Known { activation with stage := .restoring entry cpu.ret } where
  isOther := known.isOther
  entered _ stage := by cases stage
  returned _ _ stage' := by
    cases stage'
    rcases (known.entered entry stage).returned kernel.breakpoint_ne intNo returned with
      ⟨isBreakpoint, unchanged⟩
    exact ⟨isBreakpoint, frame.trans unchanged⟩

theorem Invariant.step (invariant : kernel.Invariant config) (step : kernel.Step config after) :
    kernel.Invariant after := by
  have tablesAfter := invariant.tables.untouched (step.untouched invariant.reachable.invariant)
  refine ⟨invariant.reachable.step (step.nested invariant.tables), tablesAfter, ?_⟩
  have known := invariant.known
  cases step with
  | program => exact known
  | deliver vector stub errorCode isOther stub_eq expected room onStack =>
      rw [List.forall_mem_cons]
      refine ⟨known_saving ?_ errorCode, known⟩
      rw [stub_eq, invariant.tables.raised_eq]
      split_ifs
      · exact isOther
      · decide
  | save => exact known
  | call stage atCall stepped =>
      rw [List.forall_mem_cons] at known ⊢
      exact ⟨known.1.call tablesAfter, known.2⟩
  | handle => exact known
  | ret rest stage stackPointer returnAddress returned frame =>
      rcases invariant.entered stage with ⟨_, _, intNo⟩
      rw [List.forall_mem_cons] at known ⊢
      exact ⟨known.1.ret stage intNo returned frame, known.2⟩
  | restore => exact known
  | iretq =>
      rw [List.forall_mem_cons] at known
      exact known.2

theorem Invariant.run (invariant : kernel.Invariant config) (run : kernel.Run config after) :
    kernel.Invariant after := by
  induction run with
  | refl => exact invariant
  | tail _ step ih => exact ih.step step

/-! ### What never goes on -/

/-- How the stack of active interrupts changes in a step. -/
inductive Moves : List Activation → List Activation → Prop
  | idle : Moves [] []
  | enter (new : Activation) (active : List Activation) : Moves active (new :: active)
  | stay (head : Activation) (stage : Stage) (active : List Activation) :
      Moves (head :: active) ({ head with stage } :: active)
  | leave {head : Activation} {entry returned : Cpu} (active : List Activation)
      (stage : head.stage = .restoring entry returned) : Moves (head :: active) active

theorem Step.moves (step : kernel.Step config after) : Moves config.active after.active := by
  cases step with
  | program => exact .idle
  | deliver => exact .enter _ _
  | save => exact .stay _ _ _
  | call => exact .stay _ _ _
  | handle => exact .stay _ _ _
  | ret => exact .stay _ _ _
  | restore => exact .stay _ _ _
  | iretq stage => exact .leave _ stage

/-- Only an interrupt on its way back can leave. -/
theorem Moves.stuck {before later newer older : List Activation} (moves : Moves before later)
    (before_eq : before = newer ++ activation :: older)
    (notRestoring : ∀ entry returned, activation.stage ≠ .restoring entry returned) :
    ∃ newer stage, later = newer ++ { activation with stage } :: older := by
  cases moves with
  | idle => simp at before_eq
  | enter new active => exact ⟨new :: newer, activation.stage, by rw [before_eq]; rfl⟩
  | stay head stage active =>
      cases newer with
      | nil =>
          cases before_eq
          exact ⟨[], stage, rfl⟩
      | cons first newer =>
          cases before_eq
          exact ⟨{ head with stage } :: newer, activation.stage, rfl⟩
  | leave active stage =>
      cases newer with
      | nil =>
          cases before_eq
          exact absurd stage (notRestoring _ _)
      | cons first newer =>
          cases before_eq
          exact ⟨newer, activation.stage, rfl⟩

theorem Invariant.stuck {newer older : List Activation} (invariant : kernel.Invariant config)
    (active_eq : config.active = newer ++ activation :: older)
    (isOther : activation.stub.vector ≠ 3) (run : kernel.Run config after) :
    ∃ newer stage, after.active = newer ++ { activation with stage } :: older := by
  induction run with
  | refl => exact ⟨newer, activation.stage, active_eq⟩
  | tail run step ih =>
      rcases ih with ⟨newer, stage, ih⟩
      have known := (invariant.run run).known { activation with stage } (by simp [ih])
      apply step.moves.stuck ih
      intro entry returned restoring
      exact isOther (known.returned entry returned restoring).1

/-! ### What comes back -/

theorem runsStubs_step (kernel : Kernel) : RunsStubs kernel.image kernel.Step :=
  ⟨.save, .call, .restore⟩

theorem exists_handling (tables : Tables kernel.symbols cpu) {stub : Stub}
    (isOther : stub.vector ≠ 128) (expected : stub.vector ∉ ([17, 21, 29, 30] : List U8))
    (errorCode : U32)
    (room : kernel.area.bottom + 184 ≤ (alignDown (cpu.registers .rsp)).toNat)
    (onStack : (cpu.registers .rsp).toNat ≤ kernel.area.top) :
    ∃ entry, kernel.Run ⟨cpu, active⟩
      ⟨entry, ⟨stub, cpu, errorCode, .handling entry⟩ :: active⟩ := by
  have stub_eq : stub.vector = raised cpu stub.vector := by
    rw [tables.raised_eq, if_pos (mem_registeredIsrs stub)]
  have delivered : kernel.Step ⟨cpu, active⟩ _ :=
    .deliver stub.vector stub errorCode isOther stub_eq expected room onStack
  rw [lookup_eq_gate tables, (pushedErrorCode_eq_iff stub errorCode).mpr expected] at delivered
  exact kernel.runsStubs_step.entered delivered

theorem Invariant.breakpoint (invariant : kernel.Invariant ⟨cpu, active⟩)
    (room : kernel.area.bottom + 184 ≤ (alignDown (cpu.registers .rsp)).toNat)
    (onStack : (cpu.registers .rsp).toNat ≤ kernel.area.top) :
    ∃ entry, kernel.Run ⟨cpu, active⟩
        ⟨entry, ⟨breakpointStub, cpu, 0, .handling entry⟩ :: active⟩ ∧
      ∀ rest, ∃ calls, isrHandler (kernelEnvironment kernel.symbols entry rest)
          ⟨Registers.read entry.memory (entry.registers .rdi), [], []⟩ =
        .ok () ⟨Registers.read entry.memory (entry.registers .rdi), calls, []⟩ := by
  rcases @exists_handling kernel cpu active invariant.tables breakpointStub (by decide)
    (by decide) 0 room onStack with ⟨entry, handling⟩
  rcases (invariant.run handling).entered rfl with ⟨tables, _, intNo⟩
  exact ⟨entry, handling, fun rest =>
    tables.isrHandler_breakpoint kernel.breakpoint_ne rest rfl intNo⟩

/-- A breakpoint whose handler returns comes back. -/
theorem Invariant.left {entry : Cpu} (invariant : kernel.Invariant ⟨cpu, activation :: active⟩)
    (stage : activation.stage = .handling entry) (isBreakpoint : activation.stub.vector = 3)
    (stackPointer : cpu.registers .rsp = entry.registers .rsp)
    (returnAddress : cpu.top = entry.top)
    (unchanged : Registers.read cpu.memory (entry.registers .rdi) =
      Registers.read entry.memory (entry.registers .rdi)) :
    ∃ next, kernel.Run ⟨cpu, activation :: active⟩ ⟨next, active⟩ ∧
      SameContext activation.interrupted next ∧
      AgreeOn (activation.interrupted.registers .rsp).toNat kernel.area.top next.memory
        activation.interrupted.memory := by
  rcases invariant.entered stage with ⟨tables, _, intNo⟩
  rcases tables.isrHandler_breakpoint kernel.breakpoint_ne noHandlers isBreakpoint intNo with
    ⟨calls, handled⟩
  have returned : kernel.Run ⟨cpu, activation :: active⟩
      ⟨cpu.ret, { activation with stage := .restoring entry cpu.ret } :: active⟩ :=
    .single (.ret noHandlers stage stackPointer returnAddress handled unchanged)
  rcases (invariant.run returned).reachable.invariant with ⟨⟨_, _, _, _, _, left, restoring⟩, _⟩
  let inner : Activation := { activation with stage := .restoring entry cpu.ret }
  rcases @RunsStubs.atIretq kernel.image _ _ inner active _ _ _ _ _ kernel.runsStubs_step rfl
    restoring with ⟨atIretq, next, run, resumesAt⟩
  have atEnd := returned.trans run
  have same := resumesAt.restored (invariant.run atEnd).reachable.invariant (Or.inr unchanged)
  exact ⟨next, atEnd.tail (.iretq rfl resumesAt.atIretq resumesAt.stepped), same⟩

end

end Kernel

/-! ### A kernel that takes a page fault in a breakpoint -/

def pageKernel : Kernel where
  symbols := { linkedSymbols with isr := fun vector => pageAddress 1 vector 0 }
  image := pageImage
  area := exampleArea
  isr_eq _ := rfl
  breakpoint_ne := by decide
  apart item := by
    right
    cases item <;> decide

/-- Registers with which `load_idt` gets its arguments, on top of the stack. -/
def argumentsLeft : Leftover := fun _ register =>
  match register with
  | .rdi => 256 * 16 - 1
  | .rsi => pageKernel.symbols.object .interruptTable
  | .rsp => 0x8000
  | _ => 0

def pageBoot : StaticBoot pageKernel.symbols where
  cpu := zeroBoot.cpu
  disabled := zeroBoot.disabled
  zeroed := AgreeOn.refl _ _ _
  noHandlers := AgreeOn.refl _ _ _

def pageStart : Cpu := execute (init pageKernel.symbols argumentsLeft brandStringOnly) pageBoot.cpu

theorem rsp_pageStart : pageStart.registers .rsp = 0x8000 := by
  rw [pageStart, init_eq, execute_append, execute_append, initializeIdt, execute_append,
    execute_append]
  generalize execute (loadCustomInterrupts pageKernel.symbols) _ = cpu
  rfl

end Benamos.Boot
