import Benamos.Interrupts.Nesting

/-!
# Nested interrupts are transparent

What the invariant of nested interrupts gives: whatever interrupts a stub or a handler returns with
every register and every word that is on the stack as they were, and the program gets back what the
outermost handler left in its frame, which is what was interrupted if the handler left it alone.

The last section builds runs in which the invariant has something to say: an interrupt that arrives
with room on the stack comes to its handler, and a handler that returns comes to `iretq`.
-/

namespace Benamos.Interrupts

open X86 X86.Cpu

/-- The innermost interrupt, whose handler was entered in state `entry` and returned in state
`returned`, resumes what it interrupted in the state `next`. -/
structure ResumesAt (image : Image isrText) (config : Config) (activation : Activation)
    (active : List Activation) (entry returned next : Cpu) : Prop where
  active_eq : config.active = activation :: active
  stage : activation.stage = .restoring entry returned
  atIretq : config.cpu.rip = image.address .isrCommonStub iretqLine
  stepped : image.step config.cpu = some next

structure Transparent (image : Image isrText) (area : StackArea) (config : Config) : Prop where
  /-- Each `iretq` resumes with the values in the frame when the handler returned. -/
  resumes : ∀ {activation active entry returned next},
    ResumesAt image config activation active entry returned next →
    Resumes (Registers.read returned.memory (entry.registers .rdi)) next
  /-- What interrupted a stub or a handler gives it back all its registers and its stack. -/
  inner : ∀ {activation active entry returned next},
    ResumesAt image config activation active entry returned next → active ≠ [] →
    SameContext activation.interrupted next ∧
      AgreeOn (activation.interrupted.registers .rsp).toNat area.top next.memory
        activation.interrupted.memory
  /-- So does an outermost interrupt whose handler leaves its frame alone. -/
  outermost : ∀ {activation entry returned next},
    ResumesAt image config activation [] entry returned next →
    Registers.read returned.memory (entry.registers .rdi) =
      Registers.read entry.memory (entry.registers .rdi) →
    SameContext activation.interrupted next ∧
      AgreeOn (activation.interrupted.registers .rsp).toNat area.top next.memory
        activation.interrupted.memory
  /-- At no moment of an inner interrupt has a slot changed that an outer frame has on the stack. -/
  slots : ∀ {newer inner older outer}, config.active = newer ++ inner :: older → outer ∈ older →
    ∀ slot < 22,
      (inner.interrupted.registers .rsp).toNat ≤ outer.frame.toNat + 8 * slot →
      load64 config.cpu.memory (outer.frame + BitVec.ofNat 64 (8 * slot)) =
        load64 inner.interrupted.memory (outer.frame + BitVec.ofNat 64 (8 * slot))
  /-- While a handler is interrupted these are all slots of its frame. -/
  frames : ∀ {newer inner older outer entry}, config.active = newer ++ inner :: older →
    outer ∈ older → outer.stage = .handling entry →
    Registers.read config.cpu.memory outer.frame =
      Registers.read inner.interrupted.memory outer.frame

section

variable {image : Image isrText} {area : StackArea} {config : Config}

/-- The invariant of the activations that were already there when `inner` arrived. -/
theorem Invariant.older {cpu : Cpu} {newer older : List Activation} {inner : Activation}
    (invariant : Invariant image area cpu (newer ++ inner :: older)) :
    Invariant image area inner.interrupted older := by
  induction newer generalizing cpu with
  | nil => exact invariant.2
  | cons head newer ih => exact ih invariant.2

/-- `iretq` gives back what was interrupted if the frame is as it was. -/
theorem ResumesAt.restored {activation : Activation} {active : List Activation}
    {entry returned next : Cpu} (invariant : Invariant image area config.cpu config.active)
    (resumesAt : ResumesAt image config activation active entry returned next)
    (unchanged : active.isEmpty = false ∨
      Registers.read returned.memory (entry.registers .rdi) =
        Registers.read entry.memory (entry.registers .rdi)) :
    SameContext activation.interrupted next ∧
      AgreeOn (activation.interrupted.registers .rsp).toNat area.top next.memory
        activation.interrupted.memory := by
  rcases resumesAt with ⟨active_eq, stage, atIretq, stepped⟩
  rw [active_eq] at invariant
  rcases invariant with ⟨valid, _⟩
  refine ⟨sameContext_iretq valid stage atIretq stepped unchanged, ?_⟩
  rw [(valid.iretq stage atIretq stepped).2]
  exact valid.undisturbed

/-- In every configuration of every run of nested interrupts the stubs are transparent. -/
theorem nested_transparent (reachable : Reachable image area config) :
    Transparent image area config := by
  have invariant := reachable.invariant
  refine ⟨?_, ?_, ?_, ?_, ?_⟩
  · intro activation active entry returned next resumesAt
    rcases resumesAt with ⟨active_eq, stage, atIretq, stepped⟩
    rw [active_eq] at invariant
    exact (invariant.1.iretq stage atIretq stepped).1
  · intro activation active entry returned next resumesAt isInner
    exact resumesAt.restored invariant (Or.inl (by simpa using isInner))
  · intro activation entry returned next resumesAt unchanged
    exact resumesAt.restored invariant (Or.inr unchanged)
  · intro newer inner older outer active_eq isOlder slot small above
    rw [active_eq] at invariant
    have frame_le := invariant.older.frame_le isOlder
    have top_le := area.top_le
    have slot_eq : (outer.frame + BitVec.ofNat 64 (8 * slot)).toNat =
        outer.frame.toNat + 8 * slot := toNat_add_ofNat (by omega)
    have agree := (invariant.undisturbed (by simp : inner ∈ newer ++ inner :: older)).2
    exact agree.load_eq (by rwa [slot_eq]) (by omega) top_le
  · intro newer inner older outer entry active_eq isOlder stage
    rw [active_eq] at invariant
    have frame_le := invariant.older.frame_le isOlder
    have below := invariant.older.rsp_lt_frame isOlder stage
    have agree := (invariant.undisturbed (by simp : inner ∈ newer ++ inner :: older)).2
    exact read_congr agree.symm (by omega) frame_le area.top_le

end

/-! ### The stubs on their way -/

/-- A kind of step by which the stubs go on. -/
structure RunsStubs (image : Image isrText) (Moves : Config → Config → Prop) : Prop where
  save : ∀ {cpu next : Cpu} {activation : Activation} {active : List Activation},
    activation.stage = .saving → cpu.rip ≠ image.address .isrCommonStub callLine →
    image.step cpu = some next →
    Moves ⟨cpu, activation :: active⟩ ⟨next, activation :: active⟩
  call : ∀ {cpu next : Cpu} {activation : Activation} {active : List Activation},
    activation.stage = .saving → cpu.rip = image.address .isrCommonStub callLine →
    image.step cpu = some next →
    Moves ⟨cpu, activation :: active⟩
      ⟨next, { activation with stage := .handling next } :: active⟩
  restore : ∀ {cpu next entry returned : Cpu} {activation : Activation}
    {active : List Activation}, activation.stage = .restoring entry returned →
    cpu.rip ≠ image.address .isrCommonStub iretqLine → image.step cpu = some next →
    Moves ⟨cpu, activation :: active⟩ ⟨next, activation :: active⟩

theorem runsStubs_step (image : Image isrText) (area : StackArea) :
    RunsStubs image (Step image area) :=
  ⟨.save, .call, .restore⟩

namespace RunsStubs

variable {image : Image isrText} {Moves : Config → Config → Prop} {cpu : Cpu}
  {activation : Activation} {active : List Activation} {left : ℕ}

theorem atCall (runs : RunsStubs image Moves) (stage : activation.stage = .saving)
    (saving : Saving image activation.stub activation.interrupted.registers activation.base
      activation.pushed left cpu) :
    ∃ atCall, Relation.ReflTransGen Moves ⟨cpu, activation :: active⟩
        ⟨atCall, activation :: active⟩ ∧
      atCall.rip = image.address .isrCommonStub callLine := by
  induction left generalizing cpu with
  | zero => exact ⟨cpu, .refl, saving.atCall.1⟩
  | succ left ih =>
      have short := activation.interrupted.length_interruptWords_le
        (activation.stub.declaredErrorCode activation.errorCode)
      rcases saving.step (by simpa [Activation.pushed] using short) with ⟨next, stepped, after⟩
      have notCall : cpu.rip ≠ image.address .isrCommonStub callLine := by
        intro atCall
        exact absurd (saving.eq_zero atCall) (Nat.succ_ne_zero left)
      rcases ih after with ⟨atCall, moves, rip_eq⟩
      exact ⟨atCall, .head (runs.save stage notCall stepped) moves, rip_eq⟩

theorem atIretq {entry returned : Cpu} {frame : Registers} {address : U64}
    (runs : RunsStubs image Moves) (stage : activation.stage = .restoring entry returned)
    (restoring : Restoring image frame address left cpu) :
    ∃ atIretq next, Relation.ReflTransGen Moves ⟨cpu, activation :: active⟩
        ⟨atIretq, activation :: active⟩ ∧
      ResumesAt image ⟨atIretq, activation :: active⟩ activation active entry returned next := by
  induction left generalizing cpu with
  | zero =>
      rcases restoring.iretq with ⟨atIretq, stepped, _⟩
      exact ⟨cpu, cpu.iretq, .refl, rfl, stage, atIretq, stepped⟩
  | succ left ih =>
      rcases restoring.step with ⟨next, stepped, after⟩
      have notIretq : cpu.rip ≠ image.address .isrCommonStub iretqLine := by
        intro atIretq
        exact absurd (restoring.eq_zero atIretq) (Nat.succ_ne_zero left)
      rcases ih after with ⟨atIretq, last, moves, resumesAt⟩
      exact ⟨atIretq, last, .head (runs.restore stage notIretq stepped) moves, resumesAt⟩

/-- An interrupt that is delivered comes to its handler. -/
theorem entered (runs : RunsStubs image Moves) {stub : Stub} {errorCode : U32}
    (delivered : Moves ⟨cpu, active⟩
      ⟨cpu.deliver (stub.gate image) (cpu.registers .rsp) (stub.declaredErrorCode errorCode),
        ⟨stub, cpu, errorCode, .saving⟩ :: active⟩) :
    ∃ entry, Relation.ReflTransGen Moves ⟨cpu, active⟩
      ⟨entry, ⟨stub, cpu, errorCode, .handling entry⟩ :: active⟩ := by
  have saving := saving_deliver image stub (cpu.registers .rsp)
    (stub.declaredErrorCode errorCode) cpu
  rcases @atCall image Moves _ ⟨stub, cpu, errorCode, .saving⟩ active _ runs rfl saving with
    ⟨atCall, moves, rip_eq⟩
  have code : (isrText .isrCommonStub)[callLine]? = some (.call .isrHandler) := rfl
  have called := @call image Moves runs _ _ ⟨stub, cpu, errorCode, .saving⟩ active rfl rip_eq
    (Image.step_of_rip rip_eq code)
  exact ⟨_, .head delivered (moves.tail called)⟩

end RunsStubs

section

variable {image : Image isrText} {area : StackArea}

theorem Reachable.steps {config after : Config} (reachable : Reachable image area config)
    (steps : Relation.ReflTransGen (Step image area) config after) :
    Reachable image area after := by
  rcases reachable with ⟨start, before⟩
  exact ⟨start, before.trans steps⟩

theorem Reachable.step {config after : Config} (reachable : Reachable image area config)
    (step : Step image area config after) : Reachable image area after :=
  reachable.steps (.single step)

/-- A handler that returns at once comes to `iretq`. -/
theorem Reachable.returned {entry : Cpu} {activation : Activation} {active : List Activation}
    (reachable : Reachable image area ⟨entry, activation :: active⟩)
    (stage : activation.stage = .handling entry) :
    ∃ config inner next, Reachable image area config ∧
      ResumesAt image config inner active entry entry.ret next := by
  have after := reachable.step (Step.ret stage rfl rfl)
  rcases after.invariant with ⟨⟨_, _, _, _, _, left, restoring⟩, _⟩
  let inner : Activation := { activation with stage := .restoring entry entry.ret }
  rcases @RunsStubs.atIretq image _ _ inner active _ _ _ _ _ (runsStubs_step image area) rfl
    restoring with ⟨atIretq, next, steps, resumesAt⟩
  exact ⟨_, inner, next, after.steps steps, resumesAt⟩

end

def exampleArea : StackArea := ⟨0x1000, 0x8000, by decide⟩

def exampleStart : Cpu := (default : Cpu).setRegister .rsp 0x8000

def breakpointStub : Stub := ⟨3, .noErrCode, by decide⟩

def pageFaultStub : Stub := ⟨14, .errCode, by decide⟩

/-- The handlers of a page fault and of the breakpoint it interrupted. -/
def nestedHandlers (breakpoint pageFault : Cpu) : List Activation :=
  [⟨pageFaultStub, breakpoint, 2, .handling pageFault⟩,
    ⟨breakpointStub, exampleStart, 0, .handling breakpoint⟩]

/-- Where interrupts are delivered if there is room, a page fault comes to its handler in a
breakpoint handler. -/
theorem exists_nestedHandlers {Moves : Config → Config → Prop} (runs : RunsStubs pageImage Moves)
    (nested : ∀ {config}, Relation.ReflTransGen Moves ⟨exampleStart, []⟩ config →
      Reachable pageImage exampleArea config)
    (deliver : ∀ {cpu : Cpu} {active : List Activation} (stub : Stub) (errorCode : U32),
      active.length < 2 → stub.vector ∉ ([17, 21, 29, 30] : List U8) →
      exampleArea.bottom + 184 ≤ (alignDown (cpu.registers .rsp)).toNat →
      (cpu.registers .rsp).toNat ≤ exampleArea.top →
      Moves ⟨cpu, active⟩
        ⟨cpu.deliver (stub.gate pageImage) (cpu.registers .rsp) (stub.declaredErrorCode errorCode),
          ⟨stub, cpu, errorCode, .saving⟩ :: active⟩) :
    ∃ breakpoint pageFault, Relation.ReflTransGen Moves ⟨exampleStart, []⟩
      ⟨pageFault, nestedHandlers breakpoint pageFault⟩ := by
  have rsp_eq : exampleStart.registers .rsp = 0x8000 := registers_setRegister_self ..
  rcases runs.entered (deliver breakpointStub 0 (by decide : ([] : List Activation).length < 2)
    (by decide) (by rw [rsp_eq]; decide) (by rw [rsp_eq]; decide)) with ⟨breakpoint, handling⟩
  have inHandler : breakpoint.registers .rsp = alignDown 0x8000 - 176#64 - 8#64 := by
    rcases (nested handling).invariant with ⟨⟨_, _, _, entered, _⟩, _⟩
    rw [← rsp_eq]
    exact entered.rsp_eq
  have again := @deliver breakpoint [⟨breakpointStub, exampleStart, 0, .handling breakpoint⟩]
    pageFaultStub 2 (Nat.lt_succ_self 1) (by decide) (by rw [inHandler]; decide)
    (by rw [inHandler]; decide)
  rcases runs.entered again with ⟨pageFault, inner⟩
  exact ⟨breakpoint, pageFault, handling.trans inner⟩

/-- A page fault in a breakpoint handler comes back to it. -/
theorem exists_nested_pageFault :
    ∃ config inner outer entry returned next, Reachable pageImage exampleArea config ∧
      ResumesAt pageImage config inner [outer] entry returned next := by
  rcases exists_nestedHandlers (runsStubs_step pageImage exampleArea) (fun steps => ⟨_, steps⟩)
    (fun stub errorCode _ _ room onStack => .deliver stub errorCode room onStack) with
    ⟨breakpoint, pageFault, steps⟩
  have nested : Reachable pageImage exampleArea _ := ⟨_, steps⟩
  rcases nested.returned rfl with ⟨config, inner, next, reached, resumesAt⟩
  exact ⟨config, inner, _, pageFault, _, next, reached, resumesAt⟩

theorem nested_transparent_pageFault :
    ∃ config inner outer entry returned next,
      ResumesAt pageImage config inner [outer] entry returned next ∧
        Transparent pageImage exampleArea config := by
  rcases exists_nested_pageFault with
    ⟨config, inner, outer, entry, returned, next, reached, resumesAt⟩
  exact ⟨config, inner, outer, entry, returned, next, resumesAt, nested_transparent reached⟩

end Benamos.Interrupts
