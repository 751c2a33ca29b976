import Benamos.Interrupts.Resume
import Mathlib.Logic.Relation

/-!
# Nested interrupts on one stack

The gates are trap gates, so an interrupt may arrive between any two instructions: in the program,
in a stub or in a handler. A configuration is the processor together with the interrupts being
serviced, innermost first. Each of them remembers the state it interrupted and how far its stub has
come; the memory in those records is history, the stubs read everything back from the stack.

A handler is any C function that writes the stack only below its frame and returns to its caller.
The outermost one may also rewrite its frame.

The invariant says of each active interrupt that, apart from memory below its stack pointer, the
processor is where the stub's own instructions bring it. It is carried through an inner interrupt by
`Saving.agree` and `Restoring.agree`, and `Restoring.iretq` says what is resumed from there.
-/

namespace Benamos.Interrupts

open X86 X86.Cpu

structure StackArea where
  bottom : ℕ
  top : ℕ
  top_le : top ≤ 2 ^ 64

/-- How far a stub has come: on its way to the call, in the handler that was entered in state
`entry`, or on its way back with the state in which the handler returned. -/
inductive Stage where
  | saving
  | handling (entry : Cpu)
  | restoring (entry returned : Cpu)

structure Activation where
  stub : Stub
  interrupted : Cpu
  errorCode : U32
  stage : Stage

structure Config where
  cpu : Cpu
  active : List Activation

namespace Activation

/-- Where the processor starts to push. -/
def base (activation : Activation) : U64 := alignDown (activation.interrupted.registers .rsp)

/-- The address of the `struct registers`. -/
def frame (activation : Activation) : U64 := activation.base - 176#64

/-- The words the processor pushes, on the assumption that it pushes an error code for the vectors
that are declared with `ISR_ERRCODE` and for no others. -/
def pushed (activation : Activation) : List U64 :=
  (activation.interrupted.interruptWords
    (activation.stub.declaredErrorCode activation.errorCode)).reverse

/-- What the `struct registers` should say. -/
def saved (activation : Activation) : Registers :=
  activation.stub.savedFrame activation.errorCode activation.interrupted

end Activation

/-- Up to where the handler entered in state `entry` may write the stack: below its frame, and in
the frame if it interrupted no stub or handler. -/
def ownedUpTo (outermost : Bool) (entry : Cpu) : ℕ :=
  (entry.registers .rdi).toNat + if outermost then 176 else 0

structure HandlerStep (area : StackArea) (outermost : Bool) (entry cpu next : Cpu) : Prop where
  stackPointer : (next.registers .rsp).toNat ≤ (entry.registers .rsp).toNat
  memory : AgreeOn (ownedUpTo outermost entry) area.top next.memory cpu.memory

inductive Step (image : Image isrText) (area : StackArea) : Config → Config → Prop
  /-- The program outside all interrupts does anything. -/
  | program {cpu next : Cpu} : Step image area ⟨cpu, []⟩ ⟨next, []⟩
  /-- An interrupt arrives with the error code its stub is written for, and with room for its frame
  on the stack. -/
  | deliver {cpu : Cpu} {active : List Activation} (stub : Stub) (errorCode : U32)
      (room : area.bottom + 184 ≤ (alignDown (cpu.registers .rsp)).toNat)
      (onStack : (cpu.registers .rsp).toNat ≤ area.top) :
      Step image area ⟨cpu, active⟩
        ⟨cpu.deliver (stub.gate image) (cpu.registers .rsp) (stub.declaredErrorCode errorCode),
          ⟨stub, cpu, errorCode, .saving⟩ :: active⟩
  | save {cpu next : Cpu} {activation : Activation} {active : List Activation}
      (stage : activation.stage = .saving)
      (notCall : cpu.rip ≠ image.address .isrCommonStub callLine)
      (stepped : image.step cpu = some next) :
      Step image area ⟨cpu, activation :: active⟩ ⟨next, activation :: active⟩
  | call {cpu next : Cpu} {activation : Activation} {active : List Activation}
      (stage : activation.stage = .saving)
      (atCall : cpu.rip = image.address .isrCommonStub callLine)
      (stepped : image.step cpu = some next) :
      Step image area ⟨cpu, activation :: active⟩
        ⟨next, { activation with stage := .handling next } :: active⟩
  | handle {cpu next entry : Cpu} {activation : Activation} {active : List Activation}
      (stage : activation.stage = .handling entry)
      (handler : HandlerStep area active.isEmpty entry cpu next) :
      Step image area ⟨cpu, activation :: active⟩ ⟨next, activation :: active⟩
  /-- The handler returns: its stack pointer is back where it was, at the address it was given. -/
  | ret {cpu entry : Cpu} {activation : Activation} {active : List Activation}
      (stage : activation.stage = .handling entry)
      (stackPointer : cpu.registers .rsp = entry.registers .rsp)
      (returnAddress : cpu.top = entry.top) :
      Step image area ⟨cpu, activation :: active⟩
        ⟨cpu.ret, { activation with stage := .restoring entry cpu.ret } :: active⟩
  | restore {cpu next entry returned : Cpu} {activation : Activation} {active : List Activation}
      (stage : activation.stage = .restoring entry returned)
      (notIretq : cpu.rip ≠ image.address .isrCommonStub iretqLine)
      (stepped : image.step cpu = some next) :
      Step image area ⟨cpu, activation :: active⟩ ⟨next, activation :: active⟩
  | iretq {cpu next entry returned : Cpu} {activation : Activation} {active : List Activation}
      (stage : activation.stage = .restoring entry returned)
      (atIretq : cpu.rip = image.address .isrCommonStub iretqLine)
      (stepped : image.step cpu = some next) :
      Step image area ⟨cpu, activation :: active⟩ ⟨next, active⟩

/-- The configurations of the runs that start in the program. -/
def Reachable (image : Image isrText) (area : StackArea) (config : Config) : Prop :=
  ∃ start, Relation.ReflTransGen (Step image area) ⟨start, []⟩ config

/-! ### The invariant -/

/-- What the handler's entry state says about the frame. -/
structure Entered (image : Image isrText) (activation : Activation) (entry : Cpu) : Prop where
  rdi_eq : entry.registers .rdi = activation.frame
  rsp_eq : entry.registers .rsp = activation.frame - 8#64
  returnAddress : entry.top = image.address .isrCommonStub (callLine + 1)
  saved : Registers.read entry.memory activation.frame = activation.saved

/-- Where the processor is on its way through the stub. -/
def Progress (image : Image isrText) (outermost : Bool) (activation : Activation) (cpu : Cpu) :
    Prop :=
  match activation.stage with
  | .saving =>
      ∃ left, Saving image activation.stub activation.interrupted.registers activation.base
        activation.pushed left cpu
  | .handling entry =>
      Entered image activation entry ∧ (cpu.registers .rsp).toNat + 8 ≤ activation.frame.toNat ∧
        (outermost = false → Registers.read cpu.memory activation.frame = activation.saved)
  | .restoring entry returned =>
      Entered image activation entry ∧
        (outermost = false → Registers.read returned.memory activation.frame = activation.saved) ∧
        ∃ left, Restoring image (Registers.read returned.memory activation.frame) activation.frame
          left cpu

structure Valid (image : Image isrText) (area : StackArea) (outermost : Bool)
    (activation : Activation) (cpu : Cpu) : Prop where
  room : area.bottom + 184 ≤ activation.base.toNat
  onStack : (activation.interrupted.registers .rsp).toNat ≤ area.top
  undisturbed : AgreeOn (activation.interrupted.registers .rsp).toNat area.top cpu.memory
    activation.interrupted.memory
  progress : Progress image outermost activation cpu

/-- The innermost activation describes the processor, each other one the state in which it was
interrupted. -/
def Invariant (image : Image isrText) (area : StackArea) : Cpu → List Activation → Prop
  | _, [] => True
  | cpu, activation :: active =>
      Valid image area active.isEmpty activation cpu ∧
        Invariant image area activation.interrupted active

section

variable {image : Image isrText} {area : StackArea} {outermost : Bool} {activation : Activation}
  {cpu next entry returned : Cpu} {active : List Activation}

theorem length_frameWords_pushed (activation : Activation) :
    (frameWords activation.stub activation.interrupted.registers activation.pushed).length =
      22 := by
  rw [Activation.pushed, frameWords_declared, Registers.length_words]

theorem base_le (activation : Activation) :
    activation.base.toNat ≤ (activation.interrupted.registers .rsp).toNat := by
  rw [Activation.base, toNat_alignDown]
  exact Nat.sub_le ..

theorem Valid.toNat_frame (valid : Valid image area outermost activation cpu) :
    activation.frame.toNat = activation.base.toNat - 176 :=
  toNat_sub_ofNat (Nat.le_trans (by omega) valid.room)

theorem read_congr {memory other : Memory} {address : U64} {low high : ℕ}
    (agree : AgreeOn low high memory other) (above : low ≤ address.toNat)
    (below : address.toNat + 176 ≤ high) (top : high ≤ 2 ^ 64) :
    Registers.read other address = Registers.read memory address := by
  have holds : StackHolds memory address (Registers.read memory address).words :=
    Registers.stackHolds_words_iff.mpr rfl
  exact Registers.stackHolds_words_iff.mp (holds.congr agree above below top)

/-- Only a handler may bring the stack pointer below the frame. -/
theorem Valid.rsp_bounds (valid : Valid image area outermost activation cpu) :
    (cpu.registers .rsp).toNat ≤ activation.base.toNat ∧
      ((∀ entry, activation.stage ≠ .handling entry) →
        activation.base.toNat ≤ (cpu.registers .rsp).toNat + 176) := by
  have frame_eq := valid.toNat_frame
  rcases valid with ⟨room, onStack, undisturbed, progress⟩
  cases stage : activation.stage with
  | saving =>
      simp only [Progress, stage] at progress
      rcases progress with ⟨left, saving⟩
      have bounds := saving.toNat_rsp (by rw [length_frameWords_pushed]; omega)
      rw [length_frameWords_pushed] at bounds
      exact ⟨bounds.2, fun _ => by omega⟩
  | handling entry =>
      simp only [Progress, stage] at progress
      exact ⟨by omega, fun notHandling => absurd rfl (notHandling entry)⟩
  | restoring entry returned =>
      simp only [Progress, stage] at progress
      rcases progress with ⟨_, _, left, restoring⟩
      have inside := activation.base.isLt
      have bounds := restoring.toNat_rsp (by omega)
      exact ⟨by omega, fun _ => by omega⟩

theorem Valid.rsp_le (valid : Valid image area outermost activation cpu) :
    (cpu.registers .rsp).toNat ≤ (activation.interrupted.registers .rsp).toNat :=
  Nat.le_trans valid.rsp_bounds.1 (base_le activation)

/-- Outside its handler an interrupt has room for one more word. -/
theorem Valid.bottom_add_le (valid : Valid image area outermost activation cpu)
    (notHandling : ∀ entry, activation.stage ≠ .handling entry) :
    area.bottom + 8 ≤ (cpu.registers .rsp).toNat := by
  have bounds := valid.rsp_bounds.2 notHandling
  have room := valid.room
  omega

theorem Valid.agreeOn_step (valid : Valid image area outermost activation cpu)
    (notHandling : ∀ entry, activation.stage ≠ .handling entry)
    (stepped : image.step cpu = some next) :
    AgreeOn (cpu.registers .rsp).toNat area.top next.memory cpu.memory :=
  Image.agreeOn_step stepped area.top
    (Nat.le_trans (Nat.le_add_left 8 _) (valid.bottom_add_le notHandling))

theorem Valid.undisturbed_step (valid : Valid image area outermost activation cpu)
    (notHandling : ∀ entry, activation.stage ≠ .handling entry)
    (stepped : image.step cpu = some next) :
    AgreeOn (activation.interrupted.registers .rsp).toNat area.top next.memory
      activation.interrupted.memory := by
  have unchanged := valid.agreeOn_step notHandling stepped
  exact (unchanged.mono valid.rsp_le (Nat.le_refl _)).trans valid.undisturbed

/-! ### What each step keeps -/

theorem valid_deliver (stub : Stub) (errorCode : U32)
    (room : area.bottom + 184 ≤ (alignDown (cpu.registers .rsp)).toNat)
    (onStack : (cpu.registers .rsp).toNat ≤ area.top) :
    Valid image area outermost ⟨stub, cpu, errorCode, .saving⟩
      (cpu.deliver (stub.gate image) (cpu.registers .rsp) (stub.declaredErrorCode errorCode)) where
  room := room
  onStack := onStack
  undisturbed := agreeOn_deliver cpu _ (cpu.registers .rsp) _ _ (by omega)
  progress := ⟨_, saving_deliver image stub (cpu.registers .rsp) _ cpu⟩

theorem Valid.save (valid : Valid image area outermost activation cpu)
    (stage : activation.stage = .saving)
    (notCall : cpu.rip ≠ image.address .isrCommonStub callLine)
    (stepped : image.step cpu = some next) : Valid image area outermost activation next := by
  have undisturbed := valid.undisturbed_step (by simp [stage]) stepped
  rcases valid with ⟨room, onStack, _, progress⟩
  refine ⟨room, onStack, undisturbed, ?_⟩
  simp only [Progress, stage] at progress ⊢
  rcases progress with ⟨left, saving⟩
  cases left with
  | zero => exact absurd saving.atCall.1 notCall
  | succ left =>
      have short := activation.interrupted.length_interruptWords_le
        (activation.stub.declaredErrorCode activation.errorCode)
      rcases saving.step (by simpa [Activation.pushed] using short) with ⟨other, ran, saving⟩
      rw [stepped, Option.some_inj] at ran
      subst ran
      exact ⟨left, saving⟩

theorem entered_call (valid : Valid image area outermost activation cpu)
    (stage : activation.stage = .saving)
    (atCall : cpu.rip = image.address .isrCommonStub callLine)
    (stepped : image.step cpu = some next) : Entered image activation next := by
  have frame_eq := valid.toNat_frame
  have unchanged := valid.agreeOn_step (by simp [stage]) stepped
  have below := base_le activation
  have top_le := area.top_le
  rcases valid with ⟨room, onStack, _, progress⟩
  simp only [Progress, stage] at progress
  rcases progress with ⟨left, saving⟩
  have last := saving.eq_zero atCall
  subst last
  rcases saving.atCall with ⟨rip_eq, rdi_eq, _, _⟩
  rcases saving.read_declared with ⟨read_eq, rsp_eq⟩
  have code : (isrText .isrCommonStub)[callLine]? = some (.call .isrHandler) := rfl
  have executed := Image.step_of_rip rip_eq code
  rw [stepped, Option.some_inj] at executed
  subst executed
  have frame_rsp : cpu.registers .rsp = activation.frame := rsp_eq
  refine ⟨?_, ?_, ?_, ?_⟩
  · simp [Image.execute, rdi_eq, frame_rsp]
  · simp [Image.execute, frame_rsp]
  · exact top_push _ _
  · rw [read_congr unchanged.symm, ← frame_rsp]
    · exact read_eq
    · rw [frame_rsp]
    · omega
    · exact top_le

theorem Valid.call (valid : Valid image area outermost activation cpu)
    (stage : activation.stage = .saving)
    (atCall : cpu.rip = image.address .isrCommonStub callLine)
    (stepped : image.step cpu = some next) :
    Valid image area outermost { activation with stage := .handling next } next := by
  have undisturbed := valid.undisturbed_step (by simp [stage]) stepped
  have entered := entered_call valid stage atCall stepped
  have frame_eq := valid.toNat_frame
  rcases valid with ⟨room, onStack, _, _⟩
  refine ⟨room, onStack, undisturbed, ⟨?_, ?_, ?_⟩⟩
  · exact ⟨entered.rdi_eq, entered.rsp_eq, entered.returnAddress, entered.saved⟩
  · change (next.registers .rsp).toNat + 8 ≤ activation.frame.toNat
    rw [entered.rsp_eq, toNat_sub_ofNat (by omega)]
    omega
  · intro _
    exact entered.saved

theorem Valid.handle (valid : Valid image area outermost activation cpu)
    (stage : activation.stage = .handling entry)
    (handler : HandlerStep area outermost entry cpu next) :
    Valid image area outermost activation next := by
  have frame_eq := valid.toNat_frame
  have below := base_le activation
  have top_le := area.top_le
  rcases valid with ⟨room, onStack, undisturbed, progress⟩
  rcases handler with ⟨stackPointer, memory⟩
  simp only [Progress, stage] at progress
  rcases progress with ⟨entered, rsp_le, inner⟩
  rw [ownedUpTo, entered.rdi_eq] at memory
  refine ⟨room, onStack, ?_, ?_⟩
  · refine (memory.mono ?_ (Nat.le_refl _)).trans undisturbed
    split <;> omega
  · simp only [Progress, stage]
    refine ⟨entered, ?_, ?_⟩
    · rw [entered.rsp_eq, toNat_sub_ofNat (by omega)] at stackPointer
      omega
    · intro isInner
      rw [← inner isInner]
      apply read_congr memory.symm
      · simp [isInner]
      · omega
      · exact top_le

theorem Valid.ret (valid : Valid image area outermost activation cpu)
    (stage : activation.stage = .handling entry)
    (stackPointer : cpu.registers .rsp = entry.registers .rsp)
    (returnAddress : cpu.top = entry.top) :
    Valid image area outermost { activation with stage := .restoring entry cpu.ret } cpu.ret := by
  rcases valid with ⟨room, onStack, undisturbed, progress⟩
  simp only [Progress, stage] at progress
  rcases progress with ⟨entered, rsp_le, inner⟩
  refine ⟨room, onStack, undisturbed, ⟨?_, ?_, poppedRegisters.length + 1, ?_⟩⟩
  · exact ⟨entered.rdi_eq, entered.rsp_eq, entered.returnAddress, entered.saved⟩
  · exact inner
  · have rsp_eq : cpu.ret.registers .rsp = activation.frame := by
      simp [Cpu.ret, stackPointer, entered.rsp_eq]
    have count : poppedRegisters.length + 1 + 0 = poppedRegisters.length + 1 := rfl
    refine Restoring.popping count (Nat.zero_le _) ?_ ?_ ?_ ?_
    · exact returnAddress.trans entered.returnAddress
    · rw [rsp_eq]
      exact (BitVec.add_zero _).symm
    · rw [rsp_eq]
      exact Registers.stackHolds_words_iff.mpr rfl
    · simp

theorem Valid.restore (valid : Valid image area outermost activation cpu)
    (stage : activation.stage = .restoring entry returned)
    (notIretq : cpu.rip ≠ image.address .isrCommonStub iretqLine)
    (stepped : image.step cpu = some next) : Valid image area outermost activation next := by
  have undisturbed := valid.undisturbed_step (by simp [stage]) stepped
  rcases valid with ⟨room, onStack, _, progress⟩
  refine ⟨room, onStack, undisturbed, ?_⟩
  simp only [Progress, stage] at progress ⊢
  rcases progress with ⟨entered, inner, left, restoring⟩
  refine ⟨entered, inner, ?_⟩
  cases left with
  | zero => exact absurd restoring.iretq.1 notIretq
  | succ left =>
      rcases restoring.step with ⟨other, ran, restoring⟩
      rw [stepped, Option.some_inj] at ran
      subst ran
      exact ⟨left, restoring⟩

/-- Code that restores the context and leaves what lies on the stack alone goes unnoticed. -/
theorem Valid.agree {other : Cpu} (valid : Valid image area outermost activation cpu)
    (same : SameContext cpu other)
    (agree : AgreeOn (cpu.registers .rsp).toNat area.top other.memory cpu.memory) :
    Valid image area outermost activation other := by
  have frame_eq := valid.toNat_frame
  have below := base_le activation
  have above := valid.rsp_le
  have rsp_bounds := valid.rsp_bounds
  have top_le := area.top_le
  rcases valid with ⟨room, onStack, undisturbed, progress⟩
  refine ⟨room, onStack, (agree.mono above (Nat.le_refl _)).trans undisturbed, ?_⟩
  cases stage : activation.stage with
  | saving =>
      simp only [Progress, stage] at progress ⊢
      rcases progress with ⟨left, saving⟩
      refine ⟨left, saving.agree same.registers same.rip agree.symm ?_ ?_ top_le⟩
      · rw [length_frameWords_pushed]
        omega
      · omega
  | handling entry =>
      simp only [Progress, stage] at progress ⊢
      rcases progress with ⟨entered, rsp_le, inner⟩
      refine ⟨entered, by rwa [same.registers], ?_⟩
      intro isInner
      rw [← inner isInner]
      apply read_congr agree.symm
      · omega
      · omega
      · exact top_le
  | restoring entry returned =>
      simp only [Progress, stage] at progress ⊢
      rcases progress with ⟨entered, inner, left, restoring⟩
      refine ⟨entered, inner, left, restoring.agree same.registers same.rip agree.symm ?_ top_le⟩
      omega

theorem Valid.iretq (valid : Valid image area outermost activation cpu)
    (stage : activation.stage = .restoring entry returned)
    (atIretq : cpu.rip = image.address .isrCommonStub iretqLine)
    (stepped : image.step cpu = some next) :
    Resumes (Registers.read returned.memory (entry.registers .rdi)) next ∧
      next.memory = cpu.memory := by
  rcases valid with ⟨_, _, _, progress⟩
  simp only [Progress, stage] at progress
  rcases progress with ⟨entered, _, left, restoring⟩
  have last := restoring.eq_zero atIretq
  subst last
  rcases restoring.iretq with ⟨_, ran, resumes⟩
  rw [stepped, Option.some_inj] at ran
  subst ran
  rw [entered.rdi_eq]
  exact ⟨resumes, rfl⟩

theorem sameContext_iretq (valid : Valid image area outermost activation cpu)
    (stage : activation.stage = .restoring entry returned)
    (atIretq : cpu.rip = image.address .isrCommonStub iretqLine)
    (stepped : image.step cpu = some next)
    (unchanged : outermost = false ∨
      Registers.read returned.memory (entry.registers .rdi) =
        Registers.read entry.memory (entry.registers .rdi)) :
    SameContext activation.interrupted next := by
  rcases valid.iretq stage atIretq stepped with ⟨resumes, _⟩
  rcases valid with ⟨_, _, _, progress⟩
  simp only [Progress, stage] at progress
  rcases progress with ⟨entered, inner, _⟩
  have frame_saved : Registers.read returned.memory (entry.registers .rdi) = activation.saved := by
    rcases unchanged with isInner | same
    · rw [entered.rdi_eq, inner isInner]
    · rw [same, entered.rdi_eq, entered.saved]
  rw [frame_saved] at resumes
  exact sameContext_of_resumes resumes

theorem Invariant.step {config after : Config} (step : Step image area config after)
    (invariant : Invariant image area config.cpu config.active) :
    Invariant image area after.cpu after.active := by
  cases step with
  | program => trivial
  | deliver stub errorCode room onStack =>
      exact ⟨valid_deliver stub errorCode room onStack, invariant⟩
  | save stage notCall stepped =>
      rcases invariant with ⟨valid, outer⟩
      exact ⟨valid.save stage notCall stepped, outer⟩
  | call stage atCall stepped =>
      rcases invariant with ⟨valid, outer⟩
      exact ⟨valid.call stage atCall stepped, outer⟩
  | handle stage handler =>
      rcases invariant with ⟨valid, outer⟩
      exact ⟨valid.handle stage handler, outer⟩
  | ret stage stackPointer returnAddress =>
      rcases invariant with ⟨valid, outer⟩
      exact ⟨valid.ret stage stackPointer returnAddress, outer⟩
  | restore stage notIretq stepped =>
      rcases invariant with ⟨valid, outer⟩
      exact ⟨valid.restore stage notIretq stepped, outer⟩
  | iretq stage atIretq stepped =>
      rename_i activation active
      rcases invariant with ⟨valid, outer⟩
      cases active with
      | nil => trivial
      | cons resumed active =>
          rcases outer with ⟨resumedValid, outer⟩
          have same := sameContext_iretq valid stage atIretq stepped (Or.inl rfl)
          have memory_eq := (valid.iretq stage atIretq stepped).2
          refine ⟨resumedValid.agree same ?_, outer⟩
          rw [memory_eq]
          exact valid.undisturbed

theorem Reachable.invariant {config : Config} (reachable : Reachable image area config) :
    Invariant image area config.cpu config.active := by
  rcases reachable with ⟨start, steps⟩
  induction steps with
  | refl => trivial
  | tail _ step ih => exact ih.step step

/-- The stack grows downwards from one active interrupt to the next, and what one of them
interrupted is as it was. -/
theorem Invariant.undisturbed (invariant : Invariant image area cpu active)
    (mem : activation ∈ active) :
    (cpu.registers .rsp).toNat ≤ (activation.interrupted.registers .rsp).toNat ∧
      AgreeOn (activation.interrupted.registers .rsp).toNat area.top cpu.memory
        activation.interrupted.memory := by
  induction active generalizing cpu with
  | nil => simp at mem
  | cons head active ih =>
      rcases invariant with ⟨valid, outer⟩
      have rsp_le := valid.rsp_le
      rcases List.mem_cons.mp mem with rfl | mem
      · exact ⟨rsp_le, valid.undisturbed⟩
      · rcases ih outer mem with ⟨head_le, agree⟩
        refine ⟨Nat.le_trans rsp_le head_le, ?_⟩
        exact (valid.undisturbed.mono head_le (Nat.le_refl _)).trans agree

theorem Invariant.frame_le (invariant : Invariant image area cpu active)
    (mem : activation ∈ active) : activation.frame.toNat + 176 ≤ area.top := by
  induction active generalizing cpu with
  | nil => simp at mem
  | cons head active ih =>
      rcases invariant with ⟨valid, outer⟩
      rcases List.mem_cons.mp mem with rfl | mem
      · have frame_eq := valid.toNat_frame
        have below := base_le activation
        rcases valid with ⟨room, onStack, _, _⟩
        omega
      · exact ih outer mem

/-- While a handler runs or is interrupted, the stack pointer is below its frame. -/
theorem Invariant.rsp_lt_frame (invariant : Invariant image area cpu active)
    (mem : activation ∈ active) (stage : activation.stage = .handling entry) :
    (cpu.registers .rsp).toNat + 8 ≤ activation.frame.toNat := by
  induction active generalizing cpu with
  | nil => simp at mem
  | cons head active ih =>
      rcases invariant with ⟨valid, outer⟩
      have rsp_le := valid.rsp_le
      rcases List.mem_cons.mp mem with rfl | mem
      · rcases valid with ⟨_, _, _, progress⟩
        simp only [Progress, stage] at progress
        exact progress.2.1
      · have below := ih outer mem
        omega

end

end Benamos.Interrupts
