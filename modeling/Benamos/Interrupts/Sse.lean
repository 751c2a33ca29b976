import Benamos.Interrupts.Resume

/-!
# The SSE registers across an interrupt

The flags of the kernel's makefile keep the compiler from x87 and MMX code, but not from SSE code,
so a C function may use `xmm0` to `xmm15`, and to its caller all of them are scratch registers.
Neither `pushaq` nor the delivery of an interrupt saves them. What the interrupted code finds in
them is therefore what the handler left there.
-/

namespace Benamos.Interrupts

open X86 X86.Cpu

/-- The processor together with its SSE registers, which no instruction of the stubs names. -/
structure SseCpu where
  cpu : Cpu
  xmm : Fin 16 → BitVec 128

/-- The general registers a SysV function hands back as it found them, besides `rsp`. -/
def calleeSaved : List Register := [.rbx, .rbp, .r12, .r13, .r14, .r15]

/-- A C function for `call isr_handler`, from its first instruction to its return. It follows the
calling convention and does not rewrite the frame. Of the SSE registers nothing is required. -/
structure SysVHandler where
  run : SseCpu → SseCpu
  rip : ∀ entry, (run entry).cpu.rip = entry.cpu.top
  rsp : ∀ entry, (run entry).cpu.registers .rsp = entry.cpu.registers .rsp + 8#64
  saved : ∀ entry, ∀ register ∈ calleeSaved,
    (run entry).cpu.registers register = entry.cpu.registers register
  frame : ∀ entry, Registers.read (run entry).cpu.memory (entry.cpu.registers .rdi) =
    Registers.read entry.cpu.memory (entry.cpu.registers .rdi)

/-- The state after `call isr_handler`. -/
def handlerEntry (image : Image isrText) (stub : Stub) (stack : U64) (errorCode : U32)
    (interrupted : SseCpu) : Option SseCpu := do
  let atCall ← image.run ((isrText (.isr stub)).length + callLine)
    (interrupted.cpu.deliver (stub.gate image) stack (pushedErrorCode stub.vector errorCode))
  let entry ← image.step atCall
  return ⟨entry, interrupted.xmm⟩

/-- From the return of the handler to the code that `iretq` resumes. -/
def resume (image : Image isrText) (returned : SseCpu) : Option SseCpu := do
  let atIretq ← image.run (poppedRegisters.length + 1) returned.cpu
  let resumed ← image.step atIretq
  return ⟨resumed, returned.xmm⟩

def service (image : Image isrText) (stub : Stub) (stack : U64) (errorCode : U32)
    (handler : SysVHandler) (interrupted : SseCpu) : Option SseCpu := do
  let entry ← handlerEntry image stub stack errorCode interrupted
  resume image (handler.run entry)

/-- The resumed code finds the SSE registers as they were at the interrupt. -/
def KeepsSse (image : Image isrText) (stub : Stub) (stack : U64) (errorCode : U32)
    (handler : SysVHandler) (interrupted : SseCpu) : Prop :=
  ∃ resumed, service image stub stack errorCode handler interrupted = some resumed ∧
    resumed.xmm = interrupted.xmm

section

variable {image : Image isrText}

/-- The handler is entered with `rdi` pointing to the frame, on top of which lies the address of
the line after the call. -/
theorem exists_handlerEntry (image : Image isrText) (stub : Stub) (stack : U64) (errorCode : U32)
    (interrupted : SseCpu) :
    ∃ entry, handlerEntry image stub stack errorCode interrupted = some entry ∧
      entry.xmm = interrupted.xmm ∧
      entry.cpu.top = image.address .isrCommonStub (callLine + 1) ∧
      entry.cpu.registers .rsp + 8#64 = entry.cpu.registers .rdi := by
  rcases run_deliver image stub stack (pushedErrorCode stub.vector errorCode) interrupted.cpu with
    ⟨atCall, ran, saving⟩
  rcases saving.atCall with ⟨rip_eq, rdi_eq, _, _⟩
  have code : (isrText .isrCommonStub)[callLine]? = some (.call .isrHandler) := rfl
  have called := Image.step_of_rip rip_eq code
  refine ⟨⟨image.execute .isrCommonStub callLine (.call .isrHandler) atCall, interrupted.xmm⟩,
    ?_, rfl, top_push _ _, ?_⟩
  · simp [handlerEntry, ran, called]
  · simp [Image.execute, rdi_eq]

/-- From any handler's return `iretq` is reached, and takes its state from the frame. -/
theorem exists_resume (handler : SysVHandler) {entry : SseCpu}
    (returnAddress : entry.cpu.top = image.address .isrCommonStub (callLine + 1))
    (above : entry.cpu.registers .rsp + 8#64 = entry.cpu.registers .rdi) :
    ∃ resumed, resume image (handler.run entry) = some resumed ∧
      resumed.xmm = (handler.run entry).xmm ∧
      Resumes (Registers.read entry.cpu.memory (entry.cpu.registers .rdi)) resumed.cpu := by
  have rsp_eq := handler.rsp entry
  rw [above] at rsp_eq
  have restoring : Restoring image (Registers.read entry.cpu.memory (entry.cpu.registers .rdi))
      (entry.cpu.registers .rdi) (poppedRegisters.length + 1) (handler.run entry).cpu := by
    apply Restoring.popping (Nat.add_zero _) (Nat.zero_le _)
    · rw [handler.rip, returnAddress, Nat.add_zero]
    · rw [rsp_eq]
      simp
    · rw [rsp_eq, List.drop_zero, Registers.stackHolds_words_iff]
      exact handler.frame entry
    · simp
  rcases restoring.run with ⟨atIretq, ran, restoring⟩
  rcases restoring.iretq with ⟨_, stepped, resumes⟩
  refine ⟨⟨atIretq.iretq, (handler.run entry).xmm⟩, ?_, rfl, resumes⟩
  rw [resume, ran, Option.bind_eq_bind, Option.bind_some, stepped]
  rfl

end

/-- The resumed code finds its SSE registers exactly if the handler returned with those it was
entered with. -/
theorem keepsSse_iff (image : Image isrText) (stub : Stub) (stack : U64) (errorCode : U32)
    (handler : SysVHandler) (interrupted : SseCpu) :
    KeepsSse image stub stack errorCode handler interrupted ↔
      ∀ entry, handlerEntry image stub stack errorCode interrupted = some entry →
        (handler.run entry).xmm = entry.xmm := by
  rcases exists_handlerEntry image stub stack errorCode interrupted with
    ⟨entry, entered, sameXmm, returnAddress, above⟩
  rcases exists_resume handler returnAddress above with ⟨resumed, resume_eq, resumedXmm, _⟩
  have service_eq : service image stub stack errorCode handler interrupted = some resumed := by
    simp [service, entered, resume_eq]
  constructor
  · rintro ⟨other, same, kept⟩ otherEntry otherEntered
    rw [service_eq, Option.some_inj] at same
    rw [entered, Option.some_inj] at otherEntered
    subst same otherEntered
    rw [← resumedXmm, kept, sameXmm]
  · intro unchanged
    exact ⟨resumed, service_eq, by rw [resumedXmm, unchanged entry entered, sameXmm]⟩

/-- A handler that returns at once, with zeros in the SSE registers. -/
def zeroingHandler : SysVHandler where
  run entry := ⟨entry.cpu.ret, fun _ => 0⟩
  rip _ := rfl
  rsp entry := by simp [ret]
  saved entry register mem := by
    apply registers_setRegister_of_ne
    rintro rfl
    revert mem
    decide
  frame _ := rfl

/-- An interrupt of code with ones in the SSE registers. -/
theorem not_keepsSse :
    ¬∀ (image : Image isrText) (stub : Stub) (stack : U64) (errorCode : U32)
      (handler : SysVHandler) (interrupted : SseCpu),
      KeepsSse image stub stack errorCode handler interrupted := by
  intro claim
  let interrupted : SseCpu := ⟨default, fun _ => 1⟩
  rcases exists_handlerEntry pageImage ⟨3, .noErrCode, by decide⟩ 0 0 interrupted with
    ⟨entry, entered, _, returnAddress, above⟩
  rcases exists_resume zeroingHandler returnAddress above with ⟨resumed, resume_eq, resumedXmm, _⟩
  rcases claim pageImage ⟨3, .noErrCode, by decide⟩ 0 0 zeroingHandler interrupted with
    ⟨other, service_eq, kept⟩
  rw [service, entered, Option.bind_eq_bind, Option.bind_some, resume_eq, Option.some_inj]
    at service_eq
  subst service_eq
  have same : (0 : BitVec 128) = 1 := congrFun (resumedXmm.symm.trans kept) 0
  revert same
  decide

end Benamos.Interrupts
