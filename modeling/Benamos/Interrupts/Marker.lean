import Benamos.Interrupts.Frame

/-!
# The marker in the place of a missing error code

`ISR_NOERRCODE` pushes `0xb36b9b8e1a7d7d63`, which `idt.h` calls `MISSING_ERROR_CODE_MAGIC`, where
`ISR_ERRCODE` relies on an error code. A 64-bit `push` has only a sign-extended 32-bit immediate, so
what arrives is the low half of the marker. It is not the constant, and an error code can equal it.
-/

namespace Benamos.Interrupts

open X86 X86.Cpu

/-- The `struct registers` that `isr_handler` gets a pointer to, after an uninterrupted run of the
stub with `errorCode` pushed by the processor. -/
def frameAtCall (image : Image isrText) (stub : Stub) (stack : U64) (errorCode : Option U32)
    (cpu : Cpu) : Option Registers :=
  (image.run ((isrText (.isr stub)).length + callLine)
    (cpu.deliver (stub.gate image) stack errorCode)).map fun atCall =>
      Registers.read atCall.memory (atCall.registers .rdi)

/-- The frame ends in the words the processor pushed, with those of the stub before them. -/
theorem exists_frameAtCall (image : Image isrText) (stub : Stub) (stack : U64)
    (errorCode : Option U32) (cpu : Cpu) :
    ∃ frame, frameAtCall image stub stack errorCode cpu = some frame ∧
      (stub.immediates.reverse ++ (cpu.interruptWords errorCode).reverse)[0]? =
        some frame.intNo ∧
      (stub.immediates.reverse ++ (cpu.interruptWords errorCode).reverse)[1]? =
        some frame.error := by
  rcases run_deliver image stub stack errorCode cpu with ⟨atCall, ran, saving⟩
  rcases saving.atCall with ⟨_, rdi_eq, _, holds⟩
  refine ⟨Registers.read atCall.memory (atCall.registers .rdi), by rw [frameAtCall, ran]; rfl, ?_⟩
  have below := holds.append_right
  rw [List.length_map, length_poppedRegisters, ← rdi_eq] at below
  have long : 1 < (stub.immediates.reverse ++ (cpu.interruptWords errorCode).reverse).length := by
    simp [interruptWords]
    omega
  have first := List.getElem?_eq_getElem (Nat.lt_of_succ_lt long)
  have second := List.getElem?_eq_getElem long
  have intNo := below.load_of_getElem? first
  have error := below.load_of_getElem? second
  rw [BitVec.add_assoc] at intNo error
  rw [first, second]
  exact ⟨congrArg some intNo.symm, congrArg some error.symm⟩

theorem intNo_frameAtCall {image : Image isrText} {stub : Stub} {stack : U64}
    {errorCode : Option U32} {cpu : Cpu} {frame : Registers}
    (delivered : frameAtCall image stub stack errorCode cpu = some frame) :
    frame.intNo = stub.vector.setWidth 64 := by
  rcases exists_frameAtCall image stub stack errorCode cpu with ⟨other, same, intNo, _⟩
  rw [delivered, Option.some_inj] at same
  subst same
  rcases stub with ⟨vector, stubMacro, declared⟩
  cases stubMacro <;> simpa [Stub.immediates] using intNo.symm

theorem error_frameAtCall (image : Image isrText) (stub : Stub) (stack : U64) (errorCode : U32)
    (cpu : Cpu) :
    (frameAtCall image stub stack (pushedErrorCode stub.vector errorCode) cpu).map
      Registers.error = some (stub.errorField errorCode) := by
  rcases exists_frameAtCall image stub stack (pushedErrorCode stub.vector errorCode) cpu with
    ⟨frame, same, _, error⟩
  rw [same, Option.map_some, ← error]
  have table : ∀ entry ∈ stubTable, entry.2 = .errCode → pushesErrorCode entry.1 = true := by
    decide
  have pushes := table _ stub.declared
  rcases stub with ⟨vector, stubMacro, declared⟩
  cases stubMacro with
  | noErrCode => simp [Stub.immediates, Stub.errorField]
  | errCode =>
      simp [Stub.immediates, Stub.errorField, interruptWords, pushedErrorCode, pushes rfl]

/-- A stub without an error code delivers the marker, and one with an error code delivers nothing
that a stub without one could deliver. -/
structure MarkerFaithful (image : Image isrText) (stub : Stub) (stack : U64) (errorCode : U32)
    (cpu : Cpu) : Prop where
  marked : stub.stubMacro = .noErrCode →
    (frameAtCall image stub stack (pushedErrorCode stub.vector errorCode) cpu).map
      Registers.error = some missingErrorCodeMagic
  distinct : stub.stubMacro = .errCode → ∀ other : Stub, other.stubMacro = .noErrCode →
    ∀ (otherStack : U64) (otherCode : U32) (otherCpu : Cpu),
      (frameAtCall image stub stack (pushedErrorCode stub.vector errorCode) cpu).map
        Registers.error ≠
      (frameAtCall image other otherStack (pushedErrorCode other.vector otherCode) otherCpu).map
        Registers.error

theorem errorField_noErrCode {stub : Stub} (noErrCode : stub.stubMacro = .noErrCode)
    (errorCode : U32) : stub.errorField errorCode = 0x1a7d7d63 := by
  simp only [Stub.errorField, noErrCode]
  decide

theorem errorField_errCode {stub : Stub} (errCode : stub.stubMacro = .errCode) (errorCode : U32) :
    stub.errorField errorCode = errorCode.setWidth 64 := by
  simp only [Stub.errorField, errCode]

/-- The marker is faithful exactly for the stubs with an error code and the codes other than the low
half of the marker. -/
theorem markerFaithful_iff (image : Image isrText) (stub : Stub) (stack : U64) (errorCode : U32)
    (cpu : Cpu) :
    MarkerFaithful image stub stack errorCode cpu ↔
      stub.stubMacro = .errCode ∧ errorCode ≠ 0x1a7d7d63 := by
  constructor
  · rintro ⟨marked, distinct⟩
    cases stubMacro : stub.stubMacro with
    | noErrCode =>
        have delivered := marked stubMacro
        rw [error_frameAtCall, errorField_noErrCode stubMacro] at delivered
        exact absurd delivered (by decide)
    | errCode =>
        refine ⟨rfl, ?_⟩
        intro same
        apply distinct stubMacro ⟨0, .noErrCode, by decide⟩ rfl stack errorCode cpu
        rw [error_frameAtCall, error_frameAtCall, errorField_errCode stubMacro,
          errorField_noErrCode rfl, same]
        decide
  · rintro ⟨errCode, different⟩
    constructor
    · intro noErrCode
      rw [errCode] at noErrCode
      contradiction
    · intro _ other noErrCode otherStack otherCode otherCpu same
      rw [error_frameAtCall, error_frameAtCall, errorField_errCode errCode,
        errorField_noErrCode noErrCode, Option.some_inj] at same
      apply different
      have low := congrArg (BitVec.setWidth 32) same
      simpa using low

/-- The divide error delivers half of the marker. -/
theorem not_markerFaithful :
    ¬∀ (image : Image isrText) (stub : Stub) (stack : U64) (errorCode : U32) (cpu : Cpu),
      MarkerFaithful image stub stack errorCode cpu := by
  intro claim
  have delivered := (claim pageImage ⟨0, .noErrCode, by decide⟩ 0 0 default).marked rfl
  rw [error_frameAtCall, errorField_noErrCode rfl] at delivered
  exact absurd delivered (by decide)

end Benamos.Interrupts
