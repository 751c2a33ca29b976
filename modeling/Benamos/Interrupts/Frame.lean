import Benamos.Interrupts.Idt
import Benamos.Interrupts.Isr

/-!
# The frame a stub hands to `isr_handler`

`Saving` follows the straight path from the first line of a stub to `call isr_handler`: at each line
it says which words lie on the stack. One step lemma carries it from line to line. It is stated for
any words the processor pushed before the stub started, so it covers the vectors for which those
words are the ones the stub's macro expects and the vectors for which they are not.
-/

namespace Benamos.Interrupts

open X86 X86.Cpu

/-! ### The instruction at each line -/

theorem isrText_immediate (stub : Stub) {line : ℕ} (inside : line < stub.immediates.length) :
    ∃ value : BitVec 32, (isrText (.isr stub))[line]? = some (.pushImm value) ∧
      stub.immediates[line]? = some (value.signExtend 64) := by
  rcases stub with ⟨vector, stubMacro, declared⟩
  cases stubMacro with
  | noErrCode =>
      rcases line with _ | _ | line
      · exact ⟨_, rfl, rfl⟩
      · exact ⟨_, rfl, by simp [Stub.immediates, signExtend_vector]⟩
      · simp only [Stub.immediates, List.length_cons, List.length_nil] at inside
        omega
  | errCode =>
      rcases line with _ | line
      · exact ⟨_, rfl, by simp [Stub.immediates, signExtend_vector]⟩
      · simp [Stub.immediates] at inside

theorem length_isrText_isr (stub : Stub) :
    (isrText (.isr stub)).length = stub.immediates.length + 1 := by
  rcases stub with ⟨vector, stubMacro, declared⟩
  cases stubMacro <;> rfl

theorem isrText_jmp (stub : Stub) :
    (isrText (.isr stub))[stub.immediates.length]? = some (.jmp .isrCommonStub) := by
  rcases stub with ⟨vector, stubMacro, declared⟩
  cases stubMacro <;> rfl

theorem isrCommonStub_push {line : ℕ} {register : Register}
    (saved : poppedRegisters.reverse[line]? = some register) :
    (isrText .isrCommonStub)[line]? = some (.push register) := by
  have inPushaq : pushaq[line]? = some (.push register) := by
    rw [pushaq_eq, List.getElem?_map, saved]
    rfl
  have inside : line < pushaq.length := by
    rcases List.getElem?_eq_some_iff.mp inPushaq with ⟨inside, _⟩
    exact inside
  simp only [isrText, isrCommonStub, List.append_assoc]
  rw [List.getElem?_append_left inside, inPushaq]

theorem isrCommonStub_pop {line : ℕ} {register : Register}
    (popped : poppedRegisters[line]? = some register) :
    (isrText .isrCommonStub)[callLine + 1 + line]? = some (.pop register) := by
  have inPopaq : popaq[line]? = some (.pop register) := by
    rw [popaq_eq, List.getElem?_map, popped]
    rfl
  have inside : line < popaq.length := by
    rcases List.getElem?_eq_some_iff.mp inPopaq with ⟨inside, _⟩
    exact inside
  have after : (isrText .isrCommonStub)[callLine + 1 + line]? =
      (popaq ++ [.addImm .rsp 16, .iretq])[line]? := by
    simp only [isrText, isrCommonStub, List.append_assoc]
    rw [← List.append_assoc pushaq, List.getElem?_append_right (by simp [pushaq, callLine])]
    congr 1
    simp [pushaq, callLine]
  rw [after, List.getElem?_append_left inside, inPopaq]

/-! ### The way to the call -/

/-- The words on the stack at the call, over the `words` the processor pushed. -/
def frameWords (stub : Stub) (registers : Register → U64) (words : List U64) : List U64 :=
  poppedRegisters.map registers ++ (stub.immediates.reverse ++ words)

/-- The processor is `left` instructions before `call isr_handler` on its way through `stub`. -/
inductive Saving (image : Image isrText) (stub : Stub) (registers : Register → U64) (base : U64)
    (words : List U64) : ℕ → Cpu → Prop
  | stub {left line : ℕ} {cpu : Cpu} (count : left + line = callLine + 1 + stub.immediates.length)
      (inside : line ≤ stub.immediates.length) (rip_eq : cpu.rip = image.address (.isr stub) line)
      (pushed : HasPushed registers base ((stub.immediates.take line).reverse ++ words) cpu) :
      Saving image stub registers base words left cpu
  | common {left line : ℕ} {cpu : Cpu} (count : left + line = callLine)
      (inside : line ≤ poppedRegisters.length)
      (rip_eq : cpu.rip = image.address .isrCommonStub line)
      (pushed : HasPushed registers base
        ((poppedRegisters.reverse.take line).reverse.map registers ++
          (stub.immediates.reverse ++ words)) cpu) :
      Saving image stub registers base words left cpu
  | handing {left line : ℕ} {cpu : Cpu} (count : left + line = callLine)
      (outside : poppedRegisters.length < line)
      (rip_eq : cpu.rip = image.address .isrCommonStub line)
      (rdi_eq : cpu.registers .rdi = cpu.registers .rsp)
      (rsp_eq : cpu.registers .rsp =
        base - BitVec.ofNat 64 (8 * (frameWords stub registers words).length))
      (holds : StackHolds cpu.memory (cpu.registers .rsp) (frameWords stub registers words)) :
      Saving image stub registers base words left cpu

theorem length_immediates_le (stub : Stub) : stub.immediates.length ≤ 2 := by
  rcases stub with ⟨vector, stubMacro, declared⟩
  cases stubMacro <;> simp [Stub.immediates]

section

variable {image : Image isrText} {stub : Stub} {registers : Register → U64} {base : U64}
  {words : List U64} {left : ℕ} {cpu : Cpu}

theorem take_reverse_succ {α : Type} {values : List α} {line : ℕ} {value : α}
    (here : values[line]? = some value) :
    (values.take (line + 1)).reverse = value :: (values.take line).reverse := by
  simp [List.take_add_one, here]

theorem Saving.step (short : words.length ≤ 6)
    (saving : Saving image stub registers base words (left + 1) cpu) :
    ∃ next, image.step cpu = some next ∧ Saving image stub registers base words left next := by
  have immediates_le := length_immediates_le stub
  cases saving with
  | stub count inside rip_eq pushed =>
      rename_i line
      rcases Nat.lt_or_eq_of_le inside with before | atJmp
      · rcases isrText_immediate stub before with ⟨value, code, here⟩
        have nextCount : left + (line + 1) = callLine + 1 + stub.immediates.length := by omega
        refine ⟨_, Image.step_of_rip rip_eq code, Saving.stub nextCount before rfl ?_⟩
        rw [take_reverse_succ here]
        apply HasPushed.jump
        apply pushed.push
        simp only [List.length_append, List.length_reverse, List.length_take]
        omega
      · subst atJmp
        have nextCount : left + 0 = callLine := by omega
        refine ⟨_, Image.step_of_rip rip_eq (isrText_jmp stub),
          Saving.common nextCount (Nat.zero_le _) rfl ?_⟩
        rw [List.take_length] at pushed
        exact pushed.jump _
  | common count inside rip_eq pushed =>
      rename_i line
      rcases Nat.lt_or_eq_of_le inside with before | atMov
      · have exists_register : ∃ register, poppedRegisters.reverse[line]? = some register :=
          ⟨_, List.getElem?_eq_getElem (by simpa using before)⟩
        rcases exists_register with ⟨register, here⟩
        have isOther : register ≠ .rsp := by
          rintro rfl
          exact rsp_notMem_poppedRegisters (List.mem_reverse.mp (List.mem_of_getElem? here))
        have nextCount : left + (line + 1) = callLine := by omega
        refine ⟨_, Image.step_of_rip rip_eq (isrCommonStub_push here),
          Saving.common nextCount before rfl ?_⟩
        rw [take_reverse_succ here, List.map_cons, ← pushed.kept register isOther]
        apply HasPushed.jump
        apply pushed.push
        simp only [List.length_append, List.length_reverse, List.length_map, List.length_take]
        simp only [length_poppedRegisters]
        omega
      · subst atMov
        have nextCount : left + (poppedRegisters.length + 1) = callLine := by omega
        have full : (poppedRegisters.reverse.take poppedRegisters.length).reverse =
            poppedRegisters := rfl
        rw [full] at pushed
        refine ⟨_, Image.step_of_rip rip_eq rfl,
          Saving.handing nextCount (Nat.lt_succ_self _) rfl ?_ ?_ ?_⟩
        · simp [Image.execute, registers_setRegister_of_ne]
        · simpa [Image.execute, registers_setRegister_of_ne, frameWords] using pushed.rsp_eq
        · simpa [Image.execute, registers_setRegister_of_ne, frameWords] using pushed.holds
  | handing count outside rip_eq rdi_eq rsp_eq holds =>
      rename_i line
      have atCld : line = 16 := by
        simp only [callLine, length_poppedRegisters] at count outside
        omega
      subst atCld
      have nextCount : left + 17 = callLine := by omega
      exact ⟨_, Image.step_of_rip rip_eq rfl,
        Saving.handing nextCount (by decide) rfl rdi_eq rsp_eq holds⟩

theorem Saving.rsp_eq (saving : Saving image stub registers base words left cpu) :
    ∃ count ≤ (frameWords stub registers words).length,
      cpu.registers .rsp = base - BitVec.ofNat 64 (8 * count) := by
  cases saving with
  | stub count inside rip_eq pushed =>
      refine ⟨_, ?_, pushed.rsp_eq⟩
      simp only [frameWords, List.length_append, List.length_reverse, List.length_take]
      omega
  | common count inside rip_eq pushed =>
      refine ⟨_, ?_, pushed.rsp_eq⟩
      simp only [frameWords, List.length_append, List.length_reverse, List.length_map,
        List.length_take]
      omega
  | handing count outside rip_eq rdi_eq rsp_eq holds => exact ⟨_, Nat.le_refl _, rsp_eq⟩

theorem Saving.toNat_rsp (saving : Saving image stub registers base words left cpu)
    (noWrap : 8 * (frameWords stub registers words).length ≤ base.toNat) :
    base.toNat - 8 * (frameWords stub registers words).length ≤ (cpu.registers .rsp).toNat ∧
      (cpu.registers .rsp).toNat ≤ base.toNat := by
  rcases saving.rsp_eq with ⟨count, inside, rsp_eq⟩
  rw [rsp_eq, toNat_sub_ofNat (by omega)]
  omega

/-- Code that restores the registers and leaves what lies on the stack alone goes unnoticed. -/
theorem Saving.agree {other : Cpu} {high : ℕ}
    (saving : Saving image stub registers base words left cpu)
    (sameRegisters : other.registers = cpu.registers) (sameRip : other.rip = cpu.rip)
    (agree : AgreeOn (cpu.registers .rsp).toNat high cpu.memory other.memory)
    (noWrap : 8 * (frameWords stub registers words).length ≤ base.toNat)
    (below : base.toNat ≤ high) (top : high ≤ 2 ^ 64) :
    Saving image stub registers base words left other := by
  have length_eq : (frameWords stub registers words).length =
      poppedRegisters.length + (stub.immediates.length + words.length) := by
    simp [frameWords]
  cases saving with
  | stub count inside rip_eq pushed =>
      refine Saving.stub count inside (by rw [sameRip, rip_eq]) ?_
      apply pushed.agree sameRegisters agree _ below top
      simp only [List.length_append, List.length_reverse, List.length_take]
      omega
  | common count inside rip_eq pushed =>
      refine Saving.common count inside (by rw [sameRip, rip_eq]) ?_
      apply pushed.agree sameRegisters agree _ below top
      simp only [List.length_append, List.length_reverse, List.length_map, List.length_take]
      omega
  | handing count outside rip_eq rdi_eq rsp_eq holds =>
      refine Saving.handing count outside (by rw [sameRip, rip_eq]) (by rw [sameRegisters, rdi_eq])
        (by rw [sameRegisters, rsp_eq]) ?_
      rw [sameRegisters]
      apply holds.congr agree (Nat.le_refl _) _ top
      rw [rsp_eq, toNat_sub_ofNat noWrap]
      omega

/-- With nothing in between, the stub comes to its call. -/
theorem Saving.run (short : words.length ≤ 6)
    (saving : Saving image stub registers base words left cpu) :
    ∃ atCall, image.run left cpu = some atCall ∧
      Saving image stub registers base words 0 atCall := by
  induction left generalizing cpu with
  | zero => exact ⟨cpu, rfl, saving⟩
  | succ left ih =>
      rcases saving.step short with ⟨next, stepped, saving⟩
      rcases ih saving with ⟨atCall, ran, saving⟩
      exact ⟨atCall, by simp [Image.run, stepped, ran], saving⟩

theorem Saving.eq_zero (saving : Saving image stub registers base words left cpu)
    (atCall : cpu.rip = image.address .isrCommonStub callLine) : left = 0 := by
  have callInside : callLine < (isrText .isrCommonStub).length := by decide
  cases saving with
  | stub count inside rip_eq pushed =>
      rw [rip_eq] at atCall
      have lineInside := Nat.lt_succ_of_le inside
      rw [Nat.succ_eq_add_one, ← length_isrText_isr] at lineInside
      have same := (Image.eq_of_address_eq atCall lineInside callInside).1
      contradiction
  | common count inside rip_eq pushed =>
      rw [rip_eq] at atCall
      have lineInside := Nat.lt_of_le_of_lt inside (by decide : _ < (isrText .isrCommonStub).length)
      have same := (Image.eq_of_address_eq atCall lineInside callInside).2
      omega
  | handing count outside rip_eq rdi_eq rsp_eq holds =>
      rename_i line
      rw [rip_eq] at atCall
      have lineInside : line < (isrText .isrCommonStub).length :=
        Nat.lt_of_le_of_lt (by omega : line ≤ callLine) callInside
      have same := (Image.eq_of_address_eq atCall lineInside callInside).2
      omega

theorem Saving.atCall (saving : Saving image stub registers base words 0 cpu) :
    cpu.rip = image.address .isrCommonStub callLine ∧
      cpu.registers .rdi = cpu.registers .rsp ∧
      cpu.registers .rsp =
        base - BitVec.ofNat 64 (8 * (frameWords stub registers words).length) ∧
      StackHolds cpu.memory (cpu.registers .rsp) (frameWords stub registers words) := by
  cases saving with
  | stub count inside =>
      simp only [callLine] at count
      omega
  | common count inside =>
      simp only [callLine, length_poppedRegisters] at count inside
      omega
  | handing count outside rip_eq rdi_eq rsp_eq holds =>
      rw [Nat.zero_add] at count
      subst count
      exact ⟨rip_eq, rdi_eq, rsp_eq, holds⟩

end

/-! ### Delivery through the interrupt table -/

/-- The gate `REGISTER_ISR` makes for a stub, as the processor reads it. -/
def Stub.gate (stub : Stub) (image : Image isrText) : Gate :=
  Gate.decode (createInterruptDescriptor (image.address (.isr stub) 0) 0x8 0).bits

theorem Stub.gate_eq (stub : Stub) (image : Image isrText) :
    stub.gate image =
      { offset := image.address (.isr stub) 0, selector := 0x8, ist := 0, type := Gate.trapGate,
        privilege := 0, present := true } :=
  decode_createInterruptDescriptor _ _ _

/-- Delivery starts the stub over the words the processor pushes. -/
theorem saving_deliver (image : Image isrText) (stub : Stub) (stack : U64)
    (errorCode : Option U32) (cpu : Cpu) :
    Saving image stub cpu.registers (alignDown stack) (cpu.interruptWords errorCode).reverse
      (callLine + 1 + stub.immediates.length) (cpu.deliver (stub.gate image) stack errorCode) := by
  apply Saving.stub (Nat.add_zero _) (Nat.zero_le _)
  · rw [stub.gate_eq]
    rfl
  · exact hasPushed_deliver cpu (stub.gate image) stack errorCode

/-! ### Which frames are faithful -/

/-- The `struct registers` that `rdi` points to at the call describes the interrupted `cpu` and the
error code the processor pushed, if it pushed one, and the stack is aligned for C code. -/
structure FaithfulFrame (cpu : Cpu) (vector : U8) (errorCode : Option U32) (atCall : Cpu) :
    Prop where
  general : ∀ register, (Registers.read atCall.memory (atCall.registers .rdi)).general register =
    cpu.registers register
  intNo : (Registers.read atCall.memory (atCall.registers .rdi)).intNo = vector.setWidth 64
  error : ∀ code, errorCode = some code →
    (Registers.read atCall.memory (atCall.registers .rdi)).error = code.setWidth 64
  rip : (Registers.read atCall.memory (atCall.registers .rdi)).rip = cpu.rip
  cs : (Registers.read atCall.memory (atCall.registers .rdi)).cs = (cpu.segments .cs).setWidth 64
  rflags : (Registers.read atCall.memory (atCall.registers .rdi)).rflags = cpu.rflags
  rsp : (Registers.read atCall.memory (atCall.registers .rdi)).rsp = cpu.registers .rsp
  ss : (Registers.read atCall.memory (atCall.registers .rdi)).ss = (cpu.segments .ss).setWidth 64
  aligned : (atCall.registers .rsp).toNat % 16 = 0

/-- The error code the processor pushes for `vector`, given the code it would push. -/
def pushedErrorCode (vector : U8) (errorCode : U32) : Option U32 :=
  if pushesErrorCode vector then some errorCode else none

/-- Interrupted in the state `cpu`, the stub comes to `call isr_handler` with a faithful frame. -/
def HandsFaithfulFrame (image : Image isrText) (stub : Stub) (stack : U64) (errorCode : U32)
    (cpu : Cpu) : Prop :=
  ∃ atCall,
    image.run ((isrText (.isr stub)).length + callLine)
      (cpu.deliver (stub.gate image) stack (pushedErrorCode stub.vector errorCode)) = some atCall ∧
    atCall.rip = image.address .isrCommonStub callLine ∧
    FaithfulFrame cpu stub.vector (pushedErrorCode stub.vector errorCode) atCall

/-- The error code a stub relies on the processor to push. -/
def Stub.declaredErrorCode (stub : Stub) (errorCode : U32) : Option U32 :=
  match stub.stubMacro with
  | .noErrCode => none
  | .errCode => some errorCode

/-- What the `error` field holds under that assumption. -/
def Stub.errorField (stub : Stub) (errorCode : U32) : U64 :=
  match stub.stubMacro with
  | .noErrCode => (missingErrorCodeMagic.setWidth 32).signExtend 64
  | .errCode => errorCode.setWidth 64

/-- The frame a stub is written for. -/
def Stub.savedFrame (stub : Stub) (errorCode : U32) (cpu : Cpu) : Registers :=
  Registers.saved cpu (stub.vector.setWidth 64) (stub.errorField errorCode)

/-- If the processor pushes what the stub relies on, the words at the call are the struct. -/
theorem frameWords_declared (stub : Stub) (errorCode : U32) (cpu : Cpu) :
    frameWords stub cpu.registers (cpu.interruptWords (stub.declaredErrorCode errorCode)).reverse =
      (stub.savedFrame errorCode cpu).words := by
  rcases stub with ⟨vector, stubMacro, declared⟩
  cases stubMacro <;> rfl

theorem pushedErrorCode_eq_iff (stub : Stub) (errorCode : U32) :
    pushedErrorCode stub.vector errorCode = stub.declaredErrorCode errorCode ↔
      stub.vector ∉ ([17, 21, 29, 30] : List U8) := by
  have table : ∀ entry ∈ stubTable, (entry.2 = .errCode ↔ pushesErrorCode entry.1 = true) ↔
      entry.1 ∉ ([17, 21, 29, 30] : List U8) := by
    decide
  rw [← table _ stub.declared]
  rcases stub with ⟨vector, stubMacro, declared⟩
  cases stubMacro <;> simp [pushedErrorCode, Stub.declaredErrorCode]

/-- An undeclared error code is one word too many. -/
theorem length_frameWords_of_ne {stub : Stub} {errorCode : U32} (cpu : Cpu)
    (undeclared : pushedErrorCode stub.vector errorCode ≠ stub.declaredErrorCode errorCode) :
    (frameWords stub cpu.registers
      (cpu.interruptWords (pushedErrorCode stub.vector errorCode)).reverse).length = 23 := by
  have table : ∀ entry ∈ stubTable, entry.2 = .errCode → pushesErrorCode entry.1 = true := by
    decide
  have declared := table _ stub.declared
  rcases stub with ⟨vector, stubMacro, mem⟩
  cases stubMacro with
  | noErrCode =>
      cases pushes : pushesErrorCode vector with
      | false => simp [pushedErrorCode, Stub.declaredErrorCode, pushes] at undeclared
      | true =>
          simp [frameWords, pushedErrorCode, pushes, poppedRegisters, Stub.immediates,
            interruptWords]
  | errCode =>
      have pushes : pushesErrorCode vector = true := declared rfl
      simp [pushedErrorCode, Stub.declaredErrorCode, pushes] at undeclared

theorem aligned_iff (stack : U64) {count : ℕ} (small : count ≤ 23) :
    (alignDown stack - BitVec.ofNat 64 (8 * count)).toNat % 16 = 0 ↔ count % 2 = 0 := by
  have offset : (BitVec.ofNat 64 (8 * count)).toNat = 8 * count := by
    rw [BitVec.toNat_ofNat, Nat.mod_eq_of_lt (by omega)]
  rw [BitVec.toNat_sub, toNat_alignDown, offset, Nat.mod_mod_of_dvd _ (by decide)]
  omega

theorem run_deliver (image : Image isrText) (stub : Stub) (stack : U64) (errorCode : Option U32)
    (cpu : Cpu) :
    ∃ atCall,
      image.run ((isrText (.isr stub)).length + callLine)
        (cpu.deliver (stub.gate image) stack errorCode) = some atCall ∧
      Saving image stub cpu.registers (alignDown stack) (cpu.interruptWords errorCode).reverse 0
        atCall := by
  have short := cpu.length_interruptWords_le errorCode
  have count : (isrText (.isr stub)).length + callLine =
      callLine + 1 + stub.immediates.length := by
    rw [length_isrText_isr]
    omega
  rw [count]
  exact (saving_deliver image stub stack errorCode cpu).run (by simpa using short)

/-- If the processor pushes what the stub relies on, the struct at the call is the one the stub is
written for. -/
theorem Saving.read_declared {image : Image isrText} {stub : Stub} {errorCode : U32} {base : U64}
    {cpu atCall : Cpu}
    (saving : Saving image stub cpu.registers base
      (cpu.interruptWords (stub.declaredErrorCode errorCode)).reverse 0 atCall) :
    Registers.read atCall.memory (atCall.registers .rsp) = stub.savedFrame errorCode cpu ∧
      atCall.registers .rsp = base - 176#64 := by
  rcases saving.atCall with ⟨_, _, rsp_eq, holds⟩
  rw [frameWords_declared] at holds rsp_eq
  exact ⟨Registers.stackHolds_words_iff.mp holds, rsp_eq⟩

theorem faithfulFrame_of_declared {stub : Stub} {errorCode : U32} {cpu atCall : Cpu}
    (frame : Registers.read atCall.memory (atCall.registers .rdi) = stub.savedFrame errorCode cpu)
    (aligned : (atCall.registers .rsp).toNat % 16 = 0) :
    FaithfulFrame cpu stub.vector (stub.declaredErrorCode errorCode) atCall where
  general register := by rw [frame, Stub.savedFrame, Registers.general_saved]
  intNo := by rw [frame]; rfl
  error code pushed := by
    rw [frame]
    rcases stub with ⟨vector, stubMacro, declared⟩
    cases stubMacro with
    | noErrCode => simp [Stub.declaredErrorCode] at pushed
    | errCode =>
        simp only [Stub.declaredErrorCode, Option.some_inj] at pushed
        subst pushed
        rfl
  rip := by rw [frame]; rfl
  cs := by rw [frame]; rfl
  rflags := by rw [frame]; rfl
  rsp := by rw [frame]; rfl
  ss := by rw [frame]; rfl
  aligned := aligned

theorem handsFaithfulFrame_of_declared (image : Image isrText) {stub : Stub} (stack : U64)
    {errorCode : U32} (cpu : Cpu)
    (declared : pushedErrorCode stub.vector errorCode = stub.declaredErrorCode errorCode) :
    HandsFaithfulFrame image stub stack errorCode cpu := by
  rw [HandsFaithfulFrame, declared]
  rcases run_deliver image stub stack (stub.declaredErrorCode errorCode) cpu with
    ⟨atCall, ran, saving⟩
  rcases saving.atCall with ⟨rip_eq, rdi_eq, _, _⟩
  rcases saving.read_declared with ⟨frame, rsp_eq⟩
  refine ⟨atCall, ran, rip_eq, ?_⟩
  apply faithfulFrame_of_declared
  · rw [rdi_eq, frame]
  · rw [rsp_eq]
    exact (aligned_iff stack (show 22 ≤ 23 by decide)).mpr rfl

/-- An error code the stub does not know of shifts the frame by a word and misaligns the stack. -/
theorem not_handsFaithfulFrame_of_ne (image : Image isrText) {stub : Stub} (stack : U64)
    {errorCode : U32} (cpu : Cpu)
    (undeclared : pushedErrorCode stub.vector errorCode ≠ stub.declaredErrorCode errorCode) :
    ¬HandsFaithfulFrame image stub stack errorCode cpu := by
  rcases run_deliver image stub stack (pushedErrorCode stub.vector errorCode) cpu with
    ⟨atCall, ran, saving⟩
  rcases saving.atCall with ⟨_, _, rsp_eq, _⟩
  rintro ⟨other, otherRan, _, faithful⟩
  rw [ran, Option.some_inj] at otherRan
  subst otherRan
  have aligned := faithful.aligned
  rw [rsp_eq, length_frameWords_of_ne cpu undeclared, aligned_iff _ (Nat.le_refl _)] at aligned
  contradiction

/-- The frame is faithful, for every state of the processor, exactly when the vector is none of the
exceptions 17, 21, 29 and 30, whose stubs are written with `ISR_NOERRCODE` although the processor
pushes an error code for them. -/
theorem handsFaithfulFrame_iff (image : Image isrText) (stub : Stub) (stack : U64)
    (errorCode : U32) (cpu : Cpu) :
    HandsFaithfulFrame image stub stack errorCode cpu ↔
      stub.vector ∉ ([17, 21, 29, 30] : List U8) := by
  rw [← pushedErrorCode_eq_iff stub errorCode]
  constructor
  · intro faithful
    by_contra undeclared
    exact not_handsFaithfulFrame_of_ne image stack cpu undeclared faithful
  · exact handsFaithfulFrame_of_declared image stack cpu

/-- The alignment check exception is one of those that fail. -/
theorem not_handsFaithfulFrame :
    ¬∀ (image : Image isrText) (stub : Stub) (stack : U64) (errorCode : U32) (cpu : Cpu),
      HandsFaithfulFrame image stub stack errorCode cpu := by
  intro claim
  have faithful := claim pageImage ⟨17, .noErrCode, by decide⟩ 0 0 default
  revert faithful
  apply not_handsFaithfulFrame_of_ne
  decide

end Benamos.Interrupts
