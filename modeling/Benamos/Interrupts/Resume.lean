import Benamos.Interrupts.Frame

/-!
# From the handler's return to the resumed code

`Restoring` is the counterpart of `Saving` for the lines after the call: `popaq` takes the registers
from the frame one by one, `add rsp, 16` drops the vector and the error code, and `iretq` takes the
rest. The frame is whatever the handler left there.
-/

namespace Benamos.Interrupts

open X86 X86.Cpu

/-- The processor is `left` instructions before `iretq`, taking its state from `frame`, which lies
at `address`. -/
inductive Restoring (image : Image isrText) (frame : Registers) (address : U64) : ℕ → Cpu → Prop
  | popping {left line : ℕ} {cpu : Cpu} (count : left + line = poppedRegisters.length + 1)
      (inside : line ≤ poppedRegisters.length)
      (rip_eq : cpu.rip = image.address .isrCommonStub (callLine + 1 + line))
      (rsp_eq : cpu.registers .rsp = address + BitVec.ofNat 64 (8 * line))
      (holds : StackHolds cpu.memory (cpu.registers .rsp) (frame.words.drop line))
      (popped : ∀ register ∈ poppedRegisters.take line,
        cpu.registers register = frame.general register) :
      Restoring image frame address left cpu
  | resuming {cpu : Cpu} (rip_eq : cpu.rip = image.address .isrCommonStub iretqLine)
      (rsp_eq : cpu.registers .rsp = address + 136#64)
      (holds : StackHolds cpu.memory (cpu.registers .rsp) (frame.words.drop 17))
      (popped : ∀ register, register ≠ .rsp → cpu.registers register = frame.general register) :
      Restoring image frame address 0 cpu

/-- The state `frame` asks for. -/
structure Resumes (frame : Registers) (cpu : Cpu) : Prop where
  general : ∀ register, cpu.registers register = frame.general register
  rip : cpu.rip = frame.rip
  cs : cpu.segments .cs = frame.cs.setWidth 16
  rflags : cpu.rflags = frame.rflags
  ss : cpu.segments .ss = frame.ss.setWidth 16

/-- What a context switch has to keep of a processor: everything the frame holds. -/
structure SameContext (cpu other : Cpu) : Prop where
  registers : other.registers = cpu.registers
  rip : other.rip = cpu.rip
  cs : other.segments .cs = cpu.segments .cs
  rflags : other.rflags = cpu.rflags
  ss : other.segments .ss = cpu.segments .ss

theorem sameContext_of_resumes {stub : Stub} {errorCode : U32} {cpu next : Cpu}
    (resumes : Resumes (stub.savedFrame errorCode cpu) next) : SameContext cpu next where
  registers := by
    funext register
    rw [resumes.general, Stub.savedFrame, Registers.general_saved]
  rip := resumes.rip
  cs := by simpa [Stub.savedFrame, Registers.saved] using resumes.cs
  rflags := resumes.rflags
  ss := by simpa [Stub.savedFrame, Registers.saved] using resumes.ss

theorem words_of_popped (frame : Registers) {line : ℕ} {register : Register}
    (here : poppedRegisters[line]? = some register) :
    frame.words[line]? = some (frame.general register) := by
  have prefix_eq : frame.words = poppedRegisters.map frame.general ++
      [frame.intNo, frame.error, frame.rip, frame.cs, frame.rflags, frame.rsp, frame.ss] := rfl
  have mapped : (poppedRegisters.map frame.general)[line]? = some (frame.general register) := by
    rw [List.getElem?_map, here]
    rfl
  have inside : line < (poppedRegisters.map frame.general).length := by
    rcases List.getElem?_eq_some_iff.mp mapped with ⟨inside, _⟩
    exact inside
  rw [prefix_eq, List.getElem?_append_left inside, mapped]

section

variable {image : Image isrText} {frame : Registers} {address : U64} {left : ℕ} {cpu : Cpu}

theorem Restoring.step (restoring : Restoring image frame address (left + 1) cpu) :
    ∃ next, image.step cpu = some next ∧ Restoring image frame address left next := by
  cases restoring with
  | popping count inside rip_eq rsp_eq holds popped =>
      rename_i line
      rcases Nat.lt_or_eq_of_le inside with before | atAdd
      · have exists_register : ∃ register, poppedRegisters[line]? = some register :=
          ⟨_, List.getElem?_eq_getElem before⟩
        rcases exists_register with ⟨register, here⟩
        have isOther : register ≠ .rsp := by
          rintro rfl
          exact rsp_notMem_poppedRegisters (List.mem_of_getElem? here)
        rcases List.getElem?_eq_some_iff.mp (words_of_popped frame here) with ⟨inWords, word_eq⟩
        rw [List.drop_eq_getElem_cons inWords, word_eq] at holds
        rcases holds with ⟨top, below⟩
        have nextCount : left + (line + 1) = poppedRegisters.length + 1 := by omega
        refine ⟨_, Image.step_of_rip rip_eq (isrCommonStub_pop here),
          Restoring.popping nextCount before rfl ?_ ?_ ?_⟩
        · simp [Image.execute, registers_pop_rsp _ isOther, rsp_eq, Nat.mul_succ, BitVec.ofNat_add,
            BitVec.add_assoc]
        · simpa [Image.execute, registers_pop_rsp _ isOther] using below
        · intro other mem
          by_cases same : other = register
          · subst same
            simpa [Image.execute, Cpu.top] using top
          · have memBefore : other ∈ poppedRegisters.take line := by
              simpa [List.take_add_one, here, same] using mem
            have notRsp : other ≠ .rsp := by
              rintro rfl
              exact rsp_notMem_poppedRegisters (List.mem_of_mem_take memBefore)
            simpa [Image.execute, registers_pop_of_ne _ same notRsp] using popped other memBefore
      · subst atAdd
        have last : left = 0 := by omega
        subst last
        refine ⟨_, Image.step_of_rip rip_eq rfl, Restoring.resuming rfl ?_ ?_ ?_⟩
        · simp [Image.execute, rsp_eq, BitVec.add_assoc]
        · have split : frame.words.drop poppedRegisters.length =
              [frame.intNo, frame.error] ++ frame.words.drop 17 := rfl
          rw [split] at holds
          simpa [Image.execute] using holds.append_right
        · intro register isOther
          rw [List.take_length] at popped
          rw [← popped register (mem_poppedRegisters isOther)]
          exact registers_setRegister_of_ne _ _ isOther

/-- With nothing in between, the stub comes to `iretq`. -/
theorem Restoring.run (restoring : Restoring image frame address left cpu) :
    ∃ atIretq, image.run left cpu = some atIretq ∧ Restoring image frame address 0 atIretq := by
  induction left generalizing cpu with
  | zero => exact ⟨cpu, rfl, restoring⟩
  | succ left ih =>
      rcases restoring.step with ⟨next, stepped, restoring⟩
      rcases ih restoring with ⟨atIretq, ran, restoring⟩
      exact ⟨atIretq, by simp [Image.run, stepped, ran], restoring⟩

theorem Restoring.toNat_rsp (restoring : Restoring image frame address left cpu)
    (noWrap : address.toNat + 176 ≤ 2 ^ 64) :
    address.toNat ≤ (cpu.registers .rsp).toNat ∧
      (cpu.registers .rsp).toNat ≤ address.toNat + 136 := by
  cases restoring with
  | popping count inside rip_eq rsp_eq =>
      simp only [length_poppedRegisters] at inside
      rw [rsp_eq, toNat_add_ofNat (by omega)]
      omega
  | resuming rip_eq rsp_eq =>
      rw [rsp_eq, toNat_add_ofNat (by omega)]
      omega

/-- Code that restores the registers and leaves what lies on the stack alone goes unnoticed. -/
theorem Restoring.agree {other : Cpu} {high : ℕ}
    (restoring : Restoring image frame address left cpu)
    (sameRegisters : other.registers = cpu.registers) (sameRip : other.rip = cpu.rip)
    (agree : AgreeOn (cpu.registers .rsp).toNat high cpu.memory other.memory)
    (below : address.toNat + 176 ≤ high) (top : high ≤ 2 ^ 64) :
    Restoring image frame address left other := by
  cases restoring with
  | popping count inside rip_eq rsp_eq holds popped =>
      refine Restoring.popping count inside (by rw [sameRip, rip_eq])
        (by rw [sameRegisters, rsp_eq]) ?_ (by rwa [sameRegisters])
      rw [sameRegisters]
      apply holds.congr agree (Nat.le_refl _) _ top
      simp only [length_poppedRegisters] at inside
      rw [rsp_eq, toNat_add_ofNat (by omega), List.length_drop, Registers.length_words]
      omega
  | resuming rip_eq rsp_eq holds popped =>
      refine Restoring.resuming (by rw [sameRip, rip_eq]) (by rw [sameRegisters, rsp_eq]) ?_
        (by rwa [sameRegisters])
      rw [sameRegisters]
      apply holds.congr agree (Nat.le_refl _) _ top
      rw [rsp_eq, toNat_add_ofNat (by omega), List.length_drop, Registers.length_words]
      omega

theorem Restoring.eq_zero (restoring : Restoring image frame address left cpu)
    (atIretq : cpu.rip = image.address .isrCommonStub iretqLine) : left = 0 := by
  cases restoring with
  | popping count inside rip_eq rsp_eq holds popped =>
      rename_i line
      rw [rip_eq] at atIretq
      have before : callLine + 1 + line < iretqLine := by
        simp only [callLine, iretqLine, length_poppedRegisters] at inside ⊢
        omega
      have iretqInside : iretqLine < (isrText .isrCommonStub).length := by decide
      have same := Image.eq_of_address_eq atIretq (Nat.lt_trans before iretqInside) iretqInside
      omega
  | resuming => rfl

theorem Restoring.iretq (restoring : Restoring image frame address 0 cpu) :
    cpu.rip = image.address .isrCommonStub iretqLine ∧ image.step cpu = some cpu.iretq ∧
      Resumes frame cpu.iretq := by
  cases restoring with
  | popping count inside => omega
  | resuming rip_eq rsp_eq holds popped =>
      refine ⟨rip_eq, Image.step_of_rip rip_eq rfl, ?_⟩
      simp only [Registers.words, List.drop_succ_cons, List.drop_zero, StackHolds, BitVec.add_assoc,
        BitVec.reduceAdd] at holds
      rcases holds with ⟨rip, cs, rflags, rsp, ss, _⟩
      refine ⟨?_, rip, ?_, rflags, ?_⟩
      · intro register
        by_cases isRsp : register = .rsp
        · subst isRsp
          simpa [Cpu.iretq, Registers.general] using rsp
        · rw [← popped register isRsp]
          exact registers_setRegister_of_ne _ _ isRsp
      · simp [Cpu.iretq, cs]
      · simp [Cpu.iretq, ss]

end

end Benamos.Interrupts
