import Benamos.Interrupts.Transparency

/-!
# Interrupts by the rule of the processor

Which vectors come with an error code is for the processor to say. It pushes what the stub is
written for, except for the four vectors whose stubs are written with the wrong macro. Away from
those its runs are runs of nested interrupts.
-/

namespace Benamos.Interrupts

open X86 X86.Cpu

/-- A step in which the processor pushes an error code for the vectors that have one. -/
inductive ProcessorStep (image : Image isrText) (area : StackArea) : Config → Config → Prop
  | deliver {cpu : Cpu} {active : List Activation} (stub : Stub) (errorCode : U32)
      (expected : stub.vector ∉ ([17, 21, 29, 30] : List U8))
      (room : area.bottom + 184 ≤ (alignDown (cpu.registers .rsp)).toNat)
      (onStack : (cpu.registers .rsp).toNat ≤ area.top) :
      ProcessorStep image area ⟨cpu, active⟩
        ⟨cpu.deliver (stub.gate image) (cpu.registers .rsp)
            (pushedErrorCode stub.vector errorCode),
          ⟨stub, cpu, errorCode, .saving⟩ :: active⟩
  | other {config after : Config} (step : Step image area config after)
      (noDelivery : after.active.length ≤ config.active.length) :
      ProcessorStep image area config after

def ProcessorReachable (image : Image isrText) (area : StackArea) (config : Config) : Prop :=
  ∃ start, Relation.ReflTransGen (ProcessorStep image area) ⟨start, []⟩ config

section

variable {image : Image isrText} {area : StackArea} {config after : Config}

theorem ProcessorStep.nested (step : ProcessorStep image area config after) :
    Step image area config after := by
  cases step with
  | deliver stub errorCode expected room onStack =>
      rw [(pushedErrorCode_eq_iff stub errorCode).mpr expected]
      exact .deliver stub errorCode room onStack
  | other step => exact step

/-- For these vectors the processor pushes what the stub declares. -/
theorem ProcessorStep.delivered {cpu : Cpu} {active : List Activation} (stub : Stub)
    (errorCode : U32) (expected : stub.vector ∉ ([17, 21, 29, 30] : List U8))
    (room : area.bottom + 184 ≤ (alignDown (cpu.registers .rsp)).toNat)
    (onStack : (cpu.registers .rsp).toNat ≤ area.top) :
    ProcessorStep image area ⟨cpu, active⟩
      ⟨cpu.deliver (stub.gate image) (cpu.registers .rsp) (stub.declaredErrorCode errorCode),
        ⟨stub, cpu, errorCode, .saving⟩ :: active⟩ := by
  rw [← (pushedErrorCode_eq_iff stub errorCode).mpr expected]
  exact .deliver stub errorCode expected room onStack

theorem ProcessorReachable.nested (reachable : ProcessorReachable image area config) :
    Reachable image area config := by
  rcases reachable with ⟨start, steps⟩
  exact ⟨start, steps.lift id fun _ _ => ProcessorStep.nested⟩

theorem runsStubs_processorStep (image : Image isrText) (area : StackArea) :
    RunsStubs image (ProcessorStep image area) where
  save stage notCall stepped := .other (.save stage notCall stepped) (Nat.le_refl _)
  call stage atCall stepped := .other (.call stage atCall stepped) (Nat.le_refl _)
  restore stage notIretq stepped := .other (.restore stage notIretq stepped) (Nat.le_refl _)

end

end Benamos.Interrupts
