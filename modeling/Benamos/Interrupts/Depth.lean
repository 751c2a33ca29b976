import Benamos.Interrupts.Processor

/-!
# The stack that nested interrupts take

An interrupt is delivered below everything the interrupted stub or handler still needs: the five
words of the processor, or the whole frame and the return address once the handler has been called.
So the frames of the handlers that are running never overlap, and how deep interrupts can nest is
bounded by the size of the stack.

Conversely a stack can be made large enough. If no handler goes down by more than a given number of
bytes, the program leaves as many bytes free as so many interrupts may take, and no more of them are
active at a time, then each of them finds room for its frame.
-/

namespace Benamos.Interrupts

open X86 X86.Cpu

/-- The bytes below its base that an active interrupt keeps to itself. -/
def Activation.held (activation : Activation) : ℕ :=
  match activation.stage with
  | .saving => 40
  | .handling _ => 184
  | .restoring _ _ => 40

structure StackUse (area : StackArea) (active : List Activation) : Prop where
  /-- Each interrupt lies below what the older ones hold. -/
  apart : active.Pairwise fun inner outer =>
    inner.base.toNat + outer.held ≤ outer.base.toNat
  /-- The frame of a running handler overlaps with no newer frame. -/
  frames : active.Pairwise fun inner outer =>
    (∃ entry, outer.stage = .handling entry) → inner.frame.toNat + 184 ≤ outer.frame.toNat
  /-- All of it fits on the stack. -/
  fits : active ≠ [] → area.bottom + 184 + (active.tail.map Activation.held).sum ≤ area.top
  depth : active ≠ [] → area.bottom + 144 + 40 * active.length ≤ area.top

section

variable {image : Image isrText} {area : StackArea} {stub : Stub} {registers : Register → U64}
  {base : U64} {words : List U64} {left : ℕ} {outermost : Bool} {activation : Activation}
  {cpu : Cpu} {active : List Activation}

/-- A stub never takes back what the processor has pushed. -/
theorem Saving.toNat_rsp_le (saving : Saving image stub registers base words left cpu)
    (noWrap : 8 * (frameWords stub registers words).length ≤ base.toNat) :
    (cpu.registers .rsp).toNat + 8 * words.length ≤ base.toNat := by
  have length_eq : (frameWords stub registers words).length =
      poppedRegisters.length + (stub.immediates.length + words.length) := by
    simp [frameWords]
  have pushed_le (pushed : List U64) (rsp_eq : cpu.registers .rsp =
      base - BitVec.ofNat 64 (8 * pushed.length)) (more : words.length ≤ pushed.length)
      (less : pushed.length ≤ (frameWords stub registers words).length) :
      (cpu.registers .rsp).toNat + 8 * words.length ≤ base.toNat := by
    rw [rsp_eq, toNat_sub_ofNat (by omega)]
    omega
  cases saving with
  | stub count inside rip_eq pushed =>
      apply pushed_le _ pushed.rsp_eq
      · simp
      · simp only [List.length_append, List.length_reverse, List.length_take]
        omega
  | common count inside rip_eq pushed =>
      apply pushed_le _ pushed.rsp_eq
      · simp only [List.length_append]
        omega
      · simp only [List.length_append, List.length_reverse, List.length_map, List.length_take]
        omega
  | handing count outside rip_eq rdi_eq rsp_eq holds =>
      exact pushed_le _ rsp_eq (by omega) (Nat.le_refl _)

theorem Activation.length_pushed (activation : Activation) : 5 ≤ activation.pushed.length := by
  rw [Activation.pushed, List.length_reverse]
  cases activation.stub.declaredErrorCode activation.errorCode with
  | none => simp [interruptWords]
  | some code => simp [interruptWords]

/-- Whatever is delivered now goes below what the interrupt holds. -/
theorem Valid.rsp_add_held_le (valid : Valid image area outermost activation cpu) :
    (cpu.registers .rsp).toNat + activation.held ≤ activation.base.toNat := by
  have frame_eq := valid.toNat_frame
  rcases valid with ⟨room, onStack, undisturbed, progress⟩
  rw [Activation.held]
  cases stage : activation.stage with
  | saving =>
      simp only [Progress, stage] at progress
      rcases progress with ⟨left, saving⟩
      have pushed := activation.length_pushed
      have below := saving.toNat_rsp_le (by rw [length_frameWords_pushed]; omega)
      dsimp only
      omega
  | handling entry =>
      simp only [Progress, stage] at progress
      dsimp only
      omega
  | restoring entry returned =>
      simp only [Progress, stage] at progress
      rcases progress with ⟨_, _, left, restoring⟩
      have inside := activation.base.isLt
      have bounds := restoring.toNat_rsp (by omega)
      dsimp only
      omega

/-- A new interrupt starts below the stack pointer, so what holds of that holds of its base. -/
theorem Invariant.rsp_add_held_le (invariant : Invariant image area cpu active)
    (mem : activation ∈ active) :
    (cpu.registers .rsp).toNat + activation.held ≤ activation.base.toNat := by
  induction active generalizing cpu with
  | nil => simp at mem
  | cons head active ih =>
      rcases invariant with ⟨valid, outer⟩
      rcases List.mem_cons.mp mem with rfl | mem
      · exact valid.rsp_add_held_le
      · exact Nat.le_trans (Nat.add_le_add_right valid.rsp_le _) (ih outer mem)

theorem Invariant.apart (invariant : Invariant image area cpu active) :
    active.Pairwise fun inner outer => inner.base.toNat + outer.held ≤ outer.base.toNat := by
  induction active generalizing cpu with
  | nil => exact List.Pairwise.nil
  | cons head active ih =>
      rcases invariant with ⟨valid, outer⟩
      apply List.Pairwise.cons
      · intro older mem
        exact Nat.le_trans (Nat.add_le_add_right (base_le head) _)
          (outer.rsp_add_held_le mem)
      · exact ih outer

theorem Invariant.room (invariant : Invariant image area cpu active) :
    ∀ activation ∈ active, activation.frame.toNat = activation.base.toNat - 176 ∧
      area.bottom + 184 ≤ activation.base.toNat ∧ activation.base.toNat ≤ area.top := by
  induction active generalizing cpu with
  | nil => simp
  | cons head active ih =>
      rcases invariant with ⟨valid, outer⟩
      intro activation mem
      rcases List.mem_cons.mp mem with rfl | mem
      · exact ⟨valid.toNat_frame, valid.room, Nat.le_trans (base_le activation) valid.onStack⟩
      · exact ih outer activation mem

/-- The sizes of intervals that lie one below the other add up. -/
theorem sum_held_le (head : Activation) {active : List Activation}
    (apart : (head :: active).Pairwise fun inner outer =>
      inner.base.toNat + outer.held ≤ outer.base.toNat)
    (top : ∀ activation ∈ head :: active, activation.base.toNat ≤ area.top) :
    head.base.toNat + (active.map Activation.held).sum ≤ area.top := by
  induction active generalizing head with
  | nil => simpa using top
  | cons next active ih =>
      rcases List.pairwise_cons.mp apart with ⟨below, apart⟩
      have rest := ih next apart fun activation mem => top activation (List.mem_cons_of_mem _ mem)
      have first := below next List.mem_cons_self
      simp only [List.map_cons, List.sum_cons]
      omega

theorem length_le_sum_held (active : List Activation) :
    40 * active.length ≤ (active.map Activation.held).sum := by
  induction active with
  | nil => exact Nat.le_refl _
  | cons head active ih =>
      have held : 40 ≤ head.held := by
        rw [Activation.held]
        split <;> decide
      simp only [List.length_cons, List.map_cons, List.sum_cons]
      omega

/-- In every configuration of every run the active interrupts share the stack. -/
theorem Reachable.stackUse {config : Config} (reachable : Reachable image area config) :
    StackUse area config.active := by
  have invariant := reachable.invariant
  have apart := invariant.apart
  have room := invariant.room
  refine ⟨apart, ?_, ?_, ?_⟩
  · apply apart.imp_of_mem
    rintro inner outer innerMem outerMem below ⟨entry, stage⟩
    have held : outer.held = 184 := by rw [Activation.held, stage]
    have innerRoom := room inner innerMem
    have outerRoom := room outer outerMem
    omega
  · intro nonempty
    rcases List.exists_cons_of_ne_nil nonempty with ⟨head, active, active_eq⟩
    rw [active_eq] at apart room ⊢
    have sum := sum_held_le head apart fun activation mem => (room activation mem).2.2
    have newest := room head List.mem_cons_self
    rw [List.tail_cons]
    omega
  · intro nonempty
    rcases List.exists_cons_of_ne_nil nonempty with ⟨head, active, active_eq⟩
    rw [active_eq] at apart room ⊢
    have sum := sum_held_le head apart fun activation mem => (room activation mem).2.2
    have length_le := length_le_sum_held active
    have newest := room head List.mem_cons_self
    rw [List.length_cons]
    omega

/-! ### A stack that is large enough -/

/-- How many bytes a handler takes below the state it is entered in, and how many interrupts are
active at most. -/
structure Budget where
  use : ℕ
  depth : ℕ

namespace Budget

/-- The bytes of one interrupt: 15 to align the stack, the frame, the return address and what the
handler takes. -/
def level (budget : Budget) : ℕ := 199 + budget.use

/-- The program leaves room for all interrupts, and a handler takes no more than its share. -/
structure Keeps (budget : Budget) (area : StackArea) (config : Config) : Prop where
  program : config.active = [] →
    area.bottom + budget.depth * budget.level ≤ (config.cpu.registers .rsp).toNat ∧
      (config.cpu.registers .rsp).toNat ≤ area.top
  handler : ∀ {activation active entry}, config.active = activation :: active →
    activation.stage = .handling entry →
    (entry.registers .rsp).toNat ≤ (config.cpu.registers .rsp).toNat + budget.use

/-- No step depends on the room that is left. -/
inductive Step (budget : Budget) (image : Image isrText) (area : StackArea) :
    Config → Config → Prop
  | deliver {cpu : Cpu} {active : List Activation} (stub : Stub) (errorCode : U32)
      (expected : stub.vector ∉ ([17, 21, 29, 30] : List U8))
      (few : active.length < budget.depth) :
      Step budget image area ⟨cpu, active⟩
        ⟨cpu.deliver (stub.gate image) (cpu.registers .rsp)
            (pushedErrorCode stub.vector errorCode),
          ⟨stub, cpu, errorCode, .saving⟩ :: active⟩
  | other {config after : Config} (step : Interrupts.Step image area config after)
      (noDelivery : after.active.length ≤ config.active.length)
      (keeps : budget.Keeps area after) : Step budget image area config after

def Reachable (budget : Budget) (image : Image isrText) (area : StackArea) (config : Config) :
    Prop :=
  ∃ start, budget.Keeps area ⟨start, []⟩ ∧
    Relation.ReflTransGen (budget.Step image area) ⟨start, []⟩ config

/-- The processor, and the states that were interrupted, all keep to the budget. -/
def Kept (budget : Budget) (area : StackArea) : Cpu → List Activation → Prop
  | cpu, [] => budget.Keeps area ⟨cpu, []⟩
  | cpu, activation :: active =>
      budget.Keeps area ⟨cpu, activation :: active⟩ ∧
        budget.Kept area activation.interrupted active

structure Within (budget : Budget) (image : Image isrText) (area : StackArea) (config : Config) :
    Prop where
  nested : Interrupts.Reachable image area config
  kept : budget.Kept area config.cpu config.active
  few : config.active.length ≤ budget.depth

structure HasRoom (area : StackArea) (cpu : Cpu) : Prop where
  room : area.bottom + 184 ≤ (alignDown (cpu.registers .rsp)).toNat
  onStack : (cpu.registers .rsp).toNat ≤ area.top

section

variable {budget : Budget} {config after : Config}

theorem keeps_of_notHandling (notHandling : ∀ entry, activation.stage ≠ .handling entry) :
    budget.Keeps area ⟨cpu, activation :: active⟩ where
  program none := by cases none
  handler same stage := by
    cases same
    exact absurd stage (notHandling _)

/-- An interrupt takes no more than a level. -/
theorem interrupted_le (valid : Valid image area outermost activation cpu)
    (keeps : budget.Keeps area ⟨cpu, activation :: active⟩) :
    (activation.interrupted.registers .rsp).toNat ≤
      (cpu.registers .rsp).toNat + budget.level := by
  have base_eq : activation.base.toNat = (activation.interrupted.registers .rsp).toNat -
      (activation.interrupted.registers .rsp).toNat % 16 := toNat_alignDown _
  have rest := Nat.mod_lt (activation.interrupted.registers .rsp).toNat (show 16 > 0 by decide)
  have bounds := valid.rsp_bounds.2
  rw [level]
  cases stage : activation.stage with
  | saving =>
      have above := bounds (by simp [stage])
      omega
  | handling entry =>
      have room := valid.room
      have frame_eq := valid.toNat_frame
      have use := keeps.handler rfl stage
      have progress := valid.progress
      simp only [Progress, stage] at progress
      rw [progress.1.rsp_eq, toNat_sub_ofNat (by omega)] at use
      dsimp only at use
      omega
  | restoring entry returned =>
      have above := bounds (by simp [stage])
      omega

/-- Below what is interrupted there is a level for each interrupt that may still come. -/
theorem Kept.bottom_add_le (kept : budget.Kept area cpu active)
    (invariant : Invariant image area cpu active) (few : active.length ≤ budget.depth) :
    area.bottom + (budget.depth - active.length) * budget.level ≤
      (cpu.registers .rsp).toNat := by
  induction active generalizing cpu with
  | nil => exact (kept.program rfl).1
  | cons activation active ih =>
      rcases kept with ⟨keeps, outer⟩
      rw [List.length_cons] at few ⊢
      have below := ih outer invariant.2 (by omega)
      have taken := interrupted_le invariant.1 keeps
      have levels : budget.depth - active.length = budget.depth - (active.length + 1) + 1 := by
        omega
      rw [levels, Nat.succ_mul] at below
      omega

theorem Kept.onStack (kept : budget.Kept area cpu active)
    (invariant : Invariant image area cpu active) : (cpu.registers .rsp).toNat ≤ area.top := by
  cases active with
  | nil => exact (kept.program rfl).2
  | cons activation active =>
      exact Nat.le_trans invariant.1.rsp_le invariant.1.onStack

theorem Within.hasRoom (within : budget.Within image area config)
    (few : config.active.length < budget.depth) : HasRoom area config.cpu := by
  have invariant := within.nested.invariant
  have below := within.kept.bottom_add_le invariant within.few
  have levels : budget.depth - config.active.length =
      budget.depth - (config.active.length + 1) + 1 := by
    omega
  rw [levels, Nat.succ_mul, level] at below
  refine ⟨?_, within.kept.onStack invariant⟩
  rw [toNat_alignDown]
  omega

theorem Step.nested (step : budget.Step image area config after)
    (within : budget.Within image area config) : Interrupts.Step image area config after := by
  cases step with
  | deliver stub errorCode expected few =>
      rcases within.hasRoom few with ⟨room, onStack⟩
      rw [(pushedErrorCode_eq_iff stub errorCode).mpr expected]
      exact .deliver stub errorCode room onStack
  | other step => exact step

theorem Kept.other (kept : budget.Kept area config.cpu config.active)
    (step : Interrupts.Step image area config after)
    (noDelivery : after.active.length ≤ config.active.length)
    (keeps : budget.Keeps area after) : budget.Kept area after.cpu after.active := by
  cases step with
  | program => exact keeps
  | deliver => exact absurd noDelivery (Nat.not_succ_le_self _)
  | save => exact ⟨keeps, kept.2⟩
  | call => exact ⟨keeps, kept.2⟩
  | handle => exact ⟨keeps, kept.2⟩
  | ret => exact ⟨keeps, kept.2⟩
  | restore => exact ⟨keeps, kept.2⟩
  | @iretq cpu next entry returned activation active =>
      cases active with
      | nil => exact keeps
      | cons resumed active => exact ⟨keeps, kept.2.2⟩

theorem Within.step (within : budget.Within image area config)
    (step : budget.Step image area config after) : budget.Within image area after := by
  refine ⟨within.nested.step (step.nested within), ?_, ?_⟩
  · cases step with
    | deliver stub errorCode expected few =>
        exact ⟨keeps_of_notHandling (by simp), within.kept⟩
    | other step noDelivery keeps => exact within.kept.other step noDelivery keeps
  · cases step with
    | deliver stub errorCode expected few => exact few
    | other step noDelivery keeps => exact Nat.le_trans noDelivery within.few

theorem Reachable.within (reachable : budget.Reachable image area config) :
    budget.Within image area config := by
  rcases reachable with ⟨start, keeps, steps⟩
  induction steps with
  | refl => exact ⟨⟨start, .refl⟩, keeps, Nat.zero_le _⟩
  | tail _ step ih => exact ih.step step

end

end Budget

/-- Within its budget a kernel never runs out of stack: the next interrupt finds room for its frame,
and the active ones share the stack. -/
theorem nested_share_stack {budget : Budget} {config : Config}
    (reachable : budget.Reachable image area config) :
    StackUse area config.active ∧ config.active.length ≤ budget.depth ∧
      (config.active.length < budget.depth → Budget.HasRoom area config.cpu) :=
  ⟨reachable.within.nested.stackUse, reachable.within.few, reachable.within.hasRoom⟩

end

/-- Two interrupts whose handlers take a page each fit on the stack of the example. -/
def exampleBudget : Budget := ⟨0x1000, 2⟩

theorem runsStubs_budgetStep (budget : Budget) (image : Image isrText) (area : StackArea) :
    RunsStubs image (budget.Step image area) where
  save stage notCall stepped := .other (.save stage notCall stepped) (Nat.le_refl _)
    (Budget.keeps_of_notHandling (by simp [stage]))
  call stage atCall stepped := .other (.call stage atCall stepped) (Nat.le_refl _) {
    program none := by cases none
    handler same stage := by
      cases same
      cases stage
      exact Nat.le_add_right _ _ }
  restore stage notIretq stepped := .other (.restore stage notIretq stepped) (Nat.le_refl _)
    (Budget.keeps_of_notHandling (by simp [stage]))

theorem nested_share_stack_pageFault :
    ∃ config : Config, exampleBudget.Reachable pageImage exampleArea config ∧
      config.active.length = 2 ∧ StackUse exampleArea config.active := by
  have rsp_eq : exampleStart.registers .rsp = 0x8000 := registers_setRegister_self ..
  have start : exampleBudget.Keeps exampleArea ⟨exampleStart, []⟩ := by
    refine ⟨fun _ => ?_, by simp⟩
    rw [rsp_eq]
    decide
  rcases exists_nestedHandlers (runsStubs_budgetStep exampleBudget pageImage exampleArea)
    (fun steps => (Budget.Reachable.within ⟨_, start, steps⟩).nested)
    (fun stub errorCode few expected _ _ => by
      rw [← (pushedErrorCode_eq_iff stub errorCode).mpr expected]
      exact .deliver stub errorCode expected few) with ⟨breakpoint, pageFault, steps⟩
  have reachable : exampleBudget.Reachable pageImage exampleArea _ := ⟨_, start, steps⟩
  exact ⟨_, reachable, rfl, (nested_share_stack reachable).1⟩

end Benamos.Interrupts
