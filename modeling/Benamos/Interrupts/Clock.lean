import Benamos.Console.Serial
import Benamos.Interrupts.Handler
import Benamos.Sampling

/-!
# The time of a panic

`isr_handler` prints the hours, minutes and seconds it gets from three functions of `utilities.c`,
each of which selects a register of the real-time clock and reads it. C leaves the order of the
three calls open, and the clock may be updated between any two accesses.
-/

namespace Benamos.Interrupts

open X86 Console Sampling

/-- A call of `outb`, or the call of `inb` whose value is returned. -/
inductive Access where
  | outb (port : U16) (value : U8)
  | inb (port : U16)
deriving DecidableEq, Repr

def rtcGetSeconds : List Access := [.outb 0x70 0x00, .inb 0x71]

def rtcGetMinutes : List Access := [.outb 0x70 0x02, .inb 0x71]

def rtcGetHours : List Access := [.outb 0x70 0x04, .inb 0x71]

inductive Field where
  | hours | minutes | seconds
deriving DecidableEq, Repr

namespace Field

/-- The argument of the `printf` that prints the field. -/
def call : Field → List Access
  | hours => rtcGetHours
  | minutes => rtcGetMinutes
  | seconds => rtcGetSeconds

def register : Field → BitVec 7
  | hours => 0x04
  | minutes => 0x02
  | seconds => 0x00

end Field

/-- What the clock shows after each number of updates. -/
def shown (history : ℕ → BitVec 7 → U8) (instant : ℕ) (field : Field) : U8 :=
  history instant field.register

/-- The evaluation of the arguments: the accesses that remain, the values so far and the instants at
which they were read. -/
structure Panic where
  machine : Machine Rtc
  todo : List (Field × Access)
  arguments : Field → U8
  readAt : Field → ℕ

namespace Panic

def pending (order : List Field) : List (Field × Access) :=
  order.flatMap fun field => field.call.map fun access => (field, access)

def start (order : List Field) (machine : Machine Rtc) : Panic where
  machine
  todo := pending order
  arguments _ := 0
  readAt _ := 0

def select (panic : Panic) (port : U16) (value : U8) (todo : List (Field × Access)) : Panic :=
  { panic with machine := outb Rtc.write port value panic.machine, todo }

def receive (panic : Panic) (field : Field) (answer : U8 × Machine Rtc)
    (todo : List (Field × Access)) : Panic where
  machine := answer.2
  todo
  arguments := Function.update panic.arguments field answer.1
  readAt := Function.update panic.readAt field panic.machine.device.instant

def perform (history : ℕ → BitVec 7 → U8) (panic : Panic) : Panic :=
  match panic.todo with
  | [] => panic
  | (_, .outb port value) :: todo => panic.select port value todo
  | (field, .inb port) :: todo =>
      panic.receive field (inb (Rtc.read history) port panic.machine) todo

def update (panic : Panic) : Panic :=
  { panic with machine := { panic.machine with device := panic.machine.device.update } }

/-- What happens next: the clock is updated, or the processor makes an access. -/
inductive Action where
  | update | access
deriving DecidableEq, Repr

def act (history : ℕ → BitVec 7 → U8) (panic : Panic) : Action → Panic
  | .update => panic.update
  | .access => panic.perform history

def run (history : ℕ → BitVec 7 → U8) (schedule : List Action) (panic : Panic) : Panic :=
  schedule.foldl (act history) panic

/-- What `isr_handler` finds, with the values that were read. -/
def environment (panic : Panic) (rest : Environment) : Environment :=
  { rest with
    hours := panic.arguments .hours
    minutes := panic.arguments .minutes
    seconds := panic.arguments .seconds }

end Panic

/-- The triple `isr_handler` prints. -/
def Environment.clock (environment : Environment) : Field → U8
  | .hours => environment.hours
  | .minutes => environment.minutes
  | .seconds => environment.seconds

namespace Panic

theorem clock_environment (panic : Panic) (rest : Environment) :
    (panic.environment rest).clock = panic.arguments := by
  funext field
  cases field <;> rfl

/-! ### Runs -/

section

variable {history : ℕ → BitVec 7 → U8} {began : ℕ} {panic : Panic}

theorem pending_cons (field : Field) (order : List Field) :
    pending (field :: order) =
      (field, .outb 0x70 (field.register.setWidth 8)) :: (field, .inb 0x71) :: pending order := by
  cases field <;> rfl

theorem perform_nil (todo_eq : panic.todo = []) : panic.perform history = panic := by
  simp only [perform, todo_eq]

theorem perform_outb {field : Field} {port : U16} {value : U8} {todo : List (Field × Access)}
    (todo_eq : panic.todo = (field, .outb port value) :: todo) :
    panic.perform history = panic.select port value todo := by
  simp only [perform, todo_eq]

theorem perform_inb {field : Field} {port : U16} {todo : List (Field × Access)}
    (todo_eq : panic.todo = (field, .inb port) :: todo) :
    panic.perform history =
      panic.receive field (inb (Rtc.read history) port panic.machine) todo := by
  simp only [perform, todo_eq]

theorem receive_self (panic : Panic) (field : Field) (answer : U8 × Machine Rtc)
    (todo : List (Field × Access)) :
    (panic.receive field answer todo).arguments field = answer.1 ∧
      (panic.receive field answer todo).readAt field = panic.machine.device.instant :=
  ⟨Function.update_self .., Function.update_self ..⟩

theorem receive_of_ne (panic : Panic) {field other : Field} (distinct : other ≠ field)
    (answer : U8 × Machine Rtc) (todo : List (Field × Access)) :
    (panic.receive field answer todo).arguments other = panic.arguments other ∧
      (panic.receive field answer todo).readAt other = panic.readAt other :=
  ⟨Function.update_of_ne distinct .., Function.update_of_ne distinct ..⟩

theorem device_select (panic : Panic) (field : Field) (todo : List (Field × Access)) :
    (panic.select 0x70 (field.register.setWidth 8) todo).machine.device =
      { panic.machine.device with index := field.register } := by
  rw [select, device_outb]
  cases field <;> rfl

theorem inb_data (history : ℕ → BitVec 7 → U8) (machine : Machine Rtc) :
    (inb (Rtc.read history) 0x71 machine).1 =
        history machine.device.instant machine.device.index ∧
      (inb (Rtc.read history) 0x71 machine).2.device = machine.device :=
  inb_spec (Rtc.read history) 0x71 machine

/-- The value was read since the start. -/
structure Fetched (history : ℕ → BitVec 7 → U8) (began : ℕ) (panic : Panic) (field : Field) :
    Prop where
  began_le : began ≤ panic.readAt field
  le_instant : panic.readAt field ≤ panic.machine.device.instant
  value_eq : panic.arguments field = shown history (panic.readAt field) field

/-- The calls are made one after the other, and a value that is no longer to be read was read. -/
structure Consistent (history : ℕ → BitVec 7 → U8) (began : ℕ) (panic : Panic) : Prop where
  began_le : began ≤ panic.machine.device.instant
  shape : (∃ order, panic.todo = pending order) ∨
    ∃ field order, panic.todo = (field, .inb 0x71) :: pending order ∧
      panic.machine.device.index = field.register
  fetched : ∀ field, (field, .inb 0x71) ∈ panic.todo ∨ panic.Fetched history began field

theorem mem_pending {field : Field} {order : List Field} (mem : field ∈ order) :
    (field, .inb 0x71) ∈ pending order := by
  rw [pending, List.mem_flatMap]
  refine ⟨field, mem, ?_⟩
  cases field <;> decide

theorem consistent_start {order : List Field} (mem : ∀ field, field ∈ order)
    (machine : Machine Rtc) :
    (start order machine).Consistent history machine.device.instant where
  began_le := Nat.le_refl _
  shape := Or.inl ⟨order, rfl⟩
  fetched field := Or.inl (mem_pending (mem field))

theorem Consistent.update (consistent : panic.Consistent history began) :
    panic.update.Consistent history began where
  began_le := Nat.le_succ_of_le consistent.began_le
  shape := consistent.shape
  fetched field := by
    rcases consistent.fetched field with remaining | ⟨began_le, le_instant, value_eq⟩
    · exact Or.inl remaining
    · exact Or.inr ⟨began_le, Nat.le_succ_of_le le_instant, value_eq⟩

theorem Fetched.select {other : Field} (fetched : panic.Fetched history began other) (field : Field)
    (todo : List (Field × Access)) :
    (panic.select 0x70 (field.register.setWidth 8) todo).Fetched history began other := by
  rcases fetched with ⟨began_le, le_instant, value_eq⟩
  refine ⟨began_le, ?_, value_eq⟩
  rw [device_select]
  exact le_instant

theorem Consistent.select {field : Field} {order : List Field}
    (consistent : panic.Consistent history began)
    (todo_eq : panic.todo = pending (field :: order)) :
    (panic.perform history).Consistent history began := by
  rw [pending_cons] at todo_eq
  rw [perform_outb todo_eq]
  constructor
  · rw [device_select]
    exact consistent.began_le
  · right
    refine ⟨field, order, rfl, ?_⟩
    rw [device_select]
  · intro other
    rcases consistent.fetched other with remaining | fetched
    · left
      rw [todo_eq] at remaining
      exact (List.mem_cons.mp remaining).resolve_left (by simp)
    · right
      apply fetched.select

/-- The field that is read now. -/
theorem fetched_receive {field : Field} (began_le : began ≤ panic.machine.device.instant)
    (selected : panic.machine.device.index = field.register) (todo : List (Field × Access)) :
    (panic.receive field (inb (Rtc.read history) 0x71 panic.machine) todo).Fetched history began
      field := by
  rcases inb_data history panic.machine with ⟨value, device⟩
  rcases panic.receive_self field (inb (Rtc.read history) 0x71 panic.machine) todo with
    ⟨argument, instant⟩
  refine ⟨?_, ?_, ?_⟩
  · rw [instant]
    exact began_le
  · rw [instant, receive, device]
  · rw [argument, instant, value, selected, shown]

/-- The fields that were read before. -/
theorem Fetched.receive {field other : Field} (fetched : panic.Fetched history began other)
    (distinct : other ≠ field) (todo : List (Field × Access)) :
    (panic.receive field (inb (Rtc.read history) 0x71 panic.machine) todo).Fetched history began
      other := by
  rcases fetched with ⟨began_le, le_instant, value_eq⟩
  rcases inb_data history panic.machine with ⟨_, device⟩
  rcases panic.receive_of_ne distinct (inb (Rtc.read history) 0x71 panic.machine) todo with
    ⟨argument, instant⟩
  refine ⟨?_, ?_, ?_⟩
  · rwa [instant]
  · rwa [instant, Panic.receive, device]
  · rwa [argument, instant]

theorem Consistent.fetch {field : Field} {order : List Field}
    (consistent : panic.Consistent history began)
    (todo_eq : panic.todo = (field, .inb 0x71) :: pending order)
    (selected : panic.machine.device.index = field.register) :
    (panic.perform history).Consistent history began := by
  rw [perform_inb todo_eq]
  constructor
  · rw [receive, (inb_data history panic.machine).2]
    exact consistent.began_le
  · exact Or.inl ⟨order, rfl⟩
  · intro other
    by_cases same : other = field
    · right
      rw [same]
      exact fetched_receive consistent.began_le selected _
    · rcases consistent.fetched other with remaining | fetched
      · left
        rw [todo_eq] at remaining
        exact (List.mem_cons.mp remaining).resolve_left (by simp [same])
      · right
        exact fetched.receive same _

theorem Consistent.act (consistent : panic.Consistent history began) (action : Action) :
    (panic.act history action).Consistent history began := by
  cases action with
  | update => exact consistent.update
  | access =>
      rcases consistent.shape with ⟨order, todo_eq⟩ | ⟨field, order, todo_eq, selected⟩
      · cases order with
        | nil =>
            rw [Panic.act, perform_nil todo_eq]
            exact consistent
        | cons field order => exact consistent.select todo_eq
      · exact consistent.fetch todo_eq selected

theorem Consistent.run (consistent : panic.Consistent history began) (schedule : List Action) :
    (panic.run history schedule).Consistent history began := by
  induction schedule generalizing panic with
  | nil => exact consistent
  | cons action schedule ih => exact ih (consistent.act action)

end

/-! ### What is printed -/

/-- The triple is one the clock held at an instant between the first and the last reading. -/
def PrintsHeldTime (history : ℕ → BitVec 7 → U8) (panic : Panic) (environment : Environment) :
    Prop :=
  ∃ reading : Reading (shown history), reading.instant = panic.readAt ∧
    reading.value = environment.clock ∧ reading.Held

/-- Every value of the triple was read from its register during the evaluation, and the three are a
time that the clock held if no update between the first and the last reading was one of the hours or
the minutes. -/
def PrintsReadings (history : ℕ → BitVec 7 → U8) (began : ℕ) (panic : Panic)
    (environment : Environment) : Prop :=
  ∃ reading : Reading (shown history), reading.instant = panic.readAt ∧
    reading.value = environment.clock ∧
    (∀ field, began ≤ reading.instant field ∧
      reading.instant field ≤ panic.machine.device.instant) ∧
    (reading.Steady .hours → reading.Steady .minutes → reading.Held)

theorem prints_readings (history : ℕ → BitVec 7 → U8) {order : List Field}
    (perm : order.Perm [.hours, .minutes, .seconds]) (machine : Machine Rtc)
    (schedule : List Action) (rest : Environment)
    (done : ((start order machine).run history schedule).todo = []) :
    PrintsReadings history machine.device.instant ((start order machine).run history schedule)
      (((start order machine).run history schedule).environment rest) := by
  have mem : ∀ field, field ∈ order := by
    intro field
    rw [perm.mem_iff]
    cases field <;> decide
  have consistent := (@consistent_start history order mem machine).run schedule
  have fetched : ∀ field,
      ((start order machine).run history schedule).Fetched history machine.device.instant
        field := by
    intro field
    apply (consistent.fetched field).resolve_left
    rw [done]
    exact List.not_mem_nil
  refine ⟨⟨_, _, fun field => (fetched field).value_eq⟩, rfl, ?_, ?_, ?_⟩
  · exact (clock_environment _ rest).symm
  · intro field
    exact ⟨(fetched field).began_le, (fetched field).le_instant⟩
  · intro hours minutes
    apply Reading.held_of_steady _ .seconds
    intro field isOther
    cases field with
    | hours => exact hours
    | minutes => exact minutes
    | seconds => exact absurd rfl isOther

/-! ### A torn time -/

/-- The second after a time in binary-coded decimals. -/
def nextSecond (time : Field → U8) : Field → U8
  | .seconds => if time .seconds = 0x59 then 0 else nextDigits (time .seconds)
  | .minutes =>
      if time .seconds = 0x59 then
        if time .minutes = 0x59 then 0 else nextDigits (time .minutes)
      else
        time .minutes
  | .hours =>
      if time .seconds = 0x59 ∧ time .minutes = 0x59 then
        if time .hours = 0x23 then 0 else nextDigits (time .hours)
      else
        time .hours
where
  nextDigits (digits : U8) : U8 := if digits.extractLsb' 0 4 = 9 then digits + 7 else digits + 1

/-- A clock that was started at `time`. -/
def clockFrom (time : Field → U8) (instant : ℕ) (register : BitVec 7) : U8 :=
  let now := nextSecond^[instant] time
  if register = Field.hours.register then now .hours
  else if register = Field.minutes.register then now .minutes
  else if register = Field.seconds.register then now .seconds
  else 0

/-- The clock is updated after the hours were read. -/
def updateAmidst : List Action := [.access, .access, .update, .access, .access, .access, .access]

def printedAt (time : Field → U8) : Panic :=
  (start [.hours, .minutes, .seconds] ⟨default, ⟨0, 0⟩⟩).run (clockFrom time) updateAmidst

theorem le_one_of_spans {history : ℕ → BitVec 7 → U8} {panic : Panic}
    (latest : ∀ field, panic.readAt field ≤ 1) {reading : Reading (shown history)}
    (instants : reading.instant = panic.readAt) {instant : ℕ} (spans : reading.Spans instant) :
    instant ≤ 1 := by
  rcases spans.2 with ⟨field, below⟩
  rw [instants] at below
  exact Nat.le_trans below (latest field)

def midday : Field → U8
  | .hours => 0x12
  | .minutes => 0x34
  | .seconds => 0x56

/-- The update at midday is one of the seconds only, and the time that is printed was held. -/
theorem prints_readings_midday :
    PrintsHeldTime (clockFrom midday) (printedAt midday)
      ((printedAt midday).environment noHandlers) := by
  rcases prints_readings (clockFrom midday) (List.Perm.refl _) ⟨default, ⟨0, 0⟩⟩ updateAmidst
    noHandlers (by decide) with ⟨reading, instants, values, _, held⟩
  have latest : ∀ field, (printedAt midday).readAt field ≤ 1 := by
    intro field
    cases field <;> decide
  have first : ∀ instant, reading.Spans (instant + 1) → instant = 0 := by
    intro instant spans
    have inside := le_one_of_spans latest instants spans
    omega
  refine ⟨reading, instants, values, held ?_ ?_⟩
  · intro instant _ spans
    rw [first instant spans]
    decide
  · intro instant _ spans
    rw [first instant spans]
    decide

/-- One second before two o'clock. -/
def beforeTwo : Field → U8
  | .hours => 0x01
  | .minutes => 0x59
  | .seconds => 0x59

/-- One o'clock is printed, which it was neither before the update nor after it. -/
theorem not_printsHeldTime :
    ¬∀ (history : ℕ → BitVec 7 → U8) (order : List Field) (machine : Machine Rtc)
      (schedule : List Action) (rest : Environment),
      order.Perm [.hours, .minutes, .seconds] →
        ((start order machine).run history schedule).todo = [] →
        PrintsHeldTime history ((start order machine).run history schedule)
          (((start order machine).run history schedule).environment rest) := by
  intro claim
  have done : (printedAt beforeTwo).todo = [] := by decide
  rcases claim (clockFrom beforeTwo) [.hours, .minutes, .seconds] ⟨default, ⟨0, 0⟩⟩ updateAmidst
    noHandlers (List.Perm.refl _) done with ⟨reading, instants, values, instant, spans, held⟩
  have latest : ∀ field, (printedAt beforeTwo).readAt field ≤ 1 := by
    intro field
    cases field <;> decide
  have inside := le_one_of_spans latest instants spans
  have hours : clockFrom beforeTwo instant Field.hours.register = 1 :=
    (congrFun (held.symm.trans values) .hours).trans (by decide)
  have minutes : clockFrom beforeTwo instant Field.minutes.register = 0 :=
    (congrFun (held.symm.trans values) .minutes).trans (by decide)
  rcases Nat.le_one_iff_eq_zero_or_eq_one.mp inside with rfl | rfl
  · revert minutes
    decide
  · revert hours
    decide

end Panic

end Benamos.Interrupts
