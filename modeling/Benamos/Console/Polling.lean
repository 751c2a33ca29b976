import Benamos.Console.EntryPoints
import Benamos.Console.Serial
import Benamos.Handover
import Benamos.X86.Transmitter

/-!
# The serial driver and the transmitter

`com1.c` puts a byte into the transmitter only after it has read that the queue is empty. The
processor and the transmitter take turns in any order, an access to a port at a time. Once the port
is set up this is the handover of `Benamos.Handover`: what the kernel prints comes out on the line
in full and in order, behind what the transmitter still had to send before.
-/

namespace Benamos.Console.Polling

open X86 Checked Output

/-- A call of `outb`, or the loop that waits until the transmitter is ready. -/
inductive Task where
  | outb (port : U16) (value : U8)
  | awaitReady
deriving DecidableEq, Repr

structure Driver where
  machine : Machine Transmitter
  todo : List Task

/-! ### `com1.c` -/

def initializeCom1Writes : List (U16 × U8) :=
  [(0x3F8 + 1, 0x00), (0x3F8 + 3, 0x80), (0x3F8 + 0, 0x01), (0x3F8 + 1, 0x00), (0x3F8 + 3, 0x03),
    (0x3F8 + 2, 0xC7), (0x3F8 + 4, 0x0B)]

def initializeCom1 : List Task := initializeCom1Writes.map fun write => .outb write.1 write.2

/-- `serial_is_transmit_ready`: its value as an `int`, and the machine after it. -/
def serialIsTransmitReady (machine : Machine Transmitter) : U32 × Machine Transmitter :=
  let answer := inb (Transmitter.readAt com1) (com1 + 5) machine
  (answer.1.setWidth 32 &&& 0x20, answer.2)

/-- `while (!serial_is_transmit_ready()); outb(COM1, c);`. -/
def serialWriteChar (c : Char) : List Task := [.awaitReady, .outb com1 (charByte c)]

def serialWriteString (s : List Char) : List Task := s.flatMap serialWriteChar

/-- `_putchar`, for a call that has made the kernel do `tasks` so far. -/
def putchar (character : Char) (tasks : List Task) : List Task :=
  tasks ++ serialWriteChar character

/-- What a call of `printf` makes the kernel do. -/
def printfTasks (stack : Vector Char ntoaBufferSize) (format : List Char) (va : List Vararg) :
    Except Failure (List Task) := do
  let done ← printf_ stack putchar format va []
  return done.1

namespace Driver

/-- The processor goes on to its next access. -/
def step (driver : Driver) : Driver :=
  match driver.todo with
  | [] => driver
  | .outb port value :: todo =>
      { machine := Console.outb (Transmitter.writeAt com1) port value driver.machine, todo }
  | .awaitReady :: todo =>
      let answer := serialIsTransmitReady driver.machine
      { machine := answer.2, todo := if answer.1 ≠ 0 then todo else driver.todo }

/-- The transmitter shifts a byte out. -/
def shift (driver : Driver) : Driver :=
  { driver with machine := { driver.machine with device := driver.machine.device.shift } }

def act (driver : Driver) : Handover.Actor → Driver
  | .sender => driver.step
  | .receiver => driver.shift

def device (driver : Driver) : Transmitter := driver.machine.device

/-! ### What one access does to the transmitter -/

section

variable {driver : Driver} {todo : List Task}

theorem device_shift (driver : Driver) : driver.shift.device = driver.device.shift := rfl

theorem step_nil (todo_eq : driver.todo = []) : driver.step = driver := by
  simp only [step, todo_eq]

theorem step_outb {port : U16} {value : U8} (todo_eq : driver.todo = .outb port value :: todo) :
    driver.step.todo = todo ∧
      driver.step.device = Transmitter.writeAt com1 port value driver.device := by
  simp only [step, todo_eq]
  exact ⟨trivial, device_outb _ port value driver.machine⟩

theorem serialIsTransmitReady_spec (machine : Machine Transmitter) :
    ((serialIsTransmitReady machine).1 ≠ 0 ↔ machine.device.fifo = []) ∧
      (serialIsTransmitReady machine).2.device = machine.device := by
  rcases inb_spec (Transmitter.readAt com1) (com1 + 5) machine with ⟨value, device⟩
  rw [Transmitter.readAt, if_pos rfl] at value device
  refine ⟨?_, device⟩
  have mask : ∀ status : U8,
      (status.setWidth 32 &&& 0x20#32) = (status &&& 0x20#8).setWidth 32 := by
    decide
  rw [serialIsTransmitReady]
  dsimp only
  rw [value, ← List.isEmpty_iff]
  apply Iff.trans (b := ((machine.device.lineStatus &&& 0x20#8).setWidth 32 ≠ (0 : U32)))
  · rw [← mask]
    rfl
  · rw [Transmitter.lineStatus_and]
    cases machine.device.fifo.isEmpty <;> decide

theorem step_awaitReady (todo_eq : driver.todo = .awaitReady :: todo) :
    driver.step.todo = (if driver.device.fifo = [] then todo else driver.todo) ∧
      driver.step.device = driver.device := by
  rcases serialIsTransmitReady_spec driver.machine with ⟨ready_iff, device_eq⟩
  simp only [step, todo_eq]
  refine ⟨?_, device_eq⟩
  by_cases empty : driver.machine.device.fifo = []
  · rw [if_pos (ready_iff.mpr empty)]
    exact (if_pos empty).symm
  · rw [if_neg (mt ready_iff.mp empty)]
    exact (if_neg empty).symm

end

end Driver

/-! ### The driver hands its bytes over -/

def sendAll (bytes : List U8) : List Task :=
  bytes.flatMap fun value => [.awaitReady, .outb com1 value]

theorem serialWriteString_eq (s : List Char) : serialWriteString s = sendAll (s.map charByte) := by
  rw [sendAll, List.flatMap_map]
  rfl

/-- What is left to do with these bytes, once the driver is ready for the first of them or not. -/
def handing (pending : List U8) (ready : Bool) : List Task :=
  if ready then (sendAll pending).tail else sendAll pending

/-- The driver and the transmitter are where the handover is. -/
structure Refines (driver : Driver) (state : Handover.State U8) : Prop where
  todo_eq : driver.todo = handing state.pending state.ready
  fifo_eq : driver.device.fifo = state.queue
  line_eq : driver.device.line = state.delivered
  unlatched : driver.device.uart.dlab = false

namespace Refines

variable {driver : Driver} {state : Handover.State U8}

theorem writeAt_com1 (value : U8) (transmitter : Transmitter) :
    Transmitter.writeAt com1 com1 value transmitter = transmitter.write 0 value := rfl

theorem step (refines : Refines driver state) (cautious : state.Cautious) :
    Refines driver.step state.send := by
  rcases refines with ⟨todo_eq, fifo_eq, line_eq, unlatched⟩
  rw [Handover.State.send]
  cases pending_eq : state.pending with
  | nil =>
      have idle : driver.todo = [] := by
        rw [todo_eq, pending_eq, handing]
        split <;> rfl
      rw [Driver.step_nil idle]
      exact ⟨todo_eq, fifo_eq, line_eq, unlatched⟩
  | cons value pending =>
      rw [pending_eq] at todo_eq
      dsimp only
      cases isReady : state.ready with
      | true =>
          rw [isReady] at todo_eq
          have empty : driver.device.fifo = [] := fifo_eq.trans (cautious isReady)
          rcases Driver.step_outb todo_eq with ⟨todoAfter, device⟩
          rw [writeAt_com1] at device
          refine ⟨todoAfter, ?_, ?_, ?_⟩
          · rw [device, Transmitter.write_of_empty empty unlatched, if_pos rfl, ← fifo_eq, empty]
            rfl
          · rw [device, if_pos rfl, ← line_eq]
            rfl
          · rw [device, Transmitter.dlab_write, unlatched]
      | false =>
          rw [isReady] at todo_eq
          rcases Driver.step_awaitReady todo_eq with ⟨todoAfter, device⟩
          rw [if_neg Bool.false_ne_true]
          refine ⟨?_, by rw [device, fifo_eq], by rw [device, line_eq], by rw [device, unlatched]⟩
          rw [todoAfter, fifo_eq, todo_eq]
          cases state.queue <;> rfl

theorem shift (refines : Refines driver state) : Refines driver.shift state.receive := by
  rcases refines with ⟨todo_eq, fifo_eq, line_eq, unlatched⟩
  rw [Handover.State.receive]
  cases queue_eq : state.queue with
  | nil =>
      have idle : driver.device.shift = driver.device := by
        rw [Transmitter.shift, fifo_eq, queue_eq]
      have same : driver.shift.device = driver.device := (Driver.device_shift driver).trans idle
      exact ⟨todo_eq, by rw [same, fifo_eq], by rw [same, line_eq], by rw [same, unlatched]⟩
  | cons value queue =>
      have shifted : driver.shift.device =
          { driver.device with fifo := queue, line := driver.device.line ++ [value] } := by
        rw [Driver.device_shift, Transmitter.shift, fifo_eq, queue_eq]
      refine ⟨todo_eq, by rw [shifted], ?_, by rw [shifted, unlatched]⟩
      rw [shifted, line_eq]

theorem act (refines : Refines driver state) (cautious : state.Cautious) (actor : Handover.Actor) :
    Refines (driver.act actor) (state.act actor) := by
  cases actor with
  | sender => exact refines.step cautious
  | receiver => exact refines.shift

end Refines

/-! ### Setting up the port -/

section

variable {start transmitter : Transmitter} {bytes : List U8} {driver : Driver} {count : ℕ}

/-- The registers after the first `count` writes of `initialize_com1`. -/
def performed (count : ℕ) (uart : Uart) : Uart :=
  (initializeCom1Writes.take count).foldl
    (fun uart write => uart.writeAt com1 write.1 write.2) uart

/-- All of them are what the model with nothing but the registers makes of them. -/
theorem performed_all (cpu : Cpu) (uart : Uart) :
    performed 7 uart = (Console.initializeCom1 ⟨cpu, uart⟩).device := by
  simp only [Console.initializeCom1, device_outb]
  rfl

theorem performed_succ {write : U16 × U8} (here : initializeCom1Writes[count]? = some write)
    (uart : Uart) :
    performed (count + 1) uart = (performed count uart).writeAt com1 write.1 write.2 := by
  rw [performed, performed, List.take_add_one, here, List.foldl_append]
  rfl

theorem uart_writeAt (port : U16) (value : U8) (transmitter : Transmitter) :
    (transmitter.writeAt com1 port value).uart = transmitter.uart.writeAt com1 port value := by
  rw [Transmitter.writeAt, Uart.writeAt]
  split <;> rfl

theorem line_writeAt (port : U16) (value : U8) (transmitter : Transmitter) :
    (transmitter.writeAt com1 port value).line = transmitter.line := by
  rw [Transmitter.writeAt]
  split <;> rfl

/-- No write of `initialize_com1` queues anything, and the last but one clears the queue. -/
theorem fifo_writeAt {write : U16 × U8} (here : initializeCom1Writes[count]? = some write)
    {uart : Uart} (uart_eq : transmitter.uart = performed count uart) :
    ((transmitter.writeAt com1 write.1 write.2).fifo = transmitter.fifo ∨
      (transmitter.writeAt com1 write.1 write.2).fifo = []) ∧
      (count = 5 → (transmitter.writeAt com1 write.1 write.2).fifo = []) := by
  have other {offset : BitVec 3} (value : U8)
      (notQueued : offset ≠ 0 ∨ transmitter.uart.dlab = true) :
      (transmitter.write offset value).fifo = transmitter.fifo ∨
        (transmitter.write offset value).fifo = [] :=
    Transmitter.queued_of_other value notQueued
  rcases count with _ | _ | _ | _ | _ | _ | _ | count
  · cases here
    exact ⟨other 0x00 (Or.inl (by decide)), by simp⟩
  · cases here
    exact ⟨other 0x80 (Or.inl (by decide)), by simp⟩
  · cases here
    -- the divisor latch was selected just before
    have latched : transmitter.uart.dlab = true := by
      have lcr : (performed 2 uart).lcr = 0x80 := rfl
      rw [uart_eq, Uart.dlab, lcr]
      decide
    exact ⟨other 0x01 (Or.inr latched), by simp⟩
  · cases here
    exact ⟨other 0x00 (Or.inl (by decide)), by simp⟩
  · cases here
    exact ⟨other 0x03 (Or.inl (by decide)), by simp⟩
  · cases here
    have cleared : (transmitter.write 2 0xC7).fifo = [] := by
      simp [Transmitter.write, Transmitter.queued]
    exact ⟨Or.inr cleared, fun _ => cleared⟩
  · cases here
    exact ⟨other 0x0B (Or.inl (by decide)), by simp⟩
  · cases here

/-- `initialize_com1` has made `count` of its writes. -/
structure Initializing (start : Transmitter) (bytes : List U8) (count : ℕ) (driver : Driver) :
    Prop where
  todo_eq : driver.todo = initializeCom1.drop count ++ sendAll bytes
  uart_eq : driver.device.uart = performed count start.uart
  sent : ∃ early, driver.device.line = start.line ++ early ∧
    early ++ driver.device.fifo <+: start.fifo
  cleared : 6 ≤ count → driver.device.fifo = []

namespace Initializing

theorem step (initializing : Initializing start bytes count driver) (inside : count < 7) :
    Initializing start bytes (count + 1) driver.step := by
  rcases initializing with ⟨todo_eq, uart_eq, ⟨early, line_eq, atFront⟩, cleared⟩
  have here : initializeCom1Writes[count]? = some initializeCom1Writes[count] :=
    List.getElem?_eq_getElem inside
  have next : driver.todo = .outb initializeCom1Writes[count].1 initializeCom1Writes[count].2 ::
      (initializeCom1.drop (count + 1) ++ sendAll bytes) := by
    have inMap : count < initializeCom1.length := inside
    rw [todo_eq, List.drop_eq_getElem_cons inMap]
    simp only [initializeCom1, List.getElem_map]
    rfl
  rcases Driver.step_outb next with ⟨todoAfter, device⟩
  rcases fifo_writeAt here uart_eq with ⟨queue, atFcr⟩
  refine ⟨todoAfter, ?_, ⟨early, ?_, ?_⟩, ?_⟩
  · rw [device, uart_writeAt, uart_eq, performed_succ here]
  · rw [device, line_writeAt, line_eq]
  · rw [device]
    rcases queue with same | empty
    · rwa [same]
    · rw [empty, List.append_nil]
      exact (List.prefix_append early _).trans atFront
  · intro past
    rw [device]
    rcases Nat.lt_or_ge 5 count with later | before
    · rw [cleared later] at queue
      rcases queue with same | empty
      · exact same
      · exact empty
    · exact atFcr (by omega)

theorem shift (initializing : Initializing start bytes count driver) :
    Initializing start bytes count driver.shift := by
  rcases initializing with ⟨todo_eq, uart_eq, ⟨early, line_eq, atFront⟩, cleared⟩
  cases fifo_eq : driver.device.fifo with
  | nil =>
      have same : driver.shift.device = driver.device := by
        rw [Driver.device_shift, Transmitter.shift, fifo_eq]
      refine ⟨todo_eq, by rw [same, uart_eq], ⟨early, by rw [same, line_eq], by rwa [same]⟩, ?_⟩
      rwa [same]
  | cons value fifo =>
      have shifted : driver.shift.device =
          { driver.device with fifo, line := driver.device.line ++ [value] } := by
        rw [Driver.device_shift, Transmitter.shift, fifo_eq]
      rw [fifo_eq] at atFront cleared
      refine ⟨todo_eq, by rw [shifted, uart_eq], ⟨early ++ [value], ?_, ?_⟩, ?_⟩
      · rw [shifted, line_eq, List.append_assoc]
      · rwa [shifted, List.append_assoc]
      · intro past
        exact absurd (cleared past) (List.cons_ne_nil _ _)

/-- Once all writes are made the handover begins, with the queue empty. -/
theorem refines (initializing : Initializing start bytes 7 driver) :
    Refines driver ⟨bytes, false, [], driver.device.line⟩ where
  todo_eq := initializing.todo_eq
  fifo_eq := initializing.cleared (by decide)
  line_eq := rfl
  unlatched := by
    rw [initializing.uart_eq, performed_all default, device_initializeCom1]
    simp [Uart.dlab]

end Initializing

/-! ### What comes out on the line -/

/-- The driver is setting the port up, or handing over bytes that follow what the transmitter has
sent before. -/
inductive Phase (start : Transmitter) (bytes : List U8) (driver : Driver) : Prop
  | initializing {count : ℕ} (inside : count < 7)
      (initializing : Initializing start bytes count driver)
  | handing {early : List U8} {state : Handover.State U8} (atFront : early <+: start.fifo)
      (refines : Refines driver state) (cautious : state.Cautious)
      (items : state.items = start.line ++ early ++ bytes)

theorem Phase.act (phase : Phase start bytes driver) (actor : Handover.Actor) :
    Phase start bytes (driver.act actor) := by
  cases phase with
  | initializing inside initializing =>
      rename_i count
      cases actor with
      | receiver => exact .initializing inside initializing.shift
      | sender =>
          have next := initializing.step inside
          rcases Nat.lt_or_eq_of_le inside with before | last
          · exact .initializing before next
          · have last : count + 1 = 7 := last
            rw [last] at next
            rcases next.sent with ⟨early, line_eq, atFront⟩
            refine .handing ((List.prefix_append early _).trans atFront) next.refines ?_ ?_
            · intro isReady
              contradiction
            · simp [Handover.State.items, line_eq]
  | handing atFront refines cautious items =>
      exact .handing atFront (refines.act cautious actor) (cautious.act actor)
        ((Handover.State.items_act _ actor).trans items)

theorem handing_eq_nil {pending : List U8} {ready : Bool} (none : handing pending ready = []) :
    pending = [] := by
  cases pending with
  | nil => rfl
  | cons value pending => cases ready <;> simp [handing, sendAll] at none

/-- The line shows what the transmitter had sent, a part of what it still had to send, and then the
bytes from the first one on. When the driver is through, none of them is missing. -/
def Accounted (start : Transmitter) (bytes : List U8) (driver : Driver) : Prop :=
  ∃ early, early <+: start.fifo ∧ driver.device.line <+: start.line ++ early ++ bytes ∧
    (driver.todo = [] → driver.device.line ++ driver.device.fifo = start.line ++ early ++ bytes)

theorem Phase.accounted (phase : Phase start bytes driver) : Accounted start bytes driver := by
  cases phase with
  | initializing inside initializing =>
      rename_i count
      rcases initializing.sent with ⟨early, line_eq, atFront⟩
      refine ⟨early, (List.prefix_append early _).trans atFront, ?_, ?_⟩
      · rw [line_eq]
        exact List.prefix_append _ _
      · intro through
        have todo_eq := initializing.todo_eq
        rw [through, List.nil_eq_append_iff, List.drop_eq_nil_iff] at todo_eq
        exact absurd todo_eq.1 (Nat.not_le.mpr inside)
  | handing atFront refines cautious items =>
      rename_i early state
      rw [Handover.State.items, ← refines.line_eq, ← refines.fifo_eq] at items
      refine ⟨early, atFront, ?_, ?_⟩
      · rw [← items, List.append_assoc]
        exact List.prefix_append _ _
      · intro through
        have none : state.pending = [] := handing_eq_nil (refines.todo_eq.symm.trans through)
        rw [← items, none, List.append_nil]

end

theorem initializing_start (start : Machine Transmitter) (bytes : List U8) :
    Initializing start.device bytes 0 ⟨start, initializeCom1 ++ sendAll bytes⟩ :=
  ⟨rfl, rfl, ⟨[], (List.append_nil _).symm, List.prefix_refl _⟩, by simp⟩

theorem phase_start (start : Machine Transmitter) (bytes : List U8) :
    Phase start.device bytes ⟨start, initializeCom1 ++ sendAll bytes⟩ :=
  .initializing (show 0 < 7 by decide) (initializing_start start bytes)

/-- However the processor and the transmitter take turns, from whatever state firmware left the
port in, a text comes out in order, with nothing lost and nothing repeated. -/
theorem line_accounted (start : Machine Transmitter) (text : List Char)
    (schedule : ℕ → Handover.Actor) (count : ℕ) :
    Accounted start.device (text.map charByte)
      (Turns.after Driver.act schedule
        ⟨start, initializeCom1 ++ serialWriteString text⟩ count) := by
  rw [serialWriteString_eq]
  apply Phase.accounted
  exact Turns.invariant _ (fun _ actor phase => phase.act actor) schedule
    (phase_start start _) count

/-! ### The driver comes to its end -/

namespace Driver

def Done (driver : Driver) : Prop := driver.todo = [] ∧ driver.device.fifo = []

def rank (driver : Driver) : ℕ := 2 * driver.todo.length + driver.device.fifo.length

def helpful (driver : Driver) : Handover.Actor :=
  if driver.device.fifo = [] then .sender else .receiver

section

variable {driver : Driver}

/-- The processor goes on, or it waits and the queue stays as it is. -/
theorem rank_step (unfinished : driver.todo ≠ []) :
    driver.step.rank < driver.rank ∨
      driver.device.fifo ≠ [] ∧ driver.step.todo = driver.todo ∧
        driver.step.device = driver.device := by
  cases todo_eq : driver.todo with
  | nil => contradiction
  | cons task todo =>
      cases task with
      | outb port value =>
          rcases step_outb todo_eq with ⟨todoAfter, device⟩
          have short : driver.step.device.fifo.length ≤ driver.device.fifo.length + 1 := by
            rw [device, Transmitter.writeAt]
            split
            · exact Transmitter.length_queued_le _ _ _
            · exact Nat.le_succ _
          left
          rw [rank, rank, todoAfter, todo_eq, List.length_cons]
          omega
      | awaitReady =>
          rcases step_awaitReady todo_eq with ⟨todoAfter, device⟩
          by_cases empty : driver.device.fifo = []
          · rw [if_pos empty] at todoAfter
            left
            rw [rank, rank, todoAfter, device, todo_eq, List.length_cons]
            omega
          · rw [if_neg empty, todo_eq] at todoAfter
            exact Or.inr ⟨empty, todoAfter, device⟩

theorem rank_shift (driver : Driver) :
    driver.shift.rank < driver.rank ∨ driver.device.fifo = [] ∧ driver.shift = driver := by
  cases fifo_eq : driver.device.fifo with
  | nil =>
      right
      have idle : driver.device.shift = driver.device := by
        rw [Transmitter.shift, fifo_eq]
      refine ⟨rfl, ?_⟩
      rw [shift, ← device, idle]
      rfl
  | cons value fifo =>
      left
      have shifted : driver.shift.device.fifo = fifo := by
        rw [device_shift, Transmitter.shift, fifo_eq]
      rw [rank, rank, shifted, fifo_eq, List.length_cons]
      exact Nat.lt_succ_self _

theorem progresses : Turns.Progresses act Done rank helpful where
  lowers driver unfinished := by
    rw [helpful]
    split_ifs with empty
    · have left : driver.todo ≠ [] := fun through => unfinished ⟨through, empty⟩
      rcases rank_step left with lower | ⟨nonempty, _⟩
      · exact lower
      · contradiction
    · rcases rank_shift driver with lower | ⟨isEmpty, _⟩
      · exact lower
      · contradiction
  waits driver actor _ := by
    cases actor with
    | sender =>
        cases todo_eq : driver.todo with
        | nil =>
            right
            rw [act, step_nil todo_eq]
            exact ⟨rfl, rfl⟩
        | cons task todo =>
            have left : driver.todo ≠ [] := by
              rw [todo_eq]
              exact List.cons_ne_nil _ _
            rcases rank_step left with lower | ⟨_, sameTodo, sameDevice⟩
            · exact Or.inl lower
            · right
              rw [act, rank, rank, helpful, helpful, sameTodo, sameDevice]
              exact ⟨rfl, rfl⟩
    | receiver =>
        rcases rank_shift driver with lower | ⟨_, same⟩
        · exact Or.inl lower
        · right
          rw [act, same]
          exact ⟨rfl, rfl⟩

end

end Driver

theorem foldl_putchar (text : List Char) (tasks : List Task) :
    text.foldl (fun tasks character => putchar character tasks) tasks =
      tasks ++ serialWriteString text := by
  induction text generalizing tasks with
  | nil => exact (List.append_nil _).symm
  | cons character text ih =>
      rw [List.foldl_cons, ih, putchar, List.append_assoc]
      rfl

/-- A call of `printf` makes the kernel write the text it shows. -/
theorem printfTasks_eq (stack : Vector Char ntoaBufferSize) {format : String} {va : List Vararg}
    {shown : List Char} (short : ShortStrings va) (formatted : printf format va = .ok shown) :
    printfTasks stack format.toList va = .ok (serialWriteString shown) := by
  rw [printf] at formatted
  cases text_eq : Console.vsnprintf format.toList va with
  | error fault =>
      rw [text_eq] at formatted
      cases formatted
  | ok text =>
      rw [text_eq] at formatted
      cases formatted
      rw [printfTasks, printf_puts stack putchar [] format.toList short, text_eq]
      simp only [lift, Bind.bind, Except.bind, foldl_putchar, List.nil_append]
      rfl

/-- If both get their turn again and again, what `printf` shows comes out on the line in full, from
whatever state firmware left the port in. -/
theorem printf_comes_out (stack : Vector Char ntoaBufferSize) {format : String}
    {va : List Vararg} {shown : List Char} (short : ShortStrings va)
    (formatted : printf format va = .ok shown) (start : Machine Transmitter)
    {schedule : ℕ → Handover.Actor} (fair : Turns.Fair schedule) :
    ∃ tasks, printfTasks stack format.toList va = .ok tasks ∧
      ∃ count early, early <+: start.device.fifo ∧
        (Turns.after Driver.act schedule ⟨start, initializeCom1 ++ tasks⟩ count).todo = [] ∧
        (Turns.after Driver.act schedule ⟨start, initializeCom1 ++ tasks⟩ count).device.line =
          start.device.line ++ early ++ shown.map charByte := by
  refine ⟨_, printfTasks_eq stack short formatted, ?_⟩
  have phase := Turns.invariant (Phase start.device (shown.map charByte))
    (fun _ actor phase => phase.act actor) schedule (phase_start start (shown.map charByte))
  rw [← serialWriteString_eq] at phase
  rcases Driver.progresses.exists_done fair ⟨start, initializeCom1 ++ serialWriteString shown⟩ with
    ⟨count, through, empty⟩
  rcases (phase count).accounted with ⟨early, atFront, _, complete⟩
  have line := complete through
  rw [empty, List.append_nil] at line
  exact ⟨count, early, atFront, through, line⟩

def alternating (count : ℕ) : Handover.Actor := if count % 2 = 0 then .sender else .receiver

theorem fair_alternating : Turns.Fair alternating := by
  intro actor count
  cases actor with
  | sender => exact ⟨2 * count, by omega, by simp [alternating]⟩
  | receiver =>
      refine ⟨2 * count + 1, by omega, ?_⟩
      rw [alternating, if_neg (by omega)]

/-- Firmware left a byte to send and the divisor latch selected. -/
def busyTransmitter : Transmitter := ⟨latchedUart, [0x3E], [], 0⟩

theorem printf_comes_out_busy :
    ∃ tasks, printfTasks (Vector.replicate 32 'x') "%d%%".toList [.word 42] = .ok tasks ∧
      ∃ count early, early <+: [0x3E#8] ∧
        (Turns.after Driver.act alternating
          ⟨⟨default, busyTransmitter⟩, initializeCom1 ++ tasks⟩ count).todo = [] ∧
        (Turns.after Driver.act alternating
          ⟨⟨default, busyTransmitter⟩, initializeCom1 ++ tasks⟩ count).device.line =
            [] ++ early ++ "42%".toList.map charByte :=
  printf_comes_out (Vector.replicate 32 'x') (shortStrings_word 42)
    (printf_eq_ok formatted_percent (by decide)) ⟨default, busyTransmitter⟩ fair_alternating

end Benamos.Console.Polling
