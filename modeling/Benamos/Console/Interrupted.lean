import Mathlib.Data.Set.Operations
import Mathlib.Logic.Function.Iterate
import Benamos.Console.Polling
import Benamos.Interruption

/-!
# Printing in the middle of printing

The gates leave interrupts enabled, and the handler of the breakpoint prints. It may come between
the test of the line status and the `outb` of the printing it interrupts, and it may be interrupted
itself. The queue of the controller has places for sixteen bytes, so up to that many printing calls
inside each other lose nothing.
-/

namespace Benamos.Console.Polling

open X86 Output

/-- What is left to do of the running call and of those that wait for it, the one it interrupted
first. Every task sets the registers it uses. -/
structure Kernel where
  machine : Machine Transmitter
  running : List Task
  suspended : List (List Task)

namespace Kernel

def device (kernel : Kernel) : Transmitter := kernel.machine.device

/-- The running call goes on, or returns to the one it interrupted. -/
def step (kernel : Kernel) : Kernel :=
  match kernel.running with
  | [] =>
      match kernel.suspended with
      | [] => kernel
      | todo :: suspended => { kernel with running := todo, suspended }
  | task :: todo =>
      let driver := Driver.step ⟨kernel.machine, task :: todo⟩
      { kernel with machine := driver.machine, running := driver.todo }

def shift (kernel : Kernel) : Kernel :=
  { kernel with machine := (Driver.shift ⟨kernel.machine, kernel.running⟩).machine }

/-- A handler that prints is called. -/
def interrupt (text : List Char) (kernel : Kernel) : Kernel :=
  { kernel with
    running := serialWriteString text
    suspended := kernel.running :: kernel.suspended }

/-- The handlers print these texts, and no more calls are inside each other than the queue has
places. -/
inductive Reachable (handlers : Set (List Char)) (start : Kernel) : Kernel → Prop
  | start : Reachable handlers start start
  | step {kernel : Kernel} (reachable : Reachable handlers start kernel) :
      Reachable handlers start kernel.step
  | shift {kernel : Kernel} (reachable : Reachable handlers start kernel) :
      Reachable handlers start kernel.shift
  | interrupt {kernel : Kernel} {text : List Char} (reachable : Reachable handlers start kernel)
      (mem : text ∈ handlers) (room : kernel.suspended.length + 1 < 16) :
      Reachable handlers start (kernel.interrupt text)

end Kernel

/-- The state in which `initialize_com1` leaves the port. -/
structure PortReady (transmitter : Transmitter) : Prop where
  enabled : transmitter.uart.fcr.getLsbD 0 = true
  unlatched : transmitter.uart.dlab = false
  fits : transmitter.fifo.length ≤ 16

theorem portReady_of_initialized {start : Transmitter} {bytes : List U8} {driver : Driver}
    (initialized : Initializing start bytes 7 driver) : PortReady driver.device := by
  have uart_eq := initialized.uart_eq
  rw [performed_all default, device_initializeCom1] at uart_eq
  refine ⟨?_, initialized.refines.unlatched, ?_⟩
  · rw [uart_eq]
    simp
  · rw [initialized.cleared (by decide)]
    simp

theorem initializing_iterate (start : Machine Transmitter) (bytes : List U8) {count : ℕ}
    (inside : count ≤ 7) :
    Initializing start.device bytes count
      (Driver.step^[count] ⟨start, initializeCom1 ++ sendAll bytes⟩) := by
  induction count with
  | zero => exact initializing_start start bytes
  | succ count ih =>
      rw [Function.iterate_succ_apply']
      exact (ih (Nat.le_of_succ_le inside)).step inside

/-- The machine after `initialize_com1`. -/
def initialized (start : Machine Transmitter) : Machine Transmitter :=
  (Driver.step^[7] ⟨start, initializeCom1⟩).machine

theorem portReady_initialized (start : Machine Transmitter) :
    PortReady (initialized start).device :=
  portReady_of_initialized (initializing_iterate start [] le_rfl)

/-! ### The abstract senders -/

def senderTasks (sender : Interruption.Sender U8) : List Task :=
  handing sender.pending sender.ready

structure Interleaves (kernel : Kernel) (state : Interruption.State U8) : Prop where
  running_eq : kernel.running = senderTasks state.running
  suspended_eq : kernel.suspended = state.suspended.map senderTasks
  fifo_eq : kernel.device.fifo = state.queue
  line_eq : kernel.device.line = state.delivered
  unlatched : kernel.device.uart.dlab = false
  enabled : kernel.device.uart.fcr.getLsbD 0 = true

theorem fcr_write (value : U8) (transmitter : Transmitter) :
    (transmitter.write 0 value).uart.fcr = transmitter.uart.fcr := by
  have data : transmitter.uart.write 0 value =
      if transmitter.uart.dlab then { transmitter.uart with divisorLow := value }
      else { transmitter.uart with sent := transmitter.uart.sent ++ [value] } := rfl
  rw [Transmitter.write]
  dsimp only
  rw [data]
  split <;> rfl

theorem Kernel.step_running {kernel : Kernel} {task : Task} {todo : List Task}
    (running : kernel.running = task :: todo) :
    kernel.step.running = (Driver.step ⟨kernel.machine, task :: todo⟩).todo ∧
      kernel.step.device = (Driver.step ⟨kernel.machine, task :: todo⟩).device ∧
      kernel.step.suspended = kernel.suspended := by
  simp only [step, running]
  exact ⟨trivial, rfl, trivial⟩

namespace Interleaves

variable {kernel : Kernel} {state : Interruption.State U8}

theorem step (interleaves : Interleaves kernel state) :
    Interleaves kernel.step (state.send 16) := by
  rcases interleaves with ⟨running_eq, suspended_eq, fifo_eq, line_eq, unlatched, enabled⟩
  rw [Interruption.State.send]
  cases pending_eq : state.running.pending with
  | nil =>
      have idle : kernel.running = [] := by
        rw [running_eq, senderTasks, pending_eq, handing]
        split <;> rfl
      cases outer_eq : state.suspended with
      | nil =>
          have same : kernel.step = kernel := by
            simp only [Kernel.step, idle, suspended_eq, outer_eq, List.map_nil]
          rw [same]
          exact ⟨running_eq, suspended_eq, fifo_eq, line_eq, unlatched, enabled⟩
      | cons sender suspended =>
          have returned : kernel.step =
              { kernel with
                running := senderTasks sender, suspended := suspended.map senderTasks } := by
            simp only [Kernel.step, idle, suspended_eq, outer_eq, List.map_cons]
          rw [returned]
          exact ⟨rfl, rfl, fifo_eq, line_eq, unlatched, enabled⟩
  | cons value pending =>
      cases ready_eq : state.running.ready with
      | true =>
          have todo : kernel.running = .outb com1 value :: sendAll pending := by
            rw [running_eq, senderTasks, pending_eq, ready_eq]
            rfl
          rcases Kernel.step_running todo with ⟨running, device, suspended⟩
          have performed := @Driver.step_outb ⟨kernel.machine, .outb com1 value :: sendAll pending⟩
            _ _ _ rfl
          rw [performed.1] at running
          rw [performed.2, Refines.writeAt_com1] at device
          have queued : (kernel.device.write 0 value).fifo =
              if kernel.device.fifo.length < 16 then kernel.device.fifo ++ [value]
              else kernel.device.fifo := by
            have places : kernel.device.capacity = 16 := if_pos enabled
            rw [Transmitter.write, Transmitter.queued, if_pos ⟨rfl, unlatched⟩, places]
          simp only [if_true]
          refine ⟨running, suspended.trans suspended_eq, ?_, ?_, ?_, ?_⟩
          · rw [← fifo_eq, device]
            exact queued
          · rw [← line_eq, device]
            rfl
          · rw [device]
            exact (Transmitter.dlab_write _ value).trans unlatched
          · rw [device]
            exact (congrArg (·.getLsbD 0) (fcr_write value _)).trans enabled
      | false =>
          have todo : kernel.running = .awaitReady :: .outb com1 value :: sendAll pending := by
            rw [running_eq, senderTasks, pending_eq, ready_eq]
            rfl
          rcases Kernel.step_running todo with ⟨running, device, suspended⟩
          have tested := @Driver.step_awaitReady
            ⟨kernel.machine, .awaitReady :: .outb com1 value :: sendAll pending⟩ _ rfl
          rw [tested.1] at running
          rw [tested.2] at device
          simp only [Bool.false_eq_true, if_false]
          refine ⟨?_, suspended.trans suspended_eq, by rw [device]; exact fifo_eq,
            by rw [device]; exact line_eq, by rw [device]; exact unlatched,
            by rw [device]; exact enabled⟩
          rw [running, ← fifo_eq, senderTasks, pending_eq]
          change (if kernel.device.fifo = [] then _ else _) = _
          cases kernel.device.fifo <;> rfl

theorem shift (interleaves : Interleaves kernel state) :
    Interleaves kernel.shift state.receive := by
  rcases interleaves with ⟨running_eq, suspended_eq, fifo_eq, line_eq, unlatched, enabled⟩
  have device : kernel.shift.device = kernel.device.shift := rfl
  rw [Interruption.State.receive]
  cases queue_eq : state.queue with
  | nil =>
      have same : kernel.shift.device = kernel.device := by
        rw [device, Transmitter.shift, fifo_eq, queue_eq]
      exact ⟨running_eq, suspended_eq, by rw [same, fifo_eq], by rw [same, line_eq],
        by rw [same, unlatched], by rw [same, enabled]⟩
  | cons value queue =>
      have shifted : kernel.shift.device =
          { kernel.device with fifo := queue, line := kernel.device.line ++ [value] } := by
        rw [device, Transmitter.shift, fifo_eq, queue_eq]
      refine ⟨running_eq, suspended_eq, by rw [shifted], ?_, by rw [shifted, unlatched],
        by rw [shifted, enabled]⟩
      rw [shifted, line_eq]

theorem interrupt (interleaves : Interleaves kernel state) (text : List Char) :
    Interleaves (kernel.interrupt text) (state.interrupt (text.map charByte)) where
  running_eq := serialWriteString_eq text
  suspended_eq := by
    rw [Kernel.interrupt, interleaves.running_eq, interleaves.suspended_eq]
    rfl
  fifo_eq := interleaves.fifo_eq
  line_eq := interleaves.line_eq
  unlatched := interleaves.unlatched
  enabled := interleaves.enabled

end Interleaves

/-! ### What comes out on the line -/

section

variable {handlers : Set (List Char)} {start : Machine Transmitter} {text : List Char}
  {kernel : Kernel}

def bytesOf (handlers : Set (List Char)) : Set (List U8) :=
  (fun text => text.map charByte) '' handlers

theorem interleaves_start (ready : PortReady start.device) (text : List Char) :
    Interleaves ⟨start, serialWriteString text, []⟩
      ⟨⟨[], text.map charByte, false⟩, [], start.device.fifo, start.device.line⟩ where
  running_eq := serialWriteString_eq text
  suspended_eq := rfl
  fifo_eq := rfl
  line_eq := rfl
  unlatched := ready.unlatched
  enabled := ready.enabled

theorem exists_interleaves (ready : PortReady start.device)
    (reachable : Kernel.Reachable handlers ⟨start, serialWriteString text, []⟩ kernel) :
    ∃ state, Interleaves kernel state ∧
      Interruption.Invariant 16 (bytesOf handlers) (text.map charByte)
        (start.device.line ++ start.device.fifo) state := by
  induction reachable with
  | start =>
      refine ⟨_, interleaves_start ready text, Nat.zero_lt_succ 15, ready.fits, [],
        .outermost rfl .nil, ?_⟩
      exact (List.append_nil _).symm
  | step reachable ih =>
      rcases ih with ⟨state, interleaves, invariant⟩
      exact ⟨_, interleaves.step, invariant.send⟩
  | shift reachable ih =>
      rcases ih with ⟨state, interleaves, invariant⟩
      exact ⟨_, interleaves.shift, invariant.receive⟩
  | interrupt reachable mem room ih =>
      rename_i kernel inner
      rcases ih with ⟨state, interleaves, invariant⟩
      refine ⟨_, interleaves.interrupt inner, invariant.interrupt ⟨inner, mem, rfl⟩ ?_⟩
      rwa [interleaves.suspended_eq, List.length_map] at room

end

def breakpointText : List Char := "CUSTOM BREAKPOINT\n".toList

/-- A controller that comes up with its queue disabled and a byte in it. -/
def firmwareTransmitter : Transmitter := ⟨⟨0, 0, 0, 0, 0, 0, 0, []⟩, [0x21], [], 0⟩

def initializedMachine : Machine Transmitter := initialized ⟨default, firmwareTransmitter⟩

def printingA : Kernel := ⟨initializedMachine, serialWriteString ['A'], []⟩

end Benamos.Console.Polling
