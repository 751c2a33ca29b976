import Benamos.X86.Ports

/-!
# The transmitter of the serial controller

The 16550 takes bytes at its first port while the divisor latch is not selected, keeps them in a
queue of 16 bytes, or of one byte while the queue is disabled, and shifts them out on the line at
its own pace. A byte that finds no room is lost. A bit of the line status register tells whether
the queue is empty, and writing the queue's control register may clear it.
-/

namespace X86

/-- `status` is the line status register apart from the bit for the empty queue. -/
structure Transmitter where
  uart : Uart
  fifo : List (BitVec 8)
  line : List (BitVec 8)
  status : BitVec 8
deriving DecidableEq, Repr

namespace Transmitter

def capacity (transmitter : Transmitter) : ℕ :=
  if transmitter.uart.fcr.getLsbD 0 then 16 else 1

/-- The queue after a write. -/
def queued (offset : BitVec 3) (value : BitVec 8) (transmitter : Transmitter) : List (BitVec 8) :=
  if offset = 0 ∧ transmitter.uart.dlab = false then
    if transmitter.fifo.length < transmitter.capacity then transmitter.fifo ++ [value]
    else transmitter.fifo
  else if offset = 2 ∧
      (value.getLsbD 2 = true ∨ value.getLsbD 0 ≠ transmitter.uart.fcr.getLsbD 0) then
    []
  else
    transmitter.fifo

def write (offset : BitVec 3) (value : BitVec 8) (transmitter : Transmitter) : Transmitter :=
  { transmitter with
    uart := transmitter.uart.write offset value
    fifo := transmitter.queued offset value }

def writeAt (base port : BitVec 16) (value : BitVec 8) (transmitter : Transmitter) : Transmitter :=
  if (port - base).toNat < 8 then
    transmitter.write ((port - base).setWidth 3) value
  else
    transmitter

def lineStatus (transmitter : Transmitter) : BitVec 8 :=
  (transmitter.status &&& ~~~0x20#8) ||| if transmitter.fifo.isEmpty then 0x20#8 else 0#8

/-- The line status is the only register that is read here. -/
def readAt (base port : BitVec 16) (transmitter : Transmitter) : BitVec 8 × Transmitter :=
  if port = base + 5 then (transmitter.lineStatus, transmitter) else (0xFF, transmitter)

/-- The first byte of the queue goes out. -/
def shift (transmitter : Transmitter) : Transmitter :=
  match transmitter.fifo with
  | [] => transmitter
  | value :: fifo => { transmitter with fifo, line := transmitter.line ++ [value] }

theorem dlab_write (transmitter : Transmitter) (value : BitVec 8) :
    (transmitter.write 0 value).uart.dlab = transmitter.uart.dlab := by
  have data : transmitter.uart.write 0 value =
      if transmitter.uart.dlab then { transmitter.uart with divisorLow := value }
      else { transmitter.uart with sent := transmitter.uart.sent ++ [value] } := rfl
  rw [write]
  dsimp only
  rw [data]
  split <;> rfl

theorem capacity_pos (transmitter : Transmitter) : 0 < transmitter.capacity := by
  rw [capacity]
  split_ifs <;> decide

/-- A byte that finds the queue empty is queued. -/
theorem write_of_empty {transmitter : Transmitter} (empty : transmitter.fifo = [])
    (unlatched : transmitter.uart.dlab = false) (value : BitVec 8) :
    (transmitter.write 0 value).fifo = [value] := by
  have room : transmitter.fifo.length < transmitter.capacity := by
    rw [empty]
    exact transmitter.capacity_pos
  rw [write, queued, if_pos ⟨rfl, unlatched⟩, if_pos room, empty]
  rfl

/-- Any other write leaves the queue as it is or clears it. -/
theorem queued_of_other {offset : BitVec 3} {transmitter : Transmitter} (value : BitVec 8)
    (other : offset ≠ 0 ∨ transmitter.uart.dlab = true) :
    transmitter.queued offset value = transmitter.fifo ∨ transmitter.queued offset value = [] := by
  rw [queued, if_neg]
  · split_ifs
    · exact Or.inr rfl
    · exact Or.inl rfl
  · rintro ⟨first, unlatched⟩
    rcases other with notFirst | latched
    · exact notFirst first
    · rw [unlatched] at latched
      contradiction

theorem length_queued_le (offset : BitVec 3) (value : BitVec 8) (transmitter : Transmitter) :
    (transmitter.queued offset value).length ≤ transmitter.fifo.length + 1 := by
  rw [queued]
  split_ifs <;> simp

/-- The bit is set exactly while the queue is empty. -/
theorem lineStatus_and (transmitter : Transmitter) :
    transmitter.lineStatus &&& 0x20#8 = if transmitter.fifo.isEmpty then 0x20#8 else 0#8 := by
  have table : ∀ status : BitVec 8, ∀ empty : Bool,
      ((status &&& ~~~0x20#8) ||| if empty then 0x20#8 else 0#8) &&& 0x20#8 =
        if empty then 0x20#8 else 0#8 := by
    decide
  exact table transmitter.status transmitter.fifo.isEmpty

end Transmitter

end X86
