import Benamos.X86.Cpu

/-!
# Devices behind ports

`out` and `in` for a device given by what it makes of a write and of a read, and two such devices:
the 16550 serial controller, whose first two registers are banked by the divisor latch access bit of
its line control register, and the real-time clock, whose registers are reached through an index and
change by themselves.
-/

namespace X86

structure Machine (Device : Type) where
  cpu : Cpu
  device : Device

namespace Machine

variable {Device : Type}

/-- `out dx, al`. -/
def out (write : BitVec 16 → BitVec 8 → Device → Device) (machine : Machine Device) :
    Machine Device :=
  { machine with
    device := write ((machine.cpu.registers .rdx).setWidth 16)
      ((machine.cpu.registers .rax).setWidth 8) machine.device }

/-- `in al, dx`. -/
def input (read : BitVec 16 → Device → BitVec 8 × Device) (machine : Machine Device) :
    Machine Device :=
  let answer := read ((machine.cpu.registers .rdx).setWidth 16) machine.device
  { cpu := machine.cpu.setRegister .rax ((machine.cpu.registers .rax).extractLsb' 8 56 ++ answer.1)
    device := answer.2 }

end Machine

/-! ### The serial controller -/

/-- The registers of a 16550 that can be written, and the bytes it was given to send. -/
structure Uart where
  ier : BitVec 8
  fcr : BitVec 8
  lcr : BitVec 8
  mcr : BitVec 8
  divisorLow : BitVec 8
  divisorHigh : BitVec 8
  scratch : BitVec 8
  sent : List (BitVec 8)
deriving DecidableEq, Repr

namespace Uart

/-- The divisor latch access bit. -/
def dlab (uart : Uart) : Bool := uart.lcr.getLsbD 7

def divisor (uart : Uart) : BitVec 16 := uart.divisorHigh ++ uart.divisorLow

def write (offset : BitVec 3) (value : BitVec 8) (uart : Uart) : Uart :=
  match offset with
  | 0 =>
      if uart.dlab then { uart with divisorLow := value }
      else { uart with sent := uart.sent ++ [value] }
  | 1 => if uart.dlab then { uart with divisorHigh := value } else { uart with ier := value }
  | 2 => { uart with fcr := value }
  | 3 => { uart with lcr := value }
  | 4 => { uart with mcr := value }
  -- the line and modem status are read-only
  | 5 => uart
  | 6 => uart
  | 7 => { uart with scratch := value }

theorem write_ier_or_divisorHigh (uart : Uart) (value : BitVec 8) :
    uart.write 1 value =
      if uart.dlab then { uart with divisorHigh := value } else { uart with ier := value } := rfl

/-- With the divisor latch selected, the first two ports are the divisor. -/
theorem write_divisor {uart : Uart} (selected : uart.dlab = true) (low high : BitVec 8) :
    (uart.write 0 low).write 1 high =
      { uart with divisorLow := low, divisorHigh := high } := by
  have first : uart.write 0 low = { uart with divisorLow := low } := if_pos selected
  rw [first]
  exact if_pos selected

def writeAt (base port : BitVec 16) (value : BitVec 8) (uart : Uart) : Uart :=
  if (port - base).toNat < 8 then
    uart.write ((port - base).setWidth 3) value
  else
    uart

end Uart

/-! ### The real-time clock -/

/-- The clock with the register its index selects and the number of its updates so far. -/
structure Rtc where
  index : BitVec 7
  instant : ℕ
deriving DecidableEq, Repr

namespace Rtc

/-- The index is at port 0x70, below the mask bit of the non-maskable interrupt. -/
def write (port : BitVec 16) (value : BitVec 8) (rtc : Rtc) : Rtc :=
  if port = 0x70 then { rtc with index := value.setWidth 7 } else rtc

/-- The selected register is read at port 0x71. `history` is what the registers hold after each
number of updates. -/
def read (history : ℕ → BitVec 7 → BitVec 8) (port : BitVec 16) (rtc : Rtc) : BitVec 8 × Rtc :=
  if port = 0x71 then (history rtc.instant rtc.index, rtc) else (0xFF, rtc)

/-- One update changes all registers together. -/
def update (rtc : Rtc) : Rtc := { rtc with instant := rtc.instant + 1 }

end Rtc

end X86
