import Benamos.Boot.Init
import Benamos.X86.Ports

/-!
# The serial port: `serial.asm` and `com1.c`

`initialize_com1` starts with a write of zero to the second port of the controller, which is meant
for the interrupt enable register. While the divisor latch access bit is set the same port is the
upper half of the divisor, and the bit is not the driver's to choose before it writes it.
-/

namespace Benamos.Console

open X86

def outb {Device : Type} (write : U16 → U8 → Device → Device) (port : U16) (value : U8)
    (machine : Machine Device) : Machine Device :=
  { machine with cpu := Boot.execute (Boot.outb port value) machine.cpu }.out write

theorem setWidth_through_register {size : ℕ} (value : BitVec size) (small : size ≤ 64) :
    (value.setWidth 64).setWidth size = value := by
  rw [BitVec.setWidth_setWidth_of_le _ small, BitVec.setWidth_eq]

theorem device_outb {Device : Type} (write : U16 → U8 → Device → Device) (port : U16) (value : U8)
    (machine : Machine Device) :
    (outb write port value machine).device = write port value machine.device := by
  have dx : ((Boot.execute (Boot.outb port value) machine.cpu).registers .rdx).setWidth 16 =
      (port.setWidth 64).setWidth 16 :=
    BitVec.setWidth_append_eq_right
  have al : ((Boot.execute (Boot.outb port value) machine.cpu).registers .rax).setWidth 8 =
      (value.setWidth 64).setWidth 8 :=
    BitVec.setWidth_append_eq_right
  rw [outb, Machine.out, dx, al, setWidth_through_register _ (by decide),
    setWidth_through_register _ (by decide)]

/-- The call of `inb` up to its `in`. -/
def inb.called {Device : Type} (port : U16) (machine : Machine Device) : Machine Device :=
  { machine with
    cpu := Boot.execute [fun cpu => cpu.setRegister .rdi (port.setWidth 64),
      fun cpu => cpu.setRegister .rdx ((cpu.registers .rdx).extractLsb' 16 48 ++
        (cpu.registers .rdi).setWidth 16)] machine.cpu }

/-- The value it returns, in `al`, with the machine after it. -/
def inb {Device : Type} (read : U16 → Device → U8 × Device) (port : U16)
    (machine : Machine Device) : U8 × Machine Device :=
  let machine := (inb.called port machine).input read
  let cpu := machine.cpu.setRegister .rax (((machine.cpu.registers .rax).setWidth 8).setWidth 64)
  ((cpu.registers .rax).setWidth 8, { machine with cpu })

theorem inb_spec {Device : Type} (read : U16 → Device → U8 × Device) (port : U16)
    (machine : Machine Device) :
    (inb read port machine).1 = (read port machine.device).1 ∧
      (inb read port machine).2.device = (read port machine.device).2 := by
  have dx : ((inb.called port machine).cpu.registers .rdx).setWidth 16 = port :=
    BitVec.setWidth_append_eq_right.trans (setWidth_through_register port (by decide))
  have answer : read (((inb.called port machine).cpu.registers .rdx).setWidth 16) machine.device =
      read port machine.device := by
    rw [dx]
  have al : (((inb.called port machine).input read).cpu.registers .rax).setWidth 8 =
      (read port machine.device).1 :=
    BitVec.setWidth_append_eq_right.trans (congrArg Prod.fst answer)
  constructor
  · apply Eq.trans _ al
    exact setWidth_through_register _ (by decide)
  · exact congrArg Prod.snd answer

/-! ### `com1.c` -/

def com1 : U16 := 0x3F8

def initializeCom1 (machine : Machine Uart) : Machine Uart :=
  let outb := outb (Uart.writeAt com1)
  machine
    |> outb (0x3F8 + 1) 0x00
    |> outb (0x3F8 + 3) 0x80
    |> outb (0x3F8 + 0) 0x01
    |> outb (0x3F8 + 1) 0x00
    |> outb (0x3F8 + 3) 0x03
    |> outb (0x3F8 + 2) 0xC7
    |> outb (0x3F8 + 4) 0x0B

/-- The processor's side of it is the part the boot sequence has. -/
theorem cpu_initializeCom1 (machine : Machine Uart) :
    (initializeCom1 machine).cpu = Boot.execute Boot.initializeCom1 machine.cpu := rfl

/-- All writes but the first one go where they are meant to go. -/
theorem writes_after_first (uart : Uart) :
    ((((((uart.write 3 0x80).write 0 0x01).write 1 0x00).write 3 0x03).write 2 0xC7).write 4 0x0B) =
      { uart with fcr := 0xC7, lcr := 0x03, mcr := 0x0B, divisorLow := 1, divisorHigh := 0 } := by
  have selected : (uart.write 3 0x80).dlab = true := by
    simp [Uart.write, Uart.dlab]
  rw [Uart.write_divisor selected]
  rfl

/-- The first write has its effect only on a controller whose divisor latch is not selected. -/
theorem device_initializeCom1 (machine : Machine Uart) :
    (initializeCom1 machine).device =
      { machine.device with
        ier := if machine.device.dlab then machine.device.ier else 0
        fcr := 0xC7
        lcr := 0x03
        mcr := 0x0B
        divisorLow := 1
        divisorHigh := 0 } := by
  simp only [initializeCom1, device_outb]
  apply (writes_after_first (machine.device.write 1 0x00)).trans
  rw [Uart.write_ier_or_divisorHigh]
  cases machine.device.dlab with
  | false => rfl
  | true => rfl

/-! ### Independence of the prior state -/

structure Configuration where
  ier : U8
  divisor : U16
  lcr : U8
  fcr : U8
  mcr : U8
deriving DecidableEq, Repr

def configuration (uart : Uart) : Configuration where
  ier := uart.ier
  divisor := uart.divisor
  lcr := uart.lcr
  fcr := uart.fcr
  mcr := uart.mcr

/-- The first of two machines comes out with the divisor latch off, at 115200 baud, with eight data
bits, no parity and one stop bit, and without interrupts, and the second like the first. -/
structure InitializedAlike (first second : Machine Uart) : Prop where
  same : configuration (initializeCom1 first).device = configuration (initializeCom1 second).device
  dlab : (initializeCom1 first).device.dlab = false
  divisor : (initializeCom1 first).device.divisor = 1
  lineControl : (initializeCom1 first).device.lcr = 0b00000011
  disabled : (initializeCom1 first).device.ier = 0

/-- The first write disables the interrupts, or they were disabled before. -/
def Disables (uart : Uart) : Prop := uart.dlab = false ∨ uart.ier = 0

theorem ier_initializeCom1 (machine : Machine Uart) :
    (initializeCom1 machine).device.ier = 0 ↔ Disables machine.device := by
  rw [device_initializeCom1, Disables]
  cases machine.device.dlab with
  | false => simp
  | true => simp

theorem configuration_eq_iff (first second : Machine Uart) :
    configuration (initializeCom1 first).device = configuration (initializeCom1 second).device ↔
      (initializeCom1 first).device.ier = (initializeCom1 second).device.ier := by
  rw [device_initializeCom1, device_initializeCom1]
  simp [configuration, Uart.divisor]

theorem initializedAlike_iff (first second : Machine Uart) :
    InitializedAlike first second ↔ Disables first.device ∧ Disables second.device := by
  rw [← ier_initializeCom1, ← ier_initializeCom1]
  constructor
  · rintro ⟨same, _, _, _, disabled⟩
    refine ⟨disabled, ?_⟩
    rw [← (configuration_eq_iff first second).mp same, disabled]
  · rintro ⟨disabled, disabled'⟩
    refine ⟨?_, ?_, ?_, ?_, disabled⟩
    · rw [configuration_eq_iff, disabled, disabled']
    · rw [device_initializeCom1]
      simp [Uart.dlab]
    · rw [device_initializeCom1]
      simp [Uart.divisor]
    · rw [device_initializeCom1]

/-- A controller that firmware left with the divisor latch selected and an interrupt enabled. -/
def latchedUart : Uart :=
  { ier := 0x01, fcr := 0, lcr := 0x80, mcr := 0, divisorLow := 0, divisorHigh := 0, scratch := 0,
    sent := [] }

theorem not_initializedAlike :
    ¬∀ first second : Machine Uart, InitializedAlike first second := by
  intro claim
  have disabled := (claim ⟨default, latchedUart⟩ ⟨default, latchedUart⟩).disabled
  revert disabled
  rw [ier_initializeCom1, Disables]
  decide

end Benamos.Console
