import Benamos.Boot.Gdt
import Benamos.Boot.PhysAddrBits
import Benamos.Interrupts.InterruptTable

/-!
# The boot sequence of `init.c`

The bootloader hands the machine over with interrupts disabled. `initialize_gdt` enables them at its
end, as if they had been enabled before, but the interrupt table is filled and loaded only after it,
by `initialize_idt`. An interrupt in between goes through whatever table the bootloader left.
-/

namespace Benamos.Boot

open X86 Interrupts

/-- `outb(port, value)` with the instructions of `outb`; the device is not part of the state. -/
def outb (port : U16) (value : U8) : List Statement :=
  [fun cpu => (cpu.setRegister .rdi (port.setWidth 64)).setRegister .rsi (value.setWidth 64),
    fun cpu => cpu.setRegister .rdx ((cpu.registers .rdx).extractLsb' 16 48 ++
      (cpu.registers .rdi).setWidth 16),
    fun cpu => cpu.setRegister .rax ((cpu.registers .rax).extractLsb' 8 56 ++
      (cpu.registers .rsi).setWidth 8)]

def initializeCom1 : List Statement :=
  outb (0x3F8 + 1) 0x00 ++ outb (0x3F8 + 3) 0x80 ++ outb (0x3F8 + 0) 0x01 ++
    outb (0x3F8 + 1) 0x00 ++ outb (0x3F8 + 3) 0x03 ++ outb (0x3F8 + 2) 0xC7 ++
    outb (0x3F8 + 4) 0x0B

/-- What a call of `get_max_phys_addr_bits` returns on a processor whose `cpuid` reports this. -/
def maxPhysAddrBits (report : U32 → Cpu.Leaf) (cpu : Cpu) : U64 :=
  (getMaxPhysAddrBits report ⟨cpu, []⟩).cpu.registers .rax

/-- `MAXPHYSADDR = get_max_phys_addr_bits();`. The scratch registers of the call and the line that
is printed are left out. -/
def initializePaging (symbols : Symbols) (report : U32 → Cpu.Leaf) : List Statement :=
  [fun cpu => storeAt (symbols.object .maxPhysAddr) 8 (maxPhysAddrBits report cpu) cpu]

def init (symbols : Symbols) (leftover : Leftover) (report : U32 → Cpu.Leaf) : List Statement :=
  initializeCom1 ++ initializeGdt symbols ++ initializeIdt symbols leftover ++
    initializePaging symbols report

/-- What the bootloader hands over: interrupts are disabled and the interrupt table, a static object
without an initial value, is zero. The table registers are arbitrary. -/
structure BootState (symbols : Symbols) where
  cpu : Cpu
  disabled : cpu.rflags.getLsbD Flag.interrupt = false
  zeroed : symbols.Same .interruptTable cpu.memory fun _ => 0

/-- At every moment of the boot at which an interrupt may arrive, the processor's lookup reaches
the stubs. -/
def EnabledOnlyWhenReady (symbols : Symbols) (leftover : Leftover) (report : U32 → Cpu.Leaf)
    (boot : BootState symbols) : Prop :=
  ∀ moment ∈ moments (init symbols leftover report) boot.cpu,
    moment.rflags.getLsbD Flag.interrupt = true → IdtReady symbols moment

theorem maxPhysAddrBits_eq (report : U32 → Cpu.Leaf) (cpu : Cpu) :
    maxPhysAddrBits report cpu = BitVec.ofNat 64 ((report 0x80000008).eax.toNat % 256) :=
  rax_getMaxPhysAddrBits report ⟨cpu, []⟩

/-- `initialize_paging` records the answer of leaf 0x80000008 on every processor. -/
theorem maxPhysAddr_initializePaging (symbols : Symbols) (report : U32 → Cpu.Leaf) (cpu : Cpu) :
    load64 (execute (initializePaging symbols report) cpu).memory (symbols.object .maxPhysAddr) =
      BitVec.ofNat 64 ((report 0x80000008).eax.toNat % 256) := by
  rw [← maxPhysAddrBits_eq report cpu]
  exact load64_store64_same _ _ _

theorem memory_initializeCom1 (cpu : Cpu) :
    (execute initializeCom1 cpu).memory = cpu.memory := rfl

theorem not_idtReady_of_zeroed {symbols : Symbols} {cpu : Cpu}
    (zeroed : symbols.Same .interruptTable cpu.memory fun _ => 0) : ¬IdtReady symbols cpu := by
  intro ready
  have present := ready.present ⟨0, .noErrCode, by decide⟩
  have entry : load cpu.memory (entryAddress (symbols.object .interruptTable) 0) 16 =
      load (fun _ => 0) (entryAddress (symbols.object .interruptTable) 0) 16 := by
    apply zeroed.load_eq
    · rw [toNat_entryAddress]
      exact Nat.le_add_right ..
    · exact entry_fits symbols 0
    · exact symbols.fits .interruptTable
  rw [Cpu.lookup, ready.base, entry, load_zero] at present
  revert present
  decide

/-- When `initialize_gdt` returns, interrupts are enabled and the table is still empty. -/
theorem exists_enabled_unready (symbols : Symbols) (leftover : Leftover)
    (report : U32 → Cpu.Leaf) (boot : BootState symbols) :
    ∃ moment ∈ moments (init symbols leftover report) boot.cpu,
      moment.rflags.getLsbD Flag.interrupt = true ∧ ¬IdtReady symbols moment := by
  refine ⟨execute (initializeCom1 ++ initializeGdt symbols) boot.cpu, ?_, ?_, ?_⟩
  · rw [init, List.append_assoc]
    exact execute_mem_moments _ _ _
  · rw [execute_append]
    exact enabled_initializeGdt symbols _
  · apply not_idtReady_of_zeroed
    rw [execute_append]
    apply Symbols.Same.trans (same_initializeGdt symbols _)
    rw [memory_initializeCom1]
    exact boot.zeroed

/-- No boot keeps interrupts disabled until the interrupt table is in place. -/
theorem enabledOnlyWhenReady_never (symbols : Symbols) (leftover : Leftover)
    (report : U32 → Cpu.Leaf) (boot : BootState symbols) :
    ¬EnabledOnlyWhenReady symbols leftover report boot := by
  intro claim
  rcases exists_enabled_unready symbols leftover report boot with
    ⟨moment, mem, enabled, unready⟩
  exact unready (claim moment mem enabled)

/-- The handover in which all of memory and all registers are zero. -/
def zeroBoot : BootState linkedSymbols where
  cpu := { (default : Cpu) with memory := fun _ => 0 }
  disabled := by decide
  zeroed := AgreeOn.refl _ _ _

theorem not_enabledOnlyWhenReady :
    ¬∀ (symbols : Symbols) (leftover : Leftover) (report : U32 → Cpu.Leaf)
      (boot : BootState symbols), EnabledOnlyWhenReady symbols leftover report boot := by
  intro claim
  rcases exists_enabled_unready linkedSymbols id brandStringOnly zeroBoot with
    ⟨moment, mem, enabled, unready⟩
  exact unready (claim linkedSymbols id brandStringOnly zeroBoot moment mem enabled)

end Benamos.Boot
