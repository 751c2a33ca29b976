import Benamos.Boot.Init
import Benamos.Console.MemoryMap
import Benamos.Draw.Screen
import Benamos.Interrupts.Report

/-!
# `kmain`

The whole run of the kernel: the check of the boot protocol, `init`, the memory map in the log, the
drawing and the greeting. It ends in `hcf` wherever the source looks at what the bootloader
answered; the answer to the memory map request is used without a look. The run is one that no
interrupt breaks into, and the serial controller takes every byte.
-/

namespace Benamos.Main

open Checked X86 Console Draw Boot Numeral Interrupts

inductive Stop
  | halted
  | nullPointer
  | overflow
  | badFormat (fault : Fault)
deriving DecidableEq, Repr

/-- The linker's addresses, what the registers hold at the call of `load_idt`, and what `cpuid`
reports. -/
structure Machine where
  symbols : Symbols
  leftover : Leftover
  report : U32 → Cpu.Leaf

/-- What the bootloader answered to the requests of `main.c`; `none` is a `response` left `NULL`. -/
structure Answers where
  revisionSupported : Bool
  framebuffers : Option (List LimineFramebuffer)
  memmap : Option MemoryMap

/-- The pixels are the 32-bit words from the address of the first framebuffer on. -/
structure State where
  cpu : Cpu
  console : List Char
  pixels : U64 → U32

abbrev KernelM := EStateM Stop State

def hcf : KernelM Unit := throw .halted

def print (format : String) (va : List Vararg) : KernelM Unit := fun state =>
  match printf format va with
  | .ok text => .ok () { state with console := state.console ++ text }
  | .error fault => .error (.badFormat fault) state

/-- `init`, which ends with the line that `initialize_paging` prints. -/
def init (machine : Machine) : KernelM Unit := do
  let state ← get
  let cpu := execute (Boot.init machine.symbols machine.leftover machine.report) state.cpu
  set { state with cpu }
  print "got max physical address: %x\n"
    [.word (load64 cpu.memory (machine.symbols.object .maxPhysAddr))]

def printEntries : List MemmapEntry → KernelM Unit
  | [] => pure ()
  | entry :: entries => do
      print "base: 0x%x, type: %d, length: 0x%x\n"
        [.word entry.base, .word entry.type, .word entry.length]
      printEntries entries

/-- The stores of `put_pixel`. -/
def paint (stores : List Store) (pixels : U64 → U32) : U64 → U32 :=
  stores.foldl (fun pixels store => Function.update pixels store.index store.color) pixels

def draw (fb : LimineFramebuffer) : KernelM Unit := fun state =>
  match kmainStores fb with
  | .ok stores => .ok () { state with pixels := paint stores state.pixels }
  | .error _ => .error .overflow state

def msg : List Char := "Hello, World!\n".toList

def kmain (machine : Machine) (answers : Answers) : KernelM Unit := do
  (if answers.revisionSupported = false then hcf else pure ())
  init machine
  match answers.framebuffers with
  | none | some [] => hcf
  | some (fb :: _) =>
      match answers.memmap with
      | none => throw .nullPointer
      | some map =>
          print "Amount of entries: %d\n" [.word (BitVec.ofNat 64 map.entries.length)]
          printEntries map.entries
          draw fb
          print "%s" [.string msg]
          hcf

/-! ### The log -/

def readBootLog (text : List Char) : Option (ℕ × List MemmapEntry) := do
  let text ← text.dropPrefix? "got max physical address: ".toList
  let (bits, text) ← readNumeral 16 text
  let text ← text.dropPrefix? "\nAmount of entries: ".toList
  let (count, text) ← readNumeral 10 text
  let text ← text.dropPrefix? "\n".toList
  let (entries, text) ← readEntries count text
  if text = msg then some (bits, entries) else none

def pagingLine (bits : ℕ) : List Char :=
  "got max physical address: ".toList ++ (Nat.toDigits 16 bits ++ "\n".toList)

def bootLog (bits : ℕ) (map : MemoryMap) : List Char :=
  pagingLine bits ++ (countLine map.entries.length ++ (map.entries.flatMap entryLine ++ msg))

theorem readBootLog_bootLog (bits : ℕ) (map : MemoryMap) :
    readBootLog (bootLog bits map) = some (bits, map.entries.map MemmapEntry.logged) := by
  have joined (more : List Char) : "\n".toList ++ ("Amount of entries: ".toList ++ more) =
      "\nAmount of entries: ".toList ++ more := by
    rw [← List.append_assoc]
    exact congrArg (· ++ more) (by decide)
  have entries := readEntries_flatMap map.entries msg
  unfold readBootLog bootLog pagingLine countLine
  simp only [List.append_assoc, dropPrefix?_append, Option.bind_eq_bind, Option.bind_some]
  rw [readNumeral_literal (.inr rfl) _ (by decide) (by decide)]
  simp only [Option.bind_some, joined, dropPrefix?_append]
  rw [readNumeral_literal (.inl rfl) _ (by decide) (by decide)]
  simp only [Option.bind_some, dropPrefix?_append, entries, if_true]

/-! ### What the run leaves -/

theorem paint_apply {stores : List Store} {color : U32}
    (colored : ∀ store ∈ stores, store.color = color) (pixels : U64 → U32) (place : U64) :
    paint stores pixels place =
      if ∃ store ∈ stores, store.index = place then color else pixels place := by
  induction stores generalizing pixels with
  | nil => simp [paint]
  | cons store stores ih =>
      rw [List.forall_mem_cons] at colored
      have rest := ih colored.2 (Function.update pixels store.index store.color)
      rw [paint, List.foldl_cons, ← paint, rest]
      by_cases later : ∃ other ∈ stores, other.index = place
      · simp [later]
      · by_cases here : store.index = place
        · simp [← here, colored.1]
        · simp [later, here, Function.update_of_ne (Ne.symm here)]

/-- The low byte of what leaf 0x80000008 reports. -/
def physAddrBits (machine : Machine) : ℕ := (machine.report 0x80000008).eax.toNat % 256

/-- After `init`. -/
def booted (machine : Machine) (start : State) : State where
  cpu := execute (Boot.init machine.symbols machine.leftover machine.report) start.cpu
  console := start.console ++ pagingLine (physAddrBits machine)
  pixels := start.pixels

/-- The word of a point of the shapes that is on screen. -/
def InPicture (fb : LimineFramebuffer) (place : U64) : Prop :=
  ∃ x < fb.width.toNat, ∃ y < fb.height.toNat,
    ((x : ℤ), (y : ℤ)) ∈ kmainShapes fb ∧ place.toNat = y * (fb.pitch.toNat / 4) + x

/-- These words are white, and no other has changed. -/
structure Picture (fb : LimineFramebuffer) (before after : U64 → U32) : Prop where
  drawn : ∀ place, InPicture fb place → after place = 0xFFFFFF
  kept : ∀ place, ¬InPicture fb place → after place = before place

/-- A run to the end: the tables of `init`, a log that tells the number of address bits and the
memory map with the low halves of its numbers, and the picture. -/
structure Complete (machine : Machine) (fb : LimineFramebuffer) (map : MemoryMap)
    (start final : State) : Prop where
  cpu : final.cpu = (booted machine start).cpu
  log : ∃ log, final.console = start.console ++ log ∧
    readBootLog log = some (physAddrBits machine, map.entries.map MemmapEntry.logged)
  picture : Picture fb start.pixels final.pixels

/-- Where a run ends, by what the bootloader answered. -/
inductive Ends (machine : Machine) (answers : Answers) (start : State) : Stop → State → Prop
  | unsupported (refused : answers.revisionSupported = false) :
      Ends machine answers start .halted start
  | noFramebuffer (supported : answers.revisionSupported = true)
      (none : ∀ fb others, answers.framebuffers ≠ some (fb :: others)) :
      Ends machine answers start .halted (booted machine start)
  | noMemoryMap {fb : LimineFramebuffer} {others : List LimineFramebuffer}
      (supported : answers.revisionSupported = true)
      (framebuffer : answers.framebuffers = some (fb :: others))
      (unanswered : answers.memmap = none) :
      Ends machine answers start .nullPointer (booted machine start)
  | complete {fb : LimineFramebuffer} {others : List LimineFramebuffer} {map : MemoryMap}
      {final : State} (supported : answers.revisionSupported = true)
      (framebuffer : answers.framebuffers = some (fb :: others))
      (answered : answers.memmap = some map) (complete : Complete machine fb map start final) :
      Ends machine answers start .halted final

/-! ### The steps -/

def Prints (action : KernelM Unit) (text : List Char) : Prop :=
  ∀ state, action state = .ok () { state with console := state.console ++ text }

theorem bind_of_ok {α β : Type} {first : KernelM α} {next : α → KernelM β} {state after : State}
    {value : α} (ran : first state = .ok value after) :
    (first >>= next) state = next value after := by
  simp only [Bind.bind, EStateM.bind, ran]

theorem prints_print {format : String} {va : List Vararg} {text : List Char}
    (formatted : printf format va = .ok text) : Prints (print format va) text := by
  intro state
  rw [print, formatted]

theorem prints_printEntries {entries : List MemmapEntry}
    (small : ∀ entry ∈ entries, entry.type.toNat < 2 ^ 31) :
    Prints (printEntries entries) (entries.flatMap entryLine) := by
  induction entries with
  | nil =>
      intro state
      rw [List.flatMap_nil, List.append_nil]
      rfl
  | cons entry entries ih =>
      rw [List.forall_mem_cons] at small
      intro state
      have line : Prints _ (entryLine entry) := prints_print (printEntry_eq small.1)
      rw [printEntries, bind_of_ok (line state), ih small.2, List.flatMap_cons, List.append_assoc]

theorem printf_paging {bits : U64} (small : bits.toNat < 2 ^ 32) :
    printf "got max physical address: %x\n" [.word bits] = .ok (pagingLine bits.toNat) := by
  have format : "got max physical address: %x\n".toList =
      "got max physical address: ".toList ++ '%' :: 'x' :: ("\n".toList ++ []) := by
    decide
  unfold pagingLine
  apply printf_eq_ok
  · rw [format, vsnprintf_append (by decide), vsnprintf_directive (directive_x _ _ _),
      vsnprintf_append (by decide), vsnprintf_nil, Nat.mod_eq_of_lt small]
    simp only [Except.map, List.append_nil]
  · simp only [List.mem_append, not_or]
    exact ⟨by decide, nul_notMem_toDigits (.inr rfl) _, by decide⟩

theorem load64_init (symbols : Symbols) (leftover : Leftover) (report : U32 → Cpu.Leaf)
    (cpu : Cpu) :
    load64 (execute (Boot.init symbols leftover report) cpu).memory (symbols.object .maxPhysAddr) =
      BitVec.ofNat 64 ((report 0x80000008).eax.toNat % 256) := by
  rw [Boot.init, execute_append]
  exact maxPhysAddr_initializePaging symbols report _

theorem init_eq (machine : Machine) (start : State) :
    init machine start = .ok () (booted machine start) := by
  have bits := load64_init machine.symbols machine.leftover machine.report start.cpu
  have small : (BitVec.ofNat 64 (physAddrBits machine)).toNat = physAddrBits machine := by
    rw [BitVec.toNat_ofNat, physAddrBits]
    omega
  have line := prints_print (@printf_paging (BitVec.ofNat 64 (physAddrBits machine)) (by
    rw [small, physAddrBits]
    omega))
  rw [small, physAddrBits, ← bits] at line
  have got : (get : KernelM State) start = .ok start start := rfl
  have stored (after : State) : (set after : KernelM PUnit) start = .ok ⟨⟩ after := rfl
  refine (bind_of_ok got).trans ((bind_of_ok (stored _)).trans ?_)
  exact line _

theorem exists_store_iff {fb : LimineFramebuffer} {points : List (ℤ × ℤ)}
    (shapes : ∀ point, point ∈ points ↔ point ∈ kmainShapes fb) {place : U64} :
    (∃ store ∈ points.flatMap (putPixel fb.canvas), store.index = place) ↔
      InPicture fb place := by
  constructor
  · rintro ⟨store, mem, rfl⟩
    rcases mem_stores_iff.mp mem with ⟨point, called, onScreen, rfl⟩
    rcases onScreen_iff.mp onScreen with ⟨x, x_lt, y, y_lt, rfl⟩
    exact ⟨x, x_lt, y, y_lt, (shapes _).mp called, index_toNat x_lt y_lt _⟩
  · rintro ⟨x, x_lt, y, y_lt, onShape, place_eq⟩
    have onScreen := onScreen_iff.mpr ⟨x, x_lt, y, y_lt, rfl⟩
    refine ⟨_, mem_stores_iff.mpr ⟨_, (shapes _).mpr onShape, onScreen, rfl⟩, ?_⟩
    apply BitVec.eq_of_toNat_eq
    exact (index_toNat x_lt y_lt _).trans place_eq.symm

theorem draw_spec (fb : LimineFramebuffer) (state : State) :
    ∃ after, draw fb state = .ok () { state with pixels := after } ∧
      Picture fb state.pixels after := by
  rcases kmain_runs fb with ⟨points, _, storesRan, shapes⟩
  have colored : ∀ store ∈ points.flatMap (putPixel fb.canvas), store.color = 0xFFFFFF := by
    intro store mem
    rcases mem_stores_iff.mp mem with ⟨point, called, onScreen, rfl⟩
    rfl
  have painted := paint_apply colored state.pixels
  refine ⟨paint (points.flatMap (putPixel fb.canvas)) state.pixels, ?_, ?_, ?_⟩
  · rw [draw, storesRan]
  · intro place inPicture
    rw [painted, if_pos ((exists_store_iff shapes).mpr inPicture)]
  · intro place outside
    rw [painted, if_neg (mt (exists_store_iff shapes).mp outside)]

theorem prints_greeting : Prints (print "%s" [.string msg]) msg := by
  have read := directive_s [] msg []
  apply prints_print
  apply printf_eq_ok
  · exact (vsnprintf_directive read).trans (by rw [vsnprintf_nil]; simp [Except.map])
  · decide

/-- The part of `kmain` behind the checks. -/
theorem complete_run (machine : Machine) (fb : LimineFramebuffer) (map : MemoryMap)
    (start : State) :
    ∃ final, Complete machine fb map start final ∧
      (do
        print "Amount of entries: %d\n" [.word (BitVec.ofNat 64 map.entries.length)]
        printEntries map.entries
        draw fb
        print "%s" [.string msg]
        hcf : KernelM Unit) (booted machine start) = .error .halted final := by
  have count := prints_print (printCount_eq map.few)
  have entries := prints_printEntries map.types
  rcases draw_spec fb { booted machine start with
    console := (booted machine start).console ++ countLine map.entries.length ++
      map.entries.flatMap entryLine } with ⟨pixels, drawn, picture⟩
  refine ⟨{ booted machine start with
    console := start.console ++ bootLog (physAddrBits machine) map
    pixels := pixels }, ⟨rfl, ⟨_, rfl, readBootLog_bootLog _ map⟩, picture⟩, ?_⟩
  rw [bind_of_ok (count _), bind_of_ok (entries _), bind_of_ok drawn,
    bind_of_ok (prints_greeting _)]
  simp only [booted, bootLog, List.append_assoc]
  rfl

/-- Where such a run of the kernel ends, whatever state the machine starts in and whatever the
bootloader answered. -/
theorem kmain_ends (machine : Machine) (answers : Answers) (start : State) :
    ∃ stop final, kmain machine answers start = .error stop final ∧
      Ends machine answers start stop final := by
  rw [kmain]
  cases supported : answers.revisionSupported with
  | false => exact ⟨.halted, start, rfl, .unsupported supported⟩
  | true =>
      have ran := init_eq machine start
      have passed : (pure () : KernelM Unit) start = .ok () start := rfl
      rw [if_neg (by decide), bind_of_ok passed, bind_of_ok ran]
      cases framebuffers : answers.framebuffers with
      | none =>
          refine ⟨.halted, booted machine start, rfl, .noFramebuffer supported ?_⟩
          simp [framebuffers]
      | some found =>
          cases found with
          | nil =>
              refine ⟨.halted, booted machine start, rfl, .noFramebuffer supported ?_⟩
              simp [framebuffers]
          | cons fb others =>
              cases answered : answers.memmap with
              | none =>
                  exact ⟨.nullPointer, booted machine start, rfl,
                    .noMemoryMap supported framebuffers answered⟩
              | some map =>
                  rcases complete_run machine fb map start with ⟨final, complete, run⟩
                  exact ⟨.halted, final, run, .complete supported framebuffers answered complete⟩

/-- With a screen and a memory map the kernel halts behind the greeting, and the right end of the
right circle is white. -/
theorem kmain_ends_svga :
    ∃ final, kmain ⟨linkedSymbols, id, brandStringOnly⟩ ⟨true, some [svga], some highMap⟩
        ⟨zeroBoot.cpu, [], fun _ => 0⟩ = .error .halted final ∧
      readBootLog final.console = some (0, highMap.entries.map MemmapEntry.logged) ∧
      final.pixels (BitVec.ofNat 64 (300 * 800 + 600)) = 0xFFFFFF := by
  rcases kmain_ends ⟨linkedSymbols, id, brandStringOnly⟩ ⟨true, some [svga], some highMap⟩
    ⟨zeroBoot.cpu, [], fun _ => 0⟩ with ⟨stop, final, ran, ends⟩
  cases ends with
  | unsupported refused => contradiction
  | noFramebuffer _ none => exact absurd rfl (none svga [])
  | noMemoryMap _ _ unanswered => contradiction
  | complete _ framebuffer answered complete =>
      cases framebuffer
      cases answered
      rcases complete with ⟨_, ⟨log, console, read⟩, drawn, _⟩
      exact ⟨final, ran, by rwa [console],
        drawn _ ⟨600, by decide, 300, by decide, mem_kmainShapes_svga, rfl⟩⟩

end Benamos.Main
