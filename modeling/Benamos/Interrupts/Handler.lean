import Benamos.Console.Printf
import Benamos.Interrupts.InterruptTable
import Benamos.Interrupts.Marker

/-!
# `isr_handler`

`isr_handler` looks the vector up in a table of 256 handlers. With a handler there it calls it and
returns; without one it prints a report and halts. The report names the exception from a table with
one message for each of the 32 vectors the processor defines, but the vector 128 has a stub as well.
-/

namespace Benamos.Interrupts

open X86 Console

/-- Why a run of `isr_handler` does not return. -/
inductive Stop where
  | halted
  | outOfBounds (index : U64)
  | badFormat (fault : Console.Fault)
deriving DecidableEq, Repr

/-- The frame behind the pointer, the handlers called so far, each with the frame it was called
with, and what the console shows. -/
structure HandlerState where
  frame : Registers
  calls : List (U64 × Registers)
  console : List Char

abbrev HandlerM := EStateM Stop HandlerState

/-- What `isr_handler` meets: the handler table, with 0 for `NULL`, what the functions at the
addresses in it make of the frame, the clock and the control registers. -/
structure Environment where
  isrHandlerTable : Vector U64 256
  behavior : U64 → Registers → Registers
  hours : U8
  minutes : U8
  seconds : U8
  cr0 : U64
  cr2 : U64
  cr3 : U64
  cr4 : U64

def exceptionMessages : Vector String 32 :=
  #v["Division By Zero", "Debug", "Non Maskable Interrupt", "Breakpoint", "Into Detected Overflow",
    "Out of Bounds", "Invalid Opcode", "No Coprocessor", "Double Fault",
    "Coprocessor Segment Overrun", "Bad TSS", "Segment Not Present", "Stack Fault",
    "General Protection Fault", "Page Fault", "Unknown Interrupt", "Coprocessor Fault",
    "Alignment Check", "Machine Check", "Reserved", "Reserved", "Reserved", "Reserved", "Reserved",
    "Reserved", "Reserved", "Reserved", "Reserved", "Reserved", "Reserved", "Reserved", "Reserved"]

def readFrame : HandlerM Registers := fun state => .ok state.frame state

def lookup {α : Type} {size : ℕ} (table : Vector α size) (index : U64) : HandlerM α :=
  if inside : index.toNat < size then pure (table.get ⟨index.toNat, inside⟩)
  else throw (.outOfBounds index)

def print (format : String) (va : List Vararg) : HandlerM Unit := fun state =>
  match printf format va with
  | .ok text => .ok () { state with console := state.console ++ text }
  | .error fault => .error (.badFormat fault) state

def callHandler (environment : Environment) (handler : U64) : HandlerM Unit := fun state =>
  .ok () { state with
    frame := environment.behavior handler state.frame
    calls := state.calls ++ [(handler, state.frame)] }

def hcf : HandlerM Unit := throw .halted

def dump (name : String) (value : U64) : HandlerM Unit :=
  print (name ++ " = 0x%016lX\n") [.word value]

def dumpPair (left : String) (leftValue : U64) (right : String) (rightValue : U64) :
    HandlerM Unit :=
  print (left ++ " = 0x%016lX " ++ right ++ " = 0x%016lX\n") [.word leftValue, .word rightValue]

/-- The first lines of the report, with the place of the call in the source. -/
def printBanner (environment : Environment) : HandlerM Unit := do
  print "[ISRERR]\n" []
  print "\x1b[90m%02x:%02x:%02x\x1b[0m \x1b[91mPANIC\x1b[0m \x1b[90m%s:%s:%u\x1b[0m "
    [.word (environment.hours.setWidth 64), .word (environment.minutes.setWidth 64),
      .word (environment.seconds.setWidth 64), .string "src/cpu/idt.c".toList,
      .string "isr_handler".toList, .word 114]

def printReport (environment : Environment) (r : Registers) (message : String) :
    HandlerM Unit := do
  print "%s [%lu]\n" [.string message.toList, .word r.error]
  dump "Faulting Address (RIP)" r.rip
  dumpPair "R15" r.r15 "R14" r.r14
  dumpPair "R13" r.r13 "R12" r.r12
  dumpPair "R11" r.r11 "R10" r.r10
  dumpPair "R9 " r.r9 "R8 " r.r8
  dumpPair "RBP" r.rbp "RSP" r.rsp
  dumpPair "RSI" r.rsi "RDI" r.rdi
  dumpPair "RDX" r.rdx "RCX" r.rcx
  dumpPair "RBX" r.rbx "RAX" r.rax
  dumpPair "CS " r.cs "SS " r.ss
  dumpPair "CR4" environment.cr4 "CR3" environment.cr3
  dumpPair "CR2" environment.cr2 "CR0" environment.cr0
  dump "RFLAGS" r.rflags

def isrHandler (environment : Environment) : HandlerM Unit := do
  let r ← readFrame
  let handler ← lookup environment.isrHandlerTable r.intNo
  if handler ≠ 0 then
    callHandler environment handler
  else
    printBanner environment
    let message ← lookup exceptionMessages r.intNo
    printReport environment r message
    hcf

theorem bind_of_ok {α β : Type} {first : HandlerM α} {next : α → HandlerM β}
    {state after : HandlerState} {value : α} (ran : first state = .ok value after) :
    (first >>= next) state = next value after := by
  simp only [Bind.bind, EStateM.bind, ran]

theorem bind_of_error {α β : Type} {first : HandlerM α} {next : α → HandlerM β}
    {state after : HandlerState} {stop : Stop} (stopped : first state = .error stop after) :
    (first >>= next) state = .error stop after := by
  simp only [Bind.bind, EStateM.bind, stopped]

/-! ### Printing -/

/-- The action returns and does nothing but print. -/
def OnlyPrints (action : HandlerM Unit) : Prop :=
  ∀ state, ∃ text, action state = .ok () { state with console := state.console ++ text }

theorem OnlyPrints.bind {first second : HandlerM Unit} (firstPrints : OnlyPrints first)
    (secondPrints : OnlyPrints second) : OnlyPrints (first >>= fun _ => second) := by
  intro state
  rcases firstPrints state with ⟨text, ran⟩
  rcases secondPrints { state with console := state.console ++ text } with ⟨more, ranOn⟩
  refine ⟨text ++ more, ?_⟩
  rw [bind_of_ok ran, ranOn, List.append_assoc]

theorem onlyPrints_print {format : String} {va : List Vararg}
    (formats : Formats format.toList va) : OnlyPrints (print format va) := by
  intro state
  rcases formats with ⟨text, formatted⟩
  exact ⟨text.filter (· ≠ '\x00'), by rw [print, printf, formatted]; rfl⟩

theorem takesWord_016lX : TakesWord "016lX".toList := fun _ _ _ => ⟨_, rfl⟩

theorem formats_dump {name : String} (plain : '%' ∉ name.toList) (value : U64) :
    Formats (name ++ " = 0x%016lX\n").toList [.word value] := by
  have format : " = 0x%016lX\n".toList =
      " = 0x".toList ++ '%' :: ("016lX".toList ++ ("\n".toList ++ [])) := by
    decide
  rw [String.toList_append, format]
  exact .append plain (.append (by decide) (.word takesWord_016lX (.append (by decide) (.nil _))))

theorem formats_dumpPair {left right : String} (leftPlain : '%' ∉ left.toList)
    (rightPlain : '%' ∉ right.toList) (leftValue rightValue : U64) :
    Formats (left ++ " = 0x%016lX " ++ right ++ " = 0x%016lX\n").toList
      [.word leftValue, .word rightValue] := by
  have format : " = 0x%016lX ".toList =
      " = 0x".toList ++ '%' :: ("016lX".toList ++ " ".toList) := by
    decide
  have rest : Formats (" ".toList ++ (right ++ " = 0x%016lX\n").toList) [.word rightValue] :=
    .append (by decide) (formats_dump rightPlain rightValue)
  rw [String.append_assoc, String.toList_append, String.toList_append, format, List.append_assoc,
    List.append_assoc, List.cons_append, List.append_assoc]
  exact .append leftPlain (.append (by decide) (.word takesWord_016lX rest))

theorem onlyPrints_printBanner (environment : Environment) :
    OnlyPrints (printBanner environment) := by
  have takesWord_02x : TakesWord "02x".toList := fun _ _ _ => ⟨_, rfl⟩
  have takesWord_u : TakesWord "u".toList := fun _ _ _ => ⟨_, rfl⟩
  have title : "[ISRERR]\n".toList = "[ISRERR]\n".toList ++ [] := by
    decide
  have format :
      "\x1b[90m%02x:%02x:%02x\x1b[0m \x1b[91mPANIC\x1b[0m \x1b[90m%s:%s:%u\x1b[0m ".toList =
        "\x1b[90m".toList ++ '%' :: ("02x".toList ++ (":".toList ++ '%' :: ("02x".toList ++
          (":".toList ++ '%' :: ("02x".toList ++
            ("\x1b[0m \x1b[91mPANIC\x1b[0m \x1b[90m".toList ++ '%' :: 's' :: (":".toList ++
              '%' :: 's' :: (":".toList ++ '%' :: ("u".toList ++
                ("\x1b[0m ".toList ++ [])))))))))) := by
    decide
  apply OnlyPrints.bind
  · apply onlyPrints_print
    rw [title]
    exact .append (by decide) (.nil _)
  · apply onlyPrints_print
    rw [format]
    apply Formats.append (by decide)
    apply Formats.word takesWord_02x
    apply Formats.append (by decide)
    apply Formats.word takesWord_02x
    apply Formats.append (by decide)
    apply Formats.word takesWord_02x
    apply Formats.append (by decide)
    apply Formats.string
    apply Formats.append (by decide)
    apply Formats.string
    apply Formats.append (by decide)
    apply Formats.word takesWord_u
    exact .append (by decide) (.nil _)

theorem onlyPrints_printReport (environment : Environment) (r : Registers) (message : String) :
    OnlyPrints (printReport environment r message) := by
  have takesWord_lu : TakesWord "lu".toList := fun _ _ _ => ⟨_, rfl⟩
  have format : "%s [%lu]\n".toList =
      '%' :: 's' :: (" [".toList ++ '%' :: ("lu".toList ++ ("]\n".toList ++ []))) := by
    decide
  have title : OnlyPrints (print "%s [%lu]\n" [.string message.toList, .word r.error]) := by
    apply onlyPrints_print
    rw [format]
    apply Formats.string
    apply Formats.append (by decide)
    apply Formats.word takesWord_lu
    exact .append (by decide) (.nil _)
  have one {name : String} (plain : '%' ∉ name.toList) (value : U64) :
      OnlyPrints (dump name value) :=
    onlyPrints_print (formats_dump plain value)
  have pair {left right : String} (leftPlain : '%' ∉ left.toList) (rightPlain : '%' ∉ right.toList)
      (leftValue rightValue : U64) : OnlyPrints (dumpPair left leftValue right rightValue) :=
    onlyPrints_print (formats_dumpPair leftPlain rightPlain leftValue rightValue)
  apply title.bind
  apply (one (by decide) _).bind
  iterate 11 apply (pair (by decide) (by decide) _ _).bind
  exact one (by decide) _

/-! ### The two tables -/

theorem lookup_of_lt {α : Type} {size : ℕ} (table : Vector α size) {index : U64}
    (inside : index.toNat < size) :
    lookup table index = pure (table.get ⟨index.toNat, inside⟩) :=
  dif_pos inside

theorem lookup_of_le {α : Type} {size : ℕ} (table : Vector α size) {index : U64}
    (outside : size ≤ index.toNat) : lookup table index = throw (.outOfBounds index) :=
  dif_neg (Nat.not_lt.mpr outside)

def Environment.handlerOf (environment : Environment) (vector : U8) : U64 :=
  environment.isrHandlerTable.get ⟨vector.toNat, vector.isLt⟩

theorem lookup_isrHandlerTable (environment : Environment) (vector : U8) :
    lookup environment.isrHandlerTable (vector.setWidth 64) =
      pure (environment.handlerOf vector) := by
  have toNat_eq : (vector.setWidth 64).toNat = vector.toNat := by
    rw [BitVec.toNat_setWidth]
    omega
  rw [lookup_of_lt _ (by rw [toNat_eq]; exact vector.isLt)]
  simp only [Environment.handlerOf, toNat_eq]

/-- Only one vector with a stub has no message. -/
theorem toNat_vector_lt_iff (stub : Stub) :
    (stub.vector.setWidth 64).toNat < 32 ↔ stub.vector ≠ 128 := by
  have table : ∀ entry ∈ stubTable, (entry.1.setWidth 64).toNat < 32 ↔ entry.1 ≠ 128 := by
    decide
  exact table _ stub.declared

/-! ### What becomes of an interrupt -/

/-- With a handler registered for the vector, `isr_handler` calls it once, with the frame, and
returns with what it made of it. With none it halts. In both cases no table is left. -/
structure Handled (environment : Environment) (vector : U8) (frame : Registers) : Prop where
  registered : environment.handlerOf vector ≠ 0 →
    isrHandler environment ⟨frame, [], []⟩ =
      .ok () ⟨environment.behavior (environment.handlerOf vector) frame,
        [(environment.handlerOf vector, frame)], []⟩
  unregistered : environment.handlerOf vector = 0 →
    ∃ console, isrHandler environment ⟨frame, [], []⟩ = .error .halted ⟨frame, [], console⟩

/-- The stub delivers a frame that is handled. -/
def DeliversHandled (image : Image isrText) (stub : Stub) (stack : U64) (errorCode : U32)
    (cpu : Cpu) (environment : Environment) : Prop :=
  ∃ frame, frameAtCall image stub stack (pushedErrorCode stub.vector errorCode) cpu = some frame ∧
    Handled environment stub.vector frame

section

variable {environment : Environment} {vector : U8} {frame : Registers}

theorem isrHandler_of_registered (intNo : frame.intNo = vector.setWidth 64)
    (registered : environment.handlerOf vector ≠ 0) :
    isrHandler environment ⟨frame, [], []⟩ =
      .ok () ⟨environment.behavior (environment.handlerOf vector) frame,
        [(environment.handlerOf vector, frame)], []⟩ := by
  have read : readFrame ⟨frame, [], []⟩ = .ok frame ⟨frame, [], []⟩ := rfl
  rw [isrHandler, bind_of_ok read, intNo, lookup_isrHandlerTable, pure_bind, if_pos registered]
  rfl

theorem isrHandler_of_unregistered (intNo : frame.intNo = vector.setWidth 64)
    (unregistered : environment.handlerOf vector = 0) :
    ∃ banner, isrHandler environment ⟨frame, [], []⟩ =
      (lookup exceptionMessages (vector.setWidth 64) >>= fun message =>
        printReport environment frame message >>= fun _ => hcf) ⟨frame, [], banner⟩ := by
  have read : readFrame ⟨frame, [], []⟩ = .ok frame ⟨frame, [], []⟩ := rfl
  rcases onlyPrints_printBanner environment ⟨frame, [], []⟩ with ⟨banner, printed⟩
  refine ⟨banner, ?_⟩
  rw [isrHandler, bind_of_ok read, intNo, lookup_isrHandlerTable, pure_bind,
    if_neg (not_not.mpr unregistered), bind_of_ok printed]
  rfl

theorem exists_halted (intNo : frame.intNo = vector.setWidth 64)
    (unregistered : environment.handlerOf vector = 0)
    (hasMessage : (vector.setWidth 64).toNat < 32) :
    ∃ console, isrHandler environment ⟨frame, [], []⟩ = .error .halted ⟨frame, [], console⟩ := by
  rcases isrHandler_of_unregistered intNo unregistered with ⟨banner, ran⟩
  rw [lookup_of_lt _ hasMessage, pure_bind] at ran
  rcases onlyPrints_printReport environment frame
    (exceptionMessages.get ⟨(vector.setWidth 64).toNat, hasMessage⟩) ⟨frame, [], banner⟩ with
    ⟨report, printed⟩
  rw [bind_of_ok printed] at ran
  exact ⟨_, ran⟩

/-- A vector past the messages is read past their end. -/
theorem exists_outOfBounds (intNo : frame.intNo = vector.setWidth 64)
    (unregistered : environment.handlerOf vector = 0)
    (noMessage : 32 ≤ (vector.setWidth 64).toNat) :
    ∃ console, isrHandler environment ⟨frame, [], []⟩ =
      .error (.outOfBounds (vector.setWidth 64)) ⟨frame, [], console⟩ := by
  rcases isrHandler_of_unregistered intNo unregistered with ⟨banner, ran⟩
  rw [lookup_of_le _ noMessage] at ran
  exact ⟨banner, ran.trans (bind_of_error rfl)⟩

end

/-- Every interrupt is handled or halts the machine, except the one with vector 128 as long as no
handler is registered for it. -/
theorem deliversHandled_iff (image : Image isrText) (stub : Stub) (stack : U64) (errorCode : U32)
    (cpu : Cpu) (environment : Environment) :
    DeliversHandled image stub stack errorCode cpu environment ↔
      stub.vector ≠ 128 ∨ environment.handlerOf 128 ≠ 0 := by
  constructor
  · rintro ⟨frame, delivered, handled⟩
    by_contra neither
    rw [not_or, not_not, not_not] at neither
    rcases neither with ⟨vector_eq, unregistered⟩
    rw [← vector_eq] at unregistered
    have noMessage : 32 ≤ (stub.vector.setWidth 64).toNat := by
      rw [vector_eq]
      decide
    rcases handled.unregistered unregistered with ⟨_, halted⟩
    rcases exists_outOfBounds (intNo_frameAtCall delivered) unregistered noMessage with
      ⟨_, outOfBounds⟩
    rw [halted] at outOfBounds
    cases outOfBounds
  · intro fine
    rcases exists_frameAtCall image stub stack (pushedErrorCode stub.vector errorCode) cpu with
      ⟨frame, delivered, _⟩
    have intNo := intNo_frameAtCall delivered
    refine ⟨frame, delivered, isrHandler_of_registered intNo, ?_⟩
    intro unregistered
    apply exists_halted intNo unregistered
    rw [toNat_vector_lt_iff]
    rcases fine with other | registered
    · exact other
    · rintro vector_eq
      rw [vector_eq] at unregistered
      exact registered unregistered

def noHandlers : Environment :=
  ⟨Vector.replicate 256 0, fun _ frame => frame, 0, 0, 0, 0, 0, 0, 0⟩

/-- `int 0x80` without a handler reads past the end of the messages. -/
theorem not_deliversHandled :
    ¬∀ (image : Image isrText) (stub : Stub) (stack : U64) (errorCode : U32) (cpu : Cpu)
      (environment : Environment),
      DeliversHandled image stub stack errorCode cpu environment := by
  intro claim
  rcases claim pageImage ⟨128, .noErrCode, by decide⟩ 0 0 default noHandlers with
    ⟨frame, delivered, handled⟩
  have unregistered : noHandlers.handlerOf 128 = 0 := Vector.getElem_replicate _
  rcases handled.unregistered unregistered with ⟨_, halted⟩
  rcases exists_outOfBounds (intNo_frameAtCall delivered) unregistered (by decide) with
    ⟨_, outOfBounds⟩
  rw [halted] at outOfBounds
  cases outOfBounds

end Benamos.Interrupts
