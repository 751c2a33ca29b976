import Benamos.Console.Integers
import Benamos.Interrupts.Processor
import Benamos.Interrupts.Handler
import Benamos.Reading

/-!
# What a panic tells

The report of `isr_handler` is the only trace a panic leaves. A reader for it gives back the clock,
the name of the exception, the error code and every register: the whole of the interrupted state
but for the number of the vector, which is not printed.
-/

namespace Benamos.Interrupts

open X86 Console Reading

structure Report where
  hours : U8
  minutes : U8
  seconds : U8
  message : List Char
  registers : Registers
  cr0 : U64
  cr2 : U64
  cr3 : U64
  cr4 : U64
deriving DecidableEq, Repr

/-! ### The texts of the directives -/

def shownByte (value : U8) : List Char := zeroPadded false 16 2 value.toNat

def shownWord (value : U64) : List Char := zeroPadded true 16 16 value.toNat

theorem directive_02x (format : List Char) (value : U8) (va : List Vararg) :
    directive ("02x".toList ++ format) (.word (value.setWidth 64) :: va) =
      .ok (shownByte value, format, va) := by
  have converted : directive ("02x".toList ++ format) (.word (value.setWidth 64) :: va) =
      .ok (ntoaLong ((value.setWidth 64).setWidth 32).toNat false 16 0 2 { zeropad := true },
        format, va) := rfl
  have narrow : ((value.setWidth 64).setWidth 32).toNat = value.toNat := by
    have small := value.isLt
    simp only [BitVec.toNat_setWidth]
    omega
  rw [converted, narrow, shownByte, ← ntoaLong_zeroPadded false false 16 _ (by decide)]

theorem directive_016lX (format : List Char) (value : U64) (va : List Vararg) :
    directive ("016lX".toList ++ format) (.word value :: va) =
      .ok (shownWord value, format, va) := by
  have converted : directive ("016lX".toList ++ format) (.word value :: va) =
      .ok (ntoaLong (value.setWidth 64).toNat false 16 0 16
        { zeropad := true, uppercase := true, long := true }, format, va) := rfl
  rw [converted, BitVec.setWidth_eq, shownWord, ← ntoaLong_zeroPadded true true 16 _ (by decide)]

theorem directive_lu (format : List Char) (value : U64) (va : List Vararg) :
    directive ("lu".toList ++ format) (.word value :: va) =
      .ok (Nat.toDigits 10 value.toNat, format, va) := by
  have converted : directive ("lu".toList ++ format) (.word value :: va) =
      .ok (ntoaLong (value.setWidth 64).toNat false 10 0 0 { long := true }, format, va) := rfl
  have written := @reverse_ntoaDigits 10 (by decide) (by decide) ntoaBufferSize value.toNat
    (by decide) (Nat.lt_trans value.isLt (by decide))
  rw [converted, BitVec.setWidth_eq, ← written]
  simp [ntoaLong, ntoaFormat, padZeros, outRev]

theorem directive_s (format text : List Char) (va : List Vararg) :
    directive ('s' :: format) (.string text :: va) = .ok (text, format, va) := by
  have converted : directive ('s' :: format) (.string text :: va) =
      .ok (convertString ⟨{}, 0, 0⟩ text, format, va) := rfl
  rw [converted]
  simp [convertString, pad]

theorem nul_notMem_digits {base : ℕ} (base_le : base ≤ 16) {digits : List Char}
    (allDigits : Digits base digits) : '\x00' ∉ digits :=
  allDigits.notMem base_le (by decide)

theorem nul_notMem_shownByte (value : U8) : '\x00' ∉ shownByte value :=
  nul_notMem_digits (by decide) (digits_zeroPadded (by decide) (by decide) _ _ _)

theorem nul_notMem_shownWord (value : U64) : '\x00' ∉ shownWord value :=
  nul_notMem_digits (by decide) (digits_zeroPadded (by decide) (by decide) _ _ _)

/-! ### The lines of the report -/

/-- The action returns, and this is what it shows. -/
def Prints (action : HandlerM Unit) (text : List Char) : Prop :=
  ∀ state, action state = .ok () { state with console := state.console ++ text }

theorem Prints.bind {first second : HandlerM Unit} {text more : List Char}
    (prints : Prints first text) (printsOn : Prints second more) :
    Prints (first >>= fun _ => second) (text ++ more) := by
  intro state
  rw [bind_of_ok (prints state), printsOn]
  simp only [List.append_assoc]

theorem prints_print {format : String} {va : List Vararg} {text : List Char}
    (formatted : vsnprintf format.toList va = .ok text) (noNul : '\x00' ∉ text) :
    Prints (print format va) text := by
  intro state
  rw [print, printf_eq_ok formatted noNul]

def register (name : String) (value : U64) : List Char :=
  name.toList ++ (" = 0x".toList ++ shownWord value)

def line (name : String) (value : U64) : List Char := register name value ++ ['\n']

def pair (left : String) (leftValue : U64) (right : String) (rightValue : U64) : List Char :=
  register left leftValue ++ ' ' :: line right rightValue

theorem vsnprintf_register {name : String} (plain : '%' ∉ name.toList) (value : U64)
    (format : List Char) (va : List Vararg) :
    vsnprintf (name.toList ++ (" = 0x%016lX".toList ++ format)) (.word value :: va) =
      (vsnprintf format va).map (register name value ++ ·) := by
  have split : " = 0x%016lX".toList = " = 0x".toList ++ '%' :: "016lX".toList := by
    decide
  rw [vsnprintf_append plain, split, List.append_assoc, vsnprintf_append (by decide),
    List.cons_append, vsnprintf_directive (directive_016lX format value va)]
  cases vsnprintf format va with
  | error fault => rfl
  | ok text => simp [Except.map, register]

theorem nul_notMem_register {name : String} (noNul : '\x00' ∉ name.toList) (value : U64) :
    '\x00' ∉ register name value := by
  simp [register, noNul, nul_notMem_shownWord]

theorem prints_dump {name : String} (plain : '%' ∉ name.toList) (noNul : '\x00' ∉ name.toList)
    (value : U64) : Prints (dump name value) (line name value) := by
  have format : (name ++ " = 0x%016lX\n").toList =
      name.toList ++ (" = 0x%016lX".toList ++ ['\n']) := by
    rw [String.toList_append]
    exact congrArg (name.toList ++ ·) (by decide)
  apply prints_print
  · rw [format, vsnprintf_register plain, vsnprintf_cons_of_ne (by decide), vsnprintf_nil]
    rfl
  · simp [line, nul_notMem_register noNul]

theorem prints_dumpPair {left right : String} (leftPlain : '%' ∉ left.toList)
    (leftNoNul : '\x00' ∉ left.toList) (rightPlain : '%' ∉ right.toList)
    (rightNoNul : '\x00' ∉ right.toList) (leftValue rightValue : U64) :
    Prints (dumpPair left leftValue right rightValue)
      (pair left leftValue right rightValue) := by
  have format : (left ++ " = 0x%016lX " ++ right ++ " = 0x%016lX\n").toList =
      left.toList ++ (" = 0x%016lX".toList ++
        ' ' :: (right.toList ++ (" = 0x%016lX".toList ++ ['\n']))) := by
    simp
  apply prints_print
  · rw [format, vsnprintf_register leftPlain, vsnprintf_cons_of_ne (by decide),
      vsnprintf_register rightPlain, vsnprintf_cons_of_ne (by decide), vsnprintf_nil]
    rfl
  · simp [pair, line, nul_notMem_register leftNoNul, nul_notMem_register rightNoNul]

def banner (hours minutes seconds : U8) : List Char :=
  "[ISRERR]\n\x1b[90m".toList ++ (shownByte hours ++ (":".toList ++ (shownByte minutes ++
    (":".toList ++ (shownByte seconds ++
      "\x1b[0m \x1b[91mPANIC\x1b[0m \x1b[90msrc/cpu/idt.c:isr_handler:114\x1b[0m ".toList)))))

theorem prints_printBanner (environment : Environment) :
    Prints (printBanner environment)
      (banner environment.hours environment.minutes environment.seconds) := by
  have format :
      "\x1b[90m%02x:%02x:%02x\x1b[0m \x1b[91mPANIC\x1b[0m \x1b[90m%s:%s:%u\x1b[0m ".toList =
        "\x1b[90m".toList ++ '%' :: ("02x".toList ++ (':' :: '%' :: ("02x".toList ++
          (':' :: '%' :: ("02x".toList ++ ("\x1b[0m \x1b[91mPANIC\x1b[0m \x1b[90m".toList ++
            '%' :: 's' :: ':' :: '%' :: 's' :: ':' :: '%' :: 'u' :: "\x1b[0m ".toList)))))) := by
    decide
  have lineNumber (format : List Char) (va : List Vararg) :
      directive ('u' :: format) (.word 114 :: va) = .ok ("114".toList, format, va) := by
    have shown : ntoaLong 114 false 10 0 0 {} = "114".toList := by
      decide
    rw [← shown]
    rfl
  have suffix : vsnprintf "\x1b[0m ".toList [] = .ok "\x1b[0m ".toList := by
    have plain := vsnprintf_append (show '%' ∉ "\x1b[0m ".toList by decide) [] []
    rwa [List.append_nil, vsnprintf_nil] at plain
  have head : "[ISRERR]\n\x1b[90m".toList = "[ISRERR]\n".toList ++ "\x1b[90m".toList := by
    decide
  have tail :
      "\x1b[0m \x1b[91mPANIC\x1b[0m \x1b[90msrc/cpu/idt.c:isr_handler:114\x1b[0m ".toList =
        "\x1b[0m \x1b[91mPANIC\x1b[0m \x1b[90m".toList ++ ("src/cpu/idt.c".toList ++ (':' ::
          ("isr_handler".toList ++ (':' :: ("114".toList ++ "\x1b[0m ".toList))))) := by
    decide
  unfold banner
  rw [head, tail, List.append_assoc]
  apply Prints.bind
  · apply prints_print
    · have plain := vsnprintf_append (show '%' ∉ "[ISRERR]\n".toList by decide) [] []
      rwa [List.append_nil, vsnprintf_nil] at plain
    · decide
  · apply prints_print
    · rw [format, vsnprintf_append (by decide), vsnprintf_directive (directive_02x _ _ _),
        vsnprintf_cons_of_ne (by decide), vsnprintf_directive (directive_02x _ _ _),
        vsnprintf_cons_of_ne (by decide), vsnprintf_directive (directive_02x _ _ _),
        vsnprintf_append (by decide), vsnprintf_directive (directive_s _ _ _),
        vsnprintf_cons_of_ne (by decide), vsnprintf_directive (directive_s _ _ _),
        vsnprintf_cons_of_ne (by decide), vsnprintf_directive (lineNumber _ _), suffix]
      rfl
    · simp [nul_notMem_shownByte]

/-- The report, with the lines in the order in which they are printed. -/
def reportText (environment : Environment) (r : Registers) (message : String) : List Char :=
  (message.toList ++ (" [".toList ++ (Nat.toDigits 10 r.error.toNat ++ "]\n".toList))) ++
    (line "Faulting Address (RIP)" r.rip ++
      (pair "R15" r.r15 "R14" r.r14 ++ (pair "R13" r.r13 "R12" r.r12 ++
        (pair "R11" r.r11 "R10" r.r10 ++ (pair "R9 " r.r9 "R8 " r.r8 ++
          (pair "RBP" r.rbp "RSP" r.rsp ++ (pair "RSI" r.rsi "RDI" r.rdi ++
            (pair "RDX" r.rdx "RCX" r.rcx ++ (pair "RBX" r.rbx "RAX" r.rax ++
              (pair "CS " r.cs "SS " r.ss ++
                (pair "CR4" environment.cr4 "CR3" environment.cr3 ++
                  (pair "CR2" environment.cr2 "CR0" environment.cr0 ++
                    line "RFLAGS" r.rflags))))))))))))

theorem prints_printReport (environment : Environment) (r : Registers) {message : String}
    (noNul : '\x00' ∉ message.toList) :
    Prints (printReport environment r message) (reportText environment r message) := by
  have format : "%s [%lu]\n".toList =
      '%' :: 's' :: (" [".toList ++ '%' :: ("lu".toList ++ "]\n".toList)) := by
    decide
  have suffix : vsnprintf "]\n".toList [] = .ok "]\n".toList := by
    have plain := vsnprintf_append (show '%' ∉ "]\n".toList by decide) [] []
    rwa [List.append_nil, vsnprintf_nil] at plain
  have title : Prints (print "%s [%lu]\n" [.string message.toList, .word r.error])
      (message.toList ++ (" [".toList ++ (Nat.toDigits 10 r.error.toNat ++ "]\n".toList))) := by
    apply prints_print
    · rw [format, vsnprintf_directive (directive_s _ _ _), vsnprintf_append (by decide),
        vsnprintf_directive (directive_lu _ _ _), suffix]
      rfl
    · have digits : '\x00' ∉ Nat.toDigits 10 r.error.toNat :=
        Numeral.notMem_toDigits (by decide) (by decide) _ (by rfl)
      simp [noNul, digits]
  have one {name : String} (plain : '%' ∉ name.toList ∧ '\x00' ∉ name.toList) (value : U64) :
      Prints (dump name value) (line name value) :=
    prints_dump plain.1 plain.2 value
  have two {left right : String} (leftPlain : '%' ∉ left.toList ∧ '\x00' ∉ left.toList)
      (rightPlain : '%' ∉ right.toList ∧ '\x00' ∉ right.toList) (leftValue rightValue : U64) :
      Prints (dumpPair left leftValue right rightValue) (pair left leftValue right rightValue) :=
    prints_dumpPair leftPlain.1 leftPlain.2 rightPlain.1 rightPlain.2 leftValue rightValue
  apply title.bind
  apply (one (by decide) _).bind
  iterate 11 apply (two (by decide) (by decide) _ _).bind
  exact one (by decide) _

/-! ### Reading the report -/

def readByte : Reader U8 := do
  let value ← digits 16 2 0
  return BitVec.ofNat 8 value

def readRegister (name : String) : Reader U64 := do
  literal name.toList
  literal " = 0x".toList
  let value ← digits 16 16 0
  return BitVec.ofNat 64 value

def readLine (name : String) : Reader U64 := do
  let value ← readRegister name
  literal ['\n']
  return value

def readPair (left right : String) : Reader (U64 × U64) := do
  let leftValue ← readRegister left
  literal [' ']
  let rightValue ← readLine right
  return (leftValue, rightValue)

def readReport : Reader Report := do
  literal "[ISRERR]\n\x1b[90m".toList
  let hours ← readByte
  literal ":".toList
  let minutes ← readByte
  literal ":".toList
  let seconds ← readByte
  literal "\x1b[0m \x1b[91mPANIC\x1b[0m \x1b[90msrc/cpu/idt.c:isr_handler:114\x1b[0m ".toList
  let message ← upTo '['
  let error ← numberUpTo 10 ']'
  literal "\n".toList
  let rip ← readLine "Faulting Address (RIP)"
  let (r15, r14) ← readPair "R15" "R14"
  let (r13, r12) ← readPair "R13" "R12"
  let (r11, r10) ← readPair "R11" "R10"
  let (r9, r8) ← readPair "R9 " "R8 "
  let (rbp, rsp) ← readPair "RBP" "RSP"
  let (rsi, rdi) ← readPair "RSI" "RDI"
  let (rdx, rcx) ← readPair "RDX" "RCX"
  let (rbx, rax) ← readPair "RBX" "RAX"
  let (cs, ss) ← readPair "CS " "SS "
  let (cr4, cr3) ← readPair "CR4" "CR3"
  let (cr2, cr0) ← readPair "CR2" "CR0"
  let rflags ← readLine "RFLAGS"
  return {
    hours, minutes, seconds, cr0, cr2, cr3, cr4
    message := message.dropLast
    registers := {
      r15, r14, r13, r12, r11, r10, r9, r8, rsi, rdi, rbp, rdx, rcx, rbx, rax, rip, cs, rflags,
      rsp, ss
      intNo := 0
      error := BitVec.ofNat 64 error } }

theorem reads_readByte (value : U8) : Reads readByte (shownByte value) value := by
  have read := reads_digits (digits_zeroPadded (show 1 < 16 by decide) (by decide) false 2 _)
    (readDigits_zeroPadded (by decide) (by decide) false 2
      (Nat.lt_trans value.isLt (by decide)))
  have length : (zeroPadded false 16 2 value.toNat).length = 2 :=
    length_zeroPadded false (show value.toNat < 16 ^ (1 + 1) from value.isLt)
  rw [length] at read
  have done := read.done (BitVec.ofNat 8)
  rwa [BitVec.ofNat_toNat, BitVec.setWidth_eq] at done

theorem reads_readRegister (name : String) (value : U64) :
    Reads (readRegister name) (register name value) value := by
  have read := reads_digits (digits_zeroPadded (show 1 < 16 by decide) (by decide) true 16 _)
    (readDigits_zeroPadded (by decide) (by decide) true 16
      (Nat.lt_trans value.isLt (by decide)))
  have length : (zeroPadded true 16 16 value.toNat).length = 16 :=
    length_zeroPadded true (show value.toNat < 16 ^ (15 + 1) from value.isLt)
  rw [length] at read
  have done := read.done (BitVec.ofNat 64)
  rw [BitVec.ofNat_toNat, BitVec.setWidth_eq] at done
  exact (reads_literal _).bind ((reads_literal _).bind done)

theorem reads_readLine (name : String) (value : U64) :
    Reads (readLine name) (line name value) value :=
  (reads_readRegister name value).bind ((reads_literal _).done fun _ => value)

theorem reads_readPair (left right : String) (leftValue rightValue : U64) :
    Reads (readPair left right) (pair left leftValue right rightValue)
      (leftValue, rightValue) := by
  have rest := (reads_readLine right rightValue).done fun rightValue => (leftValue, rightValue)
  exact (reads_readRegister left leftValue).bind ((reads_literal [' ']).bind rest)

theorem reads_readReport (environment : Environment) (r : Registers) {message : String}
    (noBracket : '[' ∉ message.toList) :
    Reads readReport
      (banner environment.hours environment.minutes environment.seconds ++
        reportText environment r message)
      { hours := environment.hours
        minutes := environment.minutes
        seconds := environment.seconds
        message := message.toList
        registers := { r with intNo := 0 }
        cr0 := environment.cr0
        cr2 := environment.cr2
        cr3 := environment.cr3
        cr4 := environment.cr4 } := by
  have opening : " [".toList = [' '] ++ ['['] := by
    decide
  have closing : "]\n".toList = [']'] ++ "\n".toList := by
    decide
  have message_eq : message.toList = (message.toList ++ [' ']).dropLast := by
    simp
  have error_eq : r.error = BitVec.ofNat 64 r.error.toNat := by
    rw [BitVec.ofNat_toNat, BitVec.setWidth_eq]
  have noBracket : '[' ∉ message.toList ++ [' '] := by
    simp [noBracket]
  unfold banner reportText
  simp only [opening, closing, List.append_assoc]
  apply (reads_literal _).bind
  apply (reads_readByte _).bind
  apply (reads_literal _).bind
  apply (reads_readByte _).bind
  apply (reads_literal _).bind
  apply (reads_readByte _).bind
  apply (reads_literal _).bind
  rw [← List.append_assoc message.toList, ← List.append_assoc _ ['['],
    ← List.append_assoc (Nat.toDigits 10 _)]
  apply (reads_upTo noBracket).bind
  apply (reads_numberUpTo (by decide) (by decide) (by rfl) _).bind
  apply (reads_literal _).bind
  apply (reads_readLine _ _).bind
  iterate 11 apply (reads_readPair _ _ _ _).bind
  rw [← message_eq, ← error_eq]
  exact (reads_readLine _ _).done _

/-! ### A panic is told in full -/

theorem message_plain (index : Fin 32) :
    '[' ∉ (exceptionMessages.get index).toList ∧
      '\x00' ∉ (exceptionMessages.get index).toList := by
  revert index
  decide

/-- What the report should say of an interrupted state. -/
def Environment.report (environment : Environment) (vector : Fin 32) (interrupted : Registers) :
    Report where
  hours := environment.hours
  minutes := environment.minutes
  seconds := environment.seconds
  message := (exceptionMessages.get vector).toList
  registers := { interrupted with intNo := 0 }
  cr0 := environment.cr0
  cr2 := environment.cr2
  cr3 := environment.cr3
  cr4 := environment.cr4

theorem isrHandler_report {environment : Environment} {vector : U8} {frame : Registers}
    (intNo : frame.intNo = vector.setWidth 64)
    (unregistered : environment.handlerOf vector = 0)
    (hasMessage : (vector.setWidth 64).toNat < 32) :
    ∃ console,
      isrHandler environment ⟨frame, [], []⟩ = .error .halted ⟨frame, [], console⟩ ∧
        readReport console =
          some (environment.report ⟨(vector.setWidth 64).toNat, hasMessage⟩ frame, []) := by
  rcases message_plain ⟨(vector.setWidth 64).toNat, hasMessage⟩ with ⟨noBracket, noNul⟩
  have read : readFrame ⟨frame, [], []⟩ = .ok frame ⟨frame, [], []⟩ := rfl
  have told := (reads_readReport environment frame noBracket).takes []
  rw [List.append_nil] at told
  refine ⟨_, ?_, told⟩
  rw [isrHandler, bind_of_ok read, intNo, lookup_isrHandlerTable, pure_bind,
    if_neg (not_not.mpr unregistered), bind_of_ok (prints_printBanner environment _),
    lookup_of_lt _ hasMessage, pure_bind,
    bind_of_ok (prints_printReport environment frame noNul _)]
  rfl

end Benamos.Interrupts
