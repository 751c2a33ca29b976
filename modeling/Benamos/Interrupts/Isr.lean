import Benamos.Types
import Benamos.X86.Assembly

/-!
# The interrupt stubs of `cpu/isr.asm`

Each vector with a stub has a routine of its own, written by one of the macros `ISR_NOERRCODE` and
`ISR_ERRCODE`. All of them jump to `isr_common_stub`, which saves the registers, calls `isr_handler`
and resumes the interrupted code.
-/

namespace Benamos.Interrupts

open X86

/-- The marker `ISR_NOERRCODE` pushes in the place of an error code. -/
def missingErrorCodeMagic : U64 := 0xb36b9b8e1a7d7d63

inductive StubMacro where
  | noErrCode
  | errCode
deriving DecidableEq, Repr

/-- The stubs at the end of `isr.asm`, in its order. -/
def stubTable : List (U8 × StubMacro) :=
  [(0, .noErrCode), (1, .noErrCode), (2, .noErrCode), (3, .noErrCode), (4, .noErrCode),
    (5, .noErrCode), (6, .noErrCode), (7, .noErrCode), (8, .errCode), (9, .noErrCode),
    (10, .errCode), (11, .errCode), (12, .errCode), (13, .errCode), (14, .errCode),
    (15, .noErrCode), (16, .noErrCode), (17, .noErrCode), (18, .noErrCode), (19, .noErrCode),
    (20, .noErrCode), (21, .noErrCode), (22, .noErrCode), (23, .noErrCode), (24, .noErrCode),
    (25, .noErrCode), (26, .noErrCode), (27, .noErrCode), (28, .noErrCode), (29, .noErrCode),
    (30, .noErrCode), (31, .noErrCode), (128, .noErrCode)]

/-- A vector together with the macro its stub is written with. -/
structure Stub where
  vector : U8
  stubMacro : StubMacro
  declared : (vector, stubMacro) ∈ stubTable
deriving DecidableEq

/-- The routines of `isr.asm`, and the external one they call. -/
inductive Routine where
  | isr (stub : Stub)
  | isrCommonStub
  | isrHandler
deriving DecidableEq

/-- The instructions of a stub. A `push` has no 64-bit immediate, so the assembler keeps the low 32
bits of the marker. -/
def stubText (vector : U8) : StubMacro → List (Instruction Routine)
  | .noErrCode =>
      [.pushImm (missingErrorCodeMagic.setWidth 32), .pushImm (vector.setWidth 32),
        .jmp .isrCommonStub]
  | .errCode => [.pushImm (vector.setWidth 32), .jmp .isrCommonStub]

def pushaq : List (Instruction Routine) :=
  [.push .rax, .push .rbx, .push .rcx, .push .rdx, .push .rbp, .push .rdi, .push .rsi, .push .r8,
    .push .r9, .push .r10, .push .r11, .push .r12, .push .r13, .push .r14, .push .r15]

def popaq : List (Instruction Routine) :=
  [.pop .r15, .pop .r14, .pop .r13, .pop .r12, .pop .r11, .pop .r10, .pop .r9, .pop .r8, .pop .rsi,
    .pop .rdi, .pop .rbp, .pop .rdx, .pop .rcx, .pop .rbx, .pop .rax]

def isrCommonStub : List (Instruction Routine) :=
  pushaq ++ [.mov .rdi .rsp, .cld, .call .isrHandler] ++ popaq ++ [.addImm .rsp 16, .iretq]

/-- The text of `isr.asm`; `isr_handler` is C code. -/
def isrText : Routine → List (Instruction Routine)
  | .isr stub => stubText stub.vector stub.stubMacro
  | .isrCommonStub => isrCommonStub
  | .isrHandler => []

/-! ### The lines of the text -/

def callLine : ℕ := 17

def iretqLine : ℕ := 34

/-- The registers in the order in which `popaq` pops them, which is how they lie in memory. -/
def poppedRegisters : List Register :=
  [.r15, .r14, .r13, .r12, .r11, .r10, .r9, .r8, .rsi, .rdi, .rbp, .rdx, .rcx, .rbx, .rax]

@[simp]
theorem length_poppedRegisters : poppedRegisters.length = 15 := rfl

theorem pushaq_eq : pushaq = poppedRegisters.reverse.map .push := rfl

theorem popaq_eq : popaq = poppedRegisters.map .pop := rfl

theorem mem_poppedRegisters {register : Register} (isOther : register ≠ .rsp) :
    register ∈ poppedRegisters := by
  cases register <;> simp_all [poppedRegisters]

theorem rsp_notMem_poppedRegisters : Register.rsp ∉ poppedRegisters := by
  decide

/-- The words a stub pushes, in its order. -/
def Stub.immediates (stub : Stub) : List U64 :=
  match stub.stubMacro with
  | .noErrCode => [(missingErrorCodeMagic.setWidth 32).signExtend 64, stub.vector.setWidth 64]
  | .errCode => [stub.vector.setWidth 64]

theorem signExtend_vector (vector : U8) :
    (vector.setWidth 32).signExtend 64 = vector.setWidth 64 := by
  rw [BitVec.signExtend_eq_setWidth_of_msb_false]
  · simp
  · simp [BitVec.msb_setWidth]

/-! ### A placement of the text -/

def Stub.find? (vector : U8) : Option Stub :=
  if declared : (vector, .noErrCode) ∈ stubTable then some ⟨vector, .noErrCode, declared⟩
  else if declared : (vector, .errCode) ∈ stubTable then some ⟨vector, .errCode, declared⟩
  else none

theorem Stub.find?_vector (stub : Stub) : Stub.find? stub.vector = some stub := by
  have unique : ∀ entry ∈ stubTable, entry.2 = .errCode → (entry.1, .noErrCode) ∉ stubTable := by
    decide
  rcases stub with ⟨vector, stubMacro, declared⟩
  cases stubMacro with
  | noErrCode => simp [find?, declared]
  | errCode => simp [find?, declared, unique _ declared rfl]

theorem length_isrText_lt (routine : Routine) : (isrText routine).length < 2 ^ 8 := by
  cases routine with
  | isr stub =>
      rcases stub with ⟨vector, stubMacro, declared⟩
      cases stubMacro <;> simp [isrText, stubText]
  | isrCommonStub => decide
  | isrHandler => decide

/-- The place of a line in the image below: its page, its stub and its number. -/
def pageAddress (page : BitVec 48) (vector : U8) (line : ℕ) : U64 :=
  page ++ vector ++ BitVec.ofNat 8 line

theorem extract_pageAddress (page : BitVec 48) (vector : U8) {line : ℕ} (small : line < 2 ^ 8) :
    (pageAddress page vector line).extractLsb' 16 48 = page ∧
      (pageAddress page vector line).extractLsb' 8 8 = vector ∧
      ((pageAddress page vector line).extractLsb' 0 8).toNat = line := by
  simp (disch := decide) only [pageAddress, BitVec.extractLsb'_append_eq_of_le,
    BitVec.extractLsb'_append_eq_of_add_le]
  simp only [Nat.reduceSub, BitVec.extractLsb'_eq_self, BitVec.toNat_ofNat,
    Nat.mod_eq_of_lt small, and_self]

/-- An image with the stubs on one page, the common stub on the next and the C code behind. -/
def pageImage : Image isrText where
  address
    | .isr stub => pageAddress 1 stub.vector
    | .isrCommonStub => pageAddress 2 0
    | .isrHandler => pageAddress 3 0
  locate rip :=
    let line := (rip.extractLsb' 0 8).toNat
    if rip.extractLsb' 16 48 = 1 then
      (Stub.find? (rip.extractLsb' 8 8)).map fun stub => (.isr stub, line)
    else if rip.extractLsb' 16 48 = 2 then
      some (.isrCommonStub, line)
    else
      none
  locate_address routine line inside := by
    have small := Nat.lt_trans inside (length_isrText_lt routine)
    cases routine with
    | isr stub =>
        rcases extract_pageAddress 1 stub.vector small with ⟨page, vector, line_eq⟩
        rw [line_eq, if_pos page, vector, Stub.find?_vector]
        rfl
    | isrCommonStub =>
        rcases extract_pageAddress 2 0 small with ⟨page, _, line_eq⟩
        rw [line_eq, if_neg (by rw [page]; decide), if_pos page]
    | isrHandler => simp [isrText] at inside

end Benamos.Interrupts
