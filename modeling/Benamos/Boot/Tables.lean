import Benamos.Boot.Init
import Benamos.Boot.Moments
import Benamos.Boot.Segment

/-!
# What the boot sequence leaves behind

`initialize_gdt` disables interrupts before it touches the table of segments and enables them only
when the table is complete and loaded and every segment register names one of its entries. No later
statement of `init` changes any of this. So at every moment at which an interrupt may arrive the
segments are in order, unlike the interrupt table.
-/

namespace Benamos.Boot

open X86 Interrupts

/-- The descriptor a selector names in the table the processor has loaded. There is no local
table. -/
def descriptorOf (cpu : Cpu) (selector : U16) : Option Segment :=
  let place := 8 * (selector.toNat / 8)
  if selector.getLsbD 2 ∨ place = 0 ∨ cpu.gdtr.limit.toNat < place + 7 then none
  else some (Segment.decode (load64 cpu.memory (cpu.gdtr.base + BitVec.ofNat 64 place)))

structure SegmentsReady (symbols : Symbols) (cpu : Cpu) : Prop where
  gdtr : cpu.gdtr = ⟨5 * 8 - 1, symbols.object .globalDescriptorTable⟩
  kernelCode : descriptorOf cpu 0x08 = some ⟨0, 0xFFFFF, 0b10011010, 0x2⟩
  kernelData : descriptorOf cpu 0x10 = some ⟨0, 0xFFFFF, 0b10010010, 0xC⟩
  userCode : descriptorOf cpu 0x18 = some ⟨0, 0xFFFFF, 0b11111010, 0x2⟩
  userData : descriptorOf cpu 0x20 = some ⟨0, 0xFFFFF, 0b11110010, 0x2⟩
  others : ∀ selector : U16, 0x28 ≤ selector.toNat → descriptorOf cpu selector = none
  code : cpu.segments .cs = 0x08
  data : ∀ segment, segment ≠ .cs → cpu.segments segment = 0x10

/-! ### The table of segments -/

/-- The descriptors in the order in which they are appended. -/
def kernelSegments : List SegmentDescriptor :=
  [createKernelCodeSegment, createKernelDataSegment, createUserCodeSegment, createUserDataSegment]

def gdtEntry (symbols : Symbols) (index : ℕ) : U64 :=
  symbols.object .globalDescriptorTable + BitVec.ofNat 64 (8 * index)

/-- The first entries after the null descriptor hold these descriptors. -/
def Entries (symbols : Symbols) (descriptors : List SegmentDescriptor) (memory : Memory) : Prop :=
  ∀ (index : ℕ) (descriptor : SegmentDescriptor), descriptors[index]? = some descriptor →
    load64 memory (gdtEntry symbols (index + 1)) = descriptor.bits

/-- The table holds the null descriptor and `descriptors`, and nothing else was written since
`start`. -/
structure Holding (symbols : Symbols) (start : Cpu) (descriptors : List SegmentDescriptor)
    (cpu : Cpu) : Prop where
  length_eq : tableLength symbols cpu = BitVec.ofNat 64 (descriptors.length + 1)
  entries : Entries symbols descriptors cpu.memory
  null : load64 cpu.memory (gdtEntry symbols 0) = load64 start.memory (gdtEntry symbols 0)
  same : ∀ item, item ≠ .globalDescriptorTable → symbols.Same item cpu.memory start.memory

section

variable {symbols : Symbols} {cpu start : Cpu} {descriptors : List SegmentDescriptor}

theorem toNat_gdtEntry (symbols : Symbols) {index : ℕ} (inside : index < 13) :
    (gdtEntry symbols index).toNat =
      (symbols.object .globalDescriptorTable).toNat + 8 * index := by
  apply symbols.toNat_offset
  simp only [Object.size]
  omega

theorem fits_gdt (symbols : Symbols) :
    (symbols.object .globalDescriptorTable).toNat + 104 ≤ 2 ^ 64 :=
  symbols.fits .globalDescriptorTable

theorem load_gdtEntry_store {index other : ℕ} (memory : Memory) (value : U64)
    (inside : index < 13) (otherInside : other < 13) (distinct : index ≠ other) :
    load64 (store64 memory (gdtEntry symbols other) value) (gdtEntry symbols index) =
      load64 memory (gdtEntry symbols index) := by
  have fits := fits_gdt symbols
  have place := toNat_gdtEntry symbols inside
  have otherPlace := toNat_gdtEntry symbols otherInside
  apply @load_store_disjoint memory _ _ 8 8
  · omega
  · omega
  · omega

theorem holding_start (symbols : Symbols) (start : Cpu) :
    Holding symbols start [] (execute clearInterrupts (setLength symbols 1 start)) where
  length_eq := tableLength_setLength symbols 1 start
  entries index descriptor here := by simp at here
  null := @load_gdtEntry_store symbols 0 12 _ _ (by decide) (by decide) (by decide)
  same item isOther :=
    same_storeAt symbols (Ne.symm isOther) 96 8 rfl 1 (by decide) (by decide) start

theorem Holding.append (holding : Holding symbols start descriptors cpu)
    (descriptor : SegmentDescriptor) (room : descriptors.length < 11) :
    Holding symbols start (descriptors ++ [descriptor])
      (execute (appendEntry symbols descriptor) cpu) := by
  rcases holding with ⟨length_eq, entries, null, same⟩
  have next : (tableLength symbols cpu).toNat = descriptors.length + 1 := by
    rw [length_eq, BitVec.toNat_ofNat, Nat.mod_eq_of_lt (by omega)]
  -- The two stores of the statement: the entry behind the last one, and the length.
  have memory_eq : (execute (appendEntry symbols descriptor) cpu).memory =
      store64 (store64 cpu.memory (gdtEntry symbols (descriptors.length + 1)) descriptor.bits)
        (gdtEntry symbols 12) (BitVec.ofNat 64 (descriptors.length + 2)) := by
    have stored : tableLength symbols
        (storeAt (gdtEntry symbols (descriptors.length + 1)) 8 descriptor.bits cpu) =
          tableLength symbols cpu :=
      @load_gdtEntry_store symbols 12 (descriptors.length + 1) _ _ (by decide) (by omega)
        (by omega)
    have succ : BitVec.ofNat 64 (descriptors.length + 2) =
        BitVec.ofNat 64 (descriptors.length + 1) + 1 :=
      BitVec.ofNat_add (descriptors.length + 1) 1
    simp only [appendEntry, execute_cons, execute_nil, next]
    change store64 _ _ (tableLength symbols _ + 1) = _
    rw [← gdtEntry, stored, length_eq, succ]
    rfl
  constructor
  · rw [tableLength, memory_eq, List.length_append]
    exact load64_store64_same _ _ _
  · intro index other here
    rw [memory_eq]
    have inside := (List.getElem?_eq_some_iff.mp here).1
    simp only [List.length_append, List.length_singleton] at inside
    rw [load_gdtEntry_store _ _ (by omega) (by omega) (by omega)]
    by_cases last : index = descriptors.length
    · rw [last, List.getElem?_concat_length, Option.some_inj] at here
      rw [last, load64_store64_same, here]
    · rw [load_gdtEntry_store _ _ (by omega) (by omega) (by omega)]
      apply entries _ _
      rwa [List.getElem?_append_left (by omega)] at here
  · rw [memory_eq, load_gdtEntry_store _ _ (by omega) (by omega) (by omega),
      load_gdtEntry_store _ _ (by omega) (by omega) (by omega), null]
  · intro item isOther
    rw [memory_eq]
    apply Symbols.Same.store _ (Ne.symm isOther) (8 * 12) 8 rfl _ (by decide) (by decide)
    apply (same item isOther).store (Ne.symm isOther) (8 * (descriptors.length + 1)) 8 rfl
    · simp only [Object.size]
      omega
    · decide

theorem gdtr_setGdt (symbols : Symbols) (cpu : Cpu) :
    (execute (setGdt symbols) cpu).gdtr =
      ⟨(cpu.registers .rdi).setWidth 16, cpu.registers .rsi⟩ := by
  have fits := symbols.fits .gdtr
  have place : (symbols.object .gdtr + 2#64).toNat = (symbols.object .gdtr).toNat + 2 :=
    symbols.toNat_offset .gdtr (by decide)
  simp only [Object.size] at fits
  simp only [setGdt, execute_cons, execute_nil, storeAt, lgdt, TableRegister.mk.injEq]
  constructor
  · rw [@load_store_disjoint _ _ _ 8 2 _ (by omega) (by omega) (by omega)]
    exact @load_store_same cpu.memory _ 2 _ (by decide)
  · exact @load_store_same _ _ 8 _ (by decide)

/-! ### After `initialize_gdt` -/

/-- The code of `initialize_gdt` before interrupts are enabled. -/
def segmentSetup (symbols : Symbols) : List Statement :=
  [setLength symbols 1] ++ clearInterrupts ++ appendEntry symbols createKernelCodeSegment ++
    appendEntry symbols createKernelDataSegment ++ appendEntry symbols createUserCodeSegment ++
    appendEntry symbols createUserDataSegment ++ callSetGdt symbols ++ reloadSegments symbols

theorem initializeGdt_eq (symbols : Symbols) :
    initializeGdt symbols = segmentSetup symbols ++ setInterrupts := rfl

/-- The table, the register that describes it and the segment registers. -/
structure Loaded (symbols : Symbols) (cpu : Cpu) : Prop where
  gdtr : cpu.gdtr = ⟨5 * 8 - 1, symbols.object .globalDescriptorTable⟩
  entries : Entries symbols kernelSegments cpu.memory
  code : cpu.segments .cs = 0x08
  data : ∀ segment, segment ≠ .cs → cpu.segments segment = 0x10

theorem holding_kernelSegments (symbols : Symbols) (start : Cpu) :
    Holding symbols start kernelSegments
      (execute ([setLength symbols 1] ++ clearInterrupts ++
        appendEntry symbols createKernelCodeSegment ++
        appendEntry symbols createKernelDataSegment ++
        appendEntry symbols createUserCodeSegment ++
        appendEntry symbols createUserDataSegment) start) := by
  have code := (holding_start symbols start).append createKernelCodeSegment (by decide)
  have data := code.append createKernelDataSegment (by decide)
  have userCode := data.append createUserCodeSegment (by decide)
  have userData := userCode.append createUserDataSegment (by decide)
  simp only [execute_append]
  exact userData

theorem segments_reloadSegments (symbols : Symbols) (cpu : Cpu) :
    (execute (reloadSegments symbols) cpu).segments .cs = 0x08 ∧
      ∀ segment, segment ≠ .cs →
        (execute (reloadSegments symbols) cpu).segments segment = 0x10 := by
  simp only [reloadSegments, execute_cons, execute_nil, movSegment, Cpu.setRegister,
    Function.update_self, BitVec.setWidth_append_eq_right]
  constructor
  · simp
  · intro segment notCode
    cases segment with
    | cs => contradiction
    | ss => simp
    | ds => simp
    | es => simp
    | fs => simp
    | gs => simp

theorem same_callSetGdt_of_ne (symbols : Symbols) (cpu : Cpu) {item : Object}
    (isOther : item ≠ .gdtr) :
    symbols.Same item (execute (callSetGdt symbols) cpu).memory cpu.memory := by
  have unchanged := Symbols.Same.refl symbols item cpu.memory
  simp only [callSetGdt, setGdt, execute_cons, execute_nil, storeAt, lgdt]
  apply Symbols.Same.store _ isOther.symm 2 8 rfl _ (by decide) (by decide)
  exact unchanged.store isOther.symm 0 2 (BitVec.add_zero _).symm _ (by decide) (by decide)

theorem Entries.same {memory before : Memory}
    (entries : Entries symbols kernelSegments before)
    (same : symbols.Same .globalDescriptorTable memory before) :
    Entries symbols kernelSegments memory := by
  intro index descriptor here
  have inside := (List.getElem?_eq_some_iff.mp here).1
  have few : kernelSegments.length = 4 := rfl
  rw [← entries index descriptor here]
  apply @Symbols.Same.load_inside symbols memory before .globalDescriptorTable same _ 8
  · simp only [Object.size]
    omega
  · decide

theorem loaded_segmentSetup (symbols : Symbols) (cpu : Cpu) :
    Loaded symbols (execute (segmentSetup symbols) cpu) ∧
      ∀ item, item ≠ .globalDescriptorTable → item ≠ .gdtr →
        symbols.Same item (execute (segmentSetup symbols) cpu).memory cpu.memory := by
  have holding := holding_kernelSegments symbols cpu
  rw [segmentSetup, execute_append, execute_append]
  generalize execute _ cpu = filled at holding ⊢
  rcases segments_reloadSegments symbols (execute (callSetGdt symbols) filled) with ⟨code, data⟩
  refine ⟨⟨?_, ?_, code, data⟩, ?_⟩
  · change (execute (callSetGdt symbols) filled).gdtr = _
    rw [callSetGdt, execute_cons, gdtr_setGdt, holding.length_eq]
    simp [Cpu.setRegister, kernelSegments]
  · apply holding.entries.same
    rw [memory_reloadSegments]
    exact same_callSetGdt_of_ne symbols filled (by decide)
  · intro item notTable notRegister
    rw [memory_reloadSegments]
    exact (same_callSetGdt_of_ne symbols filled notRegister).trans (holding.same item notTable)

/-! ### What a selector names -/

theorem descriptorOf_entry (loaded : Loaded symbols cpu) {selector : U16} {index : ℕ}
    {descriptor : SegmentDescriptor} (here : kernelSegments[index]? = some descriptor)
    (global : selector.getLsbD 2 = false) (selector_eq : selector.toNat / 8 = index + 1) :
    descriptorOf cpu selector = some (Segment.decode descriptor.bits) := by
  have inside := (List.getElem?_eq_some_iff.mp here).1
  have few : kernelSegments.length = 4 := rfl
  have limit : cpu.gdtr.limit.toNat = 39 := by
    rw [loaded.gdtr]
    rfl
  have base : cpu.gdtr.base = symbols.object .globalDescriptorTable := by rw [loaded.gdtr]
  rw [descriptorOf, selector_eq, global, base, if_neg (by simp; omega), ← gdtEntry,
    loaded.entries index descriptor here]

theorem descriptorOf_past (loaded : Loaded symbols cpu) {selector : U16}
    (past : 0x28 ≤ selector.toNat) : descriptorOf cpu selector = none := by
  have limit : cpu.gdtr.limit.toNat = 39 := by
    rw [loaded.gdtr]
    rfl
  apply if_pos
  right
  right
  omega

theorem Loaded.segmentsReady (loaded : Loaded symbols cpu) : SegmentsReady symbols cpu where
  gdtr := loaded.gdtr
  kernelCode := (descriptorOf_entry loaded (show kernelSegments[0]? = some _ by rfl) rfl rfl).trans
    (congrArg some (decode_bits_createSegment _ _ _ _))
  kernelData := (descriptorOf_entry loaded (show kernelSegments[1]? = some _ by rfl) rfl rfl).trans
    (congrArg some (decode_bits_createSegment _ _ _ _))
  userCode := (descriptorOf_entry loaded (show kernelSegments[2]? = some _ by rfl) rfl rfl).trans
    (congrArg some (decode_bits_createSegment _ _ _ _))
  userData := (descriptorOf_entry loaded (show kernelSegments[3]? = some _ by rfl) rfl rfl).trans
    (congrArg some (decode_bits_createSegment _ _ _ _))
  others _ past := descriptorOf_past loaded past
  code := loaded.code
  data := loaded.data

/-! ### While the segments are not in order -/

def Disabled (cpu : Cpu) : Prop := cpu.rflags.getLsbD Flag.interrupt = false

theorem keeps_disabled_outb (port : U16) (value : U8) : Keeps Disabled (outb port value) :=
  .cons (fun _ off => off) (.cons (fun _ off => off) (.cons (fun _ off => off) .nil))

theorem keeps_disabled_initializeCom1 : Keeps Disabled initializeCom1 := by
  rw [initializeCom1]
  iterate 6 apply Keeps.append _ (keeps_disabled_outb _ _)
  exact keeps_disabled_outb _ _

theorem keeps_disabled_appendEntry (descriptor : SegmentDescriptor) :
    Keeps Disabled (appendEntry symbols descriptor) :=
  .cons (fun _ off => off) (.cons (fun _ off => off) .nil)

theorem keeps_disabled_segmentSetup (symbols : Symbols) :
    Keeps Disabled (segmentSetup symbols) := by
  have disable : Keeps Disabled clearInterrupts :=
    .cons (fun cpu _ => getLsbD_writeFlag_self false cpu.rflags (by decide)) .nil
  have load : Keeps Disabled (callSetGdt symbols) :=
    .cons (fun _ off => off) (.cons (fun _ off => off)
      (.cons (fun _ off => off) (.cons (fun _ off => off) .nil)))
  have reload : Keeps Disabled (reloadSegments symbols) := by
    rw [reloadSegments]
    iterate 8 refine .cons (fun _ off => off) ?_
    exact .nil
  rw [segmentSetup]
  apply Keeps.append _ reload
  apply Keeps.append _ load
  iterate 4 apply Keeps.append _ (keeps_disabled_appendEntry _)
  exact Keeps.append (.cons (fun _ off => off) .nil) disable

/-! ### After the segments are in order -/

theorem Loaded.next {next : Cpu} (loaded : Loaded symbols cpu)
    (same : symbols.Same .globalDescriptorTable next.memory cpu.memory)
    (gdtr : next.gdtr = cpu.gdtr) (segments : next.segments = cpu.segments) :
    Loaded symbols next where
  gdtr := gdtr.trans loaded.gdtr
  entries := Entries.same loaded.entries same
  code := by rw [segments, loaded.code]
  data segment notCode := by rw [segments, loaded.data segment notCode]

/-- A store into another object. -/
theorem Loaded.storeAt {item : Object} (isOther : item ≠ .globalDescriptorTable)
    {place : U64} (offset size : ℕ)
    (place_eq : place = symbols.object item + BitVec.ofNat 64 offset)
    (value : BitVec (8 * size)) (inside : offset + size ≤ item.size) (positive : 0 < size)
    (loaded : Loaded symbols cpu) : Loaded symbols (storeAt place size value cpu) :=
  loaded.next (same_storeAt symbols isOther offset size place_eq value inside positive cpu) rfl rfl

theorem keeps_loaded_registerIsr (isr : U64) (vector : U8) (cpu : Cpu)
    (loaded : Loaded symbols cpu) : Loaded symbols (registerIsr symbols isr vector cpu) := by
  have small := vector.isLt
  apply loaded.storeAt (show Object.interruptTable ≠ _ by decide) (16 * vector.toNat) 16 rfl
  · simp only [Object.size]
    omega
  · decide

theorem keeps_loaded_initializeIdt (symbols : Symbols) (leftover : Leftover) :
    Keeps (Loaded symbols) (initializeIdt symbols leftover) := by
  have stubs : Keeps (Loaded symbols) (setInterruptsInTable symbols) := by
    intro statement mem cpu loaded
    rcases List.mem_map.mp mem with ⟨vector, _, rfl⟩
    exact keeps_loaded_registerIsr _ vector cpu loaded
  have handlers : Keeps (Loaded symbols) (loadCustomInterrupts symbols) :=
    .cons (fun _ loaded => loaded.storeAt (show Object.isrHandlerTable ≠ _ by decide) (8 * 3) 8
      rfl symbols.breakpoint (by decide) (by decide)) .nil
  have limit (cpu : Cpu) (loaded : Loaded symbols cpu) : Loaded symbols
      (storeAt (symbols.object .idtr) 2 ((cpu.registers .rdi).setWidth 16) cpu) :=
    loaded.storeAt (show Object.idtr ≠ _ by decide) 0 2 (BitVec.add_zero _).symm _ (by decide)
      (by decide)
  have base (cpu : Cpu) (loaded : Loaded symbols cpu) : Loaded symbols
      (storeAt (symbols.object .idtr + 2#64) 8 (cpu.registers .rsi) cpu) :=
    loaded.storeAt (show Object.idtr ≠ _ by decide) 2 8 rfl _ (by decide) (by decide)
  have unchanged {next : Cpu → Cpu} (memory : ∀ cpu, (next cpu).memory = cpu.memory)
      (gdtr : ∀ cpu, (next cpu).gdtr = cpu.gdtr)
      (segments : ∀ cpu, (next cpu).segments = cpu.segments) (cpu : Cpu)
      (loaded : Loaded symbols cpu) : Loaded symbols (next cpu) := by
    apply loaded.next _ (gdtr cpu) (segments cpu)
    rw [memory]
    exact Symbols.Same.refl _ _ _
  apply Keeps.append (Keeps.append stubs handlers)
  exact .cons (unchanged (fun _ => rfl) (fun _ => rfl) fun _ => rfl)
    (.cons limit (.cons base (.cons (unchanged (fun _ => rfl) (fun _ => rfl) fun _ => rfl) .nil)))

theorem keeps_loaded_initializePaging (symbols : Symbols) (report : U32 → Cpu.Leaf) :
    Keeps (Loaded symbols) (initializePaging symbols report) :=
  .cons (fun cpu loaded => loaded.storeAt (show Object.maxPhysAddr ≠ _ by decide) 0 8
    (BitVec.add_zero _).symm (maxPhysAddrBits report cpu) (by decide) (by decide)) .nil

theorem keeps_loaded_setInterrupts (symbols : Symbols) :
    Keeps (Loaded symbols) setInterrupts :=
  .cons (fun _ loaded => loaded.next (Symbols.Same.refl _ _ _) rfl rfl) .nil

theorem loaded_initializeGdt (symbols : Symbols) (cpu : Cpu) :
    Loaded symbols (execute (initializeGdt symbols) cpu) := by
  rw [initializeGdt_eq, execute_append]
  exact (keeps_loaded_setInterrupts symbols).execute (loaded_segmentSetup symbols cpu).1

end

end Benamos.Boot
