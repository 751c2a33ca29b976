import Benamos.Boot.Gdt
import Mathlib.Data.Set.Function

/-!
# What a segment descriptor says

`create_segment` scatters a base and a limit over the fields of a packed struct. The struct is laid
out byte by byte here and read back the way the processor reads it.
-/

namespace Benamos.Boot

open X86

/-- The packed `segment_descriptor` in the order of its addresses. -/
def SegmentDescriptor.bytes (descriptor : SegmentDescriptor) : Vector U8 8 :=
  #v[descriptor.limit.extractLsb' 0 8, descriptor.limit.extractLsb' 8 8,
    descriptor.baseLow.extractLsb' 0 8, descriptor.baseLow.extractLsb' 8 8,
    descriptor.baseMiddle, descriptor.access, descriptor.options, descriptor.baseHigh]

theorem append_parts {width size : ℕ} (high : BitVec width) (value : BitVec size)
    (start middle low : ℕ) :
    high ++ value.extractLsb' (start + low) middle ++ value.extractLsb' start low =
      (high ++ value.extractLsb' start (middle + low)).cast (Nat.add_assoc _ _ _).symm := by
  rw [BitVec.append_assoc, BitVec.extractLsb'_append_extractLsb'_eq_extractLsb' rfl]

theorem append_halves {width : ℕ} (high : BitVec width) (value : U16) :
    high ++ value.extractLsb' 8 8 ++ value.extractLsb' 0 8 = high ++ value := by
  have whole := append_parts high value 0 8 8
  rwa [BitVec.extractLsb'_eq_self] at whole

theorem word_bytes (descriptor : SegmentDescriptor) :
    word descriptor.bytes = descriptor.bits := by
  rw [SegmentDescriptor.bits, ← append_halves, ← append_halves]
  rfl

/-! ### The fields of `create_segment` -/

theorem options_eq (limit : U32) (flags : U8) :
    (((limit >>> 16) &&& 0x0F) ||| ((flags.setWidth 32 <<< 4) &&& 0xF0)).setWidth 8 =
      flags.extractLsb' 0 4 ++ limit.extractLsb' 16 4 := by
  apply BitVec.eq_of_getLsbD_eq
  intro bit inside
  have nibble : (0x0F#32).getLsbD bit = decide (bit < 4) := by
    revert bit
    decide
  have high : (0xF0#32).getLsbD bit = decide (4 ≤ bit) := by
    revert bit
    decide
  simp only [BitVec.getLsbD_setWidth, BitVec.getLsbD_or, BitVec.getLsbD_and,
    BitVec.getLsbD_append, BitVec.getLsbD_shiftLeft, BitVec.getLsbD_ushiftRight,
    BitVec.getLsbD_extractLsb']
  grind

theorem low_half (value : U32) :
    (value &&& 0xFFFF).setWidth 16 = value.extractLsb' 0 16 := by
  rw [setWidth_and_ones value (by decide), BitVec.setWidth_eq_extractLsb' (by decide)]

theorem byte_at (value : U32) (start : ℕ) :
    ((value >>> start) &&& 0xFF).setWidth 8 = value.extractLsb' start 8 := by
  rw [setWidth_and_ones _ (by decide), BitVec.setWidth_ushiftRight_eq_extractLsb]

/-- The fields of the descriptor, each at its place among the eight bytes. -/
theorem bits_createSegment (base limit : U32) (access flags : U8) :
    (createSegment base limit access flags).bits =
      base.extractLsb' 24 8 ++ (flags.extractLsb' 0 4 ++ limit.extractLsb' 16 4) ++ access ++
        base.extractLsb' 0 24 ++ limit.extractLsb' 0 16 := by
  have lowBase := append_parts (base.extractLsb' 24 8 ++
    (flags.extractLsb' 0 4 ++ limit.extractLsb' 16 4) ++ access) base 0 8 16
  simp only [SegmentDescriptor.bits, createSegment, options_eq, low_half, byte_at]
  exact congrArg (· ++ limit.extractLsb' 0 16) lowBase

theorem decode_bits_createSegment (base limit : U32) (access flags : U8) :
    Segment.decode (createSegment base limit access flags).bits =
      { base, limit := limit.setWidth 20, access, flags := flags.setWidth 4 } := by
  have wholeBase : base.extractLsb' 24 8 ++ base.extractLsb' 0 24 = base := by
    rw [BitVec.extractLsb'_append_extractLsb'_eq_extractLsb' (show 24 = 0 + 24 by rfl)]
    exact BitVec.extractLsb'_eq_self
  have lowLimit : limit.extractLsb' 16 4 ++ limit.extractLsb' 0 16 = limit.setWidth 20 := by
    rw [BitVec.extractLsb'_append_extractLsb'_eq_extractLsb' (show 16 = 0 + 16 by rfl),
      BitVec.setWidth_eq_extractLsb' (by decide)]
  rw [bits_createSegment, Segment.decode]
  simp (disch := decide) only [BitVec.extractLsb'_append_eq_of_le,
    BitVec.extractLsb'_append_eq_of_add_le]
  simp only [Nat.reduceAdd, Nat.reduceSub, BitVec.extractLsb'_eq_self, wholeBase, lowLimit]
  rw [← BitVec.setWidth_eq_extractLsb' (by decide)]

theorem setWidth_injOn {width size : ℕ} {value other : BitVec width}
    (small : value.toNat < 2 ^ size) (small' : other.toNat < 2 ^ size)
    (same : value.setWidth size = other.setWidth size) : value = other := by
  have numbers := congrArg BitVec.toNat same
  rw [BitVec.toNat_setWidth, BitVec.toNat_setWidth, Nat.mod_eq_of_lt small,
    Nat.mod_eq_of_lt small'] at numbers
  exact BitVec.eq_of_toNat_eq numbers

/-- The processor reads back what the descriptor was made of, cut to the widths the format has, and
no two arguments within these widths give the same bytes. -/
theorem createSegment_faithful :
    (∀ base limit access flags,
      Segment.decode (word (createSegment base limit access flags).bytes) =
        { base, limit := limit.setWidth 20, access, flags := flags.setWidth 4 }) ∧
      Set.InjOn
        (fun input : U32 × U32 × U8 × U8 =>
          (createSegment input.1 input.2.1 input.2.2.1 input.2.2.2).bytes)
        {input | input.2.1.toNat < 2 ^ 20 ∧ input.2.2.2.toNat < 16} := by
  constructor
  · intro base limit access flags
    rw [word_bytes, decode_bits_createSegment]
  · rintro ⟨base, limit, access, flags⟩ ⟨limit_lt, flags_lt⟩
      ⟨base', limit', access', flags'⟩ ⟨limit_lt', flags_lt'⟩ bytes_eq
    have decoded := congrArg (fun bytes => Segment.decode (word bytes)) bytes_eq
    simp only [word_bytes, decode_bits_createSegment, Segment.mk.injEq] at decoded
    rcases decoded with ⟨rfl, limits, rfl, nibbles⟩
    have limit_eq : limit = limit' := setWidth_injOn limit_lt limit_lt' limits
    have flags_eq : flags = flags' := setWidth_injOn flags_lt flags_lt' nibbles
    rw [limit_eq, flags_eq]

end Benamos.Boot
