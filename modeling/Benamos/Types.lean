import Mathlib.Data.BitVec

/-!
# Fixed-width types of `benami.h`
-/

namespace Benamos

abbrev U8 := BitVec 8

abbrev U16 := BitVec 16

abbrev U32 := BitVec 32

abbrev U64 := BitVec 64

abbrev Usize := BitVec 64

end Benamos
