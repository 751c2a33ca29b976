import Benamos.X86.Memory

/-!
# Words on a downward-growing stack

`StackHolds memory sp words` says what the 64-bit words from the stack pointer upwards are. Only the
listed words are specified: a word that was popped lies below the stack pointer and may hold
anything. The rules for one push and one pop hold for every stack pointer, also when the words wrap
around the end of the address space.
-/

namespace X86

def StackHolds (memory : Memory) (sp : BitVec 64) : List (BitVec 64) → Prop
  | [] => True
  | word :: words => load64 memory sp = word ∧ StackHolds memory (sp + 8#64) words

namespace StackHolds

variable {memory other : Memory} {sp : BitVec 64} {words : List (BitVec 64)}

theorem nil (memory : Memory) (sp : BitVec 64) : StackHolds memory sp [] := trivial

theorem store_apart {address place value : BitVec 64} (gap : ℕ)
    (holds : StackHolds memory place words) (place_eq : place = address + BitVec.ofNat 64 gap)
    (past : 8 ≤ gap) (noWrap : gap + 8 * words.length ≤ 2 ^ 64) :
    StackHolds (store64 memory address value) place words := by
  induction words generalizing place gap with
  | nil => exact nil _ _
  | cons word words ih =>
      rcases holds with ⟨top, below⟩
      rw [List.length_cons] at noWrap
      refine ⟨?_, ih (gap + 8) below ?_ (by omega) (by omega)⟩
      · rw [← top]
        exact load64_store64_apart memory value place_eq past (by omega)
      · rw [place_eq, BitVec.add_assoc, BitVec.ofNat_add]

/-- A push puts its word on top of the words that are there. -/
theorem push (holds : StackHolds memory sp words) (word : BitVec 64)
    (noWrap : 8 * (words.length + 1) ≤ 2 ^ 64) :
    StackHolds (store64 memory (sp - 8#64) word) (sp - 8#64) (word :: words) := by
  refine ⟨load64_store64_same _ _ _, ?_⟩
  rw [BitVec.sub_add_cancel]
  apply holds.store_apart 8
  · simp
  · decide
  · omega

theorem append_right {top : List (BitVec 64)} (holds : StackHolds memory sp (top ++ words)) :
    StackHolds memory (sp + BitVec.ofNat 64 (8 * top.length)) words := by
  induction top generalizing sp with
  | nil => simpa using holds
  | cons word top ih =>
      rcases holds with ⟨_, below⟩
      have rest := ih below
      rw [BitVec.add_assoc, ← BitVec.ofNat_add] at rest
      rwa [List.length_cons, Nat.mul_succ, Nat.add_comm]

theorem load_of_getElem? {line : ℕ} {word : BitVec 64} (holds : StackHolds memory sp words)
    (here : words[line]? = some word) :
    load64 memory (sp + BitVec.ofNat 64 (8 * line)) = word := by
  induction words generalizing sp line with
  | nil => simp at here
  | cons head words ih =>
      rcases holds with ⟨top, below⟩
      cases line with
      | zero =>
          rw [List.getElem?_cons_zero, Option.some_inj] at here
          rw [← here, ← top]
          simp
      | succ line =>
          rw [Nat.mul_succ, Nat.add_comm, BitVec.ofNat_add, ← BitVec.add_assoc]
          exact ih below (by simpa using here)

theorem congr {low high : ℕ} (holds : StackHolds memory sp words)
    (agree : AgreeOn low high memory other) (above : low ≤ sp.toNat)
    (below : sp.toNat + 8 * words.length ≤ high) (top : high ≤ 2 ^ 64) :
    StackHolds other sp words := by
  induction words generalizing sp with
  | nil => exact nil _ _
  | cons word words ih =>
      rcases holds with ⟨head, rest⟩
      rw [List.length_cons] at below
      refine ⟨?_, ?_⟩
      · rw [← head]
        exact agree.symm.load_eq above (by omega) top
      · cases words with
        | nil => exact nil _ _
        | cons next words =>
            rw [List.length_cons] at below
            have next_eq : (sp + 8#64).toNat = sp.toNat + 8 := toNat_add_ofNat (by omega)
            exact ih rest (by omega) (by rw [next_eq, List.length_cons]; omega)

end StackHolds

end X86
