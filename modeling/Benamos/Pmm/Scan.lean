import Benamos.Pmm.Marking
import Mathlib.Data.Finset.Card
import Mathlib.Algebra.BigOperators.Group.List.Basic

/-!
# Scanning one list of bitmaps and marking what was found

`alloc_page` scans a list for the first clear bit and then marks it. If every mark sets exactly
the bit that was found, repeating the two picks every clear bit once and then reports that the
list is full. The marks do that as long as the upper halves of all bitmaps are already set.
-/

namespace Benamos.Pmm

/-! ### The scan -/

theorem ushiftRight_and_one_eq_zero_iff (bitmap : U64) (bit : ℕ) :
    (bitmap >>> bit) &&& 1 = 0 ↔ bitmap.getLsbD bit = false := by
  constructor
  · intro zero
    have low := congrArg (fun word : U64 => word.getLsbD 0) zero
    simpa using low
  · intro clear
    apply BitVec.eq_of_getLsbD_eq
    intro other other_lt
    by_cases first : other = 0
    · simp [first, clear]
    · simp [first]

theorem firstClear_eq_some_iff (bitmap : U64) (bit : ℕ) :
    firstClear bitmap = some bit ↔
      bit < 64 ∧ bitmap.getLsbD bit = false ∧ ∀ lower < bit, bitmap.getLsbD lower = true := by
  simp only [firstClear, List.find?_range_eq_some, ushiftRight_and_one_eq_zero_iff, bitmapSize,
    decide_eq_true_eq, List.mem_range, Bool.not_eq_true', decide_eq_false_iff_not,
    Bool.not_eq_false]
  constructor
  · rintro ⟨clear, bit_lt, lower⟩
    exact ⟨bit_lt, clear, lower⟩
  · rintro ⟨bit_lt, clear, lower⟩
    exact ⟨clear, bit_lt, lower⟩

theorem firstClear_eq_none_iff (bitmap : U64) :
    firstClear bitmap = none ↔ ∀ bit < 64, bitmap.getLsbD bit = true := by
  simp only [firstClear, List.find?_range_eq_none, ushiftRight_and_one_eq_zero_iff, bitmapSize,
    Bool.not_eq_true', decide_eq_false_iff_not, Bool.not_eq_false]

def Full (bitmaps : List U64) : Prop :=
  ∀ runs < bitmaps.length, ∀ bit < 64, bitSet bitmaps runs bit = true

theorem full_cons_iff (bitmap : U64) (next : List U64) :
    Full (bitmap :: next) ↔ (∀ bit < 64, bitmap.getLsbD bit = true) ∧ Full next := by
  constructor
  · intro full
    refine ⟨?_, ?_⟩
    · intro bit bit_lt
      simpa [bitSet] using full 0 (by simp) bit bit_lt
    · intro runs runs_lt bit bit_lt
      simpa [bitSet] using full (runs + 1) (by simpa using runs_lt) bit bit_lt
  · rintro ⟨head, tail⟩ runs runs_lt bit bit_lt
    cases runs with
    | zero => simpa [bitSet] using head bit bit_lt
    | succ runs => simpa [bitSet] using tail runs (by simpa using runs_lt) bit bit_lt

theorem search_eq_none_iff (bitmaps : List U64) (start : U64) :
    search bitmaps start = none ↔ Full bitmaps := by
  induction bitmaps generalizing start with
  | nil => simp [search, Full]
  | cons bitmap next ih =>
      rw [full_cons_iff, ← firstClear_eq_none_iff, search]
      cases first : firstClear bitmap with
      | none => simp [ih]
      | some bit => simp

/-- The scan finds the first clear bit of the first bitmap that has one, and counts the bitmaps it
passed. -/
theorem search_eq_some {bitmaps : List U64} {start runs : U64} {i : U8}
    (found : search bitmaps start = some (runs, i)) :
    ∃ passed, passed < bitmaps.length ∧ runs = start + BitVec.ofNat 64 passed ∧
      i.toNat < 64 ∧ bitSet bitmaps passed i.toNat = false ∧
      (∀ lower < i.toNat, bitSet bitmaps passed lower = true) ∧
      ∀ earlier < passed, ∀ bit < 64, bitSet bitmaps earlier bit = true := by
  induction bitmaps generalizing start with
  | nil => simp [search] at found
  | cons bitmap next ih =>
      rw [search] at found
      cases first : firstClear bitmap with
      | some bit =>
          simp only [first, Option.some.injEq, Prod.mk.injEq] at found
          rcases found with ⟨rfl, rfl⟩
          rcases (firstClear_eq_some_iff bitmap bit).mp first with ⟨bit_lt, clear, lower⟩
          have bitEq : (BitVec.ofNat 8 bit).toNat = bit := by
            rw [BitVec.toNat_ofNat]
            omega
          rw [bitEq]
          refine ⟨0, by simp, by simp, bit_lt, by simpa [bitSet] using clear, ?_, by simp⟩
          intro low low_lt
          simpa [bitSet] using lower low low_lt
      | none =>
          simp only [first] at found
          rcases ih found with ⟨passed, inList, runsEq, bit_lt, clear, lower, earlier⟩
          refine ⟨passed + 1, by simpa using inList, ?_, bit_lt, by simpa [bitSet] using clear,
            ?_, ?_⟩
          · rw [runsEq, BitVec.ofNat_add, BitVec.add_assoc]
            exact congrArg (start + ·) (BitVec.add_comm _ _)
          · intro low low_lt
            simpa [bitSet] using lower low low_lt
          · intro run run_lt bit bit_lt
            cases run with
            | zero =>
                simpa [bitSet] using (firstClear_eq_none_iff bitmap).mp first bit bit_lt
            | succ run => simpa [bitSet] using earlier run (by omega) bit bit_lt

/-- From the head of a list that fits the address space the counter is the node's place. -/
theorem search_head {bitmaps : List U64} {runs : U64} {i : U8}
    (addressable : bitmaps.length < 2 ^ 64) (found : search bitmaps 0 = some (runs, i)) :
    runs.toNat < bitmaps.length ∧ i.toNat < 64 ∧ bitSet bitmaps runs.toNat i.toNat = false ∧
      (∀ lower < i.toNat, bitSet bitmaps runs.toNat lower = true) ∧
      ∀ earlier < runs.toNat, ∀ bit < 64, bitSet bitmaps earlier bit = true := by
  rcases search_eq_some found with ⟨passed, inList, runsEq, rest⟩
  have place : runs.toNat = passed := by
    subst runsEq
    simp
    omega
  rw [place]
  exact ⟨inList, rest⟩

/-- The first clear bit of the list, in the order of the scan. -/
structure FirstClear (bitmaps : List U64) (runs bit : ℕ) : Prop where
  inList : runs < bitmaps.length
  bit_lt : bit < 64
  clear : bitSet bitmaps runs bit = false
  lower : ∀ lower < bit, bitSet bitmaps runs lower = true
  earlier : ∀ earlier < runs, ∀ other < 64, bitSet bitmaps earlier other = true

theorem FirstClear.unique {bitmaps : List U64} {runs bit otherRuns otherBit : ℕ}
    (first : FirstClear bitmaps runs bit) (other : FirstClear bitmaps otherRuns otherBit) :
    runs = otherRuns ∧ bit = otherBit := by
  have clear := first.clear
  have otherClear := other.clear
  rcases Nat.lt_trichotomy runs otherRuns with before | same | after
  · rw [other.earlier runs before bit first.bit_lt] at clear
    cases clear
  · subst same
    rcases Nat.lt_trichotomy bit otherBit with low | same | high
    · rw [other.lower bit low] at clear
      cases clear
    · exact ⟨rfl, same⟩
    · rw [first.lower otherBit high] at otherClear
      cases otherClear
  · rw [first.earlier otherRuns after otherBit other.bit_lt] at otherClear
    cases otherClear

theorem search_eq_some_iff {bitmaps : List U64} (addressable : bitmaps.length < 2 ^ 64)
    (runs : U64) (i : U8) :
    search bitmaps 0 = some (runs, i) ↔ FirstClear bitmaps runs.toNat i.toNat := by
  constructor
  · intro found
    rcases search_head addressable found with ⟨inList, bit_lt, clear, lower, earlier⟩
    exact ⟨inList, bit_lt, clear, lower, earlier⟩
  · intro first
    cases found : search bitmaps 0 with
    | none =>
        have set := (search_eq_none_iff bitmaps 0).mp found runs.toNat first.inList i.toNat
          first.bit_lt
        rw [first.clear] at set
        cases set
    | some pick =>
        rcases pick with ⟨otherRuns, other⟩
        rcases search_head addressable found with ⟨inList, bit_lt, clear, lower, earlier⟩
        rcases first.unique ⟨inList, bit_lt, clear, lower, earlier⟩ with ⟨sameRuns, sameBit⟩
        rw [BitVec.eq_of_toNat_eq sameRuns, BitVec.eq_of_toNat_eq sameBit]

/-! ### Scan and mark -/

def withBit (i : U8) (bitmap : U64) : U64 := bitmap ||| BitVec.twoPow 64 i.toNat

/-- Repeating scan-and-mark on a list: the blocks picked, in order, and the bitmaps left. -/
inductive ScanRun : List U64 → List (U64 × U8) → List U64 → Prop
  | stop (bitmaps : List U64) : ScanRun bitmaps [] bitmaps
  | pick {bitmaps marked last : List U64} {runs : U64} {i : U8} {picks : List (U64 × U8)}
      (found : search bitmaps 0 = some (runs, i))
      (ok : markRun bitmaps runs.toNat i = .ok marked) (rest : ScanRun marked picks last) :
      ScanRun bitmaps ((runs, i) :: picks) last

def clearBits (bitmap : U64) : Finset ℕ :=
  (Finset.range bitmapSize).filter fun bit => bitmap.getLsbD bit = false

def clearCount (bitmaps : List U64) : ℕ := (bitmaps.map fun bitmap => (clearBits bitmap).card).sum

/-- Every mark of a scan-and-mark run sets exactly the bit found, and the run picks the clear bits
of the list once each before it finds the list full. -/
structure ScanMarksExactly (bitmaps : List U64) : Prop where
  marks : ∀ picks current, ScanRun bitmaps picks current → ∀ runs i,
    search current 0 = some (runs, i) →
      markRun current runs.toNat i = .ok (current.modify runs.toNat (withBit i))
  exhausts : ∃ picks last, ScanRun bitmaps picks last ∧ search last 0 = none ∧ picks.Nodup ∧
    picks.length = clearCount bitmaps

def UpperFull (bitmaps : List U64) : Prop :=
  ∀ runs < bitmaps.length, ∀ bit, 32 ≤ bit → bit < 64 → bitSet bitmaps runs bit = true

theorem bitSet_withBit (bitmaps : List U64) {target : ℕ} (inList : target < bitmaps.length)
    {i : U8} {bit : ℕ} (bit_lt : bit < 64) (runs : ℕ) :
    bitSet (bitmaps.modify target (withBit i)) runs bit =
      (bitSet bitmaps runs bit || decide (runs = target ∧ bit = i.toNat)) := by
  have modified : bitSet (bitmaps.modify target (withBit i)) runs bit = _ :=
    bitSet_modify bitmaps inList (BitVec.twoPow 64 i.toNat) runs bit
  rw [modified, BitVec.getLsbD_twoPow]
  congr 1
  grind

/-- Marking what the scan finds sets that bit alone if the upper halves are set. -/
theorem markRun_of_upperFull {bitmaps : List U64} (upper : UpperFull bitmaps) {runs : ℕ} {i : U8}
    (inList : runs < bitmaps.length) (i_lt : i.toNat < 64)
    (clear : bitSet bitmaps runs i.toNat = false) :
    markRun bitmaps runs i = .ok (bitmaps.modify runs (withBit i)) := by
  have low : i.toNat < 32 := by
    by_contra high
    have set := upper runs inList i.toNat (by omega) i_lt
    rw [set] at clear
    cases clear
  rw [markRun_eq, if_pos inList, oneShiftedBy_of_lt low, Except.map]
  congr 1
  apply List.ext_getElem (by simp)
  intro other other_lt _
  rw [List.getElem_modify, List.getElem_modify]
  split
  · next same =>
      subst same
      apply BitVec.eq_of_getLsbD_eq
      intro bit bit_lt
      have upperSet := upper runs inList bit
      simp only [bitSet, List.getElem?_eq_getElem inList, Option.getD_some] at upperSet
      simp only [withBit, BitVec.getLsbD_or, getLsbD_shiftedOne low bit_lt,
        BitVec.getLsbD_twoPow]
      grind
  · rfl

theorem upperFull_withBit {bitmaps : List U64} (upper : UpperFull bitmaps) {runs : ℕ} {i : U8}
    (inList : runs < bitmaps.length) : UpperFull (bitmaps.modify runs (withBit i)) := by
  intro other other_lt bit high bit_lt
  rw [List.length_modify] at other_lt
  simp [bitSet_withBit bitmaps inList bit_lt, upper other other_lt bit high bit_lt]

theorem clearCount_withBit {bitmaps : List U64} {runs : ℕ} {i : U8}
    (inList : runs < bitmaps.length) (i_lt : i.toNat < 64)
    (clear : bitSet bitmaps runs i.toNat = false) :
    clearCount (bitmaps.modify runs (withBit i)) + 1 = clearCount bitmaps := by
  induction bitmaps generalizing runs with
  | nil => simp at inList
  | cons bitmap next ih =>
      cases runs with
      | zero =>
          have isClear : i.toNat ∈ clearBits bitmap := by
            simpa [clearBits, bitmapSize, i_lt, bitSet] using clear
          have erased : clearBits (withBit i bitmap) = (clearBits bitmap).erase i.toNat := by
            ext bit
            simp only [clearBits, withBit, Finset.mem_filter, Finset.mem_range, Finset.mem_erase,
              BitVec.getLsbD_or, BitVec.getLsbD_twoPow]
            grind
          have counted := Finset.card_erase_add_one isClear
          simp only [clearCount, List.modify_zero_cons, List.map_cons, List.sum_cons, erased]
          omega
      | succ runs =>
          have tail : clearCount (next.modify runs (withBit i)) + 1 = clearCount next :=
            ih (by simpa using inList) (by simpa [bitSet] using clear)
          simp only [clearCount, List.modify_succ_cons, List.map_cons, List.sum_cons] at tail ⊢
          omega

theorem clearCount_eq_zero_iff (bitmaps : List U64) : clearCount bitmaps = 0 ↔ Full bitmaps := by
  induction bitmaps with
  | nil => simp [clearCount, Full]
  | cons bitmap next ih =>
      rw [full_cons_iff, ← ih]
      simp only [clearCount, List.map_cons, List.sum_cons, Nat.add_eq_zero_iff,
        Finset.card_eq_zero, clearBits, Finset.filter_eq_empty_iff, Finset.mem_range, bitmapSize,
        Bool.not_eq_false]

/-! ### Runs of scan and mark -/

theorem ScanRun.upperFull {bitmaps current : List U64} {picks : List (U64 × U8)}
    (run : ScanRun bitmaps picks current) (addressable : bitmaps.length < 2 ^ 64)
    (upper : UpperFull bitmaps) : UpperFull current ∧ current.length < 2 ^ 64 := by
  induction run with
  | stop bitmaps => exact ⟨upper, addressable⟩
  | pick found ok rest ih =>
      rcases search_head addressable found with ⟨inList, i_lt, clear, _⟩
      rw [markRun_of_upperFull upper inList i_lt clear, Except.ok.injEq] at ok
      subst ok
      exact ih (by simpa using addressable) (upperFull_withBit upper inList)

/-- Every pick of a run is a bit that was clear at its start, and no pick comes twice. -/
theorem ScanRun.picks_clear {bitmaps current : List U64} {picks : List (U64 × U8)}
    (run : ScanRun bitmaps picks current) (addressable : bitmaps.length < 2 ^ 64)
    (upper : UpperFull bitmaps) :
    (∀ pick ∈ picks, pick.2.toNat < 64 ∧ bitSet bitmaps pick.1.toNat pick.2.toNat = false) ∧
      picks.Nodup := by
  induction run with
  | stop bitmaps => simp
  | @pick bitmaps marked last runs i picks found ok rest ih =>
      rcases search_head addressable found with ⟨inList, i_lt, clear, _⟩
      rw [markRun_of_upperFull upper inList i_lt clear, Except.ok.injEq] at ok
      subst ok
      rcases ih (by simpa using addressable) (upperFull_withBit upper inList) with
        ⟨laterClear, laterNodup⟩
      refine ⟨?_, ?_⟩
      · intro pick mem
        rcases List.mem_cons.mp mem with rfl | later
        · exact ⟨i_lt, clear⟩
        · rcases laterClear pick later with ⟨bit_lt, clearAfter⟩
          rw [bitSet_withBit bitmaps inList bit_lt, Bool.or_eq_false_iff] at clearAfter
          exact ⟨bit_lt, clearAfter.1⟩
      · apply List.nodup_cons.mpr
        refine ⟨?_, laterNodup⟩
        intro again
        have clearAfter := (laterClear _ again).2
        simp [bitSet_withBit bitmaps inList i_lt] at clearAfter

theorem exists_scanRun (count : ℕ) (bitmaps : List U64) (addressable : bitmaps.length < 2 ^ 64)
    (upper : UpperFull bitmaps) (counted : clearCount bitmaps = count) :
    ∃ picks last, ScanRun bitmaps picks last ∧ search last 0 = none ∧ picks.length = count := by
  induction count generalizing bitmaps with
  | zero =>
      have full := (clearCount_eq_zero_iff bitmaps).mp counted
      exact ⟨[], bitmaps, .stop bitmaps, (search_eq_none_iff bitmaps 0).mpr full, rfl⟩
  | succ count ih =>
      cases found : search bitmaps 0 with
      | none =>
          have full := (search_eq_none_iff bitmaps 0).mp found
          rw [(clearCount_eq_zero_iff bitmaps).mpr full] at counted
          omega
      | some pick =>
          rcases pick with ⟨runs, i⟩
          rcases search_head addressable found with ⟨inList, i_lt, clear, _⟩
          have used := clearCount_withBit inList i_lt clear
          rcases ih (bitmaps.modify runs.toNat (withBit i)) (by simpa using addressable)
            (upperFull_withBit upper inList) (by omega) with ⟨picks, last, run, full, length⟩
          have ok := markRun_of_upperFull upper inList i_lt clear
          exact ⟨(runs, i) :: picks, last, .pick found ok run, full, by simp [length]⟩

/-- A run whose marks all set just the bit found leaves the upper halves as they were. -/
theorem ScanRun.upperFull_of_last {bitmaps last : List U64} {picks : List (U64 × U8)}
    (run : ScanRun bitmaps picks last) (addressable : bitmaps.length < 2 ^ 64)
    (marks : ∀ picks current, ScanRun bitmaps picks current → ∀ runs i,
      search current 0 = some (runs, i) →
        markRun current runs.toNat i = .ok (current.modify runs.toNat (withBit i)))
    (upperLast : UpperFull last) : UpperFull bitmaps := by
  induction run with
  | stop bitmaps => exact upperLast
  | @pick bitmaps marked last runs i picks found ok rest ih =>
      rcases search_head addressable found with ⟨inList, i_lt, clear, _⟩
      have exactly := marks [] bitmaps (.stop bitmaps) runs i found
      have low : i.toNat < 32 := by
        by_contra high
        rw [markRun_eq, if_pos inList, oneShiftedBy_of_ge (by omega)] at exactly
        cases exactly
      have markedEq : marked = bitmaps.modify runs.toNat (withBit i) := by
        rw [exactly, Except.ok.injEq] at ok
        exact ok.symm
      have upperMarked := ih (by simpa [markedEq] using addressable)
        (fun picks current run => marks ((runs, i) :: picks) current (.pick found ok run))
        upperLast
      intro other other_lt bit high bit_lt
      have set := upperMarked other (by simpa [markedEq] using other_lt) bit high bit_lt
      have notMarked : ¬(other = runs.toNat ∧ bit = i.toNat) := by omega
      simpa [markedEq, bitSet_withBit bitmaps inList bit_lt, notMarked] using set

/-- Scan-and-mark on a list picks its clear bits once each and then reports it full, marking just
the bits it picks, exactly when bits 32 to 63 of every bitmap are set from the start. -/
theorem scanMarksExactly_iff (list : BuddyList) :
    ScanMarksExactly list.bitmaps ↔ UpperFull list.bitmaps := by
  have addressable := list.addressable
  constructor
  · intro exactly
    rcases exactly.exhausts with ⟨picks, last, run, full, _⟩
    apply run.upperFull_of_last addressable exactly.marks
    intro runs runs_lt bit _ bit_lt
    exact (search_eq_none_iff last 0).mp full runs runs_lt bit bit_lt
  · intro upper
    refine ⟨?_, ?_⟩
    · intro picks current run runs i found
      rcases run.upperFull addressable upper with ⟨upperCurrent, addressableCurrent⟩
      rcases search_head addressableCurrent found with ⟨inList, i_lt, clear, _⟩
      exact markRun_of_upperFull upperCurrent inList i_lt clear
    · rcases exists_scanRun _ list.bitmaps addressable upper rfl with
        ⟨picks, last, run, full, length⟩
      exact ⟨picks, last, run, full, (run.picks_clear addressable upper).2, length⟩

/-- The list of a freshly zeroed order is not marked exactly: its 32nd pick sets 33 bits. -/
theorem not_scanMarksExactly : ¬∀ list : BuddyList, ScanMarksExactly list.bitmaps := by
  intro claim
  rcases (claim .zero).exhausts with ⟨picks, last, run, full, _⟩
  have upper := run.upperFull_of_last BuddyList.zero.addressable (claim .zero).marks
    (fun runs runs_lt bit _ bit_lt => (search_eq_none_iff last 0).mp full runs runs_lt bit bit_lt)
  have set := upper 0 (by decide) 32 (by omega) (by omega)
  exact absurd set (by decide)

end Benamos.Pmm
