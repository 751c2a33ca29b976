import Benamos.Boot.Kernel

/-!
# What holds at every moment of straight-line code

A property that each statement keeps holds at every moment of the code, and at its end. Statements
that store into one object keep every property of the others.
-/

namespace Benamos.Boot

open X86

/-- Each statement keeps the property. -/
def Keeps (Holds : Cpu → Prop) (code : List Statement) : Prop :=
  ∀ statement ∈ code, ∀ cpu, Holds cpu → Holds (statement cpu)

namespace Keeps

variable {Holds : Cpu → Prop} {code first second : List Statement} {statement : Statement}

theorem nil : Keeps Holds [] := by simp [Keeps]

theorem cons (keeps : ∀ cpu, Holds cpu → Holds (statement cpu)) (rest : Keeps Holds code) :
    Keeps Holds (statement :: code) := by
  intro other mem
  rcases List.mem_cons.mp mem with rfl | mem
  · exact keeps
  · exact rest other mem

theorem append (keeps : Keeps Holds first) (keepsOn : Keeps Holds second) :
    Keeps Holds (first ++ second) := by
  intro statement mem
  rcases List.mem_append.mp mem with inFirst | inSecond
  · exact keeps statement inFirst
  · exact keepsOn statement inSecond

theorem moments (keeps : Keeps Holds code) {cpu : Cpu} (holds : Holds cpu) :
    ∀ moment ∈ moments code cpu, Holds moment := by
  induction code generalizing cpu with
  | nil => simpa [Boot.moments] using holds
  | cons statement code ih =>
      intro moment mem
      rw [moments_cons] at mem
      have rest : Keeps Holds code := fun other mem => keeps other (List.mem_cons_of_mem _ mem)
      rcases List.mem_cons.mp mem with rfl | mem
      · exact holds
      · exact ih rest (keeps statement List.mem_cons_self cpu holds) moment mem

theorem execute (keeps : Keeps Holds code) {cpu : Cpu} (holds : Holds cpu) :
    Holds (execute code cpu) := by
  induction code generalizing cpu with
  | nil => exact holds
  | cons statement code ih =>
      have rest : Keeps Holds code := fun other mem => keeps other (List.mem_cons_of_mem _ mem)
      exact ih rest (keeps statement List.mem_cons_self cpu holds)

end Keeps

/-- A moment of two pieces of code is one of the first or one of the second. -/
theorem mem_moments_append {first second : List Statement} {cpu moment : Cpu}
    (mem : moment ∈ moments (first ++ second) cpu) :
    moment ∈ moments first cpu ∨ moment ∈ moments second (execute first cpu) := by
  induction first generalizing cpu with
  | nil => exact Or.inr mem
  | cons statement first ih =>
      rw [List.cons_append, moments_cons, List.mem_cons] at mem
      rw [moments_cons, List.mem_cons]
      rcases mem with rfl | mem
      · exact Or.inl (Or.inl rfl)
      · exact (ih mem).imp_left Or.inr

section

variable {symbols : Symbols} {cpu : Cpu}

/-- A store into an object leaves every other object as it is. -/
theorem same_storeAt (symbols : Symbols) {item other : Object} (distinct : item ≠ other)
    {place : U64} (offset size : ℕ)
    (place_eq : place = symbols.object item + BitVec.ofNat 64 offset)
    (value : BitVec (8 * size)) (inside : offset + size ≤ item.size) (positive : 0 < size)
    (cpu : Cpu) : symbols.Same other (storeAt place size value cpu).memory cpu.memory :=
  (Symbols.Same.refl symbols other cpu.memory).store distinct offset size place_eq value inside
    positive

theorem Symbols.Same.load_inside {memory before : Memory} {item : Object}
    (same : symbols.Same item memory before) {offset size : ℕ} (inside : offset + size ≤ item.size)
    (positive : 0 < size) :
    load memory (symbols.object item + BitVec.ofNat 64 offset) size =
      load before (symbols.object item + BitVec.ofNat 64 offset) size := by
  have place := symbols.toNat_offset item (show offset < item.size by omega)
  apply AgreeOn.load_eq same
  · rw [place]
    exact Nat.le_add_right ..
  · rw [place, Symbols.stop]
    omega
  · exact symbols.fits item

end

end Benamos.Boot
