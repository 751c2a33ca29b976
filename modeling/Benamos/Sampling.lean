import Mathlib.Data.Nat.Init

/-!
# Reading a changing record field by field

A record that changes at every instant is read one field at a time. The fields that were read at
different instants need not have been there together; they were when all but one of them stood still
in between.
-/

namespace Sampling

variable {Field Value : Type*} {history : ℕ → Field → Value}

/-- The values of the fields, each with an instant at which it was there. -/
structure Reading (history : ℕ → Field → Value) where
  value : Field → Value
  instant : Field → ℕ
  value_eq : ∀ field, value field = history (instant field) field

namespace Reading

/-- Some field was read before `instant` or at it, and some field at it or after it. -/
def Spans (reading : Reading history) (instant : ℕ) : Prop :=
  (∃ field, reading.instant field ≤ instant) ∧ ∃ field, instant ≤ reading.instant field

/-- The record held all of the values at one instant while it was read. -/
def Held (reading : Reading history) : Prop :=
  ∃ instant, reading.Spans instant ∧ reading.value = history instant

/-- No change between the first and the last reading is one of `field`. -/
def Steady (reading : Reading history) (field : Field) : Prop :=
  ∀ instant, reading.Spans instant → reading.Spans (instant + 1) →
    history (instant + 1) field = history instant field

theorem spans_instant (reading : Reading history) (field : Field) :
    reading.Spans (reading.instant field) :=
  ⟨⟨field, Nat.le_refl _⟩, field, Nat.le_refl _⟩

theorem Spans.between {reading : Reading history} {first last instant : ℕ}
    (start : reading.Spans first) (stop : reading.Spans last) (above : first ≤ instant)
    (below : instant ≤ last) : reading.Spans instant := by
  rcases start with ⟨⟨early, early_le⟩, _⟩
  rcases stop with ⟨_, late, le_late⟩
  exact ⟨⟨early, Nat.le_trans early_le above⟩, late, Nat.le_trans below le_late⟩

theorem Steady.eq_of_le {reading : Reading history} {field : Field} (steady : reading.Steady field)
    {first last : ℕ} (start : reading.Spans first) (stop : reading.Spans last)
    (ordered : first ≤ last) : history last field = history first field := by
  induction last, ordered using Nat.le_induction with
  | base => rfl
  | succ last ordered ih =>
      have inside := start.between stop ordered (Nat.le_succ last)
      rw [steady last inside stop, ih inside]

theorem Steady.eq {reading : Reading history} {field : Field} (steady : reading.Steady field)
    {first last : ℕ} (start : reading.Spans first) (stop : reading.Spans last) :
    history last field = history first field := by
  rcases Nat.le_total first last with ordered | ordered
  · exact steady.eq_of_le start stop ordered
  · exact (steady.eq_of_le stop start ordered).symm

/-- With all other fields steady, the values were there together when `moving` was read. -/
theorem held_of_steady (reading : Reading history) (moving : Field)
    (steady : ∀ field, field ≠ moving → reading.Steady field) : reading.Held := by
  refine ⟨reading.instant moving, reading.spans_instant moving, ?_⟩
  funext field
  rw [reading.value_eq]
  by_cases same : field = moving
  · rw [same]
  · exact (steady field same).eq (reading.spans_instant moving) (reading.spans_instant field)

end Reading

end Sampling
