import Benamos.Draw.Bounds
import Mathlib.Data.Set.Insert

/-!
# The points of the cylinder

The loop of the sides runs from the row of the cap's centre down to the row before the base, so a
cylinder that is not higher than its radius has no sides. Both sides and the cap make the shape.
-/

namespace Benamos.Draw

open Checked

/-- A side with its upper end in `startY`. -/
def side (column startY baseY : ℤ) : Set (ℤ × ℤ) :=
  {point | point.1 = column ∧ startY ≤ point.2 ∧ point.2 < baseY}

def cylinder (cx baseY height radius : ℤ) : Set (ℤ × ℤ) :=
  side (cx - radius) (baseY - height + radius) baseY ∪
    side (cx + radius) (baseY - height + radius) baseY ∪
      (cap cx (baseY - height) radius).shape radius

section

variable {xLeft xRight startY baseY : ℤ} {count : ℕ} {state : Sides}

/-- The calls so far are for the rows above `y`. -/
structure Sided (xLeft xRight startY baseY : ℤ) (state : Sides) : Prop where
  start_le : startY ≤ state.y
  le_base : state.y = startY ∨ state.y ≤ baseY
  mem_calls : ∀ point, point ∈ state.calls ↔
    (point.1 = xLeft ∨ point.1 = xRight) ∧ startY ≤ point.2 ∧ point.2 < state.y

theorem Sided.next (sided : Sided xLeft xRight startY baseY state) (above : state.y < baseY) :
    Sided xLeft xRight startY baseY
      ⟨state.y + 1, state.calls ++ [(xLeft, state.y), (xRight, state.y)]⟩ where
  start_le := Int.le_trans sided.start_le (Int.le_add_one (Int.le_refl _))
  le_base := .inr above
  mem_calls point := by
    rcases point with ⟨column, row⟩
    have start_le := sided.start_le
    simp only [List.mem_append, sided.mem_calls, List.mem_cons, List.not_mem_nil, or_false,
      Prod.mk.injEq]
    constructor
    · rintro (⟨columns, startRow, before⟩ | ⟨rfl, rfl⟩ | ⟨rfl, rfl⟩)
      · exact ⟨columns, startRow, by omega⟩
      · exact ⟨.inl rfl, start_le, by omega⟩
      · exact ⟨.inr rfl, start_le, by omega⟩
    · rintro ⟨columns, startRow, before⟩
      rcases Int.lt_or_eq_of_le (Int.le_of_lt_add_one before) with earlier | rfl
      · exact .inl ⟨columns, startRow, earlier⟩
      · exact .inr (columns.imp (⟨·, rfl⟩) (⟨·, rfl⟩))

theorem sides_body_eq {next : Sides} (done : (sides xLeft xRight baseY).body state = .ok next) :
    next = ⟨state.y + 1, state.calls ++ [(xLeft, state.y), (xRight, state.y)]⟩ := by
  simp only [sides, bind_eq_ok_iff, int_eq_ok_iff, pure_eq_ok_iff] at done
  rcases done with ⟨y, ⟨rfl, _⟩, rfl⟩
  rfl

theorem sided_reaches (reaches : (sides xLeft xRight baseY).Reaches ⟨startY, []⟩ count state) :
    Sided xLeft xRight startY baseY state := by
  apply reaches.invariant fun _ state => Sided xLeft xRight startY baseY state
  · refine ⟨Int.le_refl _, .inl rfl, ?_⟩
    intro point
    simp only [List.not_mem_nil, false_iff]
    rintro ⟨_, start_le, before⟩
    exact absurd before (Int.not_lt.mpr start_le)
  · intro count state next sided guarded done
    rw [sides_body_eq done]
    exact sided.next (of_decide_eq_true guarded)

theorem mem_sides_iff (ran : (sides xLeft xRight baseY).run ⟨startY, []⟩ = .ok state)
    {point : ℤ × ℤ} :
    point ∈ state.calls ↔ point ∈ side xLeft startY baseY ∪ side xRight startY baseY := by
  rcases While.run_eq_ok_iff.mp ran with ⟨⟨count, reaches⟩, refused⟩
  rcases sided_reaches reaches with ⟨start_le, le_base, mem_calls⟩
  have base_le : ¬state.y < baseY := of_decide_eq_false refused
  have rows : startY ≤ point.2 ∧ point.2 < state.y ↔ startY ≤ point.2 ∧ point.2 < baseY := by
    omega
  rw [mem_calls, rows, or_and_right]
  rfl

/-- The loop stops before its counter overflows. -/
theorem exists_sides (xLeft xRight : ℤ) (start_ge : -2 ^ 31 ≤ startY) (base_lt : baseY < 2 ^ 31) :
    ∃ state, (sides xLeft xRight baseY).run ⟨startY, []⟩ = .ok state := by
  apply While.exists_run fun state => -2 ^ 31 ≤ state.y
  · exact start_ge
  · intro state above guarded
    have before : state.y < baseY := of_decide_eq_true guarded
    refine ⟨⟨state.y + 1, state.calls ++ [(xLeft, state.y), (xRight, state.y)]⟩, ?_, ?_⟩
    · simp only [sides, bind_eq_ok_iff, int_eq_ok_iff, pure_eq_ok_iff]
      exact ⟨_, ⟨rfl, by omega, by omega⟩, rfl⟩
    · exact Int.le_add_one above

end

section

variable {cx baseY height radius : ℤ}

theorem mem_cylinderCalls_iff {calls : List (ℤ × ℤ)}
    (ran : cylinderCalls cx baseY height radius = .ok calls) {point : ℤ × ℤ} :
    point ∈ calls ↔ point ∈ cylinder cx baseY height radius := by
  simp only [cylinderCalls, bind_eq_ok_iff, int_eq_ok_iff, pure_eq_ok_iff] at ran
  rcases ran with ⟨_, ⟨rfl, _⟩, _, ⟨rfl, _⟩, _, ⟨rfl, _⟩, _, ⟨rfl, _⟩, state, sided, capCalls,
    capped, rfl⟩
  rw [List.mem_append, mem_sides_iff sided, mem_calls_iff capped]
  rfl

theorem mem_pixels_cylinder_iff {canvas : Canvas} {stores : List Store}
    (drawn : drawCylinderOutline canvas cx baseY height radius = .ok stores) {point : ℤ × ℤ} :
    point ∈ pixels stores ↔
      point ∈ cylinder cx baseY height radius ∧ canvas.OnScreen point := by
  rcases drawCylinderOutline_eq_ok_iff.mp drawn with ⟨calls, called, rfl⟩
  rw [mem_pixels_putPixel, mem_cylinderCalls_iff called]

/-- A cylinder overflows nowhere if the rows of its base and of its cap do not. -/
theorem exists_cylinderCalls (nonneg : 0 ≤ radius) (small : radius ≤ 2 ^ 28)
    (left : -2 ^ 31 ≤ cx - radius) (right : cx + radius < 2 ^ 31) (base_lt : baseY < 2 ^ 31)
    (top : -2 ^ 31 ≤ baseY - height) (center : baseY - height + radius < 2 ^ 31) :
    ∃ calls, cylinderCalls cx baseY height radius = .ok calls := by
  rcases exists_sides (cx - radius) (cx + radius)
    (by omega : -2 ^ 31 ≤ baseY - height + radius) base_lt with ⟨state, sided⟩
  rcases exists_capCalls nonneg small left right top center with ⟨capCalls, capped⟩
  refine ⟨state.calls ++ capCalls, ?_⟩
  simp only [cylinderCalls, bind_eq_ok_iff, int_eq_ok_iff, pure_eq_ok_iff, InRange]
  exact ⟨_, ⟨rfl, by omega, by omega⟩, _, ⟨rfl, by omega, by omega⟩, _, ⟨rfl, by omega, by omega⟩,
    _, ⟨rfl, by omega, by omega⟩, state, sided, capCalls, capped, rfl⟩

end

end Benamos.Draw
