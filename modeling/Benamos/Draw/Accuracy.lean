import Benamos.Draw.Bounds
import Mathlib.Tactic.Ring

/-!
# How accurate the circle is

The midpoint algorithm keeps in `d` the sum of the residuals of the two candidates for the next
column. `draw_circle_outline` updates `d` after it has moved `x` and `y`, with increments that are
meant for the old position, so every round adds 4 too much for the column and 4 too much for a row
that was left. The surplus is `4 * x + 4 * (r - y)`.
-/

namespace Benamos.Draw

open Checked

/-- How far a point is from the circle around the origin, inside counting as negative. -/
def residual (r x y : ℤ) : ℤ := x ^ 2 + y ^ 2 - r ^ 2

/-- The sum of the residuals of the two candidates in the next column. -/
def decision (r x y : ℤ) : ℤ := residual r (x + 1) y + residual r (x + 1) (y - 1)

def BestRow (r x y : ℤ) : Prop :=
  ∀ row : ℤ, 0 ≤ row → |residual r x y| ≤ |residual r x row|

/-- Wherever the loop plots, the row is a best one and `d` is the decision quantity. -/
structure RasterisesCircle (cx cy r : ℤ) : Prop where
  bestRow : ∀ count pen, (circle cx cy).loop.Reaches (startPen r) count pen →
    pen.raster.InOctant → BestRow r pen.raster.x pen.raster.y
  decision_eq : ∀ count pen, (circle cx cy).loop.Reaches (startPen r) count pen →
    pen.raster.InOctant → pen.raster.d = decision r pen.raster.x pen.raster.y

/-- The decision variable with its surplus. -/
def Drifts (r : ℤ) (raster : Raster) : Prop :=
  raster.d = decision r raster.x raster.y + 4 * raster.x + 4 * (r - raster.y)

theorem drifts_start (r : ℤ) : Drifts r ⟨0, r, 3 - 2 * r⟩ := by
  simp only [Drifts, decision, residual]
  ring

theorem Drifts.next {r : ℤ} {raster : Raster} (drifts : Drifts r raster) :
    Drifts r raster.next := by
  rw [Raster.next]
  split_ifs with negative
  · simp only [Drifts, decision, residual] at drifts ⊢
    rw [drifts]
    ring
  · simp only [Drifts, decision, residual] at drifts ⊢
    rw [drifts]
    ring

theorem drifts_walk (r : ℤ) (count : ℕ) : Drifts r (walk r count) := by
  induction count with
  | zero => exact drifts_start r
  | succ count ih =>
      rw [walk_succ]
      exact ih.next

section

variable {cx cy r : ℤ} {calls : List (ℤ × ℤ)}

/-- From radius 2 on, the second round starts with a surplus of 4. -/
theorem not_rasterisesCircle (large : 2 ≤ r) (ran : circleCalls cx cy r = .ok calls) :
    ¬RasterisesCircle cx cy r := by
  intro rasterises
  have second : walk r 1 = ⟨1, r, 3 - 2 * r + 4 + 6⟩ := by
    rw [walk_succ, walk_zero, Raster.next, if_pos (by dsimp only; omega)]
    rfl
  have inOctant : (walk r 1).InOctant := by
    rw [second, Raster.InOctant]
    dsimp only
    omega
  rcases calls_eq_ok_iff.mp ran with ⟨_, _, _, looped, _⟩
  rcases exists_reaches looped inOctant with ⟨pen, reaches, raster_eq⟩
  rw [← raster_eq] at inOctant
  have exact_eq := rasterises.decision_eq 1 pen reaches inOctant
  have drifts := drifts_walk r 1
  rw [← raster_eq, Drifts] at drifts
  have x_eq : pen.raster.x = 1 := by rw [raster_eq, second]
  have y_eq : pen.raster.y = r := by rw [raster_eq, second]
  omega

/-- The circle is rasterised exactly up to radius 1. -/
theorem rasterisesCircle_iff (nonneg : 0 ≤ r) (ran : circleCalls cx cy r = .ok calls) :
    RasterisesCircle cx cy r ↔ r ≤ 1 := by
  constructor
  · intro rasterises
    by_contra large
    exact not_rasterisesCircle (by omega) ran rasterises
  · intro small
    have second : ¬(walk r 1).InOctant := by
      have y_le := y_walk_le r 1
      rw [walk_succ, walk_zero, Raster.next, if_neg (by dsimp only; omega), Raster.InOctant]
      dsimp only
      omega
    have onlyFirst {count : ℕ} {pen : Pen}
        (reaches : (circle cx cy).loop.Reaches (startPen r) count pen)
        (inOctant : pen.raster.InOctant) : pen.raster = ⟨0, r, 3 - 2 * r⟩ := by
      rw [(walked_reaches reaches).raster_eq] at inOctant ⊢
      cases count with
      | zero => rfl
      | succ count => exact absurd (inOctant_of_le inOctant (Nat.le_add_left 1 count)) second
    constructor
    · intro count pen reaches inOctant row _
      rw [onlyFirst reaches inOctant]
      simp [residual]
    · intro count pen reaches inOctant
      rw [onlyFirst reaches inOctant]
      simp only [decision, residual]
      ring

end

theorem rasterisesCircle_one : RasterisesCircle 0 0 1 := by
  have ran : ∃ calls, circleCalls 0 0 1 = .ok calls := by
    apply exists_circleCalls <;> decide
  rcases ran with ⟨calls, ran⟩
  exact (rasterisesCircle_iff (by decide) ran).mpr (by decide)

/-- With radius 2 the loop comes to `(1, 2)` with 9 in the place of 5. -/
theorem not_forall_rasterisesCircle :
    ¬∀ (cx cy r : ℤ) (calls : List (ℤ × ℤ)), 0 ≤ r → circleCalls cx cy r = .ok calls →
      RasterisesCircle cx cy r := by
  intro claim
  have ran : ∃ calls, circleCalls 0 0 2 = .ok calls := by
    apply exists_circleCalls <;> decide
  rcases ran with ⟨calls, ran⟩
  exact not_rasterisesCircle (by decide) ran (claim 0 0 2 calls (by decide) ran)

end Benamos.Draw
