import Mathlib.Analysis.Real.Sqrt
import Mathlib.Tactic.Linarith
import Benamos.Draw.Accuracy

/-!
# How far from the circle

The surplus in `d` makes the loop leave its row too early, so the outline runs inside the true
circle towards the diagonals. It stays within a pixel and a half of it there, and it is nowhere more
than half a pixel outside.
-/

namespace Benamos.Draw

open Checked

/-- `d` between two linear functions of the position. -/
structure Close (radius : ℤ) (raster : Raster) : Prop where
  x_nonneg : 0 ≤ raster.x
  y_le : raster.y ≤ radius
  outer : raster.InOctant → raster.d ≤ 8 * raster.x + 6 * (radius - raster.y) + 3
  inner : 4 * (raster.x - raster.y) + 3 ≤ raster.d

theorem close_start {radius : ℤ} (nonneg : 0 ≤ radius) :
    Close radius ⟨0, radius, 3 - 2 * radius⟩ := by
  constructor <;> dsimp only
  · omega
  · omega
  · intro _
    omega
  · omega

theorem Close.next {radius : ℤ} {raster : Raster} (close : Close radius raster)
    (inOctant : raster.InOctant) : Close radius raster.next := by
  rcases close with ⟨x_nonneg, y_le, outer, inner⟩
  have upper := outer inOctant
  rw [Raster.InOctant] at inOctant
  rw [Raster.next]
  split_ifs with negative
  · constructor <;> simp only [Raster.InOctant] <;> omega
  · constructor <;> simp only [Raster.InOctant] <;> omega

section

variable {radius : ℤ} {count : ℕ}

theorem close_walk (nonneg : 0 ≤ radius) (inOctant : (walk radius count).InOctant) :
    Close radius (walk radius count) := by
  apply walk_induction (close_start nonneg) fun _ close inside => close.next inside
  intro earlier before
  exact inOctant_of_le inOctant (Nat.le_of_lt before)

theorem decision_eq (r x y : ℤ) : decision r x y = 2 * residual r x y + 4 * x - 2 * y + 3 := by
  simp only [decision, residual]
  ring

/-- The residual between two linear functions of the position. -/
theorem residual_bounds (nonneg : 0 ≤ radius) (inOctant : (walk radius count).InOctant) :
    residual radius count (walk radius count).y ≤ radius ∧
      (walk radius count).y - 2 * count - 2 * radius ≤
        residual radius count (walk radius count).y := by
  rcases close_walk nonneg inOctant with ⟨x_nonneg, y_le, outer, inner⟩
  have upper := outer inOctant
  have drifts := drifts_walk radius count
  rw [Drifts, decision_eq] at drifts
  rw [x_walk] at drifts upper inner
  omega

theorem outside_le (nonneg : 0 ≤ radius) (inOctant : (walk radius count).InOctant) :
    4 * ((count : ℤ) ^ 2 + (walk radius count).y ^ 2) ≤ (2 * radius + 1) ^ 2 := by
  have upper := (residual_bounds nonneg inOctant).1
  rw [residual] at upper
  nlinarith

theorem inside_ge_small : ∀ radius < 9, ∀ count < 9, 2 ≤ radius →
    (walk (radius : ℕ) count).InOctant →
      (2 * (radius : ℤ) - 3) * (2 * radius - 3) ≤
        4 * ((count : ℤ) * count + (walk radius count).y * (walk radius count).y) := by
  decide

theorem inside_ge (large : 2 ≤ radius) (inOctant : (walk radius count).InOctant) :
    (2 * radius - 3) ^ 2 ≤ 4 * ((count : ℤ) ^ 2 + (walk radius count).y ^ 2) := by
  have bounds := residual_bounds (show 0 ≤ radius by omega) inOctant
  have y_le := y_walk_le radius count
  have x_le := inOctant
  rw [Raster.InOctant, x_walk] at x_le
  rcases Int.lt_or_le radius 9 with small | big
  · lift radius to ℕ using by omega
    have table := inside_ge_small radius (by omega) count (by omega) (by omega) inOctant
    linarith
  · rw [residual] at bounds
    have short : (count : ℤ) ≤ radius - 3 := by
      by_contra long
      nlinarith
    nlinarith

end

theorem distance_of_image {cx cy x y : ℤ} {point : ℤ × ℤ}
    (image : point ∈ circleImages cx cy x y) :
    (point.1 - cx) ^ 2 + (point.2 - cy) ^ 2 = x ^ 2 + y ^ 2 := by
  simp only [circleImages, List.mem_cons, List.not_mem_nil, or_false] at image
  rcases image with rfl | rfl | rfl | rfl | rfl | rfl | rfl | rfl <;> ring

section

variable {cx cy r : ℤ} {calls : List (ℤ × ℤ)}

theorem exists_walk_distance (ran : circleCalls cx cy r = .ok calls) {point : ℤ × ℤ}
    (called : point ∈ calls) :
    ∃ count, (walk r count).InOctant ∧
      (point.1 - cx) ^ 2 + (point.2 - cy) ^ 2 = (count : ℤ) ^ 2 + (walk r count).y ^ 2 := by
  rcases (mem_calls_iff ran).mp called with ⟨count, inOctant, image⟩
  have distance := distance_of_image image
  rw [x_walk] at distance
  exact ⟨count, inOctant, distance⟩

/-- The distance of a point from the centre. -/
noncomputable def distance (cx cy : ℤ) (point : ℤ × ℤ) : ℝ :=
  Real.sqrt ((point.1 - cx : ℤ) ^ 2 + (point.2 - cy : ℤ) ^ 2)

/-- Every point of a circle is at most a pixel and a half inside of the true one and at most half a
pixel outside. -/
theorem circle_accuracy (nonneg : 0 ≤ r) (ran : circleCalls cx cy r = .ok calls) {point : ℤ × ℤ}
    (called : point ∈ calls) :
    (r : ℝ) - 3 / 2 ≤ distance cx cy point ∧ distance cx cy point ≤ r + 1 / 2 := by
  rcases exists_walk_distance ran called with ⟨count, inOctant, same⟩
  have real : ((point.1 - cx : ℤ) : ℝ) ^ 2 + ((point.2 - cy : ℤ) : ℝ) ^ 2 =
      (((count : ℤ) ^ 2 + (walk r count).y ^ 2 : ℤ) : ℝ) := by
    rw [← same]
    push_cast
    rfl
  rw [distance, real]
  have r_nonneg : (0 : ℝ) ≤ r := Int.cast_nonneg nonneg
  constructor
  · rcases Int.lt_or_le r 2 with small | large
    · have r_le : (r : ℝ) ≤ 1 := by
        exact_mod_cast (show r ≤ 1 by omega)
      apply le_trans _ (Real.sqrt_nonneg _)
      linarith
    · have inside : (((2 * r - 3) ^ 2 : ℤ) : ℝ) ≤
          ((4 * ((count : ℤ) ^ 2 + (walk r count).y ^ 2) : ℤ) : ℝ) :=
        Int.cast_le.mpr (inside_ge large inOctant)
      apply Real.le_sqrt_of_sq_le
      push_cast at inside ⊢
      linarith
  · have outside : ((4 * ((count : ℤ) ^ 2 + (walk r count).y ^ 2) : ℤ) : ℝ) ≤
        (((2 * r + 1) ^ 2 : ℤ) : ℝ) := Int.cast_le.mpr (outside_le nonneg inOctant)
    apply Real.sqrt_le_iff.mpr
    push_cast at outside ⊢
    exact ⟨by linarith, by linarith⟩

/-- A circle of the radius the kernel uses. -/
theorem circle_accuracy_hundred :
    ∃ calls, circleCalls 500 400 100 = .ok calls ∧ ∀ point ∈ calls,
      ((100 : ℤ) : ℝ) - 3 / 2 ≤ distance 500 400 point ∧
        distance 500 400 point ≤ ((100 : ℤ) : ℝ) + 1 / 2 := by
  have ran : ∃ calls, circleCalls 500 400 100 = .ok calls := by
    apply exists_circleCalls <;> decide
  rcases ran with ⟨calls, ran⟩
  exact ⟨calls, ran, fun point called => circle_accuracy (by decide) ran called⟩

end

end Benamos.Draw
