import Benamos.Draw.Walk
import Mathlib.Algebra.Order.Ring.Int
import Mathlib.Algebra.Order.Group.Abs

/-!
# How large the variables of a loop become

The increments of `d` are of both signs and up to four times the radius, but the sign of `d` decides
which is applied. `Bounded` couples `d` with the gap between `x` and `y`: a negative `d` is what the
increasing branch starts from, and the other branch increases `d` only in its last rounds, when the
gap is small. So `d` stays linear in the radius and no operation overflows.
-/

namespace Benamos.Draw

open Checked

structure Bounded (radius : ℤ) (raster : Raster) : Prop where
  x_nonneg : 0 ≤ raster.x
  y_le : raster.y ≤ radius
  x_le : raster.x ≤ raster.y + 2
  lower : -(4 * radius) ≤ raster.d
  apart : 2 ≤ raster.y - raster.x → raster.d ≤ 4 * raster.x + 5
  near : 0 ≤ raster.y - raster.x → raster.d ≤ 4 * raster.x + 11
  upper : raster.d ≤ 4 * raster.x + 25

theorem bounded_start {radius : ℤ} (nonneg : 0 ≤ radius) :
    Bounded radius ⟨0, radius, 3 - 2 * radius⟩ := by
  constructor <;> dsimp only <;> omega

theorem Bounded.next {radius : ℤ} {raster : Raster} (bounded : Bounded radius raster)
    (inOctant : raster.InOctant) : Bounded radius raster.next := by
  rcases bounded with ⟨x_nonneg, y_le, x_le, lower, apart, near, upper⟩
  rw [Raster.InOctant] at inOctant
  rw [Raster.next]
  split_ifs with negative
  · constructor <;> dsimp only <;> omega
  · constructor <;> dsimp only <;> omega

section

variable {outline : Outline} {radius : ℤ} {count : ℕ} {pen : Pen}

theorem bounded_walk (nonneg : 0 ≤ radius)
    (inOctant : ∀ earlier < count, (walk radius earlier).InOctant) :
    Bounded radius (walk radius count) :=
  walk_induction (bounded_start nonneg) (fun _ bounded inside => bounded.next inside) inOctant

theorem bounded_reaches (nonneg : 0 ≤ radius)
    (reaches : outline.loop.Reaches (startPen radius) count pen) :
    Bounded radius pen.raster := by
  rcases walked_reaches reaches with ⟨raster_eq, inOctant, _⟩
  rw [raster_eq]
  exact bounded_walk nonneg inOctant

/-- A loop whose rounds do not overflow within the bounds does not overflow. -/
theorem exists_calls (nonneg : 0 ≤ radius) (small : radius ≤ 2 ^ 28)
    (points_ok : ∀ x y, 0 ≤ x → x ≤ y → y ≤ radius → ∃ points, outline.points x y = .ok points)
    (advance_ok : ∀ raster, Bounded radius raster → raster.InOctant →
      ∃ next, outline.advance raster = .ok next) :
    ∃ calls, outline.calls radius = .ok calls := by
  have ran : ∃ pen, outline.loop.run (startPen radius) = .ok pen := by
    apply While.exists_run fun pen => Bounded radius pen.raster
    · exact bounded_start nonneg
    · intro pen bounded guarded
      have inOctant : pen.raster.InOctant := of_decide_eq_true guarded
      rcases points_ok _ _ bounded.x_nonneg inOctant bounded.y_le with ⟨points, called⟩
      rcases advance_ok _ bounded inOctant with ⟨next, advanced⟩
      refine ⟨⟨next, pen.calls ++ points⟩, ?_, ?_⟩
      · simp only [Outline.loop, Outline.body, bind_eq_ok_iff, pure_eq_ok_iff]
        exact ⟨points, called, next, advanced, rfl⟩
      · dsimp only
        rw [outline.advance_eq advanced]
        exact bounded.next inOctant
  rcases ran with ⟨pen, ran⟩
  refine ⟨pen.calls, calls_eq_ok_iff.mpr ⟨?_, ?_, pen, ran, rfl⟩⟩
  · constructor <;> omega
  · constructor <;> omega

end

theorem exists_circlePoints {cx cy r x y : ℤ} (left : -2 ^ 31 ≤ cx - r) (right : cx + r < 2 ^ 31)
    (top : -2 ^ 31 ≤ cy - r) (bottom : cy + r < 2 ^ 31) (x_nonneg : 0 ≤ x) (x_le : x ≤ y)
    (y_le : y ≤ r) : ∃ points, circlePoints cx cy x y = .ok points := by
  simp only [circlePoints, bind_eq_ok_iff, int_eq_ok_iff, pure_eq_ok_iff, and_assoc,
    exists_eq_left, exists_and_left, exists_eq, and_true, InRange]
  omega

theorem exists_capPoints {cx topY r x y : ℤ} (left : -2 ^ 31 ≤ cx - r) (right : cx + r < 2 ^ 31)
    (top : -2 ^ 31 ≤ topY) (bottom : topY + r < 2 ^ 31) (x_nonneg : 0 ≤ x) (x_le : x ≤ y)
    (y_le : y ≤ r) : ∃ points, capPoints cx topY r x y = .ok points := by
  simp only [capPoints, bind_eq_ok_iff, int_eq_ok_iff, pure_eq_ok_iff, and_assoc,
    exists_eq_left, exists_and_left, exists_eq, and_true, InRange]
  omega

section

variable {radius : ℤ} {raster : Raster}

theorem exists_circleAdvance (small : radius ≤ 2 ^ 28) (bounded : Bounded radius raster)
    (inOctant : raster.InOctant) : ∃ next, circleAdvance raster = .ok next := by
  rcases bounded with ⟨x_nonneg, y_le, _, lower, _, near, _⟩
  rw [Raster.InOctant] at inOctant
  rw [circleAdvance]
  by_cases negative : raster.d < 0
  · simp only [negative, if_true, bind_eq_ok_iff, int_eq_ok_iff, pure_eq_ok_iff, and_assoc,
      exists_eq_left, exists_and_left, exists_eq, and_true, InRange]
    omega
  · simp only [negative, if_false, bind_eq_ok_iff, int_eq_ok_iff, pure_eq_ok_iff, and_assoc,
      exists_eq_left, exists_and_left, exists_eq, and_true, InRange]
    omega

theorem exists_capAdvance (small : radius ≤ 2 ^ 28) (bounded : Bounded radius raster)
    (inOctant : raster.InOctant) : ∃ next, capAdvance raster = .ok next := by
  rcases bounded with ⟨x_nonneg, y_le, _, lower, _, near, _⟩
  rw [Raster.InOctant] at inOctant
  rw [capAdvance]
  by_cases negative : raster.d < 0
  · simp only [negative, if_true, bind_eq_ok_iff, int_eq_ok_iff, pure_eq_ok_iff, and_assoc,
      exists_eq_left, exists_and_left, exists_eq, and_true, InRange]
    omega
  · simp only [negative, if_false, bind_eq_ok_iff, int_eq_ok_iff, pure_eq_ok_iff, and_assoc,
      exists_eq_left, exists_and_left, exists_eq, and_true, InRange]
    omega

end

/-- A circle overflows nowhere if its corners do not. -/
theorem exists_circleCalls {cx cy r : ℤ} (nonneg : 0 ≤ r) (small : r ≤ 2 ^ 28)
    (left : -2 ^ 31 ≤ cx - r) (right : cx + r < 2 ^ 31) (top : -2 ^ 31 ≤ cy - r)
    (bottom : cy + r < 2 ^ 31) : ∃ calls, circleCalls cx cy r = .ok calls := by
  apply exists_calls nonneg small
  · intro x y
    exact exists_circlePoints left right top bottom
  · intro raster
    exact exists_circleAdvance small

theorem exists_capCalls {cx topY r : ℤ} (nonneg : 0 ≤ r) (small : r ≤ 2 ^ 28)
    (left : -2 ^ 31 ≤ cx - r) (right : cx + r < 2 ^ 31) (top : -2 ^ 31 ≤ topY)
    (bottom : topY + r < 2 ^ 31) : ∃ calls, (cap cx topY r).calls r = .ok calls := by
  apply exists_calls nonneg small
  · intro x y
    exact exists_capPoints left right top bottom
  · intro raster
    exact exists_capAdvance small

/-- A circle with a radius up to `2 ^ 28` around a centre within `2 ^ 30` is drawn without overflow
in at most `r + 1` rounds, and `d` stays linear in the radius. -/
theorem circle_within_range (canvas : Canvas) {cx cy r : ℤ} (nonneg : 0 ≤ r)
    (small : r ≤ 2 ^ 28) (cx_le : |cx| ≤ 2 ^ 30) (cy_le : |cy| ≤ 2 ^ 30) :
    (∃ stores, drawCircleOutline canvas cx cy r = .ok stores) ∧
      ∀ count pen, (circle cx cy).loop.Reaches (startPen r) count pen →
        count ≤ r + 1 ∧ |pen.raster.d| ≤ 4 * r + 29 := by
  rw [abs_le] at cx_le cy_le
  constructor
  · rcases exists_circleCalls nonneg small (by omega : -2 ^ 31 ≤ cx - r) (by omega)
      (by omega : -2 ^ 31 ≤ cy - r) (by omega) with ⟨calls, called⟩
    exact ⟨_, drawCircleOutline_eq_ok_iff.mpr ⟨calls, called, rfl⟩⟩
  · intro count pen reaches
    have rounds := reaches.add_rank_le
    have initial : (circle cx cy).loop.rank (startPen r) = (r - 0 + 1).toNat := rfl
    have bounded := bounded_reaches nonneg reaches
    rcases bounded with ⟨x_nonneg, y_le, x_le, lower, _, _, upper⟩
    have count_eq : pen.raster.x = count := by
      rw [(walked_reaches reaches).raster_eq, x_walk]
    refine ⟨by omega, ?_⟩
    rw [abs_le]
    omega

theorem circle_within_range_kernel :
    ∃ stores, drawCircleOutline ⟨800, 800, 600, 0xFFFFFF⟩ 500 300 100 = .ok stores :=
  (circle_within_range ⟨800, 800, 600, 0xFFFFFF⟩ (by decide) (by decide) (by decide)
    (by decide)).1

end Benamos.Draw
