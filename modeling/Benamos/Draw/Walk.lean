import Benamos.Draw.Raster
import Mathlib.Logic.Function.Iterate

/-!
# The walk along the octant

Without overflow both loops take the same walk: `x` counts the rounds, and `y` stays or goes down by
one. The guard holds for an initial part of the walk, so the points of a shape are the images of the
steps that satisfy the guard, whichever loop drew them.
-/

namespace Benamos.Draw

open Checked

/-- The variables after `count` rounds. -/
def walk (radius : ℤ) (count : ℕ) : Raster := Raster.next^[count] ⟨0, radius, 3 - 2 * radius⟩

section

variable {radius : ℤ} {count : ℕ}

theorem walk_zero (radius : ℤ) : walk radius 0 = ⟨0, radius, 3 - 2 * radius⟩ := rfl

theorem walk_succ (radius : ℤ) (count : ℕ) : walk radius (count + 1) = (walk radius count).next :=
  Function.iterate_succ_apply' ..

theorem walk_induction {Invariant : Raster → Prop} (initial : Invariant ⟨0, radius, 3 - 2 * radius⟩)
    (keeps : ∀ raster, Invariant raster → raster.InOctant → Invariant raster.next)
    (inOctant : ∀ earlier < count, (walk radius earlier).InOctant) :
    Invariant (walk radius count) := by
  induction count with
  | zero => exact initial
  | succ count ih =>
      rw [walk_succ]
      apply keeps
      · exact ih fun earlier before => inOctant earlier (Nat.lt_succ_of_lt before)
      · exact inOctant count (Nat.lt_succ_self _)

@[simp]
theorem x_walk (radius : ℤ) (count : ℕ) : (walk radius count).x = count := by
  induction count with
  | zero => rfl
  | succ count ih =>
      rw [walk_succ, Raster.x_next, ih]
      rfl

theorem y_walk_succ (radius : ℤ) (count : ℕ) :
    (walk radius (count + 1)).y = (walk radius count).y ∨
      (walk radius (count + 1)).y = (walk radius count).y - 1 := by
  rw [walk_succ]
  exact Raster.y_next _

theorem y_walk_le_of_le {later : ℕ} (before : count ≤ later) :
    (walk radius later).y ≤ (walk radius count).y := by
  induction before with
  | refl => exact Int.le_refl _
  | @step later _ ih =>
      rw [Nat.succ_eq_add_one]
      have step := y_walk_succ radius later
      omega

theorem y_walk_le (radius : ℤ) (count : ℕ) : (walk radius count).y ≤ radius :=
  y_walk_le_of_le (Nat.zero_le count)

/-- Once outside, the walk stays outside the octant. -/
theorem inOctant_of_le {later : ℕ} (inOctant : (walk radius later).InOctant)
    (before : count ≤ later) : (walk radius count).InOctant := by
  have descends : (walk radius later).y ≤ (walk radius count).y := y_walk_le_of_le before
  rw [Raster.InOctant, x_walk] at inOctant ⊢
  omega

end

/-- The points of a shape before clipping. -/
def Outline.shape (outline : Outline) (radius : ℤ) : Set (ℤ × ℤ) :=
  {point | ∃ count, (walk radius count).InOctant ∧
    point ∈ outline.images (walk radius count).x (walk radius count).y}

section

variable {outline : Outline} {radius : ℤ} {count : ℕ} {pen : Pen} {calls : List (ℤ × ℤ)}

/-- Where the loop is after its initialisation. -/
def startPen (radius : ℤ) : Pen := ⟨⟨0, radius, 3 - 2 * radius⟩, []⟩

theorem calls_eq_ok_iff :
    outline.calls radius = .ok calls ↔
      InRange (2 * radius) ∧ InRange (3 - 2 * radius) ∧
        ∃ pen, outline.loop.run (startPen radius) = .ok pen ∧ pen.calls = calls := by
  simp only [Outline.calls, bind_eq_ok_iff, int_eq_ok_iff, pure_eq_ok_iff, startPen]
  constructor
  · rintro ⟨_, ⟨rfl, twice⟩, _, ⟨rfl, d⟩, pen, ran, rfl⟩
    exact ⟨twice, d, pen, ran, rfl⟩
  · rintro ⟨twice, d, pen, ran, rfl⟩
    exact ⟨_, ⟨rfl, twice⟩, _, ⟨rfl, d⟩, pen, ran, rfl⟩

/-- After `count` rounds the loop is at that step of the walk, all steps before it are in the
octant, and the calls so far are for their images. -/
structure Walked (outline : Outline) (radius : ℤ) (count : ℕ) (pen : Pen) : Prop where
  raster_eq : pen.raster = walk radius count
  inOctant : ∀ earlier < count, (walk radius earlier).InOctant
  mem_calls : ∀ point, point ∈ pen.calls ↔ ∃ earlier < count,
    point ∈ outline.images (walk radius earlier).x (walk radius earlier).y

theorem Walked.next (walked : Walked outline radius count pen) (inside : pen.raster.InOctant) :
    Walked outline radius (count + 1) (outline.next pen) where
  raster_eq := by rw [Outline.next, walked.raster_eq, walk_succ]
  inOctant earlier before := by
    rw [walked.raster_eq] at inside
    exact inOctant_of_le inside (Nat.le_of_lt_succ before)
  mem_calls point := by
    simp only [Outline.next, List.mem_append, walked.mem_calls, walked.raster_eq,
      Nat.lt_succ_iff_lt_or_eq, or_and_right, exists_or, exists_eq_left]

theorem walked_reaches (reaches : outline.loop.Reaches (startPen radius) count pen) :
    Walked outline radius count pen := by
  apply reaches.invariant (Walked outline radius)
  · exact ⟨rfl, by simp, by simp [startPen]⟩
  · intro count pen next walked guarded done
    rw [Outline.body_eq done]
    exact walked.next (of_decide_eq_true guarded)

/-- A run that does not overflow comes by every step in the octant. -/
theorem exists_reaches {result : Pen} (ran : outline.loop.run (startPen radius) = .ok result)
    (inOctant : (walk radius count).InOctant) :
    ∃ pen, outline.loop.Reaches (startPen radius) count pen ∧ pen.raster = walk radius count := by
  induction count with
  | zero => exact ⟨_, .refl, rfl⟩
  | succ count ih =>
      have before := inOctant_of_le inOctant (Nat.le_succ count)
      rcases ih before with ⟨pen, reaches, raster_eq⟩
      have guarded : outline.loop.guard pen := by
        rw [← raster_eq] at before
        exact decide_eq_true before
      rcases reaches.exists_body ran guarded with ⟨next, done⟩
      have reachesNext := reaches.step guarded done
      exact ⟨next, reachesNext, (walked_reaches reachesNext).raster_eq⟩

/-- The points of a run that does not overflow are those of the shape. -/
theorem mem_calls_iff (ran : outline.calls radius = .ok calls) {point : ℤ × ℤ} :
    point ∈ calls ↔ point ∈ outline.shape radius := by
  rcases calls_eq_ok_iff.mp ran with ⟨_, _, pen, looped, rfl⟩
  rcases While.run_eq_ok_iff.mp looped with ⟨⟨count, reaches⟩, refused⟩
  rcases walked_reaches reaches with ⟨raster_eq, inOctant, mem_calls⟩
  have outside : ¬(walk radius count).InOctant := by
    rw [← raster_eq]
    exact of_decide_eq_false refused
  rw [mem_calls]
  constructor
  · rintro ⟨earlier, before, mem⟩
    exact ⟨earlier, inOctant earlier before, mem⟩
  · rintro ⟨earlier, inside, mem⟩
    refine ⟨earlier, ?_, mem⟩
    by_contra after
    exact outside (inOctant_of_le inside (Nat.not_lt.mp after))

/-- The pixels of a circle are the points of the shape that are on screen. -/
theorem mem_pixels_circle_iff {canvas : Canvas} {cx cy : ℤ} {stores : List Store}
    (drawn : drawCircleOutline canvas cx cy radius = .ok stores) {point : ℤ × ℤ} :
    point ∈ pixels stores ↔ point ∈ (circle cx cy).shape radius ∧ canvas.OnScreen point := by
  rcases drawCircleOutline_eq_ok_iff.mp drawn with ⟨calls, called, rfl⟩
  rw [mem_pixels_putPixel, mem_calls_iff called]

end

end Benamos.Draw
