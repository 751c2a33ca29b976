import Benamos.Draw.Bounds

/-!
# The cap of the cylinder

The cap takes the same walk as a circle around `(cx, top_y + radius)`, and of the eight images of a
point it draws the four that are not below the centre. The other four reach the centre row only at
`x = 0` and `y = 0`, where they coincide with one of the four.
-/

namespace Benamos.Draw

open Checked

section

variable {cx topY radius : ℤ}

theorem mem_capImages_iff {x y : ℤ} {point : ℤ × ℤ} (x_nonneg : 0 ≤ x) (x_le : x ≤ y) :
    point ∈ capImages cx topY x y ↔ point ∈ circleImages cx topY x y ∧ point.2 ≤ topY := by
  rcases point with ⟨column, row⟩
  simp only [capImages, circleImages, List.mem_cons, List.not_mem_nil, or_false, Prod.mk.injEq]
  constructor
  · rintro (⟨rfl, rfl⟩ | ⟨rfl, rfl⟩ | ⟨rfl, rfl⟩ | ⟨rfl, rfl⟩)
    all_goals
      refine ⟨by simp, ?_⟩
      omega
  · rintro ⟨⟨rfl, rfl⟩ | ⟨rfl, rfl⟩ | upper, above⟩
    · have corner : x = 0 ∧ y = 0 := by omega
      simp [corner]
    · have corner : x = 0 ∧ y = 0 := by omega
      simp [corner]
    · rcases upper with ⟨rfl, rfl⟩ | ⟨rfl, rfl⟩ | ⟨rfl, rfl⟩ | ⟨rfl, rfl⟩ | ⟨rfl, rfl⟩ | ⟨rfl, rfl⟩
      · simp
      · simp
      · have side : x = 0 := by omega
        simp [side]
      · have side : x = 0 := by omega
        simp [side]
      · simp
      · simp

theorem mem_shape_cap_iff {point : ℤ × ℤ} :
    point ∈ (cap cx topY radius).shape radius ↔
      point ∈ (circle cx (topY + radius)).shape radius ∧ point.2 ≤ topY + radius := by
  have images (count : ℕ) (inOctant : (walk radius count).InOctant) :
      point ∈ (cap cx topY radius).images (walk radius count).x (walk radius count).y ↔
        point ∈ (circle cx (topY + radius)).images (walk radius count).x (walk radius count).y ∧
          point.2 ≤ topY + radius := by
    apply mem_capImages_iff _ inOctant
    rw [x_walk]
    exact Int.natCast_nonneg count
  constructor
  · rintro ⟨count, inOctant, mem⟩
    rcases (images count inOctant).mp mem with ⟨mem, above⟩
    exact ⟨⟨count, inOctant, mem⟩, above⟩
  · rintro ⟨⟨count, inOctant, mem⟩, above⟩
    exact ⟨count, inOctant, (images count inOctant).mpr ⟨mem, above⟩⟩

end

/-- What the cap loop of `draw_cylinder_outline` stores. -/
def capStores (canvas : Canvas) (cx baseY height radius : ℤ) : Except Overflow (List Store) := do
  let topY ← int (baseY - height)
  let calls ← (cap cx topY radius).calls radius
  return calls.flatMap (putPixel canvas)

/-- The stores of the cylinder end with those of its cap. -/
theorem exists_capStores {canvas : Canvas} {cx baseY height radius : ℤ} {stores : List Store}
    (drawn : drawCylinderOutline canvas cx baseY height radius = .ok stores) :
    ∃ sideWritten capWritten, capStores canvas cx baseY height radius = .ok capWritten ∧
      stores = sideWritten ++ capWritten := by
  simp only [drawCylinderOutline_eq_ok_iff, cylinderCalls, bind_eq_ok_iff, int_eq_ok_iff,
    pure_eq_ok_iff] at drawn
  rcases drawn with ⟨_, ⟨_, _, _, _, _, ⟨rfl, inRange⟩, _, _, state, _, capCalls, capped, rfl⟩, rfl⟩
  refine ⟨state.calls.flatMap (putPixel canvas), capCalls.flatMap (putPixel canvas), ?_, ?_⟩
  · rw [capStores, int_of_inRange inRange]
    exact bind_eq_ok_iff.mpr ⟨_, rfl, bind_eq_ok_iff.mpr ⟨capCalls, capped, rfl⟩⟩
  · exact List.flatMap_append

/-- The cap is the half of the circle above and in the row of its centre. -/
theorem pixels_cap_eq (canvas : Canvas) {cx baseY height radius : ℤ}
    {capWritten circleWritten : List Store}
    (capped : capStores canvas cx baseY height radius = .ok capWritten)
    (drawn : drawCircleOutline canvas cx (baseY - height + radius) radius = .ok circleWritten) :
    pixels capWritten = {point ∈ pixels circleWritten | point.2 ≤ baseY - height + radius} := by
  simp only [capStores, bind_eq_ok_iff, int_eq_ok_iff, pure_eq_ok_iff] at capped
  rcases capped with ⟨_, ⟨rfl, _⟩, capCalls, capped, rfl⟩
  ext point
  rw [Set.mem_sep_iff, mem_pixels_putPixel, mem_pixels_circle_iff drawn, mem_calls_iff capped,
    mem_shape_cap_iff]
  exact and_right_comm

/-- A cap of radius 3 that is cut off by the left edge of the screen. -/
theorem pixels_cap_eq_cut :
    ∃ capWritten circleWritten, capStores ⟨8, 8, 8, 0xFFFFFF⟩ 1 6 5 3 = .ok capWritten ∧
      drawCircleOutline ⟨8, 8, 8, 0xFFFFFF⟩ 1 (6 - 5 + 3) 3 = .ok circleWritten ∧
      pixels capWritten = {point ∈ pixels circleWritten | point.2 ≤ 6 - 5 + 3} := by
  have capCalled : ∃ calls, (cap 1 (6 - 5) 3).calls 3 = .ok calls := by
    apply exists_capCalls <;> decide
  have circleCalled : ∃ calls, circleCalls 1 (6 - 5 + 3) 3 = .ok calls := by
    apply exists_circleCalls <;> decide
  rcases capCalled with ⟨capCalls, capCalled⟩
  rcases circleCalled with ⟨calls, circleCalled⟩
  have capped : capStores ⟨8, 8, 8, 0xFFFFFF⟩ 1 6 5 3 =
      .ok (capCalls.flatMap (putPixel ⟨8, 8, 8, 0xFFFFFF⟩)) := by
    rw [capStores, int_of_inRange (by decide)]
    exact bind_eq_ok_iff.mpr ⟨_, rfl, bind_eq_ok_iff.mpr ⟨capCalls, capCalled, rfl⟩⟩
  have drawn : drawCircleOutline ⟨8, 8, 8, 0xFFFFFF⟩ 1 (6 - 5 + 3) 3 =
      .ok (calls.flatMap (putPixel ⟨8, 8, 8, 0xFFFFFF⟩)) :=
    drawCircleOutline_eq_ok_iff.mpr ⟨calls, circleCalled, rfl⟩
  exact ⟨_, _, capped, drawn, pixels_cap_eq _ capped drawn⟩

end Benamos.Draw
