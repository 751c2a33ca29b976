import Benamos.Draw.Cap
import Benamos.Draw.Cylinder
import Benamos.Grid
import Mathlib.Data.Nat.Find

/-!
# Outlines have no gaps

The images of the walk make two arcs in every quarter of a circle: one starts above or below the
centre and runs along the columns, the other starts beside it and runs along the rows. Where the
walk leaves the octant, `y` exceeds `x` by at most one, so the arcs meet there. Neighbouring
quarters share the point where their arcs start, and a side of the cylinder starts in such a point.
-/

namespace Benamos.Draw

open Checked Grid

section

variable {radius : ℤ}

/-- The walk leaves the octant after a step on the diagonal or next to it. -/
theorem exists_last (nonneg : 0 ≤ radius) :
    ∃ last, (walk radius last).InOctant ∧ (walk radius last).y ≤ last + 1 := by
  have leaves : ∃ count, ¬(walk radius count).InOctant := by
    refine ⟨radius.toNat + 1, ?_⟩
    have y_le := y_walk_le radius (radius.toNat + 1)
    rw [Raster.InOctant, x_walk]
    omega
  have outside := Nat.find_spec leaves
  have inside {count : ℕ} (before : count < Nat.find leaves) : (walk radius count).InOctant :=
    not_not.mp (Nat.find_min leaves before)
  cases first : Nat.find leaves with
  | zero =>
      rw [first] at outside
      exact absurd nonneg outside
  | succ last =>
      refine ⟨last, inside (by omega), ?_⟩
      have step := y_walk_succ radius last
      rw [first, Raster.InOctant, x_walk] at outside
      omega

/-- Every distance up to the radius is one of the coordinates of a step in the octant. -/
theorem exists_coordinate {distance : ℤ} (nonneg : 0 ≤ distance) (le : distance ≤ radius) :
    ∃ count, (walk radius count).InOctant ∧
      ((walk radius count).x = distance ∨ (walk radius count).y = distance) := by
  rcases exists_last (Int.le_trans nonneg le) with ⟨last, inOctant, y_le⟩
  by_cases passed : distance ≤ last
  · refine ⟨distance.toNat, inOctant_of_le inOctant (by omega), .inl ?_⟩
    rw [x_walk, Int.toNat_of_nonneg nonneg]
  · have descends (count : ℕ) : (walk radius count).y - 1 ≤ (walk radius (count + 1)).y := by
      have step := y_walk_succ radius count
      omega
    rcases exists_eq_of_descends descends le (by omega : (walk radius last).y ≤ distance)
      with ⟨count, count_le, same⟩
    exact ⟨count, inOctant_of_le inOctant count_le, .inr same⟩

end

/-! ### Quarters -/

/-- A direction along a row or a column. -/
def IsSign (sign : ℤ) : Prop := sign = 1 ∨ sign = -1

section

variable {cx cy radius : ℤ} {s t : ℤ} {count j k : ℕ} {points : Set (ℤ × ℤ)}

/-- The image of a step on the arc that runs along the columns. -/
def flat (cx cy radius s t : ℤ) (count : ℕ) : ℤ × ℤ :=
  (cx + s * (walk radius count).x, cy + t * (walk radius count).y)

/-- The image of a step on the arc that runs along the rows. -/
def steep (cx cy radius s t : ℤ) (count : ℕ) : ℤ × ℤ :=
  (cx + s * (walk radius count).y, cy + t * (walk radius count).x)

/-- The arcs in the direction `s` of the rows and `t` of the columns. -/
def quarter (cx cy radius s t : ℤ) : Set (ℤ × ℤ) :=
  {point | ∃ count, (walk radius count).InOctant ∧
    (point = flat cx cy radius s t count ∨ point = steep cx cy radius s t count)}

theorem flat_mem_quarter (cx cy s t : ℤ) (inOctant : (walk radius count).InOctant) :
    flat cx cy radius s t count ∈ quarter cx cy radius s t :=
  ⟨count, inOctant, .inl rfl⟩

theorem steep_mem_quarter (cx cy s t : ℤ) (inOctant : (walk radius count).InOctant) :
    steep cx cy radius s t count ∈ quarter cx cy radius s t :=
  ⟨count, inOctant, .inr rfl⟩

/-- The step to the right on the octant. -/
theorem abs_x_sub_le (sign : IsSign s) :
    |s * (walk radius count).x - s * (walk radius (count + 1)).x| ≤ 1 := by
  rw [x_walk, x_walk, abs_le]
  rcases sign with rfl | rfl <;> omega

theorem abs_y_sub_le (sign : IsSign s) :
    |s * (walk radius count).y - s * (walk radius (count + 1)).y| ≤ 1 := by
  have step := y_walk_succ radius count
  rw [abs_le]
  rcases sign with rfl | rfl <;> omega

theorem flat_adjacent (rows : IsSign s) (columns : IsSign t) :
    Adjacent (flat cx cy radius s t count) (flat cx cy radius s t (count + 1)) := by
  constructor
  · simpa only [flat, add_sub_add_left_eq_sub] using abs_x_sub_le rows
  · simpa only [flat, add_sub_add_left_eq_sub] using abs_y_sub_le columns

theorem steep_adjacent (rows : IsSign s) (columns : IsSign t) :
    Adjacent (steep cx cy radius s t count) (steep cx cy radius s t (count + 1)) := by
  constructor
  · simpa only [steep, add_sub_add_left_eq_sub] using abs_y_sub_le rows
  · simpa only [steep, add_sub_add_left_eq_sub] using abs_x_sub_le columns

/-- The arcs meet in the last step. -/
theorem corner_adjacent (rows : IsSign s) (columns : IsSign t)
    (inOctant : (walk radius count).InOctant) (y_le : (walk radius count).y ≤ count + 1) :
    Adjacent (flat cx cy radius s t count) (steep cx cy radius s t count) := by
  rw [Raster.InOctant, x_walk] at inOctant
  constructor
  · rw [flat, steep, add_sub_add_left_eq_sub, x_walk, abs_le]
    rcases rows with rfl | rfl <;> omega
  · rw [flat, steep, add_sub_add_left_eq_sub, x_walk, abs_le]
    rcases columns with rfl | rfl <;> omega

theorem joined_arc {arc : ℕ → ℤ × ℤ}
    (mem : ∀ count, (walk radius count).InOctant → arc count ∈ points)
    (near : ∀ count, Adjacent (arc count) (arc (count + 1))) (jInside : (walk radius j).InOctant)
    (kInside : (walk radius k).InOctant) : Joined Adjacent points (arc j) (arc k) := by
  have before {count last : ℕ} (inside : (walk radius last).InOctant) (le : count ≤ last) :
      arc count ∈ points := mem count (inOctant_of_le inside le)
  rcases Nat.le_total j k with le | le
  · exact joined_of_chain (fun _ => before kInside) (fun count _ => near count) le (Nat.le_refl k)
  · exact joined_of_chain (fun _ => before jInside) (fun count _ => near count) (Nat.le_refl j) le

theorem joined_flat (rows : IsSign s) (columns : IsSign t) (jInside : (walk radius j).InOctant)
    (kInside : (walk radius k).InOctant) :
    Joined Adjacent (quarter cx cy radius s t) (flat cx cy radius s t j)
      (flat cx cy radius s t k) :=
  joined_arc (fun _ => flat_mem_quarter cx cy s t) (fun _ => flat_adjacent rows columns)
    jInside kInside

theorem joined_steep (rows : IsSign s) (columns : IsSign t) (jInside : (walk radius j).InOctant)
    (kInside : (walk radius k).InOctant) :
    Joined Adjacent (quarter cx cy radius s t) (steep cx cy radius s t j)
      (steep cx cy radius s t k) :=
  joined_arc (fun _ => steep_mem_quarter cx cy s t) (fun _ => steep_adjacent rows columns)
    jInside kInside

theorem connected_quarter (nonneg : 0 ≤ radius) (rows : IsSign s) (columns : IsSign t) :
    Connected Adjacent (quarter cx cy radius s t) := by
  rcases exists_last nonneg with ⟨last, inOctant, y_le⟩
  have corner : Joined Adjacent (quarter cx cy radius s t) (flat cx cy radius s t last)
      (steep cx cy radius s t last) :=
    .single (flat_mem_quarter cx cy s t inOctant) (steep_mem_quarter cx cy s t inOctant)
      (corner_adjacent rows columns inOctant y_le)
  have crossing {j k : ℕ} (jInside : (walk radius j).InOctant)
      (kInside : (walk radius k).InOctant) :
      Joined Adjacent (quarter cx cy radius s t) (flat cx cy radius s t j)
        (steep cx cy radius s t k) :=
    (joined_flat rows columns jInside inOctant).trans
      (corner.trans (joined_steep rows columns inOctant kInside))
  rintro p ⟨j, jInside, rfl | rfl⟩ q ⟨k, kInside, rfl | rfl⟩
  · exact joined_flat rows columns jInside kInside
  · exact crossing jInside kInside
  · exact (crossing kInside jInside).symm
  · exact joined_steep rows columns jInside kInside

end

/-! ### Gluing -/

section

variable {cx cy radius : ℤ} {s t : ℤ}

theorem isSign_one : IsSign 1 := .inl rfl

theorem isSign_neg_one : IsSign (-1) := .inr rfl

theorem pole_mem_quarter (s : ℤ) (nonneg : 0 ≤ radius) :
    (cx, cy + t * radius) ∈ quarter cx cy radius s t := by
  refine ⟨0, nonneg, .inl ?_⟩
  rw [flat, walk_zero, mul_zero, add_zero]

theorem flank_mem_quarter (t : ℤ) (nonneg : 0 ≤ radius) :
    (cx + s * radius, cy) ∈ quarter cx cy radius s t := by
  refine ⟨0, nonneg, .inr ?_⟩
  rw [steep, walk_zero, mul_zero, add_zero]

/-- The upper half of a circle, which is also the cap of the cylinder. -/
def upperHalf (cx cy radius : ℤ) : Set (ℤ × ℤ) :=
  quarter cx cy radius 1 (-1) ∪ quarter cx cy radius (-1) (-1)

theorem connected_upperHalf (nonneg : 0 ≤ radius) :
    Connected Adjacent (upperHalf cx cy radius) := by
  apply Connected.union
  · exact connected_quarter nonneg isSign_one isSign_neg_one
  · exact connected_quarter nonneg isSign_neg_one isSign_neg_one
  · intro _
    exact ⟨_, pole_mem_quarter 1 nonneg, pole_mem_quarter (-1) nonneg⟩

/-- The ends of the upper half, where it meets the lower quarters. -/
theorem left_mem_quarter (t : ℤ) (nonneg : 0 ≤ radius) :
    (cx - radius, cy) ∈ quarter cx cy radius (-1) t := by
  have flank : (cx + -1 * radius, cy) ∈ quarter cx cy radius (-1) t := flank_mem_quarter t nonneg
  rwa [neg_one_mul, ← sub_eq_add_neg] at flank

theorem right_mem_quarter (t : ℤ) (nonneg : 0 ≤ radius) :
    (cx + radius, cy) ∈ quarter cx cy radius 1 t := by
  have flank : (cx + 1 * radius, cy) ∈ quarter cx cy radius 1 t := flank_mem_quarter t nonneg
  rwa [one_mul] at flank

theorem left_mem_upperHalf (nonneg : 0 ≤ radius) : (cx - radius, cy) ∈ upperHalf cx cy radius :=
  .inr (left_mem_quarter (-1) nonneg)

theorem right_mem_upperHalf (nonneg : 0 ≤ radius) : (cx + radius, cy) ∈ upperHalf cx cy radius :=
  .inl (right_mem_quarter (-1) nonneg)

theorem shape_circle_eq :
    (circle cx cy).shape radius =
      upperHalf cx cy radius ∪ quarter cx cy radius 1 1 ∪ quarter cx cy radius (-1) 1 := by
  ext point
  simp only [Outline.shape, circle, circleImages, upperHalf, quarter, flat, steep, Set.mem_union,
    Set.mem_ofPred_eq, List.mem_cons, List.not_mem_nil, or_false, one_mul, neg_one_mul,
    ← sub_eq_add_neg, ← exists_or, ← and_or_left]
  apply exists_congr
  intro count
  apply and_congr_right
  intro _
  tauto

theorem shape_cap_eq {topY : ℤ} :
    (cap cx topY radius).shape radius = upperHalf cx (topY + radius) radius := by
  ext point
  simp only [Outline.shape, cap, capImages, upperHalf, quarter, flat, steep, Set.mem_union,
    Set.mem_ofPred_eq, List.mem_cons, List.not_mem_nil, or_false, one_mul, neg_one_mul,
    ← sub_eq_add_neg, ← exists_or, ← and_or_left]
  apply exists_congr
  intro count
  apply and_congr_right
  intro _
  tauto

theorem connected_circle (nonneg : 0 ≤ radius) :
    Connected Adjacent ((circle cx cy).shape radius) := by
  rw [shape_circle_eq]
  apply Connected.union
  · apply Connected.union
    · exact connected_upperHalf nonneg
    · exact connected_quarter nonneg isSign_one isSign_one
    · intro _
      exact ⟨_, right_mem_upperHalf nonneg, right_mem_quarter 1 nonneg⟩
  · exact connected_quarter nonneg isSign_neg_one isSign_one
  · intro _
    exact ⟨_, .inl (left_mem_upperHalf nonneg), left_mem_quarter 1 nonneg⟩

theorem connected_side (column startY baseY : ℤ) :
    Connected Adjacent (side column startY baseY) := by
  rintro ⟨_, p⟩ ⟨rfl, start_le_p, p_lt⟩ ⟨column, q⟩ ⟨rfl, start_le_q, q_lt⟩
  dsimp only at start_le_p p_lt start_le_q q_lt
  have mem (k : ℕ) (le : k ≤ (baseY - 1 - startY).toNat) :
      (column, startY + k) ∈ side column startY baseY :=
    ⟨rfl, by dsimp only; omega, by dsimp only; omega⟩
  have near (k : ℕ) : Adjacent (column, startY + k) (column, startY + (k + 1 : ℕ)) := by
    rw [Adjacent, abs_le, abs_le]
    omega
  have chain := joined_of_chain mem (fun k _ => near k)
    (by omega : (p - startY).toNat ≤ (baseY - 1 - startY).toNat)
    (by omega : (q - startY).toNat ≤ (baseY - 1 - startY).toNat)
  rwa [Int.toNat_of_nonneg (by omega), Int.toNat_of_nonneg (by omega), add_sub_cancel,
    add_sub_cancel] at chain

/-- The sides start in the row of the cap's centre, below the ends of the cap. -/
theorem connected_cylinder {baseY height : ℤ} (nonneg : 0 ≤ radius) :
    Connected Adjacent (cylinder cx baseY height radius) := by
  rw [cylinder, shape_cap_eq, Set.union_comm, ← Set.union_assoc]
  have start {column startY : ℤ} (nonempty : (side column startY baseY).Nonempty) :
      (column, startY) ∈ side column startY baseY := by
    rcases nonempty with ⟨point, _, start_le, lt_base⟩
    exact ⟨rfl, Int.le_refl _, Int.lt_of_le_of_lt start_le lt_base⟩
  apply Connected.union
  · apply Connected.union
    · exact connected_upperHalf nonneg
    · exact connected_side _ _ _
    · intro nonempty
      exact ⟨_, left_mem_upperHalf nonneg, start nonempty⟩
  · exact connected_side _ _ _
  · intro nonempty
    exact ⟨_, .inl (right_mem_upperHalf nonneg), start nonempty⟩

/-! ### Columns and rows -/

theorem quarter_subset (rows : IsSign s) (columns : IsSign t) :
    quarter cx cy radius s t ⊆ (circle cx cy).shape radius := by
  rw [shape_circle_eq]
  rcases columns with rfl | rfl <;> rcases rows with rfl | rfl
  · intro _ mem
    exact .inl (.inr mem)
  · intro _ mem
    exact .inr mem
  · intro _ mem
    exact .inl (.inl (.inl mem))
  · intro _ mem
    exact .inl (.inl (.inr mem))

theorem exists_sign (value : ℤ) : ∃ s, IsSign s ∧ s * |value| = value := by
  rcases le_total 0 value with nonneg | nonpos
  · exact ⟨1, isSign_one, by rw [one_mul, abs_of_nonneg nonneg]⟩
  · exact ⟨-1, isSign_neg_one, by rw [neg_one_mul, abs_of_nonpos nonpos, neg_neg]⟩

/-- Every offset up to the radius is taken by one of the arcs. -/
theorem exists_offset {offset : ℤ} (near : |offset| ≤ radius) :
    ∃ s count, IsSign s ∧ (walk radius count).InOctant ∧
      (s * (walk radius count).x = offset ∨ s * (walk radius count).y = offset) := by
  rcases exists_coordinate (abs_nonneg offset) near with ⟨count, inOctant, same⟩
  rcases exists_sign offset with ⟨s, sign, signed⟩
  refine ⟨s, count, sign, inOctant, ?_⟩
  rcases same with x_eq | y_eq
  · left
    rw [x_eq, signed]
  · right
    rw [y_eq, signed]

theorem circle_meets_column {column : ℤ} (near : |column - cx| ≤ radius) :
    ∃ row, (column, row) ∈ (circle cx cy).shape radius := by
  rcases exists_offset near with ⟨s, count, sign, inOctant, x_eq | y_eq⟩
  · have mem := quarter_subset sign isSign_one (flat_mem_quarter cx cy s 1 inOctant)
    rw [flat, x_eq, add_sub_cancel] at mem
    exact ⟨_, mem⟩
  · have mem := quarter_subset sign isSign_one (steep_mem_quarter cx cy s 1 inOctant)
    rw [steep, y_eq, add_sub_cancel] at mem
    exact ⟨_, mem⟩

theorem circle_meets_row {row : ℤ} (near : |row - cy| ≤ radius) :
    ∃ column, (column, row) ∈ (circle cx cy).shape radius := by
  rcases exists_offset near with ⟨t, count, sign, inOctant, x_eq | y_eq⟩
  · have mem := quarter_subset isSign_one sign (steep_mem_quarter cx cy 1 t inOctant)
    rw [steep, x_eq, add_sub_cancel] at mem
    exact ⟨_, mem⟩
  · have mem := quarter_subset isSign_one sign (flat_mem_quarter cx cy 1 t inOctant)
    rw [flat, y_eq, add_sub_cancel] at mem
    exact ⟨_, mem⟩

end

/-! ### The pixels -/

/-- The pixels are connected and meet every column and every row of the circle's box. -/
structure NoGaps (cx cy radius : ℤ) (pixels : Set (ℤ × ℤ)) : Prop where
  connected : Connected Adjacent pixels
  meets_column : ∀ column, cx - radius ≤ column → column ≤ cx + radius →
    ∃ row, (column, row) ∈ pixels
  meets_row : ∀ row, cy - radius ≤ row → row ≤ cy + radius → ∃ column, (column, row) ∈ pixels

/-- The pixels are both sides and the cap, in one piece. -/
structure OnePiece (cx baseY height radius : ℤ) (pixels : Set (ℤ × ℤ)) : Prop where
  connected : Connected Adjacent pixels
  parts : pixels = side (cx - radius) (baseY - height + radius) baseY ∪
    side (cx + radius) (baseY - height + radius) baseY ∪
      (cap cx (baseY - height) radius).shape radius
  top : (cx, baseY - height) ∈ pixels

/-- Clipping drops none of the points `put_pixel` is called with. -/
def WhollyOnScreen (canvas : Canvas) (calls : Except Overflow (List (ℤ × ℤ))) : Prop :=
  ∀ points, calls = .ok points → ∀ point ∈ points, canvas.OnScreen point

section

variable {canvas : Canvas} {cx cy baseY height radius : ℤ} {stores : List Store}

theorem pixels_circle_eq (drawn : drawCircleOutline canvas cx cy radius = .ok stores)
    (onScreen : WhollyOnScreen canvas (circleCalls cx cy radius)) :
    pixels stores = (circle cx cy).shape radius := by
  rcases drawCircleOutline_eq_ok_iff.mp drawn with ⟨calls, called, _⟩
  ext point
  rw [mem_pixels_circle_iff drawn, and_iff_left_iff_imp, ← mem_calls_iff called]
  exact onScreen calls called point

theorem pixels_cylinder_eq (drawn : drawCylinderOutline canvas cx baseY height radius = .ok stores)
    (onScreen : WhollyOnScreen canvas (cylinderCalls cx baseY height radius)) :
    pixels stores = cylinder cx baseY height radius := by
  rcases drawCylinderOutline_eq_ok_iff.mp drawn with ⟨calls, called, _⟩
  ext point
  rw [mem_pixels_cylinder_iff drawn, and_iff_left_iff_imp, ← mem_cylinderCalls_iff called]
  exact onScreen calls called point

end

theorem top_mem_cap {cx topY radius : ℤ} (nonneg : 0 ≤ radius) :
    (cx, topY) ∈ (cap cx topY radius).shape radius := by
  refine ⟨0, nonneg, ?_⟩
  simp [cap, capImages, walk_zero]

theorem onePiece_cylinder {cx baseY height radius : ℤ} (nonneg : 0 ≤ radius) :
    OnePiece cx baseY height radius (cylinder cx baseY height radius) where
  connected := connected_cylinder nonneg
  parts := rfl
  top := .inr (top_mem_cap nonneg)

theorem circle_box {cx cy radius : ℤ} {point : ℤ × ℤ}
    (mem : point ∈ (circle cx cy).shape radius) :
    |point.1 - cx| ≤ radius ∧ |point.2 - cy| ≤ radius := by
  rcases mem with ⟨count, inOctant, mem⟩
  have y_le := y_walk_le radius count
  rw [Raster.InOctant, x_walk] at inOctant
  simp only [circle, circleImages, x_walk, List.mem_cons, List.not_mem_nil, or_false] at mem
  rw [abs_le, abs_le]
  rcases mem with rfl | rfl | rfl | rfl | rfl | rfl | rfl | rfl <;> dsimp only <;> omega

section

variable {canvas : Canvas} {cx cy baseY height radius : ℤ}

theorem whollyOnScreen_circle (left : radius ≤ cx) (right : cx + radius < canvas.width)
    (top : radius ≤ cy) (bottom : cy + radius < canvas.height) :
    WhollyOnScreen canvas (circleCalls cx cy radius) := by
  intro calls called point mem
  have box := circle_box ((mem_calls_iff called).mp mem)
  rw [abs_le, abs_le] at box
  rw [Canvas.OnScreen]
  omega

theorem whollyOnScreen_cylinder (nonneg : 0 ≤ radius) (left : radius ≤ cx)
    (right : cx + radius < canvas.width) (top : 0 ≤ baseY - height)
    (center : baseY - height + radius < canvas.height) (bottom : baseY ≤ canvas.height) :
    WhollyOnScreen canvas (cylinderCalls cx baseY height radius) := by
  intro calls called point mem
  rw [Canvas.OnScreen]
  rcases (mem_cylinderCalls_iff called).mp mem with (onLeft | onRight) | inCap
  · rcases onLeft with ⟨column, start_le, lt_base⟩
    omega
  · rcases onRight with ⟨column, start_le, lt_base⟩
    omega
  · rcases mem_shape_cap_iff.mp inCap with ⟨inCircle, above⟩
    have box := circle_box inCircle
    rw [abs_le, abs_le] at box
    omega

end

/-- Outlines that do not overflow and are wholly on screen are whole and have no gaps. -/
theorem outlines_have_no_gaps (canvas : Canvas) {radius : ℤ} (nonneg : 0 ≤ radius) :
    (∀ cx cy stores, drawCircleOutline canvas cx cy radius = .ok stores →
      WhollyOnScreen canvas (circleCalls cx cy radius) →
        pixels stores = (circle cx cy).shape radius ∧ NoGaps cx cy radius (pixels stores)) ∧
    ∀ cx baseY height stores, drawCylinderOutline canvas cx baseY height radius = .ok stores →
      WhollyOnScreen canvas (cylinderCalls cx baseY height radius) →
        OnePiece cx baseY height radius (pixels stores) := by
  constructor
  · intro cx cy stores drawn onScreen
    rw [pixels_circle_eq drawn onScreen]
    refine ⟨rfl, ?_⟩
    constructor
    · exact connected_circle nonneg
    · intro column left right
      apply circle_meets_column
      rw [abs_le]
      omega
    · intro row top bottom
      apply circle_meets_row
      rw [abs_le]
      omega
  · intro cx baseY height stores drawn onScreen
    rw [pixels_cylinder_eq drawn onScreen]
    exact onePiece_cylinder nonneg

/-- A circle and a cylinder that fill a screen of 8 by 8 pixels. -/
theorem outlines_have_no_gaps_small :
    ∃ circleStores cylinderStores,
      drawCircleOutline ⟨8, 8, 8, 0xFFFFFF⟩ 4 4 3 = .ok circleStores ∧
      drawCylinderOutline ⟨8, 8, 8, 0xFFFFFF⟩ 4 8 7 3 = .ok cylinderStores ∧
      NoGaps 4 4 3 (pixels circleStores) ∧ OnePiece 4 8 7 3 (pixels cylinderStores) := by
  have circleCalled : ∃ calls, circleCalls 4 4 3 = .ok calls := by
    apply exists_circleCalls <;> decide
  have cylinderCalled : ∃ calls, cylinderCalls 4 8 7 3 = .ok calls := by
    apply exists_cylinderCalls <;> decide
  rcases circleCalled with ⟨calls, circleCalled⟩
  rcases cylinderCalled with ⟨cylinderCalls, cylinderCalled⟩
  have drawn : drawCircleOutline ⟨8, 8, 8, 0xFFFFFF⟩ 4 4 3 =
      .ok (calls.flatMap (putPixel ⟨8, 8, 8, 0xFFFFFF⟩)) :=
    drawCircleOutline_eq_ok_iff.mpr ⟨calls, circleCalled, rfl⟩
  have cylinderDrawn : drawCylinderOutline ⟨8, 8, 8, 0xFFFFFF⟩ 4 8 7 3 =
      .ok (cylinderCalls.flatMap (putPixel ⟨8, 8, 8, 0xFFFFFF⟩)) :=
    drawCylinderOutline_eq_ok_iff.mpr ⟨cylinderCalls, cylinderCalled, rfl⟩
  have noGaps := outlines_have_no_gaps ⟨8, 8, 8, 0xFFFFFF⟩ (by decide : (0 : ℤ) ≤ 3)
  refine ⟨_, _, drawn, cylinderDrawn, (noGaps.1 _ _ _ drawn ?_).2,
    noGaps.2 _ _ _ _ cylinderDrawn ?_⟩
  · apply whollyOnScreen_circle <;> decide
  · apply whollyOnScreen_cylinder <;> decide

end Benamos.Draw
