import Benamos.Draw.Cylinder
import Benamos.Grid

/-!
# What the kernel draws

`kmain` narrows the sizes of the framebuffer from 64 bits to `int` and draws two circles and a
cylinder around the centre of the screen. A point that passes the clipping of `put_pixel` has no
negative coordinate, so although its index is computed modulo `2 ^ 64` it is the row-major index of
the point: it lies in the framebuffer and belongs to no other point.
-/

namespace Benamos.Draw

open Checked

/-- The sizes in a `struct limine_framebuffer` with 32 bits per pixel. `pitch` is in bytes. -/
structure LimineFramebuffer where
  width : U64
  height : U64
  pitch : U64
  width_le : 4 * width.toNat ≤ pitch.toNat
  pitch_aligned : 4 ∣ pitch.toNat
  pitch_small : pitch.toNat / 4 ≤ 2 ^ 31 - 1
  height_small : height.toNat ≤ 2 ^ 31 - 1

/-- A screen of 800 by 600 pixels without padding. -/
def svga : LimineFramebuffer where
  width := 800
  height := 600
  pitch := 3200
  width_le := by decide
  pitch_aligned := by decide
  pitch_small := by decide
  height_small := by decide

/-- The conversion of a `uint64_t` to `int`. -/
def narrow (value : U64) : ℤ := (value.setWidth 32).toInt

def LimineFramebuffer.canvas (fb : LimineFramebuffer) : Canvas where
  pitch := narrow (fb.pitch / 4)
  width := narrow fb.width
  height := narrow fb.height
  color := 0xFFFFFF

/-- The stores of the three drawing calls in `kmain`. -/
def kmainStores (fb : LimineFramebuffer) : Except Overflow (List Store) := do
  let r := 100
  let cx := (narrow fb.width).tdiv 2
  let cy := (narrow fb.height).tdiv 2
  let rightCenter ← int (cx + r)
  let right ← drawCircleOutline fb.canvas rightCenter cy r
  let leftCenter ← int (cx - r)
  let left ← drawCircleOutline fb.canvas leftCenter cy r
  let cylinderHeight ← int (cy - r)
  let baseY ← int (cy - r)
  let cylinder ← drawCylinderOutline fb.canvas cx baseY cylinderHeight r
  return right ++ left ++ cylinder

/-- The points of the three shapes before clipping. -/
def kmainPoints (fb : LimineFramebuffer) : Except Overflow (List (ℤ × ℤ)) := do
  let r := 100
  let cx := (narrow fb.width).tdiv 2
  let cy := (narrow fb.height).tdiv 2
  let right ← circleCalls (cx + r) cy r
  let left ← circleCalls (cx - r) cy r
  let cylinder ← cylinderCalls cx (cy - r) (cy - r) r
  return right ++ left ++ cylinder

/-- The two circles around points beside the centre of the screen, and the cylinder above it. -/
def kmainShapes (fb : LimineFramebuffer) : Set (ℤ × ℤ) :=
  let cx : ℤ := ↑(fb.width.toNat / 2)
  let cy : ℤ := ↑(fb.height.toNat / 2)
  (circle (cx + 100) cy).shape 100 ∪ (circle (cx - 100) cy).shape 100 ∪
    cylinder cx (cy - 100) (cy - 100) 100

/-! ### Narrowing -/

theorem narrow_eq {value : U64} (small : value.toNat < 2 ^ 31) : narrow value = value.toNat := by
  have same : (value.setWidth 32).toNat = value.toNat := by
    rw [BitVec.toNat_setWidth, Nat.mod_eq_of_lt (by omega)]
  rw [narrow, BitVec.toInt_eq_toNat_of_lt (by omega), same]

section

variable {fb : LimineFramebuffer}

theorem narrow_width : narrow fb.width = fb.width.toNat := by
  have width_le := fb.width_le
  have pitch_small := fb.pitch_small
  exact narrow_eq (by omega)

theorem narrow_height : narrow fb.height = fb.height.toNat := by
  have height_small := fb.height_small
  exact narrow_eq (by omega)

theorem narrow_pitch : narrow (fb.pitch / 4) = ↑(fb.pitch.toNat / 4) := by
  have pitch_small := fb.pitch_small
  have divided : (fb.pitch / 4).toNat = fb.pitch.toNat / 4 := BitVec.toNat_udiv
  rw [narrow_eq (by omega), divided]

/-! ### The index -/

theorem onScreen_iff {point : ℤ × ℤ} :
    fb.canvas.OnScreen point ↔
      ∃ x < fb.width.toNat, ∃ y < fb.height.toNat, point = ((x : ℤ), (y : ℤ)) := by
  rw [Canvas.OnScreen, LimineFramebuffer.canvas]
  dsimp only
  rw [narrow_width, narrow_height]
  constructor
  · rintro ⟨⟨x_nonneg, x_lt⟩, y_nonneg, y_lt⟩
    refine ⟨point.1.toNat, by omega, point.2.toNat, by omega, ?_⟩
    rw [Int.toNat_of_nonneg x_nonneg, Int.toNat_of_nonneg y_nonneg]
  · rintro ⟨x, x_lt, y, y_lt, rfl⟩
    omega

theorem index_toNat {x y : ℕ} (x_lt : x < fb.width.toNat) (y_lt : y < fb.height.toNat)
    (color : U32) :
    (Store.index ⟨x, y, BitVec.ofInt 64 fb.canvas.pitch, color⟩).toNat =
      y * (fb.pitch.toNat / 4) + x := by
  have width_le := fb.width_le
  have pitch_small := fb.pitch_small
  have height_small := fb.height_small
  have inside : y * (fb.pitch.toNat / 4) + x < 2 ^ 31 * 2 ^ 31 := by
    calc
      y * (fb.pitch.toNat / 4) + x < fb.pitch.toNat / 4 * fb.height.toNat :=
        Grid.rowMajor_lt (by omega) y_lt
      _ ≤ 2 ^ 31 * 2 ^ 31 := Nat.mul_le_mul (by omega) (by omega)
  rw [Store.index, LimineFramebuffer.canvas]
  dsimp only
  rw [narrow_pitch, BitVec.ofInt_natCast, BitVec.ofInt_natCast, BitVec.ofInt_natCast,
    BitVec.toNat_add, BitVec.toNat_mul, BitVec.toNat_ofNat, BitVec.toNat_ofNat, BitVec.toNat_ofNat,
    Nat.mod_add_mod, Nat.add_mod_mod, Nat.mod_eq_of_lt (by omega : y < 2 ^ 64),
    Nat.mod_eq_of_lt (by omega : fb.pitch.toNat / 4 < 2 ^ 64),
    Nat.mod_eq_of_lt (Nat.lt_trans inside (by decide))]

end

theorem kmain_runs (fb : LimineFramebuffer) :
    ∃ points, kmainPoints fb = .ok points ∧
      kmainStores fb = .ok (points.flatMap (putPixel fb.canvas)) ∧
      ∀ point, point ∈ points ↔ point ∈ kmainShapes fb := by
  have width_le := fb.width_le
  have pitch_small := fb.pitch_small
  have height_small := fb.height_small
  have cx_eq : (narrow fb.width).tdiv 2 = ↑(fb.width.toNat / 2) := by
    rw [narrow_width]
    rfl
  have cy_eq : (narrow fb.height).tdiv 2 = ↑(fb.height.toNat / 2) := by
    rw [narrow_height]
    rfl
  have rightCalled : ∃ calls,
      circleCalls (↑(fb.width.toNat / 2) + 100) ↑(fb.height.toNat / 2) 100 = .ok calls := by
    apply exists_circleCalls <;> omega
  have leftCalled : ∃ calls,
      circleCalls (↑(fb.width.toNat / 2) - 100) ↑(fb.height.toNat / 2) 100 = .ok calls := by
    apply exists_circleCalls <;> omega
  have cylinderCalled : ∃ calls, cylinderCalls ↑(fb.width.toNat / 2) (↑(fb.height.toNat / 2) - 100)
      (↑(fb.height.toNat / 2) - 100) 100 = .ok calls := by
    apply exists_cylinderCalls <;> omega
  rcases rightCalled with ⟨right, rightCalled⟩
  rcases leftCalled with ⟨left, leftCalled⟩
  rcases cylinderCalled with ⟨cylinder, cylinderCalled⟩
  refine ⟨right ++ left ++ cylinder, ?_, ?_, ?_⟩
  · simp only [kmainPoints, cx_eq, cy_eq, bind_eq_ok_iff, pure_eq_ok_iff]
    exact ⟨right, rightCalled, left, leftCalled, cylinder, cylinderCalled, rfl⟩
  · simp only [kmainStores, cx_eq, cy_eq, bind_eq_ok_iff, drawCircleOutline_eq_ok_iff,
      drawCylinderOutline_eq_ok_iff, int_eq_ok_iff, pure_eq_ok_iff, InRange]
    refine ⟨_, ⟨rfl, by omega, by omega⟩, _, ⟨right, rightCalled, rfl⟩, _,
      ⟨rfl, by omega, by omega⟩, _, ⟨left, leftCalled, rfl⟩, _, ⟨rfl, by omega, by omega⟩, _,
      ⟨rfl, by omega, by omega⟩, _, ⟨cylinder, cylinderCalled, rfl⟩, ?_⟩
    rw [List.flatMap_append, List.flatMap_append]
  · intro point
    rw [List.mem_append, List.mem_append, mem_calls_iff rightCalled, mem_calls_iff leftCalled,
      mem_cylinderCalls_iff cylinderCalled]
    rfl

/-- The three drawing calls stay inside the framebuffer and write the points of the shapes that are
on screen, and no others. -/
theorem kmain_draws (fb : LimineFramebuffer) :
    ∃ stores points, kmainStores fb = .ok stores ∧ kmainPoints fb = .ok points ∧
      (∀ point, point ∈ points ↔ point ∈ kmainShapes fb) ∧
      (∀ store ∈ stores, store.color = 0xFFFFFF ∧
        store.index.toNat < fb.pitch.toNat / 4 * fb.height.toNat) ∧
      ∀ x < fb.pitch.toNat / 4, ∀ y < fb.height.toNat,
        (∃ store ∈ stores, store.index.toNat = y * (fb.pitch.toNat / 4) + x) ↔
          x < fb.width.toNat ∧ ((x : ℤ), (y : ℤ)) ∈ points := by
  rcases kmain_runs fb with ⟨points, pointsRan, storesRan, shapes⟩
  have width_le := fb.width_le
  refine ⟨_, points, storesRan, pointsRan, shapes, ?_, ?_⟩
  · intro store mem
    rcases mem_stores_iff.mp mem with ⟨point, called, onScreen, rfl⟩
    rcases onScreen_iff.mp onScreen with ⟨x, x_lt, y, y_lt, rfl⟩
    refine ⟨rfl, ?_⟩
    rw [index_toNat x_lt y_lt]
    exact Grid.rowMajor_lt (by omega) y_lt
  · intro x x_lt y y_lt
    constructor
    · rintro ⟨store, mem, index_eq⟩
      rcases mem_stores_iff.mp mem with ⟨point, called, onScreen, rfl⟩
      rcases onScreen_iff.mp onScreen with ⟨x', x'_lt, y', y'_lt, rfl⟩
      rw [index_toNat x'_lt y'_lt, Grid.rowMajor_inj (by omega) x_lt] at index_eq
      rcases index_eq with ⟨rfl, rfl⟩
      exact ⟨x'_lt, called⟩
    · rintro ⟨inWidth, called⟩
      have onScreen := onScreen_iff.mpr ⟨x, inWidth, y, y_lt, rfl⟩
      exact ⟨_, mem_stores_iff.mpr ⟨_, called, onScreen, rfl⟩, index_toNat inWidth y_lt _⟩

/-- The right end of the right circle. -/
theorem mem_kmainShapes_svga : (((600 : ℕ) : ℤ), ((300 : ℕ) : ℤ)) ∈ kmainShapes svga := by
  have start : (walk 100 0).InOctant := by
    decide
  refine .inl (.inl ⟨0, start, ?_⟩)
  decide

/-- On such a screen it is drawn, in column 600 of row 300. -/
theorem kmain_draws_svga :
    ∃ stores, kmainStores svga = .ok stores ∧
      ∃ store ∈ stores, store.color = 0xFFFFFF ∧ store.index.toNat = 300 * 800 + 600 := by
  rcases kmain_draws svga with ⟨stores, points, ran, _, shapes, stored, written⟩
  have called := (shapes _).mpr mem_kmainShapes_svga
  rcases (written 600 (by decide) 300 (by decide)).mpr ⟨by decide, called⟩ with
    ⟨store, mem, index⟩
  exact ⟨stores, ran, store, mem, (stored store mem).1, index⟩

end Benamos.Draw
