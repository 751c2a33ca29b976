import Benamos.Checked
import Benamos.Types
import Mathlib.Data.List.Range
import Mathlib.Data.Set.Defs
import Mathlib.Tactic.Common

/-!
# The shapes `main.c` draws

`draw_circle_outline` and the cap of `draw_cylinder_outline` have a loop each, with the same guard
and with updates of `x`, `y` and `d` that differ in how they are parenthesised. Signed arithmetic is
checked: an operation that leaves the range of `int` ends the run. What a shape is made of are the
points `put_pixel` is called with; what reaches the screen are the stores these calls make.
-/

namespace Benamos.Draw

open Checked

/-! ### Signed arithmetic -/

/-- A signed operation left the range of `int`, which C leaves undefined. -/
inductive Overflow where
  | overflow
deriving DecidableEq, Repr

def InRange (value : ℤ) : Prop := -2 ^ 31 ≤ value ∧ value < 2 ^ 31

instance (value : ℤ) : Decidable (InRange value) :=
  inferInstanceAs (Decidable (_ ∧ _))

def int (value : ℤ) : Except Overflow ℤ :=
  if InRange value then .ok value else .error .overflow

theorem int_eq_ok_iff {value result : ℤ} :
    int value = .ok result ↔ result = value ∧ InRange value := by
  rw [int]
  split_ifs with inRange
  · simp [inRange, eq_comm]
  · simp [inRange]

theorem int_of_inRange {value : ℤ} (inRange : InRange value) : int value = .ok value :=
  if_pos inRange

/-! ### The octant -/

/-- The variables `x`, `y` and `d` of a loop. -/
@[ext]
structure Raster where
  x : ℤ
  y : ℤ
  d : ℤ
deriving DecidableEq, Repr

/-- The points `put_pixel` is called with in one round of `draw_circle_outline`. -/
def circlePoints (cx cy x y : ℤ) : Except Overflow (List (ℤ × ℤ)) := do
  let right ← int (cx + x)
  let left ← int (cx - x)
  let farRight ← int (cx + y)
  let farLeft ← int (cx - y)
  let bottom ← int (cy + y)
  let top ← int (cy - y)
  let lower ← int (cy + x)
  let upper ← int (cy - x)
  return [(right, bottom), (left, bottom), (right, top), (left, top), (farRight, lower),
    (farLeft, lower), (farRight, upper), (farLeft, upper)]

/-- The points `put_pixel` is called with in one round of the cap. -/
def capPoints (cx topY radius x y : ℤ) : Except Overflow (List (ℤ × ℤ)) := do
  let right ← int (cx + x)
  let left ← int (cx - x)
  let farRight ← int (cx + y)
  let farLeft ← int (cx - y)
  let center ← int (topY + radius)
  let top ← int (center - y)
  let upper ← int (center - x)
  return [(right, top), (left, top), (farRight, upper), (farLeft, upper)]

/-- The updates at the end of a round of `draw_circle_outline`. -/
def circleAdvance (raster : Raster) : Except Overflow Raster := do
  let x ← int (raster.x + 1)
  if raster.d < 0 then
    let product ← int (4 * x)
    let sum ← int (raster.d + product)
    let d ← int (sum + 6)
    return ⟨x, raster.y, d⟩
  else
    let y ← int (raster.y - 1)
    let difference ← int (x - y)
    let product ← int (4 * difference)
    let sum ← int (raster.d + product)
    let d ← int (sum + 10)
    return ⟨x, y, d⟩

/-- The updates at the end of a round of the cap. -/
def capAdvance (raster : Raster) : Except Overflow Raster := do
  let x ← int (raster.x + 1)
  if raster.d < 0 then
    let product ← int (4 * x)
    let increment ← int (product + 6)
    let d ← int (raster.d + increment)
    return ⟨x, raster.y, d⟩
  else
    let y ← int (raster.y - 1)
    let difference ← int (x - y)
    let product ← int (4 * difference)
    let increment ← int (product + 10)
    let d ← int (raster.d + increment)
    return ⟨x, y, d⟩

/-- The updates without overflow, which are the same for both loops. -/
def Raster.next (raster : Raster) : Raster :=
  if raster.d < 0 then
    ⟨raster.x + 1, raster.y, raster.d + 4 * (raster.x + 1) + 6⟩
  else
    ⟨raster.x + 1, raster.y - 1, raster.d + 4 * (raster.x + 1 - (raster.y - 1)) + 10⟩

theorem circleAdvance_eq {raster next : Raster} (advanced : circleAdvance raster = .ok next) :
    next = raster.next := by
  rw [Raster.next]
  split_ifs with negative
  · simp only [circleAdvance, negative, if_true, bind_eq_ok_iff, int_eq_ok_iff,
      pure_eq_ok_iff] at advanced
    rcases advanced with ⟨x, ⟨rfl, _⟩, product, ⟨rfl, _⟩, sum, ⟨rfl, _⟩, d, ⟨rfl, _⟩, rfl⟩
    rfl
  · simp only [circleAdvance, negative, if_false, bind_eq_ok_iff, int_eq_ok_iff,
      pure_eq_ok_iff] at advanced
    rcases advanced with ⟨x, ⟨rfl, _⟩, y, ⟨rfl, _⟩, difference, ⟨rfl, _⟩, product, ⟨rfl, _⟩, sum,
      ⟨rfl, _⟩, d, ⟨rfl, _⟩, rfl⟩
    rfl

theorem capAdvance_eq {raster next : Raster} (advanced : capAdvance raster = .ok next) :
    next = raster.next := by
  rw [Raster.next]
  split_ifs with negative
  · simp only [capAdvance, negative, if_true, bind_eq_ok_iff, int_eq_ok_iff,
      pure_eq_ok_iff] at advanced
    rcases advanced with ⟨x, ⟨rfl, _⟩, product, ⟨rfl, _⟩, increment, ⟨rfl, _⟩, d, ⟨rfl, _⟩, rfl⟩
    rw [Int.add_assoc]
  · simp only [capAdvance, negative, if_false, bind_eq_ok_iff, int_eq_ok_iff,
      pure_eq_ok_iff] at advanced
    rcases advanced with ⟨x, ⟨rfl, _⟩, y, ⟨rfl, _⟩, difference, ⟨rfl, _⟩, product, ⟨rfl, _⟩,
      increment, ⟨rfl, _⟩, d, ⟨rfl, _⟩, rfl⟩
    rw [Int.add_assoc]

/-- The eight mirror images of a point of the octant. -/
def circleImages (cx cy x y : ℤ) : List (ℤ × ℤ) :=
  [(cx + x, cy + y), (cx - x, cy + y), (cx + x, cy - y), (cx - x, cy - y), (cx + y, cy + x),
    (cx - y, cy + x), (cx + y, cy - x), (cx - y, cy - x)]

/-- The four of them in the cap. -/
def capImages (cx cy x y : ℤ) : List (ℤ × ℤ) :=
  [(cx + x, cy - y), (cx - x, cy - y), (cx + y, cy - x), (cx - y, cy - x)]

theorem circlePoints_eq {cx cy x y : ℤ} {points : List (ℤ × ℤ)}
    (called : circlePoints cx cy x y = .ok points) : points = circleImages cx cy x y := by
  simp only [circlePoints, bind_eq_ok_iff, int_eq_ok_iff, pure_eq_ok_iff] at called
  rcases called with ⟨_, ⟨rfl, _⟩, _, ⟨rfl, _⟩, _, ⟨rfl, _⟩, _, ⟨rfl, _⟩, _, ⟨rfl, _⟩, _,
    ⟨rfl, _⟩, _, ⟨rfl, _⟩, _, ⟨rfl, _⟩, rfl⟩
  rfl

theorem capPoints_eq {cx topY radius x y : ℤ} {points : List (ℤ × ℤ)}
    (called : capPoints cx topY radius x y = .ok points) :
    points = capImages cx (topY + radius) x y := by
  simp only [capPoints, bind_eq_ok_iff, int_eq_ok_iff, pure_eq_ok_iff] at called
  rcases called with ⟨_, ⟨rfl, _⟩, _, ⟨rfl, _⟩, _, ⟨rfl, _⟩, _, ⟨rfl, _⟩, _, ⟨rfl, _⟩, _,
    ⟨rfl, _⟩, _, ⟨rfl, _⟩, rfl⟩
  rfl

/-! ### The loops -/

/-- What a loop does in a round, and what it does without overflow. -/
structure Outline where
  points : ℤ → ℤ → Except Overflow (List (ℤ × ℤ))
  advance : Raster → Except Overflow Raster
  images : ℤ → ℤ → List (ℤ × ℤ)
  points_eq : ∀ {x y called}, points x y = .ok called → called = images x y
  advance_eq : ∀ {raster next}, advance raster = .ok next → next = raster.next

def circle (cx cy : ℤ) : Outline where
  points := circlePoints cx cy
  advance := circleAdvance
  images := circleImages cx cy
  points_eq := circlePoints_eq
  advance_eq := circleAdvance_eq

def cap (cx topY radius : ℤ) : Outline where
  points := capPoints cx topY radius
  advance := capAdvance
  images := capImages cx (topY + radius)
  points_eq := capPoints_eq
  advance_eq := capAdvance_eq

/-- The variables of a loop and the points `put_pixel` was called with so far. -/
structure Pen where
  raster : Raster
  calls : List (ℤ × ℤ)

def Outline.body (outline : Outline) (pen : Pen) : Except Overflow Pen := do
  let points ← outline.points pen.raster.x pen.raster.y
  let raster ← outline.advance pen.raster
  return ⟨raster, pen.calls ++ points⟩

def Outline.next (outline : Outline) (pen : Pen) : Pen :=
  ⟨pen.raster.next, pen.calls ++ outline.images pen.raster.x pen.raster.y⟩

theorem Outline.body_eq {outline : Outline} {pen next : Pen}
    (done : outline.body pen = .ok next) : next = outline.next pen := by
  simp only [body, bind_eq_ok_iff, pure_eq_ok_iff] at done
  rcases done with ⟨points, called, raster, advanced, rfl⟩
  rw [Outline.next, outline.points_eq called, outline.advance_eq advanced]

/-- The guard of the loops, `y >= x`. -/
def Raster.InOctant (raster : Raster) : Prop := raster.x ≤ raster.y

instance (raster : Raster) : Decidable raster.InOctant :=
  inferInstanceAs (Decidable (_ ≤ _))

theorem Raster.x_next (raster : Raster) : raster.next.x = raster.x + 1 := by
  rw [next]
  split_ifs <;> rfl

theorem Raster.y_next (raster : Raster) :
    raster.next.y = raster.y ∨ raster.next.y = raster.y - 1 := by
  rw [next]
  split_ifs
  · exact .inl rfl
  · exact .inr rfl

def Outline.loop (outline : Outline) : While Overflow Pen where
  guard pen := pen.raster.InOctant
  body := outline.body
  rank pen := (pen.raster.y - pen.raster.x + 1).toNat
  rank_lt {pen next} guarded done := by
    have x_eq := pen.raster.x_next
    have y_eq := pen.raster.y_next
    rw [decide_eq_true_eq, Raster.InOctant] at guarded
    rw [body_eq done, Outline.next]
    dsimp only
    omega

def Outline.calls (outline : Outline) (radius : ℤ) : Except Overflow (List (ℤ × ℤ)) := do
  let twice ← int (2 * radius)
  let d ← int (3 - twice)
  let pen ← outline.loop.run ⟨⟨0, radius, d⟩, []⟩
  return pen.calls

/-! ### The sides of the cylinder -/

structure Sides where
  y : ℤ
  calls : List (ℤ × ℤ)

def sides (xLeft xRight baseY : ℤ) : While Overflow Sides where
  guard state := state.y < baseY
  body state := do
    let y ← int (state.y + 1)
    return ⟨y, state.calls ++ [(xLeft, state.y), (xRight, state.y)]⟩
  rank state := (baseY - state.y).toNat
  rank_lt {state next} guarded done := by
    simp only [bind_eq_ok_iff, int_eq_ok_iff, pure_eq_ok_iff] at done
    rcases done with ⟨y, ⟨rfl, _⟩, rfl⟩
    rw [decide_eq_true_eq] at guarded
    dsimp only
    omega

/-! ### The functions of `main.c` -/

def circleCalls (cx cy r : ℤ) : Except Overflow (List (ℤ × ℤ)) := (circle cx cy).calls r

def cylinderCalls (cx baseY height radius : ℤ) : Except Overflow (List (ℤ × ℤ)) := do
  let xLeft ← int (cx - radius)
  let xRight ← int (cx + radius)
  let topY ← int (baseY - height)
  let start ← int (topY + radius)
  let state ← (sides xLeft xRight baseY).run ⟨start, []⟩
  let calls ← (cap cx topY radius).calls radius
  return state.calls ++ calls

/-- The arguments that the shapes hand on to `put_pixel`. -/
structure Canvas where
  pitch : ℤ
  width : ℤ
  height : ℤ
  color : U32
deriving DecidableEq, Repr

/-- A store `fb[y * pitch + x] = color`. -/
structure Store where
  x : ℤ
  y : ℤ
  pitch : U64
  color : U32
deriving DecidableEq, Repr

/-- The index of the word: `pitch` has 64 bits and no sign, so the coordinates are converted. -/
def Store.index (store : Store) : U64 :=
  BitVec.ofInt 64 store.y * store.pitch + BitVec.ofInt 64 store.x

def Canvas.OnScreen (canvas : Canvas) (point : ℤ × ℤ) : Prop :=
  (0 ≤ point.1 ∧ point.1 < canvas.width) ∧ 0 ≤ point.2 ∧ point.2 < canvas.height

instance (canvas : Canvas) (point : ℤ × ℤ) : Decidable (canvas.OnScreen point) :=
  inferInstanceAs (Decidable (_ ∧ _))

def putPixel (canvas : Canvas) (point : ℤ × ℤ) : List Store :=
  if canvas.OnScreen point then
    [⟨point.1, point.2, BitVec.ofInt 64 canvas.pitch, canvas.color⟩]
  else []

def drawCircleOutline (canvas : Canvas) (cx cy r : ℤ) : Except Overflow (List Store) := do
  let calls ← circleCalls cx cy r
  return calls.flatMap (putPixel canvas)

def drawCylinderOutline (canvas : Canvas) (cx baseY height radius : ℤ) :
    Except Overflow (List Store) := do
  let calls ← cylinderCalls cx baseY height radius
  return calls.flatMap (putPixel canvas)

theorem drawCircleOutline_eq_ok_iff {canvas : Canvas} {cx cy r : ℤ} {stores : List Store} :
    drawCircleOutline canvas cx cy r = .ok stores ↔
      ∃ calls, circleCalls cx cy r = .ok calls ∧ stores = calls.flatMap (putPixel canvas) := by
  simp only [drawCircleOutline, bind_eq_ok_iff, pure_eq_ok_iff]

theorem drawCylinderOutline_eq_ok_iff {canvas : Canvas} {cx baseY height radius : ℤ}
    {stores : List Store} :
    drawCylinderOutline canvas cx baseY height radius = .ok stores ↔
      ∃ calls, cylinderCalls cx baseY height radius = .ok calls ∧
        stores = calls.flatMap (putPixel canvas) := by
  simp only [drawCylinderOutline, bind_eq_ok_iff, pure_eq_ok_iff]

def pixels (stores : List Store) : Set (ℤ × ℤ) :=
  {point | ∃ store ∈ stores, (store.x, store.y) = point}

theorem mem_stores_iff {canvas : Canvas} {calls : List (ℤ × ℤ)} {store : Store} :
    store ∈ calls.flatMap (putPixel canvas) ↔ ∃ point ∈ calls, canvas.OnScreen point ∧
      store = ⟨point.1, point.2, BitVec.ofInt 64 canvas.pitch, canvas.color⟩ := by
  rw [List.mem_flatMap]
  apply exists_congr
  intro point
  apply and_congr_right
  intro _
  rw [putPixel]
  split_ifs with onScreen
  · simp only [onScreen, List.mem_singleton, true_and]
  · simp only [onScreen, List.not_mem_nil, false_and]

/-- Clipping keeps the points on screen and drops the others. -/
theorem mem_pixels_putPixel {canvas : Canvas} {calls : List (ℤ × ℤ)} {point : ℤ × ℤ} :
    point ∈ pixels (calls.flatMap (putPixel canvas)) ↔ point ∈ calls ∧ canvas.OnScreen point := by
  constructor
  · rintro ⟨store, mem, rfl⟩
    rcases mem_stores_iff.mp mem with ⟨call, called, onScreen, rfl⟩
    exact ⟨called, onScreen⟩
  · rintro ⟨called, onScreen⟩
    exact ⟨_, mem_stores_iff.mpr ⟨point, called, onScreen, rfl⟩, rfl⟩

end Benamos.Draw
