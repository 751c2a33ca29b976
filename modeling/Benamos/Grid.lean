import Mathlib.Algebra.Order.Group.Abs
import Mathlib.Algebra.Order.Ring.Int
import Mathlib.Data.Set.Basic
import Mathlib.Logic.Relation

/-!
# Connected sets and the integer grid

A set is connected with respect to a symmetric relation if any two of its points are joined by steps
of the relation inside the set. A sequence of related points is connected, and so is the union of
two connected sets that meet. On the grid two points are adjacent, as a king moves, if neither
coordinate differs by more than one.
-/

namespace Grid

section

variable {α : Type*} {adjacent : α → α → Prop} {points : Set α} {p q : α}

def Joined (adjacent : α → α → Prop) (points : Set α) : α → α → Prop :=
  Relation.ReflTransGen fun p q => p ∈ points ∧ q ∈ points ∧ adjacent p q

def Connected (adjacent : α → α → Prop) (points : Set α) : Prop :=
  ∀ p ∈ points, ∀ q ∈ points, Joined adjacent points p q

theorem Joined.single (pMem : p ∈ points) (qMem : q ∈ points) (near : adjacent p q) :
    Joined adjacent points p q :=
  Relation.ReflTransGen.single ⟨pMem, qMem, near⟩

theorem Joined.symm [Std.Symm adjacent] (joined : Joined adjacent points p q) :
    Joined adjacent points q p := by
  induction joined with
  | refl => exact .refl
  | tail _ step ih => exact .head ⟨step.2.1, step.1, Std.Symm.symm _ _ step.2.2⟩ ih

theorem Joined.trans {r : α} (first : Joined adjacent points p q)
    (second : Joined adjacent points q r) : Joined adjacent points p r :=
  Relation.ReflTransGen.trans first second

theorem joined_chain {f : ℕ → α} {count : ℕ} (mem : ∀ k ≤ count, f k ∈ points)
    (near : ∀ k < count, adjacent (f k) (f (k + 1))) :
    Joined adjacent points (f 0) (f count) := by
  induction count with
  | zero => exact .refl
  | succ count ih =>
      have before := ih (fun k le => mem k (Nat.le_succ_of_le le))
        (fun k lt => near k (Nat.lt_succ_of_lt lt))
      exact before.trans (.single (mem count (Nat.le_succ _)) (mem (count + 1) (Nat.le_refl _))
        (near count (Nat.lt_succ_self _)))

/-- The points of a sequence are joined in any order. -/
theorem joined_of_chain [Std.Symm adjacent] {f : ℕ → α} {last : ℕ}
    (mem : ∀ k ≤ last, f k ∈ points) (near : ∀ k < last, adjacent (f k) (f (k + 1))) {j k : ℕ}
    (j_le : j ≤ last) (k_le : k ≤ last) : Joined adjacent points (f j) (f k) := by
  have toFirst {k : ℕ} (k_le : k ≤ last) : Joined adjacent points (f 0) (f k) :=
    joined_chain (fun i le => mem i (Nat.le_trans le k_le))
      (fun i lt => near i (Nat.lt_of_lt_of_le lt k_le))
  exact (toFirst j_le).symm.trans (toFirst k_le)

theorem Joined.mono {more : Set α} (subset : points ⊆ more) (joined : Joined adjacent points p q) :
    Joined adjacent more p q := by
  induction joined with
  | refl => exact .refl
  | tail _ step ih => exact .tail ih ⟨subset step.1, subset step.2.1, step.2.2⟩

/-- Two connected sets with a common point make one. The second may also be empty. -/
theorem Connected.union [Std.Symm adjacent] {first second : Set α}
    (firstConnected : Connected adjacent first) (secondConnected : Connected adjacent second)
    (meet : second.Nonempty → (first ∩ second).Nonempty) :
    Connected adjacent (first ∪ second) := by
  have crossing {p q : α} (pMem : p ∈ first) (qMem : q ∈ second) :
      Joined adjacent (first ∪ second) p q := by
    rcases meet ⟨q, qMem⟩ with ⟨common, inFirst, inSecond⟩
    have before := firstConnected p pMem common inFirst
    have after := secondConnected common inSecond q qMem
    exact (before.mono Set.subset_union_left).trans (after.mono Set.subset_union_right)
  rintro p (pMem | pMem) q (qMem | qMem)
  · exact (firstConnected p pMem q qMem).mono Set.subset_union_left
  · exact crossing pMem qMem
  · exact (crossing qMem pMem).symm
  · exact (secondConnected p pMem q qMem).mono Set.subset_union_right

end

/-! ### The grid -/

/-- A king's move, or none. -/
def Adjacent (p q : ℤ × ℤ) : Prop := |p.1 - q.1| ≤ 1 ∧ |p.2 - q.2| ≤ 1

instance : Std.Symm Adjacent where
  symm := by
    rintro p q ⟨columns, rows⟩
    rw [abs_sub_comm] at columns rows
    exact ⟨columns, rows⟩

/-- A sequence that goes down by at most one in a step skips no value. -/
theorem exists_eq_of_descends {f : ℕ → ℤ} (descends : ∀ k, f k - 1 ≤ f (k + 1)) {last : ℕ}
    {value : ℤ} (above : value ≤ f 0) (below : f last ≤ value) : ∃ k ≤ last, f k = value := by
  induction last with
  | zero => exact ⟨0, Nat.le_refl _, Int.le_antisymm below above⟩
  | succ last ih =>
      by_cases reached : f last ≤ value
      · rcases ih reached with ⟨k, k_le, same⟩
        exact ⟨k, Nat.le_succ_of_le k_le, same⟩
      · have step := descends last
        exact ⟨last + 1, Nat.le_refl _, by omega⟩

/-! ### Row-major order -/

section

variable {columns rows x y : ℕ}

theorem rowMajor_lt (x_lt : x < columns) (y_lt : y < rows) : y * columns + x < columns * rows := by
  calc
    y * columns + x < y * columns + columns := Nat.add_lt_add_left x_lt _
    _ = columns * (y + 1) := by rw [Nat.mul_succ, Nat.mul_comm]
    _ ≤ columns * rows := Nat.mul_le_mul_left _ y_lt

theorem rowMajor_inj {x' y' : ℕ} (x_lt : x < columns) (x'_lt : x' < columns) :
    y * columns + x = y' * columns + x' ↔ x = x' ∧ y = y' := by
  constructor
  · intro same
    have columnsSame : x = x' := by
      have remainders := congrArg (· % columns) same
      simpa only [Nat.mul_add_mod', Nat.mod_eq_of_lt x_lt, Nat.mod_eq_of_lt x'_lt] using remainders
    subst columnsSame
    exact ⟨rfl, Nat.eq_of_mul_eq_mul_right (Nat.zero_lt_of_lt x_lt) (Nat.add_right_cancel same)⟩
  · rintro ⟨rfl, rfl⟩
    rfl

end

end Grid
