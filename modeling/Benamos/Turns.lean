import Mathlib.Data.Nat.Init
import Mathlib.Logic.Basic
import Mathlib.Tactic.Common

/-!
# Actors that take turns

A schedule says whose turn it is next. What every turn keeps holds after any number of turns of any
schedule. If every actor gets its turn again and again, a state is reached that is done as soon as
in every other state some actor would bring it closer and no turn of another actor takes that away.
-/

namespace Turns

variable {State Actor : Type*} {act : State → Actor → State}

/-- The state after the first `count` turns. -/
def after (act : State → Actor → State) (schedule : ℕ → Actor) (state : State) : ℕ → State
  | 0 => state
  | count + 1 => act (after act schedule state count) (schedule count)

theorem invariant (Invariant : State → Prop)
    (keeps : ∀ state actor, Invariant state → Invariant (act state actor))
    (schedule : ℕ → Actor) {state : State} (initial : Invariant state) (count : ℕ) :
    Invariant (after act schedule state count) := by
  induction count with
  | zero => exact initial
  | succ count ih => exact keeps _ _ ih

/-- Every actor gets its turn again and again. -/
def Fair (schedule : ℕ → Actor) : Prop :=
  ∀ actor count, ∃ later, count ≤ later ∧ schedule later = actor

/-- In a state that is not done a turn of `helpful` lowers the rank, and any other turn lowers it
too or leaves the rank and the helpful actor as they are. -/
structure Progresses (act : State → Actor → State) (Done : State → Prop) (rank : State → ℕ)
    (helpful : State → Actor) : Prop where
  lowers : ∀ state, ¬Done state → rank (act state (helpful state)) < rank state
  waits : ∀ state actor, ¬Done state → rank (act state actor) < rank state ∨
    rank (act state actor) = rank state ∧ helpful (act state actor) = helpful state

namespace Progresses

variable {Done : State → Prop} {rank : State → ℕ} {helpful : State → Actor} {schedule : ℕ → Actor}
  {state : State}

/-- Up to a later turn something has happened, or the same actor is still waited for. -/
theorem waits_until (progresses : Progresses act Done rank helpful) {count later : ℕ}
    (ordered : count ≤ later) :
    (∃ between, Done (after act schedule state between) ∨
      rank (after act schedule state between) < rank (after act schedule state count)) ∨
    rank (after act schedule state later) = rank (after act schedule state count) ∧
      helpful (after act schedule state later) = helpful (after act schedule state count) := by
  induction later, ordered using Nat.le_induction with
  | base => exact Or.inr ⟨rfl, rfl⟩
  | succ later ordered ih =>
      rcases ih with happened | ⟨rank_eq, helpful_eq⟩
      · exact Or.inl happened
      · by_cases done : Done (after act schedule state later)
        · exact Or.inl ⟨later, Or.inl done⟩
        · rcases progresses.waits _ (schedule later) done with lower | ⟨same, sameHelpful⟩
          · rw [rank_eq] at lower
            exact Or.inl ⟨later + 1, Or.inr lower⟩
          · exact Or.inr ⟨same.trans rank_eq, sameHelpful.trans helpful_eq⟩

theorem exists_lower (progresses : Progresses act Done rank helpful) (fair : Fair schedule)
    (count : ℕ) :
    ∃ between, Done (after act schedule state between) ∨
      rank (after act schedule state between) < rank (after act schedule state count) := by
  rcases fair (helpful (after act schedule state count)) count with ⟨later, ordered, turn⟩
  rcases progresses.waits_until ordered with happened | ⟨rank_eq, helpful_eq⟩
  · exact happened
  · by_cases done : Done (after act schedule state later)
    · exact ⟨later, Or.inl done⟩
    · have lower := progresses.lowers _ done
      rw [helpful_eq, ← turn, rank_eq] at lower
      exact ⟨later + 1, Or.inr lower⟩

/-- On a fair schedule the state is done at some time. -/
theorem exists_done (progresses : Progresses act Done rank helpful) (fair : Fair schedule)
    (state : State) : ∃ count, Done (after act schedule state count) := by
  have fromRank : ∀ bound count, rank (after act schedule state count) = bound →
      ∃ count, Done (after act schedule state count) := by
    intro bound
    induction bound using Nat.strong_induction_on with
    | _ bound ih =>
        intro count rank_eq
        rcases progresses.exists_lower fair count with ⟨between, done | lower⟩
        · exact ⟨between, done⟩
        · exact ih _ (rank_eq ▸ lower) between rfl
  exact fromRank _ 0 rfl

end Progresses

end Turns
