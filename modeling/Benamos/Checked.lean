import Mathlib.Data.Nat.Notation
import Mathlib.Tactic.Common

/-!
# Computations that can fail and while loops over them

A `While` is a guard, a body that may fail, and a rank that every round lowers, so a loop always
ends, in a failure or in a state its guard refuses. `Reaches` says which state a number of rounds
leads to. The rules reduce statements about runs to statements about one round: an invariant for the
states that are reached, and one from which no round fails.
-/

namespace Checked

universe u

theorem bind_eq_ok_iff {ε : Type*} {α β : Type u} {computation : Except ε α} {next : α → Except ε β}
    {result : β} :
    (computation >>= next) = .ok result ↔
      ∃ value, computation = .ok value ∧ next value = .ok result := by
  cases computation with
  | error fault => simp [Bind.bind, Except.bind]
  | ok value => simp [Bind.bind, Except.bind]

theorem pure_eq_ok_iff {ε α : Type*} {value result : α} :
    (pure value : Except ε α) = .ok result ↔ result = value := by
  rw [pure, Applicative.toPure, Monad.toApplicative]
  exact ⟨fun same => (Except.ok.inj same).symm, fun same => congrArg _ same.symm⟩

structure While (ε σ : Type*) where
  guard : σ → Bool
  body : σ → Except ε σ
  rank : σ → ℕ
  rank_lt : ∀ {state next}, guard state → body state = .ok next → rank next < rank state

namespace While

variable {ε σ : Type*}

def run (loop : While ε σ) (state : σ) : Except ε σ :=
  if _guarded : loop.guard state then
    match _done : loop.body state with
    | .error fault => .error fault
    | .ok next => loop.run next
  else .ok state
termination_by loop.rank state
decreasing_by exact loop.rank_lt _guarded _done

inductive Reaches (loop : While ε σ) (start : σ) : ℕ → σ → Prop
  | refl : Reaches loop start 0 start
  | step {count : ℕ} {state next : σ} (reaches : Reaches loop start count state)
      (guarded : loop.guard state) (done : loop.body state = .ok next) :
      Reaches loop start (count + 1) next

variable {loop : While ε σ} {start state next : σ} {count : ℕ}

theorem run_of_refused (refused : loop.guard state = false) : loop.run state = .ok state := by
  rw [run, dif_neg (by simp [refused])]

theorem run_of_ok (guarded : loop.guard state) (done : loop.body state = .ok next) :
    loop.run state = loop.run next := by
  rw [run, dif_pos guarded]
  split
  · rename_i failed
    rw [done] at failed
    contradiction
  · rename_i other same
    rw [done] at same
    cases same
    rfl

theorem run_of_guarded (guarded : loop.guard state) :
    loop.run state = loop.body state >>= loop.run := by
  cases done : loop.body state with
  | error fault =>
      rw [run, dif_pos guarded]
      split
      · rename_i same
        rw [done] at same
        exact same ▸ rfl
      · rename_i same
        rw [done] at same
        contradiction
  | ok next => exact run_of_ok guarded done

theorem exists_body_of_run {result : σ} (guarded : loop.guard state)
    (ran : loop.run state = .ok result) : ∃ next, loop.body state = .ok next := by
  rw [run, dif_pos guarded] at ran
  split at ran
  · contradiction
  · rename_i next done
    exact ⟨next, done⟩

theorem Reaches.head (guarded : loop.guard start) (done : loop.body start = .ok next)
    (reaches : loop.Reaches next count state) : loop.Reaches start (count + 1) state := by
  induction reaches with
  | refl => exact .step .refl guarded done
  | step _ guarded done ih => exact .step ih guarded done

theorem Reaches.run_eq (reaches : loop.Reaches start count state) :
    loop.run start = loop.run state := by
  induction reaches with
  | refl => rfl
  | step _ guarded done ih => rw [ih, run_of_ok guarded done]

theorem run_eq_ok_iff {result : σ} :
    loop.run start = .ok result ↔
      (∃ count, loop.Reaches start count result) ∧ loop.guard result = false := by
  constructor
  · intro ran
    induction start using run.induct loop with
    | case1 start guarded fault done =>
        rcases exists_body_of_run guarded ran with ⟨next, other⟩
        rw [done] at other
        contradiction
    | case2 start guarded next done ih =>
        rw [run_of_ok guarded done] at ran
        rcases ih ran with ⟨⟨count, reaches⟩, refused⟩
        exact ⟨⟨count + 1, reaches.head guarded done⟩, refused⟩
    | case3 start refused =>
        rw [Bool.not_eq_true] at refused
        rw [run_of_refused refused, Except.ok.injEq] at ran
        subst ran
        exact ⟨⟨0, .refl⟩, refused⟩
  · rintro ⟨⟨count, reaches⟩, refused⟩
    rw [reaches.run_eq, run_of_refused refused]

/-- No round of a successful run fails. -/
theorem Reaches.exists_body {result : σ} (reaches : loop.Reaches start count state)
    (ran : loop.run start = .ok result) (guarded : loop.guard state) :
    ∃ next, loop.body state = .ok next := by
  rw [reaches.run_eq] at ran
  exact exists_body_of_run guarded ran

theorem Reaches.invariant (Invariant : ℕ → σ → Prop) (initial : Invariant 0 start)
    (keeps : ∀ count state next, Invariant count state → loop.guard state →
      loop.body state = .ok next → Invariant (count + 1) next)
    (reaches : loop.Reaches start count state) : Invariant count state := by
  induction reaches with
  | refl => exact initial
  | step _ guarded done ih => exact keeps _ _ _ ih guarded done

theorem Reaches.add_rank_le (reaches : loop.Reaches start count state) :
    count + loop.rank state ≤ loop.rank start := by
  induction reaches with
  | refl => omega
  | step _ guarded done ih =>
      have lower := loop.rank_lt guarded done
      omega

/-- If no round fails from a state that satisfies the invariant, the run succeeds. -/
theorem exists_run (Invariant : σ → Prop) (initial : Invariant start)
    (keeps : ∀ state, Invariant state → loop.guard state →
      ∃ next, loop.body state = .ok next ∧ Invariant next) :
    ∃ result, loop.run start = .ok result := by
  induction start using run.induct loop with
  | case1 start guarded fault failed =>
      rcases keeps start initial guarded with ⟨next, done, _⟩
      rw [failed] at done
      contradiction
  | case2 start guarded next done ih =>
      rcases keeps start initial guarded with ⟨other, same, kept⟩
      rw [done, Except.ok.injEq] at same
      subst same
      rw [run_of_ok guarded done]
      exact ih kept
  | case3 start refused =>
      rw [Bool.not_eq_true] at refused
      exact ⟨start, run_of_refused refused⟩

end While

end Checked
