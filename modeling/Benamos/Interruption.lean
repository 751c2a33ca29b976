import Mathlib.Data.List.Basic
import Mathlib.Data.Set.Defs
import Mathlib.Tactic.Common

/-!
# Handing over while being interrupted

A sender that polls a queue before it puts an item in may be interrupted between the two, by another
sender that does the same and may itself be interrupted. Each of them may then put in an item
although the queue is no longer empty. The queue overflows only if there are more senders than it
has places, and up to then the items of each sender come out in order, with those of whole
interruptions between them.
-/

namespace Interruption

variable {Item : Type*}

/-- `ready` says that the sender has seen the queue empty and not put anything in since. -/
structure Sender (Item : Type*) where
  handed : List Item
  pending : List Item
  ready : Bool

/-- The senders behind the running one wait for it, the one it interrupted first. -/
structure State (Item : Type*) where
  running : Sender Item
  suspended : List (Sender Item)
  queue : List Item
  delivered : List Item

namespace Sender

def own (sender : Sender Item) : List Item := sender.handed ++ sender.pending

end Sender

namespace State

/-- The running sender goes on, or returns to the one it interrupted. -/
def send (capacity : ℕ) (state : State Item) : State Item :=
  match state.running.pending with
  | [] =>
      match state.suspended with
      | [] => state
      | sender :: suspended => { state with running := sender, suspended }
  | item :: pending =>
      if state.running.ready then
        { state with
          running := ⟨state.running.handed ++ [item], pending, false⟩
          queue := if state.queue.length < capacity then state.queue ++ [item] else state.queue }
      else
        { state with running := { state.running with ready := state.queue.isEmpty } }

def receive (state : State Item) : State Item :=
  match state.queue with
  | [] => state
  | item :: queue => { state with queue, delivered := state.delivered ++ [item] }

def interrupt (items : List Item) (state : State Item) : State Item :=
  { state with running := ⟨[], items, false⟩, suspended := state.running :: state.suspended }

end State

/-! ### What comes out -/

/-- The items in order, with the outputs of whole interruptions anywhere between them. -/
inductive Woven (handlers : Set (List Item)) : List Item → List Item → Prop
  | nil : Woven handlers [] []
  | item {own shown : List Item} (item : Item) (woven : Woven handlers own shown) :
      Woven handlers (own ++ [item]) (shown ++ [item])
  | interruption {own shown inner output : List Item} (woven : Woven handlers own shown)
      (mem : inner ∈ handlers) (innerWoven : Woven handlers inner output) :
      Woven handlers own (shown ++ output)

/-- What is shown at some moment: the beginning of the items with whole interruptions in it, and
then the beginning of an interruption that is not over. -/
inductive Weaves (handlers : Set (List Item)) : List Item → List Item → Prop
  | between {own handed shown : List Item} (atFront : handed <+: own)
      (woven : Woven handlers handed shown) : Weaves handlers own shown
  | inside {own handed shown inner output : List Item} (atFront : handed <+: own)
      (woven : Woven handlers handed shown) (mem : inner ∈ handlers)
      (weaves : Weaves handlers inner output) : Weaves handlers own (shown ++ output)

/-- What the senders have shown, from the outermost one on. -/
inductive Shows (handlers : Set (List Item)) (own : List Item) :
    Sender Item → List (Sender Item) → List Item → Prop
  | outermost {sender : Sender Item} {shown : List Item} (own_eq : sender.own = own)
      (woven : Woven handlers sender.handed shown) : Shows handlers own sender [] shown
  | inner {sender outer : Sender Item} {others : List (Sender Item)} {shown output : List Item}
      (shows : Shows handlers own outer others shown) (mem : sender.own ∈ handlers)
      (woven : Woven handlers sender.handed output) :
      Shows handlers own sender (outer :: others) (shown ++ output)

namespace Shows

variable {handlers : Set (List Item)} {own shown : List Item} {sender outer : Sender Item}
  {others : List (Sender Item)}

theorem poll (shows' : Shows handlers own sender others shown) (ready : Bool) :
    Shows handlers own { sender with ready } others shown := by
  cases shows' with
  | outermost own_eq woven => exact .outermost own_eq woven
  | inner shows' mem woven => exact .inner shows' mem woven

theorem hand (shows' : Shows handlers own sender others shown) {item : Item} {pending : List Item}
    (pending_eq : sender.pending = item :: pending) (ready : Bool) :
    Shows handlers own ⟨sender.handed ++ [item], pending, ready⟩ others (shown ++ [item]) := by
  have same : Sender.own ⟨sender.handed ++ [item], pending, ready⟩ = sender.own := by
    simp [Sender.own, pending_eq]
  cases shows' with
  | outermost own_eq woven => exact .outermost (same.trans own_eq) (woven.item item)
  | inner shows' mem woven =>
      rw [List.append_assoc]
      exact .inner shows' (by rwa [same]) (woven.item item)

theorem interrupt (shows' : Shows handlers own sender others shown) {items : List Item}
    (mem : items ∈ handlers) : Shows handlers own ⟨[], items, false⟩ (sender :: others) shown := by
  have begun := @inner _ _ _ ⟨[], items, false⟩ _ _ _ _ shows' mem .nil
  rwa [List.append_nil] at begun

theorem interruption (shows' : Shows handlers own sender others shown) {items output : List Item}
    (mem : items ∈ handlers) (woven : Woven handlers items output) :
    Shows handlers own sender others (shown ++ output) := by
  cases shows' with
  | outermost own_eq ownWoven => exact .outermost own_eq (ownWoven.interruption mem woven)
  | inner shows' ownMem ownWoven =>
      rw [List.append_assoc]
      exact .inner shows' ownMem (ownWoven.interruption mem woven)

theorem finish (shows' : Shows handlers own sender (outer :: others) shown)
    (through : sender.pending = []) : Shows handlers own outer others shown := by
  cases shows' with
  | inner shows' mem woven =>
      have whole : sender.own = sender.handed := by rw [Sender.own, through, List.append_nil]
      exact shows'.interruption mem (by rwa [whole])

/-- What the inner senders have shown is the beginning of an interruption. -/
theorem weaves_append (shows' : Shows handlers own sender others shown) {output : List Item}
    (rest : output = [] ∨ ∃ inner ∈ handlers, Weaves handlers inner output) :
    Weaves handlers own (shown ++ output) := by
  have extend {sender : Sender Item} {shown output : List Item}
      (woven : Woven handlers sender.handed shown)
      (rest : output = [] ∨ ∃ inner ∈ handlers, Weaves handlers inner output) :
      Weaves handlers sender.own (shown ++ output) := by
    have atFront : sender.handed <+: sender.own := List.prefix_append _ _
    rcases rest with rfl | ⟨inner, mem, weaves⟩
    · rw [List.append_nil]
      exact .between atFront woven
    · exact .inside atFront woven mem weaves
  induction shows' generalizing output with
  | outermost own_eq woven =>
      rw [← own_eq]
      exact extend woven rest
  | inner shows' mem woven ih =>
      rw [List.append_assoc]
      exact ih (.inr ⟨_, mem, extend woven rest⟩)

theorem weaves (shows' : Shows handlers own sender others shown) : Weaves handlers own shown := by
  have whole := shows'.weaves_append (.inl rfl)
  rwa [List.append_nil] at whole

end Shows

/-! ### Every step -/

/-- `before` is what was delivered or queued at the start. -/
structure Invariant (capacity : ℕ) (handlers : Set (List Item)) (own before : List Item)
    (state : State Item) : Prop where
  deep : state.suspended.length < capacity
  room : state.queue.length + state.running.ready.toNat +
    state.suspended.countP Sender.ready ≤ capacity
  shown : ∃ shown, Shows handlers own state.running state.suspended shown ∧
    state.delivered ++ state.queue = before ++ shown

namespace Invariant

variable {capacity : ℕ} {handlers : Set (List Item)} {own before : List Item} {state : State Item}

theorem send (invariant : Invariant capacity handlers own before state) :
    Invariant capacity handlers own before (state.send capacity) := by
  rcases invariant with ⟨deep, room, shown, shows', account⟩
  rw [State.send]
  cases pending_eq : state.running.pending with
  | nil =>
      cases suspended_eq : state.suspended with
      | nil => exact ⟨deep, room, shown, shows', account⟩
      | cons sender suspended =>
          rw [suspended_eq] at deep room shows'
          simp only [List.length_cons, List.countP_cons] at deep room
          refine ⟨Nat.lt_of_succ_lt deep, ?_, shown, shows'.finish pending_eq, account⟩
          dsimp only
          cases ready_eq : sender.ready with
          | true =>
              simp only [ready_eq, if_true] at room
              rw [Bool.toNat_true]
              omega
          | false =>
              simp only [ready_eq, Bool.false_eq_true, if_false] at room
              rw [Bool.toNat_false]
              omega
  | cons item pending =>
      cases ready_eq : state.running.ready with
      | true =>
          rw [ready_eq, Bool.toNat_true] at room
          have hasRoom : state.queue.length < capacity := by omega
          simp only [if_true, hasRoom]
          refine ⟨deep, ?_, shown ++ [item], shows'.hand pending_eq false, ?_⟩
          · simp only [List.length_append, List.length_singleton, Bool.toNat_false]
            omega
          · simp only [← List.append_assoc, account]
      | false =>
          simp only [Bool.false_eq_true, if_false]
          refine ⟨deep, ?_, shown, shows'.poll _, account⟩
          have others := @List.countP_le_length _ Sender.ready state.suspended
          cases queue_eq : state.queue with
          | nil =>
              simp only [List.length_nil, List.isEmpty_nil, Bool.toNat_true]
              omega
          | cons first queue =>
              rw [queue_eq] at room
              simp only [List.isEmpty_cons, Bool.toNat_false]
              omega

theorem receive (invariant : Invariant capacity handlers own before state) :
    Invariant capacity handlers own before state.receive := by
  rcases invariant with ⟨deep, room, shown, shows', account⟩
  rw [State.receive]
  cases queue_eq : state.queue with
  | nil => exact ⟨deep, room, shown, shows', account⟩
  | cons item queue =>
      rw [queue_eq] at room account
      refine ⟨deep, ?_, shown, shows', ?_⟩
      · simp only [List.length_cons] at room
        dsimp only
        omega
      · simp [← account]

theorem interrupt (invariant : Invariant capacity handlers own before state) {items : List Item}
    (mem : items ∈ handlers) (room : state.suspended.length + 1 < capacity) :
    Invariant capacity handlers own before (state.interrupt items) := by
  rcases invariant with ⟨_, places, shown, shows', account⟩
  refine ⟨room, ?_, shown, shows'.interrupt mem, account⟩
  simp only [State.interrupt, List.countP_cons, Bool.toNat_false]
  cases ready_eq : state.running.ready with
  | true =>
      rw [ready_eq, Bool.toNat_true] at places
      simp only [if_true]
      omega
  | false =>
      simp only [Bool.false_eq_true, if_false]
      omega

end Invariant

end Interruption
