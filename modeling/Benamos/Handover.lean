import Benamos.Turns
import Mathlib.Data.List.Basic

/-!
# Handing items over to a queue that is polled

A sender has items to hand over to a queue that a receiver takes from at its own pace. The queue
tells only whether it is empty. The sender asks until it is, and then puts one item in. However the
two take turns, nothing is lost, repeated or reordered.
-/

namespace Handover

variable {Item : Type*}

/-- `ready` says that the sender has seen the queue empty. -/
structure State (Item : Type*) where
  pending : List Item
  ready : Bool
  queue : List Item
  delivered : List Item

inductive Actor where
  | sender | receiver
deriving DecidableEq, Repr

namespace State

def send (state : State Item) : State Item :=
  match state.pending with
  | [] => state
  | item :: pending =>
      if state.ready then
        { state with pending, ready := false, queue := state.queue ++ [item] }
      else
        { state with ready := state.queue.isEmpty }

def receive (state : State Item) : State Item :=
  match state.queue with
  | [] => state
  | item :: queue => { state with queue, delivered := state.delivered ++ [item] }

def act (state : State Item) : Actor → State Item
  | .sender => state.send
  | .receiver => state.receive

/-- What was delivered, is queued or is pending, in this order. -/
def items (state : State Item) : List Item := state.delivered ++ state.queue ++ state.pending

/-- The sender is ready only as long as the queue is empty. -/
def Cautious (state : State Item) : Prop := state.ready = true → state.queue = []

theorem items_act (state : State Item) (actor : Actor) : (state.act actor).items = state.items := by
  cases actor with
  | sender =>
      rw [act, send]
      split
      · rfl
      · rename_i item pending pending_eq
        split_ifs
        · simp [items, pending_eq]
        · rfl
  | receiver =>
      rw [act, receive]
      split
      · rfl
      · rename_i item queue queue_eq
        simp [items, queue_eq]

theorem Cautious.act {state : State Item} (cautious : state.Cautious) (actor : Actor) :
    (state.act actor).Cautious := by
  cases actor with
  | sender =>
      rw [State.act, send]
      split
      · exact cautious
      · split_ifs
        · intro isReady
          contradiction
        · intro isReady
          exact List.isEmpty_iff.mp isReady
  | receiver =>
      rw [State.act, receive]
      split
      · exact cautious
      · rename_i item queue queue_eq
        intro isReady
        have empty := cautious isReady
        rw [queue_eq] at empty
        contradiction

end State

end Handover
