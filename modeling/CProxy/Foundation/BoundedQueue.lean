import Mathlib.Data.List.Basic
import Mathlib.Tactic.Common

/-! # A bounded queue

A first-in first-out queue that takes a block of items whole or not at all. Its
capacity may grow up to a limit; when and by how much is left open, except that
a block that fits is never refused.
-/

namespace CProxy.Foundation

universe u

structure BoundedQueue (α : Type u) where
  items : List α
  capacity : Nat
  maxCapacity : Nat
  fits : items.length ≤ capacity
  bounded : capacity ≤ maxCapacity

namespace BoundedQueue

variable {α : Type u}

def empty (capacity maxCapacity : Nat) (hbounded : capacity ≤ maxCapacity) : BoundedQueue α where
  items := []
  capacity := capacity
  maxCapacity := maxCapacity
  fits := Nat.zero_le capacity
  bounded := hbounded

def resized (queue : BoundedQueue α) (capacity : Nat) (hfits : queue.items.length ≤ capacity)
    (hbounded : capacity ≤ queue.maxCapacity) : BoundedQueue α :=
  { queue with capacity := capacity, fits := hfits, bounded := hbounded }

def append (queue : BoundedQueue α) (items : List α)
    (hroom : queue.items.length + items.length ≤ queue.capacity) : BoundedQueue α :=
  { queue with
    items := queue.items ++ items
    fits := by
      rw [List.length_append]
      exact hroom }

def drop (queue : BoundedQueue α) (count : Nat) : BoundedQueue α :=
  { queue with
    items := queue.items.drop count
    fits := by
      rw [List.length_drop]
      exact Nat.le_trans (Nat.sub_le _ count) queue.fits }

inductive Request (α : Type u) where
  | put (items : List α)
  | take (count : Nat)
  deriving DecidableEq

inductive Response (α : Type u) where
  | accepted
  | refused
  | taken (items : List α)
  | short
  deriving DecidableEq

/-- What a request may do. -/
inductive Step : BoundedQueue α → Request α → Response α → BoundedQueue α → Prop
  | accept {queue next : BoundedQueue α} {items : List α}
      (hitems : next.items = queue.items ++ items) (hgrown : queue.capacity ≤ next.capacity)
      (hmax : next.maxCapacity = queue.maxCapacity) :
      Step queue (.put items) .accepted next
  | refuse {queue : BoundedQueue α} {items : List α}
      (hfree : queue.capacity < queue.items.length + items.length)
      (hmax : queue.maxCapacity < queue.capacity + items.length) :
      Step queue (.put items) .refused queue
  | take {queue next : BoundedQueue α} {count : Nat} (hcount : count ≤ queue.items.length)
      (hitems : next.items = queue.items.drop count) (hsame : next.capacity = queue.capacity)
      (hmax : next.maxCapacity = queue.maxCapacity) :
      Step queue (.take count) (.taken (queue.items.take count)) next
  | short {queue : BoundedQueue α} {count : Nat} (hcount : queue.items.length < count) :
      Step queue (.take count) .short queue

/-- The responses to a list of requests, and the queue they leave. -/
inductive Serves : BoundedQueue α → List (Request α) → List (Response α) → BoundedQueue α → Prop
  | nil (queue : BoundedQueue α) : Serves queue [] [] queue
  | cons {queue next final : BoundedQueue α} {request : Request α} {response : Response α}
      {requests : List (Request α)} {responses : List (Response α)}
      (hstep : Step queue request response next) (hrest : Serves next requests responses final) :
      Serves queue (request :: requests) (response :: responses) final

end BoundedQueue

end CProxy.Foundation
