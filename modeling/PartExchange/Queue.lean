/-
**Bounded queues.**

A queue has a fixed number of places.  A sender that finds no free place waits its turn.  When an
item is taken out, its place is promised to the sender that has waited longest; the sender's item
enters only when that sender acts again, and until then nobody else gets the place.  Closing a queue
discards what is in it and refuses all senders, those with a promise included.

Main definitions:

* `Queue`: the items, the promised places and the senders that wait;
* `Queue.offer`, `Queue.retry`: a sender's first and later attempts;
* `Queue.take?`: the oldest item;
* `Queue.withdraw`: a sender gives up;
* `Queue.close`: the end of the queue.

Main results:

* `Queue.take?_eq_none_iff`: nothing can be taken exactly when there are no items.
-/

set_option relaxedAutoImplicit false
set_option autoImplicit false

namespace PartExchange

/-- How an attempt to send ends. -/
inductive Sending where
  | sent
  | waiting
  | refused
  deriving DecidableEq, Repr

/-- A queue with a bounded number of places; senders are known by numbers. -/
structure Queue (α : Type) where
  /-- The number of places. -/
  capacity : Nat
  /-- What is in the queue, oldest first. -/
  items : List α := []
  /-- The senders with a promised place, in the order of the promises. -/
  promised : List Nat := []
  /-- The senders without one, in the order in which they began to wait. -/
  waiting : List Nat := []
  /-- Whether the queue takes nothing any more. -/
  closed : Bool := false
  deriving DecidableEq

namespace Queue

variable {α : Type}

/-- An empty queue; it has at least one place. -/
def new (capacity : Nat) : Queue α := { capacity := max capacity 1 }

/-- Whether a place is neither taken nor promised. -/
def hasRoom (q : Queue α) : Bool := q.items.length + q.promised.length < q.capacity

/-- A sender's first attempt: the item enters if there is room, and the sender waits otherwise. -/
def offer (q : Queue α) (sender : Nat) (item : α) : Queue α × Sending :=
  if q.closed then (q, .refused)
  else if q.hasRoom then ({ q with items := q.items ++ [item] }, .sent)
  else ({ q with waiting := q.waiting ++ [sender] }, .waiting)

/-- A waiting sender's next attempt: the item enters if the sender has been promised a place. -/
def retry (q : Queue α) (sender : Nat) (item : α) : Queue α × Sending :=
  if q.closed then (q, .refused)
  else if sender ∈ q.promised then
    ({ q with items := q.items ++ [item], promised := q.promised.erase sender }, .sent)
  else (q, .waiting)

/-- Whether a waiting sender's next attempt will end its wait. -/
def settles (q : Queue α) (sender : Nat) : Bool := q.closed || q.promised.contains sender

/-- Promises a free place to the sender that has waited longest. -/
def promise (q : Queue α) : Queue α :=
  match q.waiting with
  | [] => q
  | sender :: rest =>
    if q.hasRoom then { q with promised := q.promised ++ [sender], waiting := rest } else q

/-- Takes the oldest item out; its place is promised to the next sender. -/
def take? (q : Queue α) : Option (α × Queue α) :=
  match q.items with
  | [] => none
  | item :: rest => some (item, { q with items := rest }.promise)

/-- A waiting sender gives up; a place it was promised goes to the next one. -/
def withdraw (q : Queue α) (sender : Nat) : Queue α :=
  { q with promised := q.promised.erase sender, waiting := q.waiting.erase sender }.promise

/-- Discards everything and refuses whatever comes. -/
def close (q : Queue α) : Queue α :=
  { q with items := [], promised := [], waiting := [], closed := true }

@[simp] theorem items_promise (q : Queue α) : q.promise.items = q.items := by
  unfold promise; split
  · rfl
  · split <;> rfl

/-- What is taken is the oldest item, and the others stay in order. -/
theorem items_of_take? {q rest : Queue α} {item : α} (h : q.take? = some (item, rest)) :
    q.items = item :: rest.items := by
  unfold take? at h
  split at h
  · cases h
  · rename_i eq
    simp only [Option.some.injEq, Prod.mk.injEq] at h
    obtain ⟨rfl, rfl⟩ := h
    simp [eq]

/-- Nothing can be taken exactly when there are no items. -/
theorem take?_eq_none_iff {q : Queue α} : q.take? = none ↔ q.items = [] := by
  unfold take?
  split <;> simp_all

@[simp] theorem items_close (q : Queue α) : q.close.items = [] := rfl

@[simp] theorem closed_close (q : Queue α) : q.close.closed = true := rfl

end Queue

end PartExchange
