/-
**Coordinators.**

A coordinator owns a store and serves requests one at a time.  It looks in a fixed order for what to
do: an order to stop, then the oldest job of the first lane that has one.  When it stops it discards
all that is queued and refuses whatever comes later.

The transport is a parameter: a function that carries a publication out on a state of its own, and
says whether it was refused.

Main definitions:

* `Coordinator`: the store, the four queues, and what has been reported and answered so far;
* `Coordinator.submit`, `Coordinator.resume`: how a request gets into its queue;
* `Coordinator.step?`: the next thing a coordinator does;
* `Coordinator.run`: all it can do before it has to wait.

Main results:

* `Coordinator.perform_store`: the store after a job does not depend on the transport;
* `Coordinator.step?_of_ended`: a coordinator that has ended does nothing.
-/

import PartExchange.Queue
import PartExchange.Coordinator.Config
import PartExchange.Coordinator.Reaction

set_option relaxedAutoImplicit false
set_option autoImplicit false

namespace PartExchange

/-- A transport: it carries a publication out, and says if it refuses it. -/
abbrev Transport (σ : Type) := σ → Publication → σ × Option SyncError

/-- The only owner of a store. -/
structure Coordinator where
  /-- The messages held. -/
  store : Store
  /-- Requests to add a message. -/
  adds : Queue Job
  /-- Requests to publish a group. -/
  publishes : Queue Job
  /-- Calls from peers. -/
  incoming : Queue Job
  /-- Requests to look a group up. -/
  queries : Queue Job
  /-- How many events are kept for readers that are behind. -/
  eventBuffer : Nat
  /-- All events reported so far, oldest first. -/
  log : List Event := []
  /-- The answers given so far with the numbers of their requests, newest first. -/
  answers : List (Nat × Answer) := []
  /-- The number of the next request. -/
  nextId : Nat := 0
  /-- Whether it has been asked to stop. -/
  stopAsked : Bool := false
  /-- Whether it has stopped. -/
  ended : Bool := false

namespace Coordinator

/-- A coordinator with an empty store and empty queues. -/
def new (config : CoordinatorConfig) : Coordinator where
  store := .new config.maxGroupsPerTopic
  adds := .new config.addCapacity
  publishes := .new config.publishCapacity
  incoming := .new config.incomingCapacity
  queries := .new config.queryCapacity
  eventBuffer := config.eventBuffer

/-- The queue of a lane. -/
def queue (c : Coordinator) : Lane → Queue Job
  | .add => c.adds
  | .publish => c.publishes
  | .incoming => c.incoming
  | .query => c.queries

/-- The coordinator with another queue in one lane. -/
def setQueue (c : Coordinator) (lane : Lane) (q : Queue Job) : Coordinator :=
  match lane with
  | .add => { c with adds := q }
  | .publish => { c with publishes := q }
  | .incoming => { c with incoming := q }
  | .query => { c with queries := q }

@[simp] theorem queue_setQueue_self (c : Coordinator) (lane : Lane) (q : Queue Job) :
    (c.setQueue lane q).queue lane = q := by
  cases lane <;> rfl

/-- Replacing one queue leaves the others alone. -/
theorem queue_setQueue_of_ne {c : Coordinator} {lane other : Lane} {q : Queue Job}
    (differ : other ≠ lane) : (c.setQueue lane q).queue other = c.queue other := by
  cases lane <;> cases other <;> first | rfl | exact absurd rfl differ

@[simp] theorem store_setQueue (c : Coordinator) (lane : Lane) (q : Queue Job) :
    (c.setQueue lane q).store = c.store := by
  cases lane <;> rfl

/-! ### Sending requests -/

/-- A request's first attempt to enter its queue, with the number it gets. -/
def submit (c : Coordinator) (request : Request) : Coordinator × Job × Sending :=
  let job : Job := ⟨c.nextId, request⟩
  let (q, sending) := (c.queue request.lane).offer job.id job
  ({ c.setQueue request.lane q with nextId := c.nextId + 1 }, job, sending)

/-- A waiting request's next attempt to enter its queue. -/
def resume (c : Coordinator) (job : Job) : Coordinator × Sending :=
  let (q, sending) := (c.queue job.request.lane).retry job.id job
  (c.setQueue job.request.lane q, sending)

/-- A waiting request gives up. -/
def withdraw (c : Coordinator) (job : Job) : Coordinator :=
  c.setQueue job.request.lane ((c.queue job.request.lane).withdraw job.id)

/-- The answer to the request of this number, once it has been given. -/
def answer? (c : Coordinator) (id : Nat) : Option Answer := c.answers.lookup id

/-- Asks the coordinator to stop. -/
def askStop (c : Coordinator) : Coordinator := { c with stopAsked := true }

/-- Whether calls from peers are refused. -/
def isClosed (c : Coordinator) : Bool := c.incoming.closed

/-! ### Serving requests -/

/-- Stops: discards all that is queued and refuses whatever comes later. -/
def close (c : Coordinator) : Coordinator :=
  { c with
    adds := c.adds.close
    publishes := c.publishes.close
    incoming := c.incoming.close
    queries := c.queries.close
    ended := true }

/-- The next job in the order of the lanes, and the coordinator without it. -/
def next? (c : Coordinator) : Option (Job × Coordinator) :=
  Lane.order.findSome? fun lane =>
    (c.queue lane).take?.map fun (job, q) => (job, c.setQueue lane q)

/-- Whether any lane has a job. -/
def hasWork (c : Coordinator) : Bool := c.next?.isSome

variable {σ : Type}

/-- Handles a job: what the store's reaction says, and what the transport makes of it. -/
def perform (send : Transport σ) (c : Coordinator) (s : σ) (job : Job) : Coordinator × σ :=
  let reaction := c.store.react job.request
  let (s, failure) :=
    match reaction.publication with
    | some publication => send s publication
    | none => (s, none)
  let answers :=
    match reaction.reply with
    | .silent => c.answers
    | .answer answer => (job.id, answer) :: c.answers
    | .outcome => (job.id, .published failure) :: c.answers
  ({ c with store := reaction.store, log := c.log ++ reaction.events, answers }, s)

/-- The store after a job does not depend on the transport. -/
@[simp] theorem perform_store (send : Transport σ) (c : Coordinator) (s : σ) (job : Job) :
    (c.perform send s job).1.store = (c.store.react job.request).store := rfl

/-- The events reported by a job do not depend on the transport. -/
@[simp] theorem perform_log (send : Transport σ) (c : Coordinator) (s : σ) (job : Job) :
    (c.perform send s job).1.log = c.log ++ (c.store.react job.request).events := rfl

/-- The next thing a coordinator does, if there is anything.  With `abandoned` nobody can send it
requests any more, and it stops. -/
def step? (send : Transport σ) (abandoned : Bool) (c : Coordinator) (s : σ) :
    Option (Coordinator × σ) :=
  if c.ended then none
  else if c.stopAsked || abandoned then some (c.close, s)
  else c.next?.map fun (job, rest) => rest.perform send s job

/-- A coordinator that has ended does nothing. -/
theorem step?_of_ended {send : Transport σ} {abandoned : Bool} {c : Coordinator} {s : σ}
    (ended : c.ended = true) : c.step? send abandoned s = none := by
  simp [step?, ended]

/-- The number of jobs in all lanes. -/
def backlog (c : Coordinator) : Nat :=
  c.adds.items.length + c.publishes.items.length + c.incoming.items.length +
    c.queries.items.length

/-- At most `fuel` steps, one after the other. -/
def steps (send : Transport σ) (abandoned : Bool) : (fuel : Nat) → Coordinator → σ →
    Coordinator × σ
  | 0, c, s => (c, s)
  | fuel + 1, c, s =>
    match c.step? send abandoned s with
    | none => (c, s)
    | some (c, s) => steps send abandoned fuel c s

/-- All that a coordinator can do before it has to wait.  Each step takes a job or is the last, and
no step adds a job. -/
def run (send : Transport σ) (abandoned : Bool) (c : Coordinator) (s : σ) : Coordinator × σ :=
  steps send abandoned (c.backlog + 1) c s

/-! ### Reading events -/

/-- What a reader of events gets to see: an event, or how many are lost to the reader. -/
inductive Notice where
  | event (event : Event)
  | lagged (missed : Nat)
  deriving DecidableEq

/-- What a reader that has seen the first `seen` events reads next: everything since, less what the
buffer no longer keeps. -/
def unread (c : Coordinator) (seen : Nat) : List Notice :=
  let missed := c.log.length - (seen + c.eventBuffer)
  (if missed = 0 then [] else [.lagged missed]) ++ (c.log.drop (seen + missed)).map .event

end Coordinator

end PartExchange
