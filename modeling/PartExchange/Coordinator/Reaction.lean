/-
**How a coordinator reacts to a request.**

A reaction is a function of the store and the request alone.  It says what the store becomes, which
events are reported, whether the transport is asked to publish something, and what is answered.  It
does not depend on how the transport fares: only the answer to a publication that was passed on is
left for the transport to give.

Main definitions:

* `Reaction`: the outcome of one request;
* `Store.absorb`: the message of a group after a call, unless the call's fragment is refused;
* `Store.react`: the reaction to a request.

Main results:

* `Store.react_get_store`, `Store.react_publish_store`: looking up and publishing change nothing;
* `Store.react_rpc_of_error`: a call with a refused fragment has no effect at all.
-/

import PartExchange.Store
import PartExchange.Coordinator.Request

set_option relaxedAutoImplicit false
set_option autoImplicit false

namespace PartExchange

/-- What is answered to a request: nothing, a certain answer, or how the publication ends. -/
inductive Reply where
  | silent
  | answer (answer : Answer)
  | outcome
  deriving DecidableEq

/-- The outcome of one request. -/
structure Reaction where
  /-- The store afterwards. -/
  store : Store
  /-- What is reported, in order. -/
  events : List Event := []
  /-- What the transport is asked to publish. -/
  publication : Option Publication := none
  /-- What is answered. -/
  reply : Reply := .silent
  deriving DecidableEq

namespace Store

/-- The message of a group as it is held, or an empty one. -/
def current (store : Store) (topic : Topic) (group : GroupId) : Message :=
  (store.get? topic group).getD (.new group)

/-- The message that a call's group has after the call, unless the call's fragment is refused. -/
def absorb (store : Store) (rpc : Rpc) : Except PartError Message :=
  match rpc.payload? with
  | none => .ok (store.current rpc.topic rpc.group)
  | some data => (store.current rpc.topic rpc.group).extend data

/-- What is reported of a message that has just gained parts. -/
def growthEvents (topic : Topic) (m : Message) : List Event :=
  .extended topic m.group m.available :: if m.isComplete then [.completed topic m.group] else []

/-- The reaction to a call from a peer.

The message is worked out aside, so a refused fragment leaves the store as it was; in particular it
creates no group.  The message is announced again when the group is new, when it gained parts, or
when the call announced other parts than the message now holds. -/
def reactRpc (store : Store) (delivery : Delivery) : Reaction :=
  let rpc := delivery.rpc
  match store.absorb rpc with
  | .error _ => { store }
  | .ok m =>
    let created := !store.contains rpc.topic rpc.group
    let extended := (store.current rpc.topic rpc.group).available != m.available
    let differs := rpc.announced?.any (· != m.available)
    { store := if created || extended then (store.put rpc.topic m).1 else store
      events := if extended then growthEvents rpc.topic m else []
      publication :=
        if extended || differs || created then some ⟨rpc.topic, m, delivery.replyTo⟩ else none }

/-- The reaction to a request to add a message. -/
def reactAdd (store : Store) (topic : Topic) (m : Message) : Reaction :=
  let (store, fresh) := store.insertIfAbsent topic m
  { store
    events := if fresh && m.isComplete then [.completed topic m.group] else []
    reply := .answer (.inserted fresh) }

/-- The reaction to a request to publish a group. -/
def reactPublish (store : Store) (topic : Topic) (group : GroupId) (peers : List PeerId) :
    Reaction :=
  match store.get? topic group with
  | some m => { store, publication := some ⟨topic, m, peers⟩, reply := .outcome }
  | none => { store, reply := .answer (.published (some (.unknownGroup topic group))) }

/-- The reaction to a request. -/
def react (store : Store) : Request → Reaction
  | .add topic m => store.reactAdd topic m
  | .publish topic group peers => store.reactPublish topic group peers
  | .rpc delivery => store.reactRpc delivery
  | .get topic group => { store, reply := .answer (.found (store.get? topic group)) }

@[simp] theorem react_get_store (store : Store) (topic : Topic) (group : GroupId) :
    (store.react (.get topic group)).store = store := rfl

@[simp] theorem react_publish_store (store : Store) (topic : Topic) (group : GroupId)
    (peers : List PeerId) : (store.react (.publish topic group peers)).store = store := by
  simp only [react, reactPublish]
  split <;> rfl

/-- A call with a refused fragment has no effect at all. -/
theorem react_rpc_of_error {store : Store} {delivery : Delivery} {refusal : PartError}
    (refused : store.absorb delivery.rpc = .error refusal) :
    store.react (.rpc delivery) = { store } := by
  simp [react, reactRpc, refused]

end Store

end PartExchange
