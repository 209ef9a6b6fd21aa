/-
**Requests to a coordinator.**

A coordinator is the only one that touches its store.  Everybody else sends it requests of four
kinds, and each kind has a lane of its own.  The lanes are served in a fixed order, so a request to
look something up sees everything that was queued before it.

Main definitions:

* `Request`, `Job`: what is asked, and the same with the number under which it is answered;
* `Answer`: what is answered;
* `Event`: what a coordinator reports of its store;
* `Publication`: what a coordinator asks of its transport;
* `Lane`: the four queues, and `Lane.order` the order in which they are served.
-/

import PartExchange.Rpc
import PartExchange.SyncError

set_option relaxedAutoImplicit false
set_option autoImplicit false

namespace PartExchange

/-- What can be asked of a coordinator.  A publication that lists no peers is for all that are
linked. -/
inductive Request where
  | add (topic : Topic) (message : Message)
  | publish (topic : Topic) (group : GroupId) (peers : List PeerId)
  | rpc (delivery : Delivery)
  | get (topic : Topic) (group : GroupId)
  deriving DecidableEq

/-- What a coordinator answers; a call from a peer gets no answer. -/
inductive Answer where
  | inserted (fresh : Bool)
  | published (failure : Option SyncError)
  | found (message : Option Message)
  deriving DecidableEq

/-- What a coordinator reports of its store: a message has gained parts, or it holds every part. -/
inductive Event where
  | extended (topic : Topic) (group : GroupId) (available : PartSet)
  | completed (topic : Topic) (group : GroupId)
  deriving DecidableEq

/-- What a coordinator asks of its transport: to send a message to these peers, or to all if none is
listed. -/
structure Publication where
  /-- The topic. -/
  topic : Topic
  /-- The message as it is stored. -/
  message : Message
  /-- The destinations. -/
  peers : List PeerId
  deriving DecidableEq

/-- The queues of a coordinator. -/
inductive Lane where
  | add
  | publish
  | incoming
  | query
  deriving DecidableEq, Repr

/-- The lanes in the order in which they are served. -/
def Lane.order : List Lane := [.add, .publish, .incoming, .query]

/-- The lane of a request. -/
def Request.lane : Request → Lane
  | .add .. => .add
  | .publish .. => .publish
  | .rpc .. => .incoming
  | .get .. => .query

/-- A request with the number under which it is answered. -/
structure Job where
  /-- The number. -/
  id : Nat
  /-- The request. -/
  request : Request
  deriving DecidableEq

end PartExchange
