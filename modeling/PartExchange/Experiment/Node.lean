/-
**Nodes.**

A node is a numbered participant of an experiment: a site with a coordinator, a handle and a pump.
Its requests are seen through to the end: while one is under way, everybody takes turns until it has
been answered.  A turn may end in the middle of a publication.

Main definitions:

* `Node.start`, `Node.startOn`: a node joins, on a transport of its own or on another's;
* `Node.request`: a request that is seen through;
* `Node.host`: a node as the host of a script;
* `Node.stop`: a node leaves.
-/

import PartExchange.Exchange.Interruption
import PartExchange.Script.Runner
import PartExchange.Settings

set_option relaxedAutoImplicit false
set_option autoImplicit false

namespace PartExchange

/-- The greatest number of rounds for which a request is seen through. -/
def maxRounds : Nat := 10000

/-- A numbered participant. -/
structure Node where
  /-- Its number. -/
  index : UInt32
  /-- Its site. -/
  site : Nat
  deriving DecidableEq

namespace Node

/-- Gives a site what a node needs.  The pump of a site whose inbox is read already fails, and the
node does without. -/
def equip (e : Exchange) (site : Nat) (config : NodeConfig) : Exchange × Node :=
  let e := e.attach site config.coordinator
  let e := match e.startPump site with
    | .ok (e, _) => e
    | .error _ => e
  (e, ⟨config.index, site⟩)

/-- A node joins with an endpoint for its peer. -/
def start (e : Exchange) (config : NodeConfig) : Exchange × Node :=
  let (e, site) := e.joinNetwork (.forNode config.index)
  equip e site config

/-- A node joins on the transport of an outlet. -/
def startOn (e : Exchange) (outlet : Outlet) (config : NodeConfig) : Exchange × Node :=
  let (e, site) := e.joinOutlet outlet
  equip e site config

/-- Makes a request to the node's coordinator and sees it through. -/
def request (node : Node) (e : Exchange) (request : Request) : Exchange × Outcome :=
  match e.sites[node.site]? with
  | some { station := some i, .. } =>
    let (e, call) := e.call i request
    let (m, outcome) := Midway.await call maxRounds { exchange := e }
    (m.exchange, outcome.getD .closed)
  | _ => (e, .closed)

/-- Holds parts of a group, with reproducible content, unless the group is held. -/
def add (node : Node) (e : Exchange) (topic : Topic) (group : GroupId) (parts : PartSet) :
    Exchange × Except SyncError Bool :=
  match node.request e (.add topic (.filled group parts)) with
  | (e, .answered (.inserted fresh)) => (e, .ok fresh)
  | (e, _) => (e, .error .closed)

/-- Sends a group to these peers, or to all if none is listed. -/
def publish (node : Node) (e : Exchange) (topic : Topic) (group : GroupId) (peers : List PeerId) :
    Exchange × Option SyncError :=
  match node.request e (.publish topic group peers) with
  | (e, .answered (.published failure)) => (e, failure)
  | (e, _) => (e, some .closed)

/-- Looks a group up. -/
def get (node : Node) (e : Exchange) (topic : Topic) (group : GroupId) :
    Exchange × Except SyncError (Option Message) :=
  match node.request e (.get topic group) with
  | (e, .answered (.found message)) => (e, .ok message)
  | (e, _) => (e, .error .closed)

/-- Hands the node a call from a peer. -/
def deliver (node : Node) (e : Exchange) (delivery : Delivery) : Exchange × Option SyncError :=
  match node.request e (.rpc delivery) with
  | (e, .delivered) => (e, none)
  | (e, _) => (e, some .closed)

/-- The node's transport. -/
def outlet? (node : Node) (e : Exchange) : Option Outlet := e.sites[node.site]?.map Site.outlet

/-- The peer of the node's transport. -/
def peer (node : Node) (e : Exchange) : PeerId :=
  ((node.outlet? e).map e.carriers.peerOf).getD default

/-- Links the peer of the node's transport to a node. -/
def connect (node : Node) (e : Exchange) (other : UInt32) : Exchange × Option SyncError :=
  match e.carriers.net.connect (node.peer e) (.forNode other) with
  | .ok net => (e.withNet net, none)
  | .error cause => (e, some cause)

/-- Everybody takes turns until all wait. -/
def settle (e : Exchange) : Exchange := (Midway.settle maxRounds { exchange := e }).1.exchange

/-- A node as the host of a script. -/
def host (node : Node) : Host Exchange where
  add := node.add
  publish := node.publish
  connect := node.connect
  idle := settle

/-- A node stops its coordinator, and leaves when that has ended. -/
def stop (node : Node) (e : Exchange) : Exchange :=
  (settle (e.askStop node.site)).leave node.site

end Node

end PartExchange
