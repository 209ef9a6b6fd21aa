/-
**Topologies.**

The nodes of an experiment are numbered from zero and linked according to a plan.

Main definitions:

* `Topology`: the plans;
* `Topology.links`: the pairs of nodes that a plan links;
* `Exchange.build?`: an exchange with that many endpoints, linked by a plan.
-/

import PartExchange.Exchange.Basic

set_option relaxedAutoImplicit false
set_option autoImplicit false

namespace PartExchange

/-- How the nodes of an experiment are linked. -/
inductive Topology where
  | line
  | full
  | star
  | isolated
  deriving DecidableEq, Repr

/-- The pairs of nodes that are linked, the lower number first, in ascending order. -/
def Topology.links (topology : Topology) (nodes : Nat) : List (Nat × Nat) :=
  match topology with
  | .line => (List.range (nodes - 1)).map fun i => (i, i + 1)
  | .full =>
    (List.range nodes).flatMap fun a => (List.range (nodes - (a + 1))).map fun i => (a, a + 1 + i)
  | .star => (List.range (nodes - 1)).map fun i => (0, i + 1)
  | .isolated => []

/-- The peer of the node with this number. -/
def nodePeer (n : Nat) : PeerId := .forNode (UInt32.ofNat n)

/-- Links the listed pairs of nodes. -/
def Network.connectAll (net : Network) : List (Nat × Nat) → Except SyncError Network
  | [] => .ok net
  | (a, b) :: rest =>
    match net.connect (nodePeer a) (nodePeer b) with
    | .error cause => .error cause
    | .ok net => net.connectAll rest

/-- An exchange in which each of the nodes has joined, linked by a plan. -/
def Exchange.build? (nodes : Nat) (topology : Topology) : Except SyncError Exchange :=
  let joined := (List.range nodes).foldl (fun e n => (e.joinNetwork (nodePeer n)).1)
    (Exchange.new Network.defaultCapacity)
  match joined.carriers.net.connectAll (topology.links nodes) with
  | .error cause => .error cause
  | .ok net => .ok (joined.withNet net)

end PartExchange
