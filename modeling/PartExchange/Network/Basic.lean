/-
**A network in memory.**

Peers take part in the network through endpoints.  An endpoint has an inbox with a bounded number of
places and keeps, for every other peer and every group, a view of what that peer holds.  A view only
grows: by the parts that were put into the peer's inbox, and by what the peer announced.

A peer that registers again gets a new endpoint, and from then on its calls arrive there; the old
endpoint gets nothing any more.  Links join pairs of registered peers, in both directions.

Here a publication is carried out at once, and a call is taken and noted at once.  What can come in
between is the subject of `PartExchange.Network.Flight`.

Main definitions:

* `Endpoint`, `Network`: the state;
* `Network.register`, `Network.connect`: how peers join and get linked;
* `Network.sendTo`: what one publication sends to one peer;
* `Network.publish`: a publication to some peers, or to all that are linked;
* `Network.receive?`: the next call in an inbox, with what it says about its sender.

Main results:

* `Network.publish_eq_error_iff`: a publication is refused exactly when a listed peer is not linked,
  and the cause names the first such peer.
-/

import PartExchange.Rpc
import PartExchange.SyncError

set_option relaxedAutoImplicit false
set_option autoImplicit false

namespace PartExchange

/-- A call on its way. -/
structure Envelope where
  /-- Who sent it. -/
  sender : PeerId
  /-- The call. -/
  rpc : Rpc
  deriving DecidableEq

/-- What a view is about: a peer and a group on a topic. -/
structure ViewKey where
  /-- The peer. -/
  peer : PeerId
  /-- The topic. -/
  topic : Topic
  /-- The group. -/
  group : GroupId
  deriving DecidableEq

/-- What becomes of the calls in an inbox. -/
inductive Reading where
  /-- They stay there; nobody has begun to read. -/
  | unread
  /-- A pump reads them. -/
  | pumped
  /-- They are lost; nobody will read them any more. -/
  | closed
  deriving DecidableEq, Repr

/-- A peer's access to the network. -/
structure Endpoint where
  /-- The peer. -/
  peer : PeerId
  /-- The calls that have arrived, oldest first. -/
  inbox : List Envelope := []
  /-- Whether anybody reads them. -/
  reading : Reading := .unread
  /-- What other peers are believed to hold. -/
  views : List (ViewKey × PartSet) := []
  deriving DecidableEq

namespace Endpoint

/-- What a peer is believed to hold of a group. -/
def view (e : Endpoint) (key : ViewKey) : PartSet := (e.views.lookup key).getD .empty

/-- Adds parts to a list of views; a key without a view gets one. -/
def mergeInto (key : ViewKey) (held : PartSet) : List (ViewKey × PartSet) →
    List (ViewKey × PartSet)
  | [] => [(key, held)]
  | (other, known) :: rest =>
    if key = other then (other, known.union held) :: rest
    else (other, known) :: mergeInto key held rest

/-- Adds parts to what a peer is believed to hold. -/
def mergeView (e : Endpoint) (key : ViewKey) (held : PartSet) : Endpoint :=
  { e with views := mergeInto key held e.views }

/-- Looking up after adding to a list of views. -/
theorem lookup_mergeInto (key other : ViewKey) (held : PartSet) (views : List (ViewKey × PartSet)) :
    ((mergeInto key held views).lookup other).getD .empty =
      if other = key then ((views.lookup other).getD .empty).union held
      else (views.lookup other).getD .empty := by
  have start : held = PartSet.empty.union held := by
    cases held; simp [PartSet.union, PartSet.empty]
  induction views with
  | nil =>
    by_cases same : other = key
    · subst same; simpa [mergeInto] using start
    · simp [mergeInto, List.lookup_cons, beq_false_of_ne same, same]
  | cons entry rest ih =>
    obtain ⟨first, known⟩ := entry
    unfold mergeInto
    by_cases here : key = first
    · subst here
      by_cases same : other = key
      · subst same; simp
      · simp [same, List.lookup_cons, beq_false_of_ne same]
    · simp only [if_neg here, List.lookup_cons]
      by_cases found : other = first
      · subst found; simp [Ne.symm here]
      · simpa [beq_false_of_ne found] using ih

/-- A view grows by what is added to it, and no other view changes. -/
@[simp] theorem view_mergeView (e : Endpoint) (key other : ViewKey) (held : PartSet) :
    (e.mergeView key held).view other =
      if other = key then (e.view other).union held else e.view other :=
  lookup_mergeInto key other held e.views

@[simp] theorem inbox_mergeView (e : Endpoint) (key : ViewKey) (held : PartSet) :
    (e.mergeView key held).inbox = e.inbox := rfl

/-- Whether one more call fits into the inbox. -/
def accepts (e : Endpoint) (capacity : Nat) : Bool :=
  e.reading != .closed && e.inbox.length < capacity

/-- Nobody reads the inbox any more, and what is in it is lost. -/
def close (e : Endpoint) : Endpoint := { e with inbox := [], reading := .closed }

end Endpoint

/-- Endpoints, the peers they serve, and links between peers. -/
structure Network where
  /-- The number of places in each inbox. -/
  capacity : Nat
  /-- The endpoints in the order in which they were made. -/
  endpoints : List Endpoint := []
  /-- The endpoint of each registered peer. -/
  registry : List (PeerId × Nat) := []
  /-- The links, each listed in both directions. -/
  links : List (PeerId × PeerId) := []
  deriving DecidableEq

namespace Network

/-- The number of places in an inbox unless something else is asked for. -/
def defaultCapacity : Nat := 1000

/-- An empty network.  Every inbox has at least one place. -/
def new (capacity : Nat) : Network := { capacity := max capacity 1 }

/-- The endpoint at which the calls to a peer arrive. -/
def endpointOf? (net : Network) (peer : PeerId) : Option Nat := net.registry.lookup peer

/-- Whether calls to a peer arrive anywhere. -/
def isRegistered (net : Network) (peer : PeerId) : Bool := (net.endpointOf? peer).isSome

/-- Whether two peers are linked. -/
def linked (net : Network) (a b : PeerId) : Bool := net.links.contains (a, b)

/-- The peers linked to a peer, in ascending order. -/
def peersOf (net : Network) (peer : PeerId) : List PeerId :=
  PeerId.sort ((net.links.filter (·.1 = peer)).map Prod.snd)

/-- Makes a new endpoint for a peer; from now on its calls arrive there. -/
def register (net : Network) (peer : PeerId) : Network × Nat :=
  let fresh := net.endpoints.length
  ({ net with
      endpoints := net.endpoints ++ [{ peer }]
      registry := (peer, fresh) :: net.registry.filter (·.1 ≠ peer) }, fresh)

/-- Lists a link in one direction, once. -/
def addLink (links : List (PeerId × PeerId)) (link : PeerId × PeerId) : List (PeerId × PeerId) :=
  if links.contains link then links else links ++ [link]

/-- Links two registered peers.  The first that is not registered is named. -/
def connect (net : Network) (a b : PeerId) : Except SyncError Network :=
  match [a, b].find? (!net.isRegistered ·) with
  | some stranger => .error (.peerNotConnected stranger)
  | none => .ok { net with links := addLink (addLink net.links (a, b)) (b, a) }

/-- Applies a change to one endpoint. -/
def modify (net : Network) (k : Nat) (change : Endpoint → Endpoint) : Network :=
  { net with endpoints := net.endpoints.modify k change }

/-! ### Sending -/

/-- The call with which an endpoint brings a peer up to date, and the parts the call carries; none
if the peer is believed to hold exactly what is held here. -/
def callFor? (self : Endpoint) (topic : Topic) (m : Message) (target : PeerId) :
    Option (Rpc × PartSet) :=
  let known := self.view ⟨target, topic, m.group⟩
  if known = m.available then none
  else
    let payload := m.payloadFor known
    some ({ Rpc.announce topic m.group m.available with fragment := payload.wire },
      payload.included)

/-- What the publication of a message sends to one peer.

The call is lost if the peer's inbox is full or closed, and then the view of the peer stays as it
was.  All this is done at once; `PartExchange.Network.Flight` has it step by step. -/
def sendTo (net : Network) (k : Nat) (topic : Topic) (m : Message) (target : PeerId) : Network :=
  match net.endpoints[k]?, net.endpointOf? target with
  | some self, some j =>
    match callFor? self topic m target, net.endpoints[j]? with
    | some (rpc, included), some receiver =>
      if receiver.accepts net.capacity then
        (net.modify j fun e => { e with inbox := e.inbox ++ [⟨self.peer, rpc⟩] }).modify k
          (·.mergeView ⟨target, topic, m.group⟩ included)
      else net
    | _, _ => net
  | _, _ => net

/-- Publishes a message from an endpoint: to the listed peers in order, or to all linked ones if
none is listed.  If a listed peer is not linked, nothing is sent at all. -/
def publish (net : Network) (k : Nat) (topic : Topic) (m : Message) (peers : List PeerId) :
    Except SyncError Network :=
  match net.endpoints[k]? with
  | none => .ok net
  | some self =>
    if peers.isEmpty then
      .ok ((net.peersOf self.peer).foldl (fun net => net.sendTo k topic m) net)
    else
      match peers.find? (!net.linked self.peer ·) with
      | some stranger => .error (.peerNotConnected stranger)
      | none => .ok (peers.foldl (fun net => net.sendTo k topic m) net)

/-- A publication is refused exactly when a listed peer is not linked, and the cause names the first
such peer. -/
theorem publish_eq_error_iff {net : Network} {k : Nat} {self : Endpoint} {topic : Topic}
    {m : Message} {peers : List PeerId} {cause : SyncError}
    (present : net.endpoints[k]? = some self) :
    net.publish k topic m peers = .error cause ↔
      ∃ stranger, peers.find? (!net.linked self.peer ·) = some stranger ∧
        cause = .peerNotConnected stranger := by
  unfold publish
  rw [present]
  cases peers with
  | nil => simp
  | cons first rest =>
    simp only [List.isEmpty_cons, Bool.false_eq_true, if_false]
    cases List.find? (!net.linked self.peer ·) (first :: rest) with
    | none => simp
    | some stranger => simpa using eq_comm

/-! ### Receiving -/

/-- Whether no further call can arrive at an endpoint, because its peer has another one by now. -/
def isReplaced (net : Network) (k : Nat) : Bool :=
  match net.endpoints[k]? with
  | none => true
  | some self => net.endpointOf? self.peer != some k

/-- Takes the next call out of an inbox and adds what it announces to the view of its sender. -/
def receive? (net : Network) (k : Nat) : Option (Envelope × Network) :=
  match net.endpoints[k]? with
  | none => none
  | some self =>
    match self.inbox with
    | [] => none
    | envelope :: rest =>
      let rpc := envelope.rpc
      let emptied := net.modify k fun e => { e with inbox := rest }
      match rpc.announced? with
      | none => some (envelope, emptied)
      | some held =>
        some (envelope, emptied.modify k (·.mergeView ⟨envelope.sender, rpc.topic, rpc.group⟩ held))

/-- What the peer of an endpoint believes another peer to hold. -/
def view (net : Network) (k : Nat) (key : ViewKey) : PartSet :=
  match net.endpoints[k]? with
  | none => .empty
  | some self => self.view key

end Network

end PartExchange
