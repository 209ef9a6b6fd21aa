/-
**What a publication does to each of its receivers.**

A publication names its receivers one by one, or leaves them out and means all linked peers.  All
the names are looked at before the first call goes out, so a single name that is not linked to the
sender refuses the publication as a whole.  After that nothing is refused any more, but a call may
come to nothing: the receiver may be believed to hold just what is published, and its inbox may be
full or closed.

The receivers are served in order, and the first of two calls is seen by the second.  A peer that is
named twice gets nothing the second time, unless the sender believes it to hold more than is
published; and a peer may be named whose inbox is the sender's own.  So what a call does is said of
the network that the calls before it have left.

Main definitions:

* `Rpc.BringsUpToDate`: a call that brings a peer what it lacks of a message;
* `Network.Serves`: receivers that are served one after the other;
* `Network.Reachable`: the states that a network gets into.

Main results:

* `Network.serves_foldl`: what becomes of each receiver;
* `Network.Serves.inbox`, `Network.Serves.view`: nothing else changes;
* `Network.Reachable.grounded`: calls to a linked peer arrive somewhere;
* `Carriers.refuses_or_serves`: a publication as a whole.
-/

import PartExchange.Proofs.Network
import PartExchange.Proofs.Payload

set_option relaxedAutoImplicit false
set_option autoImplicit false

namespace PartExchange

/-- A call about a message, to a peer that is believed to hold `known`: it announces all that is
held of the message, and brings what is held and not known. -/
structure Rpc.BringsUpToDate (rpc : Rpc) (topic : Topic) (m : Message) (known : PartSet) :
    Prop where
  /-- The topic. -/
  topic : rpc.topic = topic
  /-- The group. -/
  group : rpc.group = m.group
  /-- The metadata are the byte of what is held. -/
  metadata : rpc.metadata = some [m.available.bits]
  /-- The call is not refused. -/
  acceptable : rpc.Acceptable
  /-- It brings what is held and not known, with the content that is held. -/
  parts : rpc.parts = m.partsIn (m.available.diff known)
  /-- If that is nothing, there is no fragment. -/
  silent : rpc.fragment = none ↔ m.available ≤ known

theorem Rpc.bringsUpToDate_update (topic : Topic) (m : Message) (known : PartSet) :
    (update topic m known).BringsUpToDate topic m known where
  topic := rfl
  group := rfl
  metadata := rfl
  acceptable := acceptable_update topic m known
  parts := parts_update topic m known
  silent := Message.wire_eq_none_iff

namespace Network

/-! ### One receiver after the other -/

/-- A network before and after the peers of a list have been served from endpoint `k`, in order,
each in the network that the ones before it have left. -/
inductive Serves (k : Nat) (topic : Topic) (m : Message) : List PeerId → Network → Network → Prop
  | done (net : Network) : Serves k topic m [] net net
  | passed {target : PeerId} {rest : List PeerId} {net net' : Network}
      (idle : net.view k ⟨target, topic, m.group⟩ = m.available ∨
        ∀ j, net.endpointOf? target = some j → ¬ net.Accepts j)
      (later : Serves k topic m rest net net') : Serves k topic m (target :: rest) net net'
  | sent {target sender : PeerId} {j : Nat} {rest : List PeerId} {net next net' : Network}
      (accepts : net.Accepts j) (sent : Sent k topic m target sender j net next)
      (later : Serves k topic m rest next net') : Serves k topic m (target :: rest) net net'

section Serves

variable {k : Nat} {topic : Topic} {m : Message}

/-- What becomes of each receiver of a publication. -/
theorem serves_foldl {net : Network} (present : (net.peerAt? k).isSome = true)
    (targets : List PeerId) :
    Serves k topic m targets net (targets.foldl (fun net => net.sendTo k topic m) net) := by
  induction targets generalizing net with
  | nil => exact .done net
  | cons target rest ih =>
    obtain ⟨_, here⟩ := Option.isSome_iff_exists.1 present
    obtain ⟨self, found, -⟩ := peerAt?_eq_some.1 here
    rw [List.foldl_cons]
    rcases sendTo_cases_of_present found topic m target with ⟨same, idle⟩ | ⟨j, accepts, sent⟩
    · rw [same]
      exact .passed idle (ih present)
    · exact .sent accepts sent (ih (sent.peerAt? k ▸ present))

variable {targets : List PeerId} {net net' : Network} (serves : Serves k topic m targets net net')

include serves

/-- Serving changes neither peers nor links nor readers. -/
theorem Serves.framed : net.Framed net' := by
  induction serves with
  | done net => exact Framed.refl net
  | passed idle later ih => exact ih
  | sent accepts sent later ih => exact sent.toFramed.trans ih

/-- Inboxes only grow at their ends, and only those of the receivers do. -/
theorem Serves.inbox (i : Nat) : ∃ arrived, net'.inbox i = net.inbox i ++ arrived ∧
    ((∀ target ∈ targets, net.endpointOf? target ≠ some i) → arrived = []) := by
  induction serves with
  | done net => exact ⟨[], (List.append_nil _).symm, fun _ => rfl⟩
  | passed idle later ih =>
    obtain ⟨arrived, grown, elsewhere⟩ := ih
    exact ⟨arrived, grown, fun none => elsewhere (List.forall_mem_cons.1 none).2⟩
  | sent accepts sent later ih =>
    obtain ⟨arrived, grown, elsewhere⟩ := ih
    -- Calls to a receiver arrive at the same endpoint before and after the others have been served.
    refine ⟨_, by rw [grown, sent.inbox, List.append_assoc], ?_⟩
    intro none
    obtain ⟨other, none'⟩ := List.forall_mem_cons.1 none
    rw [if_neg, List.nil_append]
    · refine elsewhere fun target listed => ?_
      rw [sent.endpointOf?]
      exact none' target listed
    · rintro rfl
      exact other sent.receiver

/-- The only views that change are those that the sender has of the receivers, about the group of
the message. -/
theorem Serves.view {i : Nat} {key : ViewKey} (changed : net'.view i key ≠ net.view i key) :
    i = k ∧ key.peer ∈ targets ∧ key.topic = topic ∧ key.group = m.group := by
  induction serves with
  | done net => exact absurd rfl changed
  | passed idle later ih =>
    obtain ⟨here, listed, about⟩ := ih changed
    exact ⟨here, List.mem_cons_of_mem _ listed, about⟩
  | @sent target _ _ _ net next _ accepts sent later ih =>
    by_cases first : next.view i key = net.view i key
    · rw [← first] at changed
      obtain ⟨here, listed, about⟩ := ih changed
      exact ⟨here, List.mem_cons_of_mem _ listed, about⟩
    · rw [sent.view] at first
      split at first
      · rename_i here
        obtain ⟨rfl, rfl⟩ := here
        exact ⟨rfl, List.mem_cons_self, rfl, rfl⟩
      · exact absurd rfl first

end Serves

/-! ### Receivers have an inbox -/

/-- The states that a network gets into: peers join and get linked, publications are carried out,
inboxes are begun to be read, calls are taken out of them, and in the end they are closed. -/
inductive Reachable : Network → Prop
  | new (capacity : Nat) : Reachable (.new capacity)
  | register {net : Network} (earlier : Reachable net) (peer : PeerId) :
      Reachable (net.register peer).1
  | connect {net net' : Network} {a b : PeerId} (earlier : Reachable net)
      (made : net.connect a b = .ok net') : Reachable net'
  | publish {net net' : Network} {k : Nat} {topic : Topic} {m : Message} {peers : List PeerId}
      (earlier : Reachable net) (published : net.publish k topic m peers = .ok net') :
      Reachable net'
  | read {net : Network} (earlier : Reachable net) (k : Nat) :
      Reachable (net.modify k fun self => { self with reading := .pumped })
  | receive {net net' : Network} {k : Nat} {envelope : Envelope} (earlier : Reachable net)
      (taken : net.receive? k = some (envelope, net')) : Reachable net'
  | close {net : Network} (earlier : Reachable net) (k : Nat) :
      Reachable (net.modify k Endpoint.close)

/-- Calls to a linked peer arrive at an endpoint of that peer. -/
structure Grounded (net : Network) : Prop where
  /-- Calls arrive at an endpoint of their receiver. -/
  registered : net.Registered
  /-- Linked peers are registered. -/
  linked : ∀ {a b}, net.linked a b = true → net.isRegistered b = true

theorem Grounded.framed {net net' : Network} (grounded : net.Grounded)
    (framed : net.Framed net') : net'.Grounded where
  registered := grounded.registered.framed framed
  linked link := by
    rw [framed.linked] at link
    rw [isRegistered, framed.endpointOf?]
    exact grounded.linked link

/-- A publication that is carried out changes neither peers nor links nor readers. -/
theorem framed_publish {net net' : Network} {k : Nat} {topic : Topic} {m : Message}
    {peers : List PeerId} (published : net.publish k topic m peers = .ok net') :
    net.Framed net' := by
  have carried := net_publish { net } k ⟨topic, m, peers⟩
  simp only [Carriers.publish, published] at carried
  rw [carried]
  exact framed_carry net k _

/-- In a state that a network gets into, calls to a linked peer arrive at an endpoint of that
peer. -/
theorem Reachable.grounded {net : Network} (reachable : net.Reachable) : net.Grounded := by
  induction reachable with
  | new capacity => exact ⟨Registered.new capacity, fun link => nomatch link⟩
  | register earlier peer ih =>
    refine ⟨ih.registered.register peer, fun link => ?_⟩
    rw [isRegistered, endpointOf?_register]
    split
    · rfl
    · exact ih.linked link
  | connect earlier made ih =>
    have connected := connected made
    refine ⟨ih.registered.connect made, fun link => ?_⟩
    rw [isRegistered, connected.endpointOf?]
    rcases connected.linked.1 link with old | ⟨-, rfl⟩ | ⟨-, rfl⟩
    · exact ih.linked old
    · exact connected.registered.2
    · exact connected.registered.1
  | publish earlier published ih => exact ih.framed (framed_publish published)
  | read earlier k ih => exact ⟨ih.registered.modify k fun _ => rfl, ih.linked⟩
  | receive earlier taken ih => exact ih.framed (received taken).toFramed
  | close earlier k ih => exact ⟨ih.registered.modify k fun _ => rfl, ih.linked⟩

end Network

namespace Carriers

/-! ### Refused or carried out -/

section Publish

variable {carriers : Carriers} {k : Nat} {self : Endpoint}
  (present : carriers.net.endpoints[k]? = some self) (publication : Publication)

include present

/-- A publication that names a peer which is not linked does nothing, and names the first such
peer. -/
theorem publish_of_stranger {stranger : PeerId}
    (named : publication.peers.find? (!carriers.net.linked self.peer ·) = some stranger) :
    Carriers.publish (.endpoint k) carriers publication =
      (carriers, some (.peerNotConnected stranger)) := by
  have refused : carriers.net.publish k publication.topic publication.message publication.peers =
      .error (.peerNotConnected stranger) :=
    (Network.publish_eq_error_iff present).2 ⟨stranger, named, rfl⟩
  simp only [Carriers.publish, refused]

/-- A publication that names linked peers only, or nobody, is carried out. -/
theorem publish_of_linked
    (none : publication.peers.find? (!carriers.net.linked self.peer ·) = none) :
    Carriers.publish (.endpoint k) carriers publication =
      ({ carriers with
          net := (if publication.peers = [] then carriers.net.peersOf self.peer
            else publication.peers).foldl
              (fun net => net.sendTo k publication.topic publication.message) carriers.net },
        Option.none) := by
  cases named : publication.peers with
  | nil => simp only [Carriers.publish, Network.publish, present, named, List.isEmpty_nil, if_true]
  | cons first rest =>
    rw [named] at none
    simp only [Carriers.publish, Network.publish, present, named, List.isEmpty_cons,
      Bool.false_eq_true, if_false, none, List.cons_ne_nil]

end Publish

/-- **A publication is refused as a whole, or serves its receivers.**  The network may be in any
state, and the list of receivers may name anybody, several times and in any order; if it names
nobody, all linked peers are meant.  A publication is refused exactly if somebody is named who is
not linked to the sender.  The cause then names the first such peer, and nothing has happened.
Otherwise the receivers are served in order.  Each of them gets nothing if it is believed, when its
turn comes, to hold just what is published, or if its inbox is full or closed; and one call if not,
that announces what the sender holds and brings the parts that the peer is not believed to hold.
What a call brings is believed from then on.  No other inbox gets a call, no other view changes, and
neither do peers, links and readers.  Every receiver has an inbox, if the network is in a state that
networks get into. -/
theorem refuses_or_serves {carriers : Carriers} {k : Nat} {self : Endpoint}
    (present : carriers.net.endpoints[k]? = some self) (publication : Publication) :
    let net := carriers.net
    let topic := publication.topic
    let m := publication.message
    let targets := if publication.peers = [] then net.peersOf self.peer else publication.peers
    let result := Carriers.publish (.endpoint k) carriers publication
    (result.2 ≠ none ↔ ∃ peer ∈ publication.peers, net.linked self.peer peer = false) ∧
      (∀ cause, result.2 = some cause → result.1 = carriers ∧
        ∃ before stranger after, publication.peers = before ++ stranger :: after ∧
          (∀ peer ∈ before, net.linked self.peer peer = true) ∧
          net.linked self.peer stranger = false ∧ cause = .peerNotConnected stranger) ∧
      (result.2 = none → result.1.recorders = carriers.recorders ∧
        net.Framed result.1.net ∧ Network.Serves k topic m targets net result.1.net ∧
        (∀ i, ∃ arrived, result.1.net.inbox i = net.inbox i ++ arrived ∧
          ((∀ target ∈ targets, net.endpointOf? target ≠ some i) → arrived = [])) ∧
        (∀ i key, result.1.net.view i key ≠ net.view i key →
          i = k ∧ key.peer ∈ targets ∧ key.topic = topic ∧ key.group = m.group) ∧
        (net.Reachable → ∀ target ∈ targets,
          ∃ j, net.endpointOf? target = some j ∧ net.peerAt? j = some target)) ∧
      (∀ peer, peer ∈ net.peersOf self.peer ↔ net.linked self.peer peer = true) ∧
      (∀ known, (Rpc.update topic m known).BringsUpToDate topic m known) := by
  intro net topic m targets result
  rcases named : publication.peers.find? (!net.linked self.peer ·) with _ | stranger
  · have outcome := publish_of_linked present publication named
    change result = _ at outcome
    have linked : ∀ peer ∈ publication.peers, net.linked self.peer peer = true := by
      intro peer listed
      simpa using List.find?_eq_none.1 named peer listed
    have serves : Network.Serves k topic m targets net result.1.net := by
      rw [outcome]
      exact Network.serves_foldl (by rw [Network.peerAt?_of_present present]; rfl) targets
    refine ⟨?_, ?_, fun _ => ⟨by rw [outcome], serves.framed, serves, serves.inbox,
      fun _ _ => serves.view, ?_⟩, fun _ => Network.mem_peersOf, Rpc.bringsUpToDate_update topic m⟩
    · rw [outcome]
      constructor
      · exact fun refused => absurd rfl refused
      · rintro ⟨peer, listed, unlinked⟩
        rw [linked peer listed] at unlinked
        cases unlinked
    · intro cause refused
      rw [outcome] at refused
      cases refused
    · intro reachable target listed
      have grounded := reachable.grounded
      suffices link : net.linked self.peer target = true by
        obtain ⟨j, found⟩ := Option.isSome_iff_exists.1 (grounded.linked link)
        exact ⟨j, found, grounded.registered target j found⟩
      by_cases broadcast : publication.peers = []
      · rw [show targets = net.peersOf self.peer from if_pos broadcast] at listed
        exact Network.mem_peersOf.1 listed
      · rw [show targets = publication.peers from if_neg broadcast] at listed
        exact linked target listed
  · have outcome := publish_of_stranger present publication named
    change result = _ at outcome
    obtain ⟨unlinked, before, after, split, linked⟩ := List.find?_eq_some_iff_append.1 named
    rw [Bool.not_eq_true'] at unlinked
    simp only [Bool.not_not] at linked
    rw [outcome]
    refine ⟨?_, ?_, ?_, fun _ => Network.mem_peersOf, Rpc.bringsUpToDate_update topic m⟩
    · refine iff_of_true (Option.some_ne_none _) ⟨stranger, ?_, unlinked⟩
      rw [split]
      exact List.mem_append_right _ List.mem_cons_self
    · rintro _ ⟨rfl⟩
      exact ⟨rfl, before, stranger, after, split, linked, unlinked, rfl⟩
    · rintro ⟨⟩

/-- A peer that is linked to another one and to itself publishes a part to the other one, to itself,
and to the other one again: each of the two inboxes, with a single place, gets one call.  If a third
peer that is not linked is named in between, nobody gets anything. -/
theorem stranger_spoils_publication :
    let peer (byte : UInt8) : PeerId := ⟨List.replicate peerIdLength byte, List.length_replicate⟩
    let part : Part := ⟨List.replicate partLength 7, List.length_replicate⟩
    let net : Network :=
      { capacity := 1, endpoints := [{ peer := peer 0 }, { peer := peer 1 }],
        registry := [(peer 0, 0), (peer 1, 1)],
        links := [(peer 0, peer 1), (peer 1, peer 0), (peer 0, peer 0)] }
    let carriers : Carriers := { net }
    let result (peers : List PeerId) := Carriers.publish (.endpoint 0) carriers
      ⟨default, (Message.new default).fill 3 part, peers⟩
    (result [peer 1, peer 2, peer 0]).2 = some (.peerNotConnected (peer 2)) ∧
      (result [peer 1, peer 2, peer 0]).1 = carriers ∧
      net.Framed (result [peer 1, peer 0, peer 1]).1.net ∧
      ((result [peer 1, peer 0, peer 1]).1.net.inbox 0).length = 1 ∧
      ((result [peer 1, peer 0, peer 1]).1.net.inbox 1).length = 1 := by
  intro peer part net carriers result
  have present : carriers.net.endpoints[0]? = some { peer := peer 0 } := rfl
  have unlinked : (result [peer 1, peer 2, peer 0]).2 = some (.peerNotConnected (peer 2)) := by
    decide +kernel
  obtain ⟨-, unchanged, -⟩ := refuses_or_serves present
    ⟨default, (Message.new default).fill 3 part, [peer 1, peer 2, peer 0]⟩
  obtain ⟨-, -, carried, -⟩ := refuses_or_serves present
    ⟨default, (Message.new default).fill 3 part, [peer 1, peer 0, peer 1]⟩
  obtain ⟨-, framed, -⟩ := carried (by decide +kernel)
  exact ⟨unlinked, (unchanged _ unlinked).1, framed, by decide +kernel, by decide +kernel⟩

end Carriers

end PartExchange
