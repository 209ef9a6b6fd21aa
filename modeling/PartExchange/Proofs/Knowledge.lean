/-
**Where views come from.**

A peer never looks into the store of another peer.  What it believes of that peer it has from two
sources: from the calls that it has put into the other peer's inbox, for what they carry, and from
the calls that the other peer has put into its own inbox, for what they announce.  So every part of
every view has its origin in the history.

This holds along every run: it does not matter what becomes of the other peer, whether its store
forgets the group, or whether it comes back with an empty one.

Main definitions:

* `Envelope.key`: what a call is about;
* `History.Queued`, `History.Told`: the two sources;
* `Network.Listens`: a change of a network in which endpoints learn from their inboxes only;
* `Exchange.Witnessed`: every part of every view has an origin.

Main results:

* `Exchange.listens_act?`: where nothing is sent, endpoints learn from their inboxes only;
* `Exchange.Run.witnessed`: every part of every view has an origin.
-/

import PartExchange.Proofs.Traffic

set_option relaxedAutoImplicit false
set_option autoImplicit false

namespace PartExchange

/-! ### Sources -/

/-- What a call is about: the group, from the side of whoever gets the call. -/
def Envelope.key (envelope : Envelope) : ViewKey :=
  ⟨envelope.sender, envelope.rpc.topic, envelope.rpc.group⟩

/-- A call announces that its sender holds a part. -/
def Envelope.Announces (envelope : Envelope) (key : ViewKey) (index : Nat) : Prop :=
  envelope.key = key ∧
    ∃ held, envelope.rpc.announced? = some held ∧ held.contains index = true

/-- An endpoint has put a call that carries a part into an inbox of a peer. -/
def History.Queued (h : History) (net : Network) (k : Nat) (key : ViewKey) (index : Nat) : Prop :=
  ∃ posting ∈ h.posted, posting.source = k ∧ net.peerAt? posting.target = some key.peer ∧
    posting.envelope.rpc.topic = key.topic ∧ posting.envelope.rpc.group = key.group ∧
    posting.envelope.rpc.carried.contains index = true

/-- A call that announces a part has been put into the inbox of an endpoint. -/
def History.Told (h : History) (k : Nat) (key : ViewKey) (index : Nat) : Prop :=
  ∃ posting ∈ h.posted, posting.target = k ∧ posting.envelope.Announces key index

/-! ### Learning from inboxes -/

namespace Network

/-- A change in which endpoints learn nothing but what is announced in their inboxes. -/
structure Listens (net net' : Network) : Prop where
  /-- Every endpoint belongs to its peer for good. -/
  peerAt? : ∀ {i peer}, net.peerAt? i = some peer → net'.peerAt? i = some peer
  /-- Nothing is put into an inbox. -/
  inbox : ∀ i, net'.inbox i ⊆ net.inbox i
  /-- Whatever is new in a view has been announced in the inbox. -/
  learnt : ∀ {i key index}, (net'.view i key).contains index = true →
    (net.view i key).contains index = true ∨
      ∃ envelope ∈ net.inbox i, envelope.Announces key index
  /-- Calls to a peer arrive at an endpoint of that peer. -/
  registered : net.Registered → net'.Registered

namespace Listens

variable {net net' net'' : Network}

theorem trans (first : net.Listens net') (second : net'.Listens net'') : net.Listens net'' where
  peerAt? here := second.peerAt? (first.peerAt? here)
  inbox i := List.Subset.trans (second.inbox i) (first.inbox i)
  learnt {i key index} claims := by
    rcases second.learnt claims with before | ⟨envelope, waiting, announces⟩
    · exact first.learnt before
    · exact Or.inr ⟨envelope, first.inbox i waiting, announces⟩
  registered h := second.registered (first.registered h)

/-- Where nothing moves, nothing is learnt at all. -/
theorem of_rests (rests : net.Rests net') : net.Listens net' where
  peerAt? := rests.peerAt?
  inbox i := by
    rcases rests.inbox i with same | ⟨-, none⟩
    · rw [same]
      exact List.Subset.refl _
    · rw [none]
      exact List.nil_subset _
  learnt {i key _} claims := Or.inl (rests.view i key ▸ claims)
  registered := rests.registered

/-- Whoever takes a call out of its inbox learns what the call announces. -/
theorem receive {k : Nat} {envelope : Envelope}
    (taken : net.receive? k = some (envelope, net')) : net.Listens net' := by
  have received := received taken
  refine ⟨?_, ?_, ?_, fun registered => registered.framed received.toFramed⟩
  · intro i peer there
    rwa [received.peerAt?]
  · intro i
    by_cases here : i = k
    · rw [here, received.head]
      exact List.subset_cons_self _ _
    · rw [received.others i here]
      exact List.Subset.refl _
  · intro i key index claims
    rw [received.view] at claims
    split at claims
    · rename_i about
      obtain ⟨rfl, rfl⟩ := about
      rw [PartSet.contains_union, Bool.or_eq_true] at claims
      refine claims.imp id ?_
      intro told
      cases announced : envelope.rpc.announced? with
      | none => simp [announced] at told
      | some held =>
        rw [announced] at told
        exact ⟨envelope, by simp [received.head], rfl, held, announced, told⟩
    · exact Or.inl claims

end Listens

end Network

namespace Exchange

variable {e e' : Exchange}

/-- Where nothing is sent, endpoints learn from their inboxes only. -/
theorem listens_act? {action : Action} (acts : e.act? action = some e')
    (source : e.source? action = none) : e.carriers.net.Listens e'.carriers.net := by
  cases traffic_act? acts with
  | publishes sends =>
    rw [source] at sends
    cases sends
  | takes _ _ received rests => exact (Network.Listens.receive received).trans (.of_rests rests)
  | rests _ _ rests => exact .of_rests rests

/-! ### Origins of views -/

/-- Every call in an inbox has been put there, and every part of every view has been sent to the
peer or announced by it. -/
structure Witnessed (h : History) (net : Network) : Prop where
  /-- The calls in inboxes. -/
  posted : ∀ {j envelope}, envelope ∈ net.inbox j →
    ∃ posting ∈ h.posted, posting.target = j ∧ posting.envelope = envelope
  /-- The parts of views. -/
  known : ∀ {k key index}, (net.view k key).contains index = true →
    h.Queued net k key index ∨ h.Told k key index
  /-- Calls to a peer arrive at an endpoint of that peer. -/
  registered : net.Registered

namespace Witnessed

variable {h h' : History} {net net' : Network} (witnessed : Witnessed h net)
  (posted : h.posted ⊆ h'.posted)

include witnessed posted

theorem listens (listens : net.Listens net') : Witnessed h' net' where
  posted {j envelope} waiting := by
    obtain ⟨posting, member, rest⟩ := witnessed.posted (listens.inbox j waiting)
    exact ⟨posting, posted member, rest⟩
  known {k key index} claims := by
    rcases listens.learnt claims with before | ⟨envelope, waiting, announces⟩
    · rcases witnessed.known before with ⟨posting, member, source, target, rest⟩ | ⟨posting, member,
        rest⟩
      · exact Or.inl ⟨posting, posted member, source, listens.peerAt? target, rest⟩
      · exact Or.inr ⟨posting, posted member, rest⟩
    · obtain ⟨posting, member, target, rfl⟩ := witnessed.posted waiting
      exact Or.inr ⟨posting, posted member, target, announces⟩
  registered := listens.registered witnessed.registered

theorem spreads {k : Nat} {topic : Topic} {m : Message} {targets : List PeerId}
    (spreads : Network.Spreads k topic m targets net net')
    (sent : ∀ j, ∀ envelope ∈ net.arrivals net' j, ⟨k, j, envelope⟩ ∈ h'.posted) :
    Witnessed h' net' where
  posted {j envelope} waiting := by
    rw [spreads.inbox] at waiting
    rcases List.mem_append.1 waiting with before | arrived
    · obtain ⟨posting, member, rest⟩ := witnessed.posted before
      exact ⟨posting, posted member, rest⟩
    · exact ⟨_, sent j envelope arrived, rfl, rfl⟩
  known {k' key index} claims := by
    have old : (net.view k' key).contains index = true →
        h'.Queued net' k' key index ∨ h'.Told k' key index := by
      intro before
      rcases witnessed.known before with ⟨posting, member, source, target, rest⟩ | ⟨posting, member,
        rest⟩
      · exact Or.inl ⟨posting, posted member, source, by rwa [spreads.peerAt?], rest⟩
      · exact Or.inr ⟨posting, posted member, rest⟩
    by_cases about : k' = k ∧ key.topic = topic ∧ key.group = m.group
    · obtain ⟨peer, topic', group⟩ := key
      obtain ⟨rfl, rfl, rfl⟩ := about
      rcases spreads.learnt peer index claims with before | ⟨j, found, envelope, arrived, carries⟩
      · exact old before
      · obtain ⟨sender, target, known, -, -, -, form, -⟩ := spreads.arrival j envelope arrived
        have there := witnessed.registered peer j found
        refine Or.inl ⟨_, sent j envelope arrived, rfl, ?_, ?_, ?_, carries⟩
        · rwa [spreads.peerAt?]
        · rw [form]
          rfl
        · rw [form]
          rfl
    · rw [spreads.others k' key about] at claims
      exact old claims
  registered := witnessed.registered.framed spreads.toFramed

end Witnessed

/-- Along every run, every part of every view has been sent to the peer or announced by it. -/
theorem Run.witnessed {allowed : Exchange → Action → Prop} {capacity : Nat} {h : History}
    (run : Run allowed (.new capacity) h e) : Witnessed h e.carriers.net := by
  induction run with
  | start =>
    refine ⟨?_, ?_, Network.Registered.new capacity⟩
    · intro j envelope waiting
      simp [Exchange.new, Network.inbox, Network.new] at waiting
    · intro k key index claims
      simp [Exchange.new, Network.view, Network.new] at claims
  | @step h e e' action run allow acts ih =>
    have posted := posted_subset_after h e action e'
    cases source : e.source? action with
    | none => exact ih.listens posted (listens_act? acts source)
    | some k =>
      obtain ⟨topic, m, targets, spreads⟩ := spreads_act? acts source
      exact ih.spreads posted spreads fun j envelope arrived =>
        mem_posted_after.2 (Or.inr ⟨source, arrived⟩)

end Exchange

end PartExchange
