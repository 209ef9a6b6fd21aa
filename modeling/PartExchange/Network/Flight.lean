/-
**Publications that can be interrupted.**

`Network.publish` serves all peers of a publication at once.  A publication is not as quick as that: for
each peer it reads the view, looks up the inbox, puts the call into it and notes what the call carries,
and after each of these somebody else may come in between.  A flight is a publication under way: it
knows the peers that are still to be served, and how far it has got with the first of them.  In the same
way, taking a call out of an inbox and noting what it announces are two things.

A flight that nobody interrupts does what `Network.publish` does, and so do the two halves of
`Network.receive?`.

Main definitions:

* `Leg`, `Flight`: how far a publication has got;
* `Network.begin`: a publication that has done nothing yet, or its refusal;
* `Network.advance?`: the next thing that a publication does;
* `Network.fly`: so many things, one after the other;
* `Network.take?`, `Network.learn`: the two halves of `Network.receive?`.

Main results:

* `Network.fly_eq`: a publication that is not interrupted serves its peers like `Network.sendTo`;
* `Network.publish_eq_fly`: `Network.publish` is a publication that is not interrupted;
* `Network.receive?_eq_take?`: `Network.receive?` is its two halves.
-/

import PartExchange.Network.Basic

set_option relaxedAutoImplicit false
set_option autoImplicit false

namespace PartExchange

/-! ### Flights -/

/-- How far a publication has got with the peer whose turn it is: not begun, with a call made up from
the view, with the inbox for the call, or with the call in the inbox and its parts not noted. -/
inductive Leg where
  | due
  | made (envelope : Envelope) (included : PartSet)
  | addressed (inbox : Nat) (envelope : Envelope) (included : PartSet)
  | queued (included : PartSet)
  deriving DecidableEq

/-- A publication under way. -/
structure Flight where
  /-- The endpoint from which it leaves. -/
  endpoint : Nat
  /-- The topic. -/
  topic : Topic
  /-- The message. -/
  message : Message
  /-- The peers that are still to be served; it is the first one's turn. -/
  targets : List PeerId
  /-- How far it has got with that one. -/
  leg : Leg := .due
  deriving DecidableEq

namespace Flight

/-- The turn passes to the next peer. -/
def next (f : Flight) : Flight := { f with targets := f.targets.tail, leg := .due }

/-- What the view of a peer is about. -/
def key (f : Flight) (peer : PeerId) : ViewKey := ⟨peer, f.topic, f.message.group⟩

/-- Whether all peers have been served. -/
def isOver (f : Flight) : Bool := f.targets.isEmpty

end Flight

namespace Network

/-- A publication that has done nothing yet.  If a listed peer is not linked, there is none. -/
def begin (net : Network) (k : Nat) (topic : Topic) (m : Message) (peers : List PeerId) :
    Except SyncError Flight :=
  match net.endpoints[k]? with
  | none => .ok ⟨k, topic, m, [], .due⟩
  | some self =>
    if peers.isEmpty then .ok ⟨k, topic, m, net.peersOf self.peer, .due⟩
    else
      match peers.find? (!net.linked self.peer ·) with
      | some stranger => .error (.peerNotConnected stranger)
      | none => .ok ⟨k, topic, m, peers, .due⟩

/-- Puts a call into an inbox, if it has room. -/
def post? (net : Network) (j : Nat) (envelope : Envelope) : Option Network :=
  match net.endpoints[j]? with
  | none => none
  | some receiver =>
    if receiver.accepts net.capacity then
      some (net.modify j fun e => { e with inbox := e.inbox ++ [envelope] })
    else none

/-- The next thing that a publication does, unless it is over.  The turn passes to the next peer when
the parts of a call have been noted, and when there is nothing to send or nowhere to put it. -/
def advance? (net : Network) (f : Flight) : Option (Network × Flight) :=
  match f.targets with
  | [] => none
  | target :: _ =>
    match f.leg with
    | .due =>
      match net.endpoints[f.endpoint]? with
      | none => some (net, f.next)
      | some self =>
        match callFor? self f.topic f.message target with
        | none => some (net, f.next)
        | some (rpc, included) => some (net, { f with leg := .made ⟨self.peer, rpc⟩ included })
    | .made envelope included =>
      match net.endpointOf? target with
      | none => some (net, f.next)
      | some j => some (net, { f with leg := .addressed j envelope included })
    | .addressed j envelope included =>
      match net.post? j envelope with
      | none => some (net, f.next)
      | some net => some (net, { f with leg := .queued included })
    | .queued included =>
      some (net.modify f.endpoint (·.mergeView (f.key target) included), f.next)

/-- At most `fuel` things that a publication does, one after the other. -/
def fly : (fuel : Nat) → Network → Flight → Network × Flight
  | 0, net, f => (net, f)
  | fuel + 1, net, f =>
    match net.advance? f with
    | none => (net, f)
    | some (net, f) => fly fuel net f

/-- Takes the next call out of an inbox. -/
def take? (net : Network) (k : Nat) : Option (Envelope × Network) :=
  match net.endpoints[k]? with
  | none => none
  | some self =>
    match self.inbox with
    | [] => none
    | envelope :: rest => some (envelope, net.modify k fun e => { e with inbox := rest })

/-- Adds what a call announces to the view of its sender. -/
def learn (net : Network) (k : Nat) (envelope : Envelope) : Network :=
  match envelope.rpc.announced? with
  | none => net
  | some held =>
    net.modify k (·.mergeView ⟨envelope.sender, envelope.rpc.topic, envelope.rpc.group⟩ held)

/-! ### Nobody interrupts -/

/-- Taking a call and noting what it announces is receiving it. -/
theorem receive?_eq_take? (net : Network) (k : Nat) :
    net.receive? k = (net.take? k).map fun (envelope, net) => (envelope, net.learn k envelope) := by
  rcases present : net.endpoints[k]? with _ | self
  · simp only [receive?, take?, present, Option.map_none]
  rcases waiting : self.inbox with _ | ⟨envelope, rest⟩
  · simp only [receive?, take?, present, waiting, Option.map_none]
  · simp only [receive?, take?, present, waiting, Option.map_some, learn]
    cases envelope.rpc.announced? <;> rfl

section Fly

variable {net : Network} {k : Nat} {topic : Topic} {m : Message}

theorem fly_add (n later : Nat) (net : Network) (f : Flight) :
    fly (n + later) net f = fly later (fly n net f).1 (fly n net f).2 := by
  induction n generalizing net f with
  | zero => rw [Nat.zero_add, fly]
  | succ n ih =>
    rw [Nat.succ_add, fly, fly]
    cases goes : net.advance? f with
    | none =>
      cases later with
      | zero => rfl
      | succ later => rw [fly, goes]
    | some after => exact ih after.1 after.2

/-- A publication that is over does nothing. -/
theorem fly_of_isOver {f : Flight} (finished : f.isOver = true) (n : Nat) (net : Network) :
    fly n net f = (net, f) := by
  cases n with
  | zero => rfl
  | succ n => rw [fly, advance?, List.isEmpty_iff.1 finished]

/-- The first peer is served in at most four steps, if nobody comes in between. -/
theorem fly_target (net : Network) (k : Nat) (topic : Topic) (m : Message) (target : PeerId)
    (rest : List PeerId) : ∃ n ≤ 4, fly n net ⟨k, topic, m, target :: rest, .due⟩ =
      (net.sendTo k topic m target, ⟨k, topic, m, rest, .due⟩) := by
  rcases present : net.endpoints[k]? with _ | self
  · exact ⟨1, by omega, by simp only [fly, advance?, sendTo, present]; rfl⟩
  rcases call : callFor? self topic m target with _ | ⟨rpc, included⟩
  · refine ⟨1, by omega, ?_⟩
    cases found : net.endpointOf? target <;>
      simp only [fly, advance?, sendTo, present, call, found] <;> rfl
  rcases found : net.endpointOf? target with _ | j
  · exact ⟨2, by omega, by simp only [fly, advance?, sendTo, present, call, found]; rfl⟩
  rcases there : net.endpoints[j]? with _ | receiver
  · refine ⟨3, by omega, ?_⟩
    simp only [fly, advance?, sendTo, present, call, found, post?, there]
    rfl
  by_cases room : receiver.accepts net.capacity = true
  · refine ⟨4, by omega, ?_⟩
    simp only [fly, advance?, sendTo, present, call, found, post?, there, if_pos room]
    rfl
  · refine ⟨3, by omega, ?_⟩
    simp only [fly, advance?, sendTo, present, call, found, post?, there, if_neg room]
    rfl

/-- A publication that nobody interrupts serves one peer after the other. -/
theorem fly_eq {targets : List PeerId} {fuel : Nat} (enough : 4 * targets.length ≤ fuel) :
    fly fuel net ⟨k, topic, m, targets, .due⟩ =
      (targets.foldl (fun net => net.sendTo k topic m) net, ⟨k, topic, m, [], .due⟩) := by
  induction targets generalizing net fuel with
  | nil => exact fly_of_isOver rfl fuel net
  | cons target rest ih =>
    obtain ⟨n, few, served⟩ := fly_target net k topic m target rest
    rw [List.length_cons] at enough
    obtain ⟨later, rfl⟩ := Nat.exists_eq_add_of_le (show n ≤ fuel by omega)
    rw [fly_add, served, List.foldl_cons]
    exact ih (by omega)

/-- `publish` is a publication that nobody interrupts. -/
theorem publish_eq_fly (net : Network) (k : Nat) (topic : Topic) (m : Message)
    (peers : List PeerId) : net.publish k topic m peers =
      (net.begin k topic m peers).map fun f => (fly (4 * f.targets.length) net f).1 := by
  have lands : ∀ targets : List PeerId,
      (fly (4 * targets.length) net ⟨k, topic, m, targets, .due⟩).1 =
        targets.foldl (fun net => net.sendTo k topic m) net :=
    fun targets => congrArg Prod.fst (fly_eq (Nat.le_refl _))
  unfold publish begin
  cases net.endpoints[k]? with
  | none => rfl
  | some self =>
    by_cases all : peers.isEmpty = true
    · simp only [if_pos all, Except.map, lands]
    · simp only [if_neg all]
      cases peers.find? (!net.linked self.peer ·) with
      | some stranger => rfl
      | none => simp only [Except.map, lands]

end Fly

end Network

end PartExchange
