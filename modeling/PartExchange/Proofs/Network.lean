/-
**What a publication does to a network.**

A publication only appends to inboxes and only adds to the sender's own views.  What is appended is
always the call that brings its receiver up to date, as far as the sender can see; what is added to
a view is carried by a call that has just been appended to an inbox of the peer the view is about.
If no inbox is full, then afterwards every receiver is believed to hold what was published.

Main definitions:

* `Network.peerAt?`, `Network.readingAt?`, `Network.inbox`: what is seen at an endpoint;
* `Network.Accepts`: one more call fits into an inbox;
* `Network.arrivals`: what has been appended to an inbox;
* `Network.targets`, `Network.carry`: the receivers of a publication, and the network after it;
* `Network.Posted`, `Network.Taken`, `Network.Noted`: a call goes into an inbox or out of it, and parts
  are noted in a view;
* `Network.Spreads`: a network before and after calls to some peers;
* `Network.hasRoomFor`: no call to the listed peers finds a full inbox;
* `Network.Registered`: calls to a peer arrive at an endpoint of that peer.

Main results:

* `Network.posted_of_post?`, `Network.taken_of_take?`, `Network.noted_learn`: moving a call notes nothing,
  and noting moves no call;
* `Network.spreads_carry`: a publication spreads;
* `Network.le_view_of_hasRoomFor`: without full inboxes every receiver is brought up to date;
* `Network.received`, `Network.connected`: what taking a call out of an inbox and linking two peers
  do.
-/

import PartExchange.Exchange.Basic
import PartExchange.Network.Flight
import PartExchange.Proofs.Rpc
import PartExchange.Proofs.Coordinator

set_option relaxedAutoImplicit false
set_option autoImplicit false

namespace PartExchange

/-! ### Lists with one more element -/

theorem getElem?_concat {α : Type} (list : List α) (x : α) (i : Nat) :
    (list ++ [x])[i]? = if i = list.length then some x else list[i]? := by
  rcases Nat.lt_trichotomy i list.length with inside | rfl | outside
  · rw [List.getElem?_append_left inside, if_neg (Nat.ne_of_lt inside)]
  · rw [if_pos rfl, List.getElem?_concat_length]
  · rw [if_neg (Nat.ne_of_gt outside), List.getElem?_eq_none (Nat.le_of_lt outside),
      List.getElem?_eq_none]
    rw [List.length_append, List.length_singleton]
    exact outside

/-- An element of a list with one more at its end was there before, or is that one. -/
theorem of_getElem?_concat {α : Type} {list : List α} {x y : α} {i : Nat}
    (there : (list ++ [x])[i]? = some y) : list[i]? = some y ∨ y = x := by
  rw [getElem?_concat] at there
  split at there
  · exact Or.inr (Option.some.inj there).symm
  · exact Or.inl there

/-- What is in a list stays where it is when there is one more at its end. -/
theorem getElem?_concat_of_some {α : Type} {list : List α} {y : α} {i : Nat}
    (here : list[i]? = some y) (x : α) : (list ++ [x])[i]? = some y := by
  rw [List.getElem?_append_left (List.getElem?_eq_some_iff.1 here).1, here]

namespace Network

/-! ### What is seen at an endpoint -/

/-- The peer of an endpoint. -/
def peerAt? (net : Network) (k : Nat) : Option PeerId := net.endpoints[k]?.map Endpoint.peer

/-- Who reads the inbox of an endpoint. -/
def readingAt? (net : Network) (k : Nat) : Option Reading := net.endpoints[k]?.map Endpoint.reading

/-- The calls that have arrived at an endpoint, oldest first. -/
def inbox (net : Network) (k : Nat) : List Envelope :=
  (net.endpoints[k]?.map Endpoint.inbox).getD []

section Present

variable {net : Network} {k : Nat} {self : Endpoint} (present : net.endpoints[k]? = some self)

include present

theorem peerAt?_of_present : net.peerAt? k = some self.peer := by rw [peerAt?, present]; rfl

theorem readingAt?_of_present : net.readingAt? k = some self.reading := by
  rw [readingAt?, present]; rfl

theorem inbox_of_present : net.inbox k = self.inbox := by rw [inbox, present]; rfl

theorem view_of_present (key : ViewKey) : net.view k key = self.view key := by rw [view, present]

end Present

theorem peerAt?_eq_some {net : Network} {k : Nat} {peer : PeerId} :
    net.peerAt? k = some peer ↔ ∃ self, net.endpoints[k]? = some self ∧ self.peer = peer :=
  Option.map_eq_some_iff

theorem view_eq_empty {net : Network} {k : Nat} (absent : net.peerAt? k = none) (key : ViewKey) :
    net.view k key = .empty := by
  rw [view, Option.map_eq_none_iff.1 absent]

/-! ### Changing one endpoint -/

theorem getElem?_modify (net : Network) (k : Nat) (change : Endpoint → Endpoint) (i : Nat) :
    (net.modify k change).endpoints[i]? =
      if k = i then net.endpoints[i]?.map change else net.endpoints[i]? := by
  rw [modify, List.getElem?_modify]
  split <;> simp

/-- Two networks with the same peers, links and readers. -/
structure Framed (net net' : Network) : Prop where
  /-- The places in an inbox. -/
  capacity : net'.capacity = net.capacity
  /-- Where the calls to a peer arrive. -/
  registry : net'.registry = net.registry
  /-- Who is linked to whom. -/
  links : net'.links = net.links
  /-- The peers of the endpoints. -/
  peerAt? : ∀ i, net'.peerAt? i = net.peerAt? i
  /-- The readers of the inboxes. -/
  readingAt? : ∀ i, net'.readingAt? i = net.readingAt? i

theorem Framed.refl (net : Network) : net.Framed net := ⟨rfl, rfl, rfl, fun _ => rfl, fun _ => rfl⟩

theorem Framed.trans {net net' net'' : Network} (first : net.Framed net')
    (second : net'.Framed net'') : net.Framed net'' where
  capacity := second.capacity.trans first.capacity
  registry := second.registry.trans first.registry
  links := second.links.trans first.links
  peerAt? i := (second.peerAt? i).trans (first.peerAt? i)
  readingAt? i := (second.readingAt? i).trans (first.readingAt? i)

theorem Framed.endpointOf? {net net' : Network} (framed : net.Framed net') (peer : PeerId) :
    net'.endpointOf? peer = net.endpointOf? peer := by
  rw [Network.endpointOf?, framed.registry, Network.endpointOf?]

theorem Framed.linked {net net' : Network} (framed : net.Framed net') (a b : PeerId) :
    net'.linked a b = net.linked a b := by
  rw [Network.linked, framed.links, Network.linked]

section Modify

variable {net : Network} {k : Nat} {change : Endpoint → Endpoint}

theorem peerAt?_modify (same : ∀ e, (change e).peer = e.peer) (i : Nat) :
    (net.modify k change).peerAt? i = net.peerAt? i := by
  rw [peerAt?, getElem?_modify, peerAt?]
  split
  · cases net.endpoints[i]? with
    | none => rfl
    | some e => exact congrArg some (same e)
  · rfl

theorem framed_modify (peer : ∀ e, (change e).peer = e.peer)
    (reading : ∀ e, (change e).reading = e.reading) : net.Framed (net.modify k change) := by
  refine ⟨rfl, rfl, rfl, peerAt?_modify peer, ?_⟩
  intro i
  rw [readingAt?, getElem?_modify, readingAt?]
  split
  · cases net.endpoints[i]? with
    | none => rfl
    | some e => exact congrArg some (reading e)
  · rfl

variable {self : Endpoint} (present : net.endpoints[k]? = some self)

include present

theorem readingAt?_modify (i : Nat) : (net.modify k change).readingAt? i =
    if i = k then some (change self).reading else net.readingAt? i := by
  rw [readingAt?, getElem?_modify]
  by_cases here : i = k
  · subst here
    rw [if_pos rfl, if_pos rfl, present]
    rfl
  · rw [if_neg (Ne.symm here), if_neg here, readingAt?]

theorem inbox_modify (i : Nat) :
    (net.modify k change).inbox i = if i = k then (change self).inbox else net.inbox i := by
  rw [inbox, getElem?_modify]
  by_cases here : i = k
  · subst here
    rw [if_pos rfl, if_pos rfl, present]
    rfl
  · rw [if_neg (Ne.symm here), if_neg here, inbox]

theorem view_modify (i : Nat) (key : ViewKey) :
    (net.modify k change).view i key = if i = k then (change self).view key else net.view i key := by
  rw [view, getElem?_modify]
  by_cases here : i = k
  · subst here
    rw [if_pos rfl, if_pos rfl, present]
    rfl
  · rw [if_neg (Ne.symm here), if_neg here, view]

end Modify

/-! ### An inbox with room -/

/-- One more call fits into the inbox of an endpoint. -/
def Accepts (net : Network) (j : Nat) : Prop :=
  (net.endpoints[j]?.any fun receiver => receiver.accepts net.capacity) = true

instance (net : Network) (j : Nat) : Decidable (net.Accepts j) := inferInstanceAs (Decidable (_ = _))

theorem accepts_iff {net : Network} {j : Nat} : net.Accepts j ↔
    (∃ reading, net.readingAt? j = some reading ∧ reading ≠ .closed) ∧
      (net.inbox j).length < net.capacity := by
  rw [Accepts]
  cases there : net.endpoints[j]? with
  | none => simp [readingAt?, there]
  | some receiver => simp [readingAt?, inbox, there, Endpoint.accepts]

theorem Accepts.framed {net net' : Network} {j : Nat} (accepts : net.Accepts j)
    (framed : net.Framed net') (inbox : net'.inbox j = net.inbox j) : net'.Accepts j := by
  rw [accepts_iff] at accepts ⊢
  rwa [framed.readingAt?, framed.capacity, inbox]

/-! ### Moving a call, and noting parts -/

/-- A network before and after a call has been put into an inbox. -/
structure Posted (j : Nat) (envelope : Envelope) (net net' : Network) : Prop
    extends Framed net net' where
  /-- The call is the last one in its inbox. -/
  inbox : ∀ i, net'.inbox i = net.inbox i ++ if i = j then [envelope] else []
  /-- Nothing is noted. -/
  view : ∀ i key, net'.view i key = net.view i key

/-- A network before and after a call has been taken out of an inbox. -/
structure Taken (k : Nat) (envelope : Envelope) (net net' : Network) : Prop
    extends Framed net net' where
  /-- Somebody is there to take it. -/
  there : (net.peerAt? k).isSome = true
  /-- The call was the oldest one. -/
  head : net.inbox k = envelope :: net'.inbox k
  /-- Other inboxes are untouched. -/
  others : ∀ i, i ≠ k → net'.inbox i = net.inbox i
  /-- Nothing is noted. -/
  view : ∀ i key, net'.view i key = net.view i key

/-- A network before and after parts have been noted in a view. -/
structure Noted (k : Nat) (about : ViewKey) (held : PartSet) (net net' : Network) : Prop
    extends Framed net net' where
  /-- No call moves. -/
  inbox : ∀ i, net'.inbox i = net.inbox i
  /-- The view grows by the parts, and no other view changes. -/
  view : ∀ i key, net'.view i key =
    if i = k ∧ key = about then (net.view i key).union held else net.view i key

section Moving

variable {net net' : Network} {k j : Nat} {envelope : Envelope}

/-- Moving calls in and out of an inbox changes no view. -/
theorem view_modify_of_views {self : Endpoint} (present : net.endpoints[k]? = some self)
    {change : Endpoint → Endpoint} (same : ∀ key, (change self).view key = self.view key) (i : Nat)
    (key : ViewKey) : (net.modify k change).view i key = net.view i key := by
  rw [view_modify present]
  split
  · rename_i here
    rw [here, view_of_present present, same]
  · rfl

theorem posted_modify {receiver : Endpoint} (there : net.endpoints[j]? = some receiver)
    (envelope : Envelope) : Posted j envelope net
      (net.modify j fun e => { e with inbox := e.inbox ++ [envelope] }) := by
  refine ⟨framed_modify (fun _ => rfl) fun _ => rfl, ?_, view_modify_of_views there fun _ => rfl⟩
  intro i
  rw [inbox_modify there]
  split
  · rename_i here
    rw [here, inbox_of_present there]
  · rw [List.append_nil]

theorem posted_of_post? (posts : net.post? j envelope = some net') : Posted j envelope net net' := by
  unfold post? at posts
  split at posts
  · cases posts
  · rename_i receiver there
    obtain ⟨-, same⟩ := Option.ite_none_right_eq_some.1 posts
    cases same
    exact posted_modify there envelope

theorem taken_of_take? (takes : net.take? k = some (envelope, net')) : Taken k envelope net net' := by
  unfold take? at takes
  split at takes
  · cases takes
  rename_i self present
  split at takes
  · cases takes
  rename_i rest waiting
  cases takes
  have inboxes : ∀ i, (net.modify k fun e => { e with inbox := rest }).inbox i =
      if i = k then rest else net.inbox i := inbox_modify present
  refine ⟨framed_modify (fun _ => rfl) fun _ => rfl, ?_, ?_, ?_,
    view_modify_of_views present fun _ => rfl⟩
  · rw [peerAt?_of_present present]
    rfl
  · rw [inbox_of_present present, waiting, inboxes, if_pos rfl]
  · intro i other
    rw [inboxes, if_neg other]

theorem noted_mergeView (there : (net.peerAt? k).isSome = true) (about : ViewKey) (held : PartSet) :
    Noted k about held net (net.modify k (·.mergeView about held)) := by
  obtain ⟨_, here⟩ := Option.isSome_iff_exists.1 there
  obtain ⟨self, present, -⟩ := peerAt?_eq_some.1 here
  refine ⟨framed_modify (fun _ => rfl) fun _ => rfl, ?_, ?_⟩
  · intro i
    rw [inbox_modify present]
    split
    · rename_i here
      rw [here, inbox_of_present present]
      rfl
    · rfl
  · intro i key
    rw [view_modify present]
    by_cases here : i = k
    · subst here
      rw [if_pos rfl, Endpoint.view_mergeView, view_of_present present]
      simp only [true_and]
    · rw [if_neg here, if_neg fun h => here h.1]

/-- What a call announces is noted in the view of its sender. -/
theorem noted_learn (there : (net.peerAt? k).isSome = true) (envelope : Envelope) :
    Noted k ⟨envelope.sender, envelope.rpc.topic, envelope.rpc.group⟩
      (envelope.rpc.announced?.getD .empty) net (net.learn k envelope) := by
  rw [learn]
  cases envelope.rpc.announced? with
  | none =>
    refine ⟨.refl net, fun _ => rfl, fun i key => ?_⟩
    rw [Option.getD_none, PartSet.union_eq_left (PartSet.empty_le _), ite_self]
  | some held => exact noted_mergeView there _ held

/-- What is in a view after parts have been noted. -/
theorem Noted.contains_view {about : ViewKey} {held : PartSet} (noted : Noted k about held net net')
    (i : Nat) (key : ViewKey) (index : Nat) : (net'.view i key).contains index = true ↔
      (net.view i key).contains index = true ∨
        (k = i ∧ about = key) ∧ held.contains index = true := by
  rw [noted.view]
  split
  · rename_i here
    simp [here]
  · rename_i other
    simp only [iff_self_or]
    rintro ⟨⟨rfl, rfl⟩, -⟩
    exact absurd ⟨rfl, rfl⟩ other

end Moving

/-! ### One call -/

/-- The call with which an endpoint brings a peer up to date. -/
theorem callFor?_eq (self : Endpoint) (topic : Topic) (m : Message) (target : PeerId) :
    callFor? self topic m target =
      if self.view ⟨target, topic, m.group⟩ = m.available then none
      else some (Rpc.update topic m (self.view ⟨target, topic, m.group⟩),
        m.available.diff (self.view ⟨target, topic, m.group⟩)) := rfl

/-- A network before and after a call that has been appended to an inbox. -/
structure Sent (k : Nat) (topic : Topic) (m : Message) (target : PeerId) (sender : PeerId) (j : Nat)
    (net net' : Network) : Prop extends Framed net net' where
  /-- The peer of the endpoint that sends. -/
  origin : net.peerAt? k = some sender
  /-- The endpoint of the receiver. -/
  receiver : net.endpointOf? target = some j
  /-- The receiver is not believed to be up to date. -/
  stale : net.view k ⟨target, topic, m.group⟩ ≠ m.available
  /-- The call is appended. -/
  inbox : ∀ i, net'.inbox i = net.inbox i ++
    if i = j then [⟨sender, Rpc.update topic m (net.view k ⟨target, topic, m.group⟩)⟩] else []
  /-- The view grows by what the call carries. -/
  view : ∀ i key, net'.view i key =
    if i = k ∧ key = ⟨target, topic, m.group⟩ then
      (net.view i key).union (m.available.diff (net.view i key))
    else net.view i key

/-- A call to a peer that is not believed to be up to date, and whose inbox accepts it. -/
theorem sent_sendTo {net : Network} {k j : Nat} {topic : Topic} {m : Message} {target : PeerId}
    {self receiver : Endpoint} (present : net.endpoints[k]? = some self)
    (found : net.endpointOf? target = some j) (there : net.endpoints[j]? = some receiver)
    (stale : self.view ⟨target, topic, m.group⟩ ≠ m.available)
    (accepted : receiver.accepts net.capacity = true) :
    Sent k topic m target self.peer j net (net.sendTo k topic m target) := by
  let about : ViewKey := ⟨target, topic, m.group⟩
  let envelope : Envelope := ⟨self.peer, Rpc.update topic m (self.view about)⟩
  let between := net.modify j fun e => { e with inbox := e.inbox ++ [envelope] }
  have result : net.sendTo k topic m target =
      between.modify k (·.mergeView about (m.available.diff (self.view about))) := by
    simp only [sendTo, present, found, callFor?_eq, if_neg stale, there, if_pos accepted]
    rfl
  have origin := peerAt?_of_present present
  have posted : Posted j envelope net between := posted_modify there envelope
  have still : (between.peerAt? k).isSome = true := by
    rw [posted.peerAt?, origin]
    rfl
  have noted := noted_mergeView still about (m.available.diff (self.view about))
  rw [← result] at noted
  refine ⟨posted.toFramed.trans noted.toFramed, origin, found, ?_, ?_, ?_⟩
  · rwa [view_of_present present]
  · intro i
    rw [noted.inbox, posted.inbox, view_of_present present]
  · intro i key
    rw [noted.view, posted.view]
    split
    · rename_i here
      rw [here.1, here.2, view_of_present present]
    · rfl

/-- A call is appended to the inbox of its receiver, or nothing happens: because the receiver is
believed to be up to date, or because no inbox of the receiver accepts the call. -/
theorem sendTo_cases_of_present {net : Network} {k : Nat} {self : Endpoint}
    (present : net.endpoints[k]? = some self) (topic : Topic) (m : Message) (target : PeerId) :
    (net.sendTo k topic m target = net ∧ (net.view k ⟨target, topic, m.group⟩ = m.available ∨
        ∀ j, net.endpointOf? target = some j → ¬ net.Accepts j)) ∨
      ∃ j, net.Accepts j ∧
        Sent k topic m target self.peer j net (net.sendTo k topic m target) := by
  rw [view_of_present present]
  -- There are four ways not to send: no receiver's place, nothing to say, no endpoint there, no
  -- room.
  rcases found : net.endpointOf? target with _ | j
  · exact Or.inl ⟨by simp only [sendTo, present, found], Or.inr fun _ absent => nomatch absent⟩
  by_cases known : self.view ⟨target, topic, m.group⟩ = m.available
  · exact Or.inl ⟨by simp only [sendTo, present, found, callFor?_eq, if_pos known], Or.inl known⟩
  rcases there : net.endpoints[j]? with _ | receiver
  · refine Or.inl ⟨by simp only [sendTo, present, found, callFor?_eq, if_neg known, there],
      Or.inr ?_⟩
    rintro _ ⟨rfl⟩ accepts
    rw [Accepts, there] at accepts
    cases accepts
  by_cases accepted : receiver.accepts net.capacity = true
  · refine Or.inr ⟨j, ?_, sent_sendTo present found there known accepted⟩
    rwa [Accepts, there]
  · refine Or.inl ⟨?_, Or.inr ?_⟩
    · simp only [sendTo, present, found, callFor?_eq, if_neg known, there, if_neg accepted]
    · rintro _ ⟨rfl⟩ accepts
      rw [Accepts, there] at accepts
      exact accepted accepts

/-- A call is appended to the inbox of its receiver, or nothing happens at all. -/
theorem sendTo_cases (net : Network) (k : Nat) (topic : Topic) (m : Message) (target : PeerId) :
    net.sendTo k topic m target = net ∨
      ∃ sender j, Sent k topic m target sender j net (net.sendTo k topic m target) := by
  rcases present : net.endpoints[k]? with _ | self
  · exact Or.inl (by simp only [sendTo, present])
  · rcases sendTo_cases_of_present present topic m target with ⟨same, -⟩ | ⟨j, -, sent⟩
    · exact Or.inl same
    · exact Or.inr ⟨self.peer, j, sent⟩

/-! ### Many calls -/

/-- What has been appended to an inbox since. -/
def arrivals (net net' : Network) (i : Nat) : List Envelope :=
  (net'.inbox i).drop (net.inbox i).length

theorem arrivals_of_append {net net' : Network} {i : Nat} {new : List Envelope}
    (appended : net'.inbox i = net.inbox i ++ new) : net.arrivals net' i = new := by
  rw [arrivals, appended, List.drop_left]

theorem arrivals_self (net : Network) (i : Nat) : net.arrivals net i = [] :=
  arrivals_of_append (List.append_nil _).symm

/-- Nothing has been appended where there is no endpoint. -/
theorem arrivals_of_absent {net net' : Network} {i : Nat} (outside : net'.endpoints.length ≤ i) :
    net.arrivals net' i = [] := by
  have none : net'.inbox i = [] := by
    rw [inbox, List.getElem?_eq_none outside]
    rfl
  rw [arrivals, none, List.drop_nil]

/-- What has been appended in two changes, one after the other. -/
theorem arrivals_append {net net' net'' : Network} {i : Nat}
    (first : net'.inbox i = net.inbox i ++ net.arrivals net' i)
    (second : net''.inbox i = net'.inbox i ++ net'.arrivals net'' i) :
    net.arrivals net'' i = net.arrivals net' i ++ net'.arrivals net'' i :=
  arrivals_of_append (by rw [second, first, List.append_assoc])

/-- A network before and after calls about a message from one endpoint to some peers. -/
structure Spreads (k : Nat) (topic : Topic) (m : Message) (targets : List PeerId)
    (net net' : Network) : Prop extends Framed net net' where
  /-- Inboxes only grow at their ends. -/
  inbox : ∀ i, net'.inbox i = net.inbox i ++ net.arrivals net' i
  /-- Views only grow. -/
  grows : ∀ i key, net.view i key ≤ net'.view i key
  /-- Only the sender learns something, and only about the group of the message. -/
  others : ∀ i key, ¬ (i = k ∧ key.topic = topic ∧ key.group = m.group) →
    net'.view i key = net.view i key
  /-- What has been appended brings a listed peer up to date, as far as the sender could see. -/
  arrival : ∀ i, ∀ envelope ∈ net.arrivals net' i, ∃ sender target known,
    net.peerAt? k = some sender ∧ target ∈ targets ∧ net.endpointOf? target = some i ∧
      envelope = ⟨sender, Rpc.update topic m known⟩ ∧ known ≠ m.available ∧
      net.view k ⟨target, topic, m.group⟩ ≤ known ∧
      known.union m.available ≤ net'.view k ⟨target, topic, m.group⟩
  /-- What the sender has learnt is carried by a call that has been appended. -/
  learnt : ∀ target index, (net'.view k ⟨target, topic, m.group⟩).contains index = true →
    (net.view k ⟨target, topic, m.group⟩).contains index = true ∨
      ∃ j, net.endpointOf? target = some j ∧
        ∃ envelope ∈ net.arrivals net' j, envelope.rpc.carried.contains index = true

section Spreads

variable {k : Nat} {topic : Topic} {m : Message} {targets : List PeerId}

theorem Spreads.refl (net : Network) : Spreads k topic m targets net net where
  toFramed := Framed.refl net
  inbox i := by rw [arrivals_self, List.append_nil]
  grows _ _ := le_refl _
  others _ _ _ := rfl
  arrival i envelope member := by
    rw [arrivals_self] at member
    cases member
  learnt _ _ h := Or.inl h

theorem Spreads.trans {net net' net'' : Network} (first : Spreads k topic m targets net net')
    (second : Spreads k topic m targets net' net'') : Spreads k topic m targets net net'' := by
  have sum : ∀ i, net.arrivals net'' i = net.arrivals net' i ++ net'.arrivals net'' i :=
    fun i => arrivals_append (first.inbox i) (second.inbox i)
  have place : ∀ peer, net'.endpointOf? peer = net.endpointOf? peer := first.endpointOf?
  constructor
  case toFramed => exact first.toFramed.trans second.toFramed
  case inbox =>
    intro i
    rw [sum, second.inbox, first.inbox, List.append_assoc]
  case grows =>
    intro i key
    exact (first.grows i key).trans (second.grows i key)
  case others =>
    intro i key other
    exact (second.others i key other).trans (first.others i key other)
  case arrival =>
    intro i envelope member
    rw [sum, List.mem_append] at member
    rcases member with early | late
    · obtain ⟨sender, target, known, h₁, h₂, h₃, h₄, h₅, h₆, upTo⟩ := first.arrival i envelope early
      exact ⟨sender, target, known, h₁, h₂, h₃, h₄, h₅, h₆, upTo.trans (second.grows _ _)⟩
    · obtain ⟨sender, target, known, h₁, h₂, h₃, h₄, h₅, below, h₇⟩ :=
        second.arrival i envelope late
      refine ⟨sender, target, known, ?_, h₂, ?_, h₄, h₅, (first.grows _ _).trans below, h₇⟩
      · rw [← first.peerAt?, h₁]
      · rw [← place, h₃]
  case learnt =>
    -- What is learnt later was learnt before, or is carried by one of the later calls.
    intro target index h
    rcases second.learnt target index h with before | ⟨j, found, envelope, member, carries⟩
    · rcases first.learnt target index before with old | ⟨j, found, envelope, member, carries⟩
      · exact Or.inl old
      · refine Or.inr ⟨j, found, envelope, ?_, carries⟩
        rw [sum]
        exact List.mem_append_left _ member
    · refine Or.inr ⟨j, by rw [← place, found], envelope, ?_, carries⟩
      rw [sum]
      exact List.mem_append_right _ member

/-- A call that has been appended spreads. -/
theorem Sent.spreads {net net' : Network} {target sender : PeerId} {j : Nat}
    (sent : Sent k topic m target sender j net net') (listed : target ∈ targets) :
    Spreads k topic m targets net net' := by
  have new : ∀ i, net.arrivals net' i = if i = j then
      [⟨sender, Rpc.update topic m (net.view k ⟨target, topic, m.group⟩)⟩] else [] :=
    fun i => arrivals_of_append (sent.inbox i)
  have after : net'.view k ⟨target, topic, m.group⟩ =
      (net.view k ⟨target, topic, m.group⟩).union
        (m.available.diff (net.view k ⟨target, topic, m.group⟩)) := by
    rw [sent.view, if_pos ⟨rfl, rfl⟩]
  constructor
  case toFramed => exact sent.toFramed
  case inbox =>
    intro i
    rw [new, sent.inbox]
  case grows =>
    intro i key
    rw [sent.view]
    split
    · exact PartSet.le_union_left _ _
    · exact le_refl _
  case others =>
    intro i key other
    rw [sent.view, if_neg]
    rintro ⟨rfl, rfl⟩
    exact other ⟨rfl, rfl, rfl⟩
  case arrival =>
    intro i envelope member
    rw [new] at member
    split at member
    · rename_i here
      subst here
      rw [List.mem_singleton] at member
      refine ⟨sender, target, _, sent.origin, listed, sent.receiver, member, sent.stale, le_refl _,
        PartSet.union_le ?_ ?_⟩
      · rw [after]
        exact PartSet.le_union_left _ _
      · rw [after]
        exact PartSet.le_union_diff _ _
    · cases member
  case learnt =>
    intro peer index h
    by_cases about : peer = target
    · subst about
      rw [after, PartSet.contains_union, Bool.or_eq_true] at h
      rcases h with old | carried
      · exact Or.inl old
      · refine Or.inr ⟨j, sent.receiver,
          ⟨sender, Rpc.update topic m (net.view k ⟨peer, topic, m.group⟩)⟩, ?_, ?_⟩
        · rw [new, if_pos rfl]
          exact List.mem_singleton_self _
        · rw [Rpc.carried_update]
          exact carried
    · rw [sent.view, if_neg] at h
      · exact Or.inl h
      · rintro ⟨-, same⟩
        exact about (congrArg ViewKey.peer same)

theorem spreads_sendTo (net : Network) {target : PeerId} (listed : target ∈ targets) :
    Spreads k topic m targets net (net.sendTo k topic m target) := by
  rcases net.sendTo_cases k topic m target with same | ⟨sender, j, sent⟩
  · rw [same]
    exact Spreads.refl net
  · exact sent.spreads listed

theorem spreads_foldl (net : Network) {peers : List PeerId} (listed : peers ⊆ targets) :
    Spreads k topic m targets net (peers.foldl (fun net => net.sendTo k topic m) net) := by
  induction peers generalizing net with
  | nil => exact Spreads.refl net
  | cons peer rest ih =>
    rw [List.foldl_cons]
    exact (spreads_sendTo net (listed List.mem_cons_self)).trans
      (ih _ fun other member => listed (List.mem_cons_of_mem peer member))

end Spreads

/-! ### Publications -/

/-- The receivers of a publication. -/
def targets (net : Network) (k : Nat) (peers : List PeerId) : List PeerId :=
  match net.endpoints[k]? with
  | none => []
  | some self =>
    if peers.isEmpty then net.peersOf self.peer
    else if peers.all (net.linked self.peer ·) then peers else []

/-- The network after a publication, if there is one. -/
def carry (net : Network) (k : Nat) : Option Publication → Network
  | none => net
  | some publication =>
    (net.targets k publication.peers).foldl
      (fun net => net.sendTo k publication.topic publication.message) net

theorem mem_peersOf {net : Network} {peer target : PeerId} :
    target ∈ net.peersOf peer ↔ net.linked peer target = true := by
  rw [peersOf, PeerId.sort, List.mem_mergeSort, List.mem_map, linked, List.contains_iff_mem]
  constructor
  · rintro ⟨⟨a, b⟩, member, rfl⟩
    obtain ⟨link, start⟩ := List.mem_filter.1 member
    obtain rfl := of_decide_eq_true start
    exact link
  · intro link
    exact ⟨(peer, target), List.mem_filter.2 ⟨link, decide_eq_true rfl⟩, rfl⟩

/-- Only linked peers get a publication. -/
theorem linked_of_mem_targets {net : Network} {k : Nat} {peers : List PeerId} {target : PeerId}
    (member : target ∈ net.targets k peers) :
    ∃ self, net.peerAt? k = some self ∧ net.linked self target = true := by
  unfold targets at member
  split at member
  · cases member
  · rename_i self present
    refine ⟨self.peer, peerAt?_of_present present, ?_⟩
    split at member
    · exact mem_peersOf.1 member
    · split at member
      · rename_i all
        exact List.all_eq_true.1 all target member
      · cases member

/-- A publication to all reaches every linked peer. -/
theorem mem_targets_of_linked {net : Network} {k : Nat} {peer target : PeerId}
    (here : net.peerAt? k = some peer) (link : net.linked peer target = true) :
    target ∈ net.targets k [] := by
  obtain ⟨self, present, rfl⟩ := peerAt?_eq_some.1 here
  rw [targets, present]
  exact mem_peersOf.2 link

/-- What a refused or carried out publication makes of the network. -/
theorem net_publish (carriers : Carriers) (k : Nat) (publication : Publication) :
    (Carriers.publish (.endpoint k) carriers publication).1.net =
      carriers.net.carry k (some publication) := by
  simp only [Carriers.publish, publish, carry, targets]
  cases present : carriers.net.endpoints[k]? with
  | none => rfl
  | some self =>
    by_cases broadcast : publication.peers.isEmpty = true
    · simp only [if_pos broadcast]
    · simp only [if_neg broadcast]
      cases stranger : publication.peers.find? (!carriers.net.linked self.peer ·) with
      | none =>
        rw [List.find?_eq_none] at stranger
        rw [if_pos]
        rw [List.all_eq_true]
        intro peer member
        simpa using stranger peer member
      | some peer =>
        rw [if_neg]
        · rfl
        · rw [List.all_eq_true]
          intro all
          have unlinked := List.find?_some stranger
          rw [all peer (List.mem_of_find?_eq_some stranger)] at unlinked
          cases unlinked

/-- What a reaction makes of the network of its outlet. -/
theorem net_carry (carriers : Carriers) (k : Nat) (publication : Option Publication) :
    (Coordinator.carry (Carriers.publish (.endpoint k)) carriers publication).net =
      carriers.net.carry k publication := by
  cases publication with
  | none => rfl
  | some publication => exact net_publish carriers k publication

/-- A publication that leaves at an endpoint changes nothing but the network. -/
theorem carry_endpoint (carriers : Carriers) (k : Nat) (publication : Option Publication) :
    Coordinator.carry (Carriers.publish (.endpoint k)) carriers publication =
      { carriers with net := (Coordinator.carry (Carriers.publish (.endpoint k)) carriers
        publication).net } := by
  cases publication with
  | none => rfl
  | some publication =>
    simp only [Coordinator.carry, Carriers.publish]
    split <;> rfl

/-- A publication spreads. -/
theorem spreads_carry (net : Network) (k : Nat) (publication : Publication) :
    Spreads k publication.topic publication.message (net.targets k publication.peers) net
      (net.carry k (some publication)) :=
  spreads_foldl net (List.Subset.refl _)

/-- A publication changes neither peers nor links nor readers. -/
theorem framed_carry (net : Network) (k : Nat) (publication : Option Publication) :
    net.Framed (net.carry k publication) := by
  cases publication with
  | none => exact Framed.refl net
  | some publication => exact (spreads_carry net k publication).toFramed

/-! ### Room -/

/-- No call to the listed peers, one after the other, finds a full inbox. -/
def hasRoomFor (net : Network) (k : Nat) (topic : Topic) (m : Message) : List PeerId → Bool
  | [] => true
  | target :: rest =>
    (match net.endpoints[k]?, net.endpointOf? target with
      | some self, some j =>
        match callFor? self topic m target, net.endpoints[j]? with
        | some _, some receiver =>
          receiver.reading == .closed || receiver.inbox.length < net.capacity
        | _, _ => true
      | _, _ => true) &&
      (net.sendTo k topic m target).hasRoomFor k topic m rest

/-- A call that does not find a full inbox brings its receiver up to date, unless the receiver does
not read any more. -/
theorem le_view_sendTo {net : Network} {k j : Nat} {topic : Topic} {m : Message}
    {target : PeerId} {rest : List PeerId} (here : (net.peerAt? k).isSome = true)
    (found : net.endpointOf? target = some j) (there : (net.peerAt? j).isSome = true)
    (room : net.hasRoomFor k topic m (target :: rest) = true) :
    net.readingAt? j = some .closed ∨
      m.available ≤ (net.sendTo k topic m target).view k ⟨target, topic, m.group⟩ := by
  obtain ⟨_, here⟩ := Option.isSome_iff_exists.1 here
  obtain ⟨self, present, -⟩ := peerAt?_eq_some.1 here
  obtain ⟨_, there⟩ := Option.isSome_iff_exists.1 there
  obtain ⟨receiver, arrives, -⟩ := peerAt?_eq_some.1 there
  by_cases known : self.view ⟨target, topic, m.group⟩ = m.available
  · -- No call is needed, and none takes away what is believed.
    right
    have same := (@spreads_sendTo k topic m [target] net target (List.mem_singleton_self _)).grows k
      ⟨target, topic, m.group⟩
    rwa [view_of_present present, known] at same
  · rw [hasRoomFor, present, found] at room
    simp only [callFor?_eq, if_neg known, arrives, Bool.and_eq_true, Bool.or_eq_true,
      beq_iff_eq, decide_eq_true_eq] at room
    rcases room.1 with closed | fits
    · exact Or.inl (by rw [readingAt?_of_present arrives, closed])
    · by_cases closed : receiver.reading = .closed
      · exact Or.inl (by rw [readingAt?_of_present arrives, closed])
      · right
        have accepted : receiver.accepts net.capacity = true := by
          simp [Endpoint.accepts, closed, fits]
        have sent := sent_sendTo present found arrives known accepted
        rw [sent.view, if_pos ⟨rfl, rfl⟩]
        exact PartSet.le_union_diff _ _

/-- Without full inboxes, every listed peer is brought up to date, unless it does not read any
more. -/
theorem le_view_of_hasRoomFor {net : Network} {k j : Nat} {topic : Topic} {m : Message}
    {target : PeerId} {peers : List PeerId} (here : (net.peerAt? k).isSome = true)
    (found : net.endpointOf? target = some j) (there : (net.peerAt? j).isSome = true)
    (listed : target ∈ peers) (room : net.hasRoomFor k topic m peers = true) :
    net.readingAt? j = some .closed ∨
      m.available ≤ (peers.foldl (fun net => net.sendTo k topic m) net).view k
        ⟨target, topic, m.group⟩ := by
  induction peers generalizing net with
  | nil => cases listed
  | cons peer rest ih =>
    have first := @spreads_sendTo k topic m [peer] net peer (List.mem_singleton_self _)
    rcases List.mem_cons.1 listed with rfl | later
    · -- The calls to the peers behind it only add to the view.
      rcases le_view_sendTo here found there room with closed | upTo
      · exact Or.inl closed
      · exact Or.inr (upTo.trans ((@spreads_foldl k topic m rest _ rest
          (List.Subset.refl _)).grows k _))
    · rw [hasRoomFor, Bool.and_eq_true] at room
      rw [List.foldl_cons, ← first.readingAt?]
      refine ih ?_ ?_ ?_ later room.2
      · rwa [first.peerAt?]
      · rw [first.endpointOf?, found]
      · rwa [first.peerAt?]

/-! ### Receiving -/

/-- A network before and after a call that has been taken out of an inbox. -/
structure Received (k : Nat) (envelope : Envelope) (net net' : Network) : Prop
    extends Framed net net' where
  /-- The call was the oldest one. -/
  head : net.inbox k = envelope :: net'.inbox k
  /-- Other inboxes are untouched. -/
  others : ∀ i, i ≠ k → net'.inbox i = net.inbox i
  /-- What the call announces is added to the view of its sender. -/
  view : ∀ i key, net'.view i key =
    if i = k ∧ key = ⟨envelope.sender, envelope.rpc.topic, envelope.rpc.group⟩ then
      (net.view i key).union (envelope.rpc.announced?.getD .empty)
    else net.view i key

/-- What taking a call out of an inbox does. -/
theorem received {net net' : Network} {k : Nat} {envelope : Envelope}
    (taken : net.receive? k = some (envelope, net')) : Received k envelope net net' := by
  rw [receive?_eq_take?] at taken
  obtain ⟨⟨_, between⟩, takes, same⟩ := Option.map_eq_some_iff.1 taken
  cases same
  have taken := taken_of_take? takes
  have still : (between.peerAt? k).isSome = true := by
    rw [taken.peerAt?]
    exact taken.there
  have noted := noted_learn still envelope
  refine ⟨taken.toFramed.trans noted.toFramed, ?_, ?_, ?_⟩
  · rw [taken.head, noted.inbox]
  · intro i other
    rw [noted.inbox, taken.others i other]
  · intro i key
    rw [noted.view, taken.view]

/-! ### Joining and linking -/

/-- Dropping a key from a list of pairs does not change what other keys are mapped to. -/
theorem lookup_filter_ne {α β : Type} [DecidableEq α] {key other : α} (differ : other ≠ key)
    (pairs : List (α × β)) : (pairs.filter (·.1 ≠ key)).lookup other = pairs.lookup other := by
  induction pairs with
  | nil => rfl
  | cons pair rest ih =>
    obtain ⟨first, value⟩ := pair
    by_cases here : first = key
    · rw [List.filter_cons_of_neg (by simp [here]), ih, List.lookup_cons, here,
        beq_false_of_ne differ]
    · rw [List.filter_cons_of_pos (by simp [here]), List.lookup_cons, List.lookup_cons, ih]

section Register

variable (net : Network) (peer : PeerId)

theorem endpointOf?_register (other : PeerId) : (net.register peer).1.endpointOf? other =
    if other = peer then some net.endpoints.length else net.endpointOf? other := by
  rw [endpointOf?, register]
  by_cases same : other = peer
  · rw [if_pos same, List.lookup_cons, same, beq_self_eq_true]
  · rw [if_neg same, List.lookup_cons, beq_false_of_ne same]
    exact lookup_filter_ne same _

theorem getElem?_register (i : Nat) : (net.register peer).1.endpoints[i]? =
    if i = net.endpoints.length then some { peer } else net.endpoints[i]? := by
  rw [register]
  exact getElem?_concat _ _ i

theorem peerAt?_register (i : Nat) : (net.register peer).1.peerAt? i =
    if i = net.endpoints.length then some peer else net.peerAt? i := by
  rw [peerAt?, getElem?_register]
  split <;> rfl

theorem readingAt?_register (i : Nat) : (net.register peer).1.readingAt? i =
    if i = net.endpoints.length then some .unread else net.readingAt? i := by
  rw [readingAt?, getElem?_register]
  split <;> rfl

@[simp] theorem inbox_register (i : Nat) : (net.register peer).1.inbox i = net.inbox i := by
  rw [inbox, getElem?_register]
  split
  · rename_i here
    rw [inbox, here, List.getElem?_eq_none (Nat.le_refl _)]
    rfl
  · rfl

@[simp] theorem view_register (i : Nat) (key : ViewKey) :
    (net.register peer).1.view i key = net.view i key := by
  by_cases here : i = net.endpoints.length
  · rw [view, getElem?_register, if_pos here, view, here, List.getElem?_eq_none (Nat.le_refl _)]
    rfl
  · rw [view, getElem?_register, if_neg here, view]

end Register

theorem peerAt?_length (net : Network) : net.peerAt? net.endpoints.length = none := by
  rw [peerAt?, List.getElem?_eq_none (Nat.le_refl _)]
  rfl

theorem mem_addLink {links : List (PeerId × PeerId)} {link other : PeerId × PeerId} :
    other ∈ addLink links link ↔ other ∈ links ∨ other = link := by
  unfold addLink
  split
  · rename_i listed
    constructor
    · exact Or.inl
    · rintro (old | rfl)
      · exact old
      · exact List.contains_iff_mem.1 listed
  · rw [List.mem_append, List.mem_singleton]

/-- A network before and after two peers have been linked: nothing but links changes. -/
structure Connected (a b : PeerId) (net net' : Network) : Prop where
  /-- Both peers are registered. -/
  registered : net.isRegistered a = true ∧ net.isRegistered b = true
  /-- The peers are linked in both directions. -/
  linked : ∀ {x y}, net'.linked x y = true ↔
    net.linked x y = true ∨ (x = a ∧ y = b) ∨ (x = b ∧ y = a)
  /-- Where the calls to a peer arrive. -/
  endpointOf? : ∀ peer, net'.endpointOf? peer = net.endpointOf? peer
  /-- The peers of the endpoints. -/
  peerAt? : ∀ i, net'.peerAt? i = net.peerAt? i
  /-- The readers of the inboxes. -/
  readingAt? : ∀ i, net'.readingAt? i = net.readingAt? i
  /-- The inboxes. -/
  inbox : ∀ i, net'.inbox i = net.inbox i
  /-- The views. -/
  view : ∀ i key, net'.view i key = net.view i key

/-- What linking two peers does. -/
theorem connected {net net' : Network} {a b : PeerId} (made : net.connect a b = .ok net') :
    Connected a b net net' := by
  unfold connect at made
  split at made
  · cases made
  · rename_i none
    rw [List.find?_eq_none] at none
    cases made
    refine ⟨⟨?_, ?_⟩, ?_, fun _ => rfl, fun _ => rfl, fun _ => rfl, fun _ => rfl, fun _ _ => rfl⟩
    · simpa using none a
    · simpa using none b
    · intro x y
      rw [Network.linked, List.contains_iff_mem, mem_addLink, mem_addLink, Network.linked,
        List.contains_iff_mem, Prod.mk.injEq, Prod.mk.injEq, or_assoc]

/-! ### Whose endpoint it is -/

/-- Calls to a peer arrive at an endpoint of that peer. -/
def Registered (net : Network) : Prop :=
  ∀ peer k, net.endpointOf? peer = some k → net.peerAt? k = some peer

namespace Registered

theorem new (capacity : Nat) : (Network.new capacity).Registered := by
  intro peer k found
  cases found

variable {net net' : Network} (registered : net.Registered)

include registered

theorem framed (framed : net.Framed net') : net'.Registered := by
  intro peer k found
  rw [framed.endpointOf?] at found
  rw [framed.peerAt?]
  exact registered peer k found

theorem modify (k : Nat) {change : Endpoint → Endpoint} (same : ∀ e, (change e).peer = e.peer) :
    (net.modify k change).Registered := by
  intro peer j found
  rw [peerAt?_modify same]
  exact registered peer j found

theorem register (peer : PeerId) : (net.register peer).1.Registered := by
  intro other k found
  rw [endpointOf?_register] at found
  rw [peerAt?_register]
  split at found
  · rename_i same
    obtain rfl := Option.some.inj found
    rw [if_pos rfl, same]
  · have there := registered other k found
    have old : k ≠ net.endpoints.length := by
      rintro rfl
      rw [peerAt?_length] at there
      cases there
    rw [if_neg old, there]

theorem connect {a b : PeerId} (made : net.connect a b = .ok net') : net'.Registered := by
  intro peer k found
  have connected := connected made
  rw [connected.endpointOf?] at found
  rw [connected.peerAt?]
  exact registered peer k found

/-- Two peers do not share an endpoint. -/
theorem eq_of_endpointOf? {peer other : PeerId} {k : Nat} (first : net.endpointOf? peer = some k)
    (second : net.endpointOf? other = some k) : peer = other := by
  have here := registered peer k first
  rw [registered other k second] at here
  exact (Option.some.inj here).symm

end Registered

end Network

end PartExchange
