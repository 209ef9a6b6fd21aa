/-
**Peers that have exchanged a call end up with the same parts.**

Consider the orderly runs in which calls reach coordinators only through pumps and no call finds a
full inbox.  Once two endpoints have exchanged a call about a group, each of them tells the other
whenever its message changes, so each view is at least what the other holds, as far as the calls in
between have been handled.  Views never claim too much, so when nothing is on its way any more, both
hold the same parts.

Three facts are kept along the run for every call that was ever put into an inbox.  Its sender
believes the receiver to hold at least what it holds itself.  The call is still on its way, or the
receiver stores the group and believes the sender to hold at least what it holds itself.  And a call
that has been taken out of an inbox has left its announcement in the view of its sender, which is
why a receiver that already holds what is announced need not answer.

Main definitions:

* `Exchange.Undisturbed`: orderly actions, without calls past the pumps and without full inboxes;
* `Exchange.AtRest`: all inboxes, pumps and queues are empty;
* `Exchange.Abreast`: an endpoint believes a peer to hold at least what it holds itself;
* `Exchange.Informed`: the facts that are kept along a run.

Main results:

* `Exchange.Handles.abreast`, `Exchange.Handles.answers`: what a coordinator tells its peers;
* `Exchange.Informed.step`: an undisturbed action keeps the facts;
* `Exchange.same_parts_at_rest`: the parts are the same at rest.
-/

import PartExchange.Proofs.ViewSoundness

set_option relaxedAutoImplicit false
set_option autoImplicit false

namespace PartExchange.Exchange

/-! ### Runs without disturbance -/

/-- The next step of a coordinator does not find a full inbox. -/
def hasRoom (e : Exchange) (i : Nat) : Bool :=
  match e.stations[i]?, e.upcoming? i with
  | some station, some job =>
    match station.outlet, (station.coordinator.store.react job.request).publication with
    | .endpoint k, some publication =>
      e.carriers.net.hasRoomFor k publication.topic publication.message
        (e.carriers.net.targets k publication.peers)
    | _, _ => true
  | _, _ => true

/-- Orderly actions, without calls that reach a coordinator past its pump, and without calls that
find a full inbox. -/
def Undisturbed (e : Exchange) (action : Action) : Prop :=
  e.Orderly action ∧
    match action with
    | .request _ (.rpc _) => False
    | .serve i => e.hasRoom i = true
    | _ => True

instance (e : Exchange) : DecidablePred e.Undisturbed := fun action =>
  match action with
  | .request _ (.rpc _) => inferInstanceAs (Decidable (_ ∧ False))
  | .serve i => inferInstanceAs (Decidable (_ ∧ e.hasRoom i = true))
  | .request _ (.add _ _) | .request _ (.publish _ _ _) | .request _ (.get _ _) | .join _
  | .record _ | .share _ | .attach _ _ | .openPump _ | .connect _ _ | .poll _ | .abandon _
  | .transmit _ _ | .pump _ | .askStop _ | .dropHandle _ | .leave _ =>
    inferInstanceAs (Decidable (_ ∧ True))

/-- All inboxes, pumps and queues are empty. -/
structure AtRest (e : Exchange) : Prop where
  /-- No inbox holds a call. -/
  inboxes : ∀ endpoint ∈ e.carriers.net.endpoints, endpoint.inbox = []
  /-- No pump holds a call. -/
  pumps : ∀ pump ∈ e.pumps, pump.held = none
  /-- No coordinator has a job. -/
  queues : ∀ station ∈ e.stations, ∀ lane, (station.coordinator.queue lane).items = []

instance (e : Exchange) : Decidable e.AtRest :=
  decidable_of_iff ((∀ endpoint ∈ e.carriers.net.endpoints, endpoint.inbox = []) ∧
      (∀ pump ∈ e.pumps, pump.held = none) ∧
      ∀ station ∈ e.stations, ∀ lane ∈ Lane.order, (station.coordinator.queue lane).items = [])
    ⟨fun rest => ⟨rest.1, rest.2.1, fun station member lane =>
        rest.2.2 station member lane (by cases lane <;> decide)⟩,
      fun rest => ⟨rest.inboxes, rest.pumps, fun station member lane _ =>
        rest.queues station member lane⟩⟩

/-- The room for what a handled job publishes. -/
theorem hasRoomFor_of_hasRoom {e : Exchange} {i k : Nat} {s : Station} {job : Job}
    {publication : Publication} (room : e.hasRoom i = true) (here : e.stations[i]? = some s)
    (outlet : s.outlet = .endpoint k) (next : e.upcoming? i = some job)
    (published : (s.coordinator.store.react job.request).publication = some publication) :
    e.carriers.net.hasRoomFor k publication.topic publication.message
      (e.carriers.net.targets k publication.peers) = true := by
  simpa only [hasRoom, here, next, outlet, published] using room

/-! ### What a coordinator tells its peers -/

/-- Endpoint `k` stores a group, and believes the peer at endpoint `j` to hold at least what it
holds itself, unless nobody listens there any more. -/
def Abreast (e : Exchange) (k : Nat) (peer : PeerId) (j : Nat) (topic : Topic) (group : GroupId) :
    Prop :=
  (e.stored? k topic group).isSome = true ∧
    (e.Deaf j ∨ e.holding k topic group ≤ e.carriers.net.view k ⟨peer, topic, group⟩)

section Abreast

variable {e e' : Exchange} {k j : Nat} {peer : PeerId} {topic : Topic} {group : GroupId}

/-- A quiet change leaves nobody behind. -/
theorem Abreast.quiet {foreign : Delivery → Prop} (abreast : e.Abreast k peer j topic group)
    (quiet : e.Quiet foreign e') : e'.Abreast k peer j topic group := by
  rw [Abreast, quiet.stored?, quiet.view, holding, quiet.stored?, ← holding]
  exact ⟨abreast.1, abreast.2.imp_left quiet.deaf⟩

/-- A pump that takes a call leaves nobody behind, since views only grow. -/
theorem Abreast.takes {i : Nat} {envelope : Envelope} (abreast : e.Abreast k peer j topic group)
    (takes : e.Takes i envelope e') : e'.Abreast k peer j topic group := by
  rw [Abreast, takes.stored?, takes.holding, takes.deaf]
  exact ⟨abreast.1, abreast.2.imp_right fun below => below.trans (takes.view_le _ _)⟩

end Abreast

namespace Handles

variable {e e' : Exchange} {k : Nat} {c c' : Coordinator} {job : Job} {lane : Lane}
  (handles : e.Handles k c c' job lane e') (wired : e.Wired)
  (room : ∀ publication, (c.store.react job.request).publication = some publication →
    e.carriers.net.hasRoomFor k publication.topic publication.message
      (e.carriers.net.targets k publication.peers) = true)

include handles wired room

/-- Whoever gets a publication is believed to hold afterwards what the coordinator holds. -/
theorem informs {publication : Publication} {peer : PeerId} {j : Nat}
    (published : (c.store.react job.request).publication = some publication)
    (listed : peer ∈ e.carriers.net.targets k publication.peers)
    (found : e.carriers.net.endpointOf? peer = some j) :
    e'.Abreast k peer j publication.topic publication.message.group := by
  obtain ⟨self, here, -⟩ := Network.linked_of_mem_targets listed
  have there := wired.registered found
  have stored := handles.stored?_published wired published
  refine ⟨Option.isSome_of_mem stored, ?_⟩
  rcases Network.le_view_of_hasRoomFor (Option.isSome_of_mem here) found
    (Option.isSome_of_mem there) listed (room publication published) with shut | upTo
  · left
    rw [handles.deaf]
    exact Or.inl shut
  · right
    rw [holding_of_stored? stored, handles.net, published]
    exact upTo

/-- A coordinator that answers everywhere on the topic keeps abreast with its peers: if what it holds
of a group changes, it tells all of them. -/
theorem abreast_self {peer self : PeerId} {j : Nat} {topic : Topic} {group : GroupId}
    (replies : ∀ d, job.delivery? = some d → d.replyTo = [])
    (here : e.carriers.net.peerAt? k = some self)
    (link : e.carriers.net.linked self peer = true)
    (found : e.carriers.net.endpointOf? peer = some j)
    (abreast : e.Abreast k peer j topic group) : e'.Abreast k peer j topic group := by
  have unlimited := (wired.tidy_of_coordinatorOn? handles.before).2
  obtain ⟨held, known⟩ := abreast
  -- A message changes only by a call, and then it is published; a group that is stored already is
  -- not added again.
  rcases @Store.react_changes c.store unlimited job.request topic group with
    same | ⟨absent, -⟩ | ⟨d, m, call, rfl, -, published, rfl⟩
  · have unchanged : e'.stored? k topic group = e.stored? k topic group := by
      rw [handles.stored?_self, same, stored?_of_coordinatorOn? handles.before]
    rw [Abreast, holding, unchanged, ← holding, handles.deaf]
    exact ⟨held, known.imp_right fun below => below.trans (handles.view_le k _)⟩
  · rw [stored?_of_coordinatorOn? handles.before, absent] at held
    cases held
  · have everywhere := replies d (Job.delivery?_eq_some.2 call)
    have listed : peer ∈ e.carriers.net.targets k d.replyTo := by
      rw [everywhere]
      exact Network.mem_targets_of_linked here link
    exact handles.informs wired room published listed found

/-- Everybody keeps abreast with linked peers when a coordinator handles a job. -/
theorem abreast {source j : Nat} {peer self : PeerId} {topic : Topic} {group : GroupId}
    (replies : ∀ d, job.delivery? = some d → d.replyTo = [])
    (here : e.carriers.net.peerAt? source = some self)
    (link : e.carriers.net.linked self peer = true)
    (found : e.carriers.net.endpointOf? peer = some j)
    (abreast : e.Abreast source peer j topic group) : e'.Abreast source peer j topic group := by
  by_cases acting : source = k
  · subst acting
    exact handles.abreast_self wired room replies here link found abreast
  · rw [Abreast, handles.stored?_other acting, handles.holding_other acting, handles.deaf]
    exact ⟨abreast.1, abreast.2.imp_right fun below => below.trans (handles.view_le _ _)⟩

/-- A coordinator that has handled a call is abreast with its sender: either the call is answered, or
it announced just what the coordinator holds. -/
theorem answers {d : Delivery} {held : PartSet} {self : PeerId} {j : Nat}
    (call : job.delivery? = some d) (everywhere : d.replyTo = [])
    (acceptable : d.rpc.Acceptable) (announced : d.rpc.announced? = some held)
    (noted : held ≤ e.carriers.net.view k ⟨d.sender, d.rpc.topic, d.rpc.group⟩)
    (here : e.carriers.net.peerAt? k = some self)
    (link : e.carriers.net.linked self d.sender = true)
    (found : e.carriers.net.endpointOf? d.sender = some j) :
    e'.Abreast k d.sender j d.rpc.topic d.rpc.group := by
  have request := Job.delivery?_eq_some.1 call
  cases published : (c.store.react job.request).publication with
  | none =>
    rw [request] at published
    obtain ⟨same, m, stored, agrees⟩ := Store.react_rpc_of_silent acceptable published
    have after : e'.stored? k d.rpc.topic d.rpc.group = some m := by
      rw [handles.stored?_self, request, same, stored]
    refine ⟨Option.isSome_of_mem after, Or.inr ?_⟩
    rw [holding_of_stored? after, ← agrees held announced]
    exact noted.trans (handles.view_le k _)
  | some publication =>
    have about := published
    rw [request] at about
    obtain ⟨topic, group, peers⟩ := Store.publication_of_rpc about
    have listed : d.sender ∈ e.carriers.net.targets k publication.peers := by
      rw [peers, everywhere]
      exact Network.mem_targets_of_linked here link
    rw [← topic, ← group]
    exact handles.informs wired room published listed found

end Handles

/-! ### The facts kept along a run -/

/-- What is kept along undisturbed runs. -/
structure Informed (h : History) (e : Exchange) : Prop where
  /-- Calls are sent along links, in the name of the sending peer. -/
  along : ∀ {posting}, posting ∈ h.posted → ∃ b,
    e.carriers.net.peerAt? posting.source = some posting.envelope.sender ∧
      e.carriers.net.peerAt? posting.target = some b ∧
      e.carriers.net.linked posting.envelope.sender b = true
  /-- The sender of a call believes the receiver to hold at least what it holds itself. -/
  told : ∀ {posting b}, posting ∈ h.posted → e.carriers.net.peerAt? posting.target = some b →
    e.Abreast posting.source b posting.target posting.envelope.rpc.topic
      posting.envelope.rpc.group
  /-- A call is on its way, or the receiver stores the group and believes the sender to hold at
  least what it holds itself. -/
  heard : ∀ {posting}, posting ∈ h.posted → e.Deaf posting.target ∨
    (∃ d ∈ e.transit posting.target, d.sender = posting.envelope.sender ∧
      d.rpc.topic = posting.envelope.rpc.topic ∧ d.rpc.group = posting.envelope.rpc.group) ∨
    e.Abreast posting.target posting.envelope.sender posting.source posting.envelope.rpc.topic
      posting.envelope.rpc.group
  /-- A call that has been taken out of an inbox is not refused, is answered everywhere, and its
  announcement is in the view of its sender. -/
  noted : ∀ {j d}, d ∈ e.taken j → d.replyTo = [] ∧ d.rpc.Acceptable ∧
    ∃ held, d.rpc.announced? = some held ∧
      held ≤ e.carriers.net.view j ⟨d.sender, d.rpc.topic, d.rpc.group⟩
  /-- A call in an inbox is not refused, and announces something. -/
  announces : ∀ {j envelope}, envelope ∈ e.carriers.net.inbox j →
    envelope.rpc.Acceptable ∧ envelope.rpc.announced?.isSome = true

namespace Informed

variable {h : History} {e e' : Exchange} (informed : Informed h e)

include informed

/-- A quiet change that brings no calls keeps the facts. -/
theorem quiet {foreign : Delivery → Prop} (quiet : e.Quiet foreign e')
    (none : ∀ d, ¬ foreign d) : Informed h e' where
  along member := by
    obtain ⟨b, source, target, link⟩ := informed.along member
    exact ⟨b, quiet.peerAt? source, quiet.peerAt? target, quiet.linked link⟩
  told {posting b} member target := by
    obtain ⟨b', -, target', -⟩ := informed.along member
    obtain rfl := Option.some.inj ((quiet.peerAt? target').symm.trans target)
    exact (informed.told member target').quiet quiet
  heard {posting} member := by
    rcases informed.heard member with deaf | ⟨d, waits, about⟩ | abreast
    · exact Or.inl (quiet.deaf deaf)
    · -- A call may get lost only where nobody listens.
      rw [transit, List.mem_append] at waits
      rcases waits with taken | arrived
      · rcases quiet.keeps posting.target with deaf | kept
        · exact Or.inl deaf
        · exact Or.inr (Or.inl ⟨d, List.mem_append_left _ (kept taken), about⟩)
      · rcases quiet.inbox posting.target with same | ⟨deaf, -⟩
        · rw [← same] at arrived
          exact Or.inr (Or.inl ⟨d, List.mem_append_right _ arrived, about⟩)
        · exact Or.inl deaf
    · exact Or.inr (Or.inr (abreast.quiet quiet))
  noted {j d} member := by
    rw [quiet.view]
    rcases quiet.brings member with before | outside
    · exact informed.noted before
    · exact absurd outside (none d)
  announces {j envelope} member := by
    rcases quiet.inbox j with same | ⟨-, emptied⟩
    · rw [same] at member
      exact informed.announces member
    · rw [emptied] at member
      cases member

/-- A pump that takes a call notes what it announces. -/
theorem takes {k : Nat} {envelope : Envelope} (takes : e.Takes k envelope e') :
    Informed h e' where
  along {posting} member := by
    obtain ⟨b, source, target, link⟩ := informed.along member
    exact ⟨b, by rw [takes.received.peerAt?, source], by rw [takes.received.peerAt?, target],
      by rw [takes.received.linked, link]⟩
  told {posting b} member target := by
    rw [takes.received.peerAt?] at target
    exact (informed.told member target).takes takes
  heard {posting} member := by
    rw [takes.deaf, takes.transit]
    exact (informed.heard member).imp_right (Or.imp_right fun abreast => abreast.takes takes)
  noted {j d} member := by
    rw [takes.taken, List.mem_append] at member
    rcases member with before | new
    · obtain ⟨everywhere, acceptable, held, announced, below⟩ := informed.noted before
      exact ⟨everywhere, acceptable, held, announced, below.trans (takes.view_le _ _)⟩
    · split at new
      · rename_i here
        subst here
        obtain rfl := List.mem_singleton.1 new
        have waits : envelope ∈ e.carriers.net.inbox j := by
          rw [takes.received.head]
          exact List.mem_cons_self
        obtain ⟨acceptable, announced⟩ := informed.announces waits
        obtain ⟨held, announced⟩ := Option.isSome_iff_exists.1 announced
        refine ⟨rfl, acceptable, held, announced, ?_⟩
        rw [takes.received.view, if_pos ⟨rfl, rfl⟩, announced, Option.getD_some]
        exact PartSet.le_union_right _ _
      · cases new
  announces {j envelope'} member := by
    refine @informed.announces j envelope' ?_
    by_cases here : j = k
    · subst here
      rw [takes.received.head]
      exact List.mem_cons_of_mem _ member
    · rwa [← takes.received.others j here]

section Handles

variable {k : Nat} {c c' : Coordinator} {job : Job} {lane : Lane} {h' : History}
  (acts : e.Handles k c c' job lane e') (wired : e.Wired)
  (room : ∀ publication, (c.store.react job.request).publication = some publication →
    e.carriers.net.hasRoomFor k publication.topic publication.message
      (e.carriers.net.targets k publication.peers) = true)

include acts wired

/-- A call that a coordinator handles has been taken out of an inbox. -/
theorem noted_of_handles {d : Delivery} (call : job.delivery? = some d) :
    d.replyTo = [] ∧ d.rpc.Acceptable ∧ ∃ held, d.rpc.announced? = some held ∧
      held ≤ e.carriers.net.view k ⟨d.sender, d.rpc.topic, d.rpc.group⟩ := by
  refine informed.noted ?_
  rw [acts.taken wired, if_pos rfl, call]
  exact List.mem_cons_self

include room

/-- A call that was on its way still is, or its receiver has handled it and is abreast with its
sender. -/
theorem heard_of_handles {posting : Posting} (member : posting ∈ h.posted) : e'.Deaf posting.target ∨
    (∃ d ∈ e'.transit posting.target, d.sender = posting.envelope.sender ∧
      d.rpc.topic = posting.envelope.rpc.topic ∧ d.rpc.group = posting.envelope.rpc.group) ∨
    e'.Abreast posting.target posting.envelope.sender posting.source posting.envelope.rpc.topic
      posting.envelope.rpc.group := by
  obtain ⟨b, source, target, link⟩ := informed.along member
  have back := (wired.links link).1
  rcases informed.heard member with deaf | ⟨d, waits, about⟩ | abreast
  · exact Or.inl (acts.deaf.2 deaf)
  · have split : d ∈ (if posting.target = k then job.delivery?.toList else []) ++
        e'.transit posting.target := by
      rw [← acts.transit wired]
      exact List.mem_append_left _ waits
    rcases List.mem_append.1 split with handled | still
    · split at handled
      · rename_i here
        rw [here] at target ⊢
        have call := Option.mem_toList.1 handled
        obtain ⟨everywhere, acceptable, held, announced, noted⟩ :=
          informed.noted_of_handles acts wired call
        obtain ⟨sender, topic, group⟩ := about
        rw [← sender] at source back ⊢
        rw [← topic, ← group]
        exact Or.inr (Or.inr (acts.answers wired room call everywhere acceptable announced noted
          target back (wired.home source)))
      · cases handled
    · exact Or.inr (Or.inl ⟨d, still, about⟩)
  · have replies := fun d call => (@noted_of_handles _ _ _ informed _ _ _ _ _ acts wired d call).1
    exact Or.inr (Or.inr (acts.abreast wired room replies target back (wired.home source)
      abreast))

/-- A coordinator that handles a job tells the peers it has exchanged calls with. -/
theorem handles
    (posted : ∀ {posting}, posting ∈ h'.posted → posting ∈ h.posted ∨ (posting.source = k ∧
      posting.envelope ∈ e.carriers.net.arrivals e'.carriers.net posting.target)) :
    Informed h' e' where
  along {posting} member := by
    simp only [acts.framed.peerAt?, acts.framed.linked]
    rcases posted member with old | ⟨here, arrived⟩
    · exact informed.along old
    · obtain ⟨publication, -, sender, target, known, origin, listed, found, form⟩ :=
        acts.arrival arrived
      obtain ⟨self, origin', link⟩ := Network.linked_of_mem_targets listed
      obtain rfl := Option.some.inj (origin.symm.trans origin')
      exact ⟨target, by rw [here, origin, form], wired.registered found, by rw [form]; exact link⟩
  told {posting b} member target := by
    rw [acts.framed.peerAt?] at target
    rcases posted member with old | ⟨here, arrived⟩
    · obtain ⟨b', source, target', link⟩ := informed.along old
      obtain rfl := Option.some.inj (target.symm.trans target')
      exact acts.abreast wired room
        (fun d call => (informed.noted_of_handles acts wired call).1) source link
        (wired.home target) (informed.told old target)
    · obtain ⟨publication, published, sender, peer, known, origin, listed, found, form⟩ :=
        acts.arrival arrived
      obtain rfl := Option.some.inj ((wired.registered found).symm.trans target)
      rw [here, form]
      exact acts.informs wired room published listed found
  heard {posting} member := by
    rcases posted member with old | ⟨-, arrived⟩
    · exact informed.heard_of_handles acts wired room old
    · exact Or.inr (Or.inl ⟨_, acts.mem_transit_of_arrival arrived, rfl, rfl, rfl⟩)
  noted {j d} member := by
    have before : d ∈ e.taken j := by
      rw [acts.taken wired]
      exact List.mem_append_right _ member
    obtain ⟨everywhere, acceptable, held, announced, below⟩ := informed.noted before
    exact ⟨everywhere, acceptable, held, announced, below.trans (acts.view_le _ _)⟩
  announces {j envelope} member := by
    rw [acts.inbox, List.mem_append] at member
    rcases member with old | arrived
    · exact informed.announces old
    · obtain ⟨publication, -, sender, peer, known, -, -, -, form⟩ := acts.arrival arrived
      rw [form]
      exact ⟨Rpc.acceptable_update _ _ _, rfl⟩

end Handles

/-- The same facts of fewer calls. -/
theorem of_posted {h' : History}
    (posted : ∀ posting, posting ∈ h'.posted → posting ∈ h.posted) : Informed h' e where
  along member := informed.along (posted _ member)
  told member := informed.told (posted _ member)
  heard member := informed.heard (posted _ member)
  noted := informed.noted
  announces := informed.announces

/-- An undisturbed action keeps the facts. -/
theorem step {action : Action} (wired : e.Wired) (undisturbed : e.Undisturbed action)
    (unasked : ∀ d, ¬ e.Foreign action d) (effect : Effect e action e') :
    Informed (h.after e action e') e' := by
  cases effect with
  | quiet quiet silent => exact (informed.quiet quiet unasked).of_posted (silent h)
  | takes held_wired takes quiet silent =>
    exact ((informed.takes takes).quiet quiet fun _ => id).of_posted (silent h)
  | @handles i k s job lane c' serves here outlet next handles =>
    have room : e.hasRoom i = true := by
      rw [serves] at undisturbed
      exact undisturbed.2
    refine informed.handles handles wired
      (fun publication => hasRoomFor_of_hasRoom room here outlet next) ?_
    intro posting member
    refine (mem_posted_after.1 member).imp_right fun ⟨source, arrived⟩ => ⟨?_, arrived⟩
    rw [serves, source?, here, Option.bind_some, outlet] at source
    exact (Option.some.inj source).symm

end Informed

/-! ### Undisturbed runs -/

section Undisturbed

variable {capacity : Nat} {h : History} {e : Exchange}
  (run : Run Undisturbed (.new capacity) h e)

include run

/-- Nobody has asked a coordinator to handle a call past its pump. -/
theorem Run.unasked {call : Call} (member : call ∈ e.calls) (d : Delivery) :
    call.job.request ≠ .rpc d := by
  induction run generalizing call with
  | start => cases member
  | @step h e e' action run allow acts ih =>
    rcases calls_act? acts member with ⟨old, before, same⟩ | ⟨i, made⟩
    · rw [same]
      exact ih before
    · intro asks
      rw [asks] at made
      subst made
      exact allow.2

/-- The facts are kept along every undisturbed run. -/
theorem Run.informed : Informed h e := by
  induction run with
  | start =>
    constructor
    case along => intro posting member; cases member
    case told => intro posting b member; cases member
    case heard => intro posting member; cases member
    case noted => intro j d member; cases member
    case announces => intro j envelope member; cases member
  | @step h e e' action run allow acts ih =>
    have wired := run.wired fun _ _ undisturbed => undisturbed.1
    refine ih.step wired allow ?_ (wired.effect allow.1 acts).2
    rintro d (⟨i, rfl⟩ | ⟨call, member, asks⟩)
    · exact allow.2
    · exact run.unasked member d asks

end Undisturbed

/-! ### At rest -/

/-- Nothing is on its way when all is at rest. -/
theorem AtRest.transit {e : Exchange} (rest : e.AtRest) (j : Nat) : e.transit j = [] := by
  have inbox : e.carriers.net.inbox j = [] := by
    cases present : e.carriers.net.endpoints[j]? with
    | none =>
      rw [Network.inbox, present]
      rfl
    | some self =>
      rw [Network.inbox_of_present present]
      exact rest.inboxes self (List.mem_of_getElem? present)
  have held : e.heldBack j = [] := by
    cases reader : e.pumpOn? j with
    | none =>
      rw [heldBack, reader]
      rfl
    | some pump =>
      rw [heldBack, reader, Option.bind_some, rest.pumps pump (List.mem_of_find?_eq_some reader)]
      rfl
  have queued : e.queued j = [] := by
    cases found : e.stationOn? j with
    | none =>
      rw [Exchange.queued, coordinatorOn?, found]
      rfl
    | some station =>
      have works : e.coordinatorOn? j = some station.coordinator := by rw [coordinatorOn?, found]; rfl
      have empty : station.coordinator.incoming.items = [] :=
        rest.queues station (List.mem_of_find?_eq_some found) .incoming
      rw [queued_of_coordinatorOn? works, Coordinator.deliveries, empty]
      rfl
  rw [Exchange.transit, taken, queued, held, inbox]
  rfl

/-- At rest, whatever is believed of a peer that listens is held there. -/
theorem Sound.view_le_holding {h : History} {e : Exchange} (sound : Sound h e) (rest : e.AtRest)
    {k j : Nat} {self peer : PeerId} {topic : Topic} {group : GroupId}
    (here : e.carriers.net.peerAt? k = some self) (found : e.carriers.net.endpointOf? peer = some j)
    (listens : ¬ e.Deaf j) :
    e.carriers.net.view k ⟨peer, topic, group⟩ ≤ e.holding j topic group :=
  sound.view_le_holding_of_idle here found listens fun d waits => by
    rw [rest.transit] at waits
    cases waits

/-- Once a call about a group has been put into an inbox, sender and receiver both store the group
and hold the same parts of it whenever all is at rest, unless one of their coordinators has
ended. -/
theorem same_parts_at_rest {capacity : Nat} {h : History} {e : Exchange}
    (run : Run Undisturbed (.new capacity) h e) (rest : e.AtRest) {posting : Posting}
    (posted : posting ∈ h.posted) {i j : Nat} {a b : Station} (first : e.stations[i]? = some a)
    (second : e.stations[j]? = some b) (source : a.outlet = .endpoint posting.source)
    (target : b.outlet = .endpoint posting.target) (runs : a.coordinator.ended = false)
    (runs' : b.coordinator.ended = false) :
    ∃ m m', a.coordinator.store.get? posting.envelope.rpc.topic posting.envelope.rpc.group =
        some m ∧
      b.coordinator.store.get? posting.envelope.rpc.topic posting.envelope.rpc.group = some m' ∧
      m.available = m'.available := by
  have wired := run.wired fun _ _ undisturbed => undisturbed.1
  have sound := run.sound fun _ _ undisturbed => undisturbed.1
  have informed := run.informed
  have hears := wired.not_deaf first source runs
  have hears' := wired.not_deaf second target runs'
  obtain ⟨b', at_source, at_target, link⟩ := informed.along posted
  -- The sender stores the group and believes the receiver to hold what it holds, and conversely.
  obtain ⟨stored, told⟩ := informed.told posted at_target
  have there := told.resolve_left hears'
  have arrived : ¬ ∃ d ∈ e.transit posting.target, d.sender = posting.envelope.sender ∧
      d.rpc.topic = posting.envelope.rpc.topic ∧ d.rpc.group = posting.envelope.rpc.group := by
    rintro ⟨d, waits, -⟩
    rw [rest.transit] at waits
    cases waits
  obtain ⟨stored', heard⟩ := ((informed.heard posted).resolve_left hears').resolve_left arrived
  have back := heard.resolve_left hears
  obtain ⟨m, held⟩ := Option.isSome_iff_exists.1 stored
  obtain ⟨m', held'⟩ := Option.isSome_iff_exists.1 stored'
  refine ⟨m, m', ?_, ?_, ?_⟩
  · rw [← stored?_of_coordinatorOn? (wired.coordinatorOn?_of_station first source), held]
  · rw [← stored?_of_coordinatorOn? (wired.coordinatorOn?_of_station second target), held']
  · rw [← holding_of_stored? held, ← holding_of_stored? held']
    refine le_antisymm ?_ ?_
    · exact there.trans (sound.view_le_holding rest at_source (wired.home at_target) hears')
    · exact back.trans (sound.view_le_holding rest at_target (wired.home at_source) hears)

/-- Once the second peer has handled the greeting, all is at rest, and both peers hold the same parts
of its group. -/
theorem same_parts_after_greeting :
    ∃ h e, Run Undisturbed (.new 4) h e ∧ e.AtRest ∧ ∃ posting ∈ h.posted, ∃ a ∈ e.stations,
      ∃ b ∈ e.stations, a.outlet = .endpoint posting.source ∧ b.outlet = .endpoint posting.target ∧
        ∃ m m',
          a.coordinator.store.get? posting.envelope.rpc.topic posting.envelope.rpc.group = some m ∧
          b.coordinator.store.get? posting.envelope.rpc.topic posting.envelope.rpc.group =
            some m' ∧
          m.available = m'.available := by
  have check : ((play? Undisturbed {} (.new 4) (greeting ++ [.pump 1, .serve 1])).any fun r =>
      r.2.AtRest ∧ ∃ posting ∈ r.1.posted, ∃ a ∈ r.2.stations, ∃ b ∈ r.2.stations,
        a.outlet = .endpoint posting.source ∧ b.outlet = .endpoint posting.target ∧
          a.coordinator.ended = false ∧ b.coordinator.ended = false) = true := by
    decide +kernel
  obtain ⟨⟨h, e⟩, played, holds⟩ := (Option.any_eq_true _ _).1 check
  obtain ⟨rest, posting, posted, a, first, b, second, source, target, runs, runs'⟩ :=
    of_decide_eq_true holds
  have run := Run.start.play played
  obtain ⟨i, first'⟩ := List.mem_iff_getElem?.1 first
  obtain ⟨j, second'⟩ := List.mem_iff_getElem?.1 second
  exact ⟨h, e, run, rest, posting, posted, a, first, b, second, source, target,
    same_parts_at_rest run rest posted first' second' source target runs runs'⟩

end PartExchange.Exchange
