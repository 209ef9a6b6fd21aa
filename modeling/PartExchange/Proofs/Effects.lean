/-
**What each action does to messages, views and calls on their way.**

Only two kinds of steps matter for what peers know of each other: a pump takes a call out of an
inbox, and a coordinator handles a job.  Everything else is quiet: it leaves messages and views as
they are, and loses calls only at endpoints that are deaf.  A step of a pump is quiet once the call
has been taken; so what one step can do is said here, and everything that holds along runs is
derived from it.

Main definitions:

* `Exchange.Quiet`: a quiet change, with the calls that come from outside;
* `Exchange.Foreign`: the calls that an action may bring from outside;
* `Exchange.hold`, `Exchange.handOver`, `Exchange.Forwards`: the parts of a pump's step.

Main results:

* `Exchange.Wired.act`: every orderly action that is not a step of a pump or of a coordinator is
  quiet;
* `Exchange.Wired.pumpStep?_cases`, `Exchange.Wired.stationStep?_cases`: what the steps do;
* `Exchange.Wired.effect`: what any orderly action does.
-/

import PartExchange.Proofs.Reaction
import PartExchange.Proofs.Wiring

set_option relaxedAutoImplicit false
set_option autoImplicit false

namespace PartExchange.Exchange

/-! ### Another coordinator in place of one -/

section Replaced

variable {e e' : Exchange} {k : Nat} {c c' : Coordinator} (before : e.coordinatorOn? k = some c)
  (after : ∀ j, e'.coordinatorOn? j = if j = k then some c' else e.coordinatorOn? j)

include before after

theorem stored?_of_replaced (store : c'.store = c.store) (j : Nat) (topic : Topic)
    (group : GroupId) : e'.stored? j topic group = e.stored? j topic group := by
  rw [stored?, after, stored?]
  split
  · rename_i here
    rw [here, before, Option.bind_some, Option.bind_some, store]
  · rfl

variable (readers : ∀ j, e'.carriers.net.readingAt? j = e.carriers.net.readingAt? j)

include readers

/-- Where nobody listened, nobody does, if a coordinator that had ended is replaced by one that has
ended. -/
theorem deaf_of_replaced (ended : c.ended = true → c'.ended = true) {j : Nat} (deaf : e.Deaf j) :
    e'.Deaf j := by
  rcases deaf with shut | ⟨old, works, halted⟩
  · exact Or.inl ((readers j).trans shut)
  · right
    rw [after]
    by_cases same : j = k
    · subst same
      rw [before] at works
      obtain rfl := Option.some.inj works
      exact ⟨c', if_pos rfl, ended halted⟩
    · exact ⟨old, by rw [if_neg same, works], halted⟩

theorem deaf_iff_of_replaced (ended : c'.ended = c.ended) (j : Nat) : e'.Deaf j ↔ e.Deaf j := by
  rw [Deaf, readers, after, Deaf]
  split
  · rename_i here
    rw [here, before]
    simp only [Option.some.injEq, exists_eq_left', ended]
  · rfl

end Replaced

/-! ### Quiet changes -/

/-- A change that leaves messages and views as they are, and loses calls only at deaf endpoints. -/
structure Quiet (foreign : Delivery → Prop) (e e' : Exchange) : Prop where
  /-- Endpoints keep their peers. -/
  peerAt? : ∀ {k peer}, e.carriers.net.peerAt? k = some peer →
    e'.carriers.net.peerAt? k = some peer
  /-- Peers keep their endpoints. -/
  endpointOf? : ∀ {peer k}, e.carriers.net.endpointOf? peer = some k →
    e'.carriers.net.endpointOf? peer = some k
  /-- Links stay. -/
  linked : ∀ {a b}, e.carriers.net.linked a b = true → e'.carriers.net.linked a b = true
  /-- Views do not change. -/
  view : ∀ k key, e'.carriers.net.view k key = e.carriers.net.view k key
  /-- Messages do not change. -/
  stored? : ∀ k topic group, e'.stored? k topic group = e.stored? k topic group
  /-- Deaf endpoints stay deaf. -/
  deaf : ∀ {k}, e.Deaf k → e'.Deaf k
  /-- Inboxes do not change, except that the inbox of a deaf endpoint may be emptied. -/
  inbox : ∀ k, e'.carriers.net.inbox k = e.carriers.net.inbox k ∨
    (e'.Deaf k ∧ e'.carriers.net.inbox k = [])
  /-- Calls that have been taken wait until they are handled, except at deaf endpoints. -/
  keeps : ∀ k, e'.Deaf k ∨ e.taken k ⊆ e'.taken k
  /-- Other calls come from outside. -/
  brings : ∀ {k d}, d ∈ e'.taken k → d ∈ e.taken k ∨ foreign d

namespace Quiet

variable {foreign : Delivery → Prop} {e e' e'' : Exchange}

theorem trans (first : e.Quiet foreign e') (second : e'.Quiet foreign e'') :
    e.Quiet foreign e'' where
  peerAt? h := second.peerAt? (first.peerAt? h)
  endpointOf? h := second.endpointOf? (first.endpointOf? h)
  linked h := second.linked (first.linked h)
  view k key := (second.view k key).trans (first.view k key)
  stored? k topic group := (second.stored? k topic group).trans (first.stored? k topic group)
  deaf h := second.deaf (first.deaf h)
  inbox k := by
    rcases second.inbox k with same | emptied
    · rcases first.inbox k with same' | ⟨deaf, none⟩
      · exact Or.inl (same.trans same')
      · exact Or.inr ⟨second.deaf deaf, same.trans none⟩
    · exact Or.inr emptied
  keeps k := by
    rcases first.keeps k with deaf | kept
    · exact Or.inl (second.deaf deaf)
    · rcases second.keeps k with deaf | kept'
      · exact Or.inl deaf
      · exact Or.inr (List.Subset.trans kept kept')
  brings member := by
    rcases second.brings member with before | outside
    · exact first.brings before
    · exact Or.inr outside

theorem imp {foreign' : Delivery → Prop} (quiet : e.Quiet foreign e')
    (weaker : ∀ d, foreign d → foreign' d) : e.Quiet foreign' e' :=
  { quiet with brings := fun member => (quiet.brings member).imp_right (weaker _) }

/-- Changing neither the network nor what is stored or has been taken. -/
theorem of_taken (carriers : e'.carriers = e.carriers)
    (stored? : ∀ k topic group, e'.stored? k topic group = e.stored? k topic group)
    (deaf : ∀ {k}, e.Deaf k → e'.Deaf k) (taken : ∀ k, e'.taken k = e.taken k) :
    e.Quiet foreign e' where
  peerAt? h := by rwa [carriers]
  endpointOf? h := by rwa [carriers]
  linked h := by rwa [carriers]
  view k key := by rw [carriers]
  stored? := stored?
  deaf := deaf
  inbox k := by
    rw [carriers]
    exact Or.inl rfl
  keeps k := by
    rw [taken]
    exact Or.inr (List.Subset.refl _)
  brings h := by
    rw [taken] at h
    exact Or.inl h

/-- Changing nothing but participants and requests. -/
theorem of_eq (carriers : e'.carriers = e.carriers) (stations : e'.stations = e.stations)
    (pumps : e'.pumps = e.pumps) : e.Quiet foreign e' := by
  have coordinators : ∀ k, e'.coordinatorOn? k = e.coordinatorOn? k := by
    intro k
    rw [coordinatorOn?, stationOn?, stations, coordinatorOn?, stationOn?]
  have readers : ∀ k, e'.pumpOn? k = e.pumpOn? k := by
    intro k
    rw [pumpOn?, pumps, pumpOn?]
  have taken : ∀ k, e'.taken k = e.taken k := by
    intro k
    rw [Exchange.taken, queued, heldBack, coordinators, readers, Exchange.taken, queued, heldBack]
  refine of_taken carriers ?_ ?_ taken
  · intro k topic group
    rw [Exchange.stored?, coordinators, Exchange.stored?]
  · intro k h
    rwa [Deaf, carriers, coordinators]

theorem refl (foreign : Delivery → Prop) (e : Exchange) : e.Quiet foreign e := of_eq rfl rfl rfl

/-- Changing the network without touching views, and inboxes only by closing them. -/
theorem withNet {net : Network}
    (peerAt? : ∀ {k peer}, e.carriers.net.peerAt? k = some peer → net.peerAt? k = some peer)
    (endpointOf? : ∀ {peer k}, e.carriers.net.endpointOf? peer = some k →
      net.endpointOf? peer = some k)
    (linked : ∀ {a b}, e.carriers.net.linked a b = true → net.linked a b = true)
    (view : ∀ k key, net.view k key = e.carriers.net.view k key)
    (closed : ∀ {k}, e.carriers.net.readingAt? k = some .closed → net.readingAt? k = some .closed)
    (inbox : ∀ k, net.inbox k = e.carriers.net.inbox k ∨
      (net.readingAt? k = some .closed ∧ net.inbox k = [])) :
    e.Quiet foreign (e.withNet net) where
  peerAt? := peerAt?
  endpointOf? := endpointOf?
  linked := linked
  view := view
  stored? _ _ _ := rfl
  deaf h := h.imp_left closed
  inbox k := (inbox k).imp_right fun h => ⟨Or.inl h.1, h.2⟩
  keeps _ := Or.inr (List.Subset.refl _)
  brings h := Or.inl h

/-- Closing an inbox. -/
theorem close (e : Exchange) {k : Nat} {self : Endpoint}
    (present : e.carriers.net.endpoints[k]? = some self) :
    e.Quiet foreign (e.withNet (e.carriers.net.modify k Endpoint.close)) := by
  have readers : ∀ i, (e.carriers.net.modify k Endpoint.close).readingAt? i =
      if i = k then some .closed else e.carriers.net.readingAt? i :=
    Network.readingAt?_modify present
  refine withNet ?_ id id ?_ ?_ ?_
  · intro i peer h
    have same : ∀ e : Endpoint, e.close.peer = e.peer := fun _ => rfl
    rw [Network.peerAt?_modify same, h]
  · intro i key
    rw [Network.view_modify present]
    split
    · rename_i here
      rw [here, Network.view_of_present present]
      rfl
    · rfl
  · intro i shut
    rw [readers, shut, ite_self]
  · intro i
    rw [Network.inbox_modify present, readers]
    by_cases here : i = k
    · rw [if_pos here, if_pos here]
      exact Or.inr ⟨rfl, rfl⟩
    · rw [if_neg here]
      exact Or.inl rfl

/-- Beginning to read an inbox. -/
theorem readInbox (e : Exchange) {k : Nat} {self : Endpoint}
    (present : e.carriers.net.endpoints[k]? = some self) (unread : self.reading = .unread) :
    e.Quiet foreign (e.withNet (e.carriers.net.modify k fun k => { k with reading := .pumped })) := by
  refine withNet ?_ id id ?_ ?_ ?_
  · intro i peer h
    have same : ∀ e : Endpoint, ({ e with reading := .pumped } : Endpoint).peer = e.peer :=
      fun _ => rfl
    rw [Network.peerAt?_modify same, h]
  · intro i key
    rw [Network.view_modify present]
    split
    · rename_i here
      rw [here, Network.view_of_present present]
      rfl
    · rfl
  · intro i shut
    rw [Network.readingAt?_modify present, if_neg, shut]
    rintro rfl
    rw [Network.readingAt?_of_present present, unread] at shut
    cases shut
  · intro i
    left
    rw [Network.inbox_modify present]
    split
    · rename_i here
      rw [here, Network.inbox_of_present present]
    · rfl

/-- Linking two peers. -/
theorem connect {a b : PeerId} {net : Network} (made : e.carriers.net.connect a b = .ok net) :
    e.Quiet foreign (e.withNet net) := by
  have connected := Network.connected made
  refine withNet ?_ ?_ (fun h => connected.linked.2 (Or.inl h)) connected.view ?_ ?_
  · intro k peer h
    rwa [connected.peerAt?]
  · intro peer k h
    rwa [connected.endpointOf?]
  · intro k h
    rwa [connected.readingAt?]
  · intro k
    exact Or.inl (connected.inbox k)

/-- Replacing a coordinator by one with the same store, that has not lost calls unless it has
ended. -/
theorem putCoordinator (wired : e.Wired) {i : Nat} {s : Station} (here : e.stations[i]? = some s)
    {c : Coordinator} (store : c.store = s.coordinator.store)
    (ended : s.coordinator.ended = true → c.ended = true)
    (keeps : c.ended = true ∨ s.coordinator.deliveries ⊆ c.deliveries)
    (brings : ∀ d ∈ c.deliveries, d ∈ s.coordinator.deliveries ∨ foreign d) :
    e.Quiet foreign (e.putCoordinator i c) := by
  obtain ⟨k, -, outlet, -⟩ := wired.station here
  have before := wired.coordinatorOn?_of_station here outlet
  have after := wired.coordinatorOn?_putCoordinator here outlet c
  have queue : ∀ j, (e.putCoordinator i c).queued j = if j = k then c.deliveries else e.queued j := by
    intro j
    rw [queued, after]
    split <;> rfl
  have queue_k : e.queued k = s.coordinator.deliveries := by rw [queued, before]; rfl
  refine
    { peerAt? := id
      endpointOf? := id
      linked := id
      view := fun _ _ => rfl
      stored? := stored?_of_replaced before after store
      deaf := deaf_of_replaced before after (fun _ => rfl) ended
      inbox := fun _ => Or.inl rfl
      keeps := fun j => ?keeps
      brings := fun {j d} member => ?brings }
  case keeps =>
    -- The calls of a coordinator that ends are lost, but nobody listens there any more.
    by_cases same : j = k
    · subst same
      rcases keeps with halted | kept
      · exact Or.inl (Or.inr ⟨c, by rw [after, if_pos rfl], halted⟩)
      · right
        rw [Exchange.taken, Exchange.taken, queue, if_pos rfl, queue_k]
        exact List.append_subset.2 ⟨List.subset_append_of_subset_left _ kept,
          List.subset_append_right _ _⟩
    · right
      rw [Exchange.taken, Exchange.taken, queue, if_neg same]
      exact List.Subset.refl _
  case brings =>
    rw [Exchange.taken, List.mem_append] at member
    rw [Exchange.taken, List.mem_append]
    rcases member with waits | held
    · rw [queue] at waits
      split at waits
      · rename_i same
        rw [same, queue_k]
        exact (brings d waits).imp_left Or.inl
      · exact Or.inl (Or.inl waits)
    · exact Or.inl (Or.inr held)

/-- A sender's attempt. -/
theorem fed (wired : e.Wired) {i : Nat} {s : Station} (here : e.stations[i]? = some s)
    {c : Coordinator} {entered : Option Job} (fed : s.coordinator.Fed c entered)
    (outside : ∀ job d, entered = some job → job.request = .rpc d → foreign d) :
    e.Quiet foreign (e.putCoordinator i c) := by
  refine putCoordinator wired here fed.store (fun halted => fed.ended.trans halted) (Or.inr ?_) ?_
  · rw [fed.deliveries]
    exact List.subset_append_left _ _
  · intro d member
    rw [fed.deliveries, List.mem_append, Option.mem_toList, Option.bind_eq_some_iff] at member
    rcases member with old | ⟨job, entered, call⟩
    · exact Or.inl old
    · exact Or.inr (outside job d entered (Job.delivery?_eq_some.1 call))

/-- The end of a coordinator. -/
theorem closeCoordinator (wired : e.Wired) {i : Nat} {s : Station}
    (here : e.stations[i]? = some s) :
    e.Quiet foreign (e.putCoordinator i s.coordinator.close) :=
  putCoordinator wired here rfl (fun _ => rfl) (Or.inl rfl) fun d member => by cases member

/-- The end of a pump at a deaf endpoint. -/
theorem putPump (wired : e.Wired) {p : Nat} {a b : Pump} (here : e.pumps[p]? = some a)
    (endpoint : b.endpoint = a.endpoint) (none : b.held = none) (deaf : e.Deaf a.endpoint) :
    e.Quiet foreign (e.putPump p b) := by
  have after := wired.pumpOn?_putPump here endpoint
  have held : ∀ j, (e.putPump p b).heldBack j = if j = a.endpoint then [] else e.heldBack j := by
    intro j
    rw [heldBack, after]
    split
    · rw [Option.bind_some, none]
      rfl
    · rfl
  refine
    { peerAt? := id
      endpointOf? := id
      linked := id
      view := fun _ _ => rfl
      stored? := fun _ _ _ => rfl
      deaf := id
      inbox := fun _ => Or.inl rfl
      keeps := fun j => ?keeps
      brings := fun {j d} member => ?brings }
  case keeps =>
    by_cases same : j = a.endpoint
    · rw [same]
      exact Or.inl deaf
    · right
      rw [Exchange.taken, Exchange.taken, held, if_neg same]
      exact List.Subset.refl _
  case brings =>
    left
    rw [Exchange.taken, held] at member
    rw [Exchange.taken]
    split at member
    · rw [List.append_nil] at member
      exact List.mem_append_left _ member
    · exact member

/-- A participant joins. -/
theorem join (e : Exchange) {peer : PeerId} (fresh : e.carriers.net.isRegistered peer = false) :
    e.Quiet foreign (e.joinNetwork peer).1 := by
  have net : e.Quiet foreign (e.withNet (e.carriers.net.register peer).1) := by
    refine withNet ?_ ?_ id ?_ ?_ ?_
    · intro k other h
      rw [Network.peerAt?_register, if_neg, h]
      rintro rfl
      rw [Network.peerAt?_length] at h
      cases h
    · intro other k h
      rw [Network.endpointOf?_register, if_neg, h]
      rintro rfl
      rw [Network.isRegistered, h] at fresh
      cases fresh
    · exact Network.view_register _ _
    · intro k shut
      rw [Network.readingAt?_register, if_neg, shut]
      rintro rfl
      rw [Network.readingAt?, List.getElem?_eq_none (Nat.le_refl _)] at shut
      cases shut
    · exact fun k => Or.inl (Network.inbox_register _ _ k)
  exact net.trans (of_eq rfl rfl rfl)

/-- A participant gets a coordinator, where none worked before. -/
theorem addStation (e : Exchange) {k : Nat} (config : CoordinatorConfig) :
    e.Quiet foreign { e with stations := e.stations ++ [⟨.endpoint k, .new config⟩] } := by
  let e' : Exchange := { e with stations := e.stations ++ [⟨.endpoint k, .new config⟩] }
  -- A new coordinator is seen only where there was none, and it holds and awaits nothing.
  have after : ∀ j, e'.coordinatorOn? j = e.coordinatorOn? j ∨
      (e.coordinatorOn? j = none ∧ e'.coordinatorOn? j = some (.new config)) := by
    intro j
    have first : e'.stationOn? j = e.stationOn? j ∨
        (e.stationOn? j = none ∧ e'.stationOn? j = some ⟨.endpoint k, .new config⟩) :=
      find?_concat_cases e.stations _ _
    rw [coordinatorOn?, coordinatorOn?]
    rcases first with same | ⟨none, new⟩
    · exact Or.inl (congrArg _ same)
    · exact Or.inr ⟨by rw [none]; rfl, by rw [new]; rfl⟩
  have same : ∀ j, e'.queued j = e.queued j := by
    intro j
    rw [queued, queued]
    rcases after j with same | ⟨none, new⟩
    · rw [same]
    · rw [none, new]
      rfl
  have taken : ∀ j, e'.taken j = e.taken j := by
    intro j
    rw [Exchange.taken, same]
    rfl
  refine of_taken rfl ?_ ?_ taken
  · intro j topic group
    rw [Exchange.stored?, Exchange.stored?]
    rcases after j with same | ⟨none, new⟩
    · rw [same]
    · rw [none, new]
      rfl
  · rintro j (shut | ⟨c, works, halted⟩)
    · exact Or.inl shut
    · rcases after j with same | ⟨none, -⟩
      · exact Or.inr ⟨c, same.trans works, halted⟩
      · rw [none] at works
        cases works

/-- A participant gets a pump. -/
theorem addPump (e : Exchange) (k i : Nat) :
    e.Quiet foreign { e with pumps := e.pumps ++ [{ endpoint := k, station := i }] } := by
  let e' : Exchange := { e with pumps := e.pumps ++ [{ endpoint := k, station := i }] }
  have same : ∀ j, e'.heldBack j = e.heldBack j := by
    intro j
    have first : e'.pumpOn? j = e.pumpOn? j ∨
        (e.pumpOn? j = none ∧ e'.pumpOn? j = some { endpoint := k, station := i }) :=
      find?_concat_cases e.pumps _ _
    rw [heldBack, heldBack]
    rcases first with same | ⟨none, new⟩
    · rw [same]
    · rw [none, new]
      rfl
  have taken : ∀ j, e'.taken j = e.taken j := by
    intro j
    rw [Exchange.taken, same]
    rfl
  exact of_taken rfl (fun _ _ _ => rfl) id taken

end Quiet

/-! ### The parts of a pump's step -/

/-- A pump holds a call that it has taken out of its inbox. -/
def hold (e : Exchange) (p : Nat) (pump : Pump) (job : Job) (net : Network) : Exchange :=
  (e.withNet net).putPump p { pump with held := some job }

/-- A pump has handed its call over to the coordinator. -/
def handOver (e : Exchange) (p : Nat) (pump : Pump) (c : Coordinator) : Exchange :=
  (e.putCoordinator pump.station c).putPump p { pump with held := none }

/-- A call has been taken out of an inbox. -/
structure Takes (k : Nat) (envelope : Envelope) (e e' : Exchange) : Prop where
  /-- The network after the call has been received. -/
  received : Network.Received k envelope e.carriers.net e'.carriers.net
  /-- No coordinator has acted. -/
  coordinatorOn? : ∀ j, e'.coordinatorOn? j = e.coordinatorOn? j
  /-- The call joins the ones that have been taken. -/
  taken : ∀ j, e'.taken j = e.taken j ++ if j = k then [envelope.delivery] else []

/-- The coordinator at an endpoint has handled a job, and its publication has been carried out. -/
structure Handles (k : Nat) (c c' : Coordinator) (job : Job) (lane : Lane) (e e' : Exchange) :
    Prop where
  /-- The coordinator before. -/
  before : e.coordinatorOn? k = some c
  /-- It had not ended. -/
  running : c.ended = false
  /-- The job is done. -/
  served : c.Served c' job lane
  /-- No other coordinator has acted. -/
  after : ∀ j, e'.coordinatorOn? j = if j = k then some c' else e.coordinatorOn? j
  /-- No pump has acted. -/
  pumpOn? : ∀ j, e'.pumpOn? j = e.pumpOn? j
  /-- What has been published has left at the coordinator's endpoint. -/
  net : e'.carriers.net = e.carriers.net.carry k (c.store.react job.request).publication

/-- What a pump does with a call that it holds, other than to wait. -/
inductive Forwards (p : Nat) (pump : Pump) (job : Job) (e : Exchange) : Exchange → Prop
  | sent {s : Station} {c : Coordinator} (there : e.stations[pump.station]? = some s)
      (fed : s.coordinator.Fed c (some job)) : Forwards p pump job e (e.handOver p pump c)
  | ends {s : Station} {c : Coordinator} (there : e.stations[pump.station]? = some s)
      (fed : s.coordinator.Fed c none) (halted : s.coordinator.ended = true) :
      Forwards p pump job e ((e.putCoordinator pump.station c).endPump p)

/-- What a pump holds has no part in how it ends. -/
theorem endPump_putPump {e : Exchange} {p : Nat} {pump : Pump} (here : e.pumps[p]? = some pump)
    (working : pump.finished = false) (held : Option Job) :
    (e.putPump p { pump with held }).endPump p = e.endPump p := by
  have inside := (List.getElem?_eq_some_iff.1 here).1
  have there : (e.putPump p { pump with held }).pumps[p]? = some { pump with held } :=
    List.getElem?_set_self inside
  rw [endPump, endPump, there, here]
  simp only [working, Bool.false_eq_true, if_false]
  exact congrArg (fun pumps =>
    { e.withNet (e.carriers.net.modify pump.endpoint Endpoint.close) with pumps })
    (List.set_set ..)

/-- Handing a call over at once comes to the same as holding it in between. -/
theorem afterHandOver_sent (e : Exchange) (p : Nat) (pump : Pump) (job : Job) (net : Network)
    (c : Coordinator) :
    ((e.withNet net).putCoordinator pump.station c).afterHandOver p pump job .sent =
      (e.hold p pump job net).handOver p { pump with held := some job } c :=
  (congrArg (fun pumps => { (e.withNet net).putCoordinator pump.station c with pumps })
    (List.set_set ..)).symm

theorem afterHandOver_refused {e : Exchange} {p : Nat} {pump : Pump}
    (here : e.pumps[p]? = some pump) (working : pump.finished = false) (job : Job) (net : Network)
    (c : Coordinator) :
    ((e.withNet net).putCoordinator pump.station c).afterHandOver p pump job .refused =
      ((e.hold p pump job net).putCoordinator pump.station c).endPump p :=
  (@endPump_putPump ((e.withNet net).putCoordinator pump.station c) p pump here working
    (some job)).symm

namespace Wired

variable {e : Exchange} (wired : e.Wired)

include wired

/-- The endpoint of a pump is there. -/
theorem present_of_pump {p : Nat} {a : Pump} (here : e.pumps[p]? = some a) :
    ∃ self, e.carriers.net.endpoints[a.endpoint]? = some self := by
  obtain ⟨site, at_k, -⟩ := wired.pump here
  have place := wired.places a.endpoint
  rw [at_k, Option.isSome_some, Network.peerAt?, Option.isSome_map] at place
  exact Option.isSome_iff_exists.1 place.symm

/-- An endpoint whose coordinator has ended is deaf. -/
theorem deaf_of_ended {i k : Nat} {s : Station} (here : e.stations[i]? = some s)
    (outlet : s.outlet = .endpoint k) (halted : s.coordinator.ended = true) : e.Deaf k :=
  Or.inr ⟨s.coordinator, wired.coordinatorOn?_of_station here outlet, halted⟩

/-- A coordinator after a sender's attempt. -/
theorem fed {i : Nat} {s : Station} (here : e.stations[i]? = some s) {c : Coordinator}
    {entered : Option Job} (fed : s.coordinator.Fed c entered) : (e.putCoordinator i c).Wired := by
  obtain ⟨tidy, unlimited⟩ := wired.tidy here
  refine wired.putCoordinator here (tidy.fed fed) ?_ fun halted => fed.ended.trans halted
  rw [fed.store, unlimited]

/-- A coordinator after its end. -/
theorem closeCoordinator {i : Nat} {s : Station} (here : e.stations[i]? = some s) :
    (e.putCoordinator i s.coordinator.close).Wired :=
  wired.putCoordinator here Coordinator.tidy_close (wired.tidy here).2 fun _ => rfl

/-- A pump whose coordinator has ended may end. -/
theorem endPump {p : Nat} {a : Pump} {s : Station} (here : e.pumps[p]? = some a)
    (there : e.stations[a.station]? = some s) (halted : s.coordinator.ended = true)
    (foreign : Delivery → Prop) : (e.endPump p).Wired ∧ e.Quiet foreign (e.endPump p) := by
  rw [Exchange.endPump, here]
  by_cases finished : a.finished = true
  · simp only [if_pos finished]
    exact ⟨wired, Quiet.refl foreign e⟩
  · simp only [if_neg finished]
    obtain ⟨self, present⟩ := wired.present_of_pump here
    obtain ⟨site, at_k, -, serves⟩ := wired.pump here
    have outlet := wired.outlet_of_pump here there
    have closed : (e.withNet (e.carriers.net.modify a.endpoint Endpoint.close)).Wired := by
      apply wired.close present
      intro site' at_k'
      rw [at_k] at at_k'
      obtain rfl := Option.some.inj at_k'
      exact Or.inl ⟨_, s, serves, there, halted⟩
    have here' : (e.withNet (e.carriers.net.modify a.endpoint Endpoint.close)).pumps[p]? = some a :=
      here
    constructor
    · refine closed.putPump here' rfl rfl ?_
      intro job h
      cases h
    · exact (Quiet.close e present).trans (Quiet.putPump closed here' rfl rfl
        (closed.deaf_of_ended there outlet halted))

/-- A pump hands its call over: every call keeps its place. -/
theorem handOver {p : Nat} {pump : Pump} {job : Job} {s : Station} {c : Coordinator}
    (here : e.pumps[p]? = some pump) (held : pump.held = some job)
    (there : e.stations[pump.station]? = some s) (fed : s.coordinator.Fed c (some job)) :
    (e.handOver p pump c).Wired ∧ (∀ foreign, e.Quiet foreign (e.handOver p pump c)) ∧
      ∀ k, (e.handOver p pump c).taken k = e.taken k := by
  have middle := wired.fed there fed
  have here' : (e.putCoordinator pump.station c).pumps[p]? = some pump := here
  have outlet := wired.outlet_of_pump here there
  have coordinators : ∀ k, (e.handOver p pump c).coordinatorOn? k =
      if k = pump.endpoint then some c else e.coordinatorOn? k :=
    wired.coordinatorOn?_putCoordinator there outlet c
  have pumps : ∀ k, (e.handOver p pump c).pumpOn? k =
      if k = pump.endpoint then some { pump with held := none } else e.pumpOn? k :=
    middle.pumpOn?_putPump here' rfl
  have before := wired.coordinatorOn?_of_station there outlet
  have reader := wired.pumpOn?_eq_some.2 ⟨p, here, rfl⟩
  -- What is taken lists the queue before the pump, so a call that leaves the pump for the end of the
  -- queue does not move.
  have taken : ∀ k, (e.handOver p pump c).taken k = e.taken k := by
    intro k
    rw [taken, queued, heldBack, coordinators, pumps, Exchange.taken, queued, heldBack]
    by_cases same : k = pump.endpoint
    · subst same
      rw [if_pos rfl, if_pos rfl, before, reader]
      simp only [Option.map_some, Option.getD_some, Option.bind_some, held, Option.bind_none,
        Option.toList_none, List.append_nil]
      rw [fed.deliveries, Option.bind_some]
    · rw [if_neg same, if_neg same]
  have wired' : (e.handOver p pump c).Wired := by
    refine middle.putPump here' rfl rfl ?_
    intro job h
    cases h
  refine ⟨wired', ?_, taken⟩
  intro foreign
  exact Quiet.of_taken rfl (stored?_of_replaced before coordinators fed.store)
    (deaf_of_replaced before coordinators (fun _ => rfl) fun halted => fed.ended.trans halted) taken

/-- A pump that does not wait is quiet once it holds a call. -/
theorem forwards {p : Nat} {pump : Pump} {job : Job} {e' : Exchange}
    (here : e.pumps[p]? = some pump) (held : pump.held = some job)
    (forwards : Forwards p pump job e e') (foreign : Delivery → Prop) :
    e'.Wired ∧ e.Quiet foreign e' := by
  cases forwards with
  | sent there fed =>
    obtain ⟨wired', quiet, -⟩ := wired.handOver here held there fed
    exact ⟨wired', quiet foreign⟩
  | @ends s c there fed halted =>
    have middle := wired.fed there fed
    have here' : (e.putCoordinator pump.station c).pumps[p]? = some pump := here
    have there' : (e.putCoordinator pump.station c).stations[pump.station]? =
        some { s with coordinator := c } := by
      rw [getElem?_putCoordinator, if_pos rfl, there]
      rfl
    obtain ⟨wired', quiet⟩ := middle.endPump here' there' (fed.ended.trans halted) foreign
    exact ⟨wired', (Quiet.fed wired there fed fun _ _ h => by cases h).trans quiet⟩

/-! ### Steps of pumps -/

/-- What taking a call out of an inbox does. -/
theorem hold {p : Nat} {pump : Pump} {job : Job} {envelope : Envelope} {net : Network}
    (here : e.pumps[p]? = some pump) (working : pump.finished = false) (idle : pump.held = none)
    (call : job.request = .rpc envelope.delivery)
    (taken : e.carriers.net.receive? pump.endpoint = some (envelope, net)) :
    (e.hold p pump job net).Wired ∧ e.Takes pump.endpoint envelope (e.hold p pump job net) := by
  have received := Network.received taken
  have middle := wired.withNet received.toFramed
  have here' : (e.withNet net).pumps[p]? = some pump := here
  have wired' : (e.hold p pump job net).Wired := by
    refine middle.putPump here' rfl rfl ?_
    intro j h
    obtain rfl := Option.some.inj h
    exact ⟨working, _, call⟩
  refine ⟨wired', received, fun _ => rfl, ?_⟩
  intro k
  have after : (e.hold p pump job net).pumpOn? k =
      if k = pump.endpoint then some { pump with held := some job } else e.pumpOn? k :=
    @pumpOn?_putPump _ middle p pump { pump with held := some job } here' rfl k
  have queue : (e.hold p pump job net).queued k = e.queued k := rfl
  rw [Exchange.taken, Exchange.taken, queue, heldBack, after, heldBack]
  by_cases same : k = pump.endpoint
  · subst same
    rw [if_pos rfl, if_pos rfl, wired.pumpOn?_eq_some.2 ⟨p, here, rfl⟩]
    simp only [Option.bind_some, idle, Option.bind_none, Job.delivery?_eq_some.2 call,
      Option.toList_some, Option.toList_none, List.append_nil]
  · rw [if_neg same, if_neg same, List.append_nil]

/-- A pump's step: it takes a call unless it holds one, and then hands it over, waits, or ends. -/
theorem pumpStep?_cases {p : Nat} {e' : Exchange} (step : e.pumpStep? p = some e') :
    ∃ pump, e.pumps[p]? = some pump ∧ pump.finished = false ∧
      ((∃ job, pump.held = some job ∧ Forwards p pump job e e') ∨
        ∃ envelope net job, pump.held = none ∧ job.request = .rpc envelope.delivery ∧
          e.carriers.net.receive? pump.endpoint = some (envelope, net) ∧
          (Forwards p { pump with held := some job } job (e.hold p pump job net) e' ∨
            ∃ s c, e.stations[pump.station]? = some s ∧ s.coordinator.Fed c none ∧
              e' = (e.hold p pump job net).putCoordinator pump.station c)) := by
  obtain ⟨pump, here, working, kind⟩ := pumpStep_of_pumpStep? step
  obtain ⟨s, there, outlet⟩ := wired.pumpStation here
  have tidy := (wired.tidy there).1
  refine ⟨pump, here, working, ?_⟩
  cases kind with
  | @retries job held goes =>
    left
    refine ⟨job, held, ?_⟩
    rw [resume_of_station there] at goes ⊢
    have fed := s.coordinator.fed_resume job
    cases outcome : (s.coordinator.resume job).2 with
    | sent =>
      rw [outcome] at fed
      exact .sent there fed
    | waiting => exact absurd outcome goes
    | refused =>
      rw [outcome] at fed
      exact .ends there fed (Coordinator.ended_of_resume_refused tidy outcome)
  | @takes envelope net e₁ job sending idle taken made =>
    -- Taking a call and handing it over is one step; in between, the pump may be said to hold it.
    right
    have there' : (e.withNet net).stations[pump.station]? = some s := there
    have fed := s.coordinator.fed_submit (.rpc envelope.delivery)
    rw [submit_of_station there'] at made
    cases made
    let job := (s.coordinator.submit (.rpc envelope.delivery)).2.1
    refine ⟨envelope, net, job, idle, rfl, taken, ?_⟩
    cases outcome : (s.coordinator.submit (.rpc envelope.delivery)).2.2 with
    | sent =>
      left
      rw [outcome] at fed
      rw [afterHandOver_sent]
      exact .sent there' fed
    | waiting =>
      right
      rw [outcome] at fed
      exact ⟨s, _, there, fed, rfl⟩
    | refused =>
      left
      rw [outcome] at fed
      rw [afterHandOver_refused here working]
      exact .ends there' fed (Coordinator.ended_of_submit_refused tidy outcome)
  | @loses envelope net idle taken nobody =>
    have there' : (e.withNet net).stations[pump.station]? = some s := there
    rw [submit_of_station there'] at nobody
    cases nobody
  | retires idle nothing replaced =>
    obtain ⟨self, present⟩ := wired.present_of_pump here
    have home := wired.home (Network.peerAt?_of_present present)
    simp [Network.isReplaced, present, home] at replaced

/-! ### Steps of coordinators -/

/-- A coordinator's step: it is its end, or it handles a job. -/
theorem stationStep?_cases {i : Nat} {e' : Exchange} (step : e.stationStep? i = some e') :
    ∃ s k, e.stations[i]? = some s ∧ s.outlet = .endpoint k ∧ s.coordinator.ended = false ∧
      ((e.upcoming? i = none ∧ e' = e.putCoordinator i s.coordinator.close) ∨
        ∃ job lane c', e.upcoming? i = some job ∧ s.coordinator.Served c' job lane ∧
          e' = (e.putCoordinator i c').withNet
            (e.carriers.net.carry k (s.coordinator.store.react job.request).publication)) := by
  obtain ⟨s, here, running, closing | ⟨job, lane, c', next, served, rfl⟩⟩ :=
    stationStep?_eq_some step
  · obtain ⟨k, -, outlet, -⟩ := wired.station here
    exact ⟨s, k, here, outlet, running, Or.inl closing⟩
  · obtain ⟨k, -, outlet, -⟩ := wired.station here
    refine ⟨s, k, here, outlet, running, Or.inr ⟨job, lane, c', next, served, ?_⟩⟩
    have carried : Coordinator.carry (Carriers.publish s.outlet) e.carriers
        (s.coordinator.store.react job.request).publication = { e.carriers with
          net := e.carriers.net.carry k (s.coordinator.store.react job.request).publication } := by
      rw [outlet, ← Network.net_carry]
      exact Network.carry_endpoint _ _ _
    rw [carried]
    rfl

/-- What handling a job does. -/
theorem handles {i k : Nat} {s : Station} {c' : Coordinator} {job : Job} {lane : Lane}
    (here : e.stations[i]? = some s) (outlet : s.outlet = .endpoint k)
    (running : s.coordinator.ended = false) (served : s.coordinator.Served c' job lane) :
    let e' := (e.putCoordinator i c').withNet
      (e.carriers.net.carry k (s.coordinator.store.react job.request).publication)
    e'.Wired ∧ e.Handles k s.coordinator c' job lane e' := by
  obtain ⟨tidy, unlimited⟩ := wired.tidy here
  have limit : c'.store.limit = none := by rw [served.store, Store.limit_react, unlimited]
  have middle := wired.putCoordinator here (tidy.served served) limit fun halted =>
    served.ended.trans halted
  refine ⟨middle.withNet (Network.framed_carry _ _ _), ?_⟩
  exact ⟨wired.coordinatorOn?_of_station here outlet, running, served,
    wired.coordinatorOn?_putCoordinator here outlet c', fun _ => rfl, rfl⟩

end Wired

/-! ### Other actions -/

/-- The calls that an action may bring to a coordinator past all pumps. -/
def Foreign (e : Exchange) (action : Action) (d : Delivery) : Prop :=
  (∃ i, action = .request i (.rpc d)) ∨ ∃ call ∈ e.calls, call.job.request = .rpc d

namespace Wired

variable {e : Exchange} (wired : e.Wired)

include wired

/-- A request's first attempt is quiet. -/
theorem call (i : Nat) (request : Request) :
    (e.call i request).1.Wired ∧ e.Quiet (fun d => request = .rpc d) (e.call i request).1 := by
  cases here : e.stations[i]? with
  | none =>
    simp only [Exchange.call, submit, here]
    exact ⟨wired.withCalls _, Quiet.of_eq rfl rfl rfl⟩
  | some s =>
    simp only [Exchange.call, submit, here, setStation_eq here]
    have fed := s.coordinator.fed_submit request
    refine ⟨(wired.fed here fed).withCalls _, (Quiet.fed wired here fed ?_).trans
      (Quiet.of_eq rfl rfl rfl)⟩
    intro job d entered call
    split at entered
    · cases entered
      exact call
    · cases entered

/-- A request's later attempts are quiet. -/
theorem pollCall (number : Nat) :
    (e.pollCall number).1.Wired ∧
      e.Quiet (fun d => ∃ call ∈ e.calls, call.job.request = .rpc d) (e.pollCall number).1 := by
  cases made : e.calls[number]? with
  | none =>
    simp only [Exchange.pollCall, made]
    exact ⟨wired, Quiet.refl _ e⟩
  | some call =>
    simp only [Exchange.pollCall, made]
    suffices advanced : (e.advance call).1.Wired ∧
        e.Quiet (fun d => ∃ call ∈ e.calls, call.job.request = .rpc d) (e.advance call).1 from
      ⟨advanced.1.withCalls _, advanced.2.trans (Quiet.of_eq rfl rfl rfl)⟩
    unfold advance
    split
    · exact ⟨wired, Quiet.refl _ e⟩
    · exact ⟨wired, Quiet.refl _ e⟩
    · cases here : e.stations[call.station]? with
      | none =>
        simp only [resume, here]
        exact ⟨wired, Quiet.refl _ e⟩
      | some s =>
        simp only [resume, here, setStation_eq here]
        have fed := s.coordinator.fed_resume call.job
        refine ⟨wired.fed here fed, Quiet.fed wired here fed ?_⟩
        intro job d entered asks
        split at entered
        · obtain rfl := Option.some.inj entered
          exact ⟨call, List.mem_of_getElem? made, asks⟩
        · cases entered
    · split
      · exact ⟨wired, Quiet.refl _ e⟩
      · split <;> exact ⟨wired, Quiet.refl _ e⟩

/-- Changing a coordinator as a sender may that sends nothing is quiet. -/
theorem modifyCoordinator (foreign : Delivery → Prop) (i : Nat) {change : Coordinator → Coordinator}
    (still : ∀ c : Coordinator, c.Fed (change c) none) :
    (e.modifyCoordinator i change).Wired ∧ e.Quiet foreign (e.modifyCoordinator i change) := by
  cases here : e.stations[i]? with
  | none =>
    have same : e.modifyCoordinator i change = e := by
      rw [Exchange.modifyCoordinator, List.modify_eq_self (List.getElem?_eq_none_iff.1 here)]
    rw [same]
    exact ⟨wired, Quiet.refl foreign e⟩
  | some s =>
    rw [modifyCoordinator_eq here]
    exact ⟨wired.fed here (still _), Quiet.fed wired here (still _) fun _ _ h => by cases h⟩

/-- Giving a request up is quiet. -/
theorem abandon (foreign : Delivery → Prop) (number : Nat) :
    (e.abandon number).Wired ∧ e.Quiet foreign (e.abandon number) := by
  cases made : e.calls[number]? with
  | none =>
    simp only [Exchange.abandon, made]
    exact ⟨wired, Quiet.refl foreign e⟩
  | some call =>
    simp only [Exchange.abandon, made]
    have withdrawn := wired.modifyCoordinator foreign call.station fun c =>
      c.fed_withdraw call.job
    split
    · split
      · exact ⟨withdrawn.1.withCalls _, withdrawn.2.trans (Quiet.of_eq rfl rfl rfl)⟩
      · exact ⟨wired.withCalls _, Quiet.of_eq rfl rfl rfl⟩
    · split
      · exact withdrawn
      · exact ⟨wired, Quiet.refl foreign e⟩

/-- The end of a participant's coordinator is quiet. -/
theorem endStation (foreign : Delivery → Prop) {n : Nat} {site : Site}
    (at_n : e.sites[n]? = some site) :
    (e.endStation site.station).Wired ∧ e.Quiet foreign (e.endStation site.station) ∧
      (e.endStation site.station).sites = e.sites ∧
      ∀ i, site.station = some i → ∃ s, (e.endStation site.station).stations[i]? = some s ∧
        s.coordinator.ended = true := by
  cases has : site.station with
  | none =>
    refine ⟨wired, Quiet.refl foreign e, rfl, ?_⟩
    intro i h
    cases h
  | some i =>
    obtain ⟨s, there, -⟩ := wired.siteStation at_n has
    rw [Exchange.endStation, modifyCoordinator_eq there]
    refine ⟨wired.closeCoordinator there, Quiet.closeCoordinator wired there, rfl, ?_⟩
    intro j h
    obtain rfl := Option.some.inj h
    refine ⟨{ s with coordinator := s.coordinator.close }, ?_, rfl⟩
    rw [getElem?_putCoordinator, if_pos rfl, there]
    rfl

/-- The end of a participant's pump is quiet when its coordinator has ended. -/
theorem endReader (foreign : Delivery → Prop) {n : Nat} {site : Site}
    (at_n : e.sites[n]? = some site)
    (halted : ∀ i, site.station = some i → ∃ s, e.stations[i]? = some s ∧
      s.coordinator.ended = true) :
    (e.endReader site.pump).Wired ∧ e.Quiet foreign (e.endReader site.pump) ∧
      (e.endReader site.pump).sites = e.sites ∧
      (e.endReader site.pump).stations = e.stations := by
  cases has : site.pump with
  | none => exact ⟨wired, Quiet.refl foreign e, rfl, rfl⟩
  | some p =>
    obtain ⟨-, a, there, at_a⟩ := wired.reads at_n has
    obtain ⟨site', at_n', -, serves⟩ := wired.pump there
    rw [at_a, at_n] at at_n'
    obtain rfl := Option.some.inj at_n'
    obtain ⟨s, station, ended⟩ := halted _ serves
    obtain ⟨wired', quiet⟩ := wired.endPump there station ended foreign
    exact ⟨wired', quiet, sites_endPump e p, stations_endPump e p⟩

/-- A participant whose coordinator has ended, if it had one, gives up its transport. -/
theorem releaseOutlet (foreign : Delivery → Prop) {n : Nat} {site : Site}
    (at_n : e.sites[n]? = some site) (left : site.handle = false ∧ site.present = false)
    (halted : ∀ i, site.station = some i → ∃ s, e.stations[i]? = some s ∧
      s.coordinator.ended = true) :
    (e.releaseOutlet (.endpoint n)).Wired ∧ e.Quiet foreign (e.releaseOutlet (.endpoint n)) := by
  rw [Exchange.releaseOutlet]
  split
  · exact ⟨wired, Quiet.refl foreign e⟩
  · have place := wired.places n
    rw [at_n, Option.isSome_some, Network.peerAt?, Option.isSome_map] at place
    obtain ⟨self, present⟩ := Option.isSome_iff_exists.1 place.symm
    refine ⟨wired.close present ?_, Quiet.close e present⟩
    intro site' at_n'
    rw [at_n] at at_n'
    obtain rfl := Option.some.inj at_n'
    cases has : site.station with
    | none => exact Or.inr ⟨rfl, left.2⟩
    | some i =>
      obtain ⟨s, station, ended⟩ := halted i has
      exact Or.inl ⟨i, s, rfl, station, ended⟩

/-- Leaving is quiet. -/
theorem leave (foreign : Delivery → Prop) {n : Nat} {site : Site}
    (here : e.presentSite? n = some site) :
    (e.leave n).Wired ∧ e.Quiet foreign (e.leave n) := by
  obtain ⟨at_n, -⟩ := Option.filter_eq_some_iff.1 here
  -- Leaving takes four steps: the coordinator ends, then the pump, the handle is given up, and last
  -- the transport.
  obtain ⟨wired₁, quiet₁, sites₁, halted⟩ := wired.endStation foreign at_n
  obtain ⟨wired₂, quiet₂, sites₂, stations₂⟩ :=
    wired₁.endReader foreign (sites₁ ▸ at_n) halted
  let drained := (e.endStation site.station).endReader site.pump
  let gone := drained.modifySite n fun s => { s with handle := false, present := false }
  have wired₃ : gone.Wired :=
    wired₂.modifySite n (fun _ => rfl) (fun _ => rfl) (fun _ => rfl) fun _ _ => rfl
  have quiet₃ : e.Quiet foreign gone :=
    (quiet₁.trans quiet₂).trans (Quiet.of_eq rfl rfl rfl)
  have at_n₃ : gone.sites[n]? = some { site with handle := false, present := false } := by
    change (drained.sites.modify n _)[n]? = _
    rw [List.getElem?_modify, show drained.sites[n]? = some site by rw [sites₂, sites₁, at_n]]
    simp
  have halted₃ : ∀ i, site.station = some i → ∃ s, gone.stations[i]? = some s ∧
      s.coordinator.ended = true := by
    intro i has
    obtain ⟨s, station, ended⟩ := halted i has
    exact ⟨s, (congrArg (·[i]?) stations₂).trans station, ended⟩
  obtain ⟨wired₄, quiet₄⟩ := wired₃.releaseOutlet foreign at_n₃ ⟨rfl, rfl⟩ halted₃
  have result : e.leave n = gone.releaseOutlet (.endpoint n) := by
    rw [Exchange.leave, at_n]
    simp only [wired.outlet at_n]
    rfl
  rw [result]
  exact ⟨wired₄, quiet₃.trans quiet₄⟩

/-- Every orderly action that is not a step of a pump or of a coordinator is quiet. -/
theorem act {action : Action} {e' : Exchange} (orderly : e.Orderly action)
    (acts : e.act? action = some e') (no_pump : ∀ p, action ≠ .pump p)
    (no_service : ∀ i, action ≠ .serve i) : e'.Wired ∧ e.Quiet (e.Foreign action) e' := by
  cases action with
  | join peer =>
    obtain rfl := Option.some.inj acts
    exact ⟨wired.join orderly, Quiet.join e orderly⟩
  | record peer => exact orderly.elim
  | share site => exact orderly.elim
  | transmit site publication => exact orderly.elim
  | pump p => exact absurd rfl (no_pump p)
  | serve i => exact absurd rfl (no_service i)
  | attach n config =>
    obtain ⟨site, here, rfl⟩ := Option.map_eq_some_iff.1 acts
    have at_n := site_of_presentSite? here
    have bare := orderly.1 site at_n
    refine ⟨wired.attach here bare orderly.2, ?_⟩
    simp only [Exchange.attach, at_n, bare, Exchange.endStation, wired.outlet at_n]
    exact (Quiet.addStation e config).trans (Quiet.of_eq rfl rfl rfl)
  | openPump n =>
    obtain ⟨site, i, number, at_n, has, opened⟩ := openPump_of_act? acts
    refine ⟨wired.openPump at_n has opened, ?_⟩
    obtain ⟨self, present, unread, rfl⟩ := wired.openPump_eq at_n has opened
    exact ((Quiet.addPump e n i).trans (Quiet.readInbox _ present unread)).trans
      (Quiet.of_eq rfl rfl rfl)
  | connect a b =>
    obtain ⟨net, made, rfl⟩ := connect_of_act? acts
    exact ⟨wired.connect made, Quiet.connect made⟩
  | request i request =>
    obtain rfl := Option.some.inj acts
    obtain ⟨wired', quiet⟩ := wired.call i request
    exact ⟨wired', quiet.imp fun d h => Or.inl ⟨i, by rw [h]⟩⟩
  | poll number =>
    obtain rfl := Option.some.inj acts
    obtain ⟨wired', quiet⟩ := wired.pollCall number
    exact ⟨wired', quiet.imp fun d h => Or.inr h⟩
  | abandon number =>
    obtain rfl := Option.some.inj acts
    exact wired.abandon _ number
  | askStop n =>
    obtain rfl := Option.some.inj acts
    rw [Exchange.askStop]
    split
    · exact wired.modifyCoordinator _ _ Coordinator.fed_askStop
    · exact ⟨wired, Quiet.refl _ e⟩
  | dropHandle n =>
    obtain rfl := Option.some.inj acts
    exact ⟨wired.modifySite n (fun _ => rfl) (fun _ => rfl) (fun _ => rfl) fun _ h => h,
      Quiet.of_eq rfl rfl rfl⟩
  | leave n =>
    obtain ⟨site, here, rfl⟩ := Option.map_eq_some_iff.1 acts
    exact wired.leave _ here

end Wired

/-! ### All actions -/

/-- What an orderly action does. -/
inductive Effect (e : Exchange) (action : Action) (e' : Exchange) : Prop
  | quiet (quiet : e.Quiet (e.Foreign action) e')
      (silent : ∀ (h : History) posting, posting ∈ (h.after e action e').posted →
        posting ∈ h.posted) : Effect e action e'
  | takes {k : Nat} {envelope : Envelope} {held : Exchange} (wired : held.Wired)
      (takes : e.Takes k envelope held) (quiet : held.Quiet (fun _ => False) e')
      (silent : ∀ (h : History) posting, posting ∈ (h.after e action e').posted →
        posting ∈ h.posted) : Effect e action e'
  | handles {i k : Nat} {s : Station} {job : Job} {lane : Lane} {c' : Coordinator}
      (serves : action = .serve i) (here : e.stations[i]? = some s)
      (outlet : s.outlet = .endpoint k) (next : e.upcoming? i = some job)
      (handles : e.Handles k s.coordinator c' job lane e') : Effect e action e'

/-- An action that is neither a service nor a transmission sends nothing. -/
theorem silent_of_source? {e e' : Exchange} {action : Action} (none : e.source? action = none)
    (h : History) (posting : Posting) (member : posting ∈ (h.after e action e').posted) :
    posting ∈ h.posted := by
  rcases mem_posted_after.1 member with before | ⟨source, -⟩
  · exact before
  · rw [none] at source
    cases source

/-- What an orderly action does, and that it keeps an exchange wired. -/
theorem Wired.effect {e e' : Exchange} {action : Action} (wired : e.Wired)
    (orderly : e.Orderly action) (acts : e.act? action = some e') :
    e'.Wired ∧ Effect e action e' := by
  -- Only pumps and coordinators do something that is not quiet.
  by_cases pumps : ∃ p, action = .pump p
  · obtain ⟨p, rfl⟩ := pumps
    obtain ⟨pump, here, working, ⟨job, held, forwards⟩ |
      ⟨envelope, net, job, idle, call, taken, rest⟩⟩ := wired.pumpStep?_cases acts
    · obtain ⟨wired', quiet⟩ := wired.forwards here held forwards (e.Foreign (.pump p))
      exact ⟨wired', .quiet quiet (silent_of_source? rfl)⟩
    · obtain ⟨held_wired, takes⟩ := wired.hold here working idle call taken
      have here' : (e.hold p pump job net).pumps[p]? = some { pump with held := some job } :=
        List.getElem?_set_self (List.getElem?_eq_some_iff.1 here).1
      rcases rest with forwards | ⟨s, c, there, fed, rfl⟩
      · obtain ⟨wired', quiet⟩ := held_wired.forwards here' rfl forwards fun _ => False
        exact ⟨wired', .takes held_wired takes quiet (silent_of_source? rfl)⟩
      · have there' : (e.hold p pump job net).stations[pump.station]? = some s := there
        exact ⟨held_wired.fed there' fed, .takes held_wired takes
          (Quiet.fed held_wired there' fed fun _ _ h => by cases h) (silent_of_source? rfl)⟩
  by_cases services : ∃ i, action = .serve i
  · obtain ⟨i, rfl⟩ := services
    obtain ⟨s, k, here, outlet, running, ⟨-, rfl⟩ | ⟨job, lane, c', next, served, rfl⟩⟩ :=
      wired.stationStep?_cases acts
    · refine ⟨wired.closeCoordinator here, .quiet (Quiet.closeCoordinator wired here) ?_⟩
      intro h posting member
      rcases mem_posted_after.1 member with before | ⟨-, arrived⟩
      · exact before
      · have none := e.carriers.net.arrivals_self posting.target
        rw [show (e.putCoordinator i s.coordinator.close).carriers.net = e.carriers.net from rfl,
          none] at arrived
        cases arrived
    · obtain ⟨wired', handles⟩ := wired.handles here outlet running served
      exact ⟨wired', .handles rfl here outlet next handles⟩
  · obtain ⟨wired', quiet⟩ := wired.act orderly acts (fun p h => pumps ⟨p, h⟩)
      fun i h => services ⟨i, h⟩
    refine ⟨wired', .quiet quiet (silent_of_source? ?_)⟩
    cases action with
    | serve i => exact absurd ⟨i, rfl⟩ services
    | transmit site publication => exact orderly.elim
    | _ => rfl

/-- Every state of an orderly run is wired. -/
theorem Run.wired {capacity : Nat} {h : History} {e : Exchange}
    {allowed : Exchange → Action → Prop} (run : Run allowed (.new capacity) h e)
    (orderly : ∀ e action, allowed e action → e.Orderly action) : e.Wired := by
  induction run with
  | start => exact Wired.new capacity
  | step run allow acts ih => exact (ih.effect (orderly _ _ allow) acts).1

end PartExchange.Exchange
