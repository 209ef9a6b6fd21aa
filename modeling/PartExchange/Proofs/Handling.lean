/-
**A handled job, seen from all endpoints.**

When a coordinator handles a job, its own store follows the reaction, the job leaves the calls on
their way to it, and what it publishes is what it stores afterwards; everywhere else calls arrive
and nothing more happens.  So nothing that was held or on its way is ever lost, except at deaf
endpoints.

Main definitions:

* `Exchange.Keeps`: a change after which everything is still held or on its way.

Main results:

* `Exchange.Handles.taken`, `Exchange.Handles.holding_le`, `Exchange.Handles.spreads`,
  `Exchange.Handles.stored?_published`: what handling a job does;
* `Exchange.Effect.keeps`: no orderly action loses anything.
-/

import PartExchange.Proofs.Effects

set_option relaxedAutoImplicit false
set_option autoImplicit false

namespace PartExchange.Exchange

/-! ### What a coordinator holds -/

section Coordinator

variable {e : Exchange} {k : Nat} {c : Coordinator} (works : e.coordinatorOn? k = some c)

include works

theorem stored?_of_coordinatorOn? (topic : Topic) (group : GroupId) :
    e.stored? k topic group = c.store.get? topic group := by
  rw [stored?, works, Option.bind_some]

theorem holding_of_coordinatorOn? (topic : Topic) (group : GroupId) :
    e.holding k topic group = c.store.available topic group := by
  rw [holding, stored?_of_coordinatorOn? works]
  cases held : c.store.get? topic group with
  | none => exact (Store.available_of_get?_none held).symm
  | some m => exact (Store.available_of_get? held).symm

theorem queued_of_coordinatorOn? : e.queued k = c.deliveries := by
  rw [queued, works]
  rfl

/-- A coordinator that works somewhere is tidy, and its store has no limit. -/
theorem Wired.tidy_of_coordinatorOn? (wired : e.Wired) :
    c.Tidy ∧ c.store.limit = none := by
  obtain ⟨s, found, rfl⟩ := Option.map_eq_some_iff.1 works
  obtain ⟨i, here, -⟩ := mem_of_stationOn? found
  exact wired.tidy here

end Coordinator

theorem holding_of_stored? {e : Exchange} {k : Nat} {topic : Topic} {group : GroupId} {m : Message}
    (held : e.stored? k topic group = some m) : e.holding k topic group = m.available := by
  rw [holding, held]
  rfl

/-- An endpoint at which something is stored or waits has a peer. -/
theorem Wired.peerAt?_of_coordinatorOn? {e : Exchange} (wired : e.Wired) {k : Nat} {c : Coordinator}
    (works : e.coordinatorOn? k = some c) : ∃ self, e.carriers.net.peerAt? k = some self := by
  obtain ⟨s, found, rfl⟩ := Option.map_eq_some_iff.1 works
  obtain ⟨i, here, outlet⟩ := mem_of_stationOn? found
  obtain ⟨k', site, outlet', at_k, -⟩ := wired.station here
  obtain rfl := Outlet.endpoint.inj (outlet'.symm.trans outlet)
  have place := wired.places k'
  rw [at_k, Option.isSome_some] at place
  exact Option.isSome_iff_exists.1 place.symm

/-- Where a coordinator works that has not ended, somebody listens. -/
theorem Wired.not_deaf {e : Exchange} (wired : e.Wired) {i k : Nat} {station : Station}
    (here : e.stations[i]? = some station) (outlet : station.outlet = .endpoint k)
    (running : station.coordinator.ended = false) : ¬ e.Deaf k := by
  rintro (shut | ⟨c, works, halted⟩)
  · -- The inbox of a participant with a coordinator is closed only after the coordinator's end.
    obtain ⟨_, site, outlet', at_k, has⟩ := wired.station here
    obtain rfl := Outlet.endpoint.inj (outlet'.symm.trans outlet)
    rcases wired.closed shut at_k with ⟨i', s, has', there, halted⟩ | ⟨none, -⟩
    · rw [has] at has'
      obtain rfl := Option.some.inj has'
      rw [here] at there
      obtain rfl := Option.some.inj there
      rw [running] at halted
      cases halted
    · rw [has] at none
      cases none
  · rw [wired.coordinatorOn?_of_station here outlet] at works
    obtain rfl := Option.some.inj works
    rw [running] at halted
    cases halted

/-! ### Taking a call -/

namespace Takes

variable {e e' : Exchange} {k : Nat} {envelope : Envelope} (takes : e.Takes k envelope e')

include takes

theorem stored? (j : Nat) (topic : Topic) (group : GroupId) :
    e'.stored? j topic group = e.stored? j topic group := by
  rw [Exchange.stored?, takes.coordinatorOn?, Exchange.stored?]

theorem holding (j : Nat) (topic : Topic) (group : GroupId) :
    e'.holding j topic group = e.holding j topic group := by
  rw [Exchange.holding, takes.stored?, Exchange.holding]

theorem deaf {j : Nat} : e'.Deaf j ↔ e.Deaf j := by
  rw [Deaf, takes.received.readingAt?, takes.coordinatorOn?, Deaf]

/-- Views only grow. -/
theorem view_le (j : Nat) (key : ViewKey) :
    e.carriers.net.view j key ≤ e'.carriers.net.view j key := by
  rw [takes.received.view]
  split
  · exact PartSet.le_union_left _ _
  · exact le_refl _

/-- Taking a call does not change what is on its way. -/
theorem transit (j : Nat) : e'.transit j = e.transit j := by
  rw [Exchange.transit, Exchange.transit, takes.taken]
  by_cases here : j = k
  · subst here
    rw [if_pos rfl, takes.received.head, List.map_cons, List.append_assoc, List.singleton_append]
  · rw [if_neg here, List.append_nil, takes.received.others j here]

end Takes

/-! ### Handling a job -/

namespace Handles

variable {e e' : Exchange} {k : Nat} {c c' : Coordinator} {job : Job} {lane : Lane}
  (handles : e.Handles k c c' job lane e')

include handles

theorem works : e'.coordinatorOn? k = some c' := by
  rw [handles.after, if_pos rfl]

theorem framed : e.carriers.net.Framed e'.carriers.net := by
  rw [handles.net]
  exact Network.framed_carry _ _ _

theorem stored?_other {j : Nat} (other : j ≠ k) (topic : Topic) (group : GroupId) :
    e'.stored? j topic group = e.stored? j topic group := by
  rw [Exchange.stored?, handles.after, if_neg other, Exchange.stored?]

theorem holding_other {j : Nat} (other : j ≠ k) (topic : Topic) (group : GroupId) :
    e'.holding j topic group = e.holding j topic group := by
  rw [Exchange.holding, handles.stored?_other other, Exchange.holding]

theorem stored?_self (topic : Topic) (group : GroupId) : e'.stored? k topic group =
    (c.store.react job.request).store.get? topic group := by
  rw [stored?_of_coordinatorOn? handles.works, handles.served.store]

theorem deaf {j : Nat} : e'.Deaf j ↔ e.Deaf j :=
  deaf_iff_of_replaced handles.before handles.after handles.framed.readingAt? handles.served.ended j

/-- Calls only arrive. -/
theorem inbox (j : Nat) : e'.carriers.net.inbox j =
    e.carriers.net.inbox j ++ e.carriers.net.arrivals e'.carriers.net j := by
  rw [handles.net]
  cases (c.store.react job.request).publication with
  | none => rw [Network.carry, Network.arrivals_self, List.append_nil]
  | some publication => exact (Network.spreads_carry _ _ publication).inbox j

/-- Views only grow. -/
theorem view_le (j : Nat) (key : ViewKey) :
    e.carriers.net.view j key ≤ e'.carriers.net.view j key := by
  rw [handles.net]
  cases (c.store.react job.request).publication with
  | none => exact le_refl _
  | some publication => exact (Network.spreads_carry _ _ publication).grows j key

/-- What is published spreads from the coordinator's endpoint. -/
theorem spreads {publication : Publication}
    (published : (c.store.react job.request).publication = some publication) :
    Network.Spreads k publication.topic publication.message
      (e.carriers.net.targets k publication.peers) e.carriers.net e'.carriers.net := by
  rw [handles.net, published]
  exact Network.spreads_carry _ _ publication

/-- Without a publication the network does not change. -/
theorem net_of_silent (silent : (c.store.react job.request).publication = none) :
    e'.carriers.net = e.carriers.net := by
  rw [handles.net, silent]
  rfl

/-- A call that has just arrived was published, and brings its receiver up to date as far as the
sender can see. -/
theorem arrival {j : Nat} {envelope : Envelope}
    (arrived : envelope ∈ e.carriers.net.arrivals e'.carriers.net j) :
    ∃ publication, (c.store.react job.request).publication = some publication ∧
      ∃ sender target known, e.carriers.net.peerAt? k = some sender ∧
        target ∈ e.carriers.net.targets k publication.peers ∧
        e.carriers.net.endpointOf? target = some j ∧
        envelope = ⟨sender, Rpc.update publication.topic publication.message known⟩ := by
  cases published : (c.store.react job.request).publication with
  | none =>
    rw [handles.net_of_silent published, Network.arrivals_self] at arrived
    cases arrived
  | some publication =>
    obtain ⟨sender, target, known, origin, listed, found, form, -⟩ :=
      (handles.spreads published).arrival j envelope arrived
    exact ⟨publication, rfl, sender, target, known, origin, listed, found, form⟩

/-- A call that has just arrived is on its way. -/
theorem mem_transit_of_arrival {j : Nat} {envelope : Envelope}
    (arrived : envelope ∈ e.carriers.net.arrivals e'.carriers.net j) :
    envelope.delivery ∈ e'.transit j := by
  rw [Exchange.transit, handles.inbox, List.map_append]
  exact List.mem_append_right _ (List.mem_append_right _ (List.mem_map_of_mem arrived))

section Wired

variable (wired : e.Wired)

include wired

/-- A handled call has been the oldest one of those that had been taken. -/
theorem taken (j : Nat) :
    e.taken j = (if j = k then job.delivery?.toList else []) ++ e'.taken j := by
  rw [Exchange.taken, Exchange.taken, heldBack, heldBack, handles.pumpOn?]
  by_cases here : j = k
  · subst here
    rw [if_pos rfl, queued_of_coordinatorOn? handles.before, queued_of_coordinatorOn? handles.works,
      handles.served.deliveries (wired.tidy_of_coordinatorOn? handles.before).1, List.append_assoc]
  · rw [if_neg here, List.nil_append, queued, queued, handles.after, if_neg here]

theorem transit (j : Nat) :
    e.transit j ++ (e.carriers.net.arrivals e'.carriers.net j).map Envelope.delivery =
      (if j = k then job.delivery?.toList else []) ++ e'.transit j := by
  rw [Exchange.transit, Exchange.transit, handles.taken wired, handles.inbox, List.map_append,
    List.append_assoc, List.append_assoc]

/-- What is held stays. -/
theorem holding_le (j : Nat) (topic : Topic) (group : GroupId) :
    e.holding j topic group ≤ e'.holding j topic group := by
  by_cases here : j = k
  · subst here
    rw [holding_of_coordinatorOn? handles.before, holding_of_coordinatorOn? handles.works,
      handles.served.store]
    exact Store.available_le_react (wired.tidy_of_coordinatorOn? handles.before).2 _ _ _
  · rw [handles.holding_other here]

/-- A message that is held may grow, but it does not go away. -/
theorem stored?_isSome {j : Nat} {topic : Topic} {group : GroupId}
    (held : (e.stored? j topic group).isSome = true) :
    (e'.stored? j topic group).isSome = true := by
  by_cases here : j = k
  · subst here
    rw [stored?_of_coordinatorOn? handles.before] at held
    obtain ⟨m, held⟩ := Option.isSome_iff_exists.1 held
    obtain ⟨m', after, -⟩ := @Store.get?_react_of_get? _
      (wired.tidy_of_coordinatorOn? handles.before).2 job.request _ _ _ held
    rw [handles.stored?_self, after]
    rfl
  · rwa [handles.stored?_other here]

/-- What a handled call carries is held afterwards. -/
theorem carried_le {d : Delivery} (call : job.delivery? = some d) :
    d.rpc.carried ≤ e'.holding k d.rpc.topic d.rpc.group := by
  rw [holding_of_coordinatorOn? handles.works, handles.served.store, Job.delivery?_eq_some.1 call]
  exact Store.carried_le_react (wired.tidy_of_coordinatorOn? handles.before).2 d

/-- What is published is what is stored afterwards. -/
theorem stored?_published {publication : Publication}
    (published : (c.store.react job.request).publication = some publication) :
    e'.stored? k publication.topic publication.message.group = some publication.message := by
  rw [handles.stored?_self]
  refine Store.get?_of_publication ?_ published
  rw [(wired.tidy_of_coordinatorOn? handles.before).2]
  exact (Option.some_ne_none 0).symm

end Wired

end Handles

/-! ### Nothing is lost -/

/-- A change after which everything that was held or on its way still is, except at deaf
endpoints. -/
structure Keeps (e e' : Exchange) : Prop where
  /-- Deaf endpoints stay deaf. -/
  deaf : ∀ {j}, e.Deaf j → e'.Deaf j
  /-- What is held stays. -/
  holding : ∀ j topic group, e.holding j topic group ≤ e'.holding j topic group
  /-- A call that was on its way still is, or its parts are held. -/
  transit : ∀ {j d}, d ∈ e.transit j →
    e'.Deaf j ∨ d ∈ e'.transit j ∨ d.rpc.carried ≤ e'.holding j d.rpc.topic d.rpc.group
  /-- Peers keep their endpoints. -/
  endpointOf? : ∀ {peer j}, e.carriers.net.endpointOf? peer = some j →
    e'.carriers.net.endpointOf? peer = some j

namespace Keeps

variable {e e' e'' : Exchange}

theorem trans (first : e.Keeps e') (second : e'.Keeps e'') : e.Keeps e'' where
  deaf h := second.deaf (first.deaf h)
  holding j topic group := (first.holding j topic group).trans (second.holding j topic group)
  transit member := by
    rcases first.transit member with deaf | there | held
    · exact Or.inl (second.deaf deaf)
    · exact second.transit there
    · exact Or.inr (Or.inr (held.trans (second.holding _ _ _)))
  endpointOf? h := second.endpointOf? (first.endpointOf? h)

theorem of_quiet {foreign : Delivery → Prop} (quiet : e.Quiet foreign e') : e.Keeps e' where
  deaf h := quiet.deaf h
  holding j topic group := by
    have same := quiet.stored? j topic group
    rw [Exchange.holding, ← same]
    exact le_refl _
  transit {j d} member := by
    rcases quiet.keeps j with deaf | kept
    · exact Or.inl deaf
    · rw [Exchange.transit, List.mem_append] at member
      rcases member with taken | arrived
      · exact Or.inr (Or.inl (List.mem_append_left _ (kept taken)))
      · rcases quiet.inbox j with same | ⟨deaf, -⟩
        · right
          left
          rw [Exchange.transit, same]
          exact List.mem_append_right _ arrived
        · exact Or.inl deaf
  endpointOf? h := quiet.endpointOf? h

theorem of_takes {k : Nat} {envelope : Envelope} (takes : e.Takes k envelope e') : e.Keeps e' where
  deaf h := takes.deaf.2 h
  holding j topic group := by rw [takes.holding]
  transit {j d} member := by
    rw [takes.transit]
    exact Or.inr (Or.inl member)
  endpointOf? h := by rw [takes.received.endpointOf?, h]

theorem of_handles {k : Nat} {c c' : Coordinator} {job : Job} {lane : Lane}
    (handles : e.Handles k c c' job lane e') (wired : e.Wired) : e.Keeps e' where
  deaf h := handles.deaf.2 h
  holding j topic group := handles.holding_le wired j topic group
  transit {j d} member := by
    have split : d ∈ (if j = k then job.delivery?.toList else []) ++ e'.transit j := by
      rw [← handles.transit wired]
      exact List.mem_append_left _ member
    rcases List.mem_append.1 split with handled | waits
    · -- The call that has been handled is the only one to go, and its parts are held now.
      split at handled
      · rename_i here
        subst here
        exact Or.inr (Or.inr (handles.carried_le wired (Option.mem_toList.1 handled)))
      · cases handled
    · exact Or.inr (Or.inl waits)
  endpointOf? h := by rw [handles.framed.endpointOf?, h]

end Keeps

/-- No orderly action loses anything. -/
theorem Effect.keeps {e e' : Exchange} {action : Action} (wired : e.Wired)
    (effect : Effect e action e') : e.Keeps e' := by
  cases effect with
  | quiet quiet silent => exact Keeps.of_quiet quiet
  | takes held_wired takes quiet silent =>
    exact (Keeps.of_takes takes).trans (Keeps.of_quiet quiet)
  | handles serves here outlet next handles => exact Keeps.of_handles handles wired

end PartExchange.Exchange
