/-
**The exchange dies out.**

A coordinator answers whoever announces something else than it holds, and the answer may be answered
in turn.  Still, without new requests, pumps and coordinators come to a halt.  An answer that carries
nothing new for its receiver goes to a peer that is believed to hold strictly more than the
coordinator that sends it; since views claim nothing that is not held or on its way, the receiver
will hold all of what is announced, and more, by the time it handles the answer.  What it sends then
announces strictly more again, and there are only eight parts.

Main definitions:

* `Exchange.Works`: a pump or a coordinator does something.

Main results:

* `Exchange.Handles.lower`, `Exchange.Wired.lower_of_pumpStep?`: what is still to come gets less;
* `Exchange.dies_out`: no infinite sequence of steps.
-/

import PartExchange.Proofs.Measure
import Mathlib.Algebra.BigOperators.Group.Finset.Piecewise

set_option relaxedAutoImplicit false
set_option autoImplicit false

namespace PartExchange.Exchange

open Finset

/-- A pump or a coordinator does something. -/
def Works (e e' : Exchange) : Prop :=
  (∃ p, e.pumpStep? p = some e') ∨ ∃ i, e.stationStep? i = some e'

/-! ### Another coordinator in place of one -/

section Replaced

variable {e e' : Exchange} {k : Nat} {c c' : Coordinator} (before : e.coordinatorOn? k = some c)
  (after : ∀ j, e'.coordinatorOn? j = if j = k then some c' else e.coordinatorOn? j)

include before after

/-- Everybody who works still does. -/
theorem any_running_of_replaced (ended : c'.ended = c.ended) (j : Nat) :
    (e'.coordinatorOn? j).any (!·.ended) = (e.coordinatorOn? j).any (!·.ended) := by
  rw [after]
  split
  · rename_i here
    rw [here, before, Option.any_some, Option.any_some, ended]
  · rfl

omit before in
theorem errandsAt_of_replaced (j : Nat) :
    e'.errandsAt j = if j = k then c'.errands else e.errandsAt j := by
  rw [errandsAt, after]
  split <;> rfl

end Replaced

theorem errandsAt_of_coordinatorOn? {e : Exchange} {k : Nat} {c : Coordinator}
    (works : e.coordinatorOn? k = some c) : e.errandsAt k = c.errands := by
  rw [errandsAt, works]
  rfl

/-! ### Less to move -/

/-- Less has to be moved if less has to be moved at one endpoint, and not more at the others. -/
theorem backlog_lt {scope : Scope} {e e' : Exchange} {k : Nat} (inside : k < scope.size)
    (less : e'.backlogAt k < e.backlogAt k)
    (others : ∀ j, j ≠ k → e'.backlogAt j = e.backlogAt j) :
    e'.backlog scope < e.backlog scope := by
  refine sum_lt_sum ?_ ⟨k, mem_range.2 inside, less⟩
  intro j _
  by_cases here : j = k
  · rw [here]
    exact less.le
  · exact (others j here).le

/-- Fewer work if somebody ends and nobody begins. -/
theorem alive_lt {scope : Scope} {e e' : Exchange} {k : Nat} (inside : k < scope.size)
    (less : e'.aliveAt k < e.aliveAt k) (others : ∀ j, j ≠ k → e'.aliveAt j ≤ e.aliveAt j) :
    e'.alive scope < e.alive scope := by
  refine sum_lt_sum ?_ ⟨k, mem_range.2 inside, less⟩
  intro j _
  by_cases here : j = k
  · rw [here]
    exact less.le
  · exact others j here

/-! ### Scopes -/

/-- A quiet change that brings no calls stays in scope. -/
theorem Quiet.within {scope : Scope} {e e' : Exchange} (quiet : e.Quiet (fun _ => False) e')
    (peers : ∀ k, e'.carriers.net.peerAt? k = e.carriers.net.peerAt? k)
    (errands : ∀ k, e'.errandsAt k ⊆ e.errandsAt k) (within : Within scope e) :
    Within scope e' where
  places there := within.places ((peers _).symm.trans there)
  calls {k d} waits := by
    refine @within.calls k d ?_
    rw [transit, List.mem_append] at waits
    rw [transit, List.mem_append]
    rcases waits with taken | arrived
    · exact Or.inl ((quiet.brings taken).resolve_right id)
    · rcases quiet.inbox k with same | ⟨-, emptied⟩
      · rw [same] at arrived
        exact Or.inr arrived
      · rw [emptied] at arrived
        cases arrived
  errands waits := within.errands (errands _ waits)

/-! ### Steps of pumps -/

/-- Taking a call out of an inbox is steady, and leaves less to move. -/
theorem Takes.steady {e e' : Exchange} {k : Nat} {envelope : Envelope}
    (takes : e.Takes k envelope e')
    (pumps : ∀ j, (e'.pumpOn? j).any (!·.finished) = (e.pumpOn? j).any (!·.finished)) :
    e.Steady e' where
  peerAt? := takes.received.peerAt?
  alive j := by rw [aliveAt, takes.coordinatorOn?, pumps, aliveAt]
  stored? := takes.stored?
  view := takes.view_le
  deaf _ := takes.deaf
  transit := takes.transit
  errands j := by rw [errandsAt, takes.coordinatorOn?, errandsAt]

theorem Takes.backlog_lt {scope : Scope} {e e' : Exchange} {k : Nat} {envelope : Envelope}
    (takes : e.Takes k envelope e') (inside : k < scope.size) :
    e'.backlog scope < e.backlog scope := by
  -- The call counts twice in the inbox and once in the pump.
  have held : ∀ j, (e'.heldBack j).length = (e.heldBack j).length + if j = k then 1 else 0 := by
    intro j
    have taken := congrArg List.length (takes.taken j)
    rw [Exchange.taken, Exchange.taken, queued, queued, takes.coordinatorOn?] at taken
    simp only [List.length_append] at taken
    by_cases here : j = k
    · rw [if_pos here, List.length_singleton] at taken
      rw [if_pos here]
      omega
    · rw [if_neg here, List.length_nil] at taken
      rw [if_neg here]
      omega
  refine Exchange.backlog_lt inside ?_ ?_
  · rw [backlogAt, backlogAt, held, if_pos rfl, takes.received.head, List.length_cons]
    omega
  · intro j other
    rw [backlogAt, backlogAt, held, if_neg other, takes.received.others j other, Nat.add_zero]

namespace Wired

variable {e : Exchange} (wired : e.Wired)

include wired

/-- The endpoint of a pump is in scope. -/
theorem pump_inside {scope : Scope} (within : Within scope e) {p : Nat} {pump : Pump}
    (here : e.pumps[p]? = some pump) : pump.endpoint < scope.size := by
  obtain ⟨self, present⟩ := wired.present_of_pump here
  exact (within.places (Network.peerAt?_of_present present)).1

/-- The other pumps work on while one takes a call or hands it over. -/
theorem any_working_putPump {p : Nat} {a b : Pump} (here : e.pumps[p]? = some a)
    (endpoint : b.endpoint = a.endpoint) (finished : b.finished = a.finished) (j : Nat) :
    ((e.putPump p b).pumpOn? j).any (!·.finished) = (e.pumpOn? j).any (!·.finished) := by
  rw [wired.pumpOn?_putPump here endpoint]
  split
  · rename_i same
    rw [same, wired.pumpOn?_eq_some.2 ⟨p, here, rfl⟩, Option.any_some, Option.any_some, finished]
  · rfl

/-- Handing a call over is steady, and leaves less to move. -/
theorem steady_handOver {p : Nat} {pump : Pump} {job : Job} {s : Station} {c : Coordinator}
    (here : e.pumps[p]? = some pump) (held : pump.held = some job)
    (there : e.stations[pump.station]? = some s) (fed : s.coordinator.Fed c (some job)) :
    e.Steady (e.handOver p pump c) ∧ ∀ {scope}, Within scope e →
      (e.handOver p pump c).backlog scope < e.backlog scope := by
  have outlet := wired.outlet_of_pump here there
  obtain ⟨-, quiet, taken⟩ := wired.handOver here held there fed
  obtain ⟨-, d, call⟩ := wired.held here held
  have before := wired.coordinatorOn?_of_station there outlet
  have after : ∀ j, (e.handOver p pump c).coordinatorOn? j =
      if j = pump.endpoint then some c else e.coordinatorOn? j :=
    wired.coordinatorOn?_putCoordinator there outlet c
  have pumps : ∀ j, (e.handOver p pump c).pumpOn? j =
      if j = pump.endpoint then some { pump with held := none } else e.pumpOn? j :=
    @pumpOn?_putPump e wired p pump { pump with held := none } here rfl
  have reader := wired.pumpOn?_eq_some.2 ⟨p, here, rfl⟩
  have errands : c.errands = s.coordinator.errands := by
    apply fed.errands
    intro entering entered
    obtain rfl := Option.some.inj entered
    rw [call]
    rfl
  have inbox : (e.handOver p pump c).carriers.net = e.carriers.net := rfl
  constructor
  · refine ⟨fun _ => rfl, ?_, (quiet fun _ => False).stored?, fun _ _ => le_refl _,
      deaf_iff_of_replaced before after (fun _ => rfl) fed.ended, ?_, ?_⟩
    · intro j
      have readers : ((e.handOver p pump c).pumpOn? j).any (!·.finished) =
          (e.pumpOn? j).any (!·.finished) :=
        @any_working_putPump e wired p pump { pump with held := none } here rfl rfl j
      rw [aliveAt, any_running_of_replaced before after fed.ended, readers, aliveAt]
    · intro j
      rw [transit, taken, inbox, transit]
    · intro j
      rw [errandsAt_of_replaced after, errands]
      split
      · rename_i same
        rw [same, errandsAt_of_coordinatorOn? before]
      · rfl
  · -- The pump has let go of the call, and no inbox has changed.
    intro scope within
    refine backlog_lt (wired.pump_inside within here) ?_ ?_
    · have load : job.delivery? = some d := Job.delivery?_eq_some.2 call
      rw [backlogAt, backlogAt, inbox, heldBack, heldBack, pumps, if_pos rfl, reader]
      simp [held, load]
    · intro j other
      rw [backlogAt, backlogAt, inbox, heldBack, heldBack, pumps, if_neg other]

/-- The end of a pump whose coordinator has ended. -/
theorem lower_of_ends {scope : Scope} (within : Within scope e) {p : Nat} {pump : Pump}
    {s : Station} {c : Coordinator} (here : e.pumps[p]? = some pump)
    (working : pump.finished = false) (there : e.stations[pump.station]? = some s)
    (fed : s.coordinator.Fed c none) (halted : s.coordinator.ended = true) :
    Within scope ((e.putCoordinator pump.station c).endPump p) ∧
      Lower (((e.putCoordinator pump.station c).endPump p).measure scope) (e.measure scope) := by
  have outlet := wired.outlet_of_pump here there
  let e' := (e.putCoordinator pump.station c).endPump p
  let ended : Pump := { pump with held := none, finished := true }
  have middle := wired.fed there fed
  have here' : (e.putCoordinator pump.station c).pumps[p]? = some pump := here
  have station : (e.putCoordinator pump.station c).stations[pump.station]? =
      some { s with coordinator := c } := by
    rw [getElem?_putCoordinator, if_pos rfl, there]
    rfl
  have result : e' = ((e.putCoordinator pump.station c).withNet
      (e.carriers.net.modify pump.endpoint Endpoint.close)).putPump p ended := by
    change (e.putCoordinator pump.station c).endPump p = _
    rw [Exchange.endPump, here']
    simp only [working, Bool.false_eq_true, if_false]
    rfl
  have quiet : e.Quiet (fun _ => False) e' := by
    refine (Quiet.fed wired there fed fun _ _ h => by cases h).trans ?_
    exact (middle.endPump here' station (fed.ended.trans halted) _).2
  have before := wired.coordinatorOn?_of_station there outlet
  have after : ∀ j, e'.coordinatorOn? j =
      if j = pump.endpoint then some c else e.coordinatorOn? j := by
    rw [result]
    exact wired.coordinatorOn?_putCoordinator there outlet c
  have pumps : ∀ j, e'.pumpOn? j = if j = pump.endpoint then some ended else e.pumpOn? j := by
    rw [result]
    exact @pumpOn?_putPump e wired p pump ended here rfl
  have errands : ∀ j, e'.errandsAt j = e.errandsAt j := by
    intro j
    rw [errandsAt_of_replaced after, fed.errands fun _ h => by cases h]
    split
    · rename_i same
      rw [same, errandsAt_of_coordinatorOn? before]
    · rfl
  refine ⟨quiet.within ?_ (fun j => (errands j).symm ▸ List.Subset.refl _) within, ?_⟩
  · intro j
    rw [result]
    exact @Network.peerAt?_modify e.carriers.net pump.endpoint Endpoint.close (fun _ => rfl) j
  · -- The call that the pump held is lost, but there is one pump less, and that counts more.
    refine lower_of_alive (alive_lt (wired.pump_inside within here) ?_ ?_)
    · change e'.aliveAt _ < _
      rw [aliveAt, aliveAt, any_running_of_replaced before after fed.ended, pumps, if_pos rfl,
        wired.pumpOn?_eq_some.2 ⟨p, here, rfl⟩]
      simp [ended, working]
    · intro j other
      change e'.aliveAt _ ≤ _
      rw [aliveAt, aliveAt, any_running_of_replaced before after fed.ended, pumps, if_neg other]

/-- A pump that does not wait. -/
theorem lower_of_forwards {scope : Scope} (within : Within scope e) {p : Nat} {pump : Pump}
    {job : Job} {e' : Exchange} (here : e.pumps[p]? = some pump) (held : pump.held = some job)
    (forwards : Forwards p pump job e e') :
    Within scope e' ∧ Lower (e'.measure scope) (e.measure scope) := by
  cases forwards with
  | sent there fed =>
    obtain ⟨steady, less⟩ := wired.steady_handOver here held there fed
    exact ⟨steady.within within, steady.lower scope (less within)⟩
  | ends there fed halted =>
    exact wired.lower_of_ends within here (wired.held here held).1 there fed halted

/-- An attempt to hand a call over that has to wait is steady. -/
theorem steady_fed {i : Nat} {s : Station} {c : Coordinator} (here : e.stations[i]? = some s)
    (fed : s.coordinator.Fed c none) : e.Steady (e.putCoordinator i c) := by
  obtain ⟨k, -, outlet, -⟩ := wired.station here
  have before := wired.coordinatorOn?_of_station here outlet
  have after := wired.coordinatorOn?_putCoordinator here outlet c
  have quiet : e.Quiet (fun _ => False) (e.putCoordinator i c) :=
    Quiet.fed wired here fed fun _ _ h => by cases h
  have queue : ∀ j, (e.putCoordinator i c).queued j = e.queued j := by
    intro j
    rw [queued, after]
    split
    · rename_i same
      rw [same, queued_of_coordinatorOn? before, Option.map_some, Option.getD_some, fed.deliveries]
      exact List.append_nil _
    · rfl
  refine ⟨fun _ => rfl, ?_, quiet.stored?, fun _ _ => le_refl _,
    deaf_iff_of_replaced before after (fun _ => rfl) fed.ended, ?_, ?_⟩
  · intro j
    rw [aliveAt, any_running_of_replaced before after fed.ended, aliveAt]
    rfl
  · intro j
    rw [transit, taken, queue, transit, taken]
    rfl
  · intro j
    rw [errandsAt_of_replaced after, fed.errands fun _ h => by cases h]
    split
    · rename_i same
      rw [same, errandsAt_of_coordinatorOn? before]
    · rfl

/-- A pump's step. -/
theorem lower_of_pumpStep? {scope : Scope} (within : Within scope e) {p : Nat} {e' : Exchange}
    (step : e.pumpStep? p = some e') :
    Within scope e' ∧ Lower (e'.measure scope) (e.measure scope) := by
  obtain ⟨pump, here, working, ⟨job, held, forwards⟩ |
    ⟨envelope, net, job, idle, call, taken, rest⟩⟩ := wired.pumpStep?_cases step
  · exact wired.lower_of_forwards within here held forwards
  · -- Taking a call and handing it over are two changes, and each leaves less to come.
    obtain ⟨held_wired, takes⟩ := wired.hold here working idle call taken
    have here' : (e.hold p pump job net).pumps[p]? = some { pump with held := some job } :=
      List.getElem?_set_self (List.getElem?_eq_some_iff.1 here).1
    have steady := takes.steady
      (@any_working_putPump e wired p pump { pump with held := some job } here rfl rfl)
    have less := takes.backlog_lt (wired.pump_inside within here)
    rcases rest with forwards | ⟨s, c, there, fed, rfl⟩
    · obtain ⟨within', lower⟩ :=
        held_wired.lower_of_forwards (steady.within within) here' rfl forwards
      exact ⟨within', lower.trans (steady.lower scope less)⟩
    · have there' : (e.hold p pump job net).stations[pump.station]? = some s := there
      have waits := steady.trans (held_wired.steady_fed there' fed)
      exact ⟨waits.within within, waits.lower scope less⟩

/-! ### Steps of coordinators -/

/-- The end of a coordinator. -/
theorem lower_of_close {scope : Scope} (within : Within scope e) {i k : Nat} {s : Station}
    (here : e.stations[i]? = some s) (outlet : s.outlet = .endpoint k)
    (running : s.coordinator.ended = false) :
    Within scope (e.putCoordinator i s.coordinator.close) ∧
      Lower ((e.putCoordinator i s.coordinator.close).measure scope) (e.measure scope) := by
  have before := wired.coordinatorOn?_of_station here outlet
  have after := wired.coordinatorOn?_putCoordinator here outlet s.coordinator.close
  have quiet : e.Quiet (fun _ => False) (e.putCoordinator i s.coordinator.close) :=
    Quiet.closeCoordinator wired here
  obtain ⟨self, there⟩ := wired.peerAt?_of_coordinatorOn? before
  have pumps : ∀ j, (e.putCoordinator i s.coordinator.close).pumpOn? j = e.pumpOn? j := fun _ => rfl
  constructor
  · refine quiet.within (fun _ => rfl) ?_ within
    intro j
    rw [errandsAt_of_replaced after]
    split
    · exact List.nil_subset _
    · exact List.Subset.refl _
  · refine lower_of_alive (alive_lt (within.places there).1 ?_ ?_)
    · rw [aliveAt, aliveAt, pumps, after, if_pos rfl, before]
      simp [Coordinator.close, running]
    · intro j other
      rw [aliveAt, aliveAt, pumps, after, if_neg other]

end Wired

/-- The calls that wait at an endpoint before and after a change that takes the first of them and
brings new ones. -/
def kept (e e' : Exchange) (j : Nat) : List Delivery :=
  e'.taken j ++ (e.carriers.net.inbox j).map Envelope.delivery

/-- The weights of what waits at an endpoint before and after such a change. -/
def keptLoad (e e' : Exchange) (j : Nat) : Multiset Nat :=
  (if e.Deaf j then 0 else (weights (e.holding j) (kept e e' j) : Multiset Nat)) +
    .replicate (e'.errandsAt j).length fullWeight

/-- The weights of the calls that such a change brings to an endpoint. -/
def newLoad (e e' : Exchange) (j : Nat) : Multiset Nat :=
  if e.Deaf j then 0 else
    (weights ((kept e e' j).foldl absorbed (e.holding j))
      ((e.carriers.net.arrivals e'.carriers.net j).map Envelope.delivery) : Multiset Nat)

namespace Handles

variable {e e' : Exchange} {k : Nat} {c c' : Coordinator} {job : Job} {lane : Lane}
  (handles : e.Handles k c c' job lane e')

include handles

theorem aliveAt (j : Nat) : e'.aliveAt j = e.aliveAt j := by
  rw [Exchange.aliveAt, any_running_of_replaced handles.before handles.after handles.served.ended,
    handles.pumpOn?, Exchange.aliveAt]

variable (wired : e.Wired)

include wired

theorem grows : e.Grows e' where
  stored? := handles.stored?_isSome wired
  holding := handles.holding_le wired
  view := handles.view_le

/-- A job that is not a call leaves the other jobs. -/
theorem errands_length (j : Nat) : (e.errandsAt j).length =
    (e'.errandsAt j).length + if j = k ∧ job.delivery? = none then 1 else 0 := by
  rw [errandsAt_of_replaced handles.after]
  by_cases here : j = k
  · have home : job.request.lane = lane :=
      (wired.tidy_of_coordinatorOn? handles.before).1.lane lane job handles.served.mem
    rw [if_pos here, here, errandsAt_of_coordinatorOn? handles.before, handles.served.errands]
    congr 1
    by_cases call : lane = .incoming
    · rw [if_pos call, if_neg]
      rintro ⟨-, none⟩
      exact Job.delivery?_eq_none_iff.1 none (home.trans call)
    · rw [if_neg call, if_pos ⟨rfl, Job.delivery?_eq_none_iff.2 (home.trans_ne call)⟩]
  · rw [if_neg here, if_neg fun h => here h.1, Nat.add_zero]

/-- What a handled job is about is in scope. -/
theorem subject_mem {scope : Scope} (within : Within scope e) :
    job.request.subject ∈ scope.subjects := by
  cases call : job.delivery? with
  | some d =>
    have waits : d ∈ e.taken k := by
      rw [handles.taken wired, if_pos rfl, call]
      exact List.mem_cons_self
    rw [Job.delivery?_eq_some.1 call]
    exact within.calls (List.mem_append_left _ waits)
  | none =>
    have home : job.request.lane = lane :=
      (wired.tidy_of_coordinatorOn? handles.before).1.lane lane job handles.served.mem
    have other : lane ≠ .incoming := home ▸ Job.delivery?_eq_none_iff.1 call
    refine within.errands (k := k) ?_
    rw [errandsAt_of_coordinatorOn? handles.before]
    exact Coordinator.mem_errands.2 ⟨lane, other, handles.served.mem⟩

/-- A handled job stays in scope. -/
theorem within {scope : Scope} (within : Within scope e) : Within scope e' where
  places there := within.places ((handles.framed.peerAt? _).symm.trans there)
  calls {j d} waits := by
    have split : d ∈ e.transit j ++
        (e.carriers.net.arrivals e'.carriers.net j).map Envelope.delivery := by
      rw [handles.transit wired]
      exact List.mem_append_right _ waits
    rcases List.mem_append.1 split with old | new
    · exact within.calls old
    · obtain ⟨envelope, arrived, rfl⟩ := List.mem_map.1 new
      obtain ⟨publication, published, sender, target, known, -, -, -, form⟩ :=
        handles.arrival arrived
      have about := Store.subject_of_publication published
      rw [form]
      change (publication.topic, publication.message.group) ∈ _
      rw [about]
      exact handles.subject_mem wired within
  errands {j other} waits := by
    rw [errandsAt_of_replaced handles.after] at waits
    split at waits
    · refine within.errands (k := k) ?_
      rw [errandsAt_of_coordinatorOn? handles.before]
      obtain ⟨lane', differs, member⟩ := Coordinator.mem_errands.1 waits
      exact Coordinator.mem_errands.2 ⟨lane', differs, handles.served.subset lane' member⟩
    · exact within.errands waits

theorem transit_before (j : Nat) :
    e.transit j = (if j = k then job.delivery?.toList else []) ++ kept e e' j := by
  rw [Exchange.transit, handles.taken wired, kept, List.append_assoc]

omit wired in
theorem transit_after (j : Nat) : e'.transit j =
    kept e e' j ++ (e.carriers.net.arrivals e'.carriers.net j).map Envelope.delivery := by
  rw [Exchange.transit, handles.inbox, List.map_append, kept, List.append_assoc]

section Settled

variable {scope : Scope} (within : Within scope e) (same : e'.lack scope = e.lack scope)

include within same

/-- If no less is lacking, then the group of the job is neither new nor larger, and nobody is
believed to hold more of it. -/
theorem settled :
    (((c.store.react job.request).store.get? job.request.subject.1 job.request.subject.2).isSome =
        true →
      (c.store.get? job.request.subject.1 job.request.subject.2).isSome = true) ∧
    c.store.available job.request.subject.1 job.request.subject.2 =
      (c.store.react job.request).store.available job.request.subject.1 job.request.subject.2 ∧
    ∀ peer ∈ scope.peers,
      e.carriers.net.view k ⟨peer, job.request.subject.1, job.request.subject.2⟩ =
        e'.carriers.net.view k ⟨peer, job.request.subject.1, job.request.subject.2⟩ := by
  obtain ⟨self, there⟩ := wired.peerAt?_of_coordinatorOn? handles.before
  obtain ⟨present, held, views⟩ := (handles.grows wired).settled same (within.places there).1
    (handles.subject_mem wired within)
  rw [handles.stored?_self, stored?_of_coordinatorOn? handles.before] at present
  rw [holding_of_coordinatorOn? handles.before, holding_of_coordinatorOn? handles.works,
    handles.served.store] at held
  exact ⟨present, held, views⟩

/-- Nothing new is held. -/
theorem holding_eq (j : Nat) : e'.holding j = e.holding j := by
  have unlimited := (wired.tidy_of_coordinatorOn? handles.before).2
  obtain ⟨present, held, -⟩ := handles.settled wired within same
  have still := Store.react_eq_of_settled unlimited present held
  funext topic group
  by_cases here : j = k
  · rw [here, holding_of_coordinatorOn? handles.works, handles.served.store, still,
      holding_of_coordinatorOn? handles.before]
  · exact handles.holding_other here topic group

/-- The handled call has brought nothing new. -/
theorem carried_known {d : Delivery} (call : job.delivery? = some d) :
    d.rpc.carried ≤ e.holding k d.rpc.topic d.rpc.group := by
  rw [← handles.holding_eq wired within same]
  exact handles.carried_le wired call

/-- The job is one of the things that waited. -/
theorem workloadAt_before (listens : ¬ e.Deaf k) (j : Nat) : e.workloadAt j =
    keptLoad e e' j + if j = k then {job.weight (e.holding k)} else 0 := by
  rw [workloadAt, handles.transit_before wired, handles.errands_length wired, keptLoad]
  by_cases here : j = k
  · subst here
    rw [if_pos rfl, if_pos rfl, if_neg listens, if_neg listens, Job.weight]
    cases call : job.delivery? with
    | none =>
      rw [if_pos ⟨rfl, rfl⟩, Option.toList_none, List.nil_append, Multiset.replicate_succ,
        Multiset.add_cons, add_comm _ {_}, Multiset.singleton_add]
    | some d =>
      -- The call brings nothing new, so those behind it weigh what they weighed without it.
      have known := handles.carried_known wired within same call
      rw [if_neg (by simp), Nat.add_zero, Option.toList_some, List.singleton_append, weights,
        absorbed_eq_self known, ← Multiset.cons_coe, Multiset.cons_add, add_comm _ {_},
        Multiset.singleton_add]
  · have other : ¬ (j = k ∧ job.delivery? = none) := fun h => here h.1
    rw [if_neg here, if_neg here, if_neg other, List.nil_append, Nat.add_zero, add_zero]

/-- Afterwards, the calls that have arrived wait. -/
theorem workloadAt_after (j : Nat) : e'.workloadAt j = keptLoad e e' j + newLoad e e' j := by
  rw [workloadAt, handles.transit_after, handles.holding_eq wired within same, weights_append,
    keptLoad, newLoad]
  by_cases deaf : e.Deaf j
  · rw [if_pos (handles.deaf.2 deaf), if_pos deaf, if_pos deaf, add_zero]
  · rw [if_neg (mt handles.deaf.1 deaf), if_neg deaf, if_neg deaf, ← Multiset.coe_add]
    exact add_right_comm _ _ _

/-- What is published lacks less than what the job announced, if the job announced only what is
held. -/
theorem lacking_lt_weight {publication : Publication}
    (published : (c.store.react job.request).publication = some publication) :
    publication.message.available.lacking + 1 < job.weight (e.holding k) := by
  have small : publication.message.available.lacking + 1 < fullWeight :=
    Nat.succ_lt_succ (Nat.lt_succ_of_le (PartSet.lacking_le _))
  rw [Job.weight]
  cases call : job.delivery? with
  | none => exact small
  | some d =>
    have request := Job.delivery?_eq_some.1 call
    simp only [Delivery.weight]
    cases states : d.rpc.announced? with
    | none => exact small
    | some announced =>
      dsimp only
      split
      · -- The answer differs from the announcement, which lies below it, so it lacks less.
        rename_i held
        have unlimited := (wired.tidy_of_coordinatorOn? handles.before).2
        obtain ⟨present, still, -⟩ := handles.settled wired within same
        have differs :=
          Store.differs_of_settled unlimited present still request published states
        have about := published
        rw [request] at about
        obtain ⟨topic, group, -⟩ := Store.publication_of_rpc about
        have stored := holding_of_stored? (handles.stored?_published wired published)
        rw [handles.holding_eq wired within same, topic, group] at stored
        rw [stored] at held
        exact Nat.succ_lt_succ (PartSet.lacking_strictAnti (lt_of_le_of_ne held differs))
      · exact small

/-- What is published to a peer that listens will be held there by the time the call is handled. -/
theorem le_expected {h : History} (sound : Sound h e) {j : Nat} (listens : ¬ e.Deaf j)
    {publication : Publication}
    (published : (c.store.react job.request).publication = some publication) {envelope : Envelope}
    (arrived : envelope ∈ e.carriers.net.arrivals e'.carriers.net j) :
    publication.message.available ≤ (kept e e' j).foldl absorbed (e.holding j) publication.topic
      publication.message.group := by
  obtain ⟨sender, target, known, origin, -, found, -, -, -, upTo⟩ :=
    (handles.spreads published).arrival j envelope arrived
  have views := (handles.settled wired within same).2.2 target
    (within.places (wired.registered found)).2
  rw [← Store.subject_of_publication published] at views
  intro index member
  -- The receiver is believed to hold the part already, so the part is held or on its way.
  have believed : (e.carriers.net.view k ⟨target, publication.topic,
      publication.message.group⟩).contains index = true := by
    rw [views]
    exact upTo index (PartSet.le_union_right _ _ index member)
  obtain ⟨j', found', accounted⟩ := sound.views origin believed
  obtain rfl := Option.some.inj (found.symm.trans found')
  rcases accounted with deaf | held | ⟨d, waits, -, topic, group, carries, -⟩
  · exact absurd deaf listens
  · exact le_foldl_absorbed _ _ _ index held
  · rw [handles.transit_before wired, List.mem_append] at waits
    rw [← topic, ← group]
    rcases waits with handled | waits
    · split at handled
      · rename_i here
        subst here
        refine le_foldl_absorbed _ _ _ index ?_
        exact handles.carried_known wired within same (Option.mem_toList.1 handled) index carries
      · cases handled
    · exact carried_le_foldl_absorbed waits index carries

/-- What arrives weighs less than the job. -/
theorem newLoad_lt {h : History} (sound : Sound h e) (j : Nat) :
    ∀ weight ∈ newLoad e e' j, weight < job.weight (e.holding k) := by
  intro weight member
  rw [newLoad] at member
  split at member
  · exact absurd member (Multiset.notMem_zero weight)
  · rename_i listens
    refine weights_lt ?_ weight (Multiset.mem_coe.1 member)
    intro d listed
    obtain ⟨envelope, arrived, rfl⟩ := List.mem_map.1 listed
    obtain ⟨publication, published, sender, target, known, -, -, -, form⟩ :=
      handles.arrival arrived
    refine ⟨publication.message.available, ?_, ?_,
      handles.lacking_lt_weight wired within same published⟩
    · rw [form]
      rfl
    · have expected := handles.le_expected wired within same sound listens published arrived
      rw [form]
      exact expected

/-- Instead of the job, lighter calls wait. -/
theorem workload_lt {h : History} (sound : Sound h e) (listens : ¬ e.Deaf k) :
    Multiset.IsDershowitzMannaLT (e'.workload scope) (e.workload scope) := by
  obtain ⟨self, there⟩ := wired.peerAt?_of_coordinatorOn? handles.before
  have inside := mem_range.2 (within.places there).1
  refine ⟨∑ j ∈ range scope.size, keptLoad e e' j, ∑ j ∈ range scope.size, newLoad e e' j,
    {job.weight (e.holding k)}, Multiset.singleton_ne_zero _, ?_, ?_, ?_⟩
  · rw [workload, ← sum_add_distrib]
    exact sum_congr rfl fun j _ => handles.workloadAt_after wired within same j
  · rw [workload, sum_congr rfl fun j _ => handles.workloadAt_before wired within same listens j,
      sum_add_distrib, sum_ite_eq', if_pos inside]
  · intro weight member
    obtain ⟨j, -, new⟩ := Multiset.mem_sum.1 member
    exact ⟨_, Multiset.mem_singleton_self _, handles.newLoad_lt wired within same sound j weight new⟩

end Settled

/-- A handled job leaves less to come. -/
theorem lower {h : History} {scope : Scope} (within : Within scope e) (sound : Sound h e)
    (listens : ¬ e.Deaf k) : Lower (e'.measure scope) (e.measure scope) :=
  lower_of_workload (sum_congr rfl fun j _ => handles.aliveAt j)
    ((handles.grows wired).lack_le scope)
    fun same => handles.workload_lt wired within same sound listens

end Handles

/-- A coordinator's step leaves less to come. -/
theorem Wired.lower_of_stationStep? {e e' : Exchange} (wired : e.Wired) {h : History}
    {scope : Scope} (within : Within scope e) (sound : Sound h e) {i : Nat}
    (step : e.stationStep? i = some e') :
    Within scope e' ∧ Lower (e'.measure scope) (e.measure scope) := by
  obtain ⟨s, k, here, outlet, running, ⟨-, rfl⟩ | ⟨job, lane, c', -, served, rfl⟩⟩ :=
    wired.stationStep?_cases step
  · exact wired.lower_of_close within here outlet running
  · obtain ⟨-, handles⟩ := wired.handles here outlet running served
    exact ⟨handles.within wired within,
      handles.lower wired within sound (wired.not_deaf here outlet running)⟩

/-! ### The end -/

section Reachable

variable {capacity : Nat} {h : History} {e : Exchange} (run : Run Orderly (.new capacity) h e)

include run

/-- What pumps and coordinators do goes on with a run, and leaves less to come. -/
theorem Works.lower {scope : Scope} (within : Within scope e) {e' : Exchange} (works : e.Works e') :
    (∃ h', Run Orderly (.new capacity) h' e') ∧ Within scope e' ∧
      Lower (e'.measure scope) (e.measure scope) := by
  have wired := run.wired fun _ _ orderly => orderly
  have sound := run.sound fun _ _ orderly => orderly
  rcases works with ⟨p, step⟩ | ⟨i, step⟩
  · have goes_on : Run Orderly (.new capacity) (h.after e (.pump p) e') e' :=
      run.step trivial step
    exact ⟨⟨_, goes_on⟩, wired.lower_of_pumpStep? within step⟩
  · have goes_on : Run Orderly (.new capacity) (h.after e (.serve i) e') e' :=
      run.step trivial step
    exact ⟨⟨_, goes_on⟩, wired.lower_of_stationStep? within sound step⟩

/-- Whatever is reached, what pumps and coordinators do from there is well-founded. -/
theorem Run.accessible : Acc (fun e' e => Works e e') e := by
  obtain ⟨scope, within⟩ := (run.wired fun _ _ orderly => orderly).exists_within
  suffices down : ∀ x h e, Run Orderly (.new capacity) h e → Within scope e → e.measure scope = x →
      Acc (fun e' e => Works e e') e from down _ h e run within rfl
  -- The induction is on the measure, for all states of the scope that have it.
  intro x
  induction x using lower_wf.induction with
  | _ x ih =>
    rintro h e run within rfl
    constructor
    intro e' works
    obtain ⟨⟨h', run'⟩, within', lower⟩ := Works.lower run within works
    exact ih _ lower h' e' run' within' rfl

/-- From every state of an orderly run, every sequence of steps of pumps and coordinators comes to an
end. -/
theorem dies_out (steps : Nat → Exchange) (start : steps 0 = e) :
    ∃ n, ¬ Works (steps n) (steps (n + 1)) := by
  have reached := run.accessible
  clear run
  induction reached generalizing steps with
  | intro e _ ih =>
    by_cases works : Works (steps 0) (steps 1)
    · obtain ⟨n, stops⟩ := ih (steps 1) (start ▸ works) (fun n => steps (n + 1)) rfl
      exact ⟨n + 1, stops⟩
    · exact ⟨0, works⟩

end Reachable

/-- The second peer's pump and then its coordinator have something to do with the greeting; a
sequence that begins with these steps comes to an end. -/
theorem greeting_dies_out :
    ∃ h e, ∃ steps : Nat → Exchange, Run Orderly (.new 4) h e ∧ steps 0 = e ∧
      Works (steps 0) (steps 1) ∧ Works (steps 1) (steps 2) ∧
        ∃ n, ¬ Works (steps n) (steps (n + 1)) := by
  have check : ((play? Orderly {} (.new 4) greeting).any fun r =>
      ((r.2.pumpStep? 1).bind (·.stationStep? 1)).isSome = true) = true := by
    decide +kernel
  obtain ⟨⟨h, e⟩, played, holds⟩ := (Option.any_eq_true _ _).1 check
  obtain ⟨e₂, both⟩ := Option.isSome_iff_exists.1 (of_decide_eq_true holds)
  obtain ⟨e₁, pumps, serves⟩ := Option.bind_eq_some_iff.1 both
  have run := Run.start.play played
  let steps : Nat → Exchange
    | 0 => e
    | 1 => e₁
    | _ => e₂
  exact ⟨h, e, steps, run, rfl, Or.inl ⟨1, pumps⟩, Or.inr ⟨1, serves⟩, dies_out run steps rfl⟩

end PartExchange.Exchange
