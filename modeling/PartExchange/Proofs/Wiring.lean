/-
**How the parts of an exchange are wired.**

In an orderly run each endpoint belongs to one participant, and at most one coordinator and one pump
work at it.  So one can speak of what an endpoint holds, what its coordinator still has to handle,
and what is on its way there.  An endpoint is deaf when its coordinator has ended or its inbox is
closed; it never gets its hearing back.

Main definitions:

* `Exchange.coordinatorOn?`, `Exchange.pumpOn?`: who works at an endpoint;
* `Exchange.stored?`, `Exchange.holding`: what is held there;
* `Exchange.taken`, `Exchange.transit`: the calls that have left the inbox for the coordinator, and
  these together with the ones in the inbox;
* `Exchange.Deaf`: nobody will handle what arrives;
* `Exchange.Wired`: how participants, endpoints, coordinators and pumps belong together.

Main results:

* `Exchange.coordinatorOn?_putCoordinator`, `Exchange.pumpOn?_putPump`: who works at an endpoint
  after a change;
* `Exchange.Wired.join`, `Exchange.Wired.attach`, `Exchange.Wired.openPump` and others: each part of
  an action keeps an exchange wired.
-/

import PartExchange.Proofs.Run

set_option relaxedAutoImplicit false
set_option autoImplicit false

namespace PartExchange

/-! ### Calls on their way -/

/-- The call that a job hands over, if it is a call from a peer. -/
def Job.delivery? (job : Job) : Option Delivery :=
  match job.request with
  | .rpc delivery => some delivery
  | _ => none

/-- The calls that wait in the queue of a coordinator. -/
def Coordinator.deliveries (c : Coordinator) : List Delivery :=
  c.incoming.items.filterMap Job.delivery?

theorem Job.delivery?_eq_some {job : Job} {delivery : Delivery} :
    job.delivery? = some delivery ↔ job.request = .rpc delivery := by
  unfold delivery?
  cases job.request <;> simp

theorem Job.delivery?_eq_none_iff {job : Job} :
    job.delivery? = none ↔ job.request.lane ≠ .incoming := by
  unfold delivery? Request.lane
  cases job.request <;> simp

/-- A job that enters the queue of a coordinator joins the calls there if it is a call. -/
theorem Coordinator.Fed.deliveries {c c' : Coordinator} {entered : Option Job}
    (fed : c.Fed c' entered) :
    c'.deliveries = c.deliveries ++ (entered.bind Job.delivery?).toList := by
  have items : c'.incoming.items = c.incoming.items ++
      (entered.filter (·.request.lane = .incoming)).toList := fed.items .incoming
  rw [Coordinator.deliveries, items, List.filterMap_append, Coordinator.deliveries]
  cases entered with
  | none => rfl
  | some job =>
    by_cases call : job.request.lane = .incoming
    · rw [Option.filter_some, if_pos (decide_eq_true call)]
      rw [Option.bind_some, Option.toList_some, List.filterMap_cons, List.filterMap_nil]
      cases job.delivery? <;> rfl
    · rw [Option.filter_some, if_neg (by simpa using call), Option.bind_some,
        Job.delivery?_eq_none_iff.2 call]
      rfl

/-- A job that has been served has left the calls of the coordinator if it was one. -/
theorem Coordinator.Served.deliveries {c c' : Coordinator} {job : Job} {lane : Lane}
    (served : c.Served c' job lane) (tidy : c.Tidy) :
    c.deliveries = job.delivery?.toList ++ c'.deliveries := by
  have home : job.request.lane = lane := tidy.lane lane job served.mem
  rw [Coordinator.deliveries, Coordinator.deliveries]
  cases call : job.delivery? with
  | none =>
    have other : Lane.incoming ≠ lane := by
      rw [← home]
      exact (Job.delivery?_eq_none_iff.1 call).symm
    have same : c'.incoming.items = c.incoming.items := served.others .incoming other
    rw [same]
    rfl
  | some delivery =>
    have here : lane = .incoming := by
      rw [← home, Job.delivery?_eq_some.1 call]
      rfl
    subst here
    have head : c.incoming.items = job :: c'.incoming.items := served.head
    rw [head, List.filterMap_cons, call]
    rfl

namespace Exchange

/-- The coordinator at an endpoint, with its transport. -/
def stationOn? (e : Exchange) (k : Nat) : Option Station :=
  e.stations.find? fun station => station.outlet = .endpoint k

/-- The coordinator at an endpoint. -/
def coordinatorOn? (e : Exchange) (k : Nat) : Option Coordinator :=
  (e.stationOn? k).map Station.coordinator

/-- The pump at an endpoint. -/
def pumpOn? (e : Exchange) (k : Nat) : Option Pump := e.pumps.find? fun pump => pump.endpoint = k

/-- The message of a group that is stored at an endpoint. -/
def stored? (e : Exchange) (k : Nat) (topic : Topic) (group : GroupId) : Option Message :=
  (e.coordinatorOn? k).bind fun c => c.store.get? topic group

/-- The parts of a group that are held at an endpoint. -/
def holding (e : Exchange) (k : Nat) (topic : Topic) (group : GroupId) : PartSet :=
  ((e.stored? k topic group).map Message.available).getD .empty

/-- The calls that wait in the queue of the coordinator at an endpoint. -/
def queued (e : Exchange) (k : Nat) : List Delivery :=
  ((e.coordinatorOn? k).map Coordinator.deliveries).getD []

/-- The call that the pump at an endpoint holds. -/
def heldBack (e : Exchange) (k : Nat) : List Delivery :=
  ((e.pumpOn? k).bind fun pump => pump.held.bind Job.delivery?).toList

/-- The calls that have left the inbox of an endpoint and are not handled yet. -/
def taken (e : Exchange) (k : Nat) : List Delivery := e.queued k ++ e.heldBack k

/-- The calls on their way to the coordinator at an endpoint, in the order of their arrival. -/
def transit (e : Exchange) (k : Nat) : List Delivery :=
  e.taken k ++ (e.carriers.net.inbox k).map Envelope.delivery

/-- Nobody will handle what arrives at an endpoint. -/
def Deaf (e : Exchange) (k : Nat) : Prop :=
  e.carriers.net.readingAt? k = some .closed ∨
    ∃ c, e.coordinatorOn? k = some c ∧ c.ended = true

instance (e : Exchange) (k : Nat) : Decidable (e.Deaf k) :=
  decidable_of_iff (e.carriers.net.readingAt? k = some .closed ∨
      (e.coordinatorOn? k).any (·.ended) = true) (by
    rw [Deaf, Option.any_eq_true])

/-! ### Looking for what is at an endpoint -/

/-- The first element with a property that only one element has, after an element has been
replaced by another that has the property if the old one had. -/
theorem find?_set_of_alone {α : Type} {l : List α} {P : α → Bool} {i : Nat} {x y : α}
    (here : l[i]? = some x) (same : P y = P x)
    (alone : P x = true → ∀ j z, l[j]? = some z → P z = true → j = i) :
    (l.set i y).find? P = if P x = true then some y else l.find? P := by
  induction l generalizing i with
  | nil => cases here
  | cons a rest ih =>
    cases i with
    | zero =>
      obtain rfl := Option.some.inj here
      rw [List.set_cons_zero]
      by_cases has : P a = true
      · rw [if_pos has, List.find?_cons_of_pos (same.trans has)]
      · rw [if_neg has, List.find?_cons_of_neg has, List.find?_cons_of_neg (by rwa [same])]
    | succ i =>
      rw [List.set_cons_succ]
      have later := ih here fun has j z there holds =>
        Nat.succ_injective (alone has (j + 1) z there holds)
      by_cases first : P a = true
      · have lacks : ¬ P x = true := by
          intro has
          cases alone has 0 a rfl first
        rw [if_neg lacks, List.find?_cons_of_pos first, List.find?_cons_of_pos first]
      · rw [List.find?_cons_of_neg first, List.find?_cons_of_neg first, later]

/-- The first element with a property, after an element has been added at the end. -/
theorem find?_concat_cases {α : Type} (l : List α) (P : α → Bool) (x : α) :
    (l ++ [x]).find? P = l.find? P ∨ (l.find? P = none ∧ (l ++ [x]).find? P = some x) := by
  rw [List.find?_append]
  cases old : l.find? P with
  | some a => exact Or.inl rfl
  | none =>
    rw [Option.none_or]
    by_cases has : P x = true
    · exact Or.inr ⟨rfl, List.find?_cons_of_pos has⟩
    · exact Or.inl (List.find?_cons_of_neg has)

theorem mem_of_stationOn? {e : Exchange} {k : Nat} {s : Station} (found : e.stationOn? k = some s) :
    ∃ i : Nat, e.stations[i]? = some s ∧ s.outlet = .endpoint k := by
  obtain ⟨i, here⟩ := List.mem_iff_getElem?.1 (List.mem_of_find?_eq_some found)
  have outlet := @List.find?_some _ _ _ _ found
  exact ⟨i, here, by simpa using outlet⟩

theorem mem_of_pumpOn? {e : Exchange} {k : Nat} {a : Pump} (found : e.pumpOn? k = some a) :
    ∃ p : Nat, e.pumps[p]? = some a ∧ a.endpoint = k := by
  obtain ⟨p, here⟩ := List.mem_iff_getElem?.1 (List.mem_of_find?_eq_some found)
  have endpoint := @List.find?_some _ _ _ _ found
  exact ⟨p, here, by simpa using endpoint⟩

/-! ### Wired exchanges -/

/-- How participants, endpoints, coordinators and pumps belong together. -/
structure Wired (e : Exchange) : Prop where
  /-- The calls to the peer of an endpoint arrive there. -/
  home : ∀ {k peer}, e.carriers.net.peerAt? k = some peer →
    e.carriers.net.endpointOf? peer = some k
  /-- Calls to a peer arrive at an endpoint of that peer. -/
  registered : ∀ {peer k}, e.carriers.net.endpointOf? peer = some k →
    e.carriers.net.peerAt? k = some peer
  /-- Links join registered peers in both directions. -/
  links : ∀ {a b}, e.carriers.net.linked a b = true →
    e.carriers.net.linked b a = true ∧ e.carriers.net.isRegistered b = true
  /-- Participants are numbered like endpoints. -/
  places : ∀ n : Nat, (e.sites[n]?).isSome = (e.carriers.net.peerAt? n).isSome
  /-- A participant uses the endpoint of its number. -/
  outlet : ∀ {n : Nat} {site : Site}, e.sites[n]? = some site → site.outlet = .endpoint n
  /-- A coordinator belongs to the participant of its endpoint. -/
  station : ∀ {i : Nat} {station : Station}, e.stations[i]? = some station →
    ∃ k, ∃ site : Site, station.outlet = .endpoint k ∧ e.sites[k]? = some site ∧
      site.station = some i
  /-- A participant's coordinator works at its endpoint. -/
  siteStation : ∀ {k i : Nat} {site : Site}, e.sites[k]? = some site → site.station = some i →
    ∃ station : Station, e.stations[i]? = some station ∧ station.outlet = .endpoint k
  /-- Coordinators are tidy, and their stores have no limit. -/
  tidy : ∀ {i : Nat} {station : Station}, e.stations[i]? = some station →
    station.coordinator.Tidy ∧ station.coordinator.store.limit = none
  /-- A pump belongs to the participant of its endpoint, and serves its coordinator. -/
  pump : ∀ {p : Nat} {pump : Pump}, e.pumps[p]? = some pump → ∃ site : Site,
    e.sites[pump.endpoint]? = some site ∧ site.pump = some p ∧ site.station = some pump.station
  /-- An endpoint with a pump is being read. -/
  reads : ∀ {k p : Nat} {site : Site}, e.sites[k]? = some site → site.pump = some p →
    e.carriers.net.readingAt? k ≠ some .unread ∧
      ∃ pump : Pump, e.pumps[p]? = some pump ∧ pump.endpoint = k
  /-- Only a pump at work holds something, and that is a call. -/
  held : ∀ {p : Nat} {pump : Pump} {job : Job}, e.pumps[p]? = some pump → pump.held = some job →
    pump.finished = false ∧ ∃ delivery, job.request = .rpc delivery
  /-- A closed inbox belongs to a coordinator that has ended, or to a participant that has left
  without ever having had one. -/
  closed : ∀ {k : Nat} {site : Site}, e.carriers.net.readingAt? k = some .closed →
    e.sites[k]? = some site →
      (∃ i, ∃ station : Station, site.station = some i ∧ e.stations[i]? = some station ∧
        station.coordinator.ended = true) ∨ (site.station = none ∧ site.present = false)

namespace Wired

theorem new (capacity : Nat) : (Exchange.new capacity).Wired where
  home h := by cases h
  registered h := by cases h
  links h := by cases h
  places _ := rfl
  outlet h := by cases h
  station h := by cases h
  siteStation h := by cases h
  tidy h := by cases h
  pump h := by cases h
  reads h := by cases h
  held h := by cases h
  closed h := by cases h

variable {e : Exchange} (wired : e.Wired)

include wired

/-- Two coordinators at one endpoint are one. -/
theorem alone {i j k : Nat} {s t : Station} (first : e.stations[i]? = some s)
    (second : e.stations[j]? = some t) (left : s.outlet = .endpoint k)
    (right : t.outlet = .endpoint k) : i = j := by
  obtain ⟨k₁, site₁, out₁, at₁, has₁⟩ := wired.station first
  obtain ⟨k₂, site₂, out₂, at₂, has₂⟩ := wired.station second
  obtain rfl : k₁ = k := Outlet.endpoint.inj (out₁.symm.trans left)
  obtain rfl : k₂ = k₁ := Outlet.endpoint.inj (out₂.symm.trans right)
  rw [at₁] at at₂
  obtain rfl := Option.some.inj at₂
  exact Option.some.inj (has₁.symm.trans has₂)

/-- Two pumps at one endpoint are one. -/
theorem pump_alone {p q : Nat} {a b : Pump} (first : e.pumps[p]? = some a)
    (second : e.pumps[q]? = some b) (same : a.endpoint = b.endpoint) : p = q := by
  obtain ⟨site₁, at₁, has₁, -⟩ := wired.pump first
  obtain ⟨site₂, at₂, has₂, -⟩ := wired.pump second
  rw [same, at₂] at at₁
  obtain rfl := Option.some.inj at₁
  exact Option.some.inj (has₁.symm.trans has₂)

/-- The coordinator of a pump works at the pump's endpoint. -/
theorem pumpStation {p : Nat} {a : Pump} (here : e.pumps[p]? = some a) :
    ∃ s, e.stations[a.station]? = some s ∧ s.outlet = .endpoint a.endpoint := by
  obtain ⟨site, there, -, has⟩ := wired.pump here
  exact wired.siteStation there has

theorem outlet_of_pump {p : Nat} {a : Pump} {s : Station} (here : e.pumps[p]? = some a)
    (there : e.stations[a.station]? = some s) : s.outlet = .endpoint a.endpoint := by
  obtain ⟨_, there', outlet⟩ := wired.pumpStation here
  rw [there] at there'
  obtain rfl := Option.some.inj there'
  exact outlet

theorem stationOn?_eq_some {k : Nat} {s : Station} :
    e.stationOn? k = some s ↔ ∃ i : Nat, e.stations[i]? = some s ∧ s.outlet = .endpoint k := by
  refine ⟨mem_of_stationOn?, ?_⟩
  rintro ⟨i, here, outlet⟩
  have present : (e.stationOn? k).isSome = true :=
    List.find?_isSome.2 ⟨s, List.mem_of_getElem? here, decide_eq_true outlet⟩
  obtain ⟨t, found⟩ := Option.isSome_iff_exists.1 present
  obtain ⟨j, there, outlet'⟩ := mem_of_stationOn? found
  obtain rfl := wired.alone here there outlet outlet'
  rw [here] at there
  rw [found, there]

theorem pumpOn?_eq_some {k : Nat} {a : Pump} :
    e.pumpOn? k = some a ↔ ∃ p : Nat, e.pumps[p]? = some a ∧ a.endpoint = k := by
  refine ⟨mem_of_pumpOn?, ?_⟩
  rintro ⟨p, here, endpoint⟩
  have present : (e.pumpOn? k).isSome = true :=
    List.find?_isSome.2 ⟨a, List.mem_of_getElem? here, decide_eq_true endpoint⟩
  obtain ⟨b, found⟩ := Option.isSome_iff_exists.1 present
  obtain ⟨q, there, endpoint'⟩ := mem_of_pumpOn? found
  obtain rfl := wired.pump_alone here there (endpoint.trans endpoint'.symm)
  rw [here] at there
  rw [found, there]

theorem coordinatorOn?_of_station {i k : Nat} {s : Station} (here : e.stations[i]? = some s)
    (outlet : s.outlet = .endpoint k) : e.coordinatorOn? k = some s.coordinator := by
  rw [coordinatorOn?, wired.stationOn?_eq_some.2 ⟨i, here, outlet⟩]
  rfl

/-- Who works at an endpoint after a coordinator has been replaced. -/
theorem coordinatorOn?_putCoordinator {i k : Nat} {s : Station} (here : e.stations[i]? = some s)
    (outlet : s.outlet = .endpoint k) (c : Coordinator) (j : Nat) :
    (e.putCoordinator i c).coordinatorOn? j = if j = k then some c else e.coordinatorOn? j := by
  rw [coordinatorOn?, stationOn?, ← setStation_eq here,
    find?_set_of_alone here (y := { s with coordinator := c }) rfl]
  · rw [outlet]
    by_cases same : j = k
    · rw [if_pos same, if_pos (by rw [same]; exact decide_eq_true rfl)]
      rfl
    · rw [if_neg same, if_neg (by simpa using Ne.symm same)]
      rfl
  · intro has n t there holds
    exact wired.alone there here (of_decide_eq_true holds) (of_decide_eq_true has)

/-- Who reads an inbox after a pump has been replaced. -/
theorem pumpOn?_putPump {p : Nat} {a b : Pump} (here : e.pumps[p]? = some a)
    (endpoint : b.endpoint = a.endpoint) (j : Nat) :
    (e.putPump p b).pumpOn? j = if j = a.endpoint then some b else e.pumpOn? j := by
  rw [pumpOn?, putPump, find?_set_of_alone here]
  · by_cases same : j = a.endpoint
    · rw [if_pos same, if_pos (decide_eq_true same.symm)]
    · rw [if_neg same, if_neg (by simpa using Ne.symm same), pumpOn?]
  · rw [endpoint]
  · intro has n q there holds
    exact wired.pump_alone there here
      ((of_decide_eq_true holds).trans (of_decide_eq_true has).symm)

/-! ### Every part of an action keeps an exchange wired -/

/-- Replacing a coordinator by one that is tidy, has no limit either, and has ended if the old one
had. -/
theorem putCoordinator {i : Nat} {s : Station} (here : e.stations[i]? = some s) {c : Coordinator}
    (tidy : c.Tidy) (unlimited : c.store.limit = none)
    (ended : s.coordinator.ended = true → c.ended = true) : (e.putCoordinator i c).Wired := by
  refine
    { wired with
      station := fun {j t} there => ?station
      siteStation := fun {k j site} at_k has => ?siteStation
      tidy := fun {j t} there => ?tidy
      closed := fun {k site} shut at_k => ?closed }
  case station =>
    obtain ⟨old, before, outlet, -⟩ := of_getElem?_putCoordinator there
    rw [outlet]
    exact wired.station before
  case siteStation =>
    obtain ⟨old, before, outlet⟩ := wired.siteStation at_k has
    rw [getElem?_putCoordinator, before]
    split
    · exact ⟨_, rfl, outlet⟩
    · exact ⟨_, rfl, outlet⟩
  case tidy =>
    obtain ⟨old, before, -, ⟨-, new⟩ | rfl⟩ := of_getElem?_putCoordinator there
    · rw [new]
      exact ⟨tidy, unlimited⟩
    · exact wired.tidy before
  case closed =>
    rcases wired.closed shut at_k with ⟨j, t, has, there, halted⟩ | gone
    · left
      by_cases same : i = j
      · subst same
        rw [here] at there
        obtain rfl := Option.some.inj there
        refine ⟨i, { s with coordinator := c }, has, ?_, ended halted⟩
        rw [getElem?_putCoordinator, if_pos rfl, here]
        rfl
      · refine ⟨j, t, has, ?_, halted⟩
        rw [getElem?_putCoordinator, if_neg same, there]
    · exact Or.inr gone

/-- Replacing a pump by one that reads the same inbox for the same coordinator. -/
theorem putPump {p : Nat} {a b : Pump} (here : e.pumps[p]? = some a)
    (endpoint : b.endpoint = a.endpoint) (station : b.station = a.station)
    (held : ∀ job, b.held = some job → b.finished = false ∧ ∃ d, job.request = .rpc d) :
    (e.putPump p b).Wired := by
  have inside := (List.getElem?_eq_some_iff.1 here).1
  have list : ∀ q : Nat, (e.putPump p b).pumps[q]? =
      if p = q then some b else e.pumps[q]? := by
    intro q
    rw [Exchange.putPump, List.getElem?_set]
    by_cases same : p = q
    · subst same
      rw [if_pos rfl, if_pos rfl, if_pos inside]
    · rw [if_neg same, if_neg same]
  refine
    { wired with
      pump := fun {q x} there => ?served
      reads := fun {k q site} at_k has => ?reads
      held := fun {q x job} there holds => ?held }
  case served =>
    rw [list] at there
    split at there
    · rename_i same
      obtain rfl := Option.some.inj there
      rw [endpoint, station, ← same]
      exact wired.pump here
    · exact wired.pump there
  case reads =>
    obtain ⟨reading, x, there, at_x⟩ := wired.reads at_k has
    refine ⟨reading, ?_⟩
    rw [list]
    by_cases same : p = q
    · subst same
      rw [here] at there
      obtain rfl := Option.some.inj there
      exact ⟨b, if_pos rfl, endpoint.trans at_x⟩
    · exact ⟨x, by rw [if_neg same, there], at_x⟩
  case held =>
    rw [list] at there
    split at there
    · obtain rfl := Option.some.inj there
      exact held job holds
    · exact wired.held there holds

/-- Changing the network without changing its peers, links and readers. -/
theorem withNet {net : Network} (framed : e.carriers.net.Framed net) : (e.withNet net).Wired := by
  have peers : ∀ k, (e.withNet net).carriers.net.peerAt? k = e.carriers.net.peerAt? k :=
    framed.peerAt?
  have places : ∀ peer,
      (e.withNet net).carriers.net.endpointOf? peer = e.carriers.net.endpointOf? peer :=
    framed.endpointOf?
  have links : ∀ a b, (e.withNet net).carriers.net.linked a b = e.carriers.net.linked a b :=
    framed.linked
  have readers : ∀ k, (e.withNet net).carriers.net.readingAt? k = e.carriers.net.readingAt? k :=
    framed.readingAt?
  refine
    { wired with
      home := fun {k peer} h => ?home
      registered := fun {peer k} h => ?registered
      links := fun {a b} h => ?links
      places := fun n => ?places
      reads := fun {k p site} at_k has => ?reads
      closed := fun {k site} shut at_k => ?closed }
  case home =>
    rw [peers] at h
    rw [places, wired.home h]
  case registered =>
    rw [places] at h
    rw [peers, wired.registered h]
  case links =>
    rw [links] at h
    rw [links, Network.isRegistered, places]
    exact wired.links h
  case places =>
    rw [peers]
    exact wired.places n
  case reads =>
    rw [readers]
    exact wired.reads at_k has
  case closed =>
    rw [readers] at shut
    exact wired.closed shut at_k

/-- Closing an inbox whose coordinator has ended, or whose participant has left without a
coordinator. -/
theorem close {k : Nat} {self : Endpoint} (present : e.carriers.net.endpoints[k]? = some self)
    (halted : ∀ site : Site, e.sites[k]? = some site →
      (∃ i, ∃ station : Station, site.station = some i ∧ e.stations[i]? = some station ∧
        station.coordinator.ended = true) ∨ (site.station = none ∧ site.present = false)) :
    (e.withNet (e.carriers.net.modify k Endpoint.close)).Wired := by
  have peers : ∀ i, (e.carriers.net.modify k Endpoint.close).peerAt? i =
      e.carriers.net.peerAt? i := Network.peerAt?_modify fun _ => rfl
  have readers : ∀ i, (e.carriers.net.modify k Endpoint.close).readingAt? i =
      if i = k then some .closed else e.carriers.net.readingAt? i :=
    Network.readingAt?_modify present
  refine
    { wired with
      home := fun {i peer} h => wired.home ((peers i).symm.trans h)
      registered := fun {peer i} h => (peers i).trans (wired.registered h)
      places := fun n => (wired.places n).trans (congrArg Option.isSome (peers n)).symm
      reads := fun {i p site} at_i has => ?reads
      closed := fun {i site} shut at_i => ?closed }
  case reads =>
    refine ⟨?_, (wired.reads at_i has).2⟩
    rw [net_withNet, readers]
    split
    · exact fun h => Reading.noConfusion (Option.some.inj h)
    · exact (wired.reads at_i has).1
  case closed =>
    rw [net_withNet, readers] at shut
    split at shut
    · rename_i here
      subst here
      exact halted site at_i
    · exact wired.closed shut at_i

/-- Changing nothing of a participant but its handle and whether it takes part; once it has left, it
stays away. -/
theorem modifySite (n : Nat) {change : Site → Site}
    (outlet : ∀ s, (change s).outlet = s.outlet) (station : ∀ s, (change s).station = s.station)
    (pump : ∀ s, (change s).pump = s.pump)
    (gone : ∀ s, s.present = false → (change s).present = false) :
    (e.modifySite n change).Wired := by
  have list : ∀ k : Nat, (e.modifySite n change).sites[k]? =
      if n = k then e.sites[k]?.map change else e.sites[k]? := by
    intro k
    rw [Exchange.modifySite, List.getElem?_modify]
    split <;> simp
  -- A participant now is one before, up to what the change leaves alone.
  have back : ∀ {k : Nat} {site : Site}, (e.modifySite n change).sites[k]? = some site →
      ∃ old, e.sites[k]? = some old ∧ site.outlet = old.outlet ∧ site.station = old.station ∧
        site.pump = old.pump ∧ (old.present = false → site.present = false) := by
    intro k site h
    rw [list] at h
    split at h
    · obtain ⟨old, before, rfl⟩ := Option.map_eq_some_iff.1 h
      exact ⟨old, before, outlet old, station old, pump old, gone old⟩
    · exact ⟨site, h, rfl, rfl, rfl, id⟩
  have forth : ∀ {k : Nat} {old : Site}, e.sites[k]? = some old →
      ∃ site, (e.modifySite n change).sites[k]? = some site ∧ site.station = old.station ∧
        site.pump = old.pump := by
    intro k old h
    rw [list, h]
    split
    · exact ⟨_, rfl, station old, pump old⟩
    · exact ⟨_, rfl, rfl, rfl⟩
  refine
    { wired with
      places := fun k => ?places
      outlet := fun {k site} h => ?outlet
      station := fun {i s} here => ?station
      siteStation := fun {k i site} at_k has => ?siteStation
      pump := fun {p x} here => ?pump
      reads := fun {k p site} at_k has => ?reads
      closed := fun {k site} shut at_k => ?closed }
  case places =>
    rw [list]
    split
    · rw [Option.isSome_map]
      exact wired.places k
    · exact wired.places k
  case outlet =>
    obtain ⟨old, before, same, -⟩ := back h
    rw [same]
    exact wired.outlet before
  case station =>
    obtain ⟨k, old, out, at_k, has⟩ := wired.station here
    obtain ⟨site, now, same, -⟩ := forth at_k
    exact ⟨k, site, out, now, same.trans has⟩
  case siteStation =>
    obtain ⟨old, before, -, same, -⟩ := back at_k
    exact wired.siteStation before (same.symm.trans has)
  case pump =>
    obtain ⟨old, at_k, has, serves⟩ := wired.pump here
    obtain ⟨site, now, same, same'⟩ := forth at_k
    exact ⟨site, now, same'.trans has, same.trans serves⟩
  case reads =>
    obtain ⟨old, before, -, -, same, -⟩ := back at_k
    exact wired.reads before (same.symm.trans has)
  case closed =>
    obtain ⟨old, before, -, same, -, away⟩ := back at_k
    rw [same]
    rcases wired.closed shut before with halted | ⟨none, left⟩
    · exact Or.inl halted
    · exact Or.inr ⟨none, away left⟩

/-- There are as many participants as endpoints. -/
theorem length_sites : e.sites.length = e.carriers.net.endpoints.length := by
  have same : ∀ n, n < e.sites.length ↔ n < e.carriers.net.endpoints.length := by
    intro n
    have places := wired.places n
    rw [Network.peerAt?, Option.isSome_map, Bool.eq_iff_iff, Option.isSome_iff_ne_none,
      Option.isSome_iff_ne_none, Ne, Ne, List.getElem?_eq_none_iff, List.getElem?_eq_none_iff]
      at places
    omega
  have first := same e.sites.length
  have second := same e.carriers.net.endpoints.length
  omega

theorem sites_join (peer : PeerId) (n : Nat) : (e.joinNetwork peer).1.sites[n]? =
    if n = e.carriers.net.endpoints.length then some { outlet := .endpoint n } else e.sites[n]? := by
  change (e.sites ++ [_])[n]? = _
  rw [getElem?_concat, wired.length_sites]
  split
  · rename_i last
    rw [last]
  · rfl

omit wired in
/-- Whoever takes part still does after another has joined. -/
theorem sites_join_of_some (peer : PeerId) {n : Nat} {site : Site} (at_n : e.sites[n]? = some site) :
    (e.joinNetwork peer).1.sites[n]? = some site :=
  getElem?_concat_of_some at_n _

/-- A participant joins with an endpoint for a peer that has none. -/
theorem join {peer : PeerId} (fresh : e.carriers.net.isRegistered peer = false) :
    (e.joinNetwork peer).1.Wired := by
  let k := e.carriers.net.endpoints.length
  have unknown : e.carriers.net.endpointOf? peer = none := by
    rwa [Network.isRegistered, Option.isSome_eq_false_iff, Option.isNone_iff_eq_none] at fresh
  have sites := wired.sites_join peer
  have peers : ∀ n, (e.joinNetwork peer).1.carriers.net.peerAt? n =
      if n = k then some peer else e.carriers.net.peerAt? n := Network.peerAt?_register _ _
  have readers : ∀ n, (e.joinNetwork peer).1.carriers.net.readingAt? n =
      if n = k then some .unread else e.carriers.net.readingAt? n := Network.readingAt?_register _ _
  have places : ∀ other, (e.joinNetwork peer).1.carriers.net.endpointOf? other =
      if other = peer then some k else e.carriers.net.endpointOf? other :=
    Network.endpointOf?_register _ _
  refine
    { wired with
      home := fun {n other} h => ?home
      registered := fun {other n} h => ?registered
      links := fun {a b} h => ?links
      places := fun n => ?places
      outlet := fun {n site} h => ?outlet
      station := fun {i s} here => ?station
      siteStation := fun {n i site} at_n has => ?siteStation
      pump := fun {p x} here => ?pump
      reads := fun {n p site} at_n has => ?reads
      closed := fun {n site} shut at_n => ?closed }
  case home =>
    rw [peers] at h
    split at h
    · rename_i here
      obtain rfl := Option.some.inj h
      rw [places, if_pos rfl, here]
    · rw [places, if_neg, wired.home h]
      rintro rfl
      rw [wired.home h] at unknown
      cases unknown
  case registered =>
    rw [places] at h
    split at h
    · rename_i same
      obtain rfl := Option.some.inj h
      rw [peers, if_pos rfl, same]
    · rw [peers, if_neg, wired.registered h]
      rintro rfl
      have none := wired.registered h
      rw [Network.peerAt?_length] at none
      cases none
  case links =>
    have before := wired.links h
    refine ⟨before.1, ?_⟩
    rw [Network.isRegistered, places]
    split
    · rfl
    · exact before.2
  case places =>
    rw [sites, peers]
    split
    · rfl
    · exact wired.places n
  case outlet =>
    rw [sites] at h
    split at h
    · obtain rfl := Option.some.inj h
      rfl
    · exact wired.outlet h
  case station =>
    obtain ⟨n, site, out, at_n, has⟩ := wired.station here
    exact ⟨n, site, out, sites_join_of_some peer at_n, has⟩
  case siteStation =>
    rw [sites] at at_n
    split at at_n
    · obtain rfl := Option.some.inj at_n
      cases has
    · exact wired.siteStation at_n has
  case pump =>
    obtain ⟨site, at_n, has⟩ := wired.pump here
    exact ⟨site, sites_join_of_some peer at_n, has⟩
  case reads =>
    rw [sites] at at_n
    split at at_n
    · obtain rfl := Option.some.inj at_n
      cases has
    · rename_i other
      refine ⟨?_, (wired.reads at_n has).2⟩
      rw [readers, if_neg other]
      exact (wired.reads at_n has).1
  case closed =>
    rw [readers] at shut
    split at shut
    · cases shut
    · rename_i other
      rw [sites, if_neg other] at at_n
      exact wired.closed shut at_n

omit wired in
/-- What a participant's first coordinator adds to an exchange. -/
theorem attach_eq {n : Nat} {s : Site} (at_n : e.sites[n]? = some s) (bare : s.station = none)
    (config : CoordinatorConfig) : e.attach n config =
      ({ e with stations := e.stations ++ [⟨s.outlet, .new config⟩] } : Exchange).modifySite n
        fun s => { s with station := some e.stations.length, handle := true } := by
  simp only [Exchange.attach, at_n, bare, endStation]

/-- A participant gets its first coordinator, with a store without a limit. -/
theorem attach {n : Nat} {s : Site} {config : CoordinatorConfig}
    (here : e.presentSite? n = some s) (bare : s.station = none)
    (unlimited : config.maxGroupsPerTopic = none) : (e.attach n config).Wired := by
  obtain ⟨at_n, present⟩ := Option.filter_eq_some_iff.1 here
  have out : s.outlet = .endpoint n := wired.outlet at_n
  rw [attach_eq at_n bare]
  have sites := @getElem?_modifySite
    { e with stations := e.stations ++ [⟨s.outlet, .new config⟩] } n s at_n
    fun s => { s with station := some e.stations.length, handle := true }
  have stations := getElem?_concat e.stations ⟨s.outlet, .new config⟩
  have kept : ∀ {j : Nat} {t : Station}, e.stations[j]? = some t →
      (e.stations ++ [⟨s.outlet, .new config⟩])[j]? = some t :=
    fun there => getElem?_concat_of_some there _
  have other : ∀ {k j : Nat} {site : Site}, e.sites[k]? = some site → site.station = some j →
      n ≠ k := by
    rintro k j site at_k has rfl
    rw [at_n] at at_k
    obtain rfl := Option.some.inj at_k
    rw [bare] at has
    cases has
  refine
    { wired with
      places := fun k => ?places
      outlet := fun {k site} h => ?outlet
      station := fun {j t} there => ?station
      siteStation := fun {k j site} at_k has => ?siteStation
      tidy := fun {j t} there => ?tidy
      pump := fun {p x} here => ?pump
      reads := fun {k p site} at_k has => ?reads
      closed := fun {k site} shut at_k => ?closed }
  case places =>
    rw [sites]
    split
    · rename_i same
      rw [← same]
      exact (congrArg Option.isSome at_n).symm.trans (wired.places n)
    · exact wired.places k
  case outlet =>
    rw [sites] at h
    split at h
    · rename_i same
      obtain rfl := Option.some.inj h
      exact same ▸ out
    · exact wired.outlet h
  case station =>
    replace there := (stations j).symm.trans there
    split at there
    · rename_i new
      obtain rfl := Option.some.inj there
      exact ⟨n, _, out, (sites n).trans (if_pos rfl), by rw [new]⟩
    · obtain ⟨k, site, out, at_k, has⟩ := wired.station there
      exact ⟨k, site, out, by rw [sites, if_neg (other at_k has)]; exact at_k, has⟩
  case siteStation =>
    rw [sites] at at_k
    split at at_k
    · rename_i same
      obtain rfl := Option.some.inj at_k
      obtain rfl := Option.some.inj has
      exact ⟨_, (stations _).trans (if_pos rfl), same ▸ out⟩
    · obtain ⟨t, there, out⟩ := wired.siteStation at_k has
      exact ⟨t, kept there, out⟩
  case tidy =>
    rcases of_getElem?_concat there with old | rfl
    · exact wired.tidy old
    · refine ⟨Coordinator.tidy_new config, ?_⟩
      simp [Coordinator.new, Store.new, unlimited]
  case pump =>
    obtain ⟨site, at_k, has, serves⟩ := wired.pump here
    exact ⟨site, by rw [sites, if_neg (other at_k serves)]; exact at_k, has, serves⟩
  case reads =>
    rw [sites] at at_k
    split at at_k
    · rename_i same
      obtain rfl := Option.some.inj at_k
      subst same
      exact wired.reads at_n has
    · exact wired.reads at_k has
  case closed =>
    rw [sites] at at_k
    split at at_k
    · rename_i same
      subst same
      rcases wired.closed shut at_n with ⟨j, t, has, -⟩ | ⟨-, left⟩
      · exact absurd rfl (other at_n has)
      · rw [left] at present
        cases present
    · rcases wired.closed shut at_k with ⟨j, t, has, there, halted⟩ | gone
      · exact Or.inl ⟨j, t, has, kept there, halted⟩
      · exact Or.inr gone

/-- What opening a pump does. -/
theorem openPump_eq {n i number : Nat} {s : Site} {e' : Exchange} (at_n : e.sites[n]? = some s)
    (has : s.station = some i) (opened : e.openPump n = .ok (e', number)) :
    ∃ self, e.carriers.net.endpoints[n]? = some self ∧ self.reading = .unread ∧
      e' = (({ e with pumps := e.pumps ++ [{ endpoint := n, station := i }] } : Exchange).withNet
        (e.carriers.net.modify n fun k => { k with reading := .pumped })).modifySite n
          fun s => { s with pump := s.pump.or (some e.pumps.length) } := by
  cases opens_openPump at_n opened with
  | recorder outlet =>
    rw [wired.outlet at_n] at outlet
    cases outlet
  | endpoint outlet present unread =>
    obtain rfl := Outlet.endpoint.inj ((wired.outlet at_n).symm.trans outlet)
    rw [has]
    exact ⟨_, present, unread, rfl⟩

/-- Whose inbox is unread has no pump. -/
theorem pump_eq_none {n : Nat} {s : Site} {self : Endpoint} (at_n : e.sites[n]? = some s)
    (present : e.carriers.net.endpoints[n]? = some self) (unread : self.reading = .unread) :
    s.pump = none := by
  cases old : s.pump with
  | none => rfl
  | some q =>
    have reading := (wired.reads at_n old).1
    rw [Network.readingAt?_of_present present, unread] at reading
    exact absurd rfl reading

/-- A participant with a coordinator gets a pump. -/
theorem openPump {n i number : Nat} {s : Site} {e' : Exchange} (at_n : e.sites[n]? = some s)
    (has : s.station = some i) (opened : e.openPump n = .ok (e', number)) : e'.Wired := by
  obtain ⟨self, present, unread, rfl⟩ := wired.openPump_eq at_n has opened
  -- An inbox is read once only, so the participant has had no pump before this one.
  have first : s.pump = none := wired.pump_eq_none at_n present unread
  let net := e.carriers.net.modify n fun k => { k with reading := .pumped }
  let middle : Exchange :=
    ({ e with pumps := e.pumps ++ [{ endpoint := n, station := i }] } : Exchange).withNet net
  have peers : ∀ k, net.peerAt? k = e.carriers.net.peerAt? k := Network.peerAt?_modify fun _ => rfl
  have readers : ∀ k, net.readingAt? k =
      if k = n then some .pumped else e.carriers.net.readingAt? k :=
    Network.readingAt?_modify present
  have sites := @getElem?_modifySite middle n s at_n
    fun s => { s with pump := s.pump.or (some e.pumps.length) }
  have pumps := getElem?_concat e.pumps { endpoint := n, station := i }
  refine
    { wired with
      home := fun {k peer} h => wired.home ((peers k).symm.trans h)
      registered := fun {peer k} h => (peers k).trans (wired.registered h)
      places := fun k => ?places
      outlet := fun {k site} h => ?outlet
      station := fun {j t} h => ?station
      siteStation := fun {k j site} at_k serves => ?siteStation
      pump := fun {q x} there => ?pump
      reads := fun {k q site} at_k reads => ?reads
      held := fun {q x job} there holds => ?held
      closed := fun {k site} shut at_k => ?closed }
  case places =>
    refine Eq.trans ?_ ((wired.places k).trans (congrArg Option.isSome (peers k)).symm)
    rw [sites]
    split
    · rename_i same
      rw [← same, at_n]
      rfl
    · rfl
  case outlet =>
    rw [sites] at h
    split at h
    · rename_i same
      obtain rfl := Option.some.inj h
      exact same ▸ (wired.outlet at_n : s.outlet = .endpoint n)
    · exact wired.outlet h
  case station =>
    obtain ⟨k, site, out, at_k, serves⟩ := wired.station h
    by_cases same : n = k
    · subst same
      rw [at_n] at at_k
      obtain rfl := Option.some.inj at_k
      exact ⟨n, _, out, (sites n).trans (if_pos rfl), serves⟩
    · exact ⟨k, site, out, by rw [sites, if_neg same]; exact at_k, serves⟩
  case siteStation =>
    rw [sites] at at_k
    split at at_k
    · rename_i same
      subst same
      obtain rfl := Option.some.inj at_k
      exact wired.siteStation at_n serves
    · exact wired.siteStation at_k serves
  case pump =>
    replace there := (pumps q).symm.trans there
    split at there
    · rename_i new
      obtain rfl := Option.some.inj there
      exact ⟨_, (sites n).trans (if_pos rfl), by rw [first, new]; rfl, has⟩
    · obtain ⟨site, at_k, old, serves⟩ := wired.pump there
      refine ⟨site, ?_, old, serves⟩
      rw [sites, if_neg]
      · exact at_k
      · rintro rfl
        rw [at_n] at at_k
        obtain rfl := Option.some.inj at_k
        rw [first] at old
        cases old
  case reads =>
    rw [sites] at at_k
    change net.readingAt? k ≠ _ ∧ ∃ pump : Pump, (e.pumps ++ [_])[q]? = _ ∧ _
    rw [readers, pumps]
    split at at_k
    · rename_i same
      obtain rfl := Option.some.inj at_k
      simp only [first, Option.none_or, Option.some.injEq] at reads
      rw [if_pos same.symm, if_pos reads.symm]
      exact ⟨fun h => Reading.noConfusion (Option.some.inj h), _, rfl, same⟩
    · rename_i other
      obtain ⟨reading, x, there, at_x⟩ := wired.reads at_k reads
      rw [if_neg (Ne.symm other), if_neg (Nat.ne_of_lt (List.getElem?_eq_some_iff.1 there).1)]
      exact ⟨reading, x, there, at_x⟩
  case held =>
    rcases of_getElem?_concat there with old | rfl
    · exact wired.held old holds
    · cases holds
  case closed =>
    replace shut := (readers k).symm.trans shut
    rw [sites] at at_k
    split at shut
    · cases shut
    · rename_i other
      rw [if_neg (Ne.symm other)] at at_k
      exact wired.closed shut at_k

/-- Two registered peers get linked. -/
theorem connect {a b : PeerId} {net : Network} (made : e.carriers.net.connect a b = .ok net) :
    (e.withNet net).Wired := by
  have connected := Network.connected made
  obtain ⟨left, right⟩ := connected.registered
  have peers := connected.peerAt?
  have readers := connected.readingAt?
  have places := connected.endpointOf?
  refine
    { wired with
      home := fun {k peer} h => (places peer).trans (wired.home ((peers k).symm.trans h))
      registered := fun {peer k} h =>
        (peers k).trans (wired.registered ((places peer).symm.trans h))
      links := fun {x y} h => ?links
      places := fun k => (wired.places k).trans (congrArg Option.isSome (peers k)).symm
      reads := fun {k p site} at_k has => ?reads
      closed := fun {k site} shut at_k => wired.closed ((readers k).symm.trans shut) at_k }
  case links =>
    rw [net_withNet, connected.linked] at h
    rw [net_withNet, connected.linked, Network.isRegistered, places]
    rcases h with old | ⟨rfl, rfl⟩ | ⟨rfl, rfl⟩
    · exact ⟨Or.inl (wired.links old).1, (wired.links old).2⟩
    · exact ⟨Or.inr (Or.inr ⟨rfl, rfl⟩), right⟩
    · exact ⟨Or.inr (Or.inl ⟨rfl, rfl⟩), left⟩
  case reads =>
    rw [net_withNet, readers]
    exact wired.reads at_k has

/-- The requests of an exchange have no part in its wiring. -/
theorem withCalls (calls : List Call) : ({ e with calls } : Exchange).Wired :=
  { wired with }

end Wired

end Exchange

end PartExchange
