/-
**What pumps, coordinators and senders do in one step.**

A step of a pump or of a coordinator is a cascade of cases.  Each of the two is taken apart here,
once and without any assumption about the exchange, and whatever is proved of steps starts from
this.

Main definitions:

* `Exchange.putCoordinator`, `Exchange.putPump`: another coordinator or pump in place of one;
* `Exchange.upcoming?`: the job that a coordinator handles next;
* `Exchange.Opens`: what a participant that gets a pump does;
* `Exchange.PumpStep`: what a pump at work does in one step.

Main results:

* `Exchange.submit_of_station`, `Exchange.resume_of_station`: the attempts of a sender;
* `Exchange.opens_openPump`: a pump is opened on the network or beside it;
* `Exchange.pumpStep_of_pumpStep?`: a pump's step is one of four;
* `Exchange.stationStep?_eq_some`: a coordinator's step is its end, or it handles a job;
* `Exchange.carriers_stationStep?`: what a coordinator's step gives to the transports.
-/

import PartExchange.Exchange.Schedule
import PartExchange.Proofs.Network

set_option relaxedAutoImplicit false
set_option autoImplicit false

namespace PartExchange

/-- A call in an inbox as it will be handed over. -/
def Envelope.delivery (envelope : Envelope) : Delivery :=
  { sender := envelope.sender, rpc := envelope.rpc }

namespace Exchange

/-! ### Replacing a coordinator or a pump -/

/-- The exchange with another coordinator in place of one. -/
def putCoordinator (e : Exchange) (i : Nat) (c : Coordinator) : Exchange :=
  e.modifyCoordinator i fun _ => c

/-- The exchange with another pump in place of one. -/
def putPump (e : Exchange) (p : Nat) (pump : Pump) : Exchange :=
  { e with pumps := e.pumps.set p pump }

@[simp] theorem net_withNet (e : Exchange) (net : Network) :
    (e.withNet net).carriers.net = net := rfl

/-- Changing an element that is there is replacing it. -/
theorem modify_eq_set {α : Type} {l : List α} {i : Nat} {x : α} (here : l[i]? = some x)
    (change : α → α) : l.modify i change = l.set i (change x) := by
  apply List.ext_getElem?
  intro j
  rw [List.getElem?_modify, List.getElem?_set]
  by_cases same : i = j
  · subst same
    rw [if_pos rfl, if_pos (List.getElem?_eq_some_iff.1 here).1, here]
    simp
  · simp [same]

theorem modifyCoordinator_eq {e : Exchange} {i : Nat} {station : Station}
    (here : e.stations[i]? = some station) (change : Coordinator → Coordinator) :
    e.modifyCoordinator i change = e.putCoordinator i (change station.coordinator) := by
  rw [putCoordinator, modifyCoordinator, modifyCoordinator, modify_eq_set here, modify_eq_set here]

theorem setStation_eq {e : Exchange} {i : Nat} {station : Station}
    (here : e.stations[i]? = some station) (c : Coordinator) :
    { e with stations := e.stations.set i { station with coordinator := c } } =
      e.putCoordinator i c := by
  rw [putCoordinator, modifyCoordinator, modify_eq_set here]

theorem getElem?_putCoordinator (e : Exchange) (i j : Nat) (c : Coordinator) :
    (e.putCoordinator i c).stations[j]? =
      if i = j then e.stations[j]?.map fun s => { s with coordinator := c } else e.stations[j]? := by
  rw [putCoordinator, modifyCoordinator, List.getElem?_modify]
  split <;> simp

/-- A coordinator after another one has been put in a place: it is the new one, or an old one. -/
theorem of_getElem?_putCoordinator {e : Exchange} {i j : Nat} {c : Coordinator} {station : Station}
    (there : (e.putCoordinator i c).stations[j]? = some station) :
    ∃ old, e.stations[j]? = some old ∧ station.outlet = old.outlet ∧
      ((i = j ∧ station.coordinator = c) ∨ station = old) := by
  rw [getElem?_putCoordinator] at there
  split at there
  · rename_i same
    obtain ⟨old, before, rfl⟩ := Option.map_eq_some_iff.1 there
    exact ⟨old, before, rfl, Or.inl ⟨same, rfl⟩⟩
  · exact ⟨station, there, rfl, Or.inr rfl⟩

theorem getElem?_modifySite {e : Exchange} {n : Nat} {s : Site} (at_n : e.sites[n]? = some s)
    (change : Site → Site) (k : Nat) :
    (e.modifySite n change).sites[k]? = if n = k then some (change s) else e.sites[k]? := by
  rw [modifySite, List.getElem?_modify]
  split
  · rename_i same
    rw [← same, at_n]
    rfl
  · simp

/-! ### The ends of coordinators, pumps and transports -/

@[simp] theorem pumps_endStation (e : Exchange) (station : Option Nat) :
    (e.endStation station).pumps = e.pumps := by
  cases station <;> rfl

@[simp] theorem sites_endStation (e : Exchange) (station : Option Nat) :
    (e.endStation station).sites = e.sites := by
  cases station <;> rfl

@[simp] theorem sites_endPump (e : Exchange) (p : Nat) : (e.endPump p).sites = e.sites := by
  unfold endPump
  split
  · rfl
  · split <;> rfl

@[simp] theorem stations_endPump (e : Exchange) (p : Nat) :
    (e.endPump p).stations = e.stations := by
  unfold endPump
  split
  · rfl
  · split <;> rfl

@[simp] theorem sites_endReader (e : Exchange) (pump : Option Nat) :
    (e.endReader pump).sites = e.sites := by
  cases pump with
  | none => rfl
  | some p => exact sites_endPump e p

@[simp] theorem stations_endReader (e : Exchange) (pump : Option Nat) :
    (e.endReader pump).stations = e.stations := by
  cases pump with
  | none => rfl
  | some p => exact stations_endPump e p

@[simp] theorem stations_releaseOutlet (e : Exchange) (outlet : Outlet) :
    (e.releaseOutlet outlet).stations = e.stations := by
  unfold releaseOutlet
  split
  · rfl
  · split <;> rfl

@[simp] theorem pumps_releaseOutlet (e : Exchange) (outlet : Outlet) :
    (e.releaseOutlet outlet).pumps = e.pumps := by
  unfold releaseOutlet
  split
  · rfl
  · split <;> rfl

@[simp] theorem sites_releaseOutlet (e : Exchange) (outlet : Outlet) :
    (e.releaseOutlet outlet).sites = e.sites := by
  unfold releaseOutlet
  split
  · rfl
  · split <;> rfl

/-! ### Senders -/

section Senders

variable {e : Exchange} {i : Nat} {s : Station} (here : e.stations[i]? = some s)

include here

theorem submit_of_station (request : Request) : e.submit i request =
    some (e.putCoordinator i (s.coordinator.submit request).1,
      (s.coordinator.submit request).2.1, (s.coordinator.submit request).2.2) := by
  simp only [submit, here, setStation_eq here]

theorem resume_of_station (job : Job) : e.resume i job =
    (e.putCoordinator i (s.coordinator.resume job).1, (s.coordinator.resume job).2) := by
  simp only [resume, here, setStation_eq here]

end Senders

/-! ### Pumps -/

/-- What a pump at work does in one step. -/
inductive PumpStep (e : Exchange) (p : Nat) (pump : Pump) : Exchange → Prop
  | retries {job : Job} (held : pump.held = some job)
      (goes : (e.resume pump.station job).2 ≠ .waiting) :
      PumpStep e p pump ((e.resume pump.station job).1.afterHandOver p pump job
        (e.resume pump.station job).2)
  | takes {envelope : Envelope} {net : Network} {e₁ : Exchange} {job : Job} {sending : Sending}
      (idle : pump.held = none)
      (taken : e.carriers.net.receive? pump.endpoint = some (envelope, net))
      (made : (e.withNet net).submit pump.station (.rpc envelope.delivery) =
        some (e₁, job, sending)) :
      PumpStep e p pump (e₁.afterHandOver p pump job sending)
  | loses {envelope : Envelope} {net : Network} (idle : pump.held = none)
      (taken : e.carriers.net.receive? pump.endpoint = some (envelope, net))
      (nobody : (e.withNet net).submit pump.station (.rpc envelope.delivery) = none) :
      PumpStep e p pump ((e.withNet net).endPump p)
  | retires (idle : pump.held = none) (nothing : e.carriers.net.receive? pump.endpoint = none)
      (replaced : e.carriers.net.isReplaced pump.endpoint = true) :
      PumpStep e p pump (e.endPump p)

/-- Only a pump at work takes a step, and it is one of the four. -/
theorem pumpStep_of_pumpStep? {e e' : Exchange} {p : Nat} (step : e.pumpStep? p = some e') :
    ∃ pump, e.pumps[p]? = some pump ∧ pump.finished = false ∧ PumpStep e p pump e' := by
  unfold pumpStep? at step
  split at step
  · cases step
  rename_i pump here
  split at step
  · cases step
  rename_i working
  refine ⟨pump, here, by simpa using working, ?_⟩
  split at step
  · rename_i job held
    dsimp only at step
    split at step
    · cases step
    · rename_i goes
      cases step
      exact .retries held goes
  · rename_i idle
    split at step
    · rename_i envelope net taken
      dsimp only at step
      split at step
      · rename_i nobody
        cases step
        exact .loses idle taken nobody
      · rename_i made
        cases step
        exact .takes idle taken made
    · rename_i nothing
      split at step
      · rename_i replaced
        cases step
        exact .retires idle nothing replaced
      · cases step

/-- What opening a pump does: a recorder gets one that has ended, and whoever has not read its inbox
gets one that does. -/
inductive Opens (e : Exchange) (n : Nat) (s : Site) : Exchange → Prop
  | recorder {k : Nat} (outlet : s.outlet = .recorder k) :
      Opens e n s (({ e with pumps := e.pumps ++
          [{ endpoint := k, station := s.station.getD 0, finished := true }] } : Exchange).modifySite n
        fun s => { s with pump := s.pump.or (some e.pumps.length) })
  | endpoint {k : Nat} {self : Endpoint} (outlet : s.outlet = .endpoint k)
      (present : e.carriers.net.endpoints[k]? = some self) (unread : self.reading = .unread) :
      Opens e n s ((({ e with pumps := e.pumps ++
          [{ endpoint := k, station := s.station.getD 0 }] } : Exchange).withNet
            (e.carriers.net.modify k fun k => { k with reading := .pumped })).modifySite n
        fun s => { s with pump := s.pump.or (some e.pumps.length) })

theorem opens_openPump {e e' : Exchange} {n number : Nat} {s : Site} (at_n : e.sites[n]? = some s)
    (opened : e.openPump n = .ok (e', number)) : Opens e n s e' := by
  simp only [openPump, at_n] at opened
  split at opened
  · cases opened
  · rename_i found
    cases opened
    cases out : s.outlet with
    | recorder k =>
      rw [out] at found
      cases found
      exact .recorder out
    | endpoint k =>
      rw [out] at found
      dsimp only at found
      split at found
      · rename_i present
        cases found
        exact .endpoint out present rfl
      · cases found

/-! ### Coordinators -/

/-- The job that the next step of a coordinator handles. -/
def upcoming? (e : Exchange) (i : Nat) : Option Job :=
  e.stations[i]?.bind fun station => station.coordinator.upcoming? (!e.reachable i)

/-- Only a coordinator that has not ended takes a step: it ends, or it handles a job and publishes
what the store says. -/
theorem stationStep?_eq_some {e e' : Exchange} {i : Nat} (step : e.stationStep? i = some e') :
    ∃ s, e.stations[i]? = some s ∧ s.coordinator.ended = false ∧
      ((e.upcoming? i = none ∧ e' = e.putCoordinator i s.coordinator.close) ∨
        ∃ job lane c', e.upcoming? i = some job ∧ s.coordinator.Served c' job lane ∧
          e' = { e.putCoordinator i c' with
            carriers := Coordinator.carry (Carriers.publish s.outlet) e.carriers
              (s.coordinator.store.react job.request).publication }) := by
  unfold stationStep? at step
  split at step
  · cases step
  rename_i s here
  obtain ⟨⟨c', carriers⟩, stepped, result⟩ := Option.map_eq_some_iff.1 step
  have upcoming : e.upcoming? i = s.coordinator.upcoming? (!e.reachable i) := by
    rw [upcoming?, here, Option.bind_some]
  obtain ⟨running, closing | ⟨job, lane, next, served, rfl⟩⟩ := Coordinator.step?_cases stepped
  · obtain ⟨none, rfl, rfl⟩ := closing
    refine ⟨s, here, running, Or.inl ⟨upcoming.trans none, ?_⟩⟩
    rw [← result, ← setStation_eq here]
  · refine ⟨s, here, running, Or.inr ⟨job, lane, c', upcoming.trans next, served, ?_⟩⟩
    rw [← result, ← setStation_eq here]

/-- A coordinator's step gives to the transports what the handled request has published, and
nothing if none is handled. -/
theorem carriers_stationStep? {e e' : Exchange} {i : Nat} {s : Station}
    (here : e.stations[i]? = some s) (step : e.stationStep? i = some e') :
    e'.carriers = Coordinator.carry (Carriers.publish s.outlet) e.carriers
      ((e.upcoming? i).bind fun job => (s.coordinator.store.react job.request).publication) := by
  obtain ⟨t, there, -, ⟨none, rfl⟩ | ⟨job, lane, c', next, -, rfl⟩⟩ := stationStep?_eq_some step
  · rw [none]
    rfl
  · obtain rfl : s = t := Option.some.inj (here.symm.trans there)
    rw [next]
    rfl

end Exchange

end PartExchange
