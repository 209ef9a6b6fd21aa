/-
**Which pump reads which inbox.**

Nothing is assumed here about who takes part: a peer may have several endpoints, participants may
share one, get one coordinator after the other, and leave.  Even so, an inbox is read by one pump at
work at most.  The pump of a participant reads the inbox of the participant's transport, and hands over
to the coordinator that the participant had when the pump was opened.  The pump ends, and the inbox is
closed, only if that coordinator has ended or if the peer has got another endpoint.

Main definitions:

* `Network.Doubled`: the peer of an endpoint has another one;
* `Exchange.Lost`: an endpoint is doubled, or a coordinator has ended;
* `Exchange.Fits`: a pump belongs to a participant;
* `Exchange.Plumbed`: every inbox has one reader at most, and every pump fits its participant;
* `Exchange.Reseated`, `Exchange.Refit`: a change of participants and pumps that keeps them fitting;
* `Exchange.Opened`: what a new pump is to the others.

Main results:

* `Exchange.Plumbed.refit`: such a change keeps an exchange plumbed;
* `Exchange.Plumbed.refit_pump`, `Exchange.Plumbed.refit_leave`, `Exchange.refit_attach`: the changes in
  which pumps or coordinators end;
* `Exchange.Plumbed.openPump`: a new pump keeps an exchange plumbed;
* `Exchange.plumbed_act?`: every action keeps an exchange plumbed.
-/

import PartExchange.Proofs.Inflow

set_option relaxedAutoImplicit false
set_option autoImplicit false

namespace PartExchange

/-! ### Peers with several endpoints -/

namespace Network

/-- The peer of an endpoint has another endpoint as well. -/
def Doubled (net : Network) (k : Nat) : Prop :=
  ∃ j peer, j ≠ k ∧ net.peerAt? j = some peer ∧ net.peerAt? k = some peer

variable {net : Network} {k : Nat}

theorem Begun.isSome (begun : net.Begun k) : (net.peerAt? k).isSome = true := by
  have reading : (net.readingAt? k).isSome = true := by
    rcases begun with pumped | closed
    · rw [pumped]
      rfl
    · rw [closed]
      rfl
  rw [readingAt?, Option.isSome_map] at reading
  rw [peerAt?, Option.isSome_map, reading]

/-- Nothing will arrive at an endpoint only if its peer has got another one. -/
theorem doubled_of_isReplaced (registered : net.Registered) (housed : net.Housed)
    (there : (net.peerAt? k).isSome = true) (replaced : net.isReplaced k = true) :
    net.Doubled k := by
  obtain ⟨peer, here⟩ := Option.isSome_iff_exists.1 there
  obtain ⟨self, present, rfl⟩ := peerAt?_eq_some.1 here
  obtain ⟨j, found⟩ := Option.isSome_iff_exists.1 (housed here)
  simp only [isReplaced, present, found] at replaced
  refine ⟨j, self.peer, ?_, registered _ _ found, here⟩
  rintro rfl
  simp at replaced

end Network

/-- What a transport is asked to publish changes neither peers nor the readers of inboxes. -/
theorem Carriers.framed_publish (outlet : Outlet) (carriers : Carriers) (publication : Publication) :
    carriers.net.Framed (Carriers.publish outlet carriers publication).1.net := by
  cases outlet with
  | endpoint k =>
    rw [Network.net_publish]
    exact Network.framed_carry _ _ _
  | recorder k =>
    rw [publish_recorder_net]
    exact .refl _

namespace Exchange

/-! ### Pumps that fit -/

/-- What arrives at an endpoint may get lost on its way to a coordinator: the peer has got another
endpoint, or the coordinator has ended. -/
def Lost (e : Exchange) (k i : Nat) : Prop := e.carriers.net.Doubled k ∨ e.Halted i

/-- A pump belongs to a participant with a transport on the network. -/
structure Fits (e : Exchange) (s : Site) (k : Nat) (a : Pump) : Prop where
  /-- It reads the inbox of the participant's transport. -/
  endpoint : a.endpoint = k
  /-- It serves the participant's coordinator, unless that one has ended. -/
  station : s.station = some a.station ∨ e.Halted a.station
  /-- When the participant leaves, the coordinator ends. -/
  present : s.present = false → e.Halted a.station
  /-- The pump ends only if calls may get lost. -/
  finished : a.finished = true → e.Lost k a.station
  /-- The inbox is closed only if calls may get lost. -/
  closed : e.carriers.net.readingAt? k = some .closed → e.Lost k a.station

/-- Every inbox has one reader at most, and every pump fits its participant. -/
structure Plumbed (e : Exchange) : Prop where
  /-- The queues of all coordinators are tidy. -/
  tidied : e.Tidied
  /-- Calls to a peer arrive at an endpoint of that peer. -/
  registered : e.carriers.net.Registered
  /-- Whoever has an endpoint is registered. -/
  housed : e.carriers.net.Housed
  /-- The coordinators of participants are there. -/
  placed : ∀ {n : Nat} {s : Site} {i : Nat}, e.sites[n]? = some s → s.station = some i →
    i < e.stations.length
  /-- The coordinators of pumps at work are there. -/
  stationed : ∀ {p : Nat} {a : Pump}, e.pumps[p]? = some a → a.finished = false →
    a.station < e.stations.length
  /-- A pump at work reads the inbox of its endpoint. -/
  reads : ∀ {p : Nat} {a : Pump}, e.pumps[p]? = some a → a.finished = false →
    e.carriers.net.Begun a.endpoint
  /-- Two pumps at work do not read one inbox. -/
  alone : ∀ {p q : Nat} {a b : Pump}, e.pumps[p]? = some a → a.finished = false →
    e.pumps[q]? = some b → b.finished = false → a.endpoint = b.endpoint → p = q
  /-- A recorder has no pump at work. -/
  idle : ∀ {n k p : Nat} {s : Site}, e.sites[n]? = some s → s.outlet = .recorder k →
    s.pump = some p → ∃ a, e.pumps[p]? = some a ∧ a.finished = true
  /-- A pump fits its participant. -/
  fits : ∀ {n k p : Nat} {s : Site}, e.sites[n]? = some s → s.outlet = .endpoint k →
    s.pump = some p → ∃ a, e.pumps[p]? = some a ∧ e.Fits s k a

theorem plumbed_new (capacity : Nat) : (Exchange.new capacity).Plumbed where
  tidied h := by cases h
  registered := Network.Registered.new capacity
  housed h := by cases h
  placed h := by cases h
  stationed h := by cases h
  reads h := by cases h
  alone h := by cases h
  idle h := by cases h
  fits h := by cases h

/-! ### Changes of participants and pumps -/

/-- A participant before and after a change.  It may get another coordinator when the one that it has
ends, and it may leave when its coordinator ends. -/
structure Reseated (e' : Exchange) (s s' : Site) : Prop where
  /-- It keeps its transport. -/
  outlet : s'.outlet = s.outlet
  /-- It keeps its pump. -/
  pump : s'.pump = s.pump
  /-- It keeps its coordinator, unless that one has ended. -/
  station : s'.station = s.station ∨ ∀ i, s.station = some i → e'.Halted i
  /-- Its coordinator is there. -/
  placed : ∀ i, s'.station = some i → s.station = some i ∨ i < e'.stations.length
  /-- When it leaves, its coordinator ends. -/
  present : s'.present = false → s.present = false ∨ ∀ i, s.station = some i → e'.Halted i

theorem Reseated.refl (e' : Exchange) (s : Site) : Reseated e' s s :=
  ⟨rfl, rfl, Or.inl rfl, fun _ => Or.inl, Or.inl⟩

/-- A change of participants and pumps after which every pump fits its participant. -/
structure Refit (e e' : Exchange) : Prop where
  /-- Pumps stay where they are, and end only if calls may get lost. -/
  kept : ∀ {q : Nat} {a : Pump}, e.pumps[q]? = some a → ∃ a', e'.pumps[q]? = some a' ∧
    a'.endpoint = a.endpoint ∧ a'.station = a.station ∧
      (a'.finished = true → a.finished = true ∨ e'.Lost a.endpoint a.station)
  /-- A pump at work was at work before. -/
  working : ∀ {q : Nat} {a' : Pump}, e'.pumps[q]? = some a' → a'.finished = false →
    ∃ a, e.pumps[q]? = some a ∧ a.finished = false ∧ a'.endpoint = a.endpoint ∧
      a'.station = a.station
  /-- Participants stay where they are; a new one has neither coordinator nor pump. -/
  sites : ∀ {n : Nat} {s' : Site}, e'.sites[n]? = some s' → (s'.station = none ∧ s'.pump = none) ∨
    ∃ s, e.sites[n]? = some s ∧ Reseated e' s s'
  /-- An inbox is closed only if its pump has ended or calls may get lost. -/
  closed : ∀ {n k q : Nat} {s : Site} {a : Pump}, e.sites[n]? = some s → s.outlet = .endpoint k →
    s.pump = some q → e.pumps[q]? = some a → e'.carriers.net.readingAt? k = some .closed →
      e.carriers.net.readingAt? k = some .closed ∨ a.finished = true ∨ e'.Lost k a.station

/-- A change in which pumps have no part. -/
theorem refit_of_pumps {e e' : Exchange} (pumps : e'.pumps = e.pumps)
    (sites : ∀ {n : Nat} {s' : Site}, e'.sites[n]? = some s' →
      (s'.station = none ∧ s'.pump = none) ∨ ∃ s, e.sites[n]? = some s ∧ Reseated e' s s')
    (closed : ∀ k, e'.carriers.net.readingAt? k = some .closed →
      e.carriers.net.readingAt? k = some .closed) : Refit e e' where
  kept {_ a} here := ⟨a, pumps ▸ here, rfl, rfl, Or.inl⟩
  working {_ a'} there works := ⟨a', pumps ▸ there, works, rfl, rfl⟩
  sites := sites
  closed _ _ _ _ shut := Or.inl (closed _ shut)

/-- A change in which neither pumps nor participants have a part. -/
theorem refit_of_sites {e e' : Exchange} (pumps : e'.pumps = e.pumps) (sites : e'.sites = e.sites)
    (closed : ∀ k, e'.carriers.net.readingAt? k = some .closed →
      e.carriers.net.readingAt? k = some .closed) : Refit e e' := by
  refine refit_of_pumps pumps ?_ closed
  intro n s' there
  exact Or.inr ⟨s', sites ▸ there, .refl e' s'⟩

theorem Tacit.refit {e e' : Exchange} (tacit : e.Tacit e') : Refit e e' :=
  refit_of_sites tacit.pumps tacit.sites fun _ shut => tacit.carriers ▸ shut

theorem doubled_act? {e e' : Exchange} {action : Action} (acts : e.act? action = some e') {k : Nat}
    (doubled : e.carriers.net.Doubled k) : e'.carriers.net.Doubled k := by
  obtain ⟨j, peer, other, there, here⟩ := doubled
  exact ⟨j, peer, other, peerAt?_act? acts there, peerAt?_act? acts here⟩

section Refit

variable {e e' : Exchange} {action : Action} {handled entered : List (Nat × Job)}
  (acts : e.act? action = some e') (conserves : Conserves handled entered e e')

include acts conserves

theorem lost_act? {k i : Nat} (lost : e.Lost k i) : e'.Lost k i :=
  lost.imp (doubled_act? acts) conserves.halted

/-- Where pumps end and inboxes are closed only if calls may get lost, a pump that fits still fits. -/
theorem Fits.refit {s s' : Site} {k : Nat} {a a' : Pump} (fits : e.Fits s k a)
    (seat : Reseated e' s s') (endpoint : a'.endpoint = a.endpoint) (station : a'.station = a.station)
    (finished : a'.finished = true → a.finished = true ∨ e'.Lost a.endpoint a.station)
    (closed : e'.carriers.net.readingAt? k = some .closed →
      e.carriers.net.readingAt? k = some .closed ∨ a.finished = true ∨ e'.Lost k a.station) :
    e'.Fits s' k a' := by
  have lost : e.Lost k a.station → e'.Lost k a.station := lost_act? acts conserves
  -- Whatever happens to the participant's coordinator happens to the pump's, as long as that one has
  -- not ended.
  have follows : (∀ i, s.station = some i → e'.Halted i) → e'.Halted a.station :=
    fun halts => fits.station.elim (halts _) conserves.halted
  refine ⟨endpoint.trans fits.endpoint, ?_, ?_, ?_, ?_⟩
  · rw [station]
    rcases seat.station with same | halts
    · exact fits.station.imp same.trans conserves.halted
    · exact Or.inr (follows halts)
  · rw [station]
    intro gone
    rcases seat.present gone with before | halts
    · exact conserves.halted (fits.present before)
    · exact follows halts
  · rw [station]
    intro ended
    rcases finished ended with before | lost'
    · exact lost (fits.finished before)
    · exact fits.endpoint ▸ lost'
  · rw [station]
    intro shut
    rcases closed shut with before | ended | lost'
    · exact lost (fits.closed before)
    · exact lost (fits.finished ended)
    · exact lost'

/-- Such a change keeps an exchange plumbed. -/
theorem Plumbed.refit (plumbed : e.Plumbed) (refit : Refit e e') : e'.Plumbed where
  tidied := conserves.tidied plumbed.tidied
  registered := registered_act? acts plumbed.registered
  housed := housed_act? acts plumbed.housed
  placed {n s' i} there serves := by
    rcases refit.sites there with ⟨none, -⟩ | ⟨s, here, seat⟩
    · rw [none] at serves
      cases serves
    · rcases seat.placed i serves with before | placed
      · exact Nat.lt_of_lt_of_le (plumbed.placed here before) conserves.length
      · exact placed
  stationed {p a'} there works := by
    obtain ⟨a, here, worked, -, station⟩ := refit.working there works
    rw [station]
    exact Nat.lt_of_lt_of_le (plumbed.stationed here worked) conserves.length
  reads {p a'} there works := by
    obtain ⟨a, here, worked, endpoint, -⟩ := refit.working there works
    rw [endpoint]
    exact begun_act? acts (plumbed.reads here worked)
  alone {p q a' b'} first works second works' same := by
    obtain ⟨a, here, worked, endpoint, -⟩ := refit.working first works
    obtain ⟨b, here', worked', endpoint', -⟩ := refit.working second works'
    exact plumbed.alone here worked here' worked' (endpoint.symm.trans (same.trans endpoint'))
  idle {n k p s'} there outlet reader := by
    rcases refit.sites there with ⟨-, none⟩ | ⟨s, here, seat⟩
    · rw [none] at reader
      cases reader
    · obtain ⟨a, at_p, finished⟩ :=
        plumbed.idle here (seat.outlet.symm.trans outlet) (seat.pump.symm.trans reader)
      obtain ⟨a', at_p', -⟩ := refit.kept at_p
      refine ⟨a', at_p', ?_⟩
      rw [← Bool.not_eq_false]
      intro works
      obtain ⟨b, at_p'', worked, -⟩ := refit.working at_p' works
      obtain rfl := Option.some.inj (at_p.symm.trans at_p'')
      rw [finished] at worked
      cases worked
  fits {n k p s'} there outlet reader := by
    rcases refit.sites there with ⟨-, none⟩ | ⟨s, here, seat⟩
    · rw [none] at reader
      cases reader
    · have outlet' := seat.outlet.symm.trans outlet
      have reader' := seat.pump.symm.trans reader
      obtain ⟨a, at_p, fits⟩ := plumbed.fits here outlet' reader'
      obtain ⟨a', at_p', endpoint, station, finished⟩ := refit.kept at_p
      exact ⟨a', at_p', fits.refit acts conserves seat endpoint station finished
        (refit.closed here outlet' reader' at_p)⟩

end Refit

/-! ### Actions -/

variable {e e' : Exchange}

/-- A participant that joins has neither coordinator nor pump. -/
theorem sites_concat {new s' : Site} (bare : new.station = none ∧ new.pump = none)
    (sites : e'.sites = e.sites ++ [new]) {n : Nat} (there : e'.sites[n]? = some s') :
    (s'.station = none ∧ s'.pump = none) ∨ ∃ s, e.sites[n]? = some s ∧ Reseated e' s s' := by
  rw [sites] at there
  rcases of_getElem?_concat there with old | rfl
  · exact Or.inr ⟨s', old, .refl e' s'⟩
  · exact Or.inl bare

/-- A participant that changes. -/
theorem sites_modify {m : Nat} {change : Site → Site} (sites : e'.sites = e.sites.modify m change)
    (seat : ∀ s, e.sites[m]? = some s → Reseated e' s (change s)) {n : Nat} {s' : Site}
    (there : e'.sites[n]? = some s') :
    (s'.station = none ∧ s'.pump = none) ∨ ∃ s, e.sites[n]? = some s ∧ Reseated e' s s' := by
  rw [sites, List.getElem?_modify] at there
  obtain ⟨s, here, rfl⟩ := Option.map_eq_some_iff.1 there
  refine Or.inr ⟨s, here, ?_⟩
  split
  · rename_i same
    exact seat s (same ▸ here)
  · exact .refl e' s

/-- An inbox is closed by a pump, or when the last participant that uses the transport leaves. -/
theorem closed_releaseOutlet {outlet : Outlet} {k : Nat}
    (closed : (e.releaseOutlet outlet).carriers.net.readingAt? k = some .closed) :
    e.carriers.net.readingAt? k = some .closed ∨
      ∀ s ∈ e.sites, s.outlet = .endpoint k → s.present = false := by
  unfold releaseOutlet at closed
  split at closed
  · exact Or.inl closed
  · rename_i j
    split at closed
    · exact Or.inl closed
    · rename_i unused
      by_cases own : k = j
      · subst own
        right
        intro s member outlet
        rw [← Bool.not_eq_true]
        intro present
        exact unused (List.any_eq_true.2 ⟨s, member, by simp [present, outlet]⟩)
      · left
        rw [Network.readingAt?, net_withNet, Network.getElem?_modify, if_neg (Ne.symm own)] at closed
        exact closed

/-- A pump that ends stays where it is. -/
theorem kept_endPump {p q : Nat} {a : Pump} (here : e.pumps[q]? = some a) :
    ∃ a', (e.endPump p).pumps[q]? = some a' ∧ a'.endpoint = a.endpoint ∧ a'.station = a.station ∧
      (a'.finished = true → a.finished = true ∨ q = p) := by
  unfold endPump
  split
  · exact ⟨a, here, rfl, rfl, Or.inl⟩
  · rename_i b there
    split
    · exact ⟨a, here, rfl, rfl, Or.inl⟩
    · by_cases own : p = q
      · subst own
        obtain rfl := Option.some.inj (here.symm.trans there)
        exact ⟨_, List.getElem?_set_self (List.getElem?_eq_some_iff.1 here).1, rfl, rfl,
          fun _ => Or.inr rfl⟩
      · exact ⟨a, (List.getElem?_set_ne own).trans here, rfl, rfl, Or.inl⟩

theorem kept_endReader {q : Nat} {a : Pump} (here : e.pumps[q]? = some a) (pump : Option Nat) :
    ∃ a', (e.endReader pump).pumps[q]? = some a' ∧ a'.endpoint = a.endpoint ∧
      a'.station = a.station ∧ (a'.finished = true → a.finished = true ∨ pump = some q) := by
  cases pump with
  | none => exact ⟨a, here, rfl, rfl, Or.inl⟩
  | some p =>
    obtain ⟨a', there, endpoint, station, finished⟩ := @kept_endPump e p q a here
    exact ⟨a', there, endpoint, station, fun ended => (finished ended).imp id (congrArg some ·.symm)⟩

theorem closed_endReader {pump : Option Nat} {k : Nat}
    (closed : (e.endReader pump).carriers.net.readingAt? k = some .closed) :
    e.carriers.net.readingAt? k = some .closed ∨ ∃ p a, pump = some p ∧ e.pumps[p]? = some a ∧
      a.finished = false ∧ k = a.endpoint := by
  cases pump with
  | none => exact Or.inl closed
  | some p =>
    refine (closed_endPump closed).imp id ?_
    rintro ⟨a, here, works, own⟩
    exact ⟨p, a, rfl, here, works, own⟩

/-- A coordinator that nobody polls any more has ended. -/
theorem halted_endStation {i : Nat} (inside : i < e.stations.length) :
    (e.endStation (some i)).Halted i := by
  refine ⟨{ e.stations[i] with coordinator := e.stations[i].coordinator.close }, ?_, rfl⟩
  simp [endStation, modifyCoordinator, inside]

section Leave

variable {m : Nat} {s : Site} (at_m : e.sites[m]? = some s)

include at_m

/-- A participant that leaves ends its coordinator and its pump, and then gives up its transport. -/
theorem leave_eq : e.leave m = (((e.endStation s.station).endReader s.pump).modifySite m
    fun s => { s with handle := false, present := false }).releaseOutlet s.outlet := by
  simp only [leave, at_m]

theorem pumps_leave :
    (e.leave m).pumps = ((e.endStation s.station).endReader s.pump).pumps := by
  rw [leave_eq at_m, pumps_releaseOutlet]
  rfl

theorem sites_leave : (e.leave m).sites =
    e.sites.modify m fun s => { s with handle := false, present := false } := by
  rw [leave_eq at_m, sites_releaseOutlet, modifySite, sites_endReader, sites_endStation]

/-- The coordinator of a participant that leaves ends. -/
theorem halted_leave {i : Nat} (has : s.station = some i) (inside : i < e.stations.length) :
    (e.leave m).Halted i := by
  have ended := halted_endStation inside
  rw [← has] at ended
  refine (Conserves.of_stations ?_).halted ended
  rw [leave_eq at_m, stations_releaseOutlet]
  exact stations_endReader _ _

/-- When a participant leaves, its pump closes its inbox; and an inbox is closed that no other
participant uses. -/
theorem closed_leave {k : Nat}
    (closed : (e.leave m).carriers.net.readingAt? k = some .closed) :
    e.carriers.net.readingAt? k = some .closed ∨
      (∃ p a, s.pump = some p ∧ e.pumps[p]? = some a ∧ a.finished = false ∧ k = a.endpoint) ∨
      ∀ n t, n ≠ m → e.sites[n]? = some t → t.outlet = .endpoint k → t.present = false := by
  rw [leave_eq at_m] at closed
  rcases closed_releaseOutlet closed with pumped | unused
  · rcases closed_endReader pumped with before | ⟨p, a, reader, at_p, rest⟩
    · rw [carriers_endStation] at before
      exact Or.inl before
    · rw [pumps_endStation] at at_p
      exact Or.inr (Or.inl ⟨p, a, reader, at_p, rest⟩)
  · right
    right
    intro n t other there
    apply unused t
    refine List.mem_iff_getElem?.2 ⟨n, ?_⟩
    rw [modifySite, sites_endReader, sites_endStation, List.getElem?_modify, there]
    exact congrArg some (if_neg (Ne.symm other))

end Leave

theorem sites_afterHandOver (e : Exchange) (p : Nat) (pump : Pump) (job : Job)
    (sending : Sending) : (e.afterHandOver p pump job sending).sites = e.sites := by
  cases sending with
  | sent => rfl
  | waiting => rfl
  | refused => exact sites_endPump e p

theorem sites_pumpStep? {p : Nat} (step : e.pumpStep? p = some e') : e'.sites = e.sites := by
  obtain ⟨pump, -, -, kind⟩ := pumpStep_of_pumpStep? step
  cases kind with
  | @retries job =>
    rw [sites_afterHandOver, (tacit_resume e pump.station job).sites]
  | @takes envelope net e₁ job sending idle received made =>
    rw [sites_afterHandOver]
    unfold submit at made
    split at made
    · cases made
    · cases made
      rfl
  | loses => exact sites_endPump _ p
  | retires => exact sites_endPump _ p

/-- A pump takes a call or hands one over. -/
theorem refit_goes {p : Nat} {pump : Pump} {held : Option Job} (here : e.pumps[p]? = some pump)
    (sites : e'.sites = e.sites) (pumps : e'.pumps = e.pumps.set p { pump with held })
    (closed : ∀ k, e'.carriers.net.readingAt? k = some .closed →
      e.carriers.net.readingAt? k = some .closed) : Refit e e' := by
  have at_q : ∀ q : Nat, e'.pumps[q]? =
      if p = q then some { pump with held } else e.pumps[q]? := by
    intro q
    rw [pumps, List.getElem?_set]
    split
    · rename_i own
      subst own
      rw [if_pos (List.getElem?_eq_some_iff.1 here).1]
    · rfl
  refine ⟨?_, ?_, fun {n s'} there => Or.inr ⟨s', sites ▸ there, .refl e' s'⟩,
    fun _ _ _ _ shut => Or.inl (closed _ shut)⟩
  · intro q a there
    rw [at_q]
    split
    · rename_i own
      subst own
      obtain rfl := Option.some.inj (here.symm.trans there)
      exact ⟨_, rfl, rfl, rfl, Or.inl⟩
    · exact ⟨a, there, rfl, rfl, Or.inl⟩
  · intro q a' there works
    rw [at_q] at there
    split at there
    · rename_i own
      subst own
      obtain rfl := Option.some.inj there
      exact ⟨pump, here, works, rfl, rfl⟩
    · exact ⟨a', there, works, rfl, rfl⟩

namespace Plumbed

variable (plumbed : e.Plumbed)

include plumbed

/-- A pump ends, because the coordinator has ended or nothing will arrive any more. -/
theorem refit_ends {p : Nat} {pump : Pump} (here : e.pumps[p]? = some pump)
    (working : pump.finished = false) (sites : e'.sites = e.sites) (brings : Brings [] [] e e')
    (pumps : e'.pumps = (e.endPump p).pumps) (lost : e'.Lost pump.endpoint pump.station)
    (closed : ∀ k, e'.carriers.net.readingAt? k = some .closed →
      e.carriers.net.readingAt? k = some .closed ∨ k = pump.endpoint) : Refit e e' := by
  refine ⟨?_, ?_, fun {n s'} there => Or.inr ⟨s', sites ▸ there, .refl e' s'⟩, ?_⟩
  · intro q a there
    obtain ⟨a', there', endpoint, station, finished⟩ := @kept_endPump e p q a there
    refine ⟨a', pumps ▸ there', endpoint, station, fun ended => ?_⟩
    rcases finished ended with before | rfl
    · exact Or.inl before
    · obtain rfl := Option.some.inj (here.symm.trans there)
      exact Or.inr lost
  · intro q a' there works
    exact ⟨a', brings.working there works, works, rfl, rfl⟩
  · intro n k q s a there outlet reader at_q shut
    rcases closed k shut with before | rfl
    · exact Or.inl before
    · right
      obtain ⟨b, at_q', fits⟩ := plumbed.fits there outlet reader
      obtain rfl := Option.some.inj (at_q.symm.trans at_q')
      cases ended : a.finished with
      | true => exact Or.inl rfl
      | false =>
        obtain rfl := plumbed.alone at_q ended here working fits.endpoint
        obtain rfl := Option.some.inj (here.symm.trans at_q)
        exact Or.inr lost

/-- What a pump's step does to pumps and participants. -/
theorem refit_pump {p : Nat} (acts : e.act? (.pump p) = some e') : Refit e e' := by
  obtain ⟨pump, here, working, -⟩ := pumpStep_of_pumpStep? acts
  have sites := sites_pumpStep? acts
  cases pumpMoves_pumpStep? here (plumbed.stationed here working) plumbed.tidied acts with
  | goes conserves pumps hands closed => exact refit_goes here sites pumps closed
  | ends brings pumps reason closed =>
    have lost : e'.Lost pump.endpoint pump.station := by
      rcases reason with halted | replaced
      · exact Or.inr halted
      · left
        exact doubled_act? acts (Network.doubled_of_isReplaced plumbed.registered plumbed.housed
          (plumbed.reads here working).isSome replaced)
    exact plumbed.refit_ends here working sites brings pumps lost closed

/-- When a participant leaves, its pump has ended, or its pump's coordinator ends. -/
theorem ended_leave {m q : Nat} {s : Site} {a : Pump} (at_m : e.sites[m]? = some s)
    (reader : s.pump = some q) (at_q : e.pumps[q]? = some a) :
    a.finished = true ∨ (e.leave m).Halted a.station := by
  cases out : s.outlet with
  | recorder k =>
    obtain ⟨b, at_q', finished⟩ := plumbed.idle at_m out reader
    obtain rfl := Option.some.inj (at_q.symm.trans at_q')
    exact Or.inl finished
  | endpoint k =>
    obtain ⟨b, at_q', fits⟩ := plumbed.fits at_m out reader
    obtain rfl := Option.some.inj (at_q.symm.trans at_q')
    right
    rcases fits.station with has | halted
    · exact halted_leave at_m has (plumbed.placed at_m has)
    · exact (brings_leave e m).halted halted

/-- What the departure of a participant does to pumps and participants. -/
theorem refit_leave {m : Nat} {s : Site} (at_m : e.sites[m]? = some s) : Refit e (e.leave m) := by
  have brings := brings_leave e m
  refine ⟨?_, ?_, ?_, ?_⟩
  · intro q a there
    obtain ⟨a', there', endpoint, station, finished⟩ :=
      @kept_endReader (e.endStation s.station) q a ((pumps_endStation e _).symm ▸ there) s.pump
    refine ⟨a', pumps_leave at_m ▸ there', endpoint, station, fun ended => ?_⟩
    rcases finished ended with before | reader
    · exact Or.inl before
    · exact (plumbed.ended_leave at_m reader there).imp id Or.inr
  · intro q a' there works
    exact ⟨a', brings.working there works, works, rfl, rfl⟩
  · intro n s' there
    refine sites_modify (sites_leave at_m) ?_ there
    intro t at_m'
    obtain rfl := Option.some.inj (at_m.symm.trans at_m')
    refine ⟨rfl, rfl, Or.inl rfl, fun _ => Or.inl, fun _ => Or.inr ?_⟩
    exact fun i has => halted_leave at_m has (plumbed.placed at_m has)
  · intro n k q t a there outlet reader at_q shut
    obtain ⟨b, at_q', fits⟩ := plumbed.fits there outlet reader
    obtain rfl := Option.some.inj (at_q.symm.trans at_q')
    rcases closed_leave at_m shut with before | ⟨p, b, reader', at_p, works, rfl⟩ | unused
    · exact Or.inl before
    · -- The pump of the participant that leaves closes its inbox.
      right
      cases ended : a.finished with
      | true => exact Or.inl rfl
      | false =>
        obtain rfl := plumbed.alone at_q ended at_p works fits.endpoint
        refine (plumbed.ended_leave at_m reader' at_q).imp ?_ Or.inr
        intro finished
        rw [ended] at finished
        cases finished
    · -- Nobody uses the transport any more, so the owner of the pump has left.
      right
      by_cases same : n = m
      · subst same
        obtain rfl := Option.some.inj (at_m.symm.trans there)
        exact (plumbed.ended_leave at_m reader at_q).imp id Or.inr
      · exact Or.inr (Or.inr (brings.halted (fits.present (unused n t same there outlet))))

end Plumbed

/-- A participant gets a coordinator. -/
theorem refit_attach {m : Nat} {s : Site} (plumbed : e.Plumbed) (config : CoordinatorConfig)
    (at_m : e.sites[m]? = some s) : Refit e (e.attach m config) := by
  have whole : e.attach m config = ({ e.endStation s.station with
      stations := (e.endStation s.station).stations ++ [⟨s.outlet, .new config⟩] } :
        Exchange).modifySite m fun t =>
          { t with station := some (e.endStation s.station).stations.length, handle := true } := by
    simp only [attach, at_m]
  have conserves := Conserves.concat (e.endStation s.station) s.outlet config
  refine refit_of_pumps ?_ ?_ ?_
  · rw [whole]
    exact pumps_endStation e _
  · intro n s' there
    have sites : (e.attach m config).sites = e.sites.modify m fun t =>
        { t with station := some (e.endStation s.station).stations.length, handle := true } := by
      rw [whole, ← sites_endStation e s.station]
      rfl
    refine sites_modify sites ?_ there
    intro t at_m'
    obtain rfl := Option.some.inj (at_m.symm.trans at_m')
    refine ⟨rfl, rfl, Or.inr ?_, ?_, Or.inl⟩
    · intro i has
      have ended := halted_endStation (plumbed.placed at_m has)
      rw [← has] at ended
      rw [whole]
      exact conserves.halted ended
    · intro i has
      obtain rfl := Option.some.inj has
      right
      rw [whole]
      simp [modifySite]
  · intro k shut
    rw [whole] at shut
    simpa [modifySite] using shut

/-- What a new pump is to the others.  It is at work if its participant is on the network, and then
nobody has begun to read the inbox before. -/
structure Opened (e : Exchange) (m : Nat) (s : Site) (new : Pump) (e' : Exchange) : Prop where
  /-- It comes after all others. -/
  pumps : e'.pumps = e.pumps ++ [new]
  /-- It is given to a participant that has had none. -/
  sites : e'.sites = e.sites.modify m fun s => { s with pump := s.pump.or (some e.pumps.length) }
  /-- Coordinators stay as they are. -/
  stations : e'.stations = e.stations
  /-- Requests stay as they are. -/
  calls : e'.calls = e.calls
  /-- It serves the coordinator of the participant. -/
  station : new.station = s.station.getD 0
  /-- It holds nothing yet. -/
  held : new.held = none
  /-- A recorder gets a pump that has ended. -/
  idle : ∀ k, s.outlet = .recorder k → new.finished = true
  /-- Whoever is on the network gets a pump for its endpoint. -/
  endpoint : ∀ k, s.outlet = .endpoint k → new.endpoint = k ∧ new.finished = false
  /-- Nobody has begun to read the inbox. -/
  unread : new.finished = false → ¬ e.carriers.net.Begun new.endpoint ∧
    e'.carriers.net.Begun new.endpoint
  /-- No inbox is closed. -/
  closed : ∀ k, e'.carriers.net.readingAt? k = some .closed →
    e.carriers.net.readingAt? k = some .closed

theorem opened_of_opens {m : Nat} {s : Site} (opens : Opens e m s e') :
    ∃ new, Opened e m s new e' := by
  cases opens with
  | @recorder k outlet =>
    refine ⟨_, rfl, rfl, rfl, rfl, rfl, rfl, fun _ _ => rfl, ?_, ?_, fun _ => id⟩
    · intro j outlet'
      rw [outlet] at outlet'
      cases outlet'
    · intro works
      cases works
  | @endpoint k self outlet present unread =>
    have readings := @Network.readingAt?_modify e.carriers.net k
      (fun k => { k with reading := .pumped }) self present
    refine ⟨_, rfl, rfl, rfl, rfl, rfl, rfl, ?_, ?_, fun _ => ⟨?_, ?_⟩, ?_⟩
    · intro j outlet'
      rw [outlet] at outlet'
      cases outlet'
    · intro j outlet'
      exact ⟨Outlet.endpoint.inj (outlet.symm.trans outlet'), rfl⟩
    · rw [Network.Begun, Network.readingAt?_of_present present, unread]
      decide
    · exact Or.inl ((readings k).trans (if_pos rfl))
    · intro j shut
      replace shut := (readings j).symm.trans shut
      split at shut
      · cases shut
      · exact shut

namespace Opened

variable {m : Nat} {s : Site} {new : Pump} (opened : Opened e m s new e')

include opened

theorem kept {p : Nat} {a : Pump} (here : e.pumps[p]? = some a) : e'.pumps[p]? = some a := by
  rw [opened.pumps]
  exact getElem?_concat_of_some here new

theorem last : e'.pumps[e.pumps.length]? = some new := by
  rw [opened.pumps]
  exact List.getElem?_concat_length

theorem pump_cases {p : Nat} {a : Pump} (there : e'.pumps[p]? = some a) :
    (p = e.pumps.length ∧ a = new) ∨ e.pumps[p]? = some a := by
  rw [opened.pumps, getElem?_concat] at there
  split at there
  · rename_i last
    exact Or.inl ⟨last, (Option.some.inj there).symm⟩
  · exact Or.inr there

theorem site_cases (at_m : e.sites[m]? = some s) {n : Nat} {t' : Site}
    (there : e'.sites[n]? = some t') : ∃ t, e.sites[n]? = some t ∧ t'.outlet = t.outlet ∧
      t'.station = t.station ∧ t'.present = t.present ∧
        (t'.pump = t.pump ∨ (t = s ∧ t'.pump = some e.pumps.length)) := by
  rw [opened.sites, List.getElem?_modify] at there
  obtain ⟨t, here, rfl⟩ := Option.map_eq_some_iff.1 there
  refine ⟨t, here, ?_⟩
  split
  · rename_i same
    obtain rfl := Option.some.inj (at_m.symm.trans (same ▸ here))
    refine ⟨rfl, rfl, rfl, ?_⟩
    cases s.pump with
    | none => exact Or.inr ⟨rfl, rfl⟩
    | some p => exact Or.inl rfl
  · exact ⟨rfl, rfl, rfl, Or.inl rfl⟩

/-- The new pump fits its participant. -/
theorem fits {i k : Nat} (has : s.station = some i) (takesPart : s.present = true)
    (outlet : s.outlet = .endpoint k) {s' : Site} (station : s'.station = s.station)
    (present : s'.present = s.present) : e'.Fits s' k new := by
  obtain ⟨endpoint, works⟩ := opened.endpoint k outlet
  refine ⟨endpoint, Or.inl ?_, ?_, ?_, ?_⟩
  · rw [station, opened.station, has]
    rfl
  · intro gone
    rw [present, takesPart] at gone
    cases gone
  · intro ended
    rw [works] at ended
    cases ended
  · intro shut
    exact absurd (Or.inr (endpoint ▸ opened.closed k shut)) (opened.unread works).1

end Opened

/-- A pump that fits still fits where nothing has got lost. -/
theorem Fits.of_still {s s' : Site} {k : Nat} {a : Pump} (fits : e.Fits s k a)
    (station : s'.station = s.station) (present : s'.present = s.present)
    (halted : e.Halted a.station → e'.Halted a.station)
    (lost : e.Lost k a.station → e'.Lost k a.station)
    (closed : e'.carriers.net.readingAt? k = some .closed →
      e.carriers.net.readingAt? k = some .closed) : e'.Fits s' k a where
  endpoint := fits.endpoint
  station := fits.station.imp station.trans halted
  present gone := halted (fits.present (present ▸ gone))
  finished ended := lost (fits.finished ended)
  closed shut := lost (fits.closed (closed shut))

/-- A participant with a coordinator gets a pump. -/
theorem Plumbed.openPump {m : Nat} (plumbed : e.Plumbed)
    (acts : e.act? (.openPump m) = some e') : e'.Plumbed := by
  obtain ⟨s, i, number, at_m, has, opened⟩ := openPump_of_act? acts
  have takesPart : s.present = true := by
    obtain ⟨t, here, -⟩ := Option.bind_eq_some_iff.1 acts
    obtain ⟨at_m', present⟩ := Option.filter_eq_some_iff.1 here
    obtain rfl := Option.some.inj (at_m.symm.trans at_m')
    exact present
  obtain ⟨new, opened⟩ := opened_of_opens (opens_openPump at_m opened)
  have serves : new.station = i := by
    rw [opened.station, has]
    rfl
  have conserves := Conserves.of_stations opened.stations
  refine
    { tidied := conserves.tidied plumbed.tidied
      registered := registered_act? acts plumbed.registered
      housed := housed_act? acts plumbed.housed
      placed := fun {n t' j} there serves => ?placed
      stationed := fun {p a} there works => ?stationed
      reads := fun {p a} there works => ?reads
      alone := fun {p q a b} first works second works' same => ?alone
      idle := fun {n k p t'} there outlet reader => ?idle
      fits := fun {n k p t'} there outlet reader => ?fits }
  case placed =>
    obtain ⟨t, here, -, station, -⟩ := opened.site_cases at_m there
    rw [opened.stations]
    exact plumbed.placed here (station ▸ serves)
  case stationed =>
    rw [opened.stations]
    rcases opened.pump_cases there with ⟨-, rfl⟩ | here
    · rw [serves]
      exact plumbed.placed at_m has
    · exact plumbed.stationed here works
  case reads =>
    rcases opened.pump_cases there with ⟨-, rfl⟩ | here
    · exact (opened.unread works).2
    · exact begun_act? acts (plumbed.reads here works)
  case alone =>
    rcases opened.pump_cases first with ⟨here, rfl⟩ | here
    · rcases opened.pump_cases second with ⟨here', -⟩ | here'
      · exact here.trans here'.symm
      · exact absurd (same ▸ plumbed.reads here' works') (opened.unread works).1
    · rcases opened.pump_cases second with ⟨-, rfl⟩ | here'
      · exact absurd (same ▸ plumbed.reads here works) (opened.unread works').1
      · exact plumbed.alone here works here' works' same
  case idle =>
    obtain ⟨t, here, outlet', -, -, same | ⟨rfl, fresh⟩⟩ := opened.site_cases at_m there
    · obtain ⟨a, at_p, finished⟩ := plumbed.idle here (outlet' ▸ outlet) (same ▸ reader)
      exact ⟨a, opened.kept at_p, finished⟩
    · obtain rfl := Option.some.inj (fresh.symm.trans reader)
      exact ⟨new, opened.last, opened.idle k (outlet' ▸ outlet)⟩
  case fits =>
    obtain ⟨t, here, outlet', station, present, same | ⟨rfl, fresh⟩⟩ := opened.site_cases at_m there
    · obtain ⟨a, at_p, fits⟩ := plumbed.fits here (outlet' ▸ outlet) (same ▸ reader)
      exact ⟨a, opened.kept at_p, fits.of_still station present conserves.halted
        (lost_act? acts conserves) (opened.closed k)⟩
    · obtain rfl := Option.some.inj (fresh.symm.trans reader)
      exact ⟨new, opened.last, opened.fits has takesPart (outlet' ▸ outlet) station present⟩

/-- Every action keeps an exchange plumbed. -/
theorem plumbed_act? {action : Action} (plumbed : e.Plumbed) (acts : e.act? action = some e') :
    e'.Plumbed := by
  cases action with
  | openPump m => exact plumbed.openPump acts
  | pump p =>
    obtain ⟨pump, here, working, -⟩ := pumpStep_of_pumpStep? acts
    have refit := plumbed.refit_pump acts
    cases pumpMoves_pumpStep? here (plumbed.stationed here working) plumbed.tidied acts with
    | goes conserves => exact plumbed.refit acts conserves refit
    | ends brings => exact plumbed.refit acts brings.toConserves refit
  | leave m =>
    obtain ⟨s, here, rfl⟩ := Option.map_eq_some_iff.1 acts
    exact plumbed.refit acts (brings_leave e m).toConserves
      (plumbed.refit_leave (site_of_presentSite? here))
  | attach m config =>
    obtain ⟨s, here, rfl⟩ := Option.map_eq_some_iff.1 acts
    exact plumbed.refit acts (brings_attach e m config).toConserves
      (refit_attach plumbed config (site_of_presentSite? here))
  | join peer =>
    obtain rfl := Option.some.inj acts
    refine plumbed.refit acts (.of_stations rfl) (refit_of_pumps rfl (sites_concat ⟨rfl, rfl⟩ rfl) ?_)
    intro k shut
    replace shut := (Network.readingAt?_register e.carriers.net peer k).symm.trans shut
    split at shut
    · cases shut
    · exact shut
  | record peer =>
    obtain rfl := Option.some.inj acts
    exact plumbed.refit acts (.of_stations rfl)
      (refit_of_pumps rfl (sites_concat ⟨rfl, rfl⟩ rfl) fun _ => id)
  | share m =>
    obtain ⟨s, -, rfl⟩ := Option.map_eq_some_iff.1 acts
    exact plumbed.refit acts (.of_stations rfl)
      (refit_of_pumps rfl (sites_concat ⟨rfl, rfl⟩ rfl) fun _ => id)
  | dropHandle m =>
    obtain rfl := Option.some.inj acts
    refine plumbed.refit acts (.of_stations rfl) (refit_of_pumps rfl (sites_modify rfl ?_) fun _ => id)
    intro s here
    exact ⟨rfl, rfl, Or.inl rfl, fun _ => Or.inl, Or.inl⟩
  | connect a b =>
    obtain ⟨net, made, rfl⟩ := connect_of_act? acts
    refine plumbed.refit acts (.of_stations rfl) (refit_of_sites rfl rfl ?_)
    intro k shut
    rwa [net_withNet, (Network.connected made).readingAt?] at shut
  | transmit m publication =>
    obtain ⟨s, -, rfl⟩ := Option.map_eq_some_iff.1 acts
    refine plumbed.refit acts (.of_stations rfl) (refit_of_sites rfl rfl ?_)
    intro k shut
    rwa [(Carriers.framed_publish s.outlet e.carriers publication).readingAt?] at shut
  | request i request =>
    obtain ⟨entered, brings⟩ := brings_act? plumbed.tidied acts trivial
    obtain rfl := Option.some.inj acts
    exact plumbed.refit acts brings.toConserves (tacit_call e i request).refit
  | poll number =>
    obtain ⟨entered, brings⟩ := brings_act? plumbed.tidied acts trivial
    obtain rfl := Option.some.inj acts
    exact plumbed.refit acts brings.toConserves (tacit_pollCall e number).refit
  | abandon number =>
    obtain ⟨entered, brings⟩ := brings_act? plumbed.tidied acts trivial
    obtain rfl := Option.some.inj acts
    exact plumbed.refit acts brings.toConserves (tacit_abandon e number).refit
  | askStop m =>
    obtain ⟨entered, brings⟩ := brings_act? plumbed.tidied acts trivial
    refine plumbed.refit acts brings.toConserves ?_
    obtain rfl := Option.some.inj acts
    unfold askStop
    split <;> exact refit_of_sites rfl rfl fun _ => id
  | serve i =>
    obtain ⟨entered, brings⟩ := brings_act? plumbed.tidied acts trivial
    refine plumbed.refit acts brings.toConserves ?_
    obtain ⟨s, here, -, ⟨-, rfl⟩ | ⟨job, lane, c', -, -, rfl⟩⟩ := stationStep?_eq_some acts
    · exact refit_of_sites rfl rfl fun _ => id
    · refine refit_of_sites rfl rfl ?_
      intro k shut
      cases published : (s.coordinator.store.react job.request).publication with
      | none => rwa [published] at shut
      | some publication =>
        rw [published] at shut
        exact ((Carriers.framed_publish s.outlet e.carriers publication).readingAt? k).symm.trans shut

end Exchange

end PartExchange
