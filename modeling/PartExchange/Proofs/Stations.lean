/-
**What happens to a coordinator while it handles nothing.**

Most actions have nothing to do with the requests that a coordinator answers.  They join and link
participants, move calls from peers into the coordinator's queue, or end the coordinator; its store,
its reports and its answers stay as they are, and so do the requests that wait for an answer, unless
they are discarded because the coordinator ends.

Requests to a coordinator enter the lane of their kind.  The lane of calls from peers is the only
one in which nobody waits for an answer.

Main definitions:

* `Job.Asks`: a job that is answered;
* `Coordinator.Silent`: a coordinator that reports and answers nothing;
* `Coordinator.Aside`, `Exchange.Aside`: a change that has nothing to do with requests that are
  answered.

Main results:

* `Exchange.aside_act?`: an action is aside unless it is about a request or a coordinator's step.
-/

import PartExchange.Proofs.Run

set_option relaxedAutoImplicit false
set_option autoImplicit false

namespace PartExchange

/-- A job that is answered, which a call from a peer is not. -/
def Job.Asks (job : Job) : Prop := job.request.lane ≠ .incoming

instance (job : Job) : Decidable job.Asks := inferInstanceAs (Decidable (¬ _))

/-! ### Coordinators -/

namespace Coordinator

section SetQueue

variable (c : Coordinator) (lane : Lane) (q : Queue Job)

@[simp] theorem log_setQueue : (c.setQueue lane q).log = c.log := by cases lane <;> rfl

@[simp] theorem answers_setQueue : (c.setQueue lane q).answers = c.answers := by cases lane <;> rfl

@[simp] theorem nextId_setQueue : (c.setQueue lane q).nextId = c.nextId := by cases lane <;> rfl

end SetQueue

/-- A coordinator before and after it has reported and answered nothing. -/
structure Silent (c c' : Coordinator) : Prop where
  /-- Nothing is reported. -/
  log : c'.log = c.log
  /-- Nothing is answered. -/
  answers : c'.answers = c.answers
  /-- Numbers are used once. -/
  nextId : c.nextId ≤ c'.nextId

theorem Silent.refl (c : Coordinator) : c.Silent c := ⟨rfl, rfl, Nat.le_refl _⟩

theorem Silent.trans {c c' c'' : Coordinator} (first : c.Silent c') (second : c'.Silent c'') :
    c.Silent c'' where
  log := second.log.trans first.log
  answers := second.answers.trans first.answers
  nextId := Nat.le_trans first.nextId second.nextId

theorem silent_submit (c : Coordinator) (request : Request) : c.Silent (c.submit request).1 := by
  simp only [submit]
  exact ⟨log_setQueue .., answers_setQueue .., Nat.le_succ _⟩

theorem silent_resume (c : Coordinator) (job : Job) : c.Silent (c.resume job).1 := by
  simp only [resume]
  exact ⟨log_setQueue .., answers_setQueue .., (nextId_setQueue ..).ge⟩

theorem silent_withdraw (c : Coordinator) (job : Job) : c.Silent (c.withdraw job) := by
  simp only [withdraw]
  exact ⟨log_setQueue .., answers_setQueue .., (nextId_setQueue ..).ge⟩

/-- A coordinator before and after a change that has nothing to do with requests that are answered.
Calls from peers may come, and it may end. -/
structure Aside (c c' : Coordinator) : Prop extends Silent c c' where
  /-- The store is untouched. -/
  store : c'.store = c.store
  /-- What has ended does not begin again. -/
  ended : c.ended = true → c'.ended = true
  /-- Requests that are answered wait where they are, unless the coordinator has ended. -/
  items : ∀ lane, lane ≠ .incoming → (c'.queue lane).items = (c.queue lane).items ∨
    (c'.ended = true ∧ (c'.queue lane).items = [])
  /-- The queues stay tidy. -/
  tidy : c.Tidy → c'.Tidy

theorem Aside.refl (c : Coordinator) : c.Aside c where
  toSilent := Silent.refl c
  store := rfl
  ended := id
  items _ _ := Or.inl rfl
  tidy := id

theorem Aside.trans {c c' c'' : Coordinator} (first : c.Aside c') (second : c'.Aside c'') :
    c.Aside c'' where
  toSilent := first.toSilent.trans second.toSilent
  store := second.store.trans first.store
  ended h := second.ended (first.ended h)
  items lane asks := by
    rcases second.items lane asks with same | emptied
    · rcases first.items lane asks with same' | ⟨ended, none⟩
      · exact Or.inl (same.trans same')
      · exact Or.inr ⟨second.ended ended, same.trans none⟩
    · exact Or.inr emptied
  tidy h := second.tidy (first.tidy h)

/-- The end of a coordinator. -/
theorem aside_close (c : Coordinator) : c.Aside c.close where
  toSilent := ⟨rfl, rfl, Nat.le_refl _⟩
  store := rfl
  ended _ := rfl
  items lane _ := Or.inr ⟨rfl, by rw [queue_close, Queue.items_close]⟩
  tidy _ := tidy_close

/-- A sender that brings no request that is answered. -/
theorem Fed.aside {c c' : Coordinator} {entered : Option Job} (fed : c.Fed c' entered)
    (silent : c.Silent c') (calls : ∀ job, entered = some job → ¬ job.Asks) : c.Aside c' where
  toSilent := silent
  store := fed.store
  ended h := by rw [fed.ended, h]
  items lane asks := by
    left
    rw [fed.items]
    cases entered with
    | none => simp
    | some job =>
      have incoming : job.request.lane = .incoming := Decidable.not_not.1 (calls job rfl)
      simp [incoming, Ne.symm asks]
  tidy h := h.fed fed

theorem aside_askStop (c : Coordinator) : c.Aside c.askStop :=
  c.fed_askStop.aside ⟨rfl, rfl, Nat.le_refl _⟩ fun _ h => by cases h

/-- A call from a peer that is sent for the first time. -/
theorem aside_submit {c : Coordinator} {request : Request} (call : request.lane = .incoming) :
    c.Aside (c.submit request).1 := by
  refine (c.fed_submit request).aside (c.silent_submit request) ?_
  intro job entered
  split at entered
  · obtain rfl := Option.some.inj entered
    simpa [Job.Asks, submit] using call
  · cases entered

/-- A call from a peer that has waited. -/
theorem aside_resume {c : Coordinator} {job : Job} (call : ¬ job.Asks) :
    c.Aside (c.resume job).1 := by
  refine (c.fed_resume job).aside (c.silent_resume job) ?_
  intro entered there
  split at there
  · obtain rfl := Option.some.inj there
    exact call
  · cases there

end Coordinator

/-! ### Exchanges -/

namespace Exchange

/-- Pumps hold calls from peers only. -/
def HoldsCalls (e : Exchange) : Prop :=
  ∀ pump ∈ e.pumps, ∀ job, pump.held = some job → ¬ job.Asks

/-- A change that has nothing to do with requests that are answered. -/
structure Aside (e e' : Exchange) : Prop where
  /-- Whoever has made a request stands where it stood. -/
  calls : e'.calls = e.calls
  /-- No coordinator answers anything. -/
  kept : ∀ {i : Nat} {s : Station}, e.stations[i]? = some s →
    ∃ s' : Station, e'.stations[i]? = some s' ∧ s.coordinator.Aside s'.coordinator
  /-- A coordinator that was not there before is new. -/
  fresh : ∀ {i : Nat} {s' : Station}, e'.stations[i]? = some s' → e.stations[i]? = none →
    ∃ config, (Coordinator.new config).Aside s'.coordinator
  /-- Pumps hold calls from peers only. -/
  held : e.HoldsCalls → e'.HoldsCalls

namespace Aside

variable {e e' e'' : Exchange}

theorem trans (first : e.Aside e') (second : e'.Aside e'') : e.Aside e'' where
  calls := second.calls.trans first.calls
  kept here := by
    obtain ⟨s', there, aside⟩ := first.kept here
    obtain ⟨s'', there', aside'⟩ := second.kept there
    exact ⟨s'', there', aside.trans aside'⟩
  fresh {i s''} there absent := by
    cases before : e'.stations[i]? with
    | none => exact second.fresh there before
    | some s' =>
      obtain ⟨config, new⟩ := first.fresh before absent
      obtain ⟨t, there', aside⟩ := second.kept before
      obtain rfl : t = s'' := Option.some.inj (there'.symm.trans there)
      exact ⟨config, new.trans aside⟩
  held h := second.held (first.held h)

/-- Changing neither requests nor coordinators. -/
theorem of_eq (calls : e'.calls = e.calls) (stations : e'.stations = e.stations)
    (held : e.HoldsCalls → e'.HoldsCalls) : e.Aside e' where
  calls := calls
  kept {i s} here := ⟨s, by rw [stations, here], .refl _⟩
  fresh {i s'} there absent := by
    rw [stations, absent] at there
    cases there
  held := held

theorem refl (e : Exchange) : e.Aside e := of_eq rfl rfl id

/-- Closing an inbox. -/
theorem close (e : Exchange) (k : Nat) :
    e.Aside (e.withNet (e.carriers.net.modify k Endpoint.close)) :=
  of_eq rfl rfl id

/-- Replacing a coordinator. -/
theorem putCoordinator {i : Nat} {s : Station} (here : e.stations[i]? = some s) {c : Coordinator}
    (aside : s.coordinator.Aside c) : e.Aside (e.putCoordinator i c) where
  calls := rfl
  kept {j t} there := by
    rw [getElem?_putCoordinator, there]
    by_cases same : i = j
    · subst same
      obtain rfl : s = t := Option.some.inj (here.symm.trans there)
      exact ⟨{ s with coordinator := c }, by simp, aside⟩
    · exact ⟨t, by simp [same], .refl _⟩
  fresh {j t} there absent := by
    rw [getElem?_putCoordinator, absent] at there
    simp at there
  held := id

theorem modifyCoordinator (e : Exchange) (i : Nat) {change : Coordinator → Coordinator}
    (aside : ∀ c : Coordinator, c.Aside (change c)) : e.Aside (e.modifyCoordinator i change) := by
  cases here : e.stations[i]? with
  | none =>
    refine of_eq rfl ?_ id
    apply List.ext_getElem?
    intro j
    rw [Exchange.modifyCoordinator, List.getElem?_modify]
    split
    · rename_i same
      rw [← same, here]
      rfl
    · simp
  | some s =>
    rw [modifyCoordinator_eq here]
    exact putCoordinator here (aside s.coordinator)

theorem endStation (e : Exchange) (station : Option Nat) : e.Aside (e.endStation station) := by
  cases station with
  | none => exact refl e
  | some i => exact modifyCoordinator e i Coordinator.aside_close

/-- A pump that holds nothing, or a call from a peer. -/
theorem putPump (e : Exchange) (p : Nat) {pump : Pump}
    (calls : ∀ job, pump.held = some job → ¬ job.Asks) : e.Aside (e.putPump p pump) := by
  refine of_eq rfl rfl ?_
  intro held other member job holds
  rcases List.mem_or_eq_of_mem_set member with before | rfl
  · exact held other before job holds
  · exact calls job holds

theorem endPump (e : Exchange) (p : Nat) : e.Aside (e.endPump p) := by
  unfold Exchange.endPump
  split
  · exact refl e
  · split
    · exact refl e
    · rename_i pump here working
      have empty : ∀ job, ({ pump with held := none, finished := true } : Pump).held = some job →
          ¬ job.Asks := by
        intro job h
        cases h
      exact (close e pump.endpoint).trans (putPump _ p empty)

theorem endReader (e : Exchange) (pump : Option Nat) : e.Aside (e.endReader pump) := by
  cases pump with
  | none => exact refl e
  | some p => exact endPump e p

theorem releaseOutlet (e : Exchange) (outlet : Outlet) : e.Aside (e.releaseOutlet outlet) := by
  unfold Exchange.releaseOutlet
  split
  · exact refl e
  · split
    · exact refl e
    · exact close e _

theorem attach (e : Exchange) (site : Nat) (config : CoordinatorConfig) :
    e.Aside (e.attach site config) := by
  unfold Exchange.attach
  split
  · exact refl e
  · rename_i s here
    refine (endStation e s.station).trans ?_
    refine ⟨rfl, ?_, ?_, id⟩
    · intro i t there
      exact ⟨t, getElem?_concat_of_some there _, .refl _⟩
    · intro i t there absent
      rcases of_getElem?_concat there with before | rfl
      · rw [absent] at before
        cases before
      · exact ⟨config, .refl _⟩

theorem leave (e : Exchange) (site : Nat) : e.Aside (e.leave site) := by
  unfold Exchange.leave
  split
  · exact refl e
  · rename_i s here
    refine ((endStation e s.station).trans (endReader _ s.pump)).trans ?_
    have gone : Aside ((e.endStation s.station).endReader s.pump)
        (((e.endStation s.station).endReader s.pump).modifySite site
          fun s => { s with handle := false, present := false }) := of_eq rfl rfl id
    exact gone.trans (releaseOutlet _ _)

theorem openPump {n number : Nat} {s : Site} (at_n : e.sites[n]? = some s)
    (opened : e.openPump n = .ok (e', number)) : e.Aside e' := by
  have added : ∀ {pump : Pump}, pump.held = none →
      e.Aside { e with pumps := e.pumps ++ [pump] } := by
    intro pump idle
    refine of_eq rfl rfl ?_
    intro held other member job holds
    rcases List.mem_append.1 member with before | new
    · exact held other before job holds
    · obtain rfl := List.mem_singleton.1 new
      rw [idle] at holds
      cases holds
  cases opens_openPump at_n opened with
  | recorder | endpoint => exact (added rfl).trans (of_eq rfl rfl id)

theorem resume (e : Exchange) (i : Nat) {job : Job} (call : ¬ job.Asks) :
    e.Aside (e.resume i job).1 := by
  cases here : e.stations[i]? with
  | none =>
    have same : (e.resume i job).1 = e := by simp only [Exchange.resume, here]
    rw [same]
    exact refl e
  | some s =>
    rw [resume_of_station here]
    exact putCoordinator here (Coordinator.aside_resume call)

theorem submit {i : Nat} {request : Request} {job : Job} {sending : Sending}
    (call : request.lane = .incoming) (made : e.submit i request = some (e', job, sending)) :
    e.Aside e' ∧ ¬ job.Asks := by
  cases here : e.stations[i]? with
  | none =>
    simp only [Exchange.submit, here] at made
    cases made
  | some s =>
    rw [submit_of_station here] at made
    cases made
    refine ⟨putCoordinator here (Coordinator.aside_submit call), ?_⟩
    simpa [Job.Asks, Coordinator.submit] using call

theorem afterHandOver (e : Exchange) (p : Nat) (pump : Pump) {job : Job} (call : ¬ job.Asks)
    (sending : Sending) : e.Aside (e.afterHandOver p pump job sending) := by
  cases sending with
  | sent => exact putPump e p fun _ h => by cases h
  | waiting =>
    refine putPump e p ?_
    intro other holds
    obtain rfl := Option.some.inj holds
    exact call
  | refused => exact endPump e p

/-- A pump brings calls from peers. -/
theorem pumpStep? {p : Nat} (held : e.HoldsCalls) (step : e.pumpStep? p = some e') :
    e.Aside e' := by
  obtain ⟨pump, here, -, kind⟩ := pumpStep_of_pumpStep? step
  have takes : ∀ {envelope : Envelope} {net : Network},
      e.carriers.net.receive? pump.endpoint = some (envelope, net) → e.Aside (e.withNet net) :=
    fun _ => of_eq rfl rfl id
  cases kind with
  | retries holds goes =>
    have call := held pump (List.mem_of_getElem? here) _ holds
    exact (resume e pump.station call).trans (afterHandOver _ p pump call _)
  | takes idle taken made =>
    obtain ⟨aside, call⟩ := submit rfl made
    exact ((takes taken).trans aside).trans (afterHandOver _ p pump call _)
  | loses idle taken nobody => exact (takes taken).trans (endPump _ p)
  | retires idle nothing replaced => exact endPump e p

end Aside

/-- An action that neither makes, polls or gives up a request nor is a coordinator's step. -/
def IsAside : Action → Prop
  | .request _ _ | .poll _ | .abandon _ | .serve _ => False
  | _ => True

/-- Such an action has nothing to do with requests that are answered. -/
theorem aside_act? {e e' : Exchange} {action : Action} (held : e.HoldsCalls)
    (acts : e.act? action = some e') (aside : IsAside action) : e.Aside e' := by
  cases action with
  | request _ _ | poll _ | abandon _ | serve _ => exact aside.elim
  | join peer =>
    obtain rfl := Option.some.inj acts
    exact .of_eq rfl rfl id
  | record _ | dropHandle _ =>
    obtain rfl := Option.some.inj acts
    exact .of_eq rfl rfl id
  | share _ =>
    obtain ⟨_, -, rfl⟩ := Option.map_eq_some_iff.1 acts
    exact .of_eq rfl rfl id
  | transmit site publication =>
    obtain ⟨s, -, rfl⟩ := Option.map_eq_some_iff.1 acts
    exact .of_eq rfl rfl id
  | attach site config =>
    obtain ⟨_, -, rfl⟩ := Option.map_eq_some_iff.1 acts
    exact .attach e site config
  | leave site =>
    obtain ⟨_, -, rfl⟩ := Option.map_eq_some_iff.1 acts
    exact .leave e site
  | openPump site =>
    obtain ⟨s, i, number, at_n, -, opened⟩ := openPump_of_act? acts
    exact .openPump at_n opened
  | connect a b =>
    obtain ⟨net, made, rfl⟩ := connect_of_act? acts
    exact .of_eq rfl rfl id
  | pump p => exact .pumpStep? held acts
  | askStop site =>
    obtain rfl := Option.some.inj acts
    unfold askStop
    split
    · exact .modifyCoordinator e _ Coordinator.aside_askStop
    · exact .refl e

end Exchange

end PartExchange
