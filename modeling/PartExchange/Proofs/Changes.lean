/-
**What an action does to one coordinator, and to one request.**

An action does one of three things to a coordinator: somebody tries to send it something or has
nothing to do with it, it handles the job that is its next, or it ends.  A request stands as it
stood, or it has come further because it was polled, or it has been given up, or made just now.
There are no other cases, whoever acts; so what lasts from one state of an exchange to the next is
proved by these cases, and what lasts along a run follows by induction.

Main definitions:

* `Coordinator.Change`: a coordinator before and after an action, with the job that it handles;
* `Exchange.handledBy`: the job that an action lets a coordinator handle;
* `Exchange.Restaged`: a request after an action.

Main results:

* `Exchange.change_act?`: an action does one of the three things to every coordinator;
* `Exchange.restaged_act?`: every request after an action comes about in one of those ways;
* `Exchange.Serving.sameCall`: a request stays the same request along a run.
-/

import PartExchange.Proofs.Answers
import PartExchange.Proofs.Inflow
import PartExchange.Proofs.Turns

set_option relaxedAutoImplicit false
set_option autoImplicit false

namespace PartExchange

/-! ### Coordinators -/

/-- A coordinator before and after an action, with the job that it handles, if any. -/
inductive Coordinator.Change (c : Coordinator) : Option Job → Coordinator → Prop
  | sent {c' : Coordinator} {entered : Option Job} (fed : c.Fed c' entered)
      (silent : c.Silent c') : Change c none c'
  | served {send : Transport Carriers} {carriers : Carriers} {rest : Coordinator} {job : Job}
      (running : c.ended = false) (next : c.next? = some (job, rest)) :
      Change c (some job) (rest.perform send carriers job).1
  | closed : Change c none c.close

namespace Coordinator

theorem Change.refl (c : Coordinator) : c.Change none c :=
  .sent (.still rfl rfl (fun _ => rfl) fun _ => rfl) (.refl c)

/-- What has ended does not begin again. -/
theorem Change.ended {c c' : Coordinator} {handled : Option Job} (change : c.Change handled c')
    (ended : c.ended = true) : c'.ended = true := by
  cases change with
  | sent fed silent => rw [fed.ended, ended]
  | served running next =>
    rw [running] at ended
    cases ended
  | closed => rfl

/-- Handling the next job. -/
theorem served_of_next? {c rest : Coordinator} {job : Job} (next : c.next? = some (job, rest))
    (send : Transport Carriers) (carriers : Carriers) :
    ∃ lane, c.Served (rest.perform send carriers job).1 job lane := by
  obtain ⟨lane, q, taken, rfl⟩ := next?_eq_some next
  exact ⟨lane, served_perform send carriers taken⟩

/-- A step that handles a job handles the next one. -/
theorem change_of_step? {send : Transport Carriers} {abandoned : Bool} {c c' : Coordinator}
    {s s' : Carriers} (step : c.step? send abandoned s = some (c', s')) :
    c.Change (c.upcoming? abandoned) c' := by
  unfold step? at step
  split at step
  · cases step
  rename_i running
  rw [Bool.not_eq_true] at running
  split at step
  · rename_i stops
    cases step
    rw [upcoming?, Bool.or_assoc, stops, Bool.or_true, if_pos rfl]
    exact .closed
  · rename_i goes
    rw [Bool.not_eq_true] at goes
    obtain ⟨⟨job, rest⟩, next, performed⟩ := Option.map_eq_some_iff.1 step
    rw [upcoming?, Bool.or_assoc, goes, Bool.or_false, running, if_neg Bool.false_ne_true, next]
    have result : c' = (rest.perform send s job).1 := (congrArg Prod.fst performed).symm
    rw [result]
    exact .served running next

end Coordinator

namespace Exchange

variable {e e' : Exchange}

/-- The job that an action lets a coordinator handle. -/
def handledBy (e : Exchange) (action : Action) (i : Nat) : Option Job :=
  (e.handled? action).bind fun (j, job) => if j = i then some job else none

/-- A change in which every coordinator has been sent something, or ends. -/
structure Unserved (e e' : Exchange) : Prop where
  /-- No coordinator handles anything. -/
  kept : ∀ {i : Nat} {s : Station}, e.stations[i]? = some s →
    ∃ s' : Station, e'.stations[i]? = some s' ∧ s.coordinator.Change none s'.coordinator

namespace Unserved

theorem of_stations (same : e'.stations = e.stations) : Unserved e e' where
  kept {_ s} here := ⟨s, same ▸ here, .refl _⟩

/-- Replacing one coordinator. -/
theorem put {i : Nat} {s : Station} (here : e.stations[i]? = some s) {c : Coordinator}
    (change : s.coordinator.Change none c)
    (stations : e'.stations = (e.putCoordinator i c).stations) : Unserved e e' := by
  constructor
  intro j t there
  rw [stations, getElem?_putCoordinator, there]
  by_cases same : i = j
  · subst same
    obtain rfl := Option.some.inj (here.symm.trans there)
    exact ⟨{ s with coordinator := c }, by simp, change⟩
  · exact ⟨t, by simp [same], .refl _⟩

theorem modify (e : Exchange) (i : Nat) {change : Coordinator → Coordinator}
    (changes : ∀ c : Coordinator, c.Change none (change c)) :
    Unserved e (e.modifyCoordinator i change) := by
  cases here : e.stations[i]? with
  | none =>
    refine of_stations ?_
    rw [modifyCoordinator]
    exact List.modify_eq_self (List.getElem?_eq_none_iff.1 here)
  | some s =>
    rw [modifyCoordinator_eq here]
    exact put here (changes s.coordinator) rfl

/-- Where no coordinator changes after a change. -/
theorem trans_stations {e'' : Exchange} (first : Unserved e e')
    (same : e''.stations = e'.stations) : Unserved e e'' where
  kept here := same ▸ first.kept here

theorem endStation (e : Exchange) (station : Option Nat) : Unserved e (e.endStation station) := by
  cases station with
  | none => exact of_stations rfl
  | some i => exact modify e i fun _ => .closed

theorem resume (e : Exchange) (i : Nat) (job : Job) : Unserved e (e.resume i job).1 := by
  cases here : e.stations[i]? with
  | none =>
    simp only [Exchange.resume, here]
    exact of_stations rfl
  | some s =>
    rw [resume_of_station here]
    exact put here (.sent (s.coordinator.fed_resume job) (s.coordinator.silent_resume job)) rfl

theorem submit {i : Nat} {request : Request} {job : Job} {sending : Sending}
    (made : e.submit i request = some (e', job, sending)) : Unserved e e' := by
  cases here : e.stations[i]? with
  | none =>
    simp only [Exchange.submit, here] at made
    cases made
  | some s =>
    rw [submit_of_station here] at made
    cases made
    exact put here
      (.sent (s.coordinator.fed_submit request) (s.coordinator.silent_submit request)) rfl

theorem call (e : Exchange) (i : Nat) (request : Request) : Unserved e (e.call i request).1 := by
  unfold Exchange.call
  dsimp only
  split
  · exact of_stations rfl
  · rename_i made
    exact (submit made).trans_stations rfl

theorem advance (e : Exchange) (c : Call) : Unserved e (e.advance c).1 := by
  unfold Exchange.advance
  split
  · exact of_stations rfl
  · exact of_stations rfl
  · exact resume e c.station c.job
  · split
    · exact of_stations rfl
    · split <;> exact of_stations rfl

theorem abandon (e : Exchange) (number : Nat) : Unserved e (e.abandon number) := by
  unfold Exchange.abandon
  split
  · exact of_stations rfl
  · rename_i c made
    have withdrawn : Unserved e (if c.stage = .waiting then
        e.modifyCoordinator c.station (·.withdraw c.job) else e) := by
      split
      · exact modify e c.station fun d =>
          .sent (d.fed_withdraw c.job) (d.silent_withdraw c.job)
      · exact of_stations rfl
    dsimp only
    split
    · exact withdrawn.trans_stations rfl
    · exact withdrawn

theorem pumpStep? {p : Nat} (step : e.pumpStep? p = some e') : Unserved e e' := by
  obtain ⟨pump, -, -, kind⟩ := pumpStep_of_pumpStep? step
  cases kind with
  | retries =>
    exact (resume e _ _).trans_stations (stations_afterHandOver ..)
  | takes idle taken made =>
    exact ⟨((submit made).trans_stations (stations_afterHandOver ..)).kept⟩
  | loses => exact of_stations (stations_endPump _ p)
  | retires => exact of_stations (stations_endPump e p)

theorem attach (e : Exchange) (site : Nat) (config : CoordinatorConfig) :
    Unserved e (e.attach site config) := by
  unfold Exchange.attach
  split
  · exact of_stations rfl
  · rename_i s here
    constructor
    intro i t there
    obtain ⟨t', there', change⟩ := (endStation e s.station).kept there
    exact ⟨t', getElem?_concat_of_some there' _, change⟩

theorem leave (e : Exchange) (site : Nat) : Unserved e (e.leave site) := by
  unfold Exchange.leave
  split
  · exact of_stations rfl
  · rename_i s here
    refine (endStation e s.station).trans_stations ?_
    rw [stations_releaseOutlet]
    exact stations_endReader _ _

end Unserved

/-- **What an action does to a coordinator**: it is sent something or left alone, it handles its
next job, or it ends. -/
theorem change_act? {action : Action} (acts : e.act? action = some e') {i : Nat} {s : Station}
    (here : e.stations[i]? = some s) : ∃ s' : Station, e'.stations[i]? = some s' ∧
      s.coordinator.Change (e.handledBy action i) s'.coordinator := by
  cases action with
  | join _ | record _ | dropHandle _ =>
    obtain rfl := Option.some.inj acts
    exact (Unserved.of_stations rfl).kept here
  | share _ | transmit _ _ =>
    obtain ⟨_, -, rfl⟩ := Option.map_eq_some_iff.1 acts
    exact (Unserved.of_stations rfl).kept here
  | connect a b =>
    obtain ⟨net, -, rfl⟩ := connect_of_act? acts
    exact (Unserved.of_stations rfl).kept here
  | openPump site =>
    obtain ⟨t, _, _, at_n, -, opened⟩ := openPump_of_act? acts
    cases opens_openPump at_n opened with
    | recorder | endpoint => exact (Unserved.of_stations rfl).kept here
  | attach site config =>
    obtain ⟨_, -, rfl⟩ := Option.map_eq_some_iff.1 acts
    exact (Unserved.attach e site config).kept here
  | leave site =>
    obtain ⟨_, -, rfl⟩ := Option.map_eq_some_iff.1 acts
    exact (Unserved.leave e site).kept here
  | askStop site =>
    obtain rfl := Option.some.inj acts
    unfold askStop
    split
    · exact (Unserved.modify e _ fun c => .sent c.fed_askStop ⟨rfl, rfl, Nat.le_refl _⟩).kept here
    · exact (Unserved.of_stations rfl).kept here
  | request i request =>
    obtain rfl := Option.some.inj acts
    exact (Unserved.call e i request).kept here
  | poll number =>
    obtain rfl := Option.some.inj acts
    unfold pollCall
    split
    · exact (Unserved.of_stations rfl).kept here
    · exact ((Unserved.advance e _).trans_stations rfl).kept here
  | abandon number =>
    obtain rfl := Option.some.inj acts
    exact (Unserved.abandon e number).kept here
  | pump p => exact (Unserved.pumpStep? acts).kept here
  | serve j =>
    -- The only action that lets a coordinator handle something, and only the one that is served.
    simp only [act?, stationStep?] at acts
    split at acts
    · cases acts
    · rename_i t there
      obtain ⟨⟨c, carriers⟩, stepped, rfl⟩ := Option.map_eq_some_iff.1 acts
      have upcoming : e.upcoming? j = t.coordinator.upcoming? (!e.reachable j) := by
        rw [upcoming?, there, Option.bind_some]
      dsimp only
      rw [List.getElem?_set, handledBy, handled?, upcoming]
      by_cases same : j = i
      · subst same
        obtain rfl := Option.some.inj (there.symm.trans here)
        refine ⟨_, by rw [if_pos rfl, if_pos (List.getElem?_eq_some_iff.1 here).1], ?_⟩
        have change := Coordinator.change_of_step? stepped
        cases next : t.coordinator.upcoming? (!e.reachable j) with
        | none => simpa [next] using change
        | some job => simpa [next] using change
      · refine ⟨s, by rw [if_neg same, here], ?_⟩
        have nothing : (Option.map (fun job => (j, job))
            (t.coordinator.upcoming? (!e.reachable j))).bind
              (fun x => if x.1 = i then some x.2 else none) = none := by
          cases t.coordinator.upcoming? (!e.reachable j) <;> simp [same]
        rw [nothing]
        exact .refl _

/-! ### Requests -/

/-- A request after an action: as it was, further on after it has been polled, given up, or made
just now. -/
inductive Restaged (e e' : Exchange) (number : Nat) : Call → Prop
  | same {call : Call} (made : e.calls[number]? = some call) : Restaged e e' number call
  | resumed {call : Call} {s : Station} (made : e.calls[number]? = some call)
      (here : e.stations[call.station]? = some s)
      (stations : e'.stations =
        (e.putCoordinator call.station (s.coordinator.resume call.job).1).stations) :
      Restaged e e' number
        { call with stage := stageAfter call.job.request (s.coordinator.resume call.job).2 }
  | told {call : Call} {s : Station} {said : Answer} (made : e.calls[number]? = some call)
      (here : e.stations[call.station]? = some s)
      (answered : s.coordinator.answer? call.job.id = some said) :
      Restaged e e' number { call with stage := .finished (.answered said) }
  | closed {call : Call} (made : e.calls[number]? = some call) :
      Restaged e e' number { call with stage := .finished .closed }
  | abandoned {call : Call} (made : e.calls[number]? = some call) :
      Restaged e e' number { call with stage := .abandoned }
  | asked {i : Nat} {request : Request} {s : Station} (new : e.calls[number]? = none)
      (here : e.stations[i]? = some s)
      (stations : e'.stations = (e.putCoordinator i (s.coordinator.submit request).1).stations) :
      Restaged e e' number ⟨i, (s.coordinator.submit request).2.1,
        stageAfter request (s.coordinator.submit request).2.2⟩

/-- A request after it has been polled. -/
theorem restaged_advance {number : Nat} {call : Call} (made : e.calls[number]? = some call)
    (stations : e'.stations = (e.advance call).1.stations) :
    Restaged e e' number { call with stage := (e.advance call).2 } := by
  have same : ∀ stage, call.stage = stage → Restaged e e' number { call with stage } := by
    rintro stage rfl
    exact .same made
  cases stage : call.stage with
  | finished _ | abandoned =>
    simp only [Exchange.advance, stage]
    exact same _ stage
  | waiting =>
    cases here : e.stations[call.station]? with
    | none =>
      simp only [Exchange.advance, stage, Exchange.resume, here]
      exact .closed made
    | some s =>
      simp only [Exchange.advance, stage, resume_of_station here] at stations ⊢
      exact .resumed made here stations
  | queued =>
    cases here : e.stations[call.station]? with
    | none =>
      simp only [Exchange.advance, stage, here]
      exact .closed made
    | some s =>
      simp only [Exchange.advance, stage, here]
      split
      · rename_i answered
        exact .told made here answered
      · split
        · exact .closed made
        · exact same _ stage

theorem calls_withdraw (e : Exchange) (c : Call) :
    (if c.stage = .waiting then e.modifyCoordinator c.station (·.withdraw c.job) else e).calls =
      e.calls := by
  split <;> rfl

/-- An element of a list one of whose elements has been replaced is the new one or an old one. -/
theorem of_getElem?_set {α : Type} {l : List α} {i j : Nat} {x y : α}
    (there : (l.set i x)[j]? = some y) : (i = j ∧ y = x) ∨ l[j]? = some y := by
  rw [List.getElem?_set] at there
  split at there
  · rename_i same
    split at there
    · exact Or.inl ⟨same, (Option.some.inj there).symm⟩
    · cases there
  · exact Or.inr there

/-- **What an action does to a request.** -/
theorem restaged_act? {action : Action} (held : e.HoldsCalls) (addressed : e.Addressed action)
    (acts : e.act? action = some e') {number : Nat} {call : Call}
    (made : e'.calls[number]? = some call) : Restaged e e' number call := by
  cases action with
  | request i request =>
    obtain rfl := Option.some.inj acts
    have here : e.stations[i]? = some e.stations[i] := List.getElem?_eq_getElem addressed
    simp only [Exchange.call, submit_of_station here] at made
    rw [getElem?_concat] at made
    split at made
    · rename_i new
      obtain rfl := Option.some.inj made
      refine .asked ?_ here ?_
      · rw [new]
        exact List.getElem?_eq_none (Nat.le_refl _)
      · simp only [Exchange.call, submit_of_station here]
    · exact .same made
  | poll other =>
    obtain rfl := Option.some.inj acts
    cases there : e.calls[other]? with
    | none =>
      simp only [pollCall, there] at made
      exact .same made
    | some old =>
      simp only [pollCall, there, calls_advance] at made ⊢
      rcases of_getElem?_set made with ⟨rfl, rfl⟩ | before
      · exact restaged_advance there rfl
      · exact .same before
  | abandon other =>
    obtain rfl := Option.some.inj acts
    cases there : e.calls[other]? with
    | none =>
      simp only [Exchange.abandon, there] at made
      exact .same made
    | some old =>
      simp only [Exchange.abandon, there, calls_withdraw] at made
      split at made
      · rcases of_getElem?_set made with ⟨rfl, rfl⟩ | before
        · exact .abandoned there
        · exact .same before
      · rw [calls_withdraw] at made
        exact .same made
  | serve i => exact .same (calls_stationStep? acts ▸ made)
  | _ => exact .same ((aside_act? held acts trivial).calls ▸ made)

/-- An action leaves a request the same request. -/
theorem sameCall_act? {action : Action} (held : e.HoldsCalls) (acts : e.act? action = some e')
    {number : Nat} {call : Call} (made : e.calls[number]? = some call) :
    ∃ call' : Call, e'.calls[number]? = some call' ∧ call'.station = call.station ∧
      call'.job = call.job := by
  have marked : ∀ {other : Nat} {old : Call} (stage : CallStage), e.calls[other]? = some old →
      ∃ call' : Call, (e.calls.set other { old with stage })[number]? = some call' ∧
        call'.station = call.station ∧ call'.job = call.job := by
    intro other old stage there
    rw [List.getElem?_set]
    split
    · rename_i here
      subst here
      obtain rfl := Option.some.inj (made.symm.trans there)
      rw [if_pos (List.getElem?_eq_some_iff.1 made).1]
      exact ⟨_, rfl, rfl, rfl⟩
    · exact ⟨call, made, rfl, rfl⟩
  cases action with
  | request i request =>
    obtain rfl := Option.some.inj acts
    exact ⟨call, getElem?_calls_call made i request, rfl, rfl⟩
  | poll other =>
    obtain rfl := Option.some.inj acts
    cases there : e.calls[other]? with
    | none =>
      simp only [pollCall, there]
      exact ⟨call, made, rfl, rfl⟩
    | some old =>
      simp only [pollCall, there, calls_advance]
      exact marked _ there
  | abandon other =>
    obtain rfl := Option.some.inj acts
    cases there : e.calls[other]? with
    | none =>
      simp only [Exchange.abandon, there]
      exact ⟨call, made, rfl, rfl⟩
    | some old =>
      simp only [Exchange.abandon, there, calls_withdraw]
      split
      · exact marked _ there
      · rw [calls_withdraw]
        exact ⟨call, made, rfl, rfl⟩
  | serve i => exact ⟨call, calls_stationStep? acts ▸ made, rfl, rfl⟩
  | _ => exact ⟨call, (aside_act? held acts trivial).calls ▸ made, rfl, rfl⟩

/-- A request stays the same request along a run. -/
theorem Serving.sameCall {allowed : Exchange → Action → Prop} {capacity : Nat}
    {log later : List (Nat × Job)} (run : Serving allowed (.new capacity) log e)
    (rest : Serving allowed e later e') {number : Nat} {call : Call}
    (made : e.calls[number]? = some call) :
    ∃ call' : Call, e'.calls[number]? = some call' ∧ call'.station = call.station ∧
      call'.job = call.job := by
  induction rest with
  | start => exact ⟨call, made, rfl, rfl⟩
  | step rest allow acts ih =>
    obtain ⟨call', made', station', job'⟩ := ih
    obtain ⟨call'', made'', station'', job''⟩ :=
      sameCall_act? (run.trans rest).replayed.held acts made'
    exact ⟨call'', made'', station''.trans station', job''.trans job'⟩

end Exchange

end PartExchange
