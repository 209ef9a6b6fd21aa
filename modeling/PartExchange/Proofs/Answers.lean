/-
**Requests are handled once and answered, or refused and never handled.**

The record of a run lists the jobs that have been handled, newest first.  The ledger says where each
request stands against the record, so a request that has ended with an answer is on the record
once, and one that has ended because its coordinator has ended is not on it; and since a request
that has ended stays as it is, no later action changes that.

A coordinator's store and its reports are those of the jobs on the record, and the transports get
what the handled jobs publish; so a request that is not on the record has no effect.

Main definitions:

* `Exchange.handled?`, `Exchange.Serving`: the job that an action handles, and the runs with the
  record of what has been handled;
* `Exchange.Addressed`: requests are made to coordinators that are there;
* `Store.replay`: the store and the reports after some jobs.

Main results:

* `Exchange.Serving.ledger`, `Exchange.Serving.replayed`: the ledger and the effects of a run;
* `Exchange.handled_once_or_never`: what becomes of every request.
-/

import PartExchange.Proofs.Ledger

set_option relaxedAutoImplicit false
set_option autoImplicit false

namespace PartExchange

/-- The store and the reports after these jobs, newest first, from an empty store. -/
def Store.replay (limit : Option Nat) : List Job → Store × List Event
  | [] => (.new limit, [])
  | job :: earlier =>
    let before := replay limit earlier
    let reaction := before.1.react job.request
    (reaction.store, before.2 ++ reaction.events)

namespace Exchange

/-! ### Runs with their records -/

/-- The job that an action handles, with its coordinator. -/
def handled? (e : Exchange) : Action → Option (Nat × Job)
  | .serve i => (e.upcoming? i).map (i, ·)
  | _ => none

/-- The runs from a state all of whose actions are allowed, with the record of what has been
handled, newest first. -/
inductive Serving (allowed : Exchange → Action → Prop) (start : Exchange) :
    List (Nat × Job) → Exchange → Prop
  | start : Serving allowed start [] start
  | step {log : List (Nat × Job)} {e e' : Exchange} {action : Action}
      (run : Serving allowed start log e) (allow : allowed e action)
      (acts : e.act? action = some e') :
      Serving allowed start ((e.handled? action).toList ++ log) e'

/-- Requests are made to coordinators that are there. -/
def Addressed (e : Exchange) : Action → Prop
  | .request i _ => i < e.stations.length
  | _ => True

/-- A coordinator's step is its end, or it handles a job. -/
theorem reports_of_stationStep? {e e' : Exchange} {i : Nat} (step : e.stationStep? i = some e') :
    ∃ s : Station, e.stations[i]? = some s ∧
      ((e.upcoming? i = none ∧ e' = e.putCoordinator i s.coordinator.close) ∨
        ∃ job lane c', e.upcoming? i = some job ∧ s.coordinator.Served c' job lane ∧
          s.coordinator.Reports c' job ∧ e'.calls = e.calls ∧ e'.pumps = e.pumps ∧
          e'.stations = (e.putCoordinator i c').stations) := by
  obtain ⟨s, here, -, closes | ⟨job, lane, c', next, served, rfl⟩⟩ := stationStep?_eq_some step
  · exact ⟨s, here, Or.inl closes⟩
  · refine ⟨s, here, Or.inr ⟨job, lane, c', next, served, ?_, rfl, rfl, rfl⟩⟩
    simp only [stationStep?, here] at step
    obtain ⟨⟨c, carriers⟩, stepped, result⟩ := Option.map_eq_some_iff.1 step
    have same : c' = c := by
      have there := congrArg (fun e : Exchange => e.stations[i]?) result
      dsimp only at there
      rw [List.getElem?_set_self (List.getElem?_eq_some_iff.1 here).1,
        getElem?_putCoordinator, if_pos rfl, here] at there
      simpa using (congrArg (Option.map Station.coordinator) there).symm
    rw [upcoming?, here, Option.bind_some] at next
    exact same ▸ Coordinator.reports_step? stepped next

/-- Every action keeps the ledger. -/
theorem Ledger.step {log : List (Nat × Job)} {e e' : Exchange} {action : Action}
    (ledger : Ledger log e) (addressed : e.Addressed action) (acts : e.act? action = some e') :
    Ledger ((e.handled? action).toList ++ log) e' := by
  cases action with
  | request i request =>
    obtain rfl := Option.some.inj acts
    exact ledger.request addressed request
  | poll number =>
    obtain rfl := Option.some.inj acts
    exact ledger.poll number
  | abandon number =>
    obtain rfl := Option.some.inj acts
    exact ledger.abandon number
  | serve i =>
    obtain ⟨s, here, closes | handles⟩ := reports_of_stationStep? acts
    · obtain ⟨none, rfl⟩ := closes
      rw [handled?, none]
      exact ledger.aside (.putCoordinator here s.coordinator.aside_close)
    · obtain ⟨job, lane, c', next, served, reports, calls, pumps, stations⟩ := handles
      rw [handled?, next]
      exact ledger.serve here served reports calls stations pumps
  | _ => exact ledger.aside (aside_act? ledger.held acts trivial)

/-- The ledger of a run. -/
theorem Serving.ledger {capacity : Nat} {log : List (Nat × Job)} {e : Exchange}
    (run : Serving Addressed (.new capacity) log e) : Ledger log e := by
  induction run with
  | start => exact ledger_new capacity
  | step run allow acts ih => exact ih.step allow acts

/-- What is handled in two runs, one after the other. -/
theorem Serving.trans {allowed : Exchange → Action → Prop} {start e e' : Exchange}
    {log log' : List (Nat × Job)} (first : Serving allowed start log e)
    (second : Serving allowed e log' e') : Serving allowed start (log' ++ log) e' := by
  induction second with
  | start => exact first
  | step run allow acts ih =>
    rw [List.append_assoc]
    exact ih.step allow acts

/-! ### What handled requests do -/

/-- The jobs that a coordinator has handled, newest first. -/
def recordOf (log : List (Nat × Job)) (i : Nat) : List Job :=
  (log.filter (·.1 = i)).map Prod.snd

/-- The store and the reports of a coordinator. -/
def effects? (e : Exchange) (i : Nat) : Option (Store × List Event) :=
  e.stations[i]?.map fun s => (s.coordinator.store, s.coordinator.log)

/-- A change that neither stores nor reports nor moves anything. -/
structure Tacit (e e' : Exchange) : Prop where
  /-- Transports stay as they are. -/
  carriers : e'.carriers = e.carriers
  /-- Pumps stay as they are. -/
  pumps : e'.pumps = e.pumps
  /-- Participants stay as they are. -/
  sites : e'.sites = e.sites
  /-- Nothing is stored or reported. -/
  effects? : ∀ i, e'.effects? i = e.effects? i

theorem Tacit.refl (e : Exchange) : e.Tacit e := ⟨rfl, rfl, rfl, fun _ => rfl⟩

theorem tacit_putCoordinator {e : Exchange} {i : Nat} {s : Station} {c' : Coordinator}
    (here : e.stations[i]? = some s) (store : c'.store = s.coordinator.store)
    (silent : s.coordinator.Silent c') : e.Tacit (e.putCoordinator i c') := by
  refine ⟨rfl, rfl, rfl, ?_⟩
  intro j
  rw [effects?, getElem?_putCoordinator, effects?]
  split
  · rename_i same
    rw [← same, here]
    simp [store, silent.log]
  · rfl

/-- How requests stand does not matter. -/
theorem Tacit.withCalls {e e' : Exchange} (tacit : e.Tacit e') (calls : List Call) :
    e.Tacit { e' with calls } := ⟨tacit.carriers, tacit.pumps, tacit.sites, tacit.effects?⟩

theorem tacit_resume (e : Exchange) (i : Nat) (job : Job) : e.Tacit (e.resume i job).1 := by
  cases here : e.stations[i]? with
  | none =>
    simp only [resume, here]
    exact .refl e
  | some s =>
    rw [resume_of_station here]
    exact tacit_putCoordinator here (s.coordinator.fed_resume job).store
      (s.coordinator.silent_resume job)

theorem tacit_call (e : Exchange) (i : Nat) (request : Request) : e.Tacit (e.call i request).1 := by
  cases here : e.stations[i]? with
  | none =>
    simp only [call, submit, here]
    exact (Tacit.refl e).withCalls _
  | some s =>
    simp only [call, submit_of_station here]
    exact (tacit_putCoordinator here (s.coordinator.fed_submit request).store
      (s.coordinator.silent_submit request)).withCalls _

theorem tacit_pollCall (e : Exchange) (number : Nat) : e.Tacit (e.pollCall number).1 := by
  have advances : ∀ call, e.Tacit (e.advance call).1 := by
    intro call
    unfold advance
    split
    · exact .refl e
    · exact .refl e
    · exact tacit_resume e call.station call.job
    · split
      · exact .refl e
      · split <;> exact .refl e
  unfold pollCall
  split
  · exact .refl e
  · rename_i call made
    exact (advances call).withCalls _

theorem tacit_withdraw (e : Exchange) (i : Nat) (job : Job) :
    e.Tacit (e.modifyCoordinator i (·.withdraw job)) := by
  refine ⟨rfl, rfl, rfl, ?_⟩
  intro j
  rw [effects?, modifyCoordinator, List.getElem?_modify, effects?]
  split
  · cases e.stations[j]? with
    | none => rfl
    | some s =>
      have store := (s.coordinator.fed_withdraw job).store
      have log := (s.coordinator.silent_withdraw job).log
      simp [store, log]
  · simp

theorem tacit_abandon (e : Exchange) (number : Nat) : e.Tacit (e.abandon number) := by
  unfold abandon
  split
  · exact .refl e
  · rename_i call made
    have withdrawn : e.Tacit (if call.stage = .waiting then
        e.modifyCoordinator call.station (·.withdraw call.job) else e) := by
      split
      · exact tacit_withdraw e call.station call.job
      · exact .refl e
    dsimp only
    split
    · exact withdrawn.withCalls _
    · exact withdrawn

/-- The stores and the reports of all coordinators are those of what they have handled. -/
structure Replayed (log : List (Nat × Job)) (e : Exchange) : Prop where
  /-- Pumps hold calls from peers only. -/
  held : e.HoldsCalls
  /-- Only coordinators that are there have handled something. -/
  there : ∀ {i job}, (i, job) ∈ log → (e.effects? i).isSome = true
  /-- The store and the reports of a coordinator. -/
  replay : ∀ {i effects}, e.effects? i = some effects →
    ∃ limit, effects = Store.replay limit (recordOf log i)

theorem replayed_new (capacity : Nat) : Replayed [] (.new capacity) where
  held _ h := by cases h
  there h := by cases h
  replay h := by cases h

namespace Replayed

variable {log : List (Nat × Job)} {e e' : Exchange} (replayed : Replayed log e)

include replayed

theorem tacit (tacit : e.Tacit e') : Replayed log e' where
  held := by
    rw [HoldsCalls, tacit.pumps]
    exact replayed.held
  there member := by
    rw [tacit.effects?]
    exact replayed.there member
  replay {i effects} h := by
    rw [tacit.effects?] at h
    exact replayed.replay h

theorem aside (aside : e.Aside e') : Replayed log e' where
  held := aside.held replayed.held
  there {i job} member := by
    obtain ⟨effects, h⟩ := Option.isSome_iff_exists.1 (replayed.there member)
    obtain ⟨s, here, -⟩ := Option.map_eq_some_iff.1 h
    obtain ⟨s', there, -⟩ := aside.kept here
    rw [effects?, there]
    rfl
  replay {i effects} h := by
    obtain ⟨s', there, rfl⟩ := Option.map_eq_some_iff.1 h
    rcases aside.back there with ⟨s, here, change⟩ | ⟨absent, config, change⟩
    · rw [change.store, change.log]
      exact replayed.replay (by rw [effects?, here]; rfl)
    · refine ⟨config.maxGroupsPerTopic, ?_⟩
      have none : recordOf log i = [] := by
        rw [recordOf, List.map_eq_nil_iff, List.filter_eq_nil_iff]
        rintro ⟨j, job⟩ member same
        obtain rfl : j = i := by simpa using same
        have present := replayed.there member
        rw [effects?, absent] at present
        cases present
      rw [change.store, change.log, none]
      rfl

theorem serve {i : Nat} {s : Station} {c' : Coordinator} {job : Job} {lane : Lane}
    (here : e.stations[i]? = some s) (served : s.coordinator.Served c' job lane)
    (reports : s.coordinator.Reports c' job)
    (stations : e'.stations = (e.putCoordinator i c').stations) (pumps : e'.pumps = e.pumps) :
    Replayed ((i, job) :: log) e' := by
  have effects : ∀ j, e'.effects? j = if i = j then some (c'.store, c'.log) else e.effects? j := by
    intro j
    rw [effects?, stations, getElem?_putCoordinator]
    split
    · rename_i same
      rw [← same, here]
      rfl
    · rfl
  constructor
  case held =>
    rw [HoldsCalls, pumps]
    exact replayed.held
  case there =>
    intro j job' member
    rw [effects]
    split
    · rfl
    · rename_i other
      rcases List.mem_cons.1 member with new | old
      · exact absurd (congrArg Prod.fst new).symm other
      · exact replayed.there old
  case replay =>
    intro j effects' h
    rw [effects] at h
    split at h
    · rename_i same
      subst same
      obtain rfl := Option.some.inj h
      have effects : e.effects? i = some (s.coordinator.store, s.coordinator.log) := by
        rw [effects?, here]
        rfl
      obtain ⟨limit, before⟩ := replayed.replay effects
      refine ⟨limit, ?_⟩
      have record : recordOf ((i, job) :: log) i = job :: recordOf log i := by
        simp [recordOf]
      rw [record, Store.replay, ← before, served.store, reports.log]
    · rename_i other
      have record : recordOf ((i, job) :: log) j = recordOf log j := by
        simp [recordOf, other]
      rw [record]
      exact replayed.replay h

end Replayed

theorem Serving.replayed {allowed : Exchange → Action → Prop} {capacity : Nat}
    {log : List (Nat × Job)} {e : Exchange} (run : Serving allowed (.new capacity) log e) :
    Replayed log e := by
  induction run with
  | start => exact replayed_new capacity
  | @step log e e' action run allow acts ih =>
    cases action with
    | request i request =>
      obtain rfl := Option.some.inj acts
      exact ih.tacit (tacit_call e i request)
    | poll number =>
      obtain rfl := Option.some.inj acts
      exact ih.tacit (tacit_pollCall e number)
    | abandon number =>
      obtain rfl := Option.some.inj acts
      exact ih.tacit (tacit_abandon e number)
    | serve i =>
      obtain ⟨s, here, closes | handles⟩ := reports_of_stationStep? acts
      · obtain ⟨none, rfl⟩ := closes
        rw [handled?, none]
        exact ih.aside (.putCoordinator here s.coordinator.aside_close)
      · obtain ⟨job, lane, c', next, served, reports, -, pumps, stations⟩ := handles
        rw [handled?, next]
        exact ih.serve here served reports stations pumps
    | _ => exact ih.aside (aside_act? ih.held acts trivial)

/-! ### The end of a coordinator -/

section Ending

variable {e : Exchange} {i : Nat} {s : Station} (here : e.stations[i]? = some s)

include here

/-- A poll of a coordinator that has been asked to stop, or that nobody can reach any more, is its
end and nothing else. -/
theorem pollStation_of_stopping (running : s.coordinator.ended = false)
    (stops : s.coordinator.stopAsked = true ∨ e.reachable i = false) :
    e.handled? (.serve i) = none ∧ e.pollStation i = e.putCoordinator i s.coordinator.close := by
  have halt : (s.coordinator.stopAsked || !e.reachable i) = true := by
    rcases stops with asked | left
    · rw [asked, Bool.true_or]
    · rw [left, Bool.not_false, Bool.or_true]
  constructor
  · rw [handled?, upcoming?, here, Option.bind_some, Coordinator.upcoming?, Bool.or_assoc, halt,
      Bool.or_true, if_pos rfl]
    rfl
  · have closes : s.coordinator.step? (Carriers.publish s.outlet) (!e.reachable i) e.carriers =
        some (s.coordinator.close, e.carriers) := by
      rw [Coordinator.step?, if_neg (by simp [running]), if_pos halt]
    have rest : ∀ fuel, Coordinator.steps (Carriers.publish s.outlet) (!e.reachable i) fuel
        s.coordinator.close e.carriers = (s.coordinator.close, e.carriers) := by
      intro fuel
      cases fuel with
      | zero => rfl
      | succ fuel => rw [Coordinator.steps, Coordinator.step?_of_ended rfl]
    simp only [pollStation, here, Coordinator.run, Coordinator.steps, closes, rest,
      ← setStation_eq here]

variable (tidy : s.coordinator.Tidy) (ended : s.coordinator.ended = true)

include tidy ended

/-- Every request to a coordinator that has ended resolves when it is polled. -/
theorem pollCall_of_ended {number : Nat} {call : Call} (made : e.calls[number]? = some call)
    (station : call.station = i) (waits : call.stage.isOpen = true) :
    (e.pollCall number).2 ≠ none := by
  subst station
  cases at_stage : call.stage with
  | finished outcome =>
    rw [at_stage] at waits
    cases waits
  | abandoned =>
    rw [at_stage] at waits
    cases waits
  | waiting =>
    have refused : (s.coordinator.resume call.job).2 = .refused :=
      Queue.refused_retry_iff.2 (tidy.refuses ended _)
    simp [pollCall, made, advance, at_stage, resume_of_station here, refused, stageAfter]
  | queued =>
    simp only [pollCall, made, advance, at_stage, here]
    cases s.coordinator.answer? call.job.id with
    | some answer => simp
    | none => simp [ended]

/-- Every new request to a coordinator that has ended is refused. -/
theorem call_of_ended (request : Request) :
    ((e.call i request).1.pollCall (e.call i request).2).2 = some .closed := by
  have refused : (s.coordinator.submit request).2.2 = .refused :=
    Queue.refused_offer_iff.2 (tidy.refuses ended _)
  have made : (e.call i request).1.calls[(e.call i request).2]? =
      some ⟨i, (s.coordinator.submit request).2.1, .finished .closed⟩ := by
    simp only [call, submit_of_station here, refused, stageAfter]
    exact List.getElem?_concat_length
  simp only [pollCall, made, advance]

end Ending

/-! ### What becomes of a request -/

section Finished

variable {e : Exchange} {number : Nat} {call : Call} {outcome : Outcome}
  (made : e.calls[number]? = some call) (finished : call.stage = .finished outcome)

include made

theorem getElem?_calls_call (i : Nat) (request : Request) :
    (e.call i request).1.calls[number]? = some call := by
  unfold Exchange.call
  dsimp only
  split
  · exact getElem?_concat_of_some made _
  · rename_i submitted
    rw [(calls_submit submitted).1]
    exact getElem?_concat_of_some made _

include finished

theorem getElem?_calls_pollCall (other : Nat) :
    (e.pollCall other).1.calls[number]? = some call := by
  unfold Exchange.pollCall
  split
  · exact made
  · rename_i polled there
    dsimp only
    rw [calls_advance, List.getElem?_set]
    split
    · rename_i same
      subst same
      obtain rfl : call = polled := Option.some.inj (made.symm.trans there)
      rw [if_pos (List.getElem?_eq_some_iff.1 made).1]
      simp only [advance, finished]
      rw [← finished]
    · exact made

theorem getElem?_calls_abandon (other : Nat) :
    (e.abandon other).calls[number]? = some call := by
  unfold Exchange.abandon
  split
  · exact made
  · rename_i given there
    have same : (if given.stage = .waiting then
        e.modifyCoordinator given.station (·.withdraw given.job) else e).calls = e.calls := by
      split <;> rfl
    dsimp only
    split
    · rename_i isOpen
      rw [same, List.getElem?_set_ne]
      · exact made
      · rintro rfl
        obtain rfl : call = given := Option.some.inj (made.symm.trans there)
        rw [finished] at isOpen
        cases isOpen
    · rw [same]
      exact made

/-- A request that has ended stays as it is. -/
theorem finished_act? {e' : Exchange} {action : Action} (held : e.HoldsCalls)
    (acts : e.act? action = some e') : e'.calls[number]? = some call := by
  cases action with
  | request i request =>
    obtain rfl := Option.some.inj acts
    exact getElem?_calls_call made i request
  | poll other =>
    obtain rfl := Option.some.inj acts
    exact getElem?_calls_pollCall made finished other
  | abandon other =>
    obtain rfl := Option.some.inj acts
    exact getElem?_calls_abandon made finished other
  | serve i => rw [calls_stationStep? acts, made]
  | _ => rw [(aside_act? held acts trivial).calls, made]

end Finished

/-- A request that has ended stays as it is for the rest of a run. -/
theorem Serving.finished {allowed : Exchange → Action → Prop} {capacity : Nat}
    {log later : List (Nat × Job)} {e e' : Exchange} (run : Serving allowed (.new capacity) log e)
    (rest : Serving allowed e later e') {number : Nat} {call : Call} {outcome : Outcome}
    (made : e.calls[number]? = some call) (finished : call.stage = .finished outcome) :
    e'.calls[number]? = some call := by
  induction rest with
  | start => exact made
  | step rest allow acts ih => exact finished_act? ih finished (run.trans rest).replayed.held acts

/-- A request that has ended with an answer has been handled once, and one that has ended without
has not. -/
theorem Ledger.count_of_finished {log : List (Nat × Job)} {e : Exchange} (ledger : Ledger log e)
    {number : Nat} {call : Call} {outcome : Outcome} (made : e.calls[number]? = some call)
    (asks : call.job.Asks) (finished : call.stage = .finished outcome) :
    log.count (call.station, call.job) = if outcome = .closed then 0 else 1 := by
  obtain ⟨s, -, -, fits⟩ := ledger.called made
  have fits := fits asks
  rw [finished] at fits
  cases outcome with
  | closed => exact fits.2.2
  | delivered => exact fits.elim
  | answered answer => exact fits.2

/-- The poll with which a request resolves leaves it ended. -/
theorem stage_of_pollCall {e : Exchange} {number : Nat} {call : Call} {outcome : Outcome}
    (made : e.calls[number]? = some call) (resolves : (e.pollCall number).2 = some outcome) :
    (e.pollCall number).1.calls[number]? = some { call with stage := .finished outcome } := by
  simp only [pollCall, made] at resolves ⊢
  rw [calls_advance, List.getElem?_set_self (List.getElem?_eq_some_iff.1 made).1]
  split at resolves
  · rename_i stage
    rw [stage, Option.some.inj resolves]
  · cases resolves

/-- **Requests are handled exactly once, or they fail and are never handled.**

A request that resolves with an answer has been handled once, and will not be handled again; one
that resolves because its coordinator has ended has not been handled and never will be.  What is
stored, reported and given to the transports is what handled requests ask for.  A coordinator that
finds that it has been asked to stop, or that nobody can reach it any more, ends without handling
anything.  Once it has ended, whoever waits for it learns so at the next poll, and every new request
is refused. -/
theorem handled_once_or_never {capacity : Nat} {log : List (Nat × Job)} {e : Exchange}
    (run : Serving Addressed (.new capacity) log e) :
    (∀ (number : Nat) (call : Call) (outcome : Outcome), e.calls[number]? = some call →
      call.job.Asks → (e.pollCall number).2 = some outcome →
        log.count (call.station, call.job) = (if outcome = .closed then 0 else 1) ∧
        ∀ later e', Serving Addressed (e.pollCall number).1 later e' →
          (call.station, call.job) ∉ later) ∧
    (∀ (i : Nat) (s : Station), e.stations[i]? = some s →
      (∃ limit, (s.coordinator.store, s.coordinator.log) = Store.replay limit (recordOf log i)) ∧
      (∀ e', e.stationStep? i = some e' →
        e'.carriers = Coordinator.carry (Carriers.publish s.outlet) e.carriers
          ((e.upcoming? i).bind fun job =>
            (s.coordinator.store.react job.request).publication)) ∧
      (s.coordinator.ended = false →
        s.coordinator.stopAsked = true ∨ e.reachable i = false →
          e.handled? (.serve i) = none ∧
            e.pollStation i = e.putCoordinator i s.coordinator.close) ∧
      (s.coordinator.ended = true → s.coordinator.isClosed = true ∧
        (∀ (number : Nat) (call : Call), e.calls[number]? = some call → call.station = i →
          call.stage.isOpen = true → (e.pollCall number).2 ≠ none) ∧
        ∀ request, ((e.call i request).1.pollCall (e.call i request).2).2 = some .closed)) := by
  have ledger := run.ledger
  constructor
  · intro number call outcome made asks resolves
    have polled : Serving Addressed (.new capacity) log (e.pollCall number).1 :=
      @Serving.step _ _ _ _ _ (.poll number) run trivial rfl
    have ended := stage_of_pollCall made resolves
    have once := polled.ledger.count_of_finished ended asks rfl
    refine ⟨once, ?_⟩
    intro later e' rest
    -- The request stays ended, so the whole record has it as often as the record until now.
    have total := (polled.trans rest).ledger.count_of_finished (polled.finished rest ended rfl)
      asks rfl
    rw [List.count_append, once] at total
    exact List.count_eq_zero.1 (Nat.add_eq_right.1 total)
  · intro i s here
    refine ⟨run.replayed.replay (by rw [effects?, here]; rfl), ?_, ?_, ?_⟩
    · intro e' step
      exact carriers_stationStep? here step
    · exact pollStation_of_stopping here
    · intro ended
      have tidy := ledger.tidy here
      refine ⟨tidy.refuses ended .incoming, ?_, ?_⟩
      · intro number call made station waits
        exact pollCall_of_ended here tidy ended made station waits
      · exact call_of_ended here tidy ended

instance (e : Exchange) : DecidablePred e.Addressed := fun action =>
  match action with
  | .request i _ => inferInstanceAs (Decidable (i < e.stations.length))
  | .join _ | .record _ | .share _ | .attach _ _ | .openPump _ | .connect _ _ | .poll _
  | .abandon _ | .transmit _ _ | .pump _ | .serve _ | .askStop _ | .dropHandle _ | .leave _ =>
    inferInstanceAs (Decidable True)

/-- A run with its history is a run with its record. -/
theorem Run.serving {allowed : Exchange → Action → Prop} {start e : Exchange} {h : History}
    (run : Run allowed start h e) : ∃ log, Serving allowed start log e := by
  induction run with
  | start => exact ⟨[], .start⟩
  | step run allow acts ih =>
    obtain ⟨log, serving⟩ := ih
    exact ⟨_, serving.step allow acts⟩

/-- A message is added and looked up, and the coordinator is asked to stop in between: the first
request has been handled once, the second never. -/
theorem added_but_not_found :
    ∃ log e, Serving Addressed (.new 4) log e ∧ ∃ a b : Call, e.calls[0]? = some a ∧
      e.calls[1]? = some b ∧ a.job.request = .add default (.new default) ∧
      b.job.request = .get default default ∧
      log.count (a.station, a.job) = 1 ∧ log.count (b.station, b.job) = 0 := by
  have check : ((play? Addressed {} (.new 4) [.record default, .attach 0 {},
      .request 0 (.add default (.new default)), .request 0 (.get default default), .serve 0,
      .askStop 0, .serve 0]).any fun r => ∃ a ∈ r.2.calls[0]?, ∃ b ∈ r.2.calls[1]?,
        a.job.request = .add default (.new default) ∧ b.job.request = .get default default ∧
        (r.2.pollCall 0).2 = some (.answered (.inserted true)) ∧
        (r.2.pollCall 1).2 = some .closed) = true := by
    decide +kernel
  obtain ⟨⟨h, e⟩, played, holds⟩ := (Option.any_eq_true _ _).1 check
  obtain ⟨a, first, b, second, adds, gets, answered, closed⟩ := of_decide_eq_true holds
  obtain ⟨log, run⟩ := (Run.start.play played).serving
  have asks : a.job.Asks ∧ b.job.Asks := by
    rw [Job.Asks, Job.Asks, adds, gets]
    decide
  have once := ((handled_once_or_never run).1 0 a _ first asks.1 answered).1
  have never := ((handled_once_or_never run).1 1 b _ second asks.2 closed).1
  exact ⟨log, e, run, a, b, first, second, adds, gets, once, never⟩

end Exchange

end PartExchange
