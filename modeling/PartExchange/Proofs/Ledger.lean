/-
**Every request stands in one place.**

A request that is answered passes through its queue into the hands of the coordinator, and from
there back to whoever made it.  At every moment it stands in one place: it waits outside the queue,
it waits in the queue, or it has been handled.  Whoever made it learns that it has been handled from
the answer, and that it never will be from the coordinator's end.

The ledger ties the stages of all requests to a record of the jobs that have been handled, newest
first.  Making, polling and giving up a request touch one request and one queue; a step of a
coordinator takes a job from its queue to the record; nothing else has to do with requests.

Main definitions:

* `Coordinator.waits`, `Coordinator.Reports`: how often a job waits, and what handling it adds to
  reports and answers;
* `CallStage.Fits`: how a request stands, against where it is found;
* `Exchange.Ledger`: every request is where its stage says, and in one place only;
* `Exchange.Touches`: a change of one request and of one queue.

Main results:

* `Exchange.Ledger.aside`, `Exchange.Ledger.request`, `Exchange.Ledger.poll`,
  `Exchange.Ledger.abandon`, `Exchange.Ledger.serve`: every change keeps the ledger.
-/

import PartExchange.Proofs.Stations

set_option relaxedAutoImplicit false
set_option autoImplicit false

namespace PartExchange

/-! ### What handling a job adds to reports and answers -/

/-- Only a call from a peer gets no answer. -/
theorem Store.reply_react_eq_silent_iff (store : Store) (request : Request) :
    (store.react request).reply = .silent ↔ request.lane = .incoming := by
  cases request with
  | add topic m => simp [react, reactAdd, Request.lane]
  | publish topic group peers =>
    simp only [react, reactPublish, Request.lane]
    split <;> simp
  | rpc delivery =>
    simp only [react, reactRpc, Request.lane]
    split <;> simp
  | get topic group => simp [react, Request.lane]

namespace Coordinator

/-- How often a job waits in its queue. -/
def waits (c : Coordinator) (job : Job) : Nat := (c.queue job.request.lane).items.count job

/-- What a coordinator reports and answers when it handles a job. -/
structure Reports (c c' : Coordinator) (job : Job) : Prop where
  /-- The events of the reaction are reported. -/
  log : c'.log = c.log ++ (c.store.react job.request).events
  /-- The job is answered, unless it is a call from a peer. -/
  answered : ∀ id, (c'.answer? id).isSome = true ↔
    (c.answer? id).isSome = true ∨ (job.Asks ∧ id = job.id)
  /-- No number is used. -/
  nextId : c'.nextId = c.nextId

variable {σ : Type}

theorem reports_perform (send : Transport σ) (s : σ) (c : Coordinator) (lane : Lane) (q : Queue Job)
    (job : Job) : c.Reports ((c.setQueue lane q).perform send s job).1 job where
  log := by rw [perform_log, log_setQueue, store_setQueue]
  answered id := by
    have silent := c.store.reply_react_eq_silent_iff job.request
    simp only [perform, store_setQueue, answers_setQueue, answer?, Job.Asks]
    cases reply : (c.store.react job.request).reply with
    | silent => simp [silent.1 reply]
    | answer _ | outcome =>
      rw [reply] at silent
      have asks : job.request.lane ≠ .incoming := fun call => by cases silent.2 call
      simp only [List.lookup_cons]
      by_cases same : id = job.id
      · simp [same, asks]
      · simp [beq_false_of_ne same, same]
  nextId := nextId_setQueue ..

/-- A step that handles a job. -/
theorem reports_step? {send : Transport σ} {abandoned : Bool} {c c' : Coordinator} {s s' : σ}
    {job : Job} (step : c.step? send abandoned s = some (c', s'))
    (next : c.upcoming? abandoned = some job) : c.Reports c' job := by
  unfold step? at step
  unfold upcoming? at next
  split at next
  · cases next
  · rename_i goes
    simp only [Bool.or_eq_true, not_or] at goes
    rw [if_neg goes.1.1, if_neg (by simp [goes.1.2, goes.2])] at step
    obtain ⟨⟨job', rest⟩, taken, performed⟩ := Option.map_eq_some_iff.1 step
    rw [taken] at next
    obtain rfl := Option.some.inj next
    obtain ⟨lane, q, -, rfl⟩ := next?_eq_some taken
    have reports := reports_perform send s c lane q job'
    rwa [show (c.setQueue lane q).perform send s job' = (c', s') from performed] at reports

/-! ### How often a job waits -/

/-- A sender brings at most the job that has entered. -/
theorem Fed.waits {c c' : Coordinator} {entered : Option Job} (fed : c.Fed c' entered) (job : Job) :
    c'.waits job = c.waits job + if entered = some job then 1 else 0 := by
  rw [Coordinator.waits, fed.items, List.count_append, Coordinator.waits]
  cases entered with
  | none => simp
  | some other =>
    by_cases same : other = job
    · simp [same, Option.filter_some]
    · rw [if_neg (by simpa using same), Option.filter_some]
      split <;> simp [same]

/-- Serving a job takes it out of its queue once. -/
theorem Served.waits {c c' : Coordinator} {job : Job} {lane : Lane} (served : c.Served c' job lane)
    (tidy : c.Tidy) (other : Job) :
    c.waits other = c'.waits other + if job = other then 1 else 0 := by
  have own : job.request.lane = lane := tidy.lane lane job served.mem
  rw [Coordinator.waits, Coordinator.waits]
  by_cases here : other.request.lane = lane
  · rw [here, served.head, List.count_cons]
    simp
  · have differ : job ≠ other := by
      rintro rfl
      exact here own
    rw [served.others _ here, if_neg differ, Nat.add_zero]

/-- What has nothing to do with a request leaves it where it waits, unless the coordinator has
ended. -/
theorem Aside.waits {c c' : Coordinator} (aside : c.Aside c') {job : Job} (asks : job.Asks) :
    c'.waits job = c.waits job ∨ (c'.ended = true ∧ c'.waits job = 0) := by
  rw [Coordinator.waits, Coordinator.waits]
  rcases aside.items _ asks with same | ⟨ended, none⟩
  · exact Or.inl (by rw [same])
  · exact Or.inr ⟨ended, by rw [none, List.count_nil]⟩

theorem waits_eq_zero {c : Coordinator} {job : Job}
    (absent : job ∉ (c.queue job.request.lane).items) : c.waits job = 0 :=
  List.count_eq_zero.2 absent

end Coordinator

/-! ### Stages -/

/-- Whether the stage of a request fits to how often it waits in its queue, how often it has been
handled, and whether the coordinator has ended. -/
def CallStage.Fits (stage : CallStage) (waits handled : Nat) (ended : Bool) : Prop :=
  match stage with
  | .waiting => waits = 0 ∧ handled = 0
  | .queued => waits + handled = 1 ∨ (ended = true ∧ waits = 0 ∧ handled = 0)
  | .finished .closed => ended = true ∧ waits = 0 ∧ handled = 0
  | .finished (.answered _) => waits = 0 ∧ handled = 1
  | .finished .delivered => False
  | .abandoned => waits + handled ≤ 1

namespace CallStage

variable {stage : CallStage} {waits handled : Nat} {ended : Bool}

/-- Requests may be discarded when the coordinator ends. -/
theorem Fits.aside {waits' : Nat} {ended' : Bool} (fits : stage.Fits waits handled ended)
    (halts : ended = true → ended' = true)
    (kept : waits' = waits ∨ (ended' = true ∧ waits' = 0)) : stage.Fits waits' handled ended' := by
  match stage with
  | .waiting | .finished (.answered _) | .abandoned =>
    simp only [Fits] at fits ⊢
    omega
  | .finished .closed =>
    obtain ⟨halted, none, never⟩ := fits
    exact ⟨halts halted, by omega, never⟩
  | .queued =>
    rcases fits with once | ⟨halted, none⟩
    · rcases kept with same | ⟨halted, none⟩
      · exact Or.inl (by omega)
      · by_cases done : handled = 1
        · exact Or.inl (by omega)
        · exact Or.inr ⟨halted, none, by omega⟩
    · exact Or.inr ⟨halts halted, by omega, none.2⟩

/-- A request that waits in its queue is handled. -/
theorem Fits.serve (fits : stage.Fits (waits + 1) handled ended) :
    stage.Fits waits (handled + 1) ended := by
  match stage with
  | .waiting | .queued | .finished .closed | .finished (.answered _) | .abandoned =>
    simp only [Fits] at fits ⊢
    omega

end CallStage

namespace Exchange

/-! ### The ledger -/

/-- A job is on the record of a coordinator, or it waits in its queue. -/
def Found (log : List (Nat × Job)) (e : Exchange) (i : Nat) (job : Job) : Prop :=
  (i, job) ∈ log ∨ ∃ s : Station, e.stations[i]? = some s ∧
    job ∈ (s.coordinator.queue job.request.lane).items

/-- Every request is where its stage says, and in one place only. -/
structure Ledger (log : List (Nat × Job)) (e : Exchange) : Prop where
  /-- Queues are tidy. -/
  tidy : ∀ {i : Nat} {s : Station}, e.stations[i]? = some s → s.coordinator.Tidy
  /-- Pumps hold calls from peers only. -/
  held : e.HoldsCalls
  /-- Whatever has been handled has been answered, and nothing else. -/
  answered : ∀ {i : Nat} {s : Station}, e.stations[i]? = some s →
    ∀ id, (s.coordinator.answer? id).isSome = true ↔ ∃ job, (i, job) ∈ log ∧ job.Asks ∧ job.id = id
  /-- Whatever is found has been asked for. -/
  owned : ∀ {i : Nat} {job : Job}, job.Asks → Found log e i job →
    ∃ (number : Nat) (call : Call), e.calls[number]? = some call ∧ call.station = i ∧ call.job = job
  /-- Whatever has been asked for is where its stage says. -/
  called : ∀ {number : Nat} {call : Call}, e.calls[number]? = some call →
    ∃ s : Station, e.stations[call.station]? = some s ∧ call.job.id < s.coordinator.nextId ∧
      (call.job.Asks → call.stage.Fits (s.coordinator.waits call.job)
        (log.count (call.station, call.job)) s.coordinator.ended)
  /-- No two requests to a coordinator have the same number. -/
  distinct : ∀ {number other : Nat} {call call' : Call}, e.calls[number]? = some call →
    e.calls[other]? = some call' → call.station = call'.station → call.job.id = call'.job.id →
      number = other

theorem ledger_new (capacity : Nat) : Ledger [] (.new capacity) where
  tidy h := by cases h
  held _ h := by cases h
  answered h := by cases h
  owned _ found := by
    rcases found with h | ⟨_, h, -⟩ <;> cases h
  called h := by cases h
  distinct h := by cases h

/-- A coordinator after a change that has nothing to do with requests: it was there, or is new. -/
theorem Aside.back {e e' : Exchange} (aside : e.Aside e') {i : Nat} {s' : Station}
    (there : e'.stations[i]? = some s') :
    (∃ s : Station, e.stations[i]? = some s ∧ s.coordinator.Aside s'.coordinator) ∨
      (e.stations[i]? = none ∧ ∃ config, (Coordinator.new config).Aside s'.coordinator) := by
  cases before : e.stations[i]? with
  | none => exact Or.inr ⟨rfl, aside.fresh there before⟩
  | some s =>
    obtain ⟨t, there', same⟩ := aside.kept before
    obtain rfl : t = s' := Option.some.inj (there'.symm.trans there)
    exact Or.inl ⟨s, rfl, same⟩

/-- A request that has just been brought to its queue, once or once more. -/
theorem fits_stageAfter {c c' : Coordinator} {job : Job} {sending : Sending}
    (fed : c.Fed c' (if sending = .sent then some job else none)) (absent : c.waits job = 0)
    (asks : job.Asks) (refused : sending = .refused → c.ended = true) :
    (stageAfter job.request sending).Fits (c'.waits job) 0 c'.ended := by
  have waits := fed.waits job
  rw [absent, Nat.zero_add] at waits
  rw [waits, fed.ended]
  cases sending with
  | refused => exact ⟨refused rfl, rfl, rfl⟩
  | waiting => exact ⟨rfl, rfl⟩
  | sent =>
    have queued : stageAfter job.request .sent = .queued := by
      cases about : job.request with
      | rpc delivery =>
        rw [Job.Asks, about] at asks
        exact absurd rfl asks
      | add _ _ | publish _ _ _ | get _ _ => rfl
    rw [queued]
    exact Or.inl (by simp)

/-- Putting a coordinator where it is changes nothing. -/
theorem stations_putCoordinator_self {e : Exchange} {i : Nat} {s : Station}
    (here : e.stations[i]? = some s) :
    (e.putCoordinator i s.coordinator).stations = e.stations := by
  apply List.ext_getElem?
  intro j
  rw [getElem?_putCoordinator]
  split
  · rename_i same
    rw [← same, here]
    rfl
  · rfl

/-- A change of one request and of one queue: whoever made the request may have brought it to its
coordinator, and the request has another stage afterwards. -/
structure Touches (number : Nat) (call : Call) (s : Station) (c' : Coordinator)
    (entered : Option Job) (e e' : Exchange) : Prop where
  /-- The coordinator of the request. -/
  here : e.stations[call.station]? = some s
  /-- Other requests stay as they are. -/
  calls : ∀ n : Nat, e'.calls[n]? = if n = number then some call else e.calls[n]?
  /-- Other coordinators stay as they are. -/
  stations : e'.stations = (e.putCoordinator call.station c').stations
  /-- Pumps stay as they are. -/
  pumps : e'.pumps = e.pumps
  /-- The coordinator has been sent something at most. -/
  fed : s.coordinator.Fed c' entered
  /-- It has answered nothing. -/
  silent : s.coordinator.Silent c'
  /-- What it has been sent is the request. -/
  enters : ∀ job, entered = some job → job = call.job
  /-- No other request to the coordinator has the same number. -/
  known : ∀ {n : Nat} {old : Call}, e.calls[n]? = some old → old.station = call.station →
    old.job.id = call.job.id → n = number
  /-- A request that has been made before stays the same. -/
  same : ∀ {old : Call}, e.calls[number]? = some old →
    old.station = call.station ∧ old.job = call.job
  /-- The number of the request has been given out. -/
  below : call.job.id < c'.nextId

namespace Touches

variable {number : Nat} {call : Call} {s : Station} {c' : Coordinator} {entered : Option Job}
  {e e' : Exchange} (touches : Touches number call s c' entered e e')

include touches

theorem made : e'.calls[number]? = some call := by rw [touches.calls, if_pos rfl]

theorem works : e'.stations[call.station]? = some { s with coordinator := c' } := by
  rw [touches.stations, getElem?_putCoordinator, if_pos rfl, touches.here]
  rfl

theorem back {i : Nat} {s' : Station} (there : e'.stations[i]? = some s') :
    (i = call.station ∧ s'.coordinator = c') ∨ e.stations[i]? = some s' := by
  rw [touches.stations] at there
  obtain ⟨old, before, -, ⟨rfl, new⟩ | rfl⟩ := of_getElem?_putCoordinator there
  · exact Or.inl ⟨rfl, new⟩
  · exact Or.inr before

end Touches

namespace Ledger

variable {log : List (Nat × Job)} {e e' : Exchange} {number : Nat} {call : Call}
  {s : Station} {c' : Coordinator} {entered : Option Job} (ledger : Ledger log e)

include ledger

/-- What is found is found at a coordinator that is there. -/
theorem station_of_found {i : Nat} {job : Job} (asks : job.Asks) (found : Found log e i job) :
    ∃ s : Station, e.stations[i]? = some s ∧ job.id < s.coordinator.nextId := by
  obtain ⟨number, call, made, rfl, rfl⟩ := ledger.owned asks found
  obtain ⟨s, here, below, -⟩ := ledger.called made
  exact ⟨s, here, below⟩

/-- A change that has nothing to do with requests that are answered. -/
theorem aside (aside : e.Aside e') : Ledger log e' where
  tidy {i s'} there := by
    rcases aside.back there with ⟨s, here, change⟩ | ⟨-, config, change⟩
    · exact change.tidy (ledger.tidy here)
    · exact change.tidy (Coordinator.tidy_new config)
  held := aside.held ledger.held
  answered {i s'} there id := by
    rcases aside.back there with ⟨s, here, change⟩ | ⟨absent, config, change⟩
    · rw [Coordinator.answer?, change.answers]
      exact ledger.answered here id
    · -- A new coordinator has answered nothing, and nothing is on its record.
      rw [Coordinator.answer?, change.answers]
      refine iff_of_false (by simp [Coordinator.new]) ?_
      rintro ⟨job, member, asks, -⟩
      obtain ⟨s, here, -⟩ := ledger.station_of_found asks (Or.inl member)
      rw [absent] at here
      cases here
  owned {i job} asks found := by
    rw [aside.calls]
    refine ledger.owned asks ?_
    rcases found with member | ⟨s', there, waits⟩
    · exact Or.inl member
    · right
      rcases aside.back there with ⟨s, here, change⟩ | ⟨-, config, change⟩
      · rcases change.items _ asks with same | ⟨-, none⟩
        · exact ⟨s, here, same ▸ waits⟩
        · rw [none] at waits
          cases waits
      · have empty : ((Coordinator.new config).queue job.request.lane).items = [] := by
          cases job.request.lane <;> rfl
        rcases change.items _ asks with same | ⟨-, none⟩
        · rw [same, empty] at waits
          cases waits
        · rw [none] at waits
          cases waits
  called {number call} made := by
    rw [aside.calls] at made
    obtain ⟨s, here, below, fits⟩ := ledger.called made
    obtain ⟨s', there, change⟩ := aside.kept here
    refine ⟨s', there, Nat.lt_of_lt_of_le below change.nextId, ?_⟩
    intro asks
    exact (fits asks).aside change.ended (change.waits asks)
  distinct := by
    rw [aside.calls]
    exact ledger.distinct

/-- Whatever is found after a sender's attempt has been asked for. -/
theorem owned_of_touches (touches : Touches number call s c' entered e e') {i : Nat} {job : Job}
    (asks : job.Asks) (found : Found log e' i job) :
    ∃ (n : Nat) (owner : Call), e'.calls[n]? = some owner ∧ owner.station = i ∧
      owner.job = job := by
  have old : Found log e i job → ∃ (n : Nat) (owner : Call), e'.calls[n]? = some owner ∧
      owner.station = i ∧ owner.job = job := by
    intro found
    obtain ⟨n, owner, made, station, rfl⟩ := ledger.owned asks found
    by_cases touched : n = number
    · subst touched
      obtain ⟨station', job'⟩ := touches.same made
      exact ⟨n, call, touches.made, station'.symm.trans station, job'.symm⟩
    · exact ⟨n, owner, by rw [touches.calls, if_neg touched, made], station, rfl⟩
  rcases found with member | ⟨s', there, waits⟩
  · exact old (Or.inl member)
  · rcases touches.back there with ⟨rfl, rfl⟩ | before
    · rw [touches.fed.items, List.mem_append] at waits
      rcases waits with before | new
      · exact old (Or.inr ⟨s, touches.here, before⟩)
      · rw [Option.mem_toList, Option.filter_eq_some_iff] at new
        exact ⟨number, call, touches.made, rfl, (touches.enters job new.1).symm⟩
    · exact old (Or.inr ⟨s', before, waits⟩)

/-- Other requests are where they were before a sender's attempt. -/
theorem called_of_touches (touches : Touches number call s c' entered e e') {n : Nat} {owner : Call}
    (other : n ≠ number) (made : e.calls[n]? = some owner) :
    ∃ s : Station, e'.stations[owner.station]? = some s ∧ owner.job.id < s.coordinator.nextId ∧
      (owner.job.Asks → owner.stage.Fits (s.coordinator.waits owner.job)
        (log.count (owner.station, owner.job)) s.coordinator.ended) := by
  obtain ⟨t, there, below, fits⟩ := ledger.called made
  by_cases at_s : owner.station = call.station
  · rw [at_s, touches.here] at there
    obtain rfl := Option.some.inj there
    refine ⟨{ s with coordinator := c' }, at_s ▸ touches.works,
      Nat.lt_of_lt_of_le below touches.silent.nextId, ?_⟩
    intro asks
    have differ : entered ≠ some owner.job := by
      intro entered
      exact other (touches.known made at_s (by rw [touches.enters _ entered]))
    have waits := touches.fed.waits owner.job
    rw [if_neg differ, Nat.add_zero] at waits
    rw [waits, touches.fed.ended]
    exact fits asks
  · refine ⟨t, ?_, below, fits⟩
    rw [touches.stations, getElem?_putCoordinator, if_neg (Ne.symm at_s), there]

/-- A sender's attempt, and the stage of its request afterwards. -/
theorem touch (touches : Touches number call s c' entered e e')
    (fits : call.job.Asks → call.stage.Fits (c'.waits call.job)
      (log.count (call.station, call.job)) c'.ended) : Ledger log e' where
  tidy {i s'} there := by
    rcases touches.back there with ⟨rfl, rfl⟩ | before
    · exact (ledger.tidy touches.here).fed touches.fed
    · exact ledger.tidy before
  held := by
    rw [HoldsCalls, touches.pumps]
    exact ledger.held
  answered {i s'} there id := by
    rcases touches.back there with ⟨rfl, rfl⟩ | before
    · rw [Coordinator.answer?, touches.silent.answers]
      exact ledger.answered touches.here id
    · exact ledger.answered before id
  owned asks found := ledger.owned_of_touches touches asks found
  called {n owner} made := by
    rw [touches.calls] at made
    split at made
    · obtain rfl := Option.some.inj made
      exact ⟨_, touches.works, touches.below, fits⟩
    · rename_i other
      exact ledger.called_of_touches touches other made
  distinct {n m first second} made₁ made₂ station id := by
    rw [touches.calls] at made₁ made₂
    split at made₁ <;> split at made₂
    · rename_i h₁ h₂
      rw [h₁, h₂]
    · rename_i h₁ h₂
      obtain rfl := Option.some.inj made₁
      exact absurd (touches.known made₂ station.symm id.symm) h₂
    · rename_i h₁ h₂
      obtain rfl := Option.some.inj made₂
      exact absurd (touches.known made₁ station id) h₁
    · exact ledger.distinct made₁ made₂ station id

/-- A request is made. -/
theorem request {i : Nat} (there : i < e.stations.length) (request : Request) :
    Ledger log (e.call i request).1 := by
  have here : e.stations[i]? = some e.stations[i] := List.getElem?_eq_getElem there
  generalize e.stations[i] = s at here
  let c := s.coordinator
  let job : Job := ⟨c.nextId, request⟩
  let sending := (c.submit request).2.2
  -- The number of the request is new, so the job is not found anywhere yet.
  have absent : job.Asks → ¬ Found log e i job := by
    intro asks found
    obtain ⟨t, here', below⟩ := ledger.station_of_found asks found
    obtain rfl : s = t := Option.some.inj (here.symm.trans here')
    exact Nat.lt_irrefl _ below
  have made : (e.call i request).1 =
      { e.putCoordinator i (c.submit request).1 with
        calls := e.calls ++ [⟨i, job, stageAfter request sending⟩] } := by
    simp only [Exchange.call, submit_of_station here]
    rfl
  rw [made]
  refine @touch _ _ _ _ ⟨i, job, stageAfter request sending⟩ _ _ _ ledger ⟨here,
    getElem?_concat e.calls _, rfl, rfl, c.fed_submit request, c.silent_submit request, ?_, ?_, ?_,
    Nat.lt_succ_self _⟩ ?_
  · intro entered h
    split at h
    · exact (Option.some.inj h).symm
    · cases h
  · intro n old made station id
    obtain ⟨t, here', below, -⟩ := ledger.called made
    rw [station, here] at here'
    obtain rfl := Option.some.inj here'
    exact absurd (id ▸ below) (Nat.lt_irrefl _)
  · intro old made
    rw [List.getElem?_eq_none (Nat.le_refl _)] at made
    cases made
  · intro asks
    have waits : c.waits job = 0 :=
      Coordinator.waits_eq_zero fun member => absent asks (Or.inr ⟨s, here, member⟩)
    have never : log.count (i, job) = 0 :=
      List.count_eq_zero.2 fun member => absent asks (Or.inl member)
    rw [never]
    exact fits_stageAfter (c.fed_submit request) waits asks
      (Coordinator.ended_of_submit_refused (ledger.tidy here))

/-- Whoever made a request has another stage afterwards; the request stays the same. -/
theorem restage {stage : CallStage} (made : e.calls[number]? = some call)
    (here : e.stations[call.station]? = some s)
    (calls : e'.calls = e.calls.set number { call with stage })
    (stations : e'.stations = (e.putCoordinator call.station c').stations)
    (pumps : e'.pumps = e.pumps) (fed : s.coordinator.Fed c' entered)
    (silent : s.coordinator.Silent c') (enters : ∀ job, entered = some job → job = call.job)
    (fits : call.job.Asks → stage.Fits (c'.waits call.job)
      (log.count (call.station, call.job)) c'.ended) : Ledger log e' := by
  refine @touch _ _ _ number { call with stage } _ _ _ ledger
    ⟨here, ?_, stations, pumps, fed, silent, enters, ?_, ?_, ?_⟩ fits
  · intro n
    rw [calls, List.getElem?_set]
    by_cases same : number = n
    · subst same
      rw [if_pos rfl, if_pos rfl, if_pos (List.getElem?_eq_some_iff.1 made).1]
    · rw [if_neg same, if_neg (Ne.symm same)]
  · intro n old made' station id
    exact ledger.distinct made' made station id
  · intro old made'
    obtain rfl : call = old := Option.some.inj (made.symm.trans made')
    exact ⟨rfl, rfl⟩
  · obtain ⟨t, here', below, -⟩ := ledger.called made
    obtain rfl : s = t := Option.some.inj (here.symm.trans here')
    exact Nat.lt_of_lt_of_le below silent.nextId

/-- A request that has been answered has been handled. -/
theorem mem_of_answered {number : Nat} {call : Call} {s : Station}
    (made : e.calls[number]? = some call) (here : e.stations[call.station]? = some s)
    (answered : (s.coordinator.answer? call.job.id).isSome = true) :
    (call.station, call.job) ∈ log := by
  obtain ⟨job, member, asks', id⟩ := (ledger.answered here call.job.id).1 answered
  -- The job under this number is the job of this request, since no other request has the number.
  obtain ⟨other, owner, made', station, rfl⟩ := ledger.owned asks' (Or.inl member)
  obtain rfl := ledger.distinct made' made station id
  obtain rfl : call = owner := Option.some.inj (made.symm.trans made')
  exact member

/-- A request is polled. -/
theorem poll (number : Nat) : Ledger log (e.pollCall number).1 := by
  cases made : e.calls[number]? with
  | none =>
    simp only [Exchange.pollCall, made]
    exact ledger
  | some call =>
    obtain ⟨s, here, below, fits⟩ := ledger.called made
    -- Unless it waits for a place in its queue, a request that is polled only looks.
    have looks : ∀ {stage : CallStage}, e.advance call = (e, stage) →
        (call.job.Asks → stage.Fits (s.coordinator.waits call.job)
          (log.count (call.station, call.job)) s.coordinator.ended) →
        Ledger log (e.pollCall number).1 := by
      intro stage advanced fits'
      simp only [Exchange.pollCall, made, advanced]
      exact ledger.restage made here rfl (stations_putCoordinator_self here).symm rfl
        (.still rfl rfl (fun _ => rfl) fun _ => rfl) (.refl _) (fun _ h => by cases h) fits'
    cases at_stage : call.stage with
    | finished outcome => exact looks (by simp only [advance, at_stage]) (at_stage ▸ fits)
    | abandoned => exact looks (by simp only [advance, at_stage]) (at_stage ▸ fits)
    | waiting =>
      rw [at_stage] at fits
      have result : (e.pollCall number).1 =
          { e.putCoordinator call.station (s.coordinator.resume call.job).1 with
            calls := e.calls.set number { call with
              stage := stageAfter call.job.request (s.coordinator.resume call.job).2 } } := by
        simp only [Exchange.pollCall, made, advance, at_stage, resume_of_station here]
        rfl
      rw [result]
      refine ledger.restage made here rfl rfl rfl (s.coordinator.fed_resume call.job)
        (s.coordinator.silent_resume call.job) ?_ ?_
      · intro job h
        split at h
        · exact (Option.some.inj h).symm
        · cases h
      · intro asks
        obtain ⟨waits, never⟩ := fits asks
        rw [never]
        exact fits_stageAfter (s.coordinator.fed_resume call.job) waits asks
          (Coordinator.ended_of_resume_refused (ledger.tidy here))
    | queued =>
      rw [at_stage] at fits
      cases answer : s.coordinator.answer? call.job.id with
      | some a =>
        refine @looks (.finished (.answered a)) (by simp only [advance, at_stage, here, answer]) ?_
        intro asks
        have handled := ledger.mem_of_answered made here (by rw [answer]; rfl)
        have once := List.count_pos_iff.2 handled
        rcases fits asks with sum | ⟨-, -, never⟩
        · exact ⟨by omega, by omega⟩
        · omega
      | none =>
        cases ended : s.coordinator.ended with
        | false =>
          exact @looks .queued (by simp only [advance, at_stage, here, answer, ended]; rfl) fits
        | true =>
          refine @looks (.finished .closed)
            (by simp only [advance, at_stage, here, answer, ended]; rfl) ?_
          intro asks
          have never : log.count (call.station, call.job) = 0 := by
            rw [List.count_eq_zero]
            intro member
            have answered := (ledger.answered here call.job.id).2 ⟨call.job, member, asks, rfl⟩
            rw [answer] at answered
            cases answered
          have waits : s.coordinator.waits call.job = 0 := by
            apply Coordinator.waits_eq_zero
            rw [(ledger.tidy here).empty ended]
            exact List.not_mem_nil
          exact ⟨ended, waits, never⟩

/-- A request is given up. -/
theorem abandon (number : Nat) : Ledger log (e.abandon number) := by
  cases made : e.calls[number]? with
  | none =>
    simp only [Exchange.abandon, made]
    exact ledger
  | some call =>
    obtain ⟨s, here, below, fits⟩ := ledger.called made
    cases at_stage : call.stage with
    | finished outcome =>
      simp only [Exchange.abandon, made, at_stage]
      exact ledger
    | abandoned =>
      simp only [Exchange.abandon, made, at_stage]
      exact ledger
    | waiting =>
      rw [at_stage] at fits
      have result : e.abandon number =
          { e.putCoordinator call.station (s.coordinator.withdraw call.job) with
            calls := e.calls.set number { call with stage := .abandoned } } := by
        simp only [Exchange.abandon, made, at_stage, CallStage.isOpen, if_true,
          modifyCoordinator_eq here]
        rfl
      rw [result]
      refine ledger.restage made here rfl rfl rfl (s.coordinator.fed_withdraw call.job)
        (s.coordinator.silent_withdraw call.job) (fun _ h => by cases h) ?_
      intro asks
      obtain ⟨waits, never⟩ := fits asks
      have same := (s.coordinator.fed_withdraw call.job).waits call.job
      rw [waits] at same
      rw [same, never]
      exact Nat.zero_le 1
    | queued =>
      rw [at_stage] at fits
      simp only [Exchange.abandon, made, at_stage, CallStage.isOpen, if_true]
      refine ledger.restage made here rfl (stations_putCoordinator_self here).symm rfl
        (.still rfl rfl (fun _ => rfl) fun _ => rfl) (.refl _) (fun _ h => by cases h) ?_
      intro asks
      rcases fits asks with once | ⟨-, none, never⟩
      · exact once.le
      · rw [none, never]
        exact Nat.zero_le 1

/-- A coordinator handles a job. -/
theorem serve {i : Nat} {s : Station} {c' : Coordinator} {job : Job} {lane : Lane}
    (here : e.stations[i]? = some s) (served : s.coordinator.Served c' job lane)
    (reports : s.coordinator.Reports c' job) (calls : e'.calls = e.calls)
    (stations : e'.stations = (e.putCoordinator i c').stations) (pumps : e'.pumps = e.pumps) :
    Ledger ((i, job) :: log) e' := by
  have back : ∀ {j : Nat} {s' : Station}, e'.stations[j]? = some s' →
      (j = i ∧ s'.coordinator = c') ∨ (j ≠ i ∧ e.stations[j]? = some s') := by
    intro j s' there
    rw [stations, getElem?_putCoordinator] at there
    by_cases same : i = j
    · subst same
      rw [if_pos rfl, here] at there
      obtain rfl := Option.some.inj there
      exact Or.inl ⟨rfl, rfl⟩
    · rw [if_neg same] at there
      exact Or.inr ⟨Ne.symm same, there⟩
  have tidy := ledger.tidy here
  constructor
  case tidy =>
    intro j s' there
    rcases back there with ⟨rfl, rfl⟩ | ⟨-, before⟩
    · exact tidy.served served
    · exact ledger.tidy before
  case held =>
    rw [HoldsCalls, pumps]
    exact ledger.held
  case answered =>
    intro j s' there id
    rcases back there with ⟨rfl, rfl⟩ | ⟨other, before⟩
    · rw [reports.answered, ledger.answered here]
      constructor
      · rintro (⟨job', member, asks, rfl⟩ | ⟨asks, rfl⟩)
        · exact ⟨job', List.mem_cons_of_mem _ member, asks, rfl⟩
        · exact ⟨job, List.mem_cons_self, asks, rfl⟩
      · rintro ⟨job', member, asks, rfl⟩
        rcases List.mem_cons.1 member with new | old
        · obtain rfl := congrArg Prod.snd new
          exact Or.inr ⟨asks, rfl⟩
        · exact Or.inl ⟨job', old, asks, rfl⟩
    · rw [ledger.answered before]
      constructor
      · rintro ⟨job', member, rest⟩
        exact ⟨job', List.mem_cons_of_mem _ member, rest⟩
      · rintro ⟨job', member, rest⟩
        rcases List.mem_cons.1 member with new | old
        · exact absurd (congrArg Prod.fst new) other
        · exact ⟨job', old, rest⟩
  case owned =>
    intro j job' asks found
    rw [calls]
    refine ledger.owned asks ?_
    rcases found with member | ⟨s', there, waits⟩
    · rcases List.mem_cons.1 member with new | old
      · -- What is handled now has waited in its queue until now.
        obtain ⟨rfl, rfl⟩ := Prod.mk.inj new
        have own : job'.request.lane = lane := tidy.lane lane job' served.mem
        exact Or.inr ⟨s, here, own ▸ served.mem⟩
      · exact Or.inl old
    · rcases back there with ⟨rfl, rfl⟩ | ⟨-, before⟩
      · exact Or.inr ⟨s, here, served.subset _ waits⟩
      · exact Or.inr ⟨s', before, waits⟩
  case called =>
    intro number call made
    rw [calls] at made
    obtain ⟨t, there, below, fits⟩ := ledger.called made
    by_cases at_i : call.station = i
    · subst at_i
      rw [here] at there
      obtain rfl := Option.some.inj there
      refine ⟨{ s with coordinator := c' }, ?_, reports.nextId ▸ below, ?_⟩
      · rw [stations, getElem?_putCoordinator, if_pos rfl, here]
        rfl
      · intro asks
        have waits := served.waits tidy call.job
        have fits := fits asks
        rw [waits] at fits
        by_cases same : job = call.job
        · subst same
          rw [if_pos rfl] at fits
          rw [List.count_cons_self]
          exact served.ended ▸ fits.serve
        · rw [if_neg same, Nat.add_zero] at fits
          rw [List.count_cons_of_ne (by simp [same])]
          exact served.ended ▸ fits
    · refine ⟨t, ?_, below, ?_⟩
      · rw [stations, getElem?_putCoordinator, if_neg (Ne.symm at_i), there]
      · intro asks
        rw [List.count_cons_of_ne]
        · exact fits asks
        · intro same
          exact at_i (congrArg Prod.fst same).symm
  case distinct =>
    rw [calls]
    exact ledger.distinct

end Ledger

end Exchange

end PartExchange
