/-
**The calls that enter a coordinator, and those that leave it.**

Calls from peers come to a coordinator from two sides: its pump brings what arrives in the inbox, and
anybody with a handle may hand over more.  All of them stand in one queue.  Whatever happens, what has
been handled and what is left in the queue is what was there before and what has entered, in this
order; only the end of the coordinator breaks the law, and it discards everything.

Each request that enters has a number of its own: it has waited for its place under this number, or
it has just got the next one.

Main definitions:

* `callsFor`: the calls for a coordinator among some jobs;
* `Coordinator.Passes`: a coordinator before and after calls have entered and left;
* `Exchange.incomingAt`, `Exchange.Halted`, `Exchange.Tidied`: what is seen of the coordinators;
* `Exchange.Conserves`: the same law for all coordinators;
* `Exchange.Issued`, `Exchange.Brings`: a change in which requests enter, and pumps rest or end;
* `Exchange.PumpMoves`, `Exchange.Hands`: a change in which a pump moves;
* `Exchange.Draws`: a call that a pump has taken, and its number.

Main results:

* `Exchange.Conserves.trans`: the law holds over two changes if it holds over each;
* `Exchange.brings_act?`: the law holds over every action in which pumps rest, and whatever enters has
  a number of its own;
* `Exchange.pumpMoves_pumpStep?`: what a pump has held and what it takes is what it hands over and
  what it holds then.
-/

import PartExchange.Proofs.Traffic

set_option relaxedAutoImplicit false
set_option autoImplicit false

namespace PartExchange

/-- The calls from peers among some jobs that are for one coordinator. -/
def callsFor (i : Nat) (jobs : List (Nat × Job)) : List Job :=
  jobs.filterMap fun (j, job) => if j = i ∧ job.request.lane = .incoming then some job else none

theorem callsFor_append (i : Nat) (jobs later : List (Nat × Job)) :
    callsFor i (jobs ++ later) = callsFor i jobs ++ callsFor i later := List.filterMap_append

theorem mem_callsFor {i : Nat} {jobs : List (Nat × Job)} {job : Job} :
    job ∈ callsFor i jobs ↔ (i, job) ∈ jobs ∧ job.request.lane = .incoming := by
  rw [callsFor, List.mem_filterMap]
  constructor
  · rintro ⟨⟨j, other⟩, member, picked⟩
    dsimp only at picked
    split at picked
    · rename_i own
      obtain ⟨rfl, call⟩ := own
      obtain rfl := Option.some.inj picked
      exact ⟨member, call⟩
    · cases picked
  · rintro ⟨member, call⟩
    exact ⟨(i, job), member, if_pos ⟨rfl, call⟩⟩

theorem mem_callsFor_of_mem_map {i k : Nat} {entered : Option Job} {job : Job}
    (member : job ∈ callsFor i (entered.toList.map (k, ·))) : i = k ∧ job ∈ entered := by
  obtain ⟨other, entering, same⟩ := List.mem_map.1 (mem_callsFor.1 member).1
  obtain ⟨rfl, rfl⟩ := Prod.mk.injEq .. ▸ same
  exact ⟨rfl, Option.mem_toList.1 entering⟩

theorem callsFor_eq_nil {i : Nat} {jobs : List (Nat × Job)} (others : ∀ x ∈ jobs, x.1 ≠ i) :
    callsFor i jobs = [] := by
  rw [List.eq_nil_iff_forall_not_mem]
  intro job member
  exact others _ (mem_callsFor.1 member).1 rfl

/-! ### One coordinator -/

namespace Coordinator

/-- A coordinator before and after some calls from peers have been handled and some have entered its
queue. -/
structure Passes (handled entered : List Job) (c c' : Coordinator) : Prop where
  /-- Numbers are used once. -/
  nextId : c.nextId ≤ c'.nextId
  /-- What has ended does not begin again. -/
  ended : c.ended = true → c'.ended = true
  /-- The queues stay tidy. -/
  tidy : c.Tidy → c'.Tidy
  /-- What has been handled and what is left is what was there and what has entered. -/
  calls : c'.ended = true ∨ handled ++ c'.incoming.items = c.incoming.items ++ entered

theorem passes_close (c : Coordinator) : Passes [] [] c c.close :=
  ⟨Nat.le_refl _, fun _ => rfl, fun _ => tidy_close, Or.inl rfl⟩

/-- A sender's attempt. -/
theorem Fed.passes {c c' : Coordinator} {entered : Option Job} (fed : c.Fed c' entered)
    (silent : c.Silent c') :
    Passes [] (entered.filter (·.request.lane = .incoming)).toList c c' where
  nextId := silent.nextId
  ended ended := by rw [fed.ended, ended]
  tidy tidy := tidy.fed fed
  calls := Or.inr (fed.items .incoming)

/-- A job that is handled. -/
theorem Served.passes {c c' : Coordinator} {job : Job} {lane : Lane} (served : c.Served c' job lane)
    (reports : c.Reports c' job) (tidy : c.Tidy) :
    Passes (if job.request.lane = .incoming then [job] else []) [] c c' where
  nextId := reports.nextId.ge
  ended ended := by rw [served.ended, ended]
  tidy tidy := tidy.served served
  calls := by
    right
    rw [List.append_nil]
    have home : job.request.lane = lane := tidy.lane lane job served.mem
    split
    · rename_i call
      rw [home] at call
      subst call
      exact served.head.symm
    · rename_i other
      rw [home] at other
      exact served.others .incoming (Ne.symm other)

end Coordinator

/-! ### All coordinators -/

namespace Exchange

/-- The calls that wait in the queue of a coordinator. -/
def incomingAt (e : Exchange) (i : Nat) : List Job :=
  (e.stations[i]?.map fun s => s.coordinator.incoming.items).getD []

/-- A coordinator has ended. -/
def Halted (e : Exchange) (i : Nat) : Prop :=
  ∃ s, e.stations[i]? = some s ∧ s.coordinator.ended = true

/-- The queues of all coordinators are tidy. -/
def Tidied (e : Exchange) : Prop :=
  ∀ {i : Nat} {s : Station}, e.stations[i]? = some s → s.coordinator.Tidy

section Station

variable {e : Exchange} {i : Nat} {s : Station} (here : e.stations[i]? = some s)

include here

theorem nextNumber_of_station : e.nextNumber i = s.coordinator.nextId := by
  rw [nextNumber, here]
  rfl

theorem incomingAt_of_station : e.incomingAt i = s.coordinator.incoming.items := by
  rw [incomingAt, here]
  rfl

theorem halted_iff : e.Halted i ↔ s.coordinator.ended = true := by
  constructor
  · rintro ⟨t, there, ended⟩
    obtain rfl := Option.some.inj (here.symm.trans there)
    exact ended
  · intro ended
    exact ⟨s, here, ended⟩

end Station

/-- Coordinators before and after some calls from peers have been handled and some have entered
queues. -/
structure Conserves (handled entered : List (Nat × Job)) (e e' : Exchange) : Prop where
  /-- Coordinators stay where they are. -/
  length : e.stations.length ≤ e'.stations.length
  /-- Numbers are used once. -/
  nextNumber : ∀ i, e.nextNumber i ≤ e'.nextNumber i
  /-- What has ended does not begin again. -/
  halted : ∀ {i}, e.Halted i → e'.Halted i
  /-- The queues stay tidy. -/
  tidied : e.Tidied → e'.Tidied
  /-- What has been handled and what is left is what was there and what has entered. -/
  calls : ∀ i, e'.Halted i ∨
    callsFor i handled ++ e'.incomingAt i = e.incomingAt i ++ callsFor i entered

namespace Conserves

variable {e e' e'' : Exchange} {handled entered : List (Nat × Job)}

theorem of_stations (same : e'.stations = e.stations) : Conserves [] [] e e' where
  length := by rw [same]
  nextNumber i := by rw [Exchange.nextNumber, Exchange.nextNumber, same]
  halted {i} := by rw [Halted, Halted, same]; exact id
  tidied := by rw [Tidied, Tidied, same]; exact id
  calls i := by
    right
    rw [incomingAt, incomingAt, same]
    exact (List.append_nil _).symm

theorem refl (e : Exchange) : Conserves [] [] e e := of_stations rfl

theorem trans {handled' entered' : List (Nat × Job)} (first : Conserves handled entered e e')
    (second : Conserves handled' entered' e' e'') :
    Conserves (handled ++ handled') (entered ++ entered') e e'' where
  length := Nat.le_trans first.length second.length
  nextNumber i := Nat.le_trans (first.nextNumber i) (second.nextNumber i)
  halted h := second.halted (first.halted h)
  tidied h := second.tidied (first.tidied h)
  calls i := by
    rcases second.calls i with halted | later
    · exact Or.inl halted
    · rcases first.calls i with halted | before
      · exact Or.inl (second.halted halted)
      · right
        rw [callsFor_append, List.append_assoc, later, ← List.append_assoc, before, callsFor_append,
          List.append_assoc]

/-- Where nothing else changes after a change. -/
theorem trans_stations (first : Conserves handled entered e e') (same : e''.stations = e'.stations) :
    Conserves handled entered e e'' := by
  simpa using first.trans (of_stations same)

/-- Replacing a coordinator. -/
theorem put {i : Nat} {s : Station} (here : e.stations[i]? = some s) {c : Coordinator}
    (passes : Coordinator.Passes (callsFor i handled) (callsFor i entered) s.coordinator c)
    (own : ∀ x ∈ handled ++ entered, x.1 = i) : Conserves handled entered e (e.putCoordinator i c) := by
  have station : ∀ j, (e.putCoordinator i c).stations[j]? =
      if i = j then some { s with coordinator := c } else e.stations[j]? := by
    intro j
    rw [getElem?_putCoordinator]
    split
    · rename_i same
      rw [← same, here]
      rfl
    · rfl
  have works : (e.putCoordinator i c).stations[i]? = some { s with coordinator := c } :=
    (station i).trans (if_pos rfl)
  refine ⟨?_, ?_, ?_, ?_, ?_⟩
  · rw [putCoordinator, modifyCoordinator, List.length_modify]
  · intro j
    by_cases same : i = j
    · rw [← same, nextNumber_of_station here, nextNumber_of_station works]
      exact passes.nextId
    · rw [Exchange.nextNumber, Exchange.nextNumber, station, if_neg same]
  · rintro j ⟨t, there, ended⟩
    by_cases same : i = j
    · subst same
      obtain rfl := Option.some.inj (here.symm.trans there)
      exact ⟨_, works, passes.ended ended⟩
    · exact ⟨t, by rw [station, if_neg same, there], ended⟩
  · intro tidied j t there
    rw [station] at there
    split at there
    · obtain rfl := Option.some.inj there
      exact passes.tidy (tidied here)
    · exact tidied there
  · intro j
    by_cases same : i = j
    · rw [← same, incomingAt_of_station here, incomingAt_of_station works, halted_iff works]
      exact passes.calls
    · have nothing : ∀ jobs ⊆ handled ++ entered, callsFor j jobs = [] := by
        intro jobs part
        apply callsFor_eq_nil
        intro x member
        rw [own x (part member)]
        exact same
      right
      rw [nothing _ (List.subset_append_left _ _), nothing _ (List.subset_append_right _ _),
        incomingAt, station, if_neg same, incomingAt, List.append_nil, List.nil_append]

theorem modifyCoordinator (e : Exchange) (i : Nat) {change : Coordinator → Coordinator}
    (passes : ∀ c, Coordinator.Passes [] [] c (change c)) :
    Conserves [] [] e (e.modifyCoordinator i change) := by
  cases here : e.stations[i]? with
  | none =>
    refine of_stations ?_
    rw [Exchange.modifyCoordinator]
    exact List.modify_eq_self (List.getElem?_eq_none_iff.1 here)
  | some s =>
    rw [modifyCoordinator_eq here]
    exact put here (passes s.coordinator) fun x member => by cases member

/-- A sender's attempt. -/
theorem fed {i : Nat} {s : Station} (here : e.stations[i]? = some s) {c : Coordinator}
    {entered : Option Job} (fed : s.coordinator.Fed c entered) (silent : s.coordinator.Silent c) :
    Conserves [] (entered.toList.map (i, ·)) e (e.putCoordinator i c) := by
  refine put here ?_ ?_
  · have calls : callsFor i (entered.toList.map (i, ·)) =
        (entered.filter (·.request.lane = .incoming)).toList := by
      cases entered with
      | none => rfl
      | some job =>
        by_cases call : job.request.lane = .incoming <;> simp [callsFor, Option.filter, call]
    rw [calls]
    exact fed.passes silent
  · intro x member
    obtain ⟨job, -, rfl⟩ := List.mem_map.1 member
    rfl

/-- A job that is handled. -/
theorem served {i : Nat} {s : Station} (here : e.stations[i]? = some s) {c : Coordinator}
    {job : Job} {lane : Lane} (served : s.coordinator.Served c job lane)
    (reports : s.coordinator.Reports c job) (tidied : e.Tidied) :
    Conserves [(i, job)] [] e (e.putCoordinator i c) := by
  refine put here ?_ ?_
  · have calls : callsFor i [(i, job)] =
        if job.request.lane = .incoming then [job] else [] := by
      by_cases call : job.request.lane = .incoming <;> simp [callsFor, call]
    rw [calls]
    exact served.passes reports (tidied here)
  · intro x member
    obtain rfl := List.mem_singleton.1 member
    rfl

theorem endStation (e : Exchange) (station : Option Nat) : Conserves [] [] e (e.endStation station) := by
  cases station with
  | none => exact refl e
  | some i => exact modifyCoordinator e i Coordinator.passes_close

/-- A new coordinator. -/
theorem concat (e : Exchange) (outlet : Outlet) (config : CoordinatorConfig) :
    Conserves [] [] e { e with stations := e.stations ++ [⟨outlet, .new config⟩] } := by
  have station := getElem?_concat e.stations ⟨outlet, .new config⟩
  refine ⟨?_, ?_, ?_, ?_, ?_⟩
  · rw [List.length_append]
    exact Nat.le_add_right _ _
  · intro i
    simp only [Exchange.nextNumber, station]
    split
    · rename_i new
      rw [new, List.getElem?_eq_none (Nat.le_refl _)]
      exact Nat.zero_le _
    · exact Nat.le_refl _
  · rintro i ⟨s, here, ended⟩
    exact ⟨s, getElem?_concat_of_some here _, ended⟩
  · intro tidied i s there
    rcases of_getElem?_concat there with old | rfl
    · exact tidied old
    · exact Coordinator.tidy_new config
  · intro i
    right
    simp only [incomingAt, station]
    split
    · rename_i new
      rw [new, List.getElem?_eq_none (Nat.le_refl _)]
      rfl
    · exact (List.append_nil _).symm

end Conserves

/-! ### Changes in which pumps rest -/

/-- A request has a number of its own: it has waited under this number, or it has just got the next
one. -/
def Issued (e e' : Exchange) (i : Nat) (job : Job) : Prop :=
  (∃ c ∈ e.calls, c.stage = .waiting ∧ c.station = i ∧ c.job = job) ∨
    (job.id = e.nextNumber i ∧ job.id < e'.nextNumber i)

/-- A change in which requests enter queues and are handled, while pumps rest or end. -/
structure Brings (handled entered : List (Nat × Job)) (e e' : Exchange) : Prop
    extends Conserves handled entered e e' where
  /-- A pump at work is as it was. -/
  working : ∀ {p : Nat} {a : Pump}, e'.pumps[p]? = some a → a.finished = false →
    e.pumps[p]? = some a
  /-- Whoever waits for a place has a number of its own. -/
  waiting : ∀ c ∈ e'.calls, c.stage = .waiting → Issued e e' c.station c.job
  /-- Whatever enters has a number of its own. -/
  enters : ∀ x ∈ entered, Issued e e' x.1 x.2

variable {e e' : Exchange}

/-- A change in which nothing enters. -/
theorem Conserves.brings {handled : List (Nat × Job)} (conserves : Conserves handled [] e e')
    (working : ∀ {p : Nat} {a : Pump}, e'.pumps[p]? = some a → a.finished = false →
      e.pumps[p]? = some a)
    (calls : e'.calls = e.calls) : Brings handled [] e e' where
  toConserves := conserves
  working := working
  waiting c member waits := by
    rw [calls] at member
    exact Or.inl ⟨c, member, waits, rfl, rfl⟩
  enters x member := by cases member

/-- A change in which neither coordinators nor pumps nor requests have a part. -/
theorem brings_of_still (stations : e'.stations = e.stations) (pumps : e'.pumps = e.pumps)
    (calls : e'.calls = e.calls) : Brings [] [] e e' :=
  (Conserves.of_stations stations).brings (fun there _ => pumps ▸ there) calls

/-- Making a request. -/
theorem brings_call (e : Exchange) (i : Nat) (request : Request) :
    ∃ entered, Brings [] entered e (e.call i request).1 := by
  cases here : e.stations[i]? with
  | none =>
    have made : (e.call i request).1 =
        { e with calls := e.calls ++ [⟨i, ⟨0, request⟩, .finished .closed⟩] } := by
      simp only [call, submit, here]
    rw [made]
    refine ⟨[], .of_stations rfl, fun there _ => there, ?_, fun x member => by cases member⟩
    intro c member waits
    rcases List.mem_append.1 member with before | new
    · exact Or.inl ⟨c, before, waits, rfl, rfl⟩
    · obtain rfl := List.mem_singleton.1 new
      cases waits
  | some s =>
    let c' := (s.coordinator.submit request).1
    let job := (s.coordinator.submit request).2.1
    let sending := (s.coordinator.submit request).2.2
    have made : (e.call i request).1 = { e.putCoordinator i c' with
        calls := e.calls ++ [⟨i, job, stageAfter request sending⟩] } := by
      simp only [call, submit_of_station here]
      rfl
    have conserves := Conserves.fed here (s.coordinator.fed_submit request)
      (s.coordinator.silent_submit request)
    have works : (e.putCoordinator i c').stations[i]? = some { s with coordinator := c' } := by
      rw [getElem?_putCoordinator, if_pos rfl, here]
      rfl
    have issued : Issued e (e.putCoordinator i c') i job := by
      right
      rw [nextNumber_of_station here, nextNumber_of_station works]
      exact ⟨rfl, Nat.lt_succ_self _⟩
    rw [made]
    refine ⟨_, conserves.trans_stations rfl, fun there _ => there, ?_, ?_⟩
    · intro c member waits
      rcases List.mem_append.1 member with before | new
      · exact Or.inl ⟨c, before, waits, rfl, rfl⟩
      · obtain rfl := List.mem_singleton.1 new
        exact issued
    · intro x member
      obtain ⟨other, entered, rfl⟩ := List.mem_map.1 member
      rw [Option.mem_toList] at entered
      split at entered
      · obtain rfl := Option.some.inj entered
        exact issued
      · cases entered

/-- A request waits after a poll only if it has waited before. -/
theorem waiting_of_advance {c : Call} (waits : (e.advance c).2 = .waiting) :
    c.stage = .waiting := by
  cases stage : c.stage with
  | waiting => rfl
  | finished outcome => simp [advance, stage] at waits
  | abandoned => simp [advance, stage] at waits
  | queued =>
    simp only [advance, stage] at waits
    split at waits
    · cases waits
    · split at waits
      · cases waits
      · split at waits <;> cases waits

/-- Polling a request. -/
theorem brings_pollCall (e : Exchange) (number : Nat) :
    ∃ entered, Brings [] entered e (e.pollCall number).1 := by
  cases made : e.calls[number]? with
  | none =>
    rw [pollCall, made]
    exact ⟨[], brings_of_still rfl rfl rfl⟩
  | some c =>
    have polled : (e.pollCall number).1 = { (e.advance c).1 with
        calls := (e.advance c).1.calls.set number { c with stage := (e.advance c).2 } } := by
      simp only [pollCall, made]
    rw [polled]
    have waiting : ∀ d ∈ (e.advance c).1.calls.set number { c with stage := (e.advance c).2 },
        d.stage = .waiting → ∃ old ∈ e.calls, old.stage = .waiting ∧ old.station = d.station ∧
          old.job = d.job := by
      intro d member waits
      rw [calls_advance] at member
      rcases List.mem_or_eq_of_mem_set member with before | rfl
      · exact ⟨d, before, waits, rfl, rfl⟩
      · exact ⟨c, List.mem_of_getElem? made, waiting_of_advance waits, rfl, rfl⟩
    have still (same : (e.advance c).1 = e) : ∃ entered, Brings [] entered e
        { (e.advance c).1 with
          calls := (e.advance c).1.calls.set number { c with stage := (e.advance c).2 } } := by
      refine ⟨[], .of_stations (by rw [same]), ?_, ?_, fun x member => by cases member⟩
      · rw [same]
        exact fun there _ => there
      · intro d member waits
        exact Or.inl (waiting d member waits)
    cases stage : c.stage with
    | finished outcome => exact still (by simp only [advance, stage])
    | abandoned => exact still (by simp only [advance, stage])
    | queued =>
      refine still ?_
      simp only [advance, stage]
      split
      · rfl
      · split <;> rfl
    | waiting =>
      cases here : e.stations[c.station]? with
      | none => exact still (by simp only [advance, stage, resume, here])
      | some s =>
        have resumed : (e.advance c).1 =
            e.putCoordinator c.station (s.coordinator.resume c.job).1 := by
          simp only [advance, stage, resume_of_station here]
        have conserves := Conserves.fed here (s.coordinator.fed_resume c.job)
          (s.coordinator.silent_resume c.job)
        refine ⟨_, conserves.trans_stations (by rw [resumed]), ?_, ?_, ?_⟩
        · rw [resumed]
          exact fun there _ => there
        · intro d member waits
          exact Or.inl (waiting d member waits)
        · intro x member
          obtain ⟨other, entered, rfl⟩ := List.mem_map.1 member
          rw [Option.mem_toList] at entered
          split at entered
          · obtain rfl := Option.some.inj entered
            exact Or.inl ⟨c, List.mem_of_getElem? made, stage, rfl, rfl⟩
          · cases entered

/-- Giving up a request. -/
theorem brings_abandon (e : Exchange) (number : Nat) : Brings [] [] e (e.abandon number) := by
  unfold abandon
  split
  · exact brings_of_still rfl rfl rfl
  · rename_i c made
    have conserves : Conserves [] [] e (if c.stage = .waiting then
        e.modifyCoordinator c.station (·.withdraw c.job) else e) := by
      split
      · exact .modifyCoordinator e c.station fun d => (d.fed_withdraw c.job).passes
          (d.silent_withdraw c.job)
      · exact .refl e
    have pumps : (if c.stage = .waiting then
        e.modifyCoordinator c.station (·.withdraw c.job) else e).pumps = e.pumps := by
      split <;> rfl
    have calls : (if c.stage = .waiting then
        e.modifyCoordinator c.station (·.withdraw c.job) else e).calls = e.calls := by
      split <;> rfl
    dsimp only
    split
    · refine ⟨conserves.trans_stations rfl, ?_, ?_, fun x member => by cases member⟩
      · intro p a there _
        exact pumps ▸ there
      · intro d member waits
        rw [calls] at member
        rcases List.mem_or_eq_of_mem_set member with before | rfl
        · exact Or.inl ⟨d, before, waits, rfl, rfl⟩
        · cases waits
    · exact conserves.brings (fun there _ => pumps ▸ there) calls

/-- A pump at work after a pump has ended was at work before. -/
theorem working_endPump {p q : Nat} {a : Pump} (there : (e.endPump p).pumps[q]? = some a)
    (works : a.finished = false) : e.pumps[q]? = some a := by
  unfold endPump at there
  split at there
  · exact there
  · split at there
    · exact there
    · rw [List.getElem?_set] at there
      split at there
      · split at there
        · obtain rfl := Option.some.inj there
          cases works
        · cases there
      · exact there

theorem brings_attach (e : Exchange) (site : Nat) (config : CoordinatorConfig) :
    Brings [] [] e (e.attach site config) := by
  have conserves : Conserves [] [] e (e.attach site config) := by
    unfold attach
    split
    · exact .refl e
    · rename_i s here
      exact ((Conserves.endStation e s.station).trans (.concat _ s.outlet config)).trans_stations rfl
  refine conserves.brings ?_ (calls_attach e site config)
  intro p a there _
  unfold attach at there
  split at there
  · exact there
  · exact pumps_endStation e _ ▸ there

theorem brings_leave (e : Exchange) (site : Nat) : Brings [] [] e (e.leave site) := by
  have conserves : Conserves [] [] e (e.leave site) := by
    unfold leave
    split
    · exact .refl e
    · rename_i s here
      refine (Conserves.endStation e s.station).trans_stations ?_
      rw [stations_releaseOutlet]
      exact stations_endReader _ _
  refine conserves.brings ?_ (calls_leave e site)
  intro p a there works
  unfold leave at there
  split at there
  · exact there
  · rename_i s here
    rw [pumps_releaseOutlet] at there
    rw [← pumps_endStation e s.station]
    cases reader : s.pump with
    | none =>
      rw [reader] at there
      exact there
    | some q =>
      rw [reader] at there
      exact working_endPump there works

/-- An action in which pumps rest or end. -/
def RestsPumps : Action → Prop
  | .pump _ | .openPump _ => False
  | _ => True

/-- What has been handled and what is left is what was there and what has entered, and what has
entered has a number of its own. -/
theorem brings_act? {action : Action} (tidied : e.Tidied) (acts : e.act? action = some e')
    (rests : RestsPumps action) :
    ∃ entered, Brings (e.handled? action).toList entered e e' := by
  cases action with
  | pump _ | openPump _ => exact rests.elim
  | join _ | record _ | dropHandle _ =>
    obtain rfl := Option.some.inj acts
    exact ⟨[], brings_of_still rfl rfl rfl⟩
  | share _ | transmit _ _ =>
    obtain ⟨_, -, rfl⟩ := Option.map_eq_some_iff.1 acts
    exact ⟨[], brings_of_still rfl rfl rfl⟩
  | connect _ _ =>
    obtain ⟨net, -, rfl⟩ := connect_of_act? acts
    exact ⟨[], brings_of_still rfl rfl rfl⟩
  | attach site config =>
    obtain ⟨_, -, rfl⟩ := Option.map_eq_some_iff.1 acts
    exact ⟨[], brings_attach e site config⟩
  | leave site =>
    obtain ⟨_, -, rfl⟩ := Option.map_eq_some_iff.1 acts
    exact ⟨[], brings_leave e site⟩
  | askStop site =>
    obtain rfl := Option.some.inj acts
    refine ⟨[], ?_⟩
    unfold askStop
    split
    · exact (Conserves.modifyCoordinator e _ fun c => c.fed_askStop.passes
        ⟨rfl, rfl, Nat.le_refl _⟩).brings (fun there _ => there) rfl
    · exact brings_of_still rfl rfl rfl
  | request i request =>
    obtain rfl := Option.some.inj acts
    exact brings_call e i request
  | poll number =>
    obtain rfl := Option.some.inj acts
    exact brings_pollCall e number
  | abandon number =>
    obtain rfl := Option.some.inj acts
    exact ⟨[], brings_abandon e number⟩
  | serve i =>
    obtain ⟨s, here, ⟨none, rfl⟩ | handles⟩ := reports_of_stationStep? acts
    · rw [handled?, none]
      have conserves : Conserves [] [] e (e.putCoordinator i s.coordinator.close) :=
        .put here s.coordinator.passes_close fun x member => by cases member
      exact ⟨[], conserves.brings (fun there _ => there) rfl⟩
    · obtain ⟨job, lane, c', next, served, reports, calls, pumps, stations⟩ := handles
      rw [handled?, next]
      have conserves := (Conserves.served here served reports tidied).trans_stations stations
      exact ⟨[], conserves.brings (fun there _ => pumps ▸ there) calls⟩

/-! ### Changes in which a pump moves -/

/-- What a pump's step does to the call that it holds and to the one that it takes. -/
inductive PumpMoves (e : Exchange) (p : Nat) (pump : Pump) (taken : Option Taking) (e' : Exchange) :
    Prop
  | goes {entered held : Option Job}
      (conserves : Conserves [] (entered.toList.map (pump.station, ·)) e e')
      (pumps : e'.pumps = e.pumps.set p { pump with held })
      (hands : pump.held.toList ++ taken.toList.map Taking.job =
        entered.toList ++ held.toList)
      (closed : ∀ k, e'.carriers.net.readingAt? k = some .closed →
        e.carriers.net.readingAt? k = some .closed)
  | ends (brings : Brings [] [] e e')
      (pumps : e'.pumps = (e.endPump p).pumps)
      (reason : e'.Halted pump.station ∨ e.carriers.net.isReplaced pump.endpoint = true)
      (closed : ∀ k, e'.carriers.net.readingAt? k = some .closed →
        e.carriers.net.readingAt? k = some .closed ∨ k = pump.endpoint)

/-- The end of a pump. -/
theorem brings_endPump (e : Exchange) (p : Nat) : Brings [] [] e (e.endPump p) :=
  (Conserves.of_stations (stations_endPump e p)).brings working_endPump (calls_endPump e p)

/-- The end of a pump closes its inbox and no other. -/
theorem closed_endPump {p k : Nat}
    (closed : (e.endPump p).carriers.net.readingAt? k = some .closed) :
    e.carriers.net.readingAt? k = some .closed ∨
      ∃ a, e.pumps[p]? = some a ∧ a.finished = false ∧ k = a.endpoint := by
  unfold endPump at closed
  split at closed
  · exact Or.inl closed
  · rename_i a here
    split at closed
    · exact Or.inl closed
    · rename_i working
      by_cases own : k = a.endpoint
      · exact Or.inr ⟨a, here, by simpa using working, own⟩
      · left
        rw [Network.readingAt?, net_withNet, Network.getElem?_modify, if_neg (Ne.symm own)] at closed
        exact closed

theorem finished_endPump {p : Nat} {a : Pump} (there : (e.endPump p).pumps[p]? = some a) :
    a.finished = true := by
  unfold endPump at there
  split at there
  · rename_i absent
    rw [absent] at there
    cases there
  · rename_i pump here
    split at there
    · rename_i finished
      obtain rfl := Option.some.inj (here.symm.trans there)
      exact finished
    · rw [List.getElem?_set_self (List.getElem?_eq_some_iff.1 here).1] at there
      obtain rfl := Option.some.inj there
      rfl

/-- Nothing but the pumps matters for how a pump ends. -/
theorem pumps_endPump_of_eq (e e₁ : Exchange) (pumps : e₁.pumps = e.pumps) (p : Nat) :
    (e₁.endPump p).pumps = (e.endPump p).pumps := by
  unfold endPump
  rw [pumps]
  split
  · exact pumps
  · split
    · exact pumps
    · rfl

/-- A pump that has ended after a change of coordinators. -/
theorem Conserves.endPump {e₁ : Exchange} (conserves : Conserves [] [] e e₁) (pumps : e₁.pumps = e.pumps)
    (calls : e₁.calls = e.calls) (p : Nat) : Brings [] [] e (e₁.endPump p) := by
  refine (conserves.trans_stations (stations_endPump e₁ p)).brings ?_ ?_
  · intro q a there works
    exact pumps ▸ working_endPump there works
  · rw [calls_endPump, calls]

theorem stations_afterHandOver (e : Exchange) (p : Nat) (pump : Pump) (job : Job)
    (sending : Sending) : (e.afterHandOver p pump job sending).stations = e.stations := by
  cases sending with
  | sent => rfl
  | waiting => rfl
  | refused => exact stations_endPump e p

/-- A call that a pump has taken is for its coordinator, and has the coordinator's next number. -/
structure Draws (e : Exchange) (pump : Pump) (t : Taking) (e' : Exchange) : Prop where
  /-- It has been in the inbox of the pump. -/
  endpoint : t.endpoint = pump.endpoint
  /-- It is for the coordinator of the pump. -/
  station : t.station = pump.station
  /-- The number was the next one. -/
  number : t.number = e.nextNumber pump.station
  /-- The number has been given out. -/
  below : t.number < e'.nextNumber pump.station

section PumpStep

variable {p : Nat} {pump : Pump} (here : e.pumps[p]? = some pump)

include here

/-- The end of a pump after other things closes the inbox of the pump and no other. -/
theorem closed_endPump_of_eq {e₁ : Exchange} (pumps : e₁.pumps = e.pumps)
    (readings : ∀ k, e₁.carriers.net.readingAt? k = e.carriers.net.readingAt? k) (k : Nat)
    (closed : (e₁.endPump p).carriers.net.readingAt? k = some .closed) :
    e.carriers.net.readingAt? k = some .closed ∨ k = pump.endpoint := by
  rcases closed_endPump closed with before | ⟨a, there, -, rfl⟩
  · exact Or.inl (readings k ▸ before)
  · rw [pumps, here] at there
    obtain rfl := Option.some.inj there
    exact Or.inr rfl

/-- A pump that has not ended and holds nothing takes the next call in its inbox. -/
theorem taking?_pump (working : pump.finished = false) (idle : pump.held = none) :
    e.taking? (.pump p) = (e.carriers.net.receive? pump.endpoint).map fun (envelope, _) =>
      ⟨pump.endpoint, pump.station, e.nextNumber pump.station, envelope⟩ := by
  simp [taking?, here, working, idle]

/-- A pump hands a call over.  The call enters the queue, or the pump holds it from now on, or the
coordinator has ended and so does the pump. -/
theorem pumpMoves_afterHandOver {s : Station} (works : e.stations[pump.station]? = some s)
    {e₁ : Exchange} {c : Coordinator} {job : Job} {sending : Sending} {taken : Option Taking}
    (fed : s.coordinator.Fed c (if sending = .sent then some job else none))
    (silent : s.coordinator.Silent c)
    (ended : sending = .refused → s.coordinator.ended = true)
    (stations : e₁.stations = (e.putCoordinator pump.station c).stations)
    (pumps : e₁.pumps = e.pumps) (calls : e₁.calls = e.calls)
    (readings : ∀ k, e₁.carriers.net.readingAt? k = e.carriers.net.readingAt? k)
    (hands : pump.held.toList ++ taken.toList.map Taking.job = [job]) :
    PumpMoves e p pump taken (e₁.afterHandOver p pump job sending) := by
  have conserves := (Conserves.fed works fed silent).trans_stations stations
  cases sending with
  | sent =>
    rw [if_pos rfl] at conserves
    refine @PumpMoves.goes _ _ _ _ _ (some job) none (conserves.trans_stations rfl) ?_ hands
      fun k => (readings k ▸ ·)
    exact congrArg (List.set · p _) pumps
  | waiting =>
    rw [if_neg (by decide)] at conserves
    refine @PumpMoves.goes _ _ _ _ _ none (some job) (conserves.trans_stations rfl) ?_ hands
      fun k => (readings k ▸ ·)
    exact congrArg (List.set · p _) pumps
  | refused =>
    rw [if_neg (by decide)] at conserves
    have before : e.Halted pump.station := ⟨s, works, ended rfl⟩
    have after := conserves.trans_stations (stations_endPump e₁ p)
    exact .ends (conserves.endPump pumps calls p) (pumps_endPump_of_eq e e₁ pumps p)
      (Or.inl (after.halted before)) (closed_endPump_of_eq here pumps readings)

/-- What a pump's step does. -/
theorem pumpMoves_pumpStep? (stationed : pump.station < e.stations.length) (tidied : e.Tidied)
    (step : e.pumpStep? p = some e') : PumpMoves e p pump (e.taking? (.pump p)) e' := by
  obtain ⟨pump', here', working, kind⟩ := pumpStep_of_pumpStep? step
  obtain rfl := Option.some.inj (here.symm.trans here')
  obtain ⟨s, works⟩ : ∃ s, e.stations[pump.station]? = some s :=
    ⟨_, List.getElem?_eq_getElem stationed⟩
  cases kind with
  | @retries job holds goes =>
    have nothing : e.taking? (.pump p) = none := by simp [taking?, here, holds]
    rw [nothing, resume_of_station works]
    refine pumpMoves_afterHandOver here works (s.coordinator.fed_resume job)
      (s.coordinator.silent_resume job) (Coordinator.ended_of_resume_refused (tidied works))
      rfl rfl rfl (fun _ => rfl) ?_
    rw [holds]
    rfl
  | @takes envelope net e₁ job sending idle received made =>
    rw [taking?_pump here working idle, received, Option.map_some]
    have works' : (e.withNet net).stations[pump.station]? = some s := works
    rw [submit_of_station works'] at made
    cases made
    refine pumpMoves_afterHandOver here works (s.coordinator.fed_submit (.rpc envelope.delivery))
      (s.coordinator.silent_submit _) (Coordinator.ended_of_submit_refused (tidied works))
      rfl rfl rfl (Network.received received).readingAt? ?_
    rw [idle, nextNumber_of_station works]
    rfl
  | @loses envelope net idle received nobody =>
    have works' : (e.withNet net).stations[pump.station]? = some s := works
    rw [submit_of_station works'] at nobody
    cases nobody
  | retires idle nothing replaced =>
    rw [taking?_pump here working idle, nothing, Option.map_none]
    exact .ends (brings_endPump e p) rfl (Or.inr replaced)
      (closed_endPump_of_eq here rfl fun _ => rfl)

/-- What a pump takes gets the next number of its coordinator, whatever becomes of it. -/
theorem draws_of_taking? (stationed : pump.station < e.stations.length)
    (step : e.pumpStep? p = some e') {t : Taking} (taken : e.taking? (.pump p) = some t) :
    Draws e pump t e' := by
  obtain ⟨pump', here', working, kind⟩ := pumpStep_of_pumpStep? step
  obtain rfl := Option.some.inj (here.symm.trans here')
  obtain ⟨s, works⟩ : ∃ s, e.stations[pump.station]? = some s :=
    ⟨_, List.getElem?_eq_getElem stationed⟩
  cases kind with
  | retries holds goes => simp [taking?, here, holds] at taken
  | @takes envelope net e₁ job sending idle received made =>
    rw [taking?_pump here working idle, received, Option.map_some] at taken
    obtain rfl := Option.some.inj taken
    have works' : (e.withNet net).stations[pump.station]? = some s := works
    rw [submit_of_station works'] at made
    cases made
    refine ⟨rfl, rfl, rfl, ?_⟩
    dsimp only
    rw [nextNumber, nextNumber, stations_afterHandOver, getElem?_putCoordinator, if_pos rfl, works',
      works]
    exact Nat.lt_succ_self _
  | @loses envelope net idle received nobody =>
    have works' : (e.withNet net).stations[pump.station]? = some s := works
    rw [submit_of_station works'] at nobody
    cases nobody
  | retires idle nothing replaced =>
    rw [taking?_pump here working idle, nothing] at taken
    cases taken

end PumpStep

/-- What a pump's step is to coordinators, to requests and to other pumps, whether it goes on or
ends. -/
structure Hands (e : Exchange) (p : Nat) (pump : Pump) (taken : Option Taking) (entered : Option Job)
    (e' : Exchange) : Prop where
  /-- At most one call enters the coordinator's queue. -/
  conserves : Conserves [] (entered.toList.map (pump.station, ·)) e e'
  /-- Requests stay as they are. -/
  calls : e'.calls = e.calls
  /-- Other pumps stay as they are. -/
  others : ∀ {q : Nat} {a : Pump}, e'.pumps[q]? = some a → a.finished = false → q ≠ p →
    e.pumps[q]? = some a
  /-- If the pump goes on, it keeps what it does not hand over. -/
  goes : ∀ {a : Pump}, e'.pumps[p]? = some a → a.finished = false →
    a.endpoint = pump.endpoint ∧ a.station = pump.station ∧
      pump.held.toList ++ taken.toList.map Taking.job = entered.toList ++ a.held.toList
  /-- What enters is what the pump has held or what it takes. -/
  enters : ∀ job ∈ entered, job ∈ pump.held.toList ++ taken.toList.map Taking.job

theorem PumpMoves.hands {p : Nat} {pump : Pump} {taken : Option Taking}
    (moves : PumpMoves e p pump taken e') (here : e.pumps[p]? = some pump)
    (calls : e'.calls = e.calls) : ∃ entered, Hands e p pump taken entered e' := by
  cases moves with
  | @goes entered held conserves pumps hands closed =>
    refine ⟨entered, conserves, calls, ?_, ?_, ?_⟩
    · intro q a there _ other
      rwa [pumps, List.getElem?_set_ne (Ne.symm other)] at there
    · intro a there _
      rw [pumps, List.getElem?_set_self (List.getElem?_eq_some_iff.1 here).1] at there
      obtain rfl := Option.some.inj there
      exact ⟨rfl, rfl, hands⟩
    · intro job member
      rw [hands]
      exact List.mem_append_left _ (Option.mem_toList.2 member)
  | ends brings pumps reason closed =>
    refine ⟨none, brings.toConserves, calls, ?_, ?_, ?_⟩
    · intro q a there works _
      exact brings.working there works
    · intro a there works
      rw [pumps] at there
      rw [finished_endPump there] at works
      cases works
    · intro job member
      cases member

end Exchange

end PartExchange
