/-
**Runs of an exchange, and their histories.**

Participants join and leave, links are made, requests are made and polled, and pumps and
coordinators take one step after another; a run is any sequence of such actions.  A polled pump or
coordinator takes its steps one by one, so runs interleave at least as freely as polls do, as long as no
poll is cut short in the middle of a publication.  What happens then is the subject of
`PartExchange.Proofs.Interleaving`.

A run has a history: every call that has been put into an inbox, with the endpoints it left from and
went to, and every message that has been added for the first time.  The history is not part of the
exchange; it is read off the states before and after each action.

Main definitions:

* `Action`, `Exchange.act?`: what can happen, and the exchange afterwards;
* `History`, `History.after`: what has been sent and added;
* `Exchange.Run`: the runs all of whose actions are allowed;
* `Exchange.Orderly`: each peer has one endpoint, each endpoint one coordinator with an unlimited
  store, and only coordinators publish;
* `Exchange.play?`: what a list of actions leads to.

Main results:

* `Exchange.Run.play`: playing a list of actions is a run;
* `Exchange.sends_act?`, `Exchange.spreads_act?`: an action that may send calls publishes one message,
  if anything;
* `Exchange.Run.pollPump`, `Exchange.Run.pollStation`: polls are runs.
-/

import PartExchange.Proofs.Steps

set_option relaxedAutoImplicit false
set_option autoImplicit false

namespace PartExchange

/-! ### Actions -/

/-- What can happen in an exchange. -/
inductive Action where
  /-- A participant joins with an endpoint for a peer. -/
  | join (peer : PeerId)
  /-- A participant joins with a recorder for a peer. -/
  | record (peer : PeerId)
  /-- A participant joins on the transport of another. -/
  | share (site : Nat)
  /-- A participant gets a coordinator. -/
  | attach (site : Nat) (config : CoordinatorConfig)
  /-- A participant gets a pump. -/
  | openPump (site : Nat)
  /-- Two peers are linked. -/
  | connect (a b : PeerId)
  /-- A request to a coordinator is made. -/
  | request (station : Nat) (request : Request)
  /-- A request is polled. -/
  | poll (call : Nat)
  /-- A request is given up. -/
  | abandon (call : Nat)
  /-- A participant publishes past its coordinator. -/
  | transmit (site : Nat) (publication : Publication)
  /-- A pump takes a step. -/
  | pump (p : Nat)
  /-- A coordinator takes a step. -/
  | serve (i : Nat)
  /-- A participant asks its coordinator to stop. -/
  | askStop (site : Nat)
  /-- A participant gives up its handle. -/
  | dropHandle (site : Nat)
  /-- A participant leaves. -/
  | leave (site : Nat)

namespace Exchange

/-- A participant that has not left. -/
def presentSite? (e : Exchange) (site : Nat) : Option Site := e.sites[site]?.filter Site.present

/-- The exchange after an action, if the action is possible. -/
def act? (e : Exchange) : Action → Option Exchange
  | .join peer => some (e.joinNetwork peer).1
  | .record peer => some (e.joinRecorder peer).1
  | .share site => (e.presentSite? site).map fun s => (e.joinOutlet s.outlet).1
  | .attach site config => (e.presentSite? site).map fun _ => e.attach site config
  | .openPump site => (e.presentSite? site).bind fun s =>
      if s.station.isSome then (e.openPump site).toOption.map Prod.fst else none
  | .connect a b => (e.carriers.net.connect a b).toOption.map e.withNet
  | .request station request => some (e.call station request).1
  | .poll call => some (e.pollCall call).1
  | .abandon call => some (e.abandon call)
  | .transmit site publication => (e.presentSite? site).map fun s =>
      { e with carriers := (Carriers.publish s.outlet e.carriers publication).1 }
  | .pump p => e.pumpStep? p
  | .serve i => e.stationStep? i
  | .askStop site => some (e.askStop site)
  | .dropHandle site => some (e.dropHandle site)
  | .leave site => (e.presentSite? site).map fun _ => e.leave site

theorem site_of_presentSite? {e : Exchange} {n : Nat} {s : Site}
    (here : e.presentSite? n = some s) : e.sites[n]? = some s :=
  (Option.filter_eq_some_iff.1 here).1

/-- A pump that is opened is opened for a participant with a coordinator. -/
theorem openPump_of_act? {e e' : Exchange} {n : Nat} (acts : e.act? (.openPump n) = some e') :
    ∃ s i number, e.sites[n]? = some s ∧ s.station = some i ∧
      e.openPump n = .ok (e', number) := by
  obtain ⟨s, here, acts⟩ := Option.bind_eq_some_iff.1 acts
  split at acts
  · rename_i serves
    obtain ⟨i, has⟩ := Option.isSome_iff_exists.1 serves
    cases opened : e.openPump n with
    | error cause =>
      rw [opened] at acts
      cases acts
    | ok result =>
      rw [opened] at acts
      obtain rfl := Option.some.inj acts
      exact ⟨s, i, result.2, site_of_presentSite? here, has, rfl⟩
  · cases acts

/-- Peers are linked in the network only. -/
theorem connect_of_act? {e e' : Exchange} {a b : PeerId}
    (acts : e.act? (.connect a b) = some e') :
    ∃ net, e.carriers.net.connect a b = .ok net ∧ e' = e.withNet net := by
  cases made : e.carriers.net.connect a b with
  | error cause =>
    rw [act?, made] at acts
    cases acts
  | ok net =>
    rw [act?, made] at acts
    exact ⟨net, rfl, (Option.some.inj acts).symm⟩

end Exchange

/-! ### Histories -/

/-- A call that has been put into an inbox. -/
structure Posting where
  /-- The endpoint that sent it. -/
  source : Nat
  /-- The endpoint at which it arrived. -/
  target : Nat
  /-- The call. -/
  envelope : Envelope
  deriving DecidableEq

/-- A message that has been added where its group was not held. -/
structure Insertion where
  /-- The peer at which it was added. -/
  peer : PeerId
  /-- The topic under which it was added. -/
  topic : Topic
  /-- The message. -/
  message : Message
  deriving DecidableEq

/-- What has been sent and added so far. -/
structure History where
  /-- The calls that have been put into inboxes. -/
  posted : List Posting := []
  /-- The messages that have been added. -/
  inserted : List Insertion := []

namespace Exchange

/-- The calls that an endpoint has put into inboxes between two states. -/
def postings (e e' : Exchange) (source : Nat) : List Posting :=
  (List.range e'.carriers.net.endpoints.length).flatMap fun target =>
    (e.carriers.net.arrivals e'.carriers.net target).map (⟨source, target, ·⟩)

/-- The endpoint from which an action may send calls. -/
def source? (e : Exchange) : Action → Option Nat
  | .serve i => e.stations[i]?.bind fun station =>
      match station.outlet with
      | .endpoint k => some k
      | .recorder _ => none
  | .transmit site _ => e.sites[site]?.bind fun s =>
      match s.outlet with
      | .endpoint k => some k
      | .recorder _ => none
  | _ => none

/-- The message that an action adds. -/
def insertion? (e : Exchange) : Action → Option Insertion
  | .serve i => e.stations[i]?.bind fun station =>
      match e.upcoming? i with
      | some ⟨_, .add topic m⟩ =>
        if station.coordinator.store.contains topic m.group then none
        else some ⟨e.carriers.peerOf station.outlet, topic, m⟩
      | _ => none
  | _ => none

end Exchange

/-- The history after an action. -/
def History.after (h : History) (e : Exchange) (action : Action) (e' : Exchange) : History where
  posted := h.posted ++ ((e.source? action).map fun k => e.postings e' k).getD []
  inserted := h.inserted ++ (e.insertion? action).toList

/-! ### Runs -/

namespace Exchange

/-- The runs from a state all of whose actions are allowed, with their histories. -/
inductive Run (allowed : Exchange → Action → Prop) (start : Exchange) : History → Exchange → Prop
  | start : Run allowed start {} start
  | step {h : History} {e e' : Exchange} {action : Action} (run : Run allowed start h e)
      (allow : allowed e action) (acts : e.act? action = some e') :
      Run allowed start (h.after e action e') e'

/-- Each peer has one endpoint, each endpoint one coordinator with an unlimited store, and only
coordinators publish. -/
def Orderly (e : Exchange) : Action → Prop
  | .join peer => e.carriers.net.isRegistered peer = false
  | .attach site config =>
    (∀ s, e.sites[site]? = some s → s.station = none) ∧ config.maxGroupsPerTopic = none
  | .record _ | .share _ | .transmit _ _ => False
  | _ => True

instance (e : Exchange) : DecidablePred e.Orderly := fun action =>
  match action with
  | .join peer => inferInstanceAs (Decidable (e.carriers.net.isRegistered peer = false))
  | .attach site config =>
    have bare : Decidable (∀ s, e.sites[site]? = some s → s.station = none) :=
      decidable_of_iff (e.sites[site]?.all (·.station.isNone) = true) (by
        cases e.sites[site]? <;> simp)
    inferInstanceAs (Decidable (_ ∧ config.maxGroupsPerTopic = none))
  | .record _ | .share _ | .transmit _ _ => inferInstanceAs (Decidable False)
  | .openPump _ | .connect _ _ | .request _ _ | .poll _ | .abandon _ | .pump _ | .serve _
  | .askStop _ | .dropHandle _ | .leave _ => inferInstanceAs (Decidable True)

/-- What the listed actions lead to, one after the other, if all of them are allowed and
possible. -/
def play? (allowed : Exchange → Action → Prop) [∀ e action, Decidable (allowed e action)]
    (h : History) (e : Exchange) : List Action → Option (History × Exchange)
  | [] => some (h, e)
  | action :: rest =>
    if allowed e action then
      (e.act? action).bind fun e' => play? allowed (h.after e action e') e' rest
    else none

/-- Playing a list of actions goes on with a run. -/
theorem Run.play {allowed : Exchange → Action → Prop} [∀ e action, Decidable (allowed e action)]
    {start : Exchange} {actions : List Action} {h h' : History} {e e' : Exchange}
    (run : Run allowed start h e) (played : play? allowed h e actions = some (h', e')) :
    Run allowed start h' e' := by
  induction actions generalizing h e with
  | nil =>
    obtain ⟨rfl, rfl⟩ := Prod.mk.injEq .. ▸ Option.some.inj played
    exact run
  | cons action rest ih =>
    rw [play?] at played
    split at played
    · rename_i allow
      obtain ⟨next, acts, played⟩ := Option.bind_eq_some_iff.1 played
      exact ih (run.step allow acts) played
    · cases played

/-- A peer whose bytes are all the same. -/
def uniformPeer (byte : UInt8) : PeerId :=
  ⟨List.replicate peerIdLength byte, List.length_replicate⟩

/-- A message that holds one part, all of whose bytes are the same. -/
def uniformMessage (group : GroupId) (index : Nat) (byte : UInt8) : Message :=
  (Message.new group).fill index ⟨List.replicate partLength byte, List.length_replicate⟩

/-- Two linked peers, the first of which sends a message to the second: the call waits in the
second one's inbox. -/
def greeting : List Action :=
  [.join (uniformPeer 1), .join (uniformPeer 2), .attach 0 {}, .attach 1 {}, .openPump 0,
    .openPump 1, .connect (uniformPeer 1) (uniformPeer 2),
    .request 0 (.add default (uniformMessage default 3 5)), .serve 0,
    .request 0 (.publish default default []), .serve 0]

theorem mem_postings {e e' : Exchange} {source : Nat} {posting : Posting} :
    posting ∈ e.postings e' source ↔ posting.source = source ∧
      posting.envelope ∈ e.carriers.net.arrivals e'.carriers.net posting.target := by
  rw [postings, List.mem_flatMap]
  constructor
  · rintro ⟨target, -, member⟩
    obtain ⟨envelope, arrived, rfl⟩ := List.mem_map.1 member
    exact ⟨rfl, arrived⟩
  · rintro ⟨rfl, arrived⟩
    refine ⟨posting.target, ?_, List.mem_map.2 ⟨posting.envelope, arrived, rfl⟩⟩
    rw [List.mem_range]
    rcases Nat.lt_or_ge posting.target e'.carriers.net.endpoints.length with inside | outside
    · exact inside
    · rw [Network.arrivals_of_absent outside] at arrived
      cases arrived

/-- What has been sent after an action. -/
theorem mem_posted_after {h : History} {e e' : Exchange} {action : Action} {posting : Posting} :
    posting ∈ (h.after e action e').posted ↔ posting ∈ h.posted ∨
      (e.source? action = some posting.source ∧
        posting.envelope ∈ e.carriers.net.arrivals e'.carriers.net posting.target) := by
  rw [History.after, List.mem_append]
  cases e.source? action with
  | none => simp
  | some k =>
    rw [Option.map_some, Option.getD_some, mem_postings, Option.some.injEq, eq_comm]

theorem posted_subset_after (h : History) (e : Exchange) (action : Action) (e' : Exchange) :
    h.posted ⊆ (h.after e action e').posted := fun _ member => mem_posted_after.2 (Or.inl member)

/-- What has been added after an action. -/
theorem mem_inserted_after {h : History} {e e' : Exchange} {action : Action}
    {insertion : Insertion} :
    insertion ∈ (h.after e action e').inserted ↔
      insertion ∈ h.inserted ∨ e.insertion? action = some insertion := by
  rw [History.after, List.mem_append, Option.mem_toList]

/-- An action that may send calls sends calls about one message to some peers, one after the
other. -/
theorem sends_act? {e e' : Exchange} {action : Action} {k : Nat}
    (acts : e.act? action = some e') (source : e.source? action = some k) :
    ∃ topic m, ∃ targets : List PeerId, e'.carriers.net =
      targets.foldl (fun net => net.sendTo k topic m) e.carriers.net := by
  cases action with
  | serve i =>
    obtain ⟨s, here, outlet⟩ := Option.bind_eq_some_iff.1 source
    split at outlet
    · rename_i k' out
      obtain rfl := Option.some.inj outlet
      rw [carriers_stationStep? here acts, out, Network.net_carry]
      cases (e.upcoming? i).bind fun job => (s.coordinator.store.react job.request).publication with
      | none => exact ⟨default, .new default, [], rfl⟩
      | some publication => exact ⟨_, _, _, rfl⟩
    · cases outlet
  | transmit n publication =>
    obtain ⟨s, here, outlet⟩ := Option.bind_eq_some_iff.1 source
    obtain ⟨t, there, rfl⟩ := Option.map_eq_some_iff.1 acts
    obtain rfl : s = t := Option.some.inj (here.symm.trans (site_of_presentSite? there))
    split at outlet
    · rename_i k' out
      obtain rfl := Option.some.inj outlet
      rw [out, Network.net_publish]
      exact ⟨_, _, _, rfl⟩
    · cases outlet
  | _ => cases source

/-- An action that may send calls publishes one message, if anything. -/
theorem spreads_act? {e e' : Exchange} {action : Action} {k : Nat}
    (acts : e.act? action = some e') (source : e.source? action = some k) :
    ∃ topic m targets, Network.Spreads k topic m targets e.carriers.net e'.carriers.net := by
  obtain ⟨topic, m, targets, sends⟩ := sends_act? acts source
  rw [sends]
  exact ⟨topic, m, targets, Network.spreads_foldl _ (List.Subset.refl _)⟩

/-! ### Requests -/

@[simp] theorem calls_endStation (e : Exchange) (station : Option Nat) :
    (e.endStation station).calls = e.calls := by
  cases station <;> rfl

@[simp] theorem calls_endPump (e : Exchange) (p : Nat) : (e.endPump p).calls = e.calls := by
  unfold endPump
  split
  · rfl
  · split <;> rfl

@[simp] theorem calls_endReader (e : Exchange) (pump : Option Nat) :
    (e.endReader pump).calls = e.calls := by
  cases pump with
  | none => rfl
  | some p => exact calls_endPump e p

@[simp] theorem calls_releaseOutlet (e : Exchange) (outlet : Outlet) :
    (e.releaseOutlet outlet).calls = e.calls := by
  unfold releaseOutlet
  split
  · rfl
  · split <;> rfl

@[simp] theorem calls_attach (e : Exchange) (site : Nat) (config : CoordinatorConfig) :
    (e.attach site config).calls = e.calls := by
  unfold attach
  split
  · rfl
  · exact calls_endStation e _

@[simp] theorem calls_leave (e : Exchange) (site : Nat) : (e.leave site).calls = e.calls := by
  unfold leave
  split
  · rfl
  · rename_i s here
    rw [calls_releaseOutlet]
    change ((e.endStation s.station).endReader s.pump).calls = _
    rw [calls_endReader, calls_endStation]

theorem calls_openPump {e e' : Exchange} {n number : Nat} {s : Site} (at_n : e.sites[n]? = some s)
    (opened : e.openPump n = .ok (e', number)) : e'.calls = e.calls := by
  cases opens_openPump at_n opened <;> rfl

@[simp] theorem calls_resume (e : Exchange) (i : Nat) (job : Job) :
    (e.resume i job).1.calls = e.calls := by
  unfold resume
  split <;> rfl

theorem calls_submit {e e' : Exchange} {i : Nat} {request : Request} {job : Job} {sending : Sending}
    (made : e.submit i request = some (e', job, sending)) :
    e'.calls = e.calls ∧ job.request = request := by
  unfold submit at made
  split at made
  · cases made
  · cases made
    exact ⟨rfl, rfl⟩

@[simp] theorem calls_afterHandOver (e : Exchange) (p : Nat) (pump : Pump) (job : Job)
    (sending : Sending) : (e.afterHandOver p pump job sending).calls = e.calls := by
  cases sending with
  | sent => rfl
  | waiting => rfl
  | refused => exact calls_endPump e p

theorem calls_pumpStep? {e e' : Exchange} {p : Nat} (step : e.pumpStep? p = some e') :
    e'.calls = e.calls := by
  obtain ⟨pump, -, -, kind⟩ := pumpStep_of_pumpStep? step
  cases kind with
  | retries => rw [calls_afterHandOver, calls_resume]
  | takes idle taken made =>
    rw [calls_afterHandOver, (calls_submit made).1]
    rfl
  | loses => exact calls_endPump _ _
  | retires => exact calls_endPump _ _

theorem calls_stationStep? {e e' : Exchange} {i : Nat} (step : e.stationStep? i = some e') :
    e'.calls = e.calls := by
  obtain ⟨s, -, -, ⟨-, rfl⟩ | ⟨job, lane, c', -, -, rfl⟩⟩ := stationStep?_eq_some step <;> rfl

/-- A request that has been marked anew is the same request. -/
theorem mem_of_mem_set_stage {calls : List Call} {number : Nat} {old call : Call} {stage : CallStage}
    (made : calls[number]? = some old) (member : call ∈ calls.set number { old with stage }) :
    ∃ before ∈ calls, call.job = before.job := by
  rcases List.mem_or_eq_of_mem_set member with before | rfl
  · exact ⟨call, before, rfl⟩
  · exact ⟨old, List.mem_of_getElem? made, rfl⟩

@[simp] theorem calls_advance (e : Exchange) (c : Call) : (e.advance c).1.calls = e.calls := by
  unfold advance
  split
  · rfl
  · rfl
  · exact calls_resume e _ _
  · split
    · rfl
    · split <;> rfl

theorem mem_calls_call {e : Exchange} {i : Nat} {request : Request} {call : Call}
    (member : call ∈ (e.call i request).1.calls) :
    call ∈ e.calls ∨ call.job.request = request := by
  unfold Exchange.call at member
  dsimp only at member
  split at member
  · rcases List.mem_append.1 member with before | new
    · exact Or.inl before
    · obtain rfl := List.mem_singleton.1 new
      exact Or.inr rfl
  · rename_i made
    obtain ⟨calls, asks⟩ := calls_submit made
    rcases List.mem_append.1 member with before | new
    · exact Or.inl (calls ▸ before)
    · obtain rfl := List.mem_singleton.1 new
      exact Or.inr asks

theorem mem_calls_pollCall {e : Exchange} {number : Nat} {call : Call}
    (member : call ∈ (e.pollCall number).1.calls) : ∃ old ∈ e.calls, call.job = old.job := by
  unfold Exchange.pollCall at member
  split at member
  · exact ⟨call, member, rfl⟩
  · rename_i old made
    dsimp only at member
    rw [calls_advance] at member
    exact mem_of_mem_set_stage made member

theorem mem_calls_abandon {e : Exchange} {number : Nat} {call : Call}
    (member : call ∈ (e.abandon number).calls) : ∃ old ∈ e.calls, call.job = old.job := by
  unfold Exchange.abandon at member
  split at member
  · exact ⟨call, member, rfl⟩
  · rename_i old made
    dsimp only at member
    split at member
    · split at member <;> exact mem_of_mem_set_stage made member
    · refine ⟨call, ?_, rfl⟩
      split at member <;> exact member

/-- A request after an action is one from before, or has just been made. -/
theorem calls_act? {e e' : Exchange} {action : Action} (acts : e.act? action = some e')
    {call : Call} (member : call ∈ e'.calls) :
    (∃ old ∈ e.calls, call.job = old.job) ∨ ∃ i, action = .request i call.job.request := by
  have same (calls : e'.calls = e.calls) : (∃ old ∈ e.calls, call.job = old.job) ∨
      ∃ i, action = .request i call.job.request :=
    Or.inl ⟨call, calls ▸ member, rfl⟩
  cases action with
  | join _ | record _ | dropHandle _ =>
    obtain rfl := Option.some.inj acts
    exact same rfl
  | share _ | transmit _ _ =>
    obtain ⟨_, -, rfl⟩ := Option.map_eq_some_iff.1 acts
    exact same rfl
  | attach site config =>
    obtain ⟨_, -, rfl⟩ := Option.map_eq_some_iff.1 acts
    exact same (calls_attach e site config)
  | leave site =>
    obtain ⟨_, -, rfl⟩ := Option.map_eq_some_iff.1 acts
    exact same (calls_leave e site)
  | openPump site =>
    obtain ⟨s, i, number, at_n, -, opened⟩ := openPump_of_act? acts
    exact same (calls_openPump at_n opened)
  | connect a b =>
    obtain ⟨net, -, rfl⟩ := connect_of_act? acts
    exact same rfl
  | pump p => exact same (calls_pumpStep? acts)
  | serve i => exact same (calls_stationStep? acts)
  | askStop site =>
    obtain rfl := Option.some.inj acts
    refine same ?_
    unfold askStop
    split <;> rfl
  | request i request =>
    obtain rfl := Option.some.inj acts
    rcases mem_calls_call member with before | asks
    · exact Or.inl ⟨call, before, rfl⟩
    · exact Or.inr ⟨i, by rw [asks]⟩
  | poll number =>
    obtain rfl := Option.some.inj acts
    exact Or.inl (mem_calls_pollCall member)
  | abandon number =>
    obtain rfl := Option.some.inj acts
    exact Or.inl (mem_calls_abandon member)

/-! ### Polls are runs -/

section Polls

variable {allowed : Exchange → Action → Prop} {start : Exchange}

/-- A poll of a pump is a run of its steps. -/
theorem Run.pollPump {h : History} {e : Exchange} (run : Run allowed start h e) (p : Nat)
    (allow : ∀ e, allowed e (.pump p)) : ∃ h', Run allowed start h' (e.pollPump p) := by
  have steps : ∀ fuel h e, Run allowed start h e →
      ∃ h', Run allowed start h' (pumpSteps p fuel e) := by
    intro fuel
    induction fuel with
    | zero =>
      intro h e run
      exact ⟨h, run⟩
    | succ fuel ih =>
      intro h e run
      rw [pumpSteps]
      split
      · exact ⟨h, run⟩
      · rename_i e' step
        exact ih _ _ (run.step (allow e) step)
  exact steps _ _ _ run

/-- A step of a coordinator does not change who can reach it. -/
theorem reachable_stationStep? {e e' : Exchange} {i : Nat} (step : e.stationStep? i = some e')
    (other : Nat) : e'.reachable other = e.reachable other := by
  obtain ⟨s, -, -, ⟨-, rfl⟩ | ⟨job, lane, c', -, -, rfl⟩⟩ := stationStep?_eq_some step <;> rfl

/-- A poll of a coordinator is a run of its steps. -/
theorem Run.pollStation {h : History} {e : Exchange} (run : Run allowed start h e) (i : Nat)
    (allow : ∀ e, allowed e (.serve i)) : ∃ h', Run allowed start h' (e.pollStation i) := by
  -- A poll steps the coordinator on its own and puts it back at the end.  Putting it back after each
  -- step comes to the same, since a step does not depend on what the exchange remembers of it.
  have steps : ∀ fuel h e station, Run allowed start h e → e.stations[i]? = some station →
      ∃ h', Run allowed start h'
        { e with
          carriers := (Coordinator.steps (Carriers.publish station.outlet) (!e.reachable i) fuel
            station.coordinator e.carriers).2
          stations := e.stations.set i { station with
            coordinator := (Coordinator.steps (Carriers.publish station.outlet) (!e.reachable i)
              fuel station.coordinator e.carriers).1 } } := by
    intro fuel
    induction fuel with
    | zero =>
      intro h e station run here
      have same : e.stations.set i station = e.stations := by
        apply List.ext_getElem?
        intro j
        rw [List.getElem?_set]
        split
        · rename_i at_i
          subst at_i
          rw [here, if_pos (List.getElem?_eq_some_iff.1 here).1]
        · rfl
      exact ⟨h, by simpa only [Coordinator.steps, same] using run⟩
    | succ fuel ih =>
      intro h e station run here
      rw [Coordinator.steps]
      split
      · rename_i idle
        have rest := ih h e station run here
        cases fuel with
        | zero => simpa only [Coordinator.steps] using rest
        | succ fuel => simpa only [Coordinator.steps, idle] using rest
      · rename_i c carriers step
        let e' : Exchange :=
          { e with carriers, stations := e.stations.set i { station with coordinator := c } }
        have acts : e.stationStep? i = some e' := by
          rw [stationStep?, here]
          dsimp only
          rw [step]
          rfl
        have there : e'.stations[i]? = some { station with coordinator := c } := by
          rw [List.getElem?_set_self (List.getElem?_eq_some_iff.1 here).1]
        obtain ⟨h', after⟩ := ih _ e' _ (run.step (allow e) acts) there
        refine ⟨h', ?_⟩
        have list : e'.stations = e.stations.set i { station with coordinator := c } := rfl
        rw [reachable_stationStep? acts, list] at after
        simpa only [List.set_set] using after
  unfold Exchange.pollStation
  split
  · exact ⟨h, run⟩
  · rename_i station here
    exact steps (station.coordinator.backlog + 1) h e station run here

end Polls

end Exchange

end PartExchange
