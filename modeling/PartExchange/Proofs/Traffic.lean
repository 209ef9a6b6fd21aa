/-
**The traffic of a run.**

A call passes three points on its way: it is queued in an inbox, a pump takes it out and makes it a
job of a coordinator, and the coordinator handles the job.  The log of a run lists all passages in the
order in which they happen.  It is read off the states around each action, like a history, and it
tells what a history does not: what came first.

To a network an action does one of three things.  It publishes a message, it takes a call out of an
inbox, or it leaves all views and all inboxes as they are, save that an inbox may be closed.

Main definitions:

* `Network.Housed`, `Network.Begun`: who is registered, and whose inbox is read;
* `Network.Rests`: a change of a network in which nothing is sent or taken;
* `Taking`, `Passage`: a call that a pump has taken, and what the log of a run lists;
* `Exchange.taking?`, `Exchange.passages`: what an action adds to the log;
* `Exchange.Traffic`: what an action does to a network;
* `Exchange.Recorded`: the runs with their logs;
* `posted`, `takings`, `handlings`: the three kinds of passages in a log.

Main results:

* `Exchange.traffic_act?`: an action does one of the three;
* `Exchange.peerAt?_act?`, `Exchange.begun_act?`, `Exchange.closed_act?`: what lasts, whatever happens;
* `Exchange.Recorded.run`: a run with a log is a run with a history.
-/

import PartExchange.Proofs.Answers

set_option relaxedAutoImplicit false
set_option autoImplicit false

namespace PartExchange

/-! ### Networks in which nothing moves -/

namespace Network

/-- Whoever has an endpoint is registered. -/
def Housed (net : Network) : Prop :=
  ∀ {k : Nat} {peer : PeerId}, net.peerAt? k = some peer → net.isRegistered peer = true

/-- Somebody has begun to read the inbox of an endpoint. -/
def Begun (net : Network) (k : Nat) : Prop :=
  net.readingAt? k = some .pumped ∨ net.readingAt? k = some .closed

theorem Framed.housed {net net' : Network} (framed : net.Framed net') (housed : net.Housed) :
    net'.Housed := by
  intro k peer there
  rw [framed.peerAt?] at there
  rw [isRegistered, framed.endpointOf?]
  exact housed there

theorem Framed.begun {net net' : Network} (framed : net.Framed net') {k : Nat} :
    net'.Begun k ↔ net.Begun k := by
  rw [Begun, framed.readingAt?, Begun]

/-- A change of a network in which nothing is sent and nothing is taken out of an inbox. -/
structure Rests (net net' : Network) : Prop where
  /-- Every endpoint belongs to its peer for good. -/
  peerAt? : ∀ {i peer}, net.peerAt? i = some peer → net'.peerAt? i = some peer
  /-- An inbox keeps its calls, unless they are lost. -/
  inbox : ∀ i, net'.inbox i = net.inbox i ∨ (net'.readingAt? i = some .closed ∧ net'.inbox i = [])
  /-- What is closed stays closed. -/
  closed : ∀ {i}, net.readingAt? i = some .closed → net'.readingAt? i = some .closed
  /-- A pump that reads an inbox reads it until the inbox is closed. -/
  pumped : ∀ {i}, net.readingAt? i = some .pumped →
    net'.readingAt? i = some .pumped ∨ net'.readingAt? i = some .closed
  /-- Nothing is learnt. -/
  view : ∀ i key, net'.view i key = net.view i key
  /-- Calls to a peer arrive at an endpoint of that peer. -/
  registered : net.Registered → net'.Registered
  /-- Whoever has an endpoint is registered. -/
  housed : net.Housed → net'.Housed

namespace Rests

variable {net net' net'' : Network}

theorem trans (first : net.Rests net') (second : net'.Rests net'') : net.Rests net'' where
  peerAt? here := second.peerAt? (first.peerAt? here)
  inbox i := by
    rcases second.inbox i with same | lost
    · rcases first.inbox i with same' | ⟨closed, none⟩
      · exact Or.inl (same.trans same')
      · exact Or.inr ⟨second.closed closed, same.trans none⟩
    · exact Or.inr lost
  closed here := second.closed (first.closed here)
  pumped here := by
    rcases first.pumped here with still | closed
    · exact second.pumped still
    · exact Or.inr (second.closed closed)
  view i key := (second.view i key).trans (first.view i key)
  registered h := second.registered (first.registered h)
  housed h := second.housed (first.housed h)

theorem begun (rests : net.Rests net') {k : Nat} (begun : net.Begun k) : net'.Begun k :=
  begun.elim rests.pumped fun closed => Or.inr (rests.closed closed)

theorem refl (net : Network) : net.Rests net where
  peerAt? := id
  inbox _ := Or.inl rfl
  closed := id
  pumped := Or.inl
  view _ _ := rfl
  registered := id
  housed := id

/-- A change of who reads an inbox. -/
theorem modify (net : Network) (k : Nat) {change : Endpoint → Endpoint}
    (peer : ∀ self, (change self).peer = self.peer)
    (view : ∀ self key, (change self).view key = self.view key)
    (inbox : ∀ self, (change self).inbox = self.inbox ∨
      ((change self).reading = .closed ∧ (change self).inbox = []))
    (reading : ∀ self, net.endpoints[k]? = some self →
      (change self).reading = .closed ∨ (self.reading = .unread ∧ (change self).reading = .pumped)) :
    net.Rests (net.modify k change) := by
  cases present : net.endpoints[k]? with
  | none =>
    have same : net.modify k change = net := by
      rw [Network.modify, List.modify_eq_self (List.getElem?_eq_none_iff.1 present)]
    rw [same]
    exact refl net
  | some self =>
    have reads : ∀ i, (net.modify k change).readingAt? i =
        if i = k then some (change self).reading else net.readingAt? i := readingAt?_modify present
    have begins := reading self present
    refine ⟨?_, ?_, ?_, ?_, ?_, fun registered => registered.modify k peer, ?_⟩
    · intro i other there
      rwa [peerAt?_modify peer]
    · intro i
      rw [inbox_modify present, reads]
      split
      · rename_i here
        rw [here, inbox_of_present present]
        rcases inbox self with same | ⟨closed, none⟩
        · exact Or.inl same
        · exact Or.inr ⟨congrArg some closed, none⟩
      · exact Or.inl rfl
    · intro i closed
      rw [reads]
      split
      · rename_i here
        rw [here, readingAt?_of_present present] at closed
        rcases begins with still | ⟨unread, -⟩
        · rw [still]
        · rw [unread] at closed
          cases closed
      · exact closed
    · intro i pumped
      rw [reads]
      split
      · rcases begins with closed | ⟨-, pumps⟩
        · exact Or.inr (congrArg some closed)
        · exact Or.inl (congrArg some pumps)
      · exact Or.inl pumped
    · intro i key
      rw [view_modify present]
      split
      · rename_i here
        rw [here, view_of_present present]
        exact view self key
      · rfl
    · intro housed i other there
      rw [peerAt?_modify peer] at there
      exact housed there

theorem close (net : Network) (k : Nat) : net.Rests (net.modify k Endpoint.close) :=
  modify net k (fun _ => rfl) (fun _ _ => rfl) (fun _ => Or.inr ⟨rfl, rfl⟩) fun _ _ => Or.inl rfl

theorem register (net : Network) (peer : PeerId) : net.Rests (net.register peer).1 where
  peerAt? {i other} there := by
    rw [peerAt?_register, if_neg]
    · exact there
    · rintro rfl
      rw [peerAt?_length] at there
      cases there
  inbox i := Or.inl (inbox_register net peer i)
  closed {i} closed := by
    rw [readingAt?_register, if_neg]
    · exact closed
    · rintro rfl
      rw [readingAt?, List.getElem?_eq_none (Nat.le_refl _)] at closed
      cases closed
  pumped {i} pumped := by
    rw [readingAt?_register, if_neg]
    · exact Or.inl pumped
    · rintro rfl
      rw [readingAt?, List.getElem?_eq_none (Nat.le_refl _)] at pumped
      cases pumped
  view := view_register net peer
  registered h := h.register peer
  housed h {k other} there := by
    rw [isRegistered, endpointOf?_register]
    split
    · rfl
    · rename_i differ
      rw [peerAt?_register] at there
      split at there
      · exact absurd (Option.some.inj there).symm differ
      · exact h there

theorem connect {a b : PeerId} (made : net.connect a b = .ok net') : net.Rests net' := by
  have connected := connected made
  refine ⟨?_, fun i => Or.inl (connected.inbox i), ?_, ?_, connected.view, fun h => h.connect made,
    ?_⟩
  · intro i other there
    rwa [connected.peerAt?]
  · intro i closed
    rwa [connected.readingAt?]
  · intro i pumped
    exact Or.inl (by rwa [connected.readingAt?])
  · intro housed i other there
    rw [connected.peerAt?] at there
    rw [isRegistered, connected.endpointOf?]
    exact housed there

end Rests

end Network

namespace Exchange

variable {e e' : Exchange}

@[simp] theorem carriers_endStation (e : Exchange) (station : Option Nat) :
    (e.endStation station).carriers = e.carriers := by
  cases station <;> rfl

theorem rests_endPump (e : Exchange) (p : Nat) :
    e.carriers.net.Rests (e.endPump p).carriers.net := by
  unfold endPump
  split
  · exact .refl _
  · split
    · exact .refl _
    · exact .close _ _

theorem rests_leave (e : Exchange) (site : Nat) :
    e.carriers.net.Rests (e.leave site).carriers.net := by
  have ends : ∀ (e : Exchange) (pump : Option Nat),
      e.carriers.net.Rests (e.endReader pump).carriers.net := by
    intro e pump
    cases pump with
    | none => exact .refl _
    | some p => exact rests_endPump e p
  have releases : ∀ (e : Exchange) (outlet : Outlet),
      e.carriers.net.Rests (e.releaseOutlet outlet).carriers.net := by
    intro e outlet
    unfold releaseOutlet
    split
    · exact .refl _
    · split
      · exact .refl _
      · exact .close _ _
  unfold leave
  split
  · exact .refl _
  · rename_i s here
    have first := ends (e.endStation s.station) s.pump
    rw [carriers_endStation] at first
    refine first.trans ?_
    exact releases (((e.endStation s.station).endReader s.pump).modifySite site _) s.outlet

theorem rests_openPump {n number : Nat} {s : Site} (at_n : e.sites[n]? = some s)
    (opened : e.openPump n = .ok (e', number)) : e.carriers.net.Rests e'.carriers.net := by
  cases opens_openPump at_n opened with
  | recorder => exact .refl _
  | @endpoint k self outlet present unread =>
    refine .modify _ k (fun _ => rfl) (fun _ _ => rfl) (fun _ => Or.inl rfl) ?_
    intro other there
    rw [present] at there
    obtain rfl := Option.some.inj there
    exact Or.inr ⟨unread, rfl⟩

theorem rests_afterHandOver (e : Exchange) (p : Nat) (pump : Pump) (job : Job)
    (sending : Sending) :
    e.carriers.net.Rests (e.afterHandOver p pump job sending).carriers.net := by
  cases sending with
  | sent | waiting => exact .refl _
  | refused => exact rests_endPump e p

end Exchange

/-! ### Passages -/

/-- A call that a pump has taken out of an inbox. -/
structure Taking where
  /-- The endpoint with the inbox. -/
  endpoint : Nat
  /-- The coordinator that gets the call. -/
  station : Nat
  /-- The number of the job that the call becomes. -/
  number : Nat
  /-- The call. -/
  envelope : Envelope
  deriving DecidableEq

/-- The job that the call becomes. -/
def Taking.job (taking : Taking) : Job := ⟨taking.number, .rpc taking.envelope.delivery⟩

/-- What the log of a run lists: a call is put into an inbox, a pump takes it out, and a coordinator
handles the job. -/
inductive Passage where
  | queued (posting : Posting)
  | taken (taking : Taking)
  | handled (station : Nat) (job : Job)
  deriving DecidableEq

namespace Exchange

/-- The number of the next request to a coordinator. -/
def nextNumber (e : Exchange) (i : Nat) : Nat :=
  (e.stations[i]?.map fun s => s.coordinator.nextId).getD 0

/-- The call that an action takes out of an inbox. -/
def taking? (e : Exchange) : Action → Option Taking
  | .pump p => e.pumps[p]?.bind fun pump =>
      if pump.finished || pump.held.isSome then none
      else (e.carriers.net.receive? pump.endpoint).map fun (envelope, _) =>
        ⟨pump.endpoint, pump.station, e.nextNumber pump.station, envelope⟩
  | _ => none

/-- What an action adds to the log. -/
def passages (e : Exchange) (action : Action) (e' : Exchange) : List Passage :=
  (e.taking? action).toList.map .taken ++
    (e.handled? action).toList.map (fun (i, job) => .handled i job) ++
    (((e.source? action).map (e.postings e')).getD []).map .queued

/-- The runs from a state all of whose actions are allowed, with their logs. -/
inductive Recorded (allowed : Exchange → Action → Prop) (start : Exchange) :
    List Passage → Exchange → Prop
  | start : Recorded allowed start [] start
  | step {log : List Passage} {e e' : Exchange} {action : Action}
      (run : Recorded allowed start log e) (allow : allowed e action)
      (acts : e.act? action = some e') :
      Recorded allowed start (log ++ e.passages action e') e'

/-- A run with a log is a run with a history. -/
theorem Recorded.run {allowed : Exchange → Action → Prop} {start e : Exchange}
    {log : List Passage} (recorded : Recorded allowed start log e) :
    ∃ h, Run allowed start h e := by
  induction recorded with
  | start => exact ⟨_, .start⟩
  | step _ allow acts ih =>
    obtain ⟨h, run⟩ := ih
    exact ⟨_, run.step allow acts⟩

/-- What a list of actions adds to the log, and what it leads to. -/
def record? (log : List Passage) (e : Exchange) : List Action → Option (List Passage × Exchange)
  | [] => some (log, e)
  | action :: rest => (e.act? action).bind fun e' => record? (log ++ e.passages action e') e' rest

/-- Recording a list of actions goes on with a run. -/
theorem Recorded.record {start : Exchange} {actions : List Action} {log log' : List Passage}
    {e e' : Exchange} (run : Recorded (fun _ _ => True) start log e)
    (played : record? log e actions = some (log', e')) :
    Recorded (fun _ _ => True) start log' e' := by
  induction actions generalizing log e with
  | nil =>
    obtain ⟨rfl, rfl⟩ := Prod.mk.injEq .. ▸ Option.some.inj played
    exact run
  | cons action rest ih =>
    obtain ⟨next, acts, played⟩ := Option.bind_eq_some_iff.1 played
    exact ih (run.step trivial acts) played

end Exchange

/-! ### The three kinds of passages -/

/-- A list put together from parts of which only one is not empty. -/
theorem flatMap_range_of_alone {α : Type} {part : Nat → List α} {n j : Nat}
    (alone : ∀ i ≠ j, part i = []) (outside : n ≤ j → part j = []) :
    (List.range n).flatMap part = part j := by
  induction n with
  | zero => exact (outside (Nat.zero_le _)).symm
  | succ n ih =>
    rw [List.range_succ, List.flatMap_append, List.flatMap_singleton]
    by_cases here : n = j
    · subst here
      have before : (List.range n).flatMap part = [] := by
        rw [List.flatMap_eq_nil_iff]
        intro i member
        exact alone i (Nat.ne_of_lt (List.mem_range.1 member))
      rw [before, List.nil_append]
    · rw [alone n here, List.append_nil]
      exact ih fun later => outside (by omega)

/-- The calls of a log that have been queued. -/
def posted (log : List Passage) : List Posting :=
  log.filterMap fun
    | .queued posting => some posting
    | _ => none

/-- The calls of a log that pumps have taken. -/
def takings (log : List Passage) : List Taking :=
  log.filterMap fun
    | .taken taking => some taking
    | _ => none

/-- The jobs of a log that have been handled, with their coordinators. -/
def handlings (log : List Passage) : List (Nat × Job) :=
  log.filterMap fun
    | .handled i job => some (i, job)
    | _ => none

@[simp] theorem posted_append (log later : List Passage) :
    posted (log ++ later) = posted log ++ posted later := List.filterMap_append

@[simp] theorem takings_append (log later : List Passage) :
    takings (log ++ later) = takings log ++ takings later := List.filterMap_append

@[simp] theorem handlings_append (log later : List Passage) :
    handlings (log ++ later) = handlings log ++ handlings later := List.filterMap_append

namespace Exchange

@[simp] theorem posted_passages (e : Exchange) (action : Action) (e' : Exchange) :
    posted (e.passages action e') = ((e.source? action).map (e.postings e')).getD [] := by
  simp [posted, passages, List.filterMap_append, List.filterMap_map]

@[simp] theorem takings_passages (e : Exchange) (action : Action) (e' : Exchange) :
    takings (e.passages action e') = (e.taking? action).toList := by
  simp [takings, passages, List.filterMap_append, List.filterMap_map]

@[simp] theorem handlings_passages (e : Exchange) (action : Action) (e' : Exchange) :
    handlings (e.passages action e') = (e.handled? action).toList := by
  simp [handlings, passages, List.filterMap_append, List.filterMap_map]

/-- What is picked from the calls that have been put into inboxes, if it is picked from those to one
endpoint only. -/
theorem filterMap_postings (e e' : Exchange) (source j : Nat) {β : Type} {pick : Posting → Option β}
    (only : ∀ posting ∈ e.postings e' source, posting.target ≠ j → pick posting = none) :
    (e.postings e' source).filterMap pick =
      (e.carriers.net.arrivals e'.carriers.net j).filterMap fun envelope =>
        pick ⟨source, j, envelope⟩ := by
  have elsewhere : ∀ i ≠ j, ((e.carriers.net.arrivals e'.carriers.net i).map
      (⟨source, i, ·⟩)).filterMap pick = [] := by
    intro i other
    rw [List.filterMap_eq_nil_iff]
    intro posting member
    obtain ⟨envelope, arrived, rfl⟩ := List.mem_map.1 member
    exact only _ (mem_postings.2 ⟨rfl, arrived⟩) other
  rw [postings, List.filterMap_flatMap, flatMap_range_of_alone elsewhere, List.filterMap_map]
  · rfl
  · intro outside
    rw [Network.arrivals_of_absent outside]
    rfl

/-! ### What an action does to a network -/

variable {e e' : Exchange}

/-- What an action does to a network. -/
inductive Traffic (e : Exchange) (action : Action) (e' : Exchange) : Prop
  | publishes {k : Nat} {topic : Topic} {m : Message} {targets : List PeerId}
      (source : e.source? action = some k) (nothing : e.taking? action = none)
      (sends : e'.carriers.net =
        targets.foldl (fun net => net.sendTo k topic m) e.carriers.net)
  | takes {taking : Taking} {net : Network} (silent : e.source? action = none)
      (taken : e.taking? action = some taking)
      (received : e.carriers.net.receive? taking.endpoint = some (taking.envelope, net))
      (rests : net.Rests e'.carriers.net)
  | rests (silent : e.source? action = none) (nothing : e.taking? action = none)
      (rests : e.carriers.net.Rests e'.carriers.net)

/-- A pump takes a call out of its inbox, or moves nothing. -/
theorem traffic_pumpStep? {p : Nat} (step : e.pumpStep? p = some e') :
    Traffic e (.pump p) e' := by
  obtain ⟨pump, here, working, kind⟩ := pumpStep_of_pumpStep? step
  have takes : ∀ {envelope : Envelope} {net : Network}, pump.held = none →
      e.carriers.net.receive? pump.endpoint = some (envelope, net) →
      e.taking? (.pump p) =
        some ⟨pump.endpoint, pump.station, e.nextNumber pump.station, envelope⟩ := by
    intro envelope net idle taken
    simp [taking?, here, working, idle, taken]
  cases kind with
  | @retries job holds goes =>
    have rest := rests_afterHandOver (e.resume pump.station job).1 p pump job
      (e.resume pump.station job).2
    rw [(tacit_resume e pump.station job).carriers] at rest
    exact .rests rfl (by simp [taking?, here, holds]) rest
  | @takes envelope net e₁ job sending idle taken made =>
    have same : e₁.carriers.net = net := by
      cases there : (e.withNet net).stations[pump.station]? with
      | none =>
        rw [submit, there] at made
        cases made
      | some s =>
        rw [submit_of_station there] at made
        cases made
        rfl
    have rest := rests_afterHandOver e₁ p pump job sending
    rw [same] at rest
    exact .takes rfl (takes idle taken) taken rest
  | @loses envelope net idle taken nobody =>
    exact .takes rfl (takes idle taken) taken (rests_endPump (e.withNet net) p)
  | retires idle nothing replaced =>
    exact .rests rfl (by simp [taking?, here, idle, nothing]) (rests_endPump e p)

theorem Tacit.rests (tacit : e.Tacit e') : e.carriers.net.Rests e'.carriers.net := by
  rw [tacit.carriers]
  exact .refl _

/-- An action publishes a message, takes a call out of an inbox, or moves nothing. -/
theorem traffic_act? {action : Action} (acts : e.act? action = some e') :
    Traffic e action e' := by
  cases source : e.source? action with
  | some k =>
    obtain ⟨topic, m, targets, sends⟩ := sends_act? acts source
    refine .publishes source ?_ sends
    cases action with
    | pump p => cases source
    | _ => rfl
  | none =>
    cases action with
    | join peer =>
      obtain rfl := Option.some.inj acts
      exact .rests rfl rfl (.register _ peer)
    | record _ | dropHandle _ =>
      obtain rfl := Option.some.inj acts
      exact .rests rfl rfl (.refl _)
    | share _ =>
      obtain ⟨_, -, rfl⟩ := Option.map_eq_some_iff.1 acts
      exact .rests rfl rfl (.refl _)
    | attach site config =>
      obtain ⟨_, -, rfl⟩ := Option.map_eq_some_iff.1 acts
      refine .rests source rfl ?_
      unfold attach
      split
      · exact .refl _
      · dsimp only [modifySite]
        rw [carriers_endStation]
        exact .refl _
    | openPump site =>
      obtain ⟨s, i, number, at_n, -, opened⟩ := openPump_of_act? acts
      exact .rests rfl rfl (rests_openPump at_n opened)
    | connect a b =>
      obtain ⟨net, made, rfl⟩ := connect_of_act? acts
      exact .rests rfl rfl (.connect made)
    | request i request =>
      obtain rfl := Option.some.inj acts
      exact .rests source rfl (tacit_call e i request).rests
    | poll number =>
      obtain rfl := Option.some.inj acts
      exact .rests source rfl (tacit_pollCall e number).rests
    | abandon number =>
      obtain rfl := Option.some.inj acts
      exact .rests source rfl (tacit_abandon e number).rests
    | pump p => exact traffic_pumpStep? acts
    | askStop site =>
      obtain rfl := Option.some.inj acts
      refine .rests source rfl ?_
      unfold askStop
      split
      · exact .refl _
      · exact .refl _
    | leave site =>
      obtain ⟨_, -, rfl⟩ := Option.map_eq_some_iff.1 acts
      exact .rests rfl rfl (rests_leave e site)
    | transmit n publication =>
      obtain ⟨s, here, rfl⟩ := Option.map_eq_some_iff.1 acts
      refine .rests source rfl ?_
      -- It is not an endpoint from which the publication leaves, but a recorder.
      cases out : s.outlet with
      | endpoint k => simp [source?, site_of_presentSite? here, out] at source
      | recorder k =>
        dsimp only
        rw [Carriers.publish_recorder_net]
        exact .refl _
    | serve i =>
      obtain ⟨s, here, -⟩ := stationStep?_eq_some acts
      refine .rests source rfl ?_
      cases out : s.outlet with
      | endpoint k => simp [source?, here, out] at source
      | recorder k =>
        rw [carriers_stationStep? here acts, out]
        cases (e.upcoming? i).bind fun job =>
            (s.coordinator.store.react job.request).publication with
        | none => exact .refl _
        | some publication =>
          rw [Coordinator.carry, Carriers.publish_recorder_net]
          exact .refl _

/-- Peers, places and readers of inboxes change only as they do where nothing moves. -/
theorem framed_rests_act? {action : Action} (acts : e.act? action = some e') :
    ∃ net, e.carriers.net.Framed net ∧ net.Rests e'.carriers.net := by
  cases traffic_act? acts with
  | publishes _ _ sends =>
    refine ⟨_, ?_, .refl _⟩
    rw [sends]
    exact (Network.spreads_foldl _ (List.Subset.refl _)).toFramed
  | takes _ _ received rests => exact ⟨_, (Network.received received).toFramed, rests⟩
  | rests _ _ rests => exact ⟨_, .refl _, rests⟩

section Lasting

variable {action : Action} (acts : e.act? action = some e')

include acts

/-- Every endpoint belongs to its peer for good. -/
theorem peerAt?_act? {i : Nat} {peer : PeerId} (here : e.carriers.net.peerAt? i = some peer) :
    e'.carriers.net.peerAt? i = some peer := by
  obtain ⟨net, framed, rests⟩ := framed_rests_act? acts
  exact rests.peerAt? ((framed.peerAt? i).trans here)

/-- Calls to a peer arrive at an endpoint of that peer, at all times. -/
theorem registered_act? (registered : e.carriers.net.Registered) :
    e'.carriers.net.Registered := by
  obtain ⟨net, framed, rests⟩ := framed_rests_act? acts
  exact rests.registered (registered.framed framed)

/-- Whoever has an endpoint is registered, at all times. -/
theorem housed_act? (housed : e.carriers.net.Housed) : e'.carriers.net.Housed := by
  obtain ⟨net, framed, rests⟩ := framed_rests_act? acts
  exact rests.housed (framed.housed housed)

/-- An inbox that somebody has begun to read stays so. -/
theorem begun_act? {k : Nat} (begun : e.carriers.net.Begun k) : e'.carriers.net.Begun k := by
  obtain ⟨net, framed, rests⟩ := framed_rests_act? acts
  exact rests.begun (framed.begun.2 begun)

/-- An inbox that is closed stays closed. -/
theorem closed_act? {k : Nat} (closed : e.carriers.net.readingAt? k = some .closed) :
    e'.carriers.net.readingAt? k = some .closed := by
  obtain ⟨net, framed, rests⟩ := framed_rests_act? acts
  exact rests.closed ((framed.readingAt? k).trans closed)

end Lasting

/-- Calls arrive at endpoints that are there. -/
theorem peerAt?_of_postings {source : Nat} {posting : Posting}
    (member : posting ∈ e.postings e' source) :
    (e'.carriers.net.peerAt? posting.target).isSome = true := by
  obtain ⟨-, arrived⟩ := mem_postings.1 member
  rcases Nat.lt_or_ge posting.target e'.carriers.net.endpoints.length with inside | outside
  · rw [Network.peerAt?, List.getElem?_eq_getElem inside]
    rfl
  · rw [Network.arrivals_of_absent outside] at arrived
    cases arrived

end Exchange

end PartExchange
