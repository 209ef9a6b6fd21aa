/-
**How an exchange advances.**

Coordinators, pumps and requests advance only when they are polled.  A poll of a coordinator or a
pump goes on until there is nothing it can do without waiting for somebody else.

A pump takes a call out of the inbox, notes what it says about its sender, and hands it to the
coordinator.  If there is no place in the coordinator's queue, the pump holds the call and waits;
the place in the inbox is free by then.  A pump ends when the coordinator refuses, or when nothing
can arrive in its inbox any more.

A coordinator carries out a publication in one step.  Coordinators that let others go on in the middle of
one are in `PartExchange.Exchange.Interruption`.

Main definitions:

* `Exchange.pumpStep?`, `Exchange.pollPump`: one thing a pump does, and all it can do;
* `Exchange.openPump`, `Exchange.startPump`: a new pump, and the same with its first poll;
* `Exchange.stationStep?`, `Exchange.pollStation`: the same for a coordinator;
* `Exchange.call`, `Exchange.pollCall`: making a request, and asking how it stands;
* `Exchange.round`, `Exchange.settle`: everybody's turn, and turns until all wait.
-/

import PartExchange.Exchange.Basic

set_option relaxedAutoImplicit false
set_option autoImplicit false

namespace PartExchange.Exchange

/-! ### Coordinators -/

/-- The next thing a coordinator does, if there is anything. -/
def stationStep? (e : Exchange) (i : Nat) : Option Exchange :=
  match e.stations[i]? with
  | none => none
  | some station =>
    (station.coordinator.step? (Carriers.publish station.outlet) (!e.reachable i) e.carriers).map
      fun (coordinator, carriers) =>
        { e with carriers, stations := e.stations.set i { station with coordinator } }

/-- All that a coordinator can do without waiting. -/
def pollStation (e : Exchange) (i : Nat) : Exchange :=
  match e.stations[i]? with
  | none => e
  | some station =>
    let (coordinator, carriers) :=
      station.coordinator.run (Carriers.publish station.outlet) (!e.reachable i) e.carriers
    { e with carriers, stations := e.stations.set i { station with coordinator } }

/-- Whether a coordinator can do anything without waiting. -/
def stationReady (e : Exchange) (i : Nat) : Bool := (e.stationStep? i).isSome

/-- Whether a coordinator has ended. -/
def stationEnded (e : Exchange) (i : Nat) : Bool :=
  (e.stations[i]?.map fun station => station.coordinator.ended).getD true

/-! ### Requests -/

/-- Brings a request to a coordinator's queue for the first time. -/
def submit (e : Exchange) (i : Nat) (request : Request) : Option (Exchange × Job × Sending) :=
  match e.stations[i]? with
  | none => none
  | some station =>
    let (coordinator, job, sending) := station.coordinator.submit request
    some ({ e with stations := e.stations.set i { station with coordinator } }, job, sending)

/-- Brings a waiting request to a coordinator's queue once more. -/
def resume (e : Exchange) (i : Nat) (job : Job) : Exchange × Sending :=
  match e.stations[i]? with
  | none => (e, .refused)
  | some station =>
    let (coordinator, sending) := station.coordinator.resume job
    ({ e with stations := e.stations.set i { station with coordinator } }, sending)

/-- How far a request has got after an attempt to send it.  A call from a peer has done its duty
once it is in the queue. -/
def stageAfter (request : Request) : Sending → CallStage
  | .refused => .finished .closed
  | .waiting => .waiting
  | .sent =>
    match request with
    | .rpc _ => .finished .delivered
    | _ => .queued

/-- Makes a request to a coordinator; the result is the number by which it can be polled. -/
def call (e : Exchange) (i : Nat) (request : Request) : Exchange × Nat :=
  let number := e.calls.length
  match e.submit i request with
  | none => ({ e with calls := e.calls ++ [⟨i, ⟨0, request⟩, .finished .closed⟩] }, number)
  | some (e, job, sending) =>
    ({ e with calls := e.calls ++ [⟨i, job, stageAfter request sending⟩] }, number)

/-- How a request stands after it has been given the chance to advance. -/
def advance (e : Exchange) (c : Call) : Exchange × CallStage :=
  match c.stage with
  | .finished outcome => (e, .finished outcome)
  | .abandoned => (e, .abandoned)
  | .waiting =>
    let (e, sending) := e.resume c.station c.job
    (e, stageAfter c.job.request sending)
  | .queued =>
    match e.stations[c.station]? with
    | none => (e, .finished .closed)
    | some station =>
      match station.coordinator.answer? c.job.id with
      | some answer => (e, .finished (.answered answer))
      | none => (e, if station.coordinator.ended then .finished .closed else .queued)

/-- Polls a request: how it has ended, if it has. -/
def pollCall (e : Exchange) (number : Nat) : Exchange × Option Outcome :=
  match e.calls[number]? with
  | none => (e, some .closed)
  | some c =>
    let (e, stage) := e.advance c
    ({ e with calls := e.calls.set number { c with stage } },
      match stage with
      | .finished outcome => some outcome
      | _ => none)

/-- Whoever made a request no longer waits for it.  A request that is in its queue stays there. -/
def abandon (e : Exchange) (number : Nat) : Exchange :=
  match e.calls[number]? with
  | none => e
  | some c =>
    let e := if c.stage = .waiting then e.modifyCoordinator c.station (·.withdraw c.job) else e
    if c.stage.isOpen then
      { e with calls := e.calls.set number { c with stage := .abandoned } }
    else e

/-! ### Pumps -/

/-- A pump after an attempt to hand a call to the coordinator. -/
def afterHandOver (e : Exchange) (p : Nat) (pump : Pump) (job : Job) : Sending → Exchange
  | .sent => { e with pumps := e.pumps.set p { pump with held := none } }
  | .waiting => { e with pumps := e.pumps.set p { pump with held := some job } }
  | .refused => e.endPump p

/-- The next thing a pump does, if there is anything. -/
def pumpStep? (e : Exchange) (p : Nat) : Option Exchange :=
  match e.pumps[p]? with
  | none => none
  | some pump =>
    if pump.finished then none
    else
      match pump.held with
      | some job =>
        let (e, sending) := e.resume pump.station job
        if sending = .waiting then none else some (e.afterHandOver p pump job sending)
      | none =>
        match e.carriers.net.receive? pump.endpoint with
        | some (envelope, net) =>
          let request := Request.rpc { sender := envelope.sender, rpc := envelope.rpc }
          match (e.withNet net).submit pump.station request with
          | none => some ((e.withNet net).endPump p)
          | some (e, job, sending) => some (e.afterHandOver p pump job sending)
        | none => if e.carriers.net.isReplaced pump.endpoint then some (e.endPump p) else none

/-- At most `fuel` steps of a pump. -/
def pumpSteps (p : Nat) : (fuel : Nat) → Exchange → Exchange
  | 0, e => e
  | fuel + 1, e =>
    match e.pumpStep? p with
    | none => e
    | some e => pumpSteps p fuel e

/-- The number of calls in the inbox of a pump. -/
def inboxLength (e : Exchange) (p : Nat) : Nat :=
  match e.pumps[p]? with
  | none => 0
  | some pump => (e.carriers.net.endpoints[pump.endpoint]?.map fun k => k.inbox.length).getD 0

/-- All that a pump can do without waiting.  It hands over the call it holds and then those in the
inbox, and may end after that. -/
def pollPump (e : Exchange) (p : Nat) : Exchange := pumpSteps p (e.inboxLength p + 2) e

/-- Whether a pump can do anything without waiting. -/
def pumpReady (e : Exchange) (p : Nat) : Bool := (e.pumpStep? p).isSome

/-- Whether a pump has ended. -/
def pumpFinished (e : Exchange) (p : Nat) : Bool := (e.pumps[p]?.map Pump.finished).getD true

/-- A participant gets a pump that forwards what arrives to its coordinator, and has not moved
anything yet.  The inbox of an endpoint can be read by one pump only, the first; a recorder gets no
calls, so there the work is done at once. -/
def openPump (e : Exchange) (site : Nat) : Except SyncError (Exchange × Nat) :=
  match e.sites[site]? with
  | none => .error .closed
  | some s =>
    let number := e.pumps.length
    let pump : Option Pump :=
      match s.outlet with
      | .recorder k => some { endpoint := k, station := s.station.getD 0, finished := true }
      | .endpoint k =>
        match e.carriers.net.endpoints[k]? with
        | some { reading := .unread, .. } =>
          some { endpoint := k, station := s.station.getD 0 }
        | _ => none
    match pump, s.outlet with
    | none, _ => .error (.transport .inboundTaken)
    | some pump, outlet =>
      let e := { e with pumps := e.pumps ++ [pump] }
      let e := match outlet with
        | .recorder _ => e
        | .endpoint k =>
          e.withNet (e.carriers.net.modify k fun k => { k with reading := .pumped })
      .ok (e.modifySite site fun s => { s with pump := s.pump.or (some number) }, number)

/-- Starts to forward what arrives at a participant to its coordinator. -/
def startPump (e : Exchange) (site : Nat) : Except SyncError (Exchange × Nat) :=
  (e.openPump site).map fun (e, number) => (e.pollPump number, number)

/-! ### Turns -/

/-- One participant's turn: first its pump, then its coordinator, each if it can do anything. -/
def turn (e : Exchange) (site : Nat) : Exchange × Bool :=
  match e.sites[site]? with
  | none => (e, false)
  | some s =>
    let (e, pumped) :=
      match s.pump with
      | some p => if e.pumpReady p then (e.pollPump p, true) else (e, false)
      | none => (e, false)
    match s.station with
    | some i => if e.stationReady i then (e.pollStation i, true) else (e, pumped)
    | none => (e, pumped)

/-- The turns of this many participants, in the order in which they joined, and whether anybody did
anything. -/
def everyTurn {σ : Type} (turn : σ → Nat → σ × Bool) (sites : Nat) (s : σ) : σ × Bool :=
  (List.range sites).foldl
    (fun (s, busy) site =>
      let (s, acted) := turn s site
      (s, busy || acted))
    (s, false)

/-- At most `rounds` rounds, ending with the first in which nobody could do anything; says whether
there was such a round. -/
def untilQuiet {σ : Type} (round : σ → σ × Bool) : (rounds : Nat) → σ → σ × Bool
  | 0, s => (s, false)
  | rounds + 1, s =>
    let (s, busy) := round s
    if busy then untilQuiet round rounds s else (s, true)

/-- Everybody's turn. -/
def round (e : Exchange) : Exchange × Bool := everyTurn turn e.sites.length e

/-- Rounds until all wait. -/
def settle (rounds : Nat) (e : Exchange) : Exchange × Bool := untilQuiet round rounds e

end PartExchange.Exchange
