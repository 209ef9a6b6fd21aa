/-
**Coordinators that let others go on.**

In `PartExchange.Exchange.Schedule` a coordinator carries out a publication in one step.  Here it only
begins it, and then takes one step of it after the other; after a number of steps its turn is over, and
others may act before it goes on.  While a publication is under way its coordinator serves no other
request.  Two publications of one transport can overlap in this way, and then both may send a part to
the same peer.

Main definitions:

* `Midway`: an exchange with the publications that are under way;
* `Carriers.begin`: a transport that begins publications;
* `Network.stride?`: a step of a publication;
* `Midway.stationStep?`: the next thing that a coordinator does;
* `Midway.turn`, `Midway.settle`: everybody's turn, and turns until all wait.
-/

import PartExchange.Exchange.Schedule
import PartExchange.Network.Flight

set_option relaxedAutoImplicit false
set_option autoImplicit false

namespace PartExchange

/-- A transport that begins a publication instead of carrying it out.  A recorder has nothing to
begin. -/
def Carriers.begin (outlet : Outlet) : Transport (Carriers × Option Flight) :=
  fun (carriers, _) publication =>
    match outlet with
    | .endpoint k =>
      match carriers.net.begin k publication.topic publication.message publication.peers with
      | .ok flight => ((carriers, some flight), none)
      | .error cause => ((carriers, none), some cause)
    | .recorder _ =>
      let (carriers, failure) := Carriers.publish outlet carriers publication
      ((carriers, none), failure)

/-- What a publication does in one step: it stops at every lock, and between looking an inbox up and
putting a call into it there is none. -/
def Network.stride? (net : Network) (f : Flight) : Option (Network × Flight) :=
  (net.advance? f).map fun (net, f) =>
    match f.leg with
    | .addressed _ _ _ => net.fly 1 f
    | _ => (net, f)

/-- The number of steps in a coordinator's turn. -/
def stepsPerTurn : Nat := 128

/-- An exchange with the publications that its coordinators are in the middle of. -/
structure Midway where
  /-- The exchange. -/
  exchange : Exchange
  /-- The publications that are not over, each with its coordinator. -/
  flights : List (Nat × Flight) := []

namespace Midway

/-- A coordinator is in the middle of a publication from now on, unless that is over. -/
def withFlight (m : Midway) (i : Nat) (flight : Flight) : Midway :=
  let others := m.flights.filter (·.1 ≠ i)
  { m with flights := if flight.isOver then others else (i, flight) :: others }

/-- The next thing that a coordinator does, if there is anything: a step of its publication, or a
request if it is in the middle of none. -/
def stationStep? (m : Midway) (i : Nat) : Option Midway :=
  match m.flights.lookup i with
  | some flight =>
    (m.exchange.carriers.net.stride? flight).map fun (net, flight) =>
      { m with exchange := m.exchange.withNet net }.withFlight i flight
  | none =>
    match m.exchange.stations[i]? with
    | none => none
    | some station =>
      (station.coordinator.step? (Carriers.begin station.outlet) (!m.exchange.reachable i)
          (m.exchange.carriers, none)).map fun (coordinator, carriers, begun) =>
        let stations := m.exchange.stations.set i { station with coordinator }
        let m := { m with exchange := { m.exchange with carriers, stations } }
        match begun with
        | none => m
        | some flight => m.withFlight i flight

/-- At most `fuel` steps of a coordinator. -/
def stationSteps (i : Nat) : (fuel : Nat) → Midway → Midway
  | 0, m => m
  | fuel + 1, m =>
    match m.stationStep? i with
    | none => m
    | some m => stationSteps i fuel m

/-- A pump's turn, if it can do anything. -/
def pumpTurn (m : Midway) : Option Nat → Midway × Bool
  | none => (m, false)
  | some p =>
    if m.exchange.pumpReady p then ({ m with exchange := m.exchange.pollPump p }, true)
    else (m, false)

/-- A coordinator's turn, if it can do anything. -/
def stationTurn (m : Midway) : Option Nat → Midway × Bool
  | none => (m, false)
  | some i =>
    if (m.stationStep? i).isSome then (stationSteps i stepsPerTurn m, true) else (m, false)

/-- One participant's turn: first its pump, then its coordinator. -/
def turn (m : Midway) (site : Nat) : Midway × Bool :=
  match m.exchange.sites[site]? with
  | none => (m, false)
  | some s =>
    let (m, pumped) := m.pumpTurn s.pump
    let (m, served) := m.stationTurn s.station
    (m, pumped || served)

/-- Everybody's turn. -/
def round (m : Midway) : Midway × Bool :=
  Exchange.everyTurn turn m.exchange.sites.length m

/-- Rounds until all wait. -/
def settle (rounds : Nat) (m : Midway) : Midway × Bool := Exchange.untilQuiet round rounds m

/-- Everybody takes turns, for at most that many rounds, until a request has ended and no publication
is under way. -/
def await (call : Nat) : (rounds : Nat) → Midway → Midway × Option Outcome
  | 0, m =>
    let (exchange, outcome) := m.exchange.pollCall call
    ({ m with exchange }, outcome)
  | rounds + 1, m =>
    let (exchange, outcome) := m.exchange.pollCall call
    let m := { m with exchange }
    if outcome.isSome && m.flights.isEmpty then (m, outcome)
    else
      let (m, busy) := m.round
      if busy then await call rounds m
      else
        let (exchange, outcome) := m.exchange.pollCall call
        ({ m with exchange }, outcome)

end Midway

end PartExchange
