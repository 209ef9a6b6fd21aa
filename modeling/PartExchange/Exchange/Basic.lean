/-
**An exchange: participants on one network.**

A participant is a site: a transport, and later a coordinator that uses it, a handle to send the
coordinator requests, and a pump that moves calls from the inbox to the coordinator.  Two sites may
share one transport.  Whoever can still send requests to a coordinator keeps it running: a handle, a
pump at work, or a request that has not ended.

Nothing here moves on its own.  How coordinators, pumps and requests advance is the matter of
`PartExchange.Exchange.Schedule`.

Main definitions:

* `Recorder`: a transport that only writes down what it is asked to publish;
* `Carriers.publish`: the transport of each outlet;
* `Site`, `Station`, `Pump`, `Call`: the parts of an exchange;
* `Exchange`: the whole.

Main results:

* `Carriers.publish_recorder_net`: what a recorder is asked to publish never reaches the network.
-/

import PartExchange.Network.Basic
import PartExchange.Coordinator.Basic

set_option relaxedAutoImplicit false
set_option autoImplicit false

namespace PartExchange

/-! ### Transports -/

/-- A transport that only writes down what it is asked to publish. -/
structure Recorder where
  /-- The peer it stands for. -/
  peer : PeerId
  /-- Whether it refuses publications. -/
  failing : Bool := false
  /-- What it was asked to publish while it did not refuse, oldest first. -/
  published : List Publication := []
  deriving DecidableEq

/-- Where a publication leaves. -/
inductive Outlet where
  | endpoint (k : Nat)
  | recorder (k : Nat)
  deriving DecidableEq, Repr

/-- All transports: a network and some recorders. -/
structure Carriers where
  /-- The network. -/
  net : Network
  /-- The recorders in the order in which they were made. -/
  recorders : List Recorder := []
  deriving DecidableEq

/-- The transport of an outlet. -/
def Carriers.publish (outlet : Outlet) : Transport Carriers := fun carriers publication =>
  match outlet with
  | .endpoint k =>
    match carriers.net.publish k publication.topic publication.message publication.peers with
    | .ok net => ({ carriers with net }, none)
    | .error cause => (carriers, some cause)
  | .recorder k =>
    match carriers.recorders[k]? with
    | none => (carriers, none)
    | some recorder =>
      if recorder.failing then (carriers, some (.transport .rejected))
      else
        ({ carriers with
            recorders := carriers.recorders.set k
              { recorder with published := recorder.published ++ [publication] } }, none)

/-- What a recorder is asked to publish never reaches the network. -/
@[simp] theorem Carriers.publish_recorder_net (k : Nat) (carriers : Carriers)
    (publication : Publication) :
    (Carriers.publish (.recorder k) carriers publication).1.net = carriers.net := by
  simp only [Carriers.publish]
  split
  · rfl
  · split <;> rfl

/-- The peer that an outlet stands for. -/
def Carriers.peerOf (carriers : Carriers) (outlet : Outlet) : PeerId :=
  match outlet with
  | .endpoint k => (carriers.net.endpoints[k]?.map Endpoint.peer).getD default
  | .recorder k => (carriers.recorders[k]?.map Recorder.peer).getD default

/-! ### Participants -/

/-- A coordinator with its transport. -/
structure Station where
  /-- The transport. -/
  outlet : Outlet
  /-- The coordinator. -/
  coordinator : Coordinator

/-- What moves calls from an inbox to a coordinator, one at a time. -/
structure Pump where
  /-- The endpoint whose inbox is read. -/
  endpoint : Nat
  /-- The coordinator that gets the calls. -/
  station : Nat
  /-- The call that waits for a place in the coordinator's queue. -/
  held : Option Job := none
  /-- Whether the pump has ended. -/
  finished : Bool := false
  deriving DecidableEq

/-- How a request to a coordinator ends: the coordinator has ended without an answer, the request is
a call from a peer and has been queued, or there is an answer. -/
inductive Outcome where
  | closed
  | delivered
  | answered (answer : Answer)
  deriving DecidableEq

/-- How far a request to a coordinator has got. -/
inductive CallStage where
  /-- It waits for a place in its queue. -/
  | waiting
  /-- It is in the queue, or it has left it and is being answered. -/
  | queued
  /-- It has ended. -/
  | finished (outcome : Outcome)
  /-- Whoever made it no longer waits for it. -/
  | abandoned
  deriving DecidableEq

/-- Whether a request still needs its coordinator. -/
def CallStage.isOpen : CallStage → Bool
  | .waiting | .queued => true
  | .finished _ | .abandoned => false

/-- A request to a coordinator, from the side of whoever made it. -/
structure Call where
  /-- The coordinator. -/
  station : Nat
  /-- The request with its number. -/
  job : Job
  /-- How far it has got. -/
  stage : CallStage
  deriving DecidableEq

/-- A participant. -/
structure Site where
  /-- Its transport. -/
  outlet : Outlet
  /-- Its coordinator. -/
  station : Option Nat := none
  /-- Whether it has a handle to send its coordinator requests. -/
  handle : Bool := false
  /-- Its pump. -/
  pump : Option Nat := none
  /-- Whether it still takes part. -/
  present : Bool := true
  deriving DecidableEq

/-- Participants on one network. -/
structure Exchange where
  /-- The transports. -/
  carriers : Carriers
  /-- The coordinators. -/
  stations : List Station := []
  /-- The pumps. -/
  pumps : List Pump := []
  /-- The requests. -/
  calls : List Call := []
  /-- The participants, in the order in which they joined. -/
  sites : List Site := []

namespace Exchange

/-- Nobody on a network whose inboxes have this number of places. -/
def new (capacity : Nat) : Exchange := { carriers := { net := .new capacity } }

/-- Replaces the network. -/
def withNet (e : Exchange) (net : Network) : Exchange :=
  { e with carriers := { e.carriers with net } }

/-- Applies a change to one participant. -/
def modifySite (e : Exchange) (site : Nat) (change : Site → Site) : Exchange :=
  { e with sites := e.sites.modify site change }

/-- Applies a change to one coordinator. -/
def modifyCoordinator (e : Exchange) (station : Nat) (change : Coordinator → Coordinator) :
    Exchange :=
  { e with
    stations := e.stations.modify station fun s => { s with coordinator := change s.coordinator } }

/-! ### Joining and leaving -/

/-- A participant joins with an endpoint for a peer. -/
def joinNetwork (e : Exchange) (peer : PeerId) : Exchange × Nat :=
  let (net, k) := e.carriers.net.register peer
  let e := e.withNet net
  ({ e with sites := e.sites ++ [{ outlet := .endpoint k }] }, e.sites.length)

/-- A participant joins with a recorder for a peer. -/
def joinRecorder (e : Exchange) (peer : PeerId) : Exchange × Nat :=
  let outlet := Outlet.recorder e.carriers.recorders.length
  let carriers := { e.carriers with recorders := e.carriers.recorders ++ [{ peer }] }
  ({ e with carriers, sites := e.sites ++ [{ outlet }] }, e.sites.length)

/-- A participant joins on the transport of another. -/
def joinOutlet (e : Exchange) (outlet : Outlet) : Exchange × Nat :=
  ({ e with sites := e.sites ++ [{ outlet }] }, e.sites.length)

/-- A coordinator that nobody polls any more ends. -/
def endStation (e : Exchange) (station : Option Nat) : Exchange :=
  match station with
  | none => e
  | some i => e.modifyCoordinator i Coordinator.close

/-- A participant gets a coordinator and a handle; one that it had before ends. -/
def attach (e : Exchange) (site : Nat) (config : CoordinatorConfig) : Exchange :=
  match e.sites[site]? with
  | none => e
  | some s =>
    let e := e.endStation s.station
    let station : Station := ⟨s.outlet, .new config⟩
    { e with stations := e.stations ++ [station] }.modifySite site fun s =>
      { s with station := some e.stations.length, handle := true }

/-- A participant gives up its handle. -/
def dropHandle (e : Exchange) (site : Nat) : Exchange :=
  e.modifySite site fun s => { s with handle := false }

/-- A pump ends, and what is left in the inbox is lost. -/
def endPump (e : Exchange) (pump : Nat) : Exchange :=
  match e.pumps[pump]? with
  | none => e
  | some p =>
    if p.finished then e
    else
      { e.withNet (e.carriers.net.modify p.endpoint Endpoint.close) with
        pumps := e.pumps.set pump { p with held := none, finished := true } }

/-- A pump that nobody polls any more ends. -/
def endReader (e : Exchange) (pump : Option Nat) : Exchange :=
  match pump with
  | none => e
  | some p => e.endPump p

/-- A transport that no participant uses any more takes its inbox with it. -/
def releaseOutlet (e : Exchange) (outlet : Outlet) : Exchange :=
  match outlet with
  | .recorder _ => e
  | .endpoint k =>
    if e.sites.any fun s => s.present && s.outlet = outlet then e
    else e.withNet (e.carriers.net.modify k Endpoint.close)

/-- A participant leaves with its coordinator, its pump, its handle and its use of the transport. -/
def leave (e : Exchange) (site : Nat) : Exchange :=
  match e.sites[site]? with
  | none => e
  | some s =>
    let e := (e.endStation s.station).endReader s.pump
    (e.modifySite site fun s => { s with handle := false, present := false }).releaseOutlet s.outlet

/-- A participant asks its coordinator to stop. -/
def askStop (e : Exchange) (site : Nat) : Exchange :=
  match e.sites[site]? with
  | some { station := some i, .. } => e.modifyCoordinator i Coordinator.askStop
  | _ => e

/-! ### Looking at an exchange -/

/-- Whether anybody can still send requests to a coordinator. -/
def reachable (e : Exchange) (station : Nat) : Bool :=
  e.sites.any (fun s => s.handle && s.station = some station) ||
    e.pumps.any (fun p => !p.finished && p.station = station) ||
    e.calls.any (fun c => c.stage.isOpen && c.station = station)

/-- The coordinator of a participant. -/
def coordinator? (e : Exchange) (site : Nat) : Option Coordinator := do
  let s ← e.sites[site]?
  let i ← s.station
  let station ← e.stations[i]?
  return station.coordinator

/-- A reader of a coordinator's events. -/
structure Subscription where
  /-- The coordinator. -/
  station : Nat
  /-- How many of its events are behind the reader. -/
  seen : Nat
  deriving DecidableEq, Repr

/-- Reads a coordinator's events from now on. -/
def subscribe? (e : Exchange) (site : Nat) : Option Subscription := do
  let s ← e.sites[site]?
  let i ← s.station
  let station ← e.stations[i]?
  return ⟨i, station.coordinator.log.length⟩

/-- What a reader gets to see now. -/
def unread (e : Exchange) (reader : Subscription) : List Coordinator.Notice :=
  match e.stations[reader.station]? with
  | none => []
  | some station => station.coordinator.unread reader.seen

/-- The reader after it has seen everything. -/
def caughtUp (e : Exchange) (reader : Subscription) : Subscription :=
  match e.stations[reader.station]? with
  | none => reader
  | some station => { reader with seen := station.coordinator.log.length }

/-- Whether a reader will never see another event: the coordinator has ended, and nobody can send it
requests. -/
def noMoreEvents (e : Exchange) (reader : Subscription) : Bool :=
  match e.stations[reader.station]? with
  | none => true
  | some station => station.coordinator.ended && !e.reachable reader.station

end Exchange

end PartExchange
