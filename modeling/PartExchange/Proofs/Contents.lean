/-
**Where parts are, and that they only move along links.**

Here nothing is assumed about who takes part: a peer may have several endpoints, an endpoint several
coordinators, stores may have limits, and anybody may leave.  A part is at a peer when a coordinator
there stores it or has it in its queues, when it waits in an inbox there, or when a pump there holds
it.  After any action, a part is where it was before; or at a linked peer, to which a coordinator has
sent it; or at a peer where its message has just been added.

Main definitions:

* `Piece`: a part with its topic, its group and its number;
* `Coordinator.Has`, `Exchange.At`: where a piece is;
* `Exchange.Placed`: every part of an exchange belongs to a transport that is there;
* `Exchange.AddsOnly`: parts come from outside only by requests to add a message;
* `Exchange.Moves`: a change after which a piece is where it was, or where the change may bring it.

Main results:

* `Coordinator.Served.has`, `Store.has_of_publication`: a coordinator makes no parts;
* `Exchange.Placed.moves`: what an action does to parts.
-/

import PartExchange.Proofs.Reaction
import PartExchange.Proofs.Wiring

set_option relaxedAutoImplicit false
set_option autoImplicit false

namespace PartExchange

/-! ### Pieces -/

/-- A part with its topic, its group and its number. -/
structure Piece where
  /-- The topic. -/
  topic : Topic
  /-- The group. -/
  group : GroupId
  /-- The number. -/
  index : Nat
  /-- The content. -/
  part : Part

/-- A message on a topic holds a piece. -/
def Message.Gives (m : Message) (topic : Topic) (piece : Piece) : Prop :=
  piece.topic = topic ∧ piece.group = m.group ∧ m.part? piece.index = some piece.part

/-- A call brings a piece. -/
def Rpc.Brings (rpc : Rpc) (piece : Piece) : Prop :=
  piece.topic = rpc.topic ∧ piece.group = rpc.group ∧ (piece.index, piece.part) ∈ rpc.parts

/-- A job is a call that brings a piece. -/
def Job.Brings (job : Job) (piece : Piece) : Prop :=
  ∃ d, job.request = .rpc d ∧ d.rpc.Brings piece

/-- A store holds a piece. -/
def Store.Has (store : Store) (piece : Piece) : Prop :=
  ∃ topic m, (topic, m) ∈ store.entries ∧ m.Gives topic piece

/-- A coordinator stores a piece, or a job in its queues brings it. -/
def Coordinator.Has (c : Coordinator) (piece : Piece) : Prop :=
  c.store.Has piece ∨ ∃ lane, ∃ job ∈ (c.queue lane).items, job.Brings piece

/-- A call that brings a peer up to date brings pieces of the message. -/
theorem Rpc.gives_of_update {topic : Topic} {m : Message} {known : PartSet} {piece : Piece}
    (brings : (Rpc.update topic m known).Brings piece) : m.Gives topic piece := by
  obtain ⟨about, belongs, listed⟩ := brings
  rw [Rpc.parts_update, Message.mem_partsIn] at listed
  exact ⟨about, belongs, listed.2⟩

/-- A call without parts brings nothing. -/
theorem Rpc.not_brings {rpc : Rpc} (none : rpc.parts = []) (piece : Piece) : ¬ rpc.Brings piece := by
  rintro ⟨-, -, listed⟩
  rw [none] at listed
  cases listed

namespace Store

variable {store : Store} {piece : Piece}

/-- What a call makes of the message of its group holds pieces that were stored, or that the call
brings. -/
theorem has_of_afterCall {rpc : Rpc} (gives : (store.afterCall rpc).Gives rpc.topic piece) :
    store.Has piece ∨ rpc.Brings piece := by
  obtain ⟨about, belongs, held⟩ := gives
  rw [group_afterCall] at belongs
  rcases Message.part?_fillAll_cases (fun e => Rpc.parts_lt) held with old | listed
  · left
    rw [current] at old
    cases found : store.get? rpc.topic rpc.group with
    | none =>
      rw [found, Option.getD_none, Message.part?_new] at old
      cases old
    | some m =>
      rw [found, Option.getD_some] at old
      obtain ⟨member, group⟩ := mem_of_get? found
      exact ⟨rpc.topic, m, member, about, belongs.trans group.symm, old⟩
  · exact Or.inr ⟨about, belongs, listed⟩

/-- A piece that is stored after a reaction was stored before, or its message has just been added, or
the call has brought it. -/
theorem has_of_react {request : Request} (has : (store.react request).store.Has piece) :
    store.Has piece ∨
      (∃ topic m, request = .add topic m ∧ store.contains topic m.group = false ∧
        m.Gives topic piece) ∨
      ∃ d, request = .rpc d ∧ d.rpc.Brings piece := by
  obtain ⟨topic, m, member, gives⟩ := has
  rcases mem_entries_react member with old | ⟨added, fresh⟩ | ⟨d, call, rfl, rfl⟩
  · exact Or.inl ⟨topic, m, old, gives⟩
  · exact Or.inr (Or.inl ⟨topic, m, added, fresh, gives⟩)
  · rcases has_of_afterCall gives with old | brings
    · exact Or.inl old
    · exact Or.inr (Or.inr ⟨d, call, brings⟩)

/-- A piece that is published was stored before, or the call has brought it. -/
theorem has_of_publication {request : Request} {publication : Publication}
    (published : (store.react request).publication = some publication)
    (gives : publication.message.Gives publication.topic piece) :
    store.Has piece ∨ ∃ d, request = .rpc d ∧ d.rpc.Brings piece := by
  cases request with
  | add topic m => cases published
  | publish topic group peers =>
    simp only [react, reactPublish] at published
    split at published
    · rename_i m found
      cases published
      exact Or.inl ⟨topic, m, (mem_of_get? found).1, gives⟩
    · cases published
  | rpc d =>
    by_cases acceptable : d.rpc.Acceptable
    · rw [publication_react_rpc acceptable] at published
      split at published
      · cases published
        rcases has_of_afterCall gives with old | brings
        · exact Or.inl old
        · exact Or.inr ⟨d, rfl, brings⟩
      · cases published
    · rw [react_rpc_of_not_acceptable acceptable] at published
      cases published
  | get topic group => cases published

end Store

namespace Coordinator

variable {c c' : Coordinator} {piece : Piece}

/-- A new coordinator has nothing. -/
theorem not_has_new (config : CoordinatorConfig) : ¬ (new config).Has piece := by
  rintro (⟨topic, m, member, -⟩ | ⟨lane, job, waits, -⟩)
  · cases member
  · cases lane <;> cases waits

/-- A sender brings a coordinator nothing but the job that enters. -/
theorem Fed.has {entered : Option Job} (fed : c.Fed c' entered) (has : c'.Has piece) :
    c.Has piece ∨ ∃ job, entered = some job ∧ job.Brings piece := by
  rcases has with stored | ⟨lane, job, waits, brings⟩
  · rw [fed.store] at stored
    exact Or.inl (Or.inl stored)
  · rw [fed.items, List.mem_append, Option.mem_toList, Option.filter_eq_some_iff] at waits
    rcases waits with old | ⟨new, -⟩
    · exact Or.inl (Or.inr ⟨lane, job, old, brings⟩)
    · exact Or.inr ⟨job, new, brings⟩

/-- A coordinator that ends gets nothing. -/
theorem has_of_close (has : c.close.Has piece) : c.Has piece := by
  rcases has with stored | ⟨lane, job, waits, -⟩
  · exact Or.inl stored
  · rw [queue_close, Queue.items_close] at waits
    cases waits

/-- A coordinator that handles a job gets nothing but what it has just been told to add. -/
theorem Served.has {job : Job} {lane : Lane} (served : c.Served c' job lane) (has : c'.Has piece) :
    c.Has piece ∨ ∃ topic m, job.request = .add topic m ∧
      c.store.contains topic m.group = false ∧ m.Gives topic piece := by
  rcases has with stored | ⟨other, waiting, waits, brings⟩
  · rw [served.store] at stored
    rcases Store.has_of_react stored with old | added | brought
    · exact Or.inl (Or.inl old)
    · exact Or.inr added
    · exact Or.inl (Or.inr ⟨lane, job, served.mem, brought⟩)
  · exact Or.inl (Or.inr ⟨other, waiting, served.subset other waits, brings⟩)

/-- What a coordinator publishes it has. -/
theorem Served.has_of_publication {job : Job} {lane : Lane} (served : c.Served c' job lane)
    {publication : Publication}
    (published : (c.store.react job.request).publication = some publication)
    (gives : publication.message.Gives publication.topic piece) : c.Has piece := by
  rcases Store.has_of_publication published gives with stored | brought
  · exact Or.inl stored
  · exact Or.inr ⟨lane, job, served.mem, brought⟩

end Coordinator

/-- The peer that an outlet stands for, if the outlet is there. -/
def Carriers.peer? (carriers : Carriers) : Outlet → Option PeerId
  | .endpoint k => carriers.net.peerAt? k
  | .recorder k => carriers.recorders[k]?.map Recorder.peer

theorem Carriers.peerOf_of_peer? {carriers : Carriers} {outlet : Outlet} {peer : PeerId}
    (there : carriers.peer? outlet = some peer) : carriers.peerOf outlet = peer := by
  cases outlet with
  | endpoint k => exact congrArg (·.getD default) there
  | recorder k => exact congrArg (·.getD default) there

/-- Outlets keep their peers if endpoints do, and recorders stay. -/
theorem Carriers.peer?_of_peerAt? {carriers carriers' : Carriers} {outlet : Outlet} {peer : PeerId}
    (there : carriers.peer? outlet = some peer)
    (peers : ∀ {k peer}, carriers.net.peerAt? k = some peer → carriers'.net.peerAt? k = some peer)
    (recorders : carriers'.recorders = carriers.recorders) :
    carriers'.peer? outlet = some peer := by
  cases outlet with
  | endpoint k => exact peers there
  | recorder k =>
    rw [Carriers.peer?, recorders]
    exact there

namespace Exchange

/-! ### Pieces in an exchange -/

/-- A piece is at a peer. -/
inductive At (e : Exchange) (peer : PeerId) (piece : Piece) : Prop
  | coordinator {i : Nat} {station : Station} (here : e.stations[i]? = some station)
      (outlet : e.carriers.peer? station.outlet = some peer) (has : station.coordinator.Has piece) :
      At e peer piece
  | inbox {k : Nat} {envelope : Envelope} (there : e.carriers.net.peerAt? k = some peer)
      (waits : envelope ∈ e.carriers.net.inbox k) (brings : envelope.rpc.Brings piece) :
      At e peer piece
  | pump {p : Nat} {pump : Pump} {job : Job} (here : e.pumps[p]? = some pump)
      (working : pump.finished = false) (there : e.carriers.net.peerAt? pump.endpoint = some peer)
      (holds : pump.held = some job) (brings : job.Brings piece) : At e peer piece

/-- Where pieces are has to do with neither participants nor requests. -/
theorem At.of_eq {e e' : Exchange} {peer : PeerId} {piece : Piece} (has : e'.At peer piece)
    (carriers : e'.carriers = e.carriers) (stations : e'.stations = e.stations)
    (pumps : e'.pumps = e.pumps) : e.At peer piece := by
  cases has with
  | coordinator here outlet has => exact .coordinator (stations ▸ here) (carriers ▸ outlet) has
  | inbox there waits brings => exact .inbox (carriers ▸ there) (carriers ▸ waits) brings
  | pump here working there holds brings =>
    exact .pump (pumps ▸ here) working (carriers ▸ there) holds brings

/-- Every part of an exchange belongs to a transport that is there. -/
structure Placed (e : Exchange) : Prop where
  /-- Calls to a peer arrive at an endpoint of that peer. -/
  registered : ∀ {peer k}, e.carriers.net.endpointOf? peer = some k →
    e.carriers.net.peerAt? k = some peer
  /-- The transport of a participant is there. -/
  site : ∀ {n : Nat} {site : Site}, e.sites[n]? = some site →
    (e.carriers.peer? site.outlet).isSome = true
  /-- The transport of a coordinator is there. -/
  station : ∀ {i : Nat} {station : Station}, e.stations[i]? = some station →
    (e.carriers.peer? station.outlet).isSome = true
  /-- A participant's coordinator uses the participant's transport. -/
  siteStation : ∀ {n i : Nat} {site : Site}, e.sites[n]? = some site → site.station = some i →
    ∃ station : Station, e.stations[i]? = some station ∧ station.outlet = site.outlet
  /-- A pump at work serves a coordinator at its endpoint. -/
  pump : ∀ {p : Nat} {pump : Pump}, e.pumps[p]? = some pump → pump.finished = false →
    ∃ station : Station, e.stations[pump.station]? = some station ∧
      station.outlet = .endpoint pump.endpoint

theorem placed_new (capacity : Nat) : (Exchange.new capacity).Placed where
  registered h := by cases h
  site h := by cases h
  station h := by cases h
  siteStation h := by cases h
  pump h := by cases h

/-- A change after which an exchange is still placed, and a piece is where it was or where the
change may bring it. -/
structure Moves (fresh : PeerId → Piece → Prop) (e e' : Exchange) : Prop where
  /-- Every part still belongs to a transport. -/
  placed : e'.Placed
  /-- Outlets keep their peers. -/
  peer? : ∀ {outlet peer}, e.carriers.peer? outlet = some peer →
    e'.carriers.peer? outlet = some peer
  /-- Links stay. -/
  linked : ∀ {a b}, e.carriers.net.linked a b = true → e'.carriers.net.linked a b = true
  /-- A piece is where it was, or where the change may bring it. -/
  at_cases : ∀ {peer piece}, e'.At peer piece → e.At peer piece ∨ fresh peer piece

namespace Moves

variable {fresh : PeerId → Piece → Prop} {e e' e'' : Exchange}

theorem trans (first : e.Moves fresh e') (second : e'.Moves fresh e'') : e.Moves fresh e'' where
  placed := second.placed
  peer? h := second.peer? (first.peer? h)
  linked h := second.linked (first.linked h)
  at_cases has := (second.at_cases has).elim first.at_cases Or.inr

/-- A change that brings pieces only where they are brings nothing. -/
theorem of_at (moves : e.Moves e.At e') : e.Moves fresh e' :=
  { moves with at_cases := fun has => Or.inl ((moves.at_cases has).elim id id) }

end Moves

namespace Placed

variable {fresh : PeerId → Piece → Prop} {e : Exchange} (placed : e.Placed)

include placed

theorem refl : e.Moves fresh e := ⟨placed, id, id, Or.inl⟩

/-- The endpoint of a pump at work is there. -/
theorem peerAt?_of_pump {p : Nat} {pump : Pump} (here : e.pumps[p]? = some pump)
    (working : pump.finished = false) : (e.carriers.net.peerAt? pump.endpoint).isSome = true := by
  obtain ⟨station, there, outlet⟩ := placed.pump here working
  have present := placed.station there
  rwa [outlet] at present

/-- Replacing a coordinator. -/
theorem putCoordinator {i : Nat} {s : Station} (here : e.stations[i]? = some s) {c : Coordinator}
    (brings : ∀ piece, c.Has piece → s.coordinator.Has piece ∨
      ∀ peer, e.carriers.peer? s.outlet = some peer → fresh peer piece) :
    e.Moves fresh (e.putCoordinator i c) := by
  have kept : ∀ {j : Nat} {t : Station}, e.stations[j]? = some t →
      ∃ t', (e.putCoordinator i c).stations[j]? = some t' ∧ t'.outlet = t.outlet := by
    intro j t there
    rw [getElem?_putCoordinator, there]
    split
    · exact ⟨_, rfl, rfl⟩
    · exact ⟨t, rfl, rfl⟩
  refine
    { placed :=
        { placed with
          station := fun {j t} there => ?station
          siteStation := fun {n j site} at_n has => ?siteStation
          pump := fun {p a} at_p working => ?serves }
      peer? := id
      linked := id
      at_cases := fun {peer piece} has => ?at_cases }
  case station =>
    obtain ⟨old, before, same, -⟩ := of_getElem?_putCoordinator there
    rw [same]
    exact placed.station before
  case siteStation =>
    obtain ⟨t, there, outlet⟩ := placed.siteStation at_n has
    obtain ⟨t', there', same⟩ := kept there
    exact ⟨t', there', same.trans outlet⟩
  case serves =>
    obtain ⟨t, there, outlet⟩ := placed.pump at_p working
    obtain ⟨t', there', same⟩ := kept there
    exact ⟨t', there', same.trans outlet⟩
  case at_cases =>
    cases has with
    | inbox there waits brings => exact Or.inl (.inbox there waits brings)
    | pump at_p working there holds brings => exact Or.inl (.pump at_p working there holds brings)
    | @coordinator j t there outlet has =>
      obtain ⟨old, before, same, ⟨rfl, new⟩ | rfl⟩ := of_getElem?_putCoordinator there
      · rw [here] at before
        obtain rfl := Option.some.inj before
        rw [new] at has
        rw [same] at outlet
        rcases brings _ has with old | brought
        · exact Or.inl (.coordinator here outlet old)
        · exact Or.inr (brought _ outlet)
      · exact Or.inl (.coordinator before outlet has)

/-- Replacing a coordinator by one after a sender's attempt. -/
theorem fed {i : Nat} {s : Station} (here : e.stations[i]? = some s) {c : Coordinator}
    {entered : Option Job} (fed : s.coordinator.Fed c entered)
    (brings : ∀ job piece, entered = some job → job.Brings piece →
      ∀ peer, e.carriers.peer? s.outlet = some peer → fresh peer piece) :
    e.Moves fresh (e.putCoordinator i c) := by
  refine placed.putCoordinator here ?_
  intro piece has
  rcases fed.has has with old | ⟨job, entered, brought⟩
  · exact Or.inl old
  · exact Or.inr (brings job piece entered brought)

/-- The end of a coordinator. -/
theorem closeCoordinator {i : Nat} {s : Station} (here : e.stations[i]? = some s) :
    e.Moves fresh (e.putCoordinator i s.coordinator.close) :=
  placed.putCoordinator here fun _ has => Or.inl (Coordinator.has_of_close has)

/-- Changing transports without taking any away, with calls arriving only where they may. -/
theorem withCarriers {carriers : Carriers}
    (registered : ∀ {peer k}, carriers.net.endpointOf? peer = some k →
      carriers.net.peerAt? k = some peer)
    (peer? : ∀ {outlet peer}, e.carriers.peer? outlet = some peer →
      carriers.peer? outlet = some peer)
    (linked : ∀ {a b}, e.carriers.net.linked a b = true → carriers.net.linked a b = true)
    (arrives : ∀ {k peer envelope}, carriers.net.peerAt? k = some peer →
      envelope ∈ carriers.net.inbox k →
        (e.carriers.net.peerAt? k = some peer ∧ envelope ∈ e.carriers.net.inbox k) ∨
          ∀ piece, envelope.rpc.Brings piece → fresh peer piece) :
    e.Moves fresh { e with carriers } := by
  -- A transport that was there before stands for the same peer as then.
  have still : ∀ {outlet peer}, (e.carriers.peer? outlet).isSome = true →
      carriers.peer? outlet = some peer → e.carriers.peer? outlet = some peer := by
    intro outlet peer present after
    obtain ⟨before, there⟩ := Option.isSome_iff_exists.1 present
    have same := peer? there
    rw [after] at same
    rw [there, same]
  have stays : ∀ {outlet}, (e.carriers.peer? outlet).isSome = true →
      (carriers.peer? outlet).isSome = true := by
    intro outlet present
    obtain ⟨peer, there⟩ := Option.isSome_iff_exists.1 present
    exact Option.isSome_of_mem (peer? there)
  refine
    { placed :=
        { placed with
          registered := registered
          site := fun at_n => stays (placed.site at_n)
          station := fun here => stays (placed.station here) }
      peer? := peer?
      linked := linked
      at_cases := ?_ }
  intro peer piece has
  cases has with
  | coordinator here outlet has =>
    exact Or.inl (.coordinator here (still (placed.station here) outlet) has)
  | inbox there waits brings =>
    rcases arrives there waits with ⟨before, old⟩ | new
    · exact Or.inl (.inbox before old brings)
    · exact Or.inr (new _ brings)
  | @pump p pump job here working there holds brings =>
    refine Or.inl (.pump here working ?_ holds brings)
    exact @still (.endpoint pump.endpoint) _ (placed.peerAt?_of_pump here working) there

/-- Changing an endpoint whose peer stays, and in whose inbox nothing arrives. -/
theorem modify (k : Nat) {change : Endpoint → Endpoint} (peer : ∀ self, (change self).peer = self.peer)
    (inbox : ∀ self, (change self).inbox ⊆ self.inbox) :
    e.Moves fresh (e.withNet (e.carriers.net.modify k change)) := by
  have peers : ∀ j, (e.carriers.net.modify k change).peerAt? j = e.carriers.net.peerAt? j :=
    Network.peerAt?_modify peer
  refine placed.withCarriers (fun found => (peers _).trans (placed.registered found)) ?_ id ?_
  · intro outlet peer there
    exact Carriers.peer?_of_peerAt? there (fun before => (peers _).trans before) rfl
  · intro j peer envelope there waits
    refine Or.inl ⟨(peers j).symm.trans there, ?_⟩
    cases present : e.carriers.net.endpoints[k]? with
    | none =>
      rwa [Network.modify, List.modify_eq_self (List.getElem?_eq_none_iff.1 present)] at waits
    | some self =>
      change envelope ∈ (e.carriers.net.modify k change).inbox j at waits
      rw [Network.inbox_modify present] at waits
      split at waits
      · rename_i same
        rw [same, Network.inbox_of_present present]
        exact inbox self waits
      · exact waits

/-- Closing an inbox. -/
theorem close (k : Nat) : e.Moves fresh (e.withNet (e.carriers.net.modify k Endpoint.close)) :=
  placed.modify k (fun _ => rfl) fun _ => List.nil_subset _

/-- Replacing a pump. -/
theorem putPump {p : Nat} {a b : Pump} (here : e.pumps[p]? = some a)
    (working : b.finished = false → a.finished = false) (endpoint : b.endpoint = a.endpoint)
    (station : b.station = a.station)
    (holds : ∀ job piece, b.held = some job → job.Brings piece →
      ∀ peer, e.carriers.net.peerAt? a.endpoint = some peer → fresh peer piece) :
    e.Moves fresh (e.putPump p b) := by
  have pumps : ∀ {q : Nat} {x : Pump}, (e.putPump p b).pumps[q]? = some x →
      (q = p ∧ x = b) ∨ e.pumps[q]? = some x := by
    intro q x there
    change (e.pumps.set p b)[q]? = some x at there
    rw [List.getElem?_set] at there
    split at there
    · rename_i same
      split at there
      · exact Or.inl ⟨same.symm, (Option.some.inj there).symm⟩
      · cases there
    · exact Or.inr there
  refine
    { placed := { placed with pump := fun {q x} at_q works => ?serves }
      peer? := id
      linked := id
      at_cases := fun {peer piece} has => ?at_cases }
  case serves =>
    rcases pumps at_q with ⟨rfl, rfl⟩ | old
    · rw [endpoint, station]
      exact placed.pump here (working works)
    · exact placed.pump old works
  case at_cases =>
    cases has with
    | coordinator at_i outlet has => exact Or.inl (.coordinator at_i outlet has)
    | inbox there waits brings => exact Or.inl (.inbox there waits brings)
    | pump at_q works there held brings =>
      rcases pumps at_q with ⟨rfl, rfl⟩ | old
      · rw [endpoint] at there
        exact Or.inr (holds _ _ held brings _ there)
      · exact Or.inl (.pump old works there held brings)

/-- The end of a pump. -/
theorem endPump (p : Nat) : e.Moves fresh (e.endPump p) := by
  rw [Exchange.endPump]
  split
  · exact placed.refl
  · rename_i pump here
    split
    · exact placed.refl
    · have closed : e.Moves fresh _ := placed.close pump.endpoint
      refine closed.trans (@putPump _ _ closed.placed p pump _ here (fun h => by cases h) rfl rfl ?_)
      intro job piece held
      cases held

/-- A request's later attempt. -/
theorem resume {i : Nat} {job : Job}
    (brings : ∀ s, e.stations[i]? = some s → ∀ piece, job.Brings piece →
      ∀ peer, e.carriers.peer? s.outlet = some peer → fresh peer piece) :
    e.Moves fresh (e.resume i job).1 := by
  rw [Exchange.resume]
  split
  · exact placed.refl
  · rename_i s here
    dsimp only
    rw [setStation_eq here]
    refine placed.fed here (s.coordinator.fed_resume job) ?_
    intro entering piece entered brought
    split at entered
    · obtain rfl := Option.some.inj entered
      exact brings s here piece brought
    · cases entered

/-- A request's first attempt. -/
theorem submit {e' : Exchange} {i : Nat} {request : Request} {job : Job} {sending : Sending}
    (made : e.submit i request = some (e', job, sending))
    (brings : ∀ s, e.stations[i]? = some s → ∀ d, request = .rpc d → ∀ piece, d.rpc.Brings piece →
      ∀ peer, e.carriers.peer? s.outlet = some peer → fresh peer piece) : e.Moves fresh e' := by
  rw [Exchange.submit] at made
  split at made
  · cases made
  · rename_i s here
    cases made
    rw [setStation_eq here]
    refine placed.fed here (s.coordinator.fed_submit request) ?_
    intro entering piece entered brought
    split at entered
    · obtain rfl := Option.some.inj entered
      obtain ⟨d, call, carries⟩ := brought
      exact brings s here d call piece carries
    · cases entered

/-- A pump after an attempt to hand a call over. -/
theorem afterHandOver {p : Nat} {pump : Pump} (here : e.pumps[p]? = some pump) {job : Job}
    (brings : ∀ piece, job.Brings piece →
      ∀ peer, e.carriers.net.peerAt? pump.endpoint = some peer → fresh peer piece)
    (sending : Sending) : e.Moves fresh (e.afterHandOver p pump job sending) := by
  cases sending with
  | sent =>
    refine placed.putPump here id rfl rfl ?_
    intro other piece held
    cases held
  | waiting =>
    refine placed.putPump here id rfl rfl ?_
    intro other piece held brought
    obtain rfl := Option.some.inj held
    exact brings piece brought
  | refused => exact placed.endPump p

/-- Taking a call out of an inbox brings nothing. -/
theorem receive {k : Nat} {envelope : Envelope} {net : Network}
    (taken : e.carriers.net.receive? k = some (envelope, net)) : e.Moves fresh (e.withNet net) := by
  have received := Network.received taken
  refine placed.withCarriers ?_ ?_ ?_ ?_
  · intro peer j found
    rw [received.peerAt?]
    exact placed.registered ((received.endpointOf? _).symm.trans found)
  · intro outlet peer there
    exact Carriers.peer?_of_peerAt? there (fun before => (received.peerAt? _).trans before) rfl
  · intro a b link
    rwa [received.linked]
  · intro j peer other there waits
    refine Or.inl ⟨(received.peerAt? j).symm.trans there, ?_⟩
    by_cases same : j = k
    · rw [same] at waits ⊢
      rw [received.head]
      exact List.mem_cons_of_mem _ waits
    · rwa [← received.others j same]

section Pump

variable {p : Nat} {pump : Pump} (here : e.pumps[p]? = some pump) (working : pump.finished = false)

include here working

/-- A call that a pump tries to hand over once more comes from its own hands. -/
theorem retries {job : Job} (held : pump.held = some job) :
    e.Moves fresh ((e.resume pump.station job).1.afterHandOver p pump job
      (e.resume pump.station job).2) := by
  obtain ⟨s, there, outlet⟩ := placed.pump here working
  have brings : ∀ piece, job.Brings piece →
      ∀ peer, e.carriers.net.peerAt? pump.endpoint = some peer → e.At peer piece :=
    fun piece brought peer at_k => .pump here working at_k held brought
  have resumed : e.Moves e.At (e.resume pump.station job).1 := by
    refine placed.resume ?_
    intro t at_i piece brought peer at_k
    refine brings piece brought peer ?_
    obtain rfl := Option.some.inj (there.symm.trans at_i)
    rwa [outlet] at at_k
  rw [resume_of_station there] at resumed ⊢
  exact (resumed.trans (resumed.placed.afterHandOver here brings _)).of_at

/-- A call that a pump takes and hands over comes from the inbox. -/
theorem takes {envelope : Envelope} {net : Network} {e₁ : Exchange} {job : Job} {sending : Sending}
    (taken : e.carriers.net.receive? pump.endpoint = some (envelope, net))
    (made : (e.withNet net).submit pump.station (.rpc envelope.delivery) =
      some (e₁, job, sending)) : e.Moves fresh (e₁.afterHandOver p pump job sending) := by
  obtain ⟨s, there, outlet⟩ := placed.pump here working
  have received := Network.received taken
  have waits : envelope ∈ e.carriers.net.inbox pump.endpoint := by
    rw [received.head]
    exact List.mem_cons_self
  have brings : ∀ piece, envelope.rpc.Brings piece →
      ∀ peer, net.peerAt? pump.endpoint = some peer → e.At peer piece :=
    fun piece brought peer at_k => .inbox ((received.peerAt? _).symm.trans at_k) waits brought
  have taking : e.Moves e.At (e.withNet net) := placed.receive taken
  have there' : (e.withNet net).stations[pump.station]? = some s := there
  have submitted : e.Moves e.At e₁ := by
    refine taking.trans (taking.placed.submit made ?_)
    intro t at_i d call piece brought peer at_k
    cases call
    obtain rfl := Option.some.inj (there'.symm.trans at_i)
    rw [outlet] at at_k
    exact brings piece brought peer at_k
  rw [submit_of_station there'] at made
  cases made
  refine (submitted.trans (submitted.placed.afterHandOver here ?_ _)).of_at
  rintro piece ⟨d, call, brought⟩ peer at_k
  cases call
  exact brings piece brought peer at_k

end Pump

/-- A pump's step brings nothing. -/
theorem pumpStep? {p : Nat} {e' : Exchange} (step : e.pumpStep? p = some e') :
    e.Moves fresh e' := by
  obtain ⟨pump, here, working, kind⟩ := pumpStep_of_pumpStep? step
  cases kind with
  | retries held goes => exact placed.retries here working held
  | takes idle taken made => exact placed.takes here working taken made
  | loses idle taken nobody =>
    have taking : e.Moves fresh _ := placed.receive taken
    exact taking.trans (taking.placed.endPump p)
  | retires => exact placed.endPump p

/-- What a recorder publishes does not travel. -/
theorem publish_recorder (k : Nat) (publication : Publication) : e.Moves fresh
    { e with carriers := (Carriers.publish (.recorder k) e.carriers publication).1 } := by
  have net := Carriers.publish_recorder_net k e.carriers publication
  refine placed.withCarriers ?_ ?_ ?_ ?_
  · rw [net]
    exact placed.registered
  · intro outlet peer there
    cases outlet with
    | endpoint j =>
      rw [Carriers.peer?, net]
      exact there
    | recorder j =>
      simp only [Carriers.publish]
      split
      · exact there
      · rename_i recorder found
        split
        · exact there
        · rw [Carriers.peer?, List.getElem?_set]
          split
          · rename_i same
            subst same
            rw [Carriers.peer?, found] at there
            rw [if_pos (List.getElem?_eq_some_iff.1 found).1]
            exact there
          · exact there
  · rw [net]
    exact id
  · rw [net]
    exact fun there waits => Or.inl ⟨there, waits⟩

/-- A publication takes pieces of its message along links. -/
theorem publish {outlet : Outlet} {publication : Publication}
    (brings : ∀ piece, publication.message.Gives publication.topic piece → ∀ self peer,
      e.carriers.peer? outlet = some self → e.carriers.net.linked self peer = true →
        fresh peer piece) :
    e.Moves fresh { e with carriers := (Carriers.publish outlet e.carriers publication).1 } := by
  cases outlet with
  | recorder k => exact placed.publish_recorder k publication
  | endpoint k =>
    have net := Network.net_publish e.carriers k publication
    have spreads := Network.spreads_carry e.carriers.net k publication
    have recorders : (Carriers.publish (.endpoint k) e.carriers publication).1.recorders =
        e.carriers.recorders := by
      simp only [Carriers.publish]
      split <;> rfl
    refine placed.withCarriers ?_ ?_ ?_ ?_
    · intro peer j found
      rw [net, spreads.endpointOf?] at found
      rw [net, spreads.peerAt?]
      exact placed.registered found
    · intro outlet peer there
      refine Carriers.peer?_of_peerAt? there ?_ recorders
      intro j peer before
      rw [net, spreads.peerAt?, before]
    · intro a b link
      rwa [net, spreads.linked]
    · intro j peer envelope there waits
      rw [net, spreads.peerAt?] at there
      rw [net, spreads.inbox, List.mem_append] at waits
      rcases waits with old | arrived
      · exact Or.inl ⟨there, old⟩
      · -- What arrives was sent by the publishing peer to one that it is linked to.
        right
        obtain ⟨sender, target, known, origin, listed, found, form, -⟩ :=
          spreads.arrival j envelope arrived
        obtain ⟨self, origin', link⟩ := Network.linked_of_mem_targets listed
        obtain rfl := Option.some.inj (origin.symm.trans origin')
        obtain rfl := Option.some.inj ((placed.registered found).symm.trans there)
        intro piece brought
        rw [form] at brought
        exact brings piece (Rpc.gives_of_update brought) _ _ origin link

end Placed

/-- Where an action may bring a piece: to a peer linked to one where it is, or where its message is
added. -/
def Fresh (e : Exchange) (action : Action) (peer : PeerId) (piece : Piece) : Prop :=
  (∃ other, e.carriers.net.linked other peer = true ∧ e.At other piece) ∨
    ∃ insertion, e.insertion? action = some insertion ∧ insertion.peer = peer ∧
      insertion.message.Gives insertion.topic piece

namespace Placed

variable {fresh : PeerId → Piece → Prop} {e : Exchange} (placed : e.Placed)

include placed

/-- A coordinator's step takes pieces along links, and adds what it has been told to add. -/
theorem stationStep? {i : Nat} {e' : Exchange} (step : e.stationStep? i = some e') :
    e.Moves (e.Fresh (.serve i)) e' := by
  obtain ⟨s, here, -, ⟨-, rfl⟩ | ⟨job, lane, c', upcoming, served, rfl⟩⟩ :=
    stationStep?_eq_some step
  · exact placed.closeCoordinator here
  · have served_moves : e.Moves (e.Fresh (.serve i)) (e.putCoordinator i c') := by
      refine placed.putCoordinator here ?_
      intro piece has
      rcases served.has has with old | ⟨topic, m, added, absent, gives⟩
      · exact Or.inl old
      · -- What is new has been added, at the peer of the coordinator.
        right
        intro peer outlet
        refine Or.inr ⟨⟨peer, topic, m⟩, ?_, rfl, gives⟩
        obtain ⟨id, request⟩ := job
        dsimp only at added
        subst added
        simp only [insertion?, here, Option.bind_some, upcoming, absent, Bool.false_eq_true,
          if_false, Carriers.peerOf_of_peer? outlet]
    cases published : (s.coordinator.store.react job.request).publication with
    | none => exact served_moves
    | some publication =>
      refine served_moves.trans (served_moves.placed.publish ?_)
      intro piece gives self peer outlet link
      refine Or.inl ⟨self, link, ?_⟩
      exact .coordinator here outlet (served.has_of_publication published gives)

/-- Changing the list of participants. -/
theorem withSites {sites : List Site}
    (site : ∀ {n : Nat} {site : Site}, sites[n]? = some site →
      (e.carriers.peer? site.outlet).isSome = true)
    (siteStation : ∀ {n i : Nat} {site : Site}, sites[n]? = some site → site.station = some i →
      ∃ station : Station, e.stations[i]? = some station ∧ station.outlet = site.outlet) :
    e.Moves fresh { e with sites } := by
  exact
    { placed := { placed with site := site, siteStation := siteStation }
      peer? := id
      linked := id
      at_cases := fun has => Or.inl (has.of_eq rfl rfl rfl) }

/-- A participant joins on a transport that is there. -/
theorem addSite {outlet : Outlet} (there : (e.carriers.peer? outlet).isSome = true) :
    e.Moves fresh { e with sites := e.sites ++ [{ outlet }] } := by
  refine placed.withSites ?_ ?_
  · intro n site at_n
    rcases of_getElem?_concat at_n with old | rfl
    · exact placed.site old
    · exact there
  · intro n i site at_n has
    rcases of_getElem?_concat at_n with old | rfl
    · exact placed.siteStation old has
    · cases has

/-- A participant changes in nothing that concerns its transport and its coordinator. -/
theorem modifySite (n : Nat) {change : Site → Site} (outlet : ∀ s, (change s).outlet = s.outlet)
    (station : ∀ s, (change s).station = s.station) : e.Moves fresh (e.modifySite n change) := by
  have sites : ∀ {k : Nat} {site : Site}, (e.sites.modify n change)[k]? = some site →
      ∃ old, e.sites[k]? = some old ∧ site.outlet = old.outlet ∧ site.station = old.station := by
    intro k site at_k
    rw [List.getElem?_modify] at at_k
    obtain ⟨old, before, rfl⟩ := Option.map_eq_some_iff.1 at_k
    refine ⟨old, before, ?_⟩
    split
    · exact ⟨outlet old, station old⟩
    · exact ⟨rfl, rfl⟩
  refine placed.withSites ?_ ?_
  · intro k site at_k
    obtain ⟨old, before, same, -⟩ := sites at_k
    rw [same]
    exact placed.site before
  · intro k i site at_k has
    obtain ⟨old, before, same, same'⟩ := sites at_k
    rw [same'] at has
    rw [same]
    exact placed.siteStation before has

/-- A coordinator is added where a transport is. -/
theorem addStation {outlet : Outlet} (there : (e.carriers.peer? outlet).isSome = true)
    (config : CoordinatorConfig) :
    e.Moves fresh { e with stations := e.stations ++ [⟨outlet, .new config⟩] } := by
  refine
    { placed :=
        { placed with
          station := fun {j t} at_j => ?station
          siteStation := fun {n j site} at_n has => ?siteStation
          pump := fun {p a} at_p working => ?serves }
      peer? := id
      linked := id
      at_cases := fun {peer piece} has => ?at_cases }
  case station =>
    rcases of_getElem?_concat at_j with old | rfl
    · exact placed.station old
    · exact there
  case siteStation =>
    obtain ⟨t, before, same⟩ := placed.siteStation at_n has
    exact ⟨t, getElem?_concat_of_some before _, same⟩
  case serves =>
    obtain ⟨t, before, same⟩ := placed.pump at_p working
    exact ⟨t, getElem?_concat_of_some before _, same⟩
  case at_cases =>
    cases has with
    | inbox there waits brings => exact Or.inl (.inbox there waits brings)
    | pump here working there holds brings => exact Or.inl (.pump here working there holds brings)
    | coordinator at_j outlet has =>
      rcases of_getElem?_concat at_j with old | rfl
      · exact Or.inl (.coordinator old outlet has)
      · exact absurd has (Coordinator.not_has_new config)

/-- A pump is added where a coordinator is, with nothing in its hands. -/
theorem addPump {pump : Pump} (idle : pump.held = none)
    (serves : pump.finished = false → ∃ station : Station, e.stations[pump.station]? = some station ∧
      station.outlet = .endpoint pump.endpoint) :
    e.Moves fresh { e with pumps := e.pumps ++ [pump] } := by
  refine
    { placed := { placed with pump := fun {p a} at_p working => ?served }
      peer? := id
      linked := id
      at_cases := fun {peer piece} has => ?at_cases }
  case served =>
    rcases of_getElem?_concat at_p with old | rfl
    · exact placed.pump old working
    · exact serves working
  case at_cases =>
    cases has with
    | coordinator here outlet has => exact Or.inl (.coordinator here outlet has)
    | inbox there waits brings => exact Or.inl (.inbox there waits brings)
    | pump at_p working there holds brings =>
      rcases of_getElem?_concat at_p with old | rfl
      · exact Or.inl (.pump old working there holds brings)
      · rw [idle] at holds
        cases holds

/-- The requests of an exchange hold nothing. -/
theorem withCalls (calls : List Call) : e.Moves fresh { e with calls } where
  placed := { placed with }
  peer? := id
  linked := id
  at_cases has := Or.inl (has.of_eq rfl rfl rfl)

/-- Changing a coordinator so that it has nothing new. -/
theorem modifyCoordinator (i : Nat) {change : Coordinator → Coordinator}
    (keeps : ∀ c piece, (change c).Has piece → c.Has piece) :
    e.Moves fresh (e.modifyCoordinator i change) := by
  cases here : e.stations[i]? with
  | none =>
    rw [Exchange.modifyCoordinator, List.modify_eq_self (List.getElem?_eq_none_iff.1 here)]
    exact placed.refl
  | some s =>
    rw [modifyCoordinator_eq here]
    exact placed.putCoordinator here fun piece has => Or.inl (keeps _ piece has)

/-- A sender that sends nothing brings nothing. -/
theorem still (i : Nat) {change : Coordinator → Coordinator}
    (idle : ∀ c : Coordinator, c.Fed (change c) none) :
    e.Moves fresh (e.modifyCoordinator i change) := by
  refine placed.modifyCoordinator i ?_
  intro c piece has
  rcases (idle c).has has with old | ⟨job, entered, -⟩
  · exact old
  · cases entered

/-- A coordinator that nobody polls any more ends. -/
theorem endStation (station : Option Nat) : e.Moves fresh (e.endStation station) := by
  cases station with
  | none => exact placed.refl
  | some i => exact placed.modifyCoordinator i fun _ _ has => Coordinator.has_of_close has

/-- A participant joins with an endpoint. -/
theorem join (peer : PeerId) : e.Moves fresh (e.joinNetwork peer).1 := by
  let net := (e.carriers.net.register peer).1
  have peers : ∀ k, net.peerAt? k =
      if k = e.carriers.net.endpoints.length then some peer else e.carriers.net.peerAt? k :=
    Network.peerAt?_register _ _
  have stays : ∀ {k other}, e.carriers.net.peerAt? k = some other → net.peerAt? k = some other := by
    intro k other there
    rw [peers, if_neg, there]
    rintro rfl
    rw [Network.peerAt?_length] at there
    cases there
  have registered : e.Moves fresh (e.withNet net) := by
    refine placed.withCarriers ?_ ?_ id ?_
    · intro other k found
      change net.endpointOf? other = some k at found
      rw [show net.endpointOf? other = _ from Network.endpointOf?_register _ _ other] at found
      split at found
      · rename_i same
        obtain rfl := Option.some.inj found
        exact (peers _).trans (by rw [if_pos rfl, same])
      · exact stays (placed.registered found)
    · intro outlet other there
      exact Carriers.peer?_of_peerAt? there stays rfl
    · intro k other envelope there waits
      have old : envelope ∈ e.carriers.net.inbox k :=
        (Network.inbox_register e.carriers.net peer k) ▸ waits
      refine Or.inl ⟨?_, old⟩
      change net.peerAt? k = some other at there
      rw [peers] at there
      split at there
      · rename_i new
        rw [new, Network.inbox, List.getElem?_eq_none (Nat.le_refl _)] at old
        cases old
      · exact there
  refine registered.trans (registered.placed.addSite ?_)
  exact Option.isSome_of_mem ((peers _).trans (if_pos rfl))

/-- A participant joins with a recorder. -/
theorem record (peer : PeerId) : e.Moves fresh (e.joinRecorder peer).1 := by
  have added : e.Moves fresh
      { e with carriers :=
        { e.carriers with recorders := e.carriers.recorders ++ [{ peer }] } } := by
    refine placed.withCarriers placed.registered ?_ id fun there waits => Or.inl ⟨there, waits⟩
    intro outlet other there
    cases outlet with
    | endpoint k => exact there
    | recorder k =>
      obtain ⟨recorder, found, same⟩ := Option.map_eq_some_iff.1 there
      rw [Carriers.peer?, getElem?_concat_of_some found]
      exact congrArg some same
  refine added.trans (added.placed.addSite ?_)
  rw [Carriers.peer?, List.getElem?_concat_length]
  rfl

/-- A participant gets a coordinator, in place of one that it may have had. -/
theorem attach {n : Nat} {s : Site} (at_n : e.sites[n]? = some s) (config : CoordinatorConfig) :
    e.Moves fresh (e.attach n config) := by
  have ended : e.Moves fresh _ := placed.endStation s.station
  have rest : (e.endStation s.station).sites = e.sites ∧
      (e.endStation s.station).carriers = e.carriers := by
    cases s.station <;> exact ⟨rfl, rfl⟩
  let e₁ := e.endStation s.station
  have there : (e₁.carriers.peer? s.outlet).isSome = true := by
    rw [show e₁.carriers = e.carriers from rest.2]
    exact placed.site at_n
  have added : e₁.Moves fresh _ := ended.placed.addStation there config
  refine (ended.trans added).trans ?_
  rw [Exchange.attach, at_n]
  let change : Site → Site := fun s =>
    { s with station := some e₁.stations.length, handle := true }
  have sites : ∀ {k : Nat} {site : Site}, (e₁.sites.modify n change)[k]? = some site →
      (k = n ∧ site = change s) ∨ e₁.sites[k]? = some site := by
    intro k site at_k
    rw [List.getElem?_modify] at at_k
    obtain ⟨old, before, rfl⟩ := Option.map_eq_some_iff.1 at_k
    split
    · rename_i same
      subst same
      rw [show e₁.sites = e.sites from rest.1, at_n] at before
      obtain rfl := Option.some.inj before
      exact Or.inl ⟨rfl, rfl⟩
    · exact Or.inr before
  refine @withSites _ _ added.placed (e₁.sites.modify n change) ?_ ?_
  · intro k site at_k
    rcases sites at_k with ⟨-, rfl⟩ | old
    · exact there
    · exact added.placed.site old
  · intro k i site at_k has
    rcases sites at_k with ⟨-, rfl⟩ | old
    · obtain rfl := Option.some.inj has
      exact ⟨_, List.getElem?_concat_length, rfl⟩
    · exact added.placed.siteStation old has

/-- A participant with a coordinator gets a pump. -/
theorem openPump {n i number : Nat} {s : Site} {e' : Exchange} (at_n : e.sites[n]? = some s)
    (has : s.station = some i) (opened : e.openPump n = .ok (e', number)) : e.Moves fresh e' := by
  obtain ⟨station, there, same⟩ := placed.siteStation at_n has
  cases opens_openPump at_n opened with
  | @recorder k outlet =>
    have added : e.Moves fresh _ :=
      @addPump _ _ placed { endpoint := k, station := s.station.getD 0, finished := true } rfl
        fun working => by cases working
    exact added.trans (added.placed.modifySite n (fun _ => rfl) fun _ => rfl)
  | @endpoint k self outlet =>
    rw [outlet] at same
    have added : e.Moves fresh _ :=
      @addPump _ _ placed { endpoint := k, station := s.station.getD 0 } rfl fun _ =>
        ⟨station, by rw [has]; exact there, same⟩
    have read := @modify fresh _ added.placed k (fun k => { k with reading := .pumped })
      (fun _ => rfl) fun _ => List.Subset.refl _
    exact (added.trans read).trans (read.placed.modifySite n (fun _ => rfl) fun _ => rfl)

/-- A pump ends, if there is one. -/
theorem endReader (pump : Option Nat) : e.Moves fresh (e.endReader pump) := by
  cases pump with
  | none => exact placed.refl
  | some p => exact placed.endPump p

/-- Two peers are linked. -/
theorem connect {a b : PeerId} {net : Network} (made : e.carriers.net.connect a b = .ok net) :
    e.Moves fresh (e.withNet net) := by
  have connected := Network.connected made
  refine placed.withCarriers ?_ ?_ (fun linked => connected.linked.2 (Or.inl linked)) ?_
  · intro peer k found
    rw [connected.endpointOf?] at found
    exact (connected.peerAt? k).trans (placed.registered found)
  · intro outlet peer there
    exact Carriers.peer?_of_peerAt? there (fun before => (connected.peerAt? _).trans before) rfl
  · intro k peer envelope there waits
    refine Or.inl ⟨(connected.peerAt? k).symm.trans there, ?_⟩
    rwa [connected.inbox] at waits

/-- A transport is given up. -/
theorem releaseOutlet (outlet : Outlet) : e.Moves fresh (e.releaseOutlet outlet) := by
  unfold Exchange.releaseOutlet
  split
  · exact placed.refl
  · split
    · exact placed.refl
    · exact placed.close _

/-- A participant leaves. -/
theorem leave (n : Nat) : e.Moves fresh (e.leave n) := by
  rw [Exchange.leave]
  split
  · exact placed.refl
  · rename_i s at_n
    have ended : e.Moves fresh _ := placed.endStation s.station
    have drained : e.Moves fresh _ := ended.trans (ended.placed.endReader s.pump)
    have gone := drained.trans (@modifySite _ _ drained.placed n
      (fun s => { s with handle := false, present := false }) (fun _ => rfl) fun _ => rfl)
    exact gone.trans (gone.placed.releaseOutlet s.outlet)

end Placed

/-! ### Actions -/

/-- Parts come from outside only by requests to add a message. -/
def AddsOnly (_ : Exchange) : Action → Prop
  | .request _ (.rpc d) => d.rpc.parts = []
  | .transmit _ publication => publication.message.available = .empty
  | _ => True

instance (e : Exchange) : DecidablePred e.AddsOnly := fun action =>
  match action with
  | .request _ (.rpc d) => inferInstanceAs (Decidable (d.rpc.parts = []))
  | .transmit _ publication => inferInstanceAs (Decidable (publication.message.available = .empty))
  | .request _ (.add _ _) | .request _ (.publish _ _ _) | .request _ (.get _ _) | .join _
  | .record _ | .share _ | .attach _ _ | .openPump _ | .connect _ _ | .poll _ | .abandon _
  | .serve _ | .pump _ | .askStop _ | .dropHandle _ | .leave _ => inferInstanceAs (Decidable True)

/-- No request that may be polled brings parts. -/
def Bare (e : Exchange) : Prop :=
  ∀ call ∈ e.calls, ∀ d, call.job.request = .rpc d → d.rpc.parts = []

namespace Placed

variable {fresh : PeerId → Piece → Prop} {e : Exchange} (placed : e.Placed)

include placed

/-- A request without parts is made. -/
theorem call (i : Nat) {request : Request} (bare : ∀ d, request = .rpc d → d.rpc.parts = []) :
    e.Moves fresh (e.call i request).1 := by
  rw [Exchange.call]
  split
  · exact placed.withCalls _
  · rename_i e₁ job sending made
    have submitted : e.Moves fresh e₁ := placed.submit made fun s here d call piece brought =>
      absurd brought (Rpc.not_brings (bare d call) piece)
    exact submitted.trans (submitted.placed.withCalls _)

/-- A request without parts is polled. -/
theorem pollCall (number : Nat) (bare : e.Bare) : e.Moves fresh (e.pollCall number).1 := by
  rw [Exchange.pollCall]
  split
  · exact placed.refl
  · rename_i call made
    have advanced : e.Moves fresh (e.advance call).1 := by
      unfold advance
      split
      · exact placed.refl
      · exact placed.refl
      · refine placed.resume ?_
        intro s here piece brought
        obtain ⟨d, asks, brings⟩ := brought
        exact absurd brings (Rpc.not_brings (bare call (List.mem_of_getElem? made) d asks) piece)
      · split
        · exact placed.refl
        · split <;> exact placed.refl
    exact advanced.trans (advanced.placed.withCalls _)

/-- A request is given up. -/
theorem abandon (number : Nat) : e.Moves fresh (e.abandon number) := by
  rw [Exchange.abandon]
  split
  · exact placed.refl
  · rename_i call made
    have withdrawn : e.Moves fresh (if call.stage = .waiting then
        e.modifyCoordinator call.station (·.withdraw call.job) else e) := by
      split
      · exact placed.still _ fun c => c.fed_withdraw call.job
      · exact placed.refl
    dsimp only
    split
    · exact withdrawn.trans (withdrawn.placed.withCalls _)
    · exact withdrawn

/-- What an action does to parts, when parts come from outside only by requests to add a message. -/
theorem moves {action : Action} {e' : Exchange} (bare : e.Bare) (adds : e.AddsOnly action)
    (acts : e.act? action = some e') : e.Moves (e.Fresh action) e' := by
  cases action with
  | join peer =>
    obtain rfl := Option.some.inj acts
    exact placed.join peer
  | record peer =>
    obtain rfl := Option.some.inj acts
    exact placed.record peer
  | share n =>
    obtain ⟨s, here, rfl⟩ := Option.map_eq_some_iff.1 acts
    exact placed.addSite (placed.site (site_of_presentSite? here))
  | attach n config =>
    obtain ⟨s, here, rfl⟩ := Option.map_eq_some_iff.1 acts
    exact placed.attach (site_of_presentSite? here) config
  | openPump n =>
    obtain ⟨s, i, number, at_n, has, opened⟩ := openPump_of_act? acts
    exact placed.openPump at_n has opened
  | connect a b =>
    obtain ⟨net, made, rfl⟩ := connect_of_act? acts
    exact placed.connect made
  | request i request =>
    obtain rfl := Option.some.inj acts
    refine placed.call i ?_
    intro d call
    subst call
    exact adds
  | poll number =>
    obtain rfl := Option.some.inj acts
    exact placed.pollCall number bare
  | abandon number =>
    obtain rfl := Option.some.inj acts
    exact placed.abandon number
  | transmit n publication =>
    obtain ⟨s, -, rfl⟩ := Option.map_eq_some_iff.1 acts
    refine placed.publish ?_
    intro piece gives
    obtain ⟨-, -, held⟩ := gives
    have nothing : publication.message.available = .empty := adds
    have absent : publication.message.part? piece.index = none := by
      rw [Message.part?_eq_none_iff, nothing, PartSet.contains_empty]
    rw [absent] at held
    cases held
  | pump p => exact placed.pumpStep? acts
  | serve i => exact placed.stationStep? acts
  | askStop n =>
    obtain rfl := Option.some.inj acts
    rw [Exchange.askStop]
    split
    · exact placed.still _ Coordinator.fed_askStop
    · exact placed.refl
  | dropHandle n =>
    obtain rfl := Option.some.inj acts
    exact placed.modifySite n (fun _ => rfl) fun _ => rfl
  | leave n =>
    obtain ⟨s, -, rfl⟩ := Option.map_eq_some_iff.1 acts
    exact placed.leave n

end Placed

end Exchange

end PartExchange
