/-
**Interrupted schedules are interleaved runs.**

An exchange whose coordinators carry out their publications at once, and one whose coordinators can be
interrupted in the middle of them: whatever happens in either, the network goes through an interleaved
run.  In the first nothing is under way after an action.  In the second the publications under way are
those that the coordinators are in the middle of.

Main definitions:

* `Midway.Reached`: the states that can be reached by actions of an exchange and by steps of coordinators
  that can be interrupted;
* `Midway.Mirrors`: an interleaved run has got as far as an exchange.

Main results:

* `Interleaved.publish`, `Interleaved.receive`: what is done at once can be done step by step;
* `Midway.Reached.interleaved`: whatever an exchange with interruptions reaches, an interleaved run
  reaches;
* `Exchange.Recorded.interleaved`: the same for an exchange without interruptions;
* `Midway.Reached.settle`: turns until all wait reach nothing else.
-/

import PartExchange.Exchange.Interruption
import PartExchange.Proofs.Interleaving

set_option relaxedAutoImplicit false
set_option autoImplicit false

namespace PartExchange

/-! ### At once, and step by step -/

namespace Interplay

theorem withFlight_withFlight (s : Interplay) (i : Nat) (f g : Flight) (place place' : Nat) :
    (s.withFlight i f place).withFlight i g place' = s.withFlight i g place' := by
  simp only [withFlight, Function.update_idem]

/-- With a publication that is over, nothing is under way. -/
theorem withFlight_of_isOver {s : Interplay} {i : Nat} (idle : s.flights i = none) {f : Flight}
    (finished : f.isOver = true) (place : Nat) : s.withFlight i f place = s := by
  rw [withFlight, if_pos finished, ← idle, Function.update_eq_self]

theorem withFlight_of_flights {s : Interplay} {i place : Nat} {f : Flight}
    (under : s.flights i = some (f, place)) (going : f.isOver = false) :
    s.withFlight i f place = s := by
  rw [withFlight, going, if_neg Bool.false_ne_true, ← under, Function.update_eq_self]

end Interplay

namespace Interleaved

variable {capacity : Nat} {log : List Mark} {s : Interplay}

/-- A publication under way goes on for some steps. -/
theorem fly (n : Nat) {i place : Nat} {f : Flight}
    (run : Interleaved capacity log (s.withFlight i f place)) :
    ∃ log' place', Interleaved capacity log'
      ({ s with net := (Network.fly n s.net f).1 }.withFlight i (Network.fly n s.net f).2 place') := by
  induction n generalizing log s f place with
  | zero => exact ⟨log, place, run⟩
  | succ n ih =>
    by_cases finished : f.isOver = true
    · rw [Network.fly_of_isOver finished]
      exact ⟨log, place, run⟩
    rw [Network.fly]
    cases goes : s.net.advance? f with
    | none => exact ⟨log, place, run⟩
    | some after =>
      obtain ⟨net, f'⟩ := after
      have under : (s.withFlight i f place).flights i = some (f, place) := by
        rw [Interplay.flights_withFlight, if_pos rfl, if_neg finished]
      have moves : (s.withFlight i f place).move? log.length (.advance i) =
          some (f.mark? (if f.leg = Leg.due then log.length else place) f',
            { s with net }.withFlight i f' (if f.leg = Leg.due then log.length else place)) := by
        have here : (s.withFlight i f place).net.advance? f = some (net, f') := goes
        rw [Interplay.move?, under]
        dsimp only
        rw [here, ← Interplay.withFlight_withFlight _ i f f' place]
        rfl
      exact ih (run.move moves)

/-- A publication that nobody interrupts. -/
theorem publish (run : Interleaved capacity log s) {i : Nat} (idle : s.flights i = none) (k : Nat)
    (topic : Topic) (m : Message) (targets : List PeerId) :
    ∃ log', Interleaved capacity log'
      { s with net := targets.foldl (fun net => net.sendTo k topic m) s.net } := by
  have departs : s.move? log.length (.depart i ⟨k, topic, m, targets, .due⟩) =
      some (none, s.withFlight i ⟨k, topic, m, targets, .due⟩ log.length) := if_pos ⟨idle, rfl⟩
  obtain ⟨log', place, run⟩ := fly (4 * targets.length) (run.move departs)
  rw [Network.fly_eq (Nat.le_refl _)] at run
  dsimp only at run
  rw [Interplay.withFlight_of_isOver (by exact idle) rfl] at run
  exact ⟨log', run⟩

/-- A call that is taken and noted at once. -/
theorem receive (run : Interleaved capacity log s) {k : Nat} (free : s.catches k = none)
    {envelope : Envelope} {net : Network} (received : s.net.receive? k = some (envelope, net)) :
    ∃ log', Interleaved capacity log' { s with net } := by
  rw [Network.receive?_eq_take?] at received
  obtain ⟨⟨_, taken⟩, takes, same⟩ := Option.map_eq_some_iff.1 received
  cases same
  let caught := { s with net := taken }.withCatch k (some (envelope, log.length))
  have first : s.move? log.length (.take k) =
      some (some ⟨log.length, k, envelope.key, .taken envelope⟩, caught) := by
    rw [Interplay.move?, if_pos free, takes]
    rfl
  have held : caught.catches k = some (envelope, log.length) := by
    rw [Interplay.catches_withCatch, if_pos rfl]
  have second (now : Nat) : caught.move? now (.note k) =
      some (some ⟨log.length, k, envelope.key, .noted (Note.told envelope).parts⟩,
        { s with net := taken.learn k envelope }) := by
    rw [Interplay.move?, held, Option.map_some]
    simp only [caught, Interplay.withCatch, Function.update_idem, ← free, Function.update_eq_self]
  exact ⟨_, (run.move first).move (second _)⟩

/-- An action of an exchange, while nothing that has been taken is held. -/
theorem act? {e e' : Exchange} {action : Action} (run : Interleaved capacity log s)
    (same : s.net = e.carriers.net) (idle : ∃ i, s.flights i = none) (free : ∀ k, s.catches k = none)
    (acts : e.act? action = some e') :
    ∃ log', Interleaved capacity log' { s with net := e'.carriers.net } := by
  obtain ⟨i, idle⟩ := idle
  cases Exchange.traffic_act? acts with
  | @publishes k topic m targets _ _ sends =>
    rw [sends, ← same]
    exact run.publish idle k topic m targets
  | @takes taking net _ _ received rests =>
    rw [← same] at received
    obtain ⟨log', run⟩ := run.receive (free _) received
    exact ⟨log', run.rest rests⟩
  | rests _ _ rests => exact ⟨log, run.rest (same ▸ rests)⟩

end Interleaved

/-! ### Coordinators in the middle of publications -/

namespace Midway

variable {capacity : Nat}

/-- The states that can be reached by actions of an exchange and by steps of coordinators that can be
interrupted. -/
inductive Reached (capacity : Nat) : Midway → Prop
  | start : Reached capacity { exchange := .new capacity }
  | act {m : Midway} {e : Exchange} {action : Action} (reached : Reached capacity m)
      (acts : m.exchange.act? action = some e) : Reached capacity { m with exchange := e }
  | serve {m m' : Midway} {i : Nat} (reached : Reached capacity m)
      (goes : m.stationStep? i = some m') : Reached capacity m'

/-- An interleaved run has got as far as an exchange: the publications under way are those that the
coordinators are in the middle of, and no call has been taken and not noted. -/
structure Mirrors (m : Midway) (s : Interplay) : Prop where
  /-- The network is the same. -/
  net : s.net = m.exchange.carriers.net
  /-- The publications under way are the same. -/
  flights : ∀ i, (s.flights i).map Prod.fst = m.flights.lookup i
  /-- Everything that has been taken has been noted. -/
  free : ∀ k, s.catches k = none

theorem lookup_withFlight (m : Midway) (i : Nat) (f : Flight) (j : Nat) :
    (m.withFlight i f).flights.lookup j =
      if j = i then if f.isOver then none else some f else m.flights.lookup j := by
  rw [withFlight]
  by_cases here : j = i
  · subst here
    have dropped : (m.flights.filter (·.1 ≠ j)).lookup j = none := by
      rw [List.lookup_eq_none_iff]
      intro pair member
      exact bne_iff_ne.2 (Ne.symm (of_decide_eq_true (List.mem_filter.1 member).2))
    by_cases finished : f.isOver = true
    · rw [if_pos finished, if_pos rfl, if_pos finished]
      exact dropped
    · simp [finished]
  · have kept := Network.lookup_filter_ne here m.flights
    by_cases finished : f.isOver = true
    · simpa [finished, here] using kept
    · simpa [finished, here, List.lookup_cons, beq_false_of_ne here] using kept

/-- A coordinator begins a publication, or goes on with it, in both. -/
theorem Mirrors.withFlight {m : Midway} {s : Interplay} (mirrors : m.Mirrors s) (i : Nat) (f : Flight)
    (place : Nat) : (m.withFlight i f).Mirrors (s.withFlight i f place) := by
  refine ⟨mirrors.net, ?_, mirrors.free⟩
  intro j
  rw [lookup_withFlight, Interplay.flights_withFlight, ← mirrors.flights]
  split
  · split <;> rfl
  · rfl

/-- There is always a publisher with nothing to do. -/
theorem Mirrors.idle {m : Midway} {s : Interplay} (mirrors : m.Mirrors s) : ∃ i, s.flights i = none := by
  refine ⟨(m.flights.map Prod.fst).max?.getD 0 + 1, ?_⟩
  rw [← Option.map_eq_none_iff, mirrors.flights, List.lookup_eq_none_iff]
  intro pair member
  have below := List.le_max?_getD_of_mem (k := 0) (List.mem_map_of_mem (f := Prod.fst) member)
  rw [bne_iff_ne]
  omega

/-- What a coordinator does in one step of its publication is one step or two. -/
theorem fly_of_stride? {net net' : Network} {f f' : Flight} (goes : net.stride? f = some (net', f')) :
    f.isOver = false ∧ ∃ n, Network.fly n net f = (net', f') := by
  obtain ⟨⟨net₁, f₁⟩, advances, same⟩ := Option.map_eq_some_iff.1 goes
  have once : Network.fly 1 net f = (net₁, f₁) := by
    rw [Network.fly, advances]
    rfl
  constructor
  · rw [Flight.isOver, List.isEmpty_eq_false_iff]
    intro finished
    rw [Network.advance?, finished] at advances
    cases advances
  · dsimp only at same
    split at same
    · refine ⟨1 + 1, ?_⟩
      rw [Network.fly_add, once]
      exact same
    · exact ⟨1, once.trans same⟩

/-- A publication that has been begun has done nothing. -/
theorem leg_of_begin {net : Network} {k : Nat} {topic : Topic} {m : Message} {peers : List PeerId}
    {f : Flight} (begun : net.begin k topic m peers = .ok f) : f.leg = .due := by
  unfold Network.begin at begun
  split at begun
  · cases begun
    rfl
  · split at begun
    · cases begun
      rfl
    · split at begun <;> cases begun
      rfl

/-- A transport that only begins publications leaves the network as it is. -/
theorem begin_carry (outlet : Outlet) (carriers : Carriers) (publication : Option Publication) :
    let after := Coordinator.carry (Carriers.begin outlet) (carriers, none) publication
    after.1.net = carriers.net ∧ ∀ f, after.2 = some f → f.leg = .due := by
  cases publication with
  | none => exact ⟨rfl, nofun⟩
  | some publication =>
    cases outlet with
    | recorder k => exact ⟨Carriers.publish_recorder_net k carriers publication, nofun⟩
    | endpoint k =>
      dsimp only [Coordinator.carry, Carriers.begin]
      split
      · rename_i flight begun
        refine ⟨rfl, ?_⟩
        rintro f ⟨⟩
        exact leg_of_begin begun
      · exact ⟨rfl, nofun⟩

/-- A step of a coordinator that can be interrupted, and the interleaved run that goes along. -/
theorem Mirrors.stationStep? {m m' : Midway} {log : List Mark} {s : Interplay} {i : Nat}
    (mirrors : m.Mirrors s) (run : Interleaved capacity log s) (goes : m.stationStep? i = some m') :
    ∃ log' s', Interleaved capacity log' s' ∧ m'.Mirrors s' := by
  have slot := mirrors.flights i
  unfold Midway.stationStep? at goes
  split at goes
  · rename_i f under
    obtain ⟨⟨net, f'⟩, strides, rfl⟩ := Option.map_eq_some_iff.1 goes
    obtain ⟨going, n, flown⟩ := fly_of_stride? strides
    rw [under, Option.map_eq_some_iff] at slot
    obtain ⟨⟨_, place⟩, present, rfl⟩ := slot
    rw [← Interplay.withFlight_of_flights present going] at run
    obtain ⟨log', place', run⟩ := run.fly n
    rw [mirrors.net, flown] at run
    have mirrors : Midway.Mirrors { m with exchange := m.exchange.withNet net } { s with net } :=
      ⟨rfl, mirrors.flights, mirrors.free⟩
    exact ⟨log', _, run, mirrors.withFlight i f' place'⟩
  · rename_i idle
    split at goes
    · cases goes
    rename_i station here
    obtain ⟨⟨coordinator, carriers, begun⟩, steps, rfl⟩ := Option.map_eq_some_iff.1 goes
    obtain ⟨net, due⟩ : carriers.net = m.exchange.carriers.net ∧ ∀ f, begun = some f → f.leg = .due := by
      obtain ⟨-, ⟨-, -, same⟩ | ⟨job, lane, -, -, carried⟩⟩ := Coordinator.step?_cases steps
      · cases same
        exact ⟨rfl, nofun⟩
      · have after := begin_carry station.outlet m.exchange.carriers
          (station.coordinator.store.react job.request).publication
        rw [← carried] at after
        exact after
    have mirrors : Midway.Mirrors { m with exchange := { m.exchange with
        carriers, stations := m.exchange.stations.set i { station with coordinator } } } s :=
      ⟨mirrors.net.trans net.symm, mirrors.flights, mirrors.free⟩
    cases begun with
    | none => exact ⟨log, s, run, mirrors⟩
    | some f =>
      rw [idle, Option.map_eq_none_iff] at slot
      have departs : s.move? log.length (.depart i f) = some (none, s.withFlight i f log.length) :=
        if_pos ⟨slot, due f rfl⟩
      exact ⟨_, _, run.move departs, mirrors.withFlight i f _⟩

/-- Whatever an exchange with interruptions reaches, an interleaved run reaches. -/
theorem Reached.interleaved {m : Midway} (reached : Reached capacity m) :
    ∃ log s, Interleaved capacity log s ∧ m.Mirrors s := by
  induction reached with
  | start => exact ⟨_, _, .start, rfl, fun _ => rfl, fun _ => rfl⟩
  | act _ acts ih =>
    obtain ⟨log, s, run, mirrors⟩ := ih
    obtain ⟨log', run⟩ := run.act? mirrors.net mirrors.idle mirrors.free acts
    exact ⟨log', _, run, rfl, mirrors.flights, mirrors.free⟩
  | serve _ goes ih =>
    obtain ⟨log, s, run, mirrors⟩ := ih
    exact mirrors.stationStep? run goes

/-! ### Turns -/

namespace Reached

variable {m : Midway}

theorem stationSteps (reached : Reached capacity m) (i fuel : Nat) :
    Reached capacity (Midway.stationSteps i fuel m) := by
  induction fuel generalizing m with
  | zero => exact reached
  | succ fuel ih =>
    rw [Midway.stationSteps]
    split
    · exact reached
    · rename_i m' goes
      exact ih (reached.serve goes)

theorem pollPump (reached : Reached capacity m) (p : Nat) :
    Reached capacity { m with exchange := m.exchange.pollPump p } := by
  have steps : ∀ fuel m, Reached capacity m →
      Reached capacity { m with exchange := Exchange.pumpSteps p fuel m.exchange } := by
    intro fuel
    induction fuel with
    | zero => exact fun _ => id
    | succ fuel ih =>
      intro m reached
      rw [Exchange.pumpSteps]
      split
      · exact reached
      · rename_i e step
        have acts : m.exchange.act? (.pump p) = some e := step
        exact ih _ (reached.act acts)
  exact steps _ m reached

theorem turn (reached : Reached capacity m) (site : Nat) : Reached capacity (m.turn site).1 := by
  have pumps (m : Midway) (pump : Option Nat) (reached : Reached capacity m) :
      Reached capacity (m.pumpTurn pump).1 := by
    unfold pumpTurn
    split
    · exact reached
    · split
      · exact reached.pollPump _
      · exact reached
  have serves (m : Midway) (station : Option Nat) (reached : Reached capacity m) :
      Reached capacity (m.stationTurn station).1 := by
    unfold stationTurn
    split
    · exact reached
    · split
      · exact reached.stationSteps _ _
      · exact reached
  unfold Midway.turn
  split
  · exact reached
  · exact serves _ _ (pumps _ _ reached)

theorem round (reached : Reached capacity m) : Reached capacity m.round.1 :=
  List.foldlRecOn (motive := fun after : Midway × Bool => Reached capacity after.1) _ _ reached
    fun _ reached site _ => reached.turn site

/-- Turns until all wait. -/
theorem settle (reached : Reached capacity m) (rounds : Nat) :
    Reached capacity (m.settle rounds).1 := by
  unfold Midway.settle
  induction rounds generalizing m with
  | zero => exact reached
  | succ rounds ih =>
    rw [Exchange.untilQuiet]
    dsimp only
    split
    · exact ih reached.round
    · exact reached.round

end Reached

end Midway

/-- Whatever an exchange without interruptions reaches, an interleaved run reaches with nothing under
way. -/
theorem Exchange.Recorded.interleaved {allowed : Exchange → Action → Prop} {capacity : Nat}
    {log : List Passage} {e : Exchange} (run : Recorded allowed (.new capacity) log e) :
    ∃ marks s, Interleaved capacity marks s ∧ s.net = e.carriers.net ∧
      ∀ i, s.flights i = none ∧ s.catches i = none := by
  have reached : Midway.Reached capacity { exchange := e } := by
    induction run with
    | start => exact .start
    | step _ _ acts ih => exact ih.act acts
  obtain ⟨marks, s, run, mirrors⟩ := reached.interleaved
  refine ⟨marks, s, run, mirrors.net, fun i => ⟨?_, mirrors.free i⟩⟩
  rw [← Option.map_eq_none_iff, mirrors.flights]
  rfl

end PartExchange
