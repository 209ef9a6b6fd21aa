/-
**Every part that is stored has been added somewhere along the links.**

A part can travel through any number of calls, queues and stores, at participants that come and go
and that may lose what they hold.  It never changes on its way: wherever a part of a group is stored
or on its way, a message of that group with the very same part has been added under the same topic at
some peer from which links lead to where the part is now.  And the calls in which parts travel are
well formed: each announces what it carries, and reads back for its own group.

Main definitions:

* `Exchange.Origin`: the message of a piece has been added at a peer from which links lead here;
* `Rpc.WellFormed`: a call with one byte that names all it carries, and that is never refused.

Main results:

* `Exchange.Run.origin`: every piece has an origin;
* `Exchange.Run.update_of_posted`, `Exchange.Run.wellFormed`: every call brings a peer up to date and
  is well formed;
* `Exchange.parts_come_from_adds`: what is stored has been added.
-/

import PartExchange.Proofs.Contents
import Mathlib.Logic.Relation

set_option relaxedAutoImplicit false
set_option autoImplicit false

namespace PartExchange

/-! ### Well-formed calls -/

/-- A call whose one byte of metadata names all parts that it carries, and whose fragment, if it has
one, reads back for its own group; so no store refuses it. -/
structure Rpc.WellFormed (rpc : Rpc) : Prop where
  /-- What is announced, in one byte, and what is carried. -/
  carries : ∃ held : PartSet, rpc.metadata = some [held.bits] ∧
    (rpc.fragment = none ∨ ∃ data fragment, rpc.fragment = some data ∧
      Fragment.decode data rpc.group = .ok fragment ∧ fragment.included ≤ held)
  /-- No store refuses the call. -/
  absorbed : ∀ store : Store, ∃ m, store.absorb rpc = .ok m

/-- A call that brings a peer up to date is well formed. -/
theorem Rpc.wellFormed_update (topic : Topic) (m : Message) (known : PartSet) :
    (update topic m known).WellFormed where
  carries := by
    refine ⟨m.available, rfl, ?_⟩
    rcases decoded?_update topic m known with ⟨none, -⟩ | ⟨data, fragment, some, read, -, -, rest⟩
    · exact Or.inl none
    · refine Or.inr ⟨data, fragment, some, read, ?_⟩
      rw [rest.1]
      exact m.diff_le_available known
  absorbed store := ⟨_, Store.absorb_of_acceptable (acceptable_update topic m known)⟩

namespace Exchange

/-! ### Origins -/

/-- The message of a piece has been added at a peer from which links lead here. -/
def Origin (h : History) (net : Network) (peer : PeerId) (piece : Piece) : Prop :=
  ∃ insertion ∈ h.inserted, insertion.message.Gives insertion.topic piece ∧
    Relation.ReflTransGen (fun a b => net.linked a b = true) insertion.peer peer

section Runs

variable {capacity : Nat} {h : History} {e : Exchange} (run : Run AddsOnly (.new capacity) h e)

include run

/-- No request brings parts. -/
theorem Run.bare : e.Bare := by
  induction run with
  | start =>
    intro call member
    cases member
  | @step h e e' action run allow acts ih =>
    intro call member d asks
    rcases calls_act? acts member with ⟨old, before, same⟩ | ⟨i, made⟩
    · rw [same] at asks
      exact ih old before d asks
    · rw [asks] at made
      subst made
      exact allow

/-- Every part of the exchange belongs to a transport. -/
theorem Run.placed : e.Placed := by
  induction run with
  | start => exact placed_new capacity
  | step run allow acts ih => exact (ih.moves run.bare allow acts).placed

/-- Every piece has an origin. -/
theorem Run.origin {peer : PeerId} {piece : Piece} (has : e.At peer piece) :
    Origin h e.carriers.net peer piece := by
  induction run generalizing peer piece with
  | start =>
    cases has with
    | coordinator here => cases here
    | inbox there => cases there
    | pump here => cases here
  | @step h e e' action run allow acts ih =>
    have moves := run.placed.moves run.bare allow acts
    have still : ∀ {peer}, Origin h e.carriers.net peer piece →
        Origin (h.after e action e') e'.carriers.net peer piece := by
      rintro peer ⟨insertion, member, gives, path⟩
      exact ⟨insertion, mem_inserted_after.2 (Or.inl member), gives,
        path.lift id fun a b link => moves.linked link⟩
    rcases moves.at_cases has with before | ⟨other, link, before⟩ | ⟨insertion, added, here, gives⟩
    · exact still (ih before)
    · obtain ⟨insertion, member, gives, path⟩ := still (ih before)
      exact ⟨insertion, member, gives, path.tail (moves.linked link)⟩
    · exact ⟨insertion, mem_inserted_after.2 (Or.inr added), gives, here ▸ .refl⟩

omit run in
/-- Whatever has been put into an inbox is a call that brings a peer up to date. -/
theorem Run.update_of_posted {allowed : Exchange → Action → Prop} {start : Exchange}
    (run : Run allowed start h e) {posting : Posting} (posted : posting ∈ h.posted) :
    ∃ topic m known, posting.envelope.rpc = Rpc.update topic m known := by
  induction run with
  | start => cases posted
  | step run allow acts ih =>
    rcases mem_posted_after.1 posted with before | ⟨source, arrived⟩
    · exact ih before
    · obtain ⟨topic, m, targets, spreads⟩ := spreads_act? acts source
      obtain ⟨sender, target, known, -, -, -, form, -⟩ := spreads.arrival _ _ arrived
      exact ⟨topic, m, known, by rw [form]⟩

omit run in
/-- No call that has been put into an inbox is refused. -/
theorem Run.acceptable_of_posted {allowed : Exchange → Action → Prop} {start : Exchange}
    (run : Run allowed start h e) {posting : Posting} (posted : posting ∈ h.posted) :
    posting.envelope.rpc.Acceptable := by
  obtain ⟨topic, m, known, form⟩ := run.update_of_posted posted
  rw [form]
  exact Rpc.acceptable_update topic m known

/-- Every call that has been put into an inbox is well formed. -/
theorem Run.wellFormed {posting : Posting} (posted : posting ∈ h.posted) :
    posting.envelope.rpc.WellFormed := by
  obtain ⟨topic, m, known, form⟩ := run.update_of_posted posted
  rw [form]
  exact Rpc.wellFormed_update topic m known

/-- A part that is stored was added, under the same topic and with the same group and number, at a
peer from which links lead here. -/
theorem Run.added {station : Station} (member : station ∈ e.stations) {topic : Topic}
    {group : GroupId} {m : Message} (stored : station.coordinator.store.get? topic group = some m)
    {index : Nat} {part : Part} (held : m.part? index = some part) :
    ∃ insertion ∈ h.inserted, insertion.topic = topic ∧ insertion.message.group = group ∧
      insertion.message.part? index = some part ∧
      Relation.ReflTransGen (fun a b => e.carriers.net.linked a b = true) insertion.peer
        (e.carriers.peerOf station.outlet) := by
  obtain ⟨i, here⟩ := List.mem_iff_getElem?.1 member
  obtain ⟨peer, outlet⟩ := Option.isSome_iff_exists.1 (run.placed.station here)
  obtain ⟨entry, belongs⟩ := Store.mem_of_get? stored
  have has : station.coordinator.Has ⟨topic, group, index, part⟩ :=
    Or.inl ⟨topic, m, entry, rfl, belongs.symm, held⟩
  obtain ⟨insertion, added, ⟨about, belongs', held'⟩, path⟩ :=
    run.origin (.coordinator here outlet has)
  exact ⟨insertion, added, about.symm, belongs'.symm, held',
    (Carriers.peerOf_of_peer? outlet).symm ▸ path⟩

/-- If only messages with reproducible content have been added, then only such messages are
stored. -/
theorem Run.filled
    (synthetic : ∀ insertion ∈ h.inserted, ∃ s, insertion.message = .filled insertion.message.group s)
    {station : Station} (member : station ∈ e.stations) {topic : Topic} {group : GroupId}
    {m : Message} (stored : station.coordinator.store.get? topic group = some m) :
    m = .filled group m.available := by
  refine Message.eq_filled_iff.2 ⟨(Store.mem_of_get? stored).2, ?_⟩
  intro index part held
  obtain ⟨insertion, added, -, group', held', -⟩ := run.added member stored held
  obtain ⟨s, content⟩ := synthetic insertion added
  rw [content, Message.part?_filled, group'] at held'
  split at held'
  · exact (Option.some.inj held').symm
  · cases held'

/-- When parts come from outside only by requests to add a message: every call that has been put
into an inbox is well formed; every part that is stored anywhere has been added, the very same, at a
peer from which links lead there; and if what has been added was reproducible, so is what is
stored. -/
theorem parts_come_from_adds :
    (∀ posting ∈ h.posted, posting.envelope.rpc.WellFormed) ∧
      (∀ station ∈ e.stations, ∀ topic group m,
        station.coordinator.store.get? topic group = some m →
          ∀ index part, m.part? index = some part →
            ∃ insertion ∈ h.inserted, insertion.topic = topic ∧ insertion.message.group = group ∧
              insertion.message.part? index = some part ∧
              Relation.ReflTransGen (fun a b => e.carriers.net.linked a b = true) insertion.peer
                (e.carriers.peerOf station.outlet)) ∧
      ((∀ insertion ∈ h.inserted, ∃ s, insertion.message = .filled insertion.message.group s) →
        ∀ station ∈ e.stations, ∀ topic group m,
          station.coordinator.store.get? topic group = some m → m = .filled group m.available) := by
  refine ⟨fun posting posted => run.wellFormed posted, ?_, ?_⟩
  · intro station member topic group m stored index part held
    exact run.added member stored held
  · intro synthetic station member topic group m stored
    exact run.filled synthetic member stored

end Runs

/-- Once the second peer has handled the greeting, it stores the part that was added at the first. -/
theorem part_comes_from_greeting :
    ∃ h e, Run AddsOnly (.new 4) h e ∧ ∃ station ∈ e.stations, ∃ m,
      station.outlet = .endpoint 1 ∧ station.coordinator.store.get? default default = some m ∧
        ∃ part, m.part? 3 = some part ∧ ∃ insertion ∈ h.inserted,
          insertion.message.part? 3 = some part ∧
            Relation.ReflTransGen (fun a b => e.carriers.net.linked a b = true) insertion.peer
              (e.carriers.peerOf station.outlet) := by
  have check : ((play? AddsOnly {} (.new 4) (greeting ++ [.pump 1, .serve 1])).any fun r =>
      ∃ station ∈ r.2.stations, station.outlet = .endpoint 1 ∧
        ((station.coordinator.store.get? default default).bind (·.part? 3)).isSome = true) =
          true := by
    decide +kernel
  obtain ⟨⟨h, e⟩, played, holds⟩ := (Option.any_eq_true _ _).1 check
  obtain ⟨station, member, outlet, found⟩ := of_decide_eq_true holds
  obtain ⟨part, found⟩ := Option.isSome_iff_exists.1 found
  obtain ⟨m, stored, held⟩ := Option.bind_eq_some_iff.1 found
  have run := Run.start.play played
  obtain ⟨insertion, added, -, -, same, path⟩ :=
    (parts_come_from_adds run).2.1 station member _ _ m stored 3 part held
  exact ⟨h, e, run, station, member, m, outlet, stored, part, held, insertion, added, same, path⟩

end Exchange

end PartExchange
