/-
**Publications and pumps that come in between each other.**

The runs of `PartExchange.Proofs.Run` let a publication serve all its peers in one action, and let a pump
take a call and note what it announces in one action.  Here every step is an action of its own: a
publication reads a view and makes up a call, looks up the inbox, puts the call into it, and notes what
the call carries; a pump takes a call, and notes what it announces.  Any number of publications may be
under way at the same time, also at one endpoint, and any of them may stop anywhere for good.

Then a view is no longer exactly what has been sent and told.  It is what has been *noted*, and calls that
have been queued or taken but not noted make the difference.  A call still carries nothing that was noted
when it was made up.  So if a part is sent to a peer twice, or after the peer has announced it, the later
call was made up before the earlier one was noted.  Where no call is made up before everything that is
queued or taken before it has been noted, no part is sent twice.

Main definitions:

* `Interplay`: a network with the publications under way and the calls that have been taken;
* `Move`, `Interplay.move?`: what can happen next;
* `Stage`, `Mark`: what the log of such a run lists;
* `Interleaved`: the runs with their logs;
* `noted`, `sentOrTold`: what has been noted in a view, and the account of what has been queued and taken;
* `Settled`, `Undisturbed`: calls that have been noted, and runs in which nothing overlaps;
* `Shifted`: calls go in and out of inboxes as a log says.

Main results:

* `Interplay.steps_move?`: what a move does;
* `Interleaved.kept`: what holds along every run;
* `Interleaved.shifted`: the log is true to the inboxes;
* `view_is_what_was_noted`: what follows for the view of an endpoint;
* `part_sent_twice`: two publications of one endpoint that overlap.
-/

import PartExchange.Proofs.Accounts
import PartExchange.Proofs.Flight

set_option relaxedAutoImplicit false
set_option autoImplicit false

namespace PartExchange

/-! ### Interleaved runs -/

/-- What happens to a call on its way from one view to another: a publication makes it up and puts it
into an inbox, a pump takes it out; and what it says is noted in a view. -/
inductive Stage where
  | made (envelope : Envelope)
  | queued (envelope : Envelope)
  | taken (envelope : Envelope)
  | noted (parts : PartSet)
  deriving DecidableEq

namespace Stage

/-- What is noted, sooner or later. -/
def parts : Stage → PartSet
  | .made envelope | .queued envelope => envelope.rpc.carried
  | .taken envelope => (Note.told envelope).parts
  | .noted parts => parts

/-- What has been noted. -/
def noted? : Stage → Option PartSet
  | .noted parts => some parts
  | _ => none

/-- The entry in the account of the view. -/
def note? : Stage → Option Note
  | .queued envelope => some (.sent envelope)
  | .taken envelope => some (.told envelope)
  | _ => none

/-- The call that has been queued. -/
def sent? : Stage → Option Envelope
  | .queued envelope => some envelope
  | _ => none

theorem parts_of_note? {stage : Stage} {note : Note} (entry : stage.note? = some note) :
    note.parts = stage.parts := by
  cases stage <;> cases entry <;> rfl

theorem eq_noted_of_noted? {stage : Stage} {parts : PartSet} (entry : stage.noted? = some parts) :
    stage = .noted parts := by
  cases stage <;> cases entry
  rfl

theorem eq_queued_of_sent? {stage : Stage} {envelope : Envelope} (entry : stage.sent? = some envelope) :
    stage = .queued envelope := by
  cases stage <;> cases entry
  rfl

theorem sent?_of_sends {stage : Stage} {note : Note} {index : Nat} (entry : stage.note? = some note)
    (sends : note.sends index = true) :
    ∃ envelope, stage.sent? = some envelope ∧ envelope.rpc.carried.contains index = true := by
  cases stage <;> cases entry
  · exact ⟨_, rfl, sends⟩
  · cases sends

end Stage

/-- An entry in the log of an interleaved run. -/
structure Mark where
  /-- The place in the log where the call was made up or taken.  The call is known by it. -/
  place : Nat
  /-- The endpoint whose view is concerned. -/
  endpoint : Nat
  /-- The peer and the group that the view is about. -/
  key : ViewKey
  /-- What has happened. -/
  stage : Stage
  deriving DecidableEq

namespace Mark

/-- What a mark says about one view. -/
def about? {α : Type} (read : Stage → Option α) (k : Nat) (key : ViewKey) (mark : Mark) : Option α :=
  if mark.endpoint = k ∧ mark.key = key then read mark.stage else none

theorem about?_eq_some {α : Type} {read : Stage → Option α} {k : Nat} {key : ViewKey} {mark : Mark}
    {a : α} : mark.about? read k key = some a ↔
      (mark.endpoint = k ∧ mark.key = key) ∧ read mark.stage = some a :=
  Option.ite_none_right_eq_some

end Mark

/-- A network with the work that has been begun on it. -/
structure Interplay where
  /-- The network. -/
  net : Network
  /-- What each publisher is in the middle of, with the place of the present call. -/
  flights : Nat → Option (Flight × Nat) := fun _ => none
  /-- The call that has been taken at each endpoint and not noted, with its place. -/
  catches : Nat → Option (Envelope × Nat) := fun _ => none

/-- What can happen next: a publisher that is in the middle of nothing begins a publication, or it goes
on with the one that it has begun; a call is taken, or it is noted. -/
inductive Move where
  | depart (publisher : Nat) (flight : Flight)
  | advance (publisher : Nat)
  | take (k : Nat)
  | note (k : Nat)
  deriving DecidableEq

/-- What has happened when a publication goes from one leg to another. -/
def Leg.stage? : Leg → Leg → Option Stage
  | .due, .made envelope _ => some (.made envelope)
  | .addressed _ envelope _, .queued _ => some (.queued envelope)
  | .queued included, _ => some (.noted included)
  | _, _ => none

/-- What a step of a publication adds to the log. -/
def Flight.mark? (place : Nat) (f after : Flight) : Option Mark :=
  f.targets.head?.bind fun target => (f.leg.stage? after.leg).map (⟨place, f.endpoint, f.key target, ·⟩)

namespace Interplay

/-- A publisher is in the middle of a publication, unless that is over. -/
def withFlight (s : Interplay) (i : Nat) (f : Flight) (place : Nat) : Interplay :=
  { s with flights := Function.update s.flights i (if f.isOver then none else some (f, place)) }

/-- At an endpoint another call has been taken and not noted, or none. -/
def withCatch (s : Interplay) (k : Nat) (caught : Option (Envelope × Nat)) : Interplay :=
  { s with catches := Function.update s.catches k caught }

theorem flights_withFlight (s : Interplay) (i : Nat) (f : Flight) (place j : Nat) :
    (s.withFlight i f place).flights j =
      if j = i then if f.isOver then none else some (f, place) else s.flights j :=
  Function.update_apply ..

theorem catches_withCatch (s : Interplay) (k : Nat) (caught : Option (Envelope × Nat)) (j : Nat) :
    (s.withCatch k caught).catches j = if j = k then caught else s.catches j :=
  Function.update_apply ..

/-- What a move adds to a log of length `now`, and what it leads to, if it is possible. -/
def move? (now : Nat) (s : Interplay) : Move → Option (Option Mark × Interplay)
  | .depart i f =>
    if s.flights i = none ∧ f.leg = .due then some (none, s.withFlight i f now) else none
  | .advance i =>
    match s.flights i with
    | none => none
    | some (f, since) =>
      let place := if f.leg = Leg.due then now else since
      (s.net.advance? f).map fun (net, f') =>
        (f.mark? place f', { s with net }.withFlight i f' place)
  | .take k =>
    if s.catches k = none then
      (s.net.take? k).map fun (envelope, net) =>
        (some ⟨now, k, envelope.key, .taken envelope⟩,
          { s with net }.withCatch k (some (envelope, now)))
    else none
  | .note k =>
    (s.catches k).map fun (envelope, since) =>
      (some ⟨since, k, envelope.key, .noted (Note.told envelope).parts⟩,
        { s with net := s.net.learn k envelope }.withCatch k none)

end Interplay

/-- The interleaved runs on a network whose inboxes have so many places, with their logs.  Between the
moves peers may register and get linked, and inboxes may be begun to be read and be closed. -/
inductive Interleaved (capacity : Nat) : List Mark → Interplay → Prop
  | start : Interleaved capacity [] { net := .new capacity }
  | rest {log : List Mark} {s : Interplay} {net : Network} (run : Interleaved capacity log s)
      (rests : s.net.Rests net) : Interleaved capacity log { s with net }
  | move {log : List Mark} {s s' : Interplay} {move : Move} {mark : Option Mark}
      (run : Interleaved capacity log s) (moves : s.move? log.length move = some (mark, s')) :
      Interleaved capacity (log ++ mark.toList) s'

/-- What some moves add to a log, and what they lead to, if they are possible. -/
def Interplay.play? (log : List Mark) (s : Interplay) : List Move → Option (List Mark × Interplay)
  | [] => some (log, s)
  | move :: rest => (s.move? log.length move).bind fun (mark, s') =>
      play? (log ++ mark.toList) s' rest

/-- Playing moves goes on with a run. -/
theorem Interleaved.play {capacity : Nat} {moves : List Move} {log log' : List Mark}
    {s s' : Interplay} (run : Interleaved capacity log s)
    (played : s.play? log moves = some (log', s')) : Interleaved capacity log' s' := by
  induction moves generalizing log s with
  | nil =>
    cases played
    exact run
  | cons move rest ih =>
    obtain ⟨next, moves, played⟩ := Option.bind_eq_some_iff.1 played
    exact ih (run.move moves) played

/-! ### What is noted -/

/-- What has been noted in the view that endpoint `k` has of a peer and a group. -/
def noted (k : Nat) (key : ViewKey) (log : List Mark) : List PartSet :=
  log.filterMap (Mark.about? Stage.noted? k key)

/-- The calls about the group that endpoint `k` has queued to the peer, and those that have been taken
from its inbox and that came from the peer, oldest first. -/
def sentOrTold (k : Nat) (key : ViewKey) (log : List Mark) : List Note :=
  log.filterMap (Mark.about? Stage.note? k key)

section Entries

variable {k : Nat} {key : ViewKey}

theorem noted_append (log later : List Mark) :
    noted k key (log ++ later) = noted k key log ++ noted k key later := List.filterMap_append

theorem mem_noted {log : List Mark} {parts : PartSet} : parts ∈ noted k key log ↔
    ∃ mark ∈ log, (mark.endpoint = k ∧ mark.key = key) ∧ mark.stage.noted? = some parts := by
  simp only [noted, List.mem_filterMap, Mark.about?_eq_some]

theorem mem_sentOrTold {log : List Mark} {note : Note} : note ∈ sentOrTold k key log ↔
    ∃ mark ∈ log, (mark.endpoint = k ∧ mark.key = key) ∧ mark.stage.note? = some note := by
  simp only [sentOrTold, List.mem_filterMap, Mark.about?_eq_some]

end Entries

/-- What a call says has been noted. -/
def Settled (log : List Mark) (mark : Mark) : Prop :=
  ∃ other ∈ log, other.place = mark.place ∧ other.stage.noted?.isSome = true

instance (log : List Mark) (mark : Mark) : Decidable (Settled log mark) :=
  inferInstanceAs (Decidable (∃ other ∈ log, _))

/-- Whenever a call was queued, everything in the account of the view by then had been noted when the call
was made up. -/
def Undisturbed (k : Nat) (key : ViewKey) (log : List Mark) : Prop :=
  log.Pairwise fun earlier later => (earlier.about? Stage.note? k key).isSome = true →
    (later.about? Stage.sent? k key).isSome = true → Settled (log.take later.place) earlier

instance (k : Nat) (key : ViewKey) (log : List Mark) : Decidable (Undisturbed k key log) :=
  inferInstanceAs (Decidable (List.Pairwise _ log))

/-! ### What a move does -/

/-- A leg is on the way with a call. -/
def Leg.Carries (leg : Leg) (envelope : Envelope) : Prop :=
  match leg with
  | .due => False
  | .made other included | .addressed _ other included =>
    other = envelope ∧ included = envelope.rpc.carried
  | .queued included => included = envelope.rpc.carried

/-- A publication under way is on the way with a call to the peer whose turn it is, and the log lists
what has become of the call. -/
structure Underway (log : List Mark) (net : Network) (f : Flight) (place : Nat) (target : PeerId)
    (envelope : Envelope) : Prop where
  /-- Whose turn it is. -/
  turn : f.targets.head? = some target
  /-- It is the call that is on the way. -/
  carries : f.leg.Carries envelope
  /-- The call comes from the peer that publishes. -/
  sender : net.peerAt? f.endpoint = some envelope.sender
  /-- The call is about the message that is published. -/
  about : envelope.rpc.topic = f.topic ∧ envelope.rpc.group = f.message.group
  /-- The inbox that has been looked up is one of the peer. -/
  addressed : ∀ j other included, f.leg = .addressed j other included → net.peerAt? j = some target
  /-- The log lists that the call has been made up. -/
  made : log[place]? = some ⟨place, f.endpoint, f.key target, .made envelope⟩
  /-- If the call has been queued, the log lists that. -/
  queued : ∀ included, f.leg = .queued included →
    ⟨place, f.endpoint, f.key target, .queued envelope⟩ ∈ log

/-- A publication has not begun with the peer whose turn it is, or a call is on the way. -/
def Flying (log : List Mark) (net : Network) (f : Flight) (place : Nat) : Prop :=
  f.leg = .due ∨ ∃ target envelope, Underway log net f place target envelope

/-- A call has been taken at an endpoint that is there, and the log lists that. -/
def Caught (log : List Mark) (net : Network) (k : Nat) (envelope : Envelope) (place : Nat) : Prop :=
  (net.peerAt? k).isSome = true ∧ log[place]? = some ⟨place, k, envelope.key, .taken envelope⟩

/-- What a step does to inboxes, by what it adds to the log.  A call that is queued about a group of a
peer comes from the endpoint's peer, is about that group and is put into an inbox of that peer. -/
def Shifted (mark : Option Mark) (net net' : Network) : Prop :=
  match mark with
  | some ⟨_, k, key, .queued envelope⟩ =>
    (net.peerAt? k = some envelope.sender ∧ envelope.rpc.topic = key.topic ∧
      envelope.rpc.group = key.group) ∧
    ∃ j, net.peerAt? j = some key.peer ∧
      ∀ i, net'.inbox i = net.inbox i ++ if i = j then [envelope] else []
  | some ⟨_, k, key, .taken envelope⟩ => envelope.key = key ∧
    net.inbox k = envelope :: net'.inbox k ∧ ∀ i, i ≠ k → net'.inbox i = net.inbox i
  | _ => ∀ i, net'.inbox i = net.inbox i

/-- The log lists where a call was made up or taken, and what it says; and before what it says is noted,
the call has been queued or taken. -/
structure Opened (log : List Mark) (mark : Mark) : Prop where
  /-- The call has been made up or taken. -/
  opening : ∃ stage, log[mark.place]? = some { mark with stage } ∧ stage.parts = mark.stage.parts ∧
    ∀ envelope, mark.stage = .queued envelope → stage = .made envelope
  /-- The call is in the account. -/
  entry : ∀ parts, mark.stage = .noted parts →
    ∃ stage, { mark with stage } ∈ log ∧ stage.note?.isSome = true

/-- What a log lists at a place stays there. -/
theorem getElem?_append_of_some {log : List Mark} {place : Nat} {mark : Mark}
    (lists : log[place]? = some mark) (later : List Mark) :
    (log ++ later)[place]? = some mark := by
  rw [List.getElem?_append_left (List.getElem?_eq_some_iff.1 lists).1, lists]

section Mono

variable {log : List Mark} {net net' : Network} (later : List Mark)
  (kept : ∀ {i peer}, net.peerAt? i = some peer → net'.peerAt? i = some peer)

include kept

theorem Flying.mono {f : Flight} {place : Nat} (flying : Flying log net f place) :
    Flying (log ++ later) net' f place := by
  refine flying.imp_right ?_
  rintro ⟨target, envelope, underway⟩
  refine ⟨target, envelope, underway.turn, underway.carries, kept underway.sender, underway.about, ?_,
    getElem?_append_of_some underway.made later, ?_⟩
  · exact fun j other included leg => kept (underway.addressed j other included leg)
  · exact fun included leg => List.mem_append_left later (underway.queued included leg)

theorem Caught.mono {k place : Nat} {envelope : Envelope} (caught : Caught log net k envelope place) :
    Caught (log ++ later) net' k envelope place := by
  obtain ⟨peer, there⟩ := Option.isSome_iff_exists.1 caught.1
  exact ⟨by rw [kept there]; rfl, getElem?_append_of_some caught.2 later⟩

end Mono

theorem Opened.mono {log : List Mark} {mark : Mark} (opened : Opened log mark) (later : List Mark) :
    Opened (log ++ later) mark := by
  obtain ⟨⟨stage, lists, same, queued⟩, entry⟩ := opened
  refine ⟨⟨stage, getElem?_append_of_some lists later, same, queued⟩, ?_⟩
  intro parts noted
  obtain ⟨stage, member, accounted⟩ := entry parts noted
  exact ⟨stage, List.mem_append_left later member, accounted⟩

/-- What holds along an interleaved run. -/
structure Kept (log : List Mark) (s : Interplay) : Prop where
  /-- A view is what has been noted in it. -/
  view : ∀ k key index, (s.net.view k key).contains index = true ↔
    ∃ parts ∈ noted k key log, parts.contains index = true
  /-- Calls to a peer arrive at an endpoint of that peer. -/
  registered : s.net.Registered
  /-- The publications under way are known to the log. -/
  flying : ∀ i f place, s.flights i = some (f, place) → Flying log s.net f place
  /-- The calls that have been taken are known to the log. -/
  caught : ∀ k envelope place, s.catches k = some (envelope, place) →
    Caught log s.net k envelope place
  /-- Whatever happens to a call, the log lists what had to happen before. -/
  opened : ∀ mark ∈ log, Opened log mark
  /-- A call carries nothing that was noted when it was made up. -/
  fresh : ∀ {place mark envelope}, log[place]? = some mark → mark.stage = .made envelope →
    ∀ parts ∈ noted mark.endpoint mark.key (log.take place), ∀ index,
      envelope.rpc.carried.contains index = true → parts.contains index = false

/-- What a move does. -/
structure Steps (log : List Mark) (s : Interplay) (mark : Option Mark) (s' : Interplay) : Prop where
  /-- A view grows by what is noted. -/
  view : ∀ k key index, (s'.net.view k key).contains index = true ↔
    (s.net.view k key).contains index = true ∨
      ∃ parts ∈ noted k key mark.toList, parts.contains index = true
  /-- Calls move as the log says. -/
  inbox : Shifted mark s.net s'.net
  /-- Calls to a peer arrive at an endpoint of that peer. -/
  registered : s'.net.Registered
  /-- The publications under way are known to the log. -/
  flying : ∀ i f place, s'.flights i = some (f, place) → Flying (log ++ mark.toList) s'.net f place
  /-- The calls that have been taken are known to the log. -/
  caught : ∀ k envelope place, s'.catches k = some (envelope, place) →
    Caught (log ++ mark.toList) s'.net k envelope place
  /-- Whatever happens to a call, the log lists what had to happen before. -/
  opened : ∀ m, mark = some m → Opened (log ++ [m]) m
  /-- A call carries nothing that is noted when it is made up. -/
  fresh : ∀ {m envelope}, mark = some m → m.stage = .made envelope → ∀ index,
    envelope.rpc.carried.contains index = true →
      (s.net.view m.endpoint m.key).contains index = false

namespace Interplay

variable {log : List Mark} {s s' : Interplay} {mark : Option Mark}

/-- A publication begins. -/
theorem steps_depart (kept : Kept log s) {i : Nat} {f : Flight}
    (moves : s.move? log.length (.depart i f) = some (mark, s')) : Steps log s mark s' := by
  obtain ⟨⟨idle, due⟩, same⟩ := Option.ite_none_right_eq_some.1 moves
  cases same
  refine ⟨by simp [withFlight, noted], fun _ => rfl, kept.registered, ?_, ?_, nofun, nofun⟩
  · intro j g place under
    rw [flights_withFlight] at under
    split at under
    · obtain ⟨-, same⟩ := Option.ite_none_left_eq_some.1 under
      cases same
      exact Or.inl due
    · exact (kept.flying j g place under).mono _ id
  · intro k envelope place caught
    exact (kept.caught k envelope place caught).mono _ id

/-- A call is taken out of an inbox. -/
theorem steps_take (kept : Kept log s) {j : Nat}
    (moves : s.move? log.length (.take j) = some (mark, s')) : Steps log s mark s' := by
  obtain ⟨free, moves⟩ := Option.ite_none_right_eq_some.1 moves
  obtain ⟨⟨envelope, net⟩, takes, same⟩ := Option.map_eq_some_iff.1 moves
  cases same
  have taken := Network.taken_of_take? takes
  have stays {i peer} (here : s.net.peerAt? i = some peer) : net.peerAt? i = some peer :=
    (taken.peerAt? i).trans here
  have last : (log ++ [⟨log.length, j, envelope.key, .taken envelope⟩])[log.length]? =
      some ⟨log.length, j, envelope.key, .taken envelope⟩ := List.getElem?_concat_length
  refine ⟨?_, ⟨rfl, taken.head, taken.others⟩, kept.registered.framed taken.toFramed, ?_, ?_, ?_, ?_⟩
  · intro k key index
    simp [withCatch, taken.view, mem_noted, Stage.noted?]
  · exact fun i f place under => (kept.flying i f place under).mono _ stays
  · intro k other place caught
    rw [catches_withCatch] at caught
    split at caught
    · rename_i here
      cases caught
      subst here
      exact ⟨(congrArg Option.isSome (taken.peerAt? k)).trans taken.there, last⟩
    · exact (kept.caught k other place caught).mono _ stays
  · rintro m ⟨⟩
    exact ⟨⟨_, last, rfl, nofun⟩, nofun⟩
  · rintro m other ⟨⟩ made
    cases made

/-- What a call announces is noted. -/
theorem steps_note (kept : Kept log s) {j : Nat}
    (moves : s.move? log.length (.note j) = some (mark, s')) : Steps log s mark s' := by
  obtain ⟨⟨envelope, since⟩, caught, same⟩ := Option.map_eq_some_iff.1 moves
  cases same
  obtain ⟨there, lists⟩ := kept.caught j envelope since caught
  have grows : Network.Noted j envelope.key (Note.told envelope).parts s.net
      (s.net.learn j envelope) := Network.noted_learn there envelope
  have stays {i peer} (here : s.net.peerAt? i = some peer) :
      (s.net.learn j envelope).peerAt? i = some peer := (grows.peerAt? i).trans here
  refine ⟨?_, grows.inbox, kept.registered.framed grows.toFramed, ?_, ?_, ?_, ?_⟩
  · intro k key index
    simp [withCatch, grows.contains_view, mem_noted, Stage.noted?]
  · exact fun i f place under => (kept.flying i f place under).mono _ stays
  · intro k other place still
    rw [catches_withCatch] at still
    split at still
    · cases still
    · exact (kept.caught k other place still).mono _ stays
  · rintro m ⟨⟩
    have lists := getElem?_append_of_some lists
    exact ⟨⟨_, lists _, rfl, nofun⟩, fun _ _ => ⟨_, List.mem_of_getElem? (lists _), rfl⟩⟩
  · rintro m other ⟨⟩ made
    cases made

/-- What a step of a publication does to the publication, it does to everything. -/
theorem steps_of_flight (kept : Kept log s) {i now : Nat} {f' : Flight} {net : Network}
    (framed : s.net.Framed net) (flies : Flying (log ++ mark.toList) net f' now)
    (grown : ∀ k key index, (net.view k key).contains index = true ↔
      (s.net.view k key).contains index = true ∨
        ∃ parts ∈ noted k key mark.toList, parts.contains index = true)
    (shifted : Shifted mark s.net net) (opened : ∀ m, mark = some m → Opened (log ++ [m]) m)
    (fresh : ∀ {m envelope}, mark = some m → m.stage = .made envelope → ∀ index,
      envelope.rpc.carried.contains index = true →
        (s.net.view m.endpoint m.key).contains index = false) :
    Steps log s mark ({ s with net }.withFlight i f' now) := by
  have stays {i peer} (here : s.net.peerAt? i = some peer) : net.peerAt? i = some peer :=
    (framed.peerAt? i).trans here
  refine ⟨grown, shifted, kept.registered.framed framed, ?_, ?_, opened, fresh⟩
  · intro j g place still
    rw [flights_withFlight] at still
    split at still
    · obtain ⟨-, same⟩ := Option.ite_none_left_eq_some.1 still
      cases same
      exact flies
    · exact (kept.flying j g place still).mono _ stays
  · exact fun k envelope place caught => (kept.caught k envelope place caught).mono _ stays

/-- A publication goes on. -/
theorem steps_advance (kept : Kept log s) {i : Nat}
    (moves : s.move? log.length (.advance i) = some (mark, s')) : Steps log s mark s' := by
  rw [move?] at moves
  split at moves
  · cases moves
  rename_i f since under
  obtain ⟨⟨net, f'⟩, goes, same⟩ := Option.map_eq_some_iff.1 moves
  obtain ⟨target, rest, turn, advance⟩ := Network.advance_of_advance? goes
  dsimp only at same
  have head : f.targets.head? = some target := by rw [turn, List.head?_cons]
  have underway (begun : f.leg ≠ .due) : ∃ envelope, Underway log s.net f since target envelope := by
    obtain due | ⟨target', envelope, underway⟩ := kept.flying i f since under
    · exact absurd due begun
    · obtain rfl : target = target' := Option.some.inj (head.symm.trans underway.turn)
      exact ⟨envelope, underway⟩
  cases advance with
  | passes unsent =>
    have silent (place : Nat) : f.mark? place f.next = none := by
      rw [Flight.mark?, head, Option.bind_some, Option.map_eq_none_iff]
      cases leg : f.leg with
      | queued included => exact absurd leg (unsent included)
      | _ => rfl
    rw [silent] at same
    cases same
    exact steps_of_flight kept (.refl _) (Or.inl rfl) (by simp [noted]) (fun _ => rfl) nofun nofun
  | @makes self rpc included due present call =>
    simp only [Flight.mark?, head, due, Leg.stage?, Option.bind_some, Option.map_some, if_pos] at same
    cases same
    obtain ⟨about, carried, unknown⟩ := Network.update_of_callFor? call
    have last : (log ++ [⟨log.length, f.endpoint, f.key target, .made ⟨self.peer, rpc⟩⟩])[log.length]? =
        some ⟨log.length, f.endpoint, f.key target, .made ⟨self.peer, rpc⟩⟩ :=
      List.getElem?_concat_length
    refine steps_of_flight kept (.refl _) (Or.inr ⟨target, ⟨self.peer, rpc⟩, ?_⟩) ?_ (fun _ => rfl) ?_ ?_
    · exact ⟨head, ⟨rfl, carried⟩, Network.peerAt?_of_present present, about, nofun, last, nofun⟩
    · simp [mem_noted, Stage.noted?]
    · rintro m ⟨⟩
      exact ⟨⟨_, last, rfl, nofun⟩, nofun⟩
    · rintro m envelope ⟨⟩ ⟨⟩ index carries
      rw [Network.view_of_present present]
      exact unknown index carries
  | @addresses j envelope included made found =>
    obtain ⟨other, underway⟩ := underway (by rw [made]; nofun)
    simp only [Flight.mark?, head, made, Leg.stage?, Option.bind_some, Option.map_none,
      reduceCtorEq, if_false] at same
    cases same
    have carries := underway.carries
    rw [made] at carries
    refine steps_of_flight kept (.refl _) (Or.inr ⟨target, other, ?_⟩) (by simp [noted]) (fun _ => rfl)
      nofun nofun
    refine ⟨head, carries, underway.sender, underway.about, ?_,
      getElem?_append_of_some underway.made _, nofun⟩
    rintro _ _ _ ⟨⟩
    exact kept.registered target j found
  | @queues net j envelope included addressed posts =>
    obtain ⟨other, underway⟩ := underway (by rw [addressed]; nofun)
    simp only [Flight.mark?, head, addressed, Leg.stage?, Option.bind_some, Option.map_some,
      reduceCtorEq, if_false] at same
    cases same
    have carries := underway.carries
    rw [addressed] at carries
    obtain ⟨rfl, carried⟩ := carries
    have posted := Network.posted_of_post? posts
    have lists := getElem?_append_of_some underway.made
    refine steps_of_flight kept posted.toFramed (Or.inr ⟨target, envelope, ?_⟩) ?_ ?_ ?_ ?_
    · exact ⟨head, carried, (posted.peerAt? _).trans underway.sender, underway.about, nofun, lists _,
        fun _ _ => List.mem_append_right log (List.mem_singleton_self _)⟩
    · simp [mem_noted, Stage.noted?, posted.view]
    · exact ⟨⟨underway.sender, underway.about⟩, j, underway.addressed j _ _ addressed, posted.inbox⟩
    · rintro m ⟨⟩
      exact ⟨⟨_, lists _, rfl, by rintro _ ⟨⟩; rfl⟩, nofun⟩
    · rintro m other ⟨⟩ made
      cases made
  | @notes included queued =>
    obtain ⟨envelope, underway⟩ := underway (by rw [queued]; nofun)
    simp only [Flight.mark?, head, queued, Leg.stage?, Option.bind_some, Option.map_some,
      reduceCtorEq, if_false] at same
    cases same
    have carries := underway.carries
    rw [queued] at carries
    have there : (s.net.peerAt? f.endpoint).isSome = true := Option.isSome_of_eq_some underway.sender
    have grows := Network.noted_mergeView there (f.key target) included
    refine steps_of_flight kept grows.toFramed (Or.inl rfl) ?_ grows.inbox ?_ ?_
    · intro k key index
      simp [grows.contains_view, mem_noted, Stage.noted?]
    · rintro m ⟨⟩
      exact ⟨⟨_, getElem?_append_of_some underway.made _, carries.symm, nofun⟩,
        fun _ _ => ⟨_, List.mem_append_left _ (underway.queued included queued), rfl⟩⟩
    · rintro m other ⟨⟩ made
      cases made

/-- What a move does, whatever it is. -/
theorem steps_move? (kept : Kept log s) {move : Move}
    (moves : s.move? log.length move = some (mark, s')) : Steps log s mark s' := by
  cases move with
  | depart i f => exact steps_depart kept moves
  | advance i => exact steps_advance kept moves
  | take k => exact steps_take kept moves
  | note k => exact steps_note kept moves

end Interplay

/-! ### Interleaved runs keep what holds -/

namespace Kept

variable {log : List Mark} {s s' : Interplay}

theorem start (capacity : Nat) : Kept [] { net := .new capacity } := by
  refine ⟨?_, .new capacity, nofun, nofun, nofun, nofun⟩
  intro k key index
  rw [Network.view_eq_empty rfl key]
  simp [noted]

theorem rest (kept : Kept log s) {net : Network} (rests : s.net.Rests net) :
    Kept log { s with net } := by
  refine ⟨?_, rests.registered kept.registered, ?_, ?_, kept.opened, kept.fresh⟩
  · intro k key index
    rw [rests.view]
    exact kept.view k key index
  · intro i f place under
    simpa using (kept.flying i f place under).mono [] rests.peerAt?
  · intro k envelope place caught
    simpa using (kept.caught k envelope place caught).mono [] rests.peerAt?

theorem step (kept : Kept log s) {mark : Option Mark} (steps : Steps log s mark s') :
    Kept (log ++ mark.toList) s' := by
  refine ⟨?_, steps.registered, steps.flying, steps.caught, ?_, ?_⟩
  · intro k key index
    simp only [noted_append, List.mem_append, or_and_right, exists_or]
    rw [← kept.view, steps.view]
  · intro m member
    rcases List.mem_append.1 member with old | new
    · exact (kept.opened m old).mono _
    · obtain rfl := Option.mem_toList.1 new
      exact steps.opened m rfl
  · intro place m envelope lists made parts member index carries
    by_cases old : place < log.length
    · rw [List.getElem?_append_left old] at lists
      rw [List.take_append_of_le_length (Nat.le_of_lt old)] at member
      exact kept.fresh lists made parts member index carries
    · rw [List.getElem?_append_right (Nat.le_of_not_lt old)] at lists
      cases mark with
      | none => cases lists
      | some last =>
      rw [Option.toList_some, List.getElem?_singleton] at lists
      obtain ⟨here, same⟩ := Option.ite_none_right_eq_some.1 lists
      obtain rfl : last = m := Option.some.inj same
      obtain rfl : place = log.length := by omega
      rw [List.take_left] at member
      rw [Bool.eq_false_iff]
      intro has
      have known := (kept.view _ _ index).2 ⟨parts, member, has⟩
      rw [steps.fresh rfl made index carries] at known
      cases known

end Kept

/-- Along every interleaved run this holds. -/
theorem Interleaved.kept {capacity : Nat} {log : List Mark} {s : Interplay}
    (run : Interleaved capacity log s) : Kept log s := by
  induction run with
  | start => exact .start capacity
  | rest _ rests ih => exact ih.rest rests
  | move _ moves ih => exact ih.step (Interplay.steps_move? ih moves)

/-- The log of an interleaved run is true to the inboxes: calls go in and out of them as it says. -/
theorem Interleaved.shifted {capacity : Nat} {log : List Mark} {s s' : Interplay} {move : Move}
    {mark : Option Mark} (run : Interleaved capacity log s)
    (moves : s.move? log.length move = some (mark, s')) : Shifted mark s.net s'.net :=
  (Interplay.steps_move? run.kept moves).inbox

/-! ### Views of interleaved runs -/

namespace Kept

variable {log : List Mark} {s : Interplay} (kept : Kept log s) {k : Nat} {key : ViewKey}

include kept

/-- What is noted of a call is what the call says. -/
theorem parts_eq {entry other : Mark} (member : entry ∈ log) (member' : other ∈ log)
    (place : other.place = entry.place) {note : Note} (accounted : entry.stage.note? = some note)
    {parts : PartSet} (told : other.stage.noted? = some parts) :
    (other.endpoint = entry.endpoint ∧ other.key = entry.key) ∧ parts = note.parts := by
  obtain ⟨stage, lists, same, -⟩ := (kept.opened entry member).opening
  obtain ⟨stage', lists', same', -⟩ := (kept.opened other member').opening
  rw [place, lists] at lists'
  obtain ⟨-, endpoint, about, rfl⟩ := Mark.mk.injEq .. ▸ Option.some.inj lists'
  refine ⟨⟨endpoint.symm, about.symm⟩, ?_⟩
  rw [Stage.parts_of_note? accounted, ← same, same', Stage.eq_noted_of_noted? told, Stage.parts]

/-- A call that has been queued carries nothing of what had been noted when it was made up. -/
theorem not_settled {earlier later : Mark} (before : earlier ∈ log) (after : later ∈ log) {note : Note}
    {envelope : Envelope} (entry : earlier.about? Stage.note? k key = some note)
    (sent : later.about? Stage.sent? k key = some envelope) {index : Nat}
    (has : note.parts.contains index = true)
    (carries : envelope.rpc.carried.contains index = true) :
    ¬ Settled (log.take later.place) earlier := by
  rintro ⟨other, member, place, isNoted⟩
  obtain ⟨parts, told⟩ := Option.isSome_iff_exists.1 isNoted
  obtain ⟨⟨endpoint, about⟩, accounted⟩ := Mark.about?_eq_some.1 entry
  obtain ⟨⟨rfl, rfl⟩, queued⟩ := Mark.about?_eq_some.1 sent
  obtain ⟨⟨endpoint', about'⟩, rfl⟩ :=
    kept.parts_eq before (List.mem_of_mem_take member) place accounted told
  obtain ⟨stage, lists, -, opens⟩ := (kept.opened later after).opening
  have made := opens envelope (Stage.eq_queued_of_sent? queued)
  have listed := mem_noted.2 ⟨other, member, ⟨endpoint'.trans endpoint, about'.trans about⟩, told⟩
  rw [kept.fresh lists made _ listed index carries] at has
  cases has

/-- If no call has been queued that was made up too early, no call carries a part after an entry that
has it. -/
theorem pairwise (calm : Undisturbed k key log) :
    (sentOrTold k key log).Pairwise fun earlier later =>
      ∀ index, earlier.parts.contains index = true → later.sends index = false := by
  rw [sentOrTold, List.pairwise_filterMap]
  refine calm.imp_of_mem ?_
  intro earlier later before after settled note entry note' entry' index has
  rw [Bool.eq_false_iff]
  intro sends
  obtain ⟨about, entry'⟩ := Mark.about?_eq_some.1 entry'
  obtain ⟨envelope, sent, carries⟩ := Stage.sent?_of_sends entry' sends
  have sent := Mark.about?_eq_some.2 ⟨about, sent⟩
  exact kept.not_settled before after entry sent has carries
    (settled (Option.isSome_of_eq_some entry) (Option.isSome_of_eq_some sent))

/-- What has been sent and told is in the view, or it has not been noted. -/
theorem accounted (index : Nat) :
    (∃ note ∈ sentOrTold k key log, note.parts.contains index = true) ↔
      (s.net.view k key).contains index = true ∨
        ∃ mark ∈ log, ∃ note, mark.about? Stage.note? k key = some note ∧
          note.parts.contains index = true ∧ ¬ Settled log mark := by
  rw [kept.view]
  constructor
  · rintro ⟨note, member, has⟩
    obtain ⟨mark, listed, about, entry⟩ := mem_sentOrTold.1 member
    by_cases settled : Settled log mark
    · obtain ⟨other, listed', place, isNoted⟩ := settled
      obtain ⟨parts, told⟩ := Option.isSome_iff_exists.1 isNoted
      obtain ⟨⟨endpoint', about'⟩, rfl⟩ := kept.parts_eq listed listed' place entry told
      exact Or.inl ⟨_, mem_noted.2
        ⟨other, listed', ⟨endpoint'.trans about.1, about'.trans about.2⟩, told⟩, has⟩
    · exact Or.inr ⟨mark, listed, note, Mark.about?_eq_some.2 ⟨about, entry⟩, has, settled⟩
  · rintro (⟨parts, member, has⟩ | ⟨mark, listed, note, entry, has, -⟩)
    · obtain ⟨other, listed, about, told⟩ := mem_noted.1 member
      obtain ⟨stage, entered, accounted⟩ :=
        (kept.opened other listed).entry parts (Stage.eq_noted_of_noted? told)
      obtain ⟨note, entry⟩ := Option.isSome_iff_exists.1 accounted
      obtain ⟨-, rfl⟩ := kept.parts_eq entered listed rfl entry told
      exact ⟨note, mem_sentOrTold.2 ⟨_, entered, about, entry⟩, has⟩
    · obtain ⟨about, entry⟩ := Mark.about?_eq_some.1 entry
      exact ⟨note, mem_sentOrTold.2 ⟨mark, listed, about, entry⟩, has⟩

end Kept

/-- The view that an endpoint has of a peer and a group is what has been noted in it.  What has been sent
to the peer about the group and told by it is in the view or has not been noted, so if everything has been
noted the view is exactly that.  A call that has been queued carries nothing of another one, sent or told,
that had been noted when it was made up.  So if no call has been queued that was made up before everything
in the account until then had been noted, then no part is sent twice, and none that has been told
before. -/
theorem view_is_what_was_noted {capacity : Nat} {log : List Mark} {s : Interplay}
    (run : Interleaved capacity log s) (k : Nat) (key : ViewKey) :
    let notes := sentOrTold k key log
    (∀ index, (s.net.view k key).contains index = true ↔
      ∃ parts ∈ noted k key log, parts.contains index = true) ∧
    (∀ index, (∃ note ∈ notes, note.parts.contains index = true) ↔
      (s.net.view k key).contains index = true ∨
        ∃ mark ∈ log, ∃ note, mark.about? Stage.note? k key = some note ∧
          note.parts.contains index = true ∧ ¬ Settled log mark) ∧
    ((∀ mark ∈ log, (mark.about? Stage.note? k key).isSome = true → Settled log mark) →
      s.net.view k key = balance .empty notes) ∧
    (∀ earlier ∈ log, ∀ later ∈ log, ∀ note envelope,
      earlier.about? Stage.note? k key = some note →
      later.about? Stage.sent? k key = some envelope → ∀ index,
      note.parts.contains index = true → envelope.rpc.carried.contains index = true →
        ¬ Settled (log.take later.place) earlier) ∧
    (Undisturbed k key log →
      (∀ index, notes.countP (·.sends index) ≤ 1) ∧
        notes.Pairwise fun earlier later =>
          ∀ index, earlier.parts.contains index = true → later.sends index = false) := by
  have kept := run.kept
  refine ⟨kept.view k key, kept.accounted, ?_, ?_, ?_⟩
  · intro settled
    apply PartSet.eq_of_contains_eq
    intro index
    rw [Bool.eq_iff_iff, contains_balance, PartSet.contains_empty, kept.accounted]
    have none : ¬ ∃ mark ∈ log, ∃ note, mark.about? Stage.note? k key = some note ∧
        note.parts.contains index = true ∧ ¬ Settled log mark := by
      rintro ⟨mark, listed, note, entry, -, open'⟩
      exact open' (settled mark listed (Option.isSome_of_eq_some entry))
    simp only [none, or_false, false_or, Bool.false_eq_true]
  · intro earlier before later after note envelope entry sent index has carries
    exact kept.not_settled before after entry sent has carries
  · intro calm
    have apart := kept.pairwise calm
    exact ⟨countP_sends_le_one apart, apart⟩

/-! ### Two linked peers -/

open Exchange (uniformPeer uniformMessage)

/-- A network of two linked peers. -/
def pair : Network :=
  let net := (((Network.new 4).register (uniformPeer 1)).1.register (uniformPeer 2)).1
  (net.connect (uniformPeer 1) (uniformPeer 2)).toOption.getD net

theorem interleaved_pair : Interleaved 4 [] { net := pair } := by
  have links (net : Network) :
      net.Rests ((net.connect (uniformPeer 1) (uniformPeer 2)).toOption.getD net) := by
    cases made : net.connect (uniformPeer 1) (uniformPeer 2) with
    | error cause => exact .refl net
    | ok net' => exact .connect made
  have both := (Network.Rests.register (.new 4) (uniformPeer 1)).trans (.register _ (uniformPeer 2))
  exact Interleaved.start.rest (both.trans (links _))

/-- A peer publishes a message to the only peer that it is linked with. -/
def toOther (k : Nat) (m : Message) (other : UInt8) : Flight :=
  ⟨k, default, m, [uniformPeer other], .due⟩

/-- The second peer has told the first one of a part before the first one sends another part. -/
theorem told_before_sent :
    ∃ log s, Interleaved 4 log s ∧
      let key : ViewKey := ⟨uniformPeer 2, default, default⟩
      let notes := sentOrTold 0 key log
      notes.map (fun note => (note.parts.bits, note.sends 6)) = [(8, false), (64, true)] ∧
        s.net.view 0 key = balance .empty notes ∧ (∀ index, notes.countP (·.sends index) ≤ 1) := by
  have check : ((Interplay.play? [] { net := pair } [
      .depart 1 (toOther 1 (uniformMessage default 3 5) 1),
      .advance 1, .advance 1, .advance 1, .advance 1, .take 0, .note 0,
      .depart 0 (toOther 0 (uniformMessage default 6 7) 2),
      .advance 0, .advance 0, .advance 0, .advance 0]).any fun r =>
    let key : ViewKey := ⟨uniformPeer 2, default, default⟩
    (sentOrTold 0 key r.1).map (fun note => (note.parts.bits, note.sends 6)) =
        [(8, false), (64, true)] ∧
      (∀ mark ∈ r.1, (mark.about? Stage.note? 0 key).isSome = true → Settled r.1 mark) ∧
      Undisturbed 0 key r.1) = true := by decide +kernel
  obtain ⟨⟨log, s⟩, played, checked⟩ := (Option.any_eq_true _ _).1 check
  obtain ⟨notes, settled, calm⟩ := of_decide_eq_true checked
  have run := interleaved_pair.play played
  obtain ⟨-, -, whole, -, once⟩ := view_is_what_was_noted run 0 ⟨uniformPeer 2, default, default⟩
  exact ⟨log, s, run, notes, whole settled, (once calm).1⟩

/-- Two publications of one peer are under way to the same other peer, and both have made up their calls
before either has noted what it sends.  In between, a call in which the other peer announces the part has
been taken.  So the part is queued twice after it has been told, and the view knows nothing of it.  In the
end everything has been noted. -/
theorem part_sent_twice :
    let key : ViewKey := ⟨uniformPeer 2, default, default⟩
    let f := toOther 0 (uniformMessage default 3 5) 2
    pair.begin 0 default (uniformMessage default 3 5) [] = .ok f ∧
    (∃ log s, Interleaved 4 log s ∧
      (balance .empty (sentOrTold 0 key log)).contains 3 = true ∧
      (s.net.view 0 key).contains 3 = false) ∧
    ∃ log s, Interleaved 4 log s ∧
      s.net.view 0 key = balance .empty (sentOrTold 0 key log) ∧
      (sentOrTold 0 key log).countP (·.sends 3) = 2 ∧
      (sentOrTold 0 key log).map (fun note => (note.parts.contains 3, note.sends 3)) =
        [(true, false), (true, true), (true, true)] := by
  let moves : List Move := [
    .depart 1 (toOther 1 (uniformMessage default 3 5) 1),
    .advance 1, .advance 1, .advance 1, .advance 1,
    .depart 0 (toOther 0 (uniformMessage default 3 5) 2),
    .depart 2 (toOther 0 (uniformMessage default 3 5) 2),
    .advance 0, .advance 2, .take 0, .advance 0, .advance 0, .advance 2, .advance 2]
  have midway : ((Interplay.play? [] { net := pair } moves).any fun r =>
    let key : ViewKey := ⟨uniformPeer 2, default, default⟩
    (balance .empty (sentOrTold 0 key r.1)).contains 3 = true ∧
      (r.2.net.view 0 key).contains 3 = false) = true := by decide +kernel
  have check : ((Interplay.play? [] { net := pair }
      (moves ++ [.advance 0, .advance 2, .note 0])).any fun r =>
    let key : ViewKey := ⟨uniformPeer 2, default, default⟩
    r.2.net.view 0 key = balance .empty (sentOrTold 0 key r.1) ∧
      (sentOrTold 0 key r.1).countP (·.sends 3) = 2 ∧
      (sentOrTold 0 key r.1).map (fun note => (note.parts.contains 3, note.sends 3)) =
        [(true, false), (true, true), (true, true)]) = true := by decide +kernel
  obtain ⟨⟨log, s⟩, played, checked⟩ := (Option.any_eq_true _ _).1 midway
  obtain ⟨⟨log', s'⟩, played', checked'⟩ := (Option.any_eq_true _ _).1 check
  exact ⟨by decide +kernel, ⟨log, s, interleaved_pair.play played, of_decide_eq_true checked⟩,
    log', s', interleaved_pair.play played', of_decide_eq_true checked'⟩

end PartExchange
