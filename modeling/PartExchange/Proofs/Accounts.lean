/-
**Every view is accounted for.**

When every publication is carried out at once, the view that an endpoint has of a peer and a group is
exactly what it has queued to the peer about the group and what it has been told by the peer.  It does
not matter which way a publication took, how often a peer was listed, or which calls got lost because an
inbox was full or closed: a call that is not queued leaves no trace in the view, and one that is queued
leaves what it carries.

The account of a view lists both kinds of calls in the order in which they happened.  A call is made up
from the view at that moment, so it carries nothing that is in the account before it.  No part is ever
sent twice to the same peer, and none that the peer has announced.

Main definitions:

* `Note`, `Note.parts`: an entry of an account, and what it adds to the view;
* `account`: the account of a view in the log of a run;
* `balance`: what an account amounts to;
* `Fresh`: a call that is queued carries nothing that is in the account before it.

Main results:

* `countP_sends_le_one`: a part that no call carries after an entry that has it is carried once at most;
* `Network.account_foldl`: what calls to some peers add to an account;
* `Exchange.Recorded.balanced`: every view is the balance of its account, and every account is
  fresh;
* `Exchange.view_is_sent_or_told`: what follows for the calls that an endpoint queues.
-/

import PartExchange.Proofs.Knowledge

set_option relaxedAutoImplicit false
set_option autoImplicit false

namespace PartExchange

/-! ### Accounts -/

/-- An entry of the account of a view: a call that the endpoint has queued to the peer, or one that came
from the peer and that the endpoint's pump has taken. -/
inductive Note where
  | sent (envelope : Envelope)
  | told (envelope : Envelope)
  deriving DecidableEq

namespace Note

/-- What an entry adds to the view: what a queued call carries, and what a taken call announces. -/
def parts : Note → PartSet
  | .sent envelope => envelope.rpc.carried
  | .told envelope => envelope.rpc.announced?.getD .empty

/-- Whether an entry is a queued call that carries a part. -/
def sends (index : Nat) : Note → Bool
  | .sent envelope => envelope.rpc.carried.contains index
  | .told _ => false

theorem contains_parts_of_sends {note : Note} {index : Nat} (sends : note.sends index = true) :
    note.parts.contains index = true := by
  cases note with
  | sent envelope => exact sends
  | told envelope => cases sends

end Note

/-- What an account amounts to, from what was known before. -/
def balance (known : PartSet) (notes : List Note) : PartSet :=
  notes.foldl (fun known note => known.union note.parts) known

/-- A call that is queued carries nothing that is known by then. -/
def Fresh (known : PartSet) : List Note → Prop
  | [] => True
  | note :: rest =>
    (∀ index, note.sends index = true → known.contains index = false) ∧
      Fresh (known.union note.parts) rest

theorem balance_append (known : PartSet) (notes later : List Note) :
    balance known (notes ++ later) = balance (balance known notes) later := List.foldl_append

theorem fresh_append {known : PartSet} {notes later : List Note} :
    Fresh known (notes ++ later) ↔ Fresh known notes ∧ Fresh (balance known notes) later := by
  induction notes generalizing known with
  | nil => simp [Fresh, balance]
  | cons note rest ih =>
    rw [List.cons_append, Fresh, ih, Fresh, and_assoc]
    rfl

theorem fresh_told (known : PartSet) (envelope : Envelope) : Fresh known [.told envelope] := by
  refine ⟨?_, trivial⟩
  intro index sends
  cases sends

/-- What an account amounts to is what was known before and what its entries add. -/
theorem contains_balance {known : PartSet} {notes : List Note} {index : Nat} :
    (balance known notes).contains index = true ↔
      known.contains index = true ∨ ∃ note ∈ notes, note.parts.contains index = true := by
  induction notes generalizing known with
  | nil => simp [balance]
  | cons first rest ih =>
    change (balance (known.union first.parts) rest).contains index = true ↔ _
    simp [ih, or_assoc]

/-- If no call carries a part after an entry that has it, a part is carried by one call at most. -/
theorem countP_sends_le_one {notes : List Note} (apart : notes.Pairwise fun earlier later =>
    ∀ index, earlier.parts.contains index = true → later.sends index = false) (index : Nat) :
    notes.countP (·.sends index) ≤ 1 := by
  induction notes with
  | nil => exact Nat.zero_le _
  | cons first rest ih =>
    obtain ⟨later, apart⟩ := List.pairwise_cons.1 apart
    rw [List.countP_cons]
    split
    · rename_i sends
      have none : rest.countP (·.sends index) = 0 := by
        rw [List.countP_eq_zero]
        intro note member
        rw [later note member index (Note.contains_parts_of_sends sends)]
        exact Bool.false_ne_true
      omega
    · exact ih apart

section Fresh

variable {known : PartSet} {notes : List Note} (fresh : Fresh known notes)

include fresh

/-- No call carries what was known before all of them. -/
theorem Fresh.sends_eq_false {index : Nat} (old : known.contains index = true) {note : Note}
    (member : note ∈ notes) : note.sends index = false := by
  induction notes generalizing known with
  | nil => cases member
  | cons first rest ih =>
    rcases List.mem_cons.1 member with rfl | later
    · rw [Bool.eq_false_iff]
      intro sends
      rw [fresh.1 index sends] at old
      cases old
    · exact ih fresh.2 (PartSet.le_union_left _ _ index old) later

/-- No call carries a part after an entry that has it. -/
theorem Fresh.pairwise : notes.Pairwise fun earlier later =>
    ∀ index, earlier.parts.contains index = true → later.sends index = false := by
  induction notes generalizing known with
  | nil => exact List.Pairwise.nil
  | cons first rest ih =>
    refine List.Pairwise.cons ?_ (ih fresh.2)
    intro later member index has
    exact fresh.2.sends_eq_false (PartSet.le_union_right _ _ index has) member

end Fresh

/-! ### What a publication adds to an account -/

namespace Network

variable {net : Network} {k : Nat} {topic : Topic} {m : Message}

/-- The calls that have been put into the inbox of a peer. -/
def arrivalsAt (net net' : Network) (peer : PeerId) : List Envelope :=
  (net.endpointOf? peer).elim [] (net.arrivals net')

theorem arrivalsAt_self (net : Network) (peer : PeerId) : net.arrivalsAt net peer = [] := by
  rw [arrivalsAt]
  cases net.endpointOf? peer with
  | none => rfl
  | some j => exact net.arrivals_self j

/-- What a call to one peer adds to the account of a view of a peer. -/
theorem account_sendTo (registered : net.Registered) (target peer : PeerId) :
    let notes := (net.arrivalsAt (net.sendTo k topic m target) peer).map .sent
    Fresh (net.view k ⟨peer, topic, m.group⟩) notes ∧
      (net.sendTo k topic m target).view k ⟨peer, topic, m.group⟩ =
        balance (net.view k ⟨peer, topic, m.group⟩) notes := by
  have nothing {notes : List Note} (silent : notes = []) {net' : Network}
      (same : net'.view k ⟨peer, topic, m.group⟩ = net.view k ⟨peer, topic, m.group⟩) :
      Fresh (net.view k ⟨peer, topic, m.group⟩) notes ∧
        net'.view k ⟨peer, topic, m.group⟩ =
          balance (net.view k ⟨peer, topic, m.group⟩) notes := by
    rw [silent]
    exact ⟨trivial, same⟩
  rcases net.sendTo_cases k topic m target with same | ⟨sender, j, sent⟩
  · rw [same]
    exact nothing (congrArg (List.map _) (net.arrivalsAt_self peer)) rfl
  · have arrivals : ∀ i, net.arrivals (net.sendTo k topic m target) i = if i = j then
        [⟨sender, Rpc.update topic m (net.view k ⟨target, topic, m.group⟩)⟩] else [] :=
      fun i => arrivals_of_append (sent.inbox i)
    by_cases here : peer = target
    · subst here
      dsimp only
      rw [arrivalsAt, sent.receiver, Option.elim_some, arrivals, if_pos rfl, List.map_singleton,
        sent.view, if_pos ⟨rfl, rfl⟩]
      refine ⟨⟨?_, trivial⟩, ?_⟩
      · intro index sends
        rw [Note.sends, Rpc.carried_update, PartSet.contains_diff, Bool.and_eq_true,
          Bool.not_eq_true'] at sends
        exact sends.2
      · rw [balance, List.foldl_cons, List.foldl_nil, Note.parts, Rpc.carried_update]
    · refine nothing ?_ ?_
      · rw [arrivalsAt]
        cases found : net.endpointOf? peer with
        | none => rfl
        | some i =>
          have other : i ≠ j := by
            rintro rfl
            exact here (registered.eq_of_endpointOf? found sent.receiver)
          rw [Option.elim_some, arrivals, if_neg other, List.map_nil]
      · rw [sent.view, if_neg]
        rintro ⟨-, same⟩
        exact here (congrArg ViewKey.peer same)

/-- What calls to some peers add to the account of a view of a peer. -/
theorem account_foldl (registered : net.Registered) (targets : List PeerId) (peer : PeerId) :
    let net' := targets.foldl (fun net => net.sendTo k topic m) net
    let notes := (net.arrivalsAt net' peer).map .sent
    Fresh (net.view k ⟨peer, topic, m.group⟩) notes ∧
      net'.view k ⟨peer, topic, m.group⟩ = balance (net.view k ⟨peer, topic, m.group⟩) notes := by
  induction targets generalizing net with
  | nil =>
    dsimp only [List.foldl_nil]
    rw [arrivalsAt_self]
    exact ⟨trivial, rfl⟩
  | cons target rest ih =>
    have first := @spreads_sendTo k topic m [target] net target (List.mem_singleton_self _)
    have later := @spreads_foldl k topic m rest (net.sendTo k topic m target) rest
      (List.Subset.refl _)
    obtain ⟨fresh, view⟩ := @account_sendTo net k topic m registered target peer
    obtain ⟨fresh', view'⟩ := ih (registered.framed first.toFramed)
    have split : net.arrivalsAt (rest.foldl (fun net => net.sendTo k topic m)
        (net.sendTo k topic m target)) peer =
          net.arrivalsAt (net.sendTo k topic m target) peer ++
            (net.sendTo k topic m target).arrivalsAt (rest.foldl
              (fun net => net.sendTo k topic m) (net.sendTo k topic m target)) peer := by
      simp only [arrivalsAt, first.endpointOf?]
      cases net.endpointOf? peer with
      | none => rfl
      | some j => exact arrivals_append (first.inbox j) (later.inbox j)
    dsimp only
    rw [List.foldl_cons, split, List.map_append, fresh_append, balance_append, ← view]
    exact ⟨⟨fresh, fresh'⟩, view'⟩

end Network

/-! ### The account of a view -/

/-- The entry of a passage in the account of what an endpoint believes of a peer and a group. -/
def Passage.note? (net : Network) (k : Nat) (key : ViewKey) : Passage → Option Note
  | .queued posting =>
    if posting.source = k ∧ net.peerAt? posting.target = some key.peer ∧
        posting.envelope.rpc.topic = key.topic ∧ posting.envelope.rpc.group = key.group
    then some (.sent posting.envelope) else none
  | .taken taking =>
    if taking.endpoint = k ∧ taking.envelope.key = key then some (.told taking.envelope) else none
  | .handled _ _ => none

/-- The account of what an endpoint believes of a peer and a group: the calls about the group that
the endpoint has queued to the peer, and those that its pump has taken and that came from the peer,
oldest first. -/
def account (net : Network) (k : Nat) (key : ViewKey) (log : List Passage) : List Note :=
  log.filterMap (Passage.note? net k key)

theorem account_append (net : Network) (k : Nat) (key : ViewKey) (log later : List Passage) :
    account net k key (log ++ later) = account net k key log ++ account net k key later :=
  List.filterMap_append

/-- An account does not depend on the network but for the peers of the endpoints at which calls have
arrived. -/
theorem account_congr {net net' : Network} {log : List Passage}
    (same : ∀ posting ∈ posted log, net'.peerAt? posting.target = net.peerAt? posting.target)
    (k : Nat) (key : ViewKey) : account net' k key log = account net k key log := by
  apply List.filterMap_congr
  intro passage member
  cases passage with
  | queued posting =>
    have listed : posting ∈ posted log := List.mem_filterMap.2 ⟨_, member, rfl⟩
    simp only [Passage.note?, same posting listed]
  | taken _ => rfl
  | handled _ _ => rfl

namespace Exchange

variable {e e' : Exchange} {action : Action}

/-- What an action adds to an account: the call it takes, and the calls it queues. -/
theorem account_passages (net : Network) (k : Nat) (key : ViewKey) :
    account net k key (e.passages action e') =
      (e.taking? action).toList.filterMap (fun taking => Passage.note? net k key (.taken taking)) ++
        (((e.source? action).map (e.postings e')).getD []).filterMap fun posting =>
          Passage.note? net k key (.queued posting) := by
  have silent : ((e.handled? action).toList.filterMap fun served =>
      Passage.note? net k key (.handled served.1 served.2)) = [] :=
    List.filterMap_eq_nil_iff.2 fun _ _ => rfl
  calc account net k key (e.passages action e')
      = (e.taking? action).toList.filterMap (fun taking => Passage.note? net k key (.taken taking)) ++
          ((e.handled? action).toList.filterMap fun served =>
            Passage.note? net k key (.handled served.1 served.2)) ++
          (((e.source? action).map (e.postings e')).getD []).filterMap fun posting =>
            Passage.note? net k key (.queued posting) := by
        simp only [account, passages, List.filterMap_append, List.filterMap_map]
        rfl
    _ = _ := by rw [silent, List.append_nil]

/-- What an action that publishes adds to an account. -/
theorem account_of_publishes {k : Nat} {topic : Topic} {m : Message} {targets : List PeerId}
    (source : e.source? action = some k) (nothing : e.taking? action = none)
    (spreads : Network.Spreads k topic m targets e.carriers.net e'.carriers.net)
    (registered : e.carriers.net.Registered) (k' : Nat) (key : ViewKey) :
    account e'.carriers.net k' key (e.passages action e') =
      if k' = k ∧ key.topic = topic ∧ key.group = m.group then
        (e.carriers.net.arrivalsAt e'.carriers.net key.peer).map .sent
      else [] := by
  -- A call that has been queued is about the published group, and has arrived at the place of a
  -- registered peer.
  have arrived : ∀ posting ∈ e.postings e' k, posting.source = k ∧
      posting.envelope.rpc.topic = topic ∧ posting.envelope.rpc.group = m.group ∧
      ∀ peer, e'.carriers.net.peerAt? posting.target = some peer →
        e.carriers.net.endpointOf? peer = some posting.target := by
    intro posting member
    obtain ⟨own, member⟩ := mem_postings.1 member
    obtain ⟨sender, target, known, -, -, found, form, -⟩ := spreads.arrival _ _ member
    refine ⟨own, by rw [form]; rfl, by rw [form]; rfl, ?_⟩
    intro peer there
    rw [spreads.peerAt?, registered _ _ found] at there
    obtain rfl := Option.some.inj there
    exact found
  rw [account_passages, nothing, source, Option.map_some, Option.getD_some, Option.toList_none,
    List.filterMap_nil, List.nil_append]
  by_cases about : k' = k ∧ key.topic = topic ∧ key.group = m.group
  · rw [if_pos about, Network.arrivalsAt]
    obtain ⟨rfl, topic', group⟩ := about
    cases found : e.carriers.net.endpointOf? key.peer with
    | none =>
      rw [Option.elim_none, List.map_nil, List.filterMap_eq_nil_iff]
      intro posting member
      rw [Passage.note?, if_neg]
      rintro ⟨-, there, -⟩
      rw [(arrived posting member).2.2.2 _ there] at found
      cases found
    | some j =>
      rw [Option.elim_some, filterMap_postings e e' k' j]
      · rw [← List.filterMap_eq_map]
        apply List.filterMap_congr
        intro envelope member
        have posting := arrived ⟨k', j, envelope⟩ (mem_postings.2 ⟨rfl, member⟩)
        rw [Passage.note?, if_pos]
        · rfl
        · refine ⟨rfl, ?_, posting.2.1.trans topic'.symm, posting.2.2.1.trans group.symm⟩
          rw [spreads.peerAt?]
          exact registered _ _ found
      · intro posting member other
        rw [Passage.note?, if_neg]
        rintro ⟨-, there, -⟩
        rw [(arrived posting member).2.2.2 _ there] at found
        exact other (Option.some.inj found)
  · rw [if_neg about, List.filterMap_eq_nil_iff]
    intro posting member
    obtain ⟨own, about', group', -⟩ := arrived posting member
    rw [Passage.note?, if_neg]
    rintro ⟨source, -, same, group⟩
    exact about ⟨source.symm.trans own, same.symm.trans about', group.symm.trans group'⟩

/-- What an action adds to an account is fresh, and it is what the view grows by. -/
theorem account_act? (acts : e.act? action = some e') (registered : e.carriers.net.Registered)
    (k : Nat) (key : ViewKey) :
    let notes := account e'.carriers.net k key (e.passages action e')
    Fresh (e.carriers.net.view k key) notes ∧
      e'.carriers.net.view k key = balance (e.carriers.net.view k key) notes := by
  dsimp only
  cases traffic_act? acts with
  | @publishes k' topic m targets source nothing sends =>
    have spreads : Network.Spreads k' topic m targets e.carriers.net e'.carriers.net := by
      rw [sends]
      exact Network.spreads_foldl _ (List.Subset.refl _)
    rw [account_of_publishes source nothing spreads registered]
    split
    · rename_i about
      obtain ⟨peer, topic', group⟩ := key
      obtain ⟨rfl, rfl, rfl⟩ := about
      rw [sends]
      exact Network.account_foldl registered targets peer
    · rename_i other
      exact ⟨trivial, spreads.others k key other⟩
  | @takes taking net silent taken received rests =>
    have received := Network.received received
    rw [account_passages, silent, taken, Option.map_none, Option.getD_none, Option.toList_some,
      List.filterMap_nil, List.append_nil, rests.view, received.view]
    by_cases about : taking.endpoint = k ∧ taking.envelope.key = key
    · have note : Passage.note? e'.carriers.net k key (.taken taking) =
          some (.told taking.envelope) := if_pos about
      rw [if_pos ⟨about.1.symm, about.2.symm⟩, List.filterMap_cons, note]
      exact ⟨fresh_told _ _, rfl⟩
    · have note : Passage.note? e'.carriers.net k key (.taken taking) = none := if_neg about
      rw [if_neg fun same => about ⟨same.1.symm, same.2.symm⟩, List.filterMap_cons, note]
      exact ⟨trivial, rfl⟩
  | rests silent nothing rests =>
    rw [account_passages, silent, nothing, rests.view]
    exact ⟨trivial, rfl⟩

/-! ### Accounts along a run -/

/-- Every view is the balance of its account, and every account is fresh. -/
structure Balanced (log : List Passage) (net : Network) : Prop where
  /-- Calls have been queued to peers. -/
  there : ∀ posting ∈ posted log, (net.peerAt? posting.target).isSome = true
  /-- No call carries what is in the account before it. -/
  fresh : ∀ k key, Fresh .empty (account net k key log)
  /-- A view is what its account amounts to. -/
  view : ∀ k key, net.view k key = balance .empty (account net k key log)
  /-- Calls to a peer arrive at an endpoint of that peer. -/
  registered : net.Registered

/-- What an action preserves. -/
theorem Balanced.step {log : List Passage} (balanced : Balanced log e.carriers.net)
    (acts : e.act? action = some e') :
    Balanced (log ++ e.passages action e') e'.carriers.net := by
  have kept : ∀ {i peer}, e.carriers.net.peerAt? i = some peer →
      e'.carriers.net.peerAt? i = some peer := peerAt?_act? acts
  have before : ∀ k key, account e'.carriers.net k key log = account e.carriers.net k key log := by
    apply account_congr
    intro posting member
    obtain ⟨peer, there⟩ := Option.isSome_iff_exists.1 (balanced.there posting member)
    rw [there, kept there]
  refine ⟨?_, ?_, ?_, registered_act? acts balanced.registered⟩
  · intro posting member
    rw [posted_append, posted_passages, List.mem_append] at member
    rcases member with old | new
    · obtain ⟨peer, there⟩ := Option.isSome_iff_exists.1 (balanced.there posting old)
      rw [kept there]
      rfl
    · cases source : e.source? action with
      | none =>
        rw [source] at new
        cases new
      | some k =>
        rw [source] at new
        exact peerAt?_of_postings new
  · intro k key
    rw [account_append, before, fresh_append, ← balanced.view]
    exact ⟨balanced.fresh k key, (account_act? acts balanced.registered k key).1⟩
  · intro k key
    rw [account_append, before, balance_append, ← balanced.view]
    exact (account_act? acts balanced.registered k key).2

/-- Along every run, every view is the balance of its account, and every account is fresh. -/
theorem Recorded.balanced {allowed : Exchange → Action → Prop} {capacity : Nat}
    {log : List Passage} (run : Recorded allowed (.new capacity) log e) :
    Balanced log e.carriers.net := by
  induction run with
  | start =>
    refine ⟨?_, fun _ _ => trivial, ?_, Network.Registered.new capacity⟩
    · intro posting member
      cases member
    · intro k key
      exact Network.view_eq_empty rfl key
  | step _ _ acts ih => exact ih.step acts

/-- What an endpoint believes of a peer and a group is exactly what it has queued to the peer about
the group and what it has been told by the peer.  No part is sent to the peer twice, and none that is
in the account by then. -/
theorem view_is_sent_or_told {allowed : Exchange → Action → Prop} {capacity : Nat}
    {log : List Passage} (run : Recorded allowed (.new capacity) log e) (k : Nat) (key : ViewKey) :
    let notes := account e.carriers.net k key log
    e.carriers.net.view k key = balance .empty notes ∧
      (∀ index, notes.countP (·.sends index) ≤ 1) ∧
      notes.Pairwise fun earlier later =>
        ∀ index, earlier.parts.contains index = true → later.sends index = false := by
  have apart := (run.balanced.fresh k key).pairwise
  exact ⟨run.balanced.view k key, countP_sends_le_one apart, apart⟩

end Exchange

end PartExchange
