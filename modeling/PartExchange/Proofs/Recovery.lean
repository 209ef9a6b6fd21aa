/-
**What a peer that has lost parts gets back.**

When a peer announces less than is held, the message is announced again, and a call goes out to the
peer if its inbox has room.  What the call carries does not depend on the announcement that has just
been handled, but on the view of the peer: the parts that have ever been put into its inbox or that
it has ever announced.  A view does not shrink.  So the call carries exactly what is held and what
the view does not count, and there is no call at all if the view is what is held.

Where nothing is ever lost, views do not claim too much, and the call carries all that the peer
lacks.  But a store with a limit forgets groups, and a peer that has lost a part that was once sent
to it does not get it back.

Main definitions:

* `Exchange.Reannounces`: a coordinator is about to handle a call from a linked peer that announces
  less than is held afterwards.

Main results:

* `Network.mem_arrivals_of_accepts`: a peer whose inbox has room gets what its view lacks;
* `Exchange.Reannounces.spreads`: the message of the call's group is published to all linked peers;
* `Exchange.sends_what_the_view_lacks`: what a peer that announces less is sent;
* `Exchange.lost_part_not_sent`: a part that a peer has lost is not sent to it again.
-/

import PartExchange.Proofs.Eviction
import PartExchange.Proofs.Knowledge
import PartExchange.Proofs.Provenance
import PartExchange.Proofs.ViewSoundness

set_option relaxedAutoImplicit false
set_option autoImplicit false

namespace PartExchange

/-! ### Stores that are replayed -/

/-- A store that is replayed is in order. -/
theorem Store.ordered_replay (limit : Option Nat) (jobs : List Job) :
    ∃ joinings, Ordered limit joinings (replay limit jobs).1 := by
  induction jobs with
  | nil => exact ⟨[], Run.start.ordered⟩
  | cons job earlier ih =>
    obtain ⟨joinings, ordered⟩ := ih
    exact ⟨_, ordered.react job.request⟩

namespace Network

/-! ### A peer whose inbox has room -/

section Sending

variable {net : Network} {k j : Nat} {topic : Topic} {m : Message} {self peer : PeerId}
  (registered : net.Registered) (home : net.endpointOf? peer = some j)

include registered home

/-- A call to another peer leaves an inbox and the view of its peer as they are. -/
theorem sendTo_other {target : PeerId} (other : target ≠ peer) :
    (net.sendTo k topic m target).inbox j = net.inbox j ∧
      (net.sendTo k topic m target).view k ⟨peer, topic, m.group⟩ =
        net.view k ⟨peer, topic, m.group⟩ := by
  rcases net.sendTo_cases k topic m target with same | ⟨sender, j', sent⟩
  · rw [same]
    exact ⟨rfl, rfl⟩
  · have elsewhere : j ≠ j' := by
      rintro rfl
      exact other (registered.eq_of_endpointOf? sent.receiver home)
    refine ⟨?_, ?_⟩
    · rw [sent.inbox, if_neg elsewhere, List.append_nil]
    · rw [sent.view, if_neg]
      rintro ⟨-, key⟩
      exact other (congrArg ViewKey.peer key).symm

/-- A peer whose inbox has room gets the parts that its view lacks, wherever it stands among the
receivers. -/
theorem mem_arrivals_of_accepts {targets : List PeerId} (origin : net.peerAt? k = some self)
    (accepts : net.Accepts j) (stale : net.view k ⟨peer, topic, m.group⟩ ≠ m.available)
    (listed : peer ∈ targets) :
    ⟨self, Rpc.update topic m (net.view k ⟨peer, topic, m.group⟩)⟩ ∈
      net.arrivals (targets.foldl (fun net => net.sendTo k topic m) net) j := by
  induction targets generalizing net with
  | nil => cases listed
  | cons target rest ih =>
    have later := @spreads_foldl k topic m rest (net.sendTo k topic m target) rest
      (List.Subset.refl _)
    by_cases here : target = peer
    · subst here
      obtain ⟨endpoint, present, rfl⟩ := peerAt?_eq_some.1 origin
      obtain ⟨receiver, there, room⟩ := (Option.any_eq_true _ _).1 accepts
      have sent := sent_sendTo present home there (view_of_present present _ ▸ stale) room
      have appended := (later.inbox j).trans (congrArg (· ++ _) (sent.inbox j))
      rw [if_pos rfl, List.append_assoc] at appended
      rw [List.foldl_cons, arrivals_of_append appended]
      exact List.mem_append_left _ (List.mem_singleton_self _)
    · have framed := (@spreads_sendTo k topic m [target] net target
        (List.mem_singleton_self _)).toFramed
      obtain ⟨inbox, view⟩ := @sendTo_other _ k _ topic m _ registered home _ here
      have found := ih (registered.framed framed) ((framed.endpointOf? peer).trans home)
        ((framed.peerAt? k).trans origin) (accepts.framed framed inbox) (view ▸ stale)
        ((List.mem_cons.1 listed).resolve_left (Ne.symm here))
      rw [view] at found
      rw [List.foldl_cons, arrivals, ← inbox]
      exact found

/-- A peer that is believed to hold exactly what is published gets nothing. -/
theorem arrivals_eq_nil_of_known {targets : List PeerId} {net' : Network}
    (spreads : Spreads k topic m targets net net')
    (known : net.view k ⟨peer, topic, m.group⟩ = m.available) : net.arrivals net' j = [] := by
  apply List.eq_nil_iff_forall_not_mem.2
  intro envelope arrived
  obtain ⟨sender, target, stale, -, -, found, -, differs, below, upTo⟩ :=
    spreads.arrival j envelope arrived
  obtain rfl := registered.eq_of_endpointOf? found home
  -- The view grows by no more than the calls carry, and they carry only what is published.
  have bound : net'.view k ⟨target, topic, m.group⟩ ≤ m.available := by
    intro index claims
    rcases spreads.learnt target index claims with old | ⟨j', -, envelope', arrived', carries⟩
    · rwa [← known]
    · obtain ⟨_, _, _, -, -, -, rfl, -⟩ := spreads.arrival j' envelope' arrived'
      rw [Rpc.carried_update] at carries
      exact m.diff_le_available _ index carries
  apply differs
  apply le_antisymm
  · exact ((PartSet.le_union_left _ _).trans upTo).trans bound
  · exact known ▸ below

end Sending

end Network

namespace Exchange

/-! ### A call that announces less than is held -/

/-- The coordinator of number `i`, at endpoint `k` of peer `own`, is about to handle a call that peer
`peer` has put into an inbox, and stores the message `m` of the call's group afterwards.  The call
announces less than that; the peer is linked, and its inbox, at endpoint `j`, has room. -/
structure Reannounces (h : History) (e e' : Exchange) (i k j : Nat) (own peer : PeerId) (rpc : Rpc)
    (m : Message) : Prop where
  /-- The coordinator works at the endpoint. -/
  works : e.stations[i]?.map Station.outlet = some (.endpoint k)
  /-- The endpoint is that of the peer. -/
  origin : e.carriers.net.peerAt? k = some own
  /-- The call has been put into an inbox. -/
  posted : ∃ posting ∈ h.posted, posting.envelope = ⟨peer, rpc⟩
  /-- The call is what the coordinator handles next. -/
  next : (e.upcoming? i).map Job.request = some (.rpc (Envelope.delivery ⟨peer, rpc⟩))
  /-- The message is stored afterwards. -/
  stores : (e'.stations[i]?.bind fun s => s.coordinator.store.get? rpc.topic rpc.group) = some m
  /-- The call announces less than that. -/
  lacks : (rpc.announced?.any fun held => ¬ m.available ≤ held) = true
  /-- The peer is linked. -/
  linked : e.carriers.net.linked own peer = true
  /-- Calls to the peer arrive at its endpoint. -/
  home : e.carriers.net.endpointOf? peer = some j
  /-- The peer's inbox has room. -/
  accepts : e.carriers.net.Accepts j

instance (h : History) (e e' : Exchange) (i k j : Nat) (own peer : PeerId) (rpc : Rpc)
    (m : Message) : Decidable (Reannounces h e e' i k j own peer rpc m) :=
  decidable_of_iff
    (e.stations[i]?.map Station.outlet = some (.endpoint k) ∧
      e.carriers.net.peerAt? k = some own ∧ (∃ posting ∈ h.posted, posting.envelope = ⟨peer, rpc⟩) ∧
      (e.upcoming? i).map Job.request = some (.rpc (Envelope.delivery ⟨peer, rpc⟩)) ∧
      (e'.stations[i]?.bind fun s => s.coordinator.store.get? rpc.topic rpc.group) = some m ∧
      (rpc.announced?.any fun held => ¬ m.available ≤ held) = true ∧
      e.carriers.net.linked own peer = true ∧ e.carriers.net.endpointOf? peer = some j ∧
      e.carriers.net.Accepts j)
    ⟨fun ⟨works, origin, posted, next, stores, lacks, linked, home, accepts⟩ =>
        ⟨works, origin, posted, next, stores, lacks, linked, home, accepts⟩,
      fun ⟨works, origin, posted, next, stores, lacks, linked, home, accepts⟩ =>
        ⟨works, origin, posted, next, stores, lacks, linked, home, accepts⟩⟩

section Reannounces

variable {allowed : Exchange → Action → Prop} {capacity : Nat} {h : History} {e e' : Exchange}
  {i k j : Nat} {own peer : PeerId} {rpc : Rpc} {m : Message}
  (run : Run allowed (.new capacity) h e) (acts : e.act? (.serve i) = some e')

include run acts

/-- The message of a call's group is found once the call has been handled, whatever the limit of the
store. -/
theorem Run.stored_of_call {s : Station} (here : e.stations[i]? = some s) {id : Nat} {d : Delivery}
    (next : e.upcoming? i = some ⟨id, .rpc d⟩) (acceptable : d.rpc.Acceptable) :
    (e'.stations[i]?.bind fun s => s.coordinator.store.get? d.rpc.topic d.rpc.group) =
      some (s.coordinator.store.afterCall d.rpc) := by
  obtain ⟨log, serving⟩ := run.serving
  have effects : e.effects? i = some (s.coordinator.store, s.coordinator.log) := by
    rw [effects?, here]
    rfl
  -- The store has come about by the requests that have been handled, so it is in order.
  obtain ⟨limit, replayed⟩ := serving.replayed.replay effects
  obtain ⟨joinings, ordered⟩ := Store.ordered_replay limit (recordOf log i)
  rw [← replayed] at ordered
  obtain ⟨t, here', ⟨none, -⟩ | ⟨job, lane, c', next', served, -, -, -, stations⟩⟩ :=
    reports_of_stationStep? acts
  · rw [next] at none
    cases none
  · obtain rfl : s = t := Option.some.inj (here.symm.trans here')
    obtain rfl : _ = job := Option.some.inj (next.symm.trans next')
    rw [stations, getElem?_putCoordinator, if_pos rfl, here, Option.map_some, Option.bind_some,
      served.store]
    exact Store.get?_afterCall ordered.roomy acceptable

variable (answers : Reannounces h e e' i k j own peer rpc m)

include answers

/-- The message that is stored is published to all linked peers. -/
theorem Reannounces.spreads : m.group = rpc.group ∧
    e'.carriers.net = e.carriers.net.carry k (some ⟨rpc.topic, m, []⟩) := by
  obtain ⟨s, here, outlet⟩ := Option.map_eq_some_iff.1 answers.works
  obtain ⟨⟨id, request⟩, next, rfl⟩ := Option.map_eq_some_iff.1 answers.next
  obtain ⟨posting, posted, envelope⟩ := answers.posted
  have acceptable := run.acceptable_of_posted posted
  rw [envelope] at acceptable
  have now : m = s.coordinator.store.afterCall rpc :=
    Option.some.inj (answers.stores.symm.trans (run.stored_of_call acts here next acceptable))
  refine ⟨by rw [now, Store.group_afterCall], ?_⟩
  -- The peer's announcement differs from what is held now, so that is published.
  obtain ⟨held, announced, less⟩ := (Option.any_eq_true _ _).1 answers.lacks
  have published : (s.coordinator.store.react
      (.rpc (Envelope.delivery ⟨peer, rpc⟩))).publication = some ⟨rpc.topic, m, []⟩ := by
    rw [now, Store.publication_react_rpc acceptable, if_pos]
    · rfl
    · refine Or.inr (Or.inl ⟨held, announced, ?_⟩)
      rintro rfl
      exact of_decide_eq_true less (now ▸ le_refl _)
  rw [carriers_stationStep? here acts, next, Option.bind_some, published, outlet,
    Network.net_carry]

/-- Whatever the view of the peer lacks goes out in one call. -/
theorem Reannounces.brings
    (stale : e.carriers.net.view k ⟨peer, rpc.topic, rpc.group⟩ ≠ m.available) :
    ∃ envelope ∈ e.carriers.net.arrivals e'.carriers.net j,
      envelope.key = ⟨own, rpc.topic, rpc.group⟩ ∧ envelope.rpc.parts =
        m.partsIn (m.available.diff (e.carriers.net.view k ⟨peer, rpc.topic, rpc.group⟩)) := by
  obtain ⟨group, published⟩ := answers.spreads run acts
  have listed := Network.mem_targets_of_linked answers.origin answers.linked
  rw [← group] at stale ⊢
  have found := Network.mem_arrivals_of_accepts run.witnessed.registered answers.home
    answers.origin answers.accepts stale listed
  rw [published]
  exact ⟨_, found, rfl, Rpc.parts_update rpc.topic m _⟩

/-- A call carries only parts that are held and that the view of the peer does not count. -/
theorem Reannounces.fresh {envelope : Envelope}
    (arrived : envelope ∈ e.carriers.net.arrivals e'.carriers.net j) {part : Nat × Part}
    (carries : part ∈ envelope.rpc.parts) : m.part? part.1 = some part.2 ∧
      (e.carriers.net.view k ⟨peer, rpc.topic, rpc.group⟩).contains part.1 = false := by
  obtain ⟨group, published⟩ := answers.spreads run acts
  have spreads := Network.spreads_carry e.carriers.net k ⟨rpc.topic, m, []⟩
  rw [published] at arrived
  obtain ⟨sender, target, known, -, -, found, rfl, -, below, -⟩ :=
    spreads.arrival j envelope arrived
  obtain rfl := run.witnessed.registered.eq_of_endpointOf? found answers.home
  rw [Rpc.parts_update, Message.mem_partsIn, PartSet.contains_diff] at carries
  refine ⟨carries.2, ?_⟩
  rw [← group, ← Bool.not_eq_true]
  intro counted
  simp [below part.1 counted] at carries

/-- **A peer that announces less is sent what the view of it lacks.**  If the view is what is held,
nothing is sent.  Otherwise a call is put into the inbox that carries exactly the parts that are
held and that the view does not count; no call carries any other.  The view counts only parts that
have been put into an inbox of the peer, or that the peer has announced.  Where nothing is ever
lost, one call carries all that the peer's store lacks, once nothing about the group is on its way
to the peer. -/
theorem sends_what_the_view_lacks :
    let key : ViewKey := ⟨peer, rpc.topic, rpc.group⟩
    let known := e.carriers.net.view k key
    let sent := e.carriers.net.arrivals e'.carriers.net j
    (known = m.available → sent = []) ∧
      (known ≠ m.available → ∃ envelope ∈ sent, envelope.key = ⟨own, rpc.topic, rpc.group⟩ ∧
        envelope.rpc.parts = m.partsIn (m.available.diff known)) ∧
      (∀ envelope ∈ sent, ∀ part ∈ envelope.rpc.parts,
        m.part? part.1 = some part.2 ∧ known.contains part.1 = false) ∧
      (∀ index, known.contains index = true →
        h.Queued e.carriers.net k key index ∨ h.Told k key index) ∧
      ((∀ e action, allowed e action → e.Orderly action) → ¬ e.Deaf j →
        (∀ d ∈ e.transit j,
          ¬ (d.sender = own ∧ d.rpc.topic = rpc.topic ∧ d.rpc.group = rpc.group)) →
        ¬ m.available ≤ e.holding j rpc.topic rpc.group →
        ∃ envelope ∈ sent, envelope.key = ⟨own, rpc.topic, rpc.group⟩ ∧
          ∀ index part, m.part? index = some part →
            (e.holding j rpc.topic rpc.group).contains index = false →
            (index, part) ∈ envelope.rpc.parts) := by
  intro key known sent
  have witnessed := run.witnessed
  refine ⟨?_, answers.brings run acts, fun _ arrived _ => answers.fresh run acts arrived,
    fun _ => witnessed.known, ?_⟩
  · intro full
    obtain ⟨group, published⟩ := answers.spreads run acts
    have spreads := Network.spreads_carry e.carriers.net k ⟨rpc.topic, m, []⟩
    rw [← published] at spreads
    refine Network.arrivals_eq_nil_of_known witnessed.registered answers.home spreads ?_
    rw [group]
    exact full
  · intro orderly listens idle lacks
    -- Whatever is believed of the peer is held there, so what it lacks is not believed.
    have bound : known ≤ e.holding j rpc.topic rpc.group :=
      (run.sound orderly).view_le_holding_of_idle answers.origin answers.home listens idle
    obtain ⟨envelope, arrived, about, parts⟩ := answers.brings run acts fun full => lacks (full ▸ bound)
    refine ⟨envelope, arrived, about, ?_⟩
    intro index part has absent
    have held : m.available.contains index = true := by simp [has]
    have unknown : known.contains index = false := by
      rw [← Bool.not_eq_true]
      intro counted
      rw [bound index counted] at absent
      cases absent
    rw [parts, Message.mem_partsIn, PartSet.contains_diff]
    exact ⟨by simp [held, key, known, unknown], has⟩

end Reannounces

/-- The first peer's part reaches the second peer, whose store holds one group only.  Another group
takes the place of the group there, and then the group is made anew, without the part, and is
published. -/
def relapse : List Action :=
  [.join (uniformPeer 1), .join (uniformPeer 2), .attach 0 {},
    .attach 1 { maxGroupsPerTopic := some 1 }, .openPump 0, .openPump 1,
    .connect (uniformPeer 1) (uniformPeer 2),
    .request 0 (.add default (uniformMessage default 3 5)), .serve 0,
    .request 0 (.publish default default []), .serve 0, .pump 1, .serve 1,
    .request 1 (.add default (.new (.ofUInt64 2))), .serve 1,
    .request 1 (.add default (.new default)), .serve 1,
    .request 1 (.publish default default []), .serve 1, .pump 0]

/-- A part that the second peer has lost is not sent to it again, although it announces that it lacks
the part, nothing is on its way to it, and its inbox has room. -/
theorem lost_part_not_sent :
    ∃ h e e', Run AddsOnly (.new 4) h e ∧ e.act? (.serve 0) = some e' ∧
      Reannounces h e e' 0 0 1 (uniformPeer 1) (uniformPeer 2)
        (.announce default default .empty) (uniformMessage default 3 5) ∧
      ¬ e.Deaf 1 ∧ e.transit 1 = [] ∧
      (uniformMessage default 3 5).available.contains 3 = true ∧
      (e.holding 1 default default).contains 3 = false ∧
      e.carriers.net.arrivals e'.carriers.net 1 = [] := by
  have check : ((play? AddsOnly {} (.new 4) relapse).any fun r =>
      (r.2.act? (.serve 0)).any fun e' =>
        Reannounces r.1 r.2 e' 0 0 1 (uniformPeer 1) (uniformPeer 2)
          (.announce default default .empty) (uniformMessage default 3 5) ∧
        ¬ r.2.Deaf 1 ∧ r.2.transit 1 = [] ∧
        (uniformMessage default 3 5).available.contains 3 = true ∧
        (r.2.holding 1 default default).contains 3 = false ∧
        r.2.carriers.net.arrivals e'.carriers.net 1 = []) = true := by
    decide +kernel
  obtain ⟨⟨h, e⟩, played, check⟩ := (Option.any_eq_true _ _).1 check
  obtain ⟨e', acts, holds⟩ := (Option.any_eq_true _ _).1 check
  exact ⟨h, e, e', Run.start.play played, acts, of_decide_eq_true holds⟩

/-- Each peer adds a part of one group, and the second publishes what it has. -/
def exchangedParts : List Action :=
  [.join (uniformPeer 1), .join (uniformPeer 2), .attach 0 {}, .attach 1 {}, .openPump 0,
    .openPump 1, .connect (uniformPeer 1) (uniformPeer 2),
    .request 0 (.add default (uniformMessage default 3 5)), .serve 0,
    .request 1 (.add default (uniformMessage default 4 6)), .serve 1,
    .request 1 (.publish default default []), .serve 1, .pump 0]

/-- The second peer is sent the part that it lacks. -/
theorem lacking_part_sent :
    ∃ h e e', Run Orderly (.new 4) h e ∧ e.act? (.serve 0) = some e' ∧
      ∃ envelope ∈ e.carriers.net.arrivals e'.carriers.net 1,
        envelope.key = ⟨uniformPeer 1, default, default⟩ ∧
          ∃ part, (uniformMessage default 3 5).part? 3 = some part ∧
            (3, part) ∈ envelope.rpc.parts := by
  let rpc := Rpc.update default (uniformMessage default 4 6) .empty
  let m := (uniformMessage default 4 6).fillAll ((uniformMessage default 3 5).partsIn .full)
  have check : ((play? Orderly {} (.new 4) exchangedParts).any fun r =>
      (r.2.act? (.serve 0)).any fun e' =>
        Reannounces r.1 r.2 e' 0 0 1 (uniformPeer 1) (uniformPeer 2) rpc m ∧ ¬ r.2.Deaf 1 ∧
          r.2.transit 1 = [] ∧ (r.2.holding 1 default default).contains 3 = false) = true := by
    decide +kernel
  obtain ⟨⟨h, e⟩, played, check⟩ := (Option.any_eq_true _ _).1 check
  obtain ⟨e', acts, holds⟩ := (Option.any_eq_true _ _).1 check
  obtain ⟨answers, listens, idle, absent⟩ := of_decide_eq_true holds
  have run := Run.start.play played
  have first : m.part? 3 = (uniformMessage default 3 5).part? 3 := by decide +kernel
  have held : m.available.contains 3 = true := by decide +kernel
  obtain ⟨-, -, -, -, recovers⟩ := sends_what_the_view_lacks run acts answers
  obtain ⟨envelope, arrived, about, carries⟩ := recovers (fun _ _ orderly => orderly) listens
    (by simp [idle]) fun bound => Bool.false_ne_true (absent.symm.trans (bound 3 held))
  obtain ⟨part, has⟩ := Option.isSome_iff_exists.1 ((m.contains_available 3).symm.trans held)
  exact ⟨h, e, e', run, acts, envelope, arrived, about, part, first ▸ has,
    carries 3 part has absent⟩

end Exchange

end PartExchange
