/-
**What a publication does step by step.**

A publication under way serves one peer after the other: it makes up a call from the view of the peer,
looks up the peer's inbox, puts the call into it and notes what the call carries.  Only the last of these
changes a view, and only the one before moves a call.  It may also pass on to the next peer at any time
but that between the two.

Main definitions:

* `Network.Advance`: the things that a publication can do next.

Main results:

* `Network.update_of_callFor?`: a call carries nothing that its sender's view counts;
* `Network.advance_of_advance?`: a step of a publication is one of five.
-/

import PartExchange.Proofs.Network

set_option relaxedAutoImplicit false
set_option autoImplicit false

namespace PartExchange

namespace Network

variable {net net' : Network}

/-- A call is about the message it is made up from.  It carries what it says it includes, and nothing that
the view counts. -/
theorem update_of_callFor? {self : Endpoint} {topic : Topic} {m : Message} {target : PeerId}
    {rpc : Rpc} {included : PartSet} (call : callFor? self topic m target = some (rpc, included)) :
    (rpc.topic = topic ∧ rpc.group = m.group) ∧ included = rpc.carried ∧
      ∀ index, rpc.carried.contains index = true →
        (self.view ⟨target, topic, m.group⟩).contains index = false := by
  rw [callFor?_eq] at call
  obtain ⟨-, same⟩ := Option.ite_none_left_eq_some.1 call
  cases same
  rw [Rpc.carried_update]
  refine ⟨⟨rfl, rfl⟩, rfl, fun index carries => ?_⟩
  rw [PartSet.contains_diff, Bool.and_eq_true, Bool.not_eq_true'] at carries
  exact carries.2

/-- What a publication does in one step, for the peer whose turn it is. -/
inductive Advance (net : Network) (f : Flight) (target : PeerId) : Network → Flight → Prop
  | passes (unsent : ∀ included, f.leg ≠ .queued included) : Advance net f target net f.next
  | makes {self : Endpoint} {rpc : Rpc} {included : PartSet} (due : f.leg = .due)
      (present : net.endpoints[f.endpoint]? = some self)
      (call : callFor? self f.topic f.message target = some (rpc, included)) :
      Advance net f target net { f with leg := .made ⟨self.peer, rpc⟩ included }
  | addresses {j : Nat} {envelope : Envelope} {included : PartSet}
      (made : f.leg = .made envelope included) (found : net.endpointOf? target = some j) :
      Advance net f target net { f with leg := .addressed j envelope included }
  | queues {net' : Network} {j : Nat} {envelope : Envelope} {included : PartSet}
      (addressed : f.leg = .addressed j envelope included)
      (posts : net.post? j envelope = some net') :
      Advance net f target net' { f with leg := .queued included }
  | notes {included : PartSet} (queued : f.leg = .queued included) :
      Advance net f target (net.modify f.endpoint (·.mergeView (f.key target) included)) f.next

/-- A step of a publication is one of five. -/
theorem advance_of_advance? {f f' : Flight} (goes : net.advance? f = some (net', f')) :
    ∃ target rest, f.targets = target :: rest ∧ Advance net f target net' f' := by
  unfold advance? at goes
  split at goes
  · cases goes
  rename_i target rest turn
  refine ⟨target, rest, turn, ?_⟩
  split at goes
  · rename_i due
    have unsent : ∀ included, f.leg ≠ .queued included := by
      intro _ queued
      rw [due] at queued
      cases queued
    split at goes
    · cases goes
      exact .passes unsent
    · rename_i self present
      split at goes
      · cases goes
        exact .passes unsent
      · rename_i call
        cases goes
        exact .makes due present call
  · rename_i envelope included made
    split at goes
    · cases goes
      refine .passes fun _ queued => ?_
      rw [made] at queued
      cases queued
    · rename_i found
      cases goes
      exact .addresses made found
  · rename_i j envelope included addressed
    split at goes
    · cases goes
      refine .passes fun _ queued => ?_
      rw [addressed] at queued
      cases queued
    · rename_i posts
      cases goes
      exact .queues addressed posts
  · rename_i included queued
    cases goes
    exact .notes queued

end Network

end PartExchange
