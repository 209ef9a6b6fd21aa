/-
**Replays are harmless.**

A network that delivers a call twice may do so after anything: the group of the call may have been
new the first time, other peers may have filled other slots or the same ones with other parts, and
the call may have been refused.  In a store without a limit none of this matters.  What a call has
brought stays there, be it the call's own parts or those that came first, and whether a call is
refused depends on nothing but the call.  So there is nothing left that the second delivery could
change, and nothing to report.  It may still cause an announcement, for the call says what its
sender had when it was sent, and that may be other than what is held by now.

Main results:

* `Store.get?_after_of_get?`: what is held stays, and only grows;
* `Store.held_of_mem`: what a call brings is there ever after;
* `Store.react_rpc_of_held`: a call whose parts are there changes nothing, and what it is answered
  with;
* `Coordinator.replays_are_harmless`: a call that is handled again, at any time.
-/

import PartExchange.Proofs.Announcing
import PartExchange.Proofs.CallOrder
import PartExchange.Proofs.Events
import PartExchange.Proofs.Ledger

set_option relaxedAutoImplicit false
set_option autoImplicit false

namespace PartExchange

namespace Store

/-! ### What stays -/

section Unlimited

variable {store : Store} (unlimited : store.limit = none)

include unlimited

/-- What is held stays, and only grows. -/
theorem get?_after_of_get? (jobs : List Job) {t : Topic} {g : GroupId} {m : Message}
    (held : store.get? t g = some m) :
    ∃ m', (store.after jobs).get? t g = some m' ∧ m.available ≤ m'.available := by
  induction jobs generalizing store m with
  | nil => exact ⟨m, held, le_refl _⟩
  | cons job rest ih =>
    obtain ⟨m', next, grown⟩ := @get?_react_of_get? _ unlimited job.request _ _ _ held
    obtain ⟨m'', after, grown'⟩ := ih ((limit_react store job.request).trans unlimited) next
    exact ⟨m'', after, grown.trans grown'⟩

/-- What a call brings is there ever after, unless the call is refused. -/
theorem held_of_mem {jobs : List Job} {job : Job} {delivery : Delivery} (occurs : job ∈ jobs)
    (asks : job.request = .rpc delivery) (acceptable : delivery.rpc.Acceptable) :
    ∃ m, (store.after jobs).get? delivery.rpc.topic delivery.rpc.group = some m ∧
      delivery.rpc.carried ≤ m.available := by
  induction jobs generalizing store with
  | nil => cases occurs
  | cons first rest ih =>
    have unlimited' := (limit_react store first.request).trans unlimited
    rcases List.mem_cons.1 occurs with rfl | later
    · have stored : (store.react job.request).store.get? delivery.rpc.topic delivery.rpc.group =
          some (store.afterCall delivery.rpc) := by
        rw [asks, get?_react_rpc unlimited acceptable, if_pos ⟨rfl, rfl⟩]
      obtain ⟨m, after, grown⟩ := get?_after_of_get? unlimited' rest stored
      rw [available_afterCall] at grown
      exact ⟨m, after, (PartSet.le_union_right _ _).trans grown⟩
    · exact ih unlimited' later

end Unlimited

/-! ### A call whose parts are there -/

section Held

variable {store : Store} {delivery : Delivery} {m : Message}
  (held : store.get? delivery.rpc.topic delivery.rpc.group = some m)
  (known : delivery.rpc.carried ≤ m.available)

include held known

/-- A call whose parts are there changes nothing, and nothing is reported. -/
theorem react_rpc_of_held (acceptable : delivery.rpc.Acceptable) :
    (store.react (.rpc delivery)).store = store ∧ (store.react (.rpc delivery)).events = [] := by
  refine ⟨(react_rpc_of_known held known).1, ?_⟩
  rw [events_react_rpc acceptable, afterCall_of_held held known, available_of_get? held,
    if_neg (not_not_intro rfl)]

/-- A call whose parts are there is answered exactly if it announces other parts. -/
theorem notable_iff_of_held : store.Notable delivery.rpc ↔
    ∃ byte, delivery.rpc.metadata = some [byte] ∧ byte ≠ m.available.bits := by
  have same := afterCall_of_held held known
  constructor
  · rintro (absent | ⟨index, empty, filled⟩ | ⟨byte, announced, other⟩)
    · rw [held] at absent
      cases absent
    · rw [same] at filled
      rw [current, held] at empty
      exact absurd empty filled
    · rw [same] at other
      exact ⟨byte, announced, other⟩
  · rintro ⟨byte, announced, other⟩
    rw [← same] at other
    exact .differs byte announced other

end Held

end Store

namespace Coordinator

variable {σ : Type} (send : Transport σ)

/-- Handling a call whose parts are there leaves the coordinator as it is. -/
theorem perform_of_held {c : Coordinator} {delivery : Delivery} {m : Message}
    (held : c.store.get? delivery.rpc.topic delivery.rpc.group = some m)
    (known : delivery.rpc.carried ≤ m.available) (acceptable : delivery.rpc.Acceptable) (s : σ)
    (id : Nat) :
    c.perform send s ⟨id, .rpc delivery⟩ =
      (c, carry send s (c.store.react (.rpc delivery)).publication) := by
  obtain ⟨still, unreported⟩ := Store.react_rpc_of_held held known acceptable
  have unanswered : (c.store.react (.rpc delivery)).reply = .silent :=
    (c.store.reply_react_eq_silent_iff _).2 rfl
  rw [perform_eq, still, unreported, unanswered, List.append_nil]
  rfl

/-- **Replays are harmless.**  A coordinator without a limit, whatever it holds, handles any jobs
over any transport, and a call that was among them comes again, from the same peer or another one.
It leaves the coordinator as it is, with what it stores, has reported and has answered.  If the call
was refused, the transport is asked nothing.  If it was not, its group is held by now, and the
transport is asked to publish the message that is held, once, exactly if the metadata of the call
are a single byte other than that of the message. -/
theorem replays_are_harmless {c : Coordinator} (unlimited : c.store.limit = none) (s : σ)
    {jobs : List Job} {job : Job} {first again : Delivery} (occurs : job ∈ jobs)
    (asks : job.request = .rpc first) (same : again.rpc = first.rpc) (id : Nat) :
    let rpc := again.rpc
    let now := c.handle send.traced (s, []) jobs
    let later := now.1.perform send.traced now.2 ⟨id, .rpc again⟩
    later.1 = now.1 ∧ ∃ published, later.2.2 = now.2.2 ++ published ∧
      (job ∈ c.store.refusals jobs → published = []) ∧
      (job ∉ c.store.refusals jobs → ∃ m, now.1.store.get? rpc.topic rpc.group = some m ∧
        (published = [] ∨ published = [⟨rpc.topic, m, again.replyTo⟩]) ∧
        (published ≠ [] ↔ ∃ byte, rpc.metadata = some [byte] ∧ byte ≠ m.available.bits)) := by
  intro rpc now later
  have refused_iff : job ∈ c.store.refusals jobs ↔ ¬ rpc.Acceptable := by
    rw [Store.refusals_eq_filter, List.mem_filter, and_iff_right occurs, Job.isRefused, asks]
    dsimp only [rpc]
    rw [same, Rpc.isRefused_iff]
  by_cases acceptable : rpc.Acceptable
  · -- The call was not refused the first time, so its parts have been there ever since.
    obtain ⟨m, held, known⟩ := Store.held_of_mem unlimited occurs asks (same ▸ acceptable)
    rw [← same, ← store_handle send.traced c (s, []) jobs] at held
    rw [← same] at known
    have performed := perform_of_held send.traced held known acceptable now.2 id
    change later = _ at performed
    rw [performed]
    refine ⟨rfl, _, asked_carry send now.2 _, ?_, fun _ => ⟨m, held, ?_, ?_⟩⟩
    · intro refused
      exact absurd acceptable (refused_iff.1 refused)
    · cases published : (now.1.store.react (.rpc again)).publication with
      | none => exact Or.inl rfl
      | some publication =>
        obtain ⟨-, -, rfl⟩ := Store.publication_eq_some_iff.1 published
        rw [Store.afterCall_of_held held known]
        exact Or.inr rfl
    · rw [← Store.notable_iff_of_held held known, Ne, Option.toList_eq_nil_iff, ← Ne,
        Option.ne_none_iff_exists']
      simp only [Store.publication_eq_some_iff, exists_and_left, exists_eq, and_true]
      exact and_iff_right acceptable
  · have refused : (⟨id, .rpc again⟩ : Job).isRefused = true := Rpc.isRefused_iff.2 acceptable
    have performed : later = now := perform_of_refused send.traced now.1 now.2 refused
    rw [performed]
    refine ⟨rfl, [], (List.append_nil _).symm, fun _ => rfl, fun taken => ?_⟩
    exact absurd (refused_iff.2 acceptable) taken

/-- A peer that has one part sends it, and another peer sends another part of the same group.  When
the first call comes again, there is nothing to add and nothing to report, but the first peer is
known to lack a part.  A third call is refused, and refused again. -/
theorem late_duplicate_announced :
    let send : Transport Unit := fun _ _ => ((), none)
    let part : Part := ⟨List.replicate partLength 7, List.length_replicate⟩
    let call (index : Nat) := Rpc.update default ((Message.new default).fill index part) .empty
    let garbled : Rpc := { call 3 with fragment := some [0] }
    let jobs : List Job := [⟨0, .rpc { sender := default, rpc := call 3 }⟩,
      ⟨1, .rpc { sender := default, rpc := garbled }⟩,
      ⟨2, .rpc { sender := default, rpc := call 5 }⟩]
    let now := (new {}).handle send.traced ((), []) jobs
    let again (rpc : Rpc) := now.1.perform send.traced now.2 ⟨3, .rpc { sender := default, rpc }⟩
    (again (call 3)).1 = now.1 ∧ (again (call 3)).2.2.length = 3 ∧
      (again garbled).1 = now.1 ∧ (again garbled).2.2.length = 2 := by
  intro send part call garbled jobs now again
  have unlimited : (new {}).store.limit = none := rfl
  have once : (⟨0, .rpc { sender := default, rpc := call 3 }⟩ : Job) ∈ jobs :=
    List.mem_cons_self ..
  have once' : (⟨1, .rpc { sender := default, rpc := garbled }⟩ : Job) ∈ jobs :=
    List.mem_cons_of_mem _ (List.mem_cons_self ..)
  have same : ({ sender := default, rpc := call 3 } : Delivery).rpc = call 3 := rfl
  have same' : ({ sender := default, rpc := garbled } : Delivery).rpc = garbled := rfl
  obtain ⟨still, -⟩ := replays_are_harmless send unlimited () once rfl same 3
  obtain ⟨still', -⟩ := replays_are_harmless send unlimited () once' rfl same' 3
  exact ⟨still, by decide +kernel, still', by decide +kernel⟩

end Coordinator

end PartExchange
