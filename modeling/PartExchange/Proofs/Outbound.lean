/-
**Nothing comes back from the transport.**

A coordinator hands publications over to its transport in the middle of its work, and the transport
may have any state and refuse whatever it likes.  Of two coordinators that handle the same jobs over
two transports, the stores, the reports and the publications that are handed over are the same all
the way.  The only thing that a transport says and a coordinator repeats is how a publication has
ended that somebody has asked for; and that is an answer, which the coordinator never looks at
again.

Main definitions:

* `Transport.traced`: a transport that also lists what it is asked to publish;
* `Coordinator.Concur`: two coordinators that differ in their answers at most.

Main results:

* `Store.publishes_of_outcome`: only a request to publish a group that is held is answered by the
  transport;
* `Coordinator.Concur.handle`: two coordinators stay alike over different transports;
* `Coordinator.transports_have_no_influence`: the whole of it, with the answers.
-/

import PartExchange.Exchange.Basic
import PartExchange.Proofs.Turns

set_option relaxedAutoImplicit false
set_option autoImplicit false

namespace PartExchange

variable {σ τ : Type}

/-- A transport that also lists all that it is asked to publish, oldest first, whatever becomes of
it. -/
def Transport.traced (send : Transport σ) : Transport (σ × List Publication) :=
  fun (s, asked) publication =>
    (((send s publication).1, asked ++ [publication]), (send s publication).2)

namespace Store

/-- The transport has a say only in the answer to a request to publish a group that is held. -/
theorem publishes_of_outcome {store : Store} {request : Request}
    (outcome : (store.react request).reply = .outcome) :
    ∃ topic group peers m, request = .publish topic group peers ∧
      store.get? topic group = some m ∧
        (store.react request).publication = some ⟨topic, m, peers⟩ := by
  cases request with
  | add topic m => cases outcome
  | publish topic group peers =>
    simp only [react, reactPublish] at outcome ⊢
    cases held : store.get? topic group with
    | none =>
      rw [held] at outcome
      cases outcome
    | some m => exact ⟨topic, group, peers, m, rfl, held, rfl⟩
  | rpc delivery =>
    simp only [react, reactRpc] at outcome
    split at outcome <;> cases outcome
  | get topic group => cases outcome

end Store

namespace Coordinator

variable (send : Transport σ) (send' : Transport τ)

/-! ### What is handed over -/

/-- What a traced transport lists after a publication that may be absent. -/
theorem asked_carry (s : σ × List Publication) (publication : Option Publication) :
    (carry send.traced s publication).2 = s.2 ++ publication.toList := by
  cases publication with
  | none => exact (List.append_nil s.2).symm
  | some publication => rfl

/-- Listing what is published does not change what the transport says. -/
theorem verdict_traced (s : σ × List Publication) (publication : Option Publication) :
    verdict send.traced s publication = verdict send s.1 publication := by
  cases publication <;> rfl

/-! ### Two transports -/

/-- Two coordinators that differ in their answers at most. -/
def Concur (c d : Coordinator) : Prop := ∃ answers, d = { c with answers }

section Concur

variable {c d : Coordinator} (concur : c.Concur d) (s : σ × List Publication)
  (s' : τ × List Publication) (asked : s'.2 = s.2)

include concur asked

/-- A job keeps two coordinators alike over different transports, and both hand over the same. -/
theorem Concur.perform (job : Job) :
    (c.perform send.traced s job).1.Concur (d.perform send'.traced s' job).1 ∧
      (d.perform send'.traced s' job).2.2 = (c.perform send.traced s job).2.2 := by
  obtain ⟨answers, rfl⟩ := concur
  rw [perform_eq, perform_eq, asked_carry, asked_carry, asked]
  exact ⟨⟨_, rfl⟩, rfl⟩

/-- Two coordinators stay alike over different transports, and hand over the same. -/
theorem Concur.handle (jobs : List Job) :
    (c.handle send.traced s jobs).1.Concur (d.handle send'.traced s' jobs).1 ∧
      (d.handle send'.traced s' jobs).2.2 = (c.handle send.traced s jobs).2.2 := by
  induction jobs generalizing c d s s' with
  | nil => exact ⟨concur, asked⟩
  | cons job rest ih =>
    obtain ⟨next, same⟩ := concur.perform send send' s s' asked job
    exact ih next _ _ same

omit asked in
/-- The answer to the next job is the same over both transports, unless somebody has asked to
publish a group that is held; then each transport says how the publication has ended. -/
theorem Concur.answers (job : Job) : ∃ given given',
    (c.perform send.traced s job).1.answers = given ++ c.answers ∧
      (d.perform send'.traced s' job).1.answers = given' ++ d.answers ∧
        (given' = given ∨ ∃ topic group peers m, job.request = .publish topic group peers ∧
          c.store.get? topic group = some m ∧
            given = [(job.id, .published (send s.1 ⟨topic, m, peers⟩).2)] ∧
              given' = [(job.id, .published (send' s'.1 ⟨topic, m, peers⟩).2)]) := by
  obtain ⟨answers, rfl⟩ := concur
  rw [perform_eq, perform_eq]
  refine ⟨_, _, rfl, rfl, ?_⟩
  rw [verdict_traced, verdict_traced]
  dsimp only
  cases reply : (c.store.react job.request).reply with
  | silent | answer said => exact Or.inl rfl
  | outcome =>
    obtain ⟨topic, group, peers, m, asks, held, published⟩ := Store.publishes_of_outcome reply
    rw [published]
    exact Or.inr ⟨topic, group, peers, m, asks, held, rfl, rfl⟩

end Concur

/-- **What the transport says never influences a coordinator.**  Two coordinators with the same
settings handle the same jobs, each over a transport of its own, and the transports do and refuse
what they like.  Then the stores and the reports are the same, and so is the list of what the
transports have been asked to publish: the messages, their topics and their destinations.  The next
answer is the same as well, be it to a request to add a message, to look a group up, or to publish a
group that is not held; only how the publication of a group that is held has ended is up to the
transport.  And no transport ends a coordinator: whatever is said to it, one that is not asked to
stop handles all that waits, and then waits itself. -/
theorem transports_have_no_influence (config : CoordinatorConfig) (jobs : List Job) (s : σ)
    (s' : τ) :
    let one := (new config).handle send.traced (s, []) jobs
    let two := (new config).handle send'.traced (s', []) jobs
    two.1.store = one.1.store ∧ two.1.log = one.1.log ∧ two.2.2 = one.2.2 ∧
      (∀ job, ∃ given given',
        (one.1.perform send.traced one.2 job).1.answers = given ++ one.1.answers ∧
          (two.1.perform send'.traced two.2 job).1.answers = given' ++ two.1.answers ∧
            (given' = given ∨ ∃ topic group peers m, job.request = .publish topic group peers ∧
              one.1.store.get? topic group = some m ∧
                given = [(job.id, .published (send one.2.1 ⟨topic, m, peers⟩).2)] ∧
                  given' = [(job.id, .published (send' two.2.1 ⟨topic, m, peers⟩).2)])) ∧
      ∀ c : Coordinator, c.ended = false → c.stopAsked = false →
        (c.handle send s c.waiting).1.SameBooks (c.run send false s).1 ∧
          (c.run send false s).2 = (c.handle send s c.waiting).2 ∧
            (c.run send false s).1.ended = false ∧ (c.run send false s).1.waiting = [] := by
  intro one two
  obtain ⟨concur, asked⟩ : one.1.Concur two.1 ∧ two.2.2 = one.2.2 :=
    Concur.handle send send' ⟨_, rfl⟩ _ _ rfl jobs
  refine ⟨?_, ?_, asked, concur.answers send send' _ _, fun c => run_eq_handle s⟩
  · obtain ⟨answers, same⟩ := concur
    rw [same]
  · obtain ⟨answers, same⟩ := concur
    rw [same]

/-- A group is added and published over a recorder that refuses, and over one that does not.  The
first coordinator is told of the refusal, and that is all the difference. -/
theorem recorder_refuses :
    let jobs : List Job := [⟨0, .add default (.new default)⟩, ⟨1, .publish default default []⟩]
    let carriers (failing : Bool) : Carriers :=
      { net := .new 1, recorders := [{ peer := default, failing }] }
    let result (failing : Bool) := (new {}).handle (Carriers.publish (.recorder 0)).traced
      (carriers failing, []) jobs
    (result false).1.store = (result true).1.store ∧ (result false).1.log = (result true).1.log ∧
      (result false).2.2 = (result true).2.2 ∧
      (result true).1.answers =
        [(1, .published (some (.transport .rejected))), (0, .inserted true)] ∧
      (result false).1.answers = [(1, .published none), (0, .inserted true)] ∧
      ((result true).1.run (Carriers.publish (.recorder 0)) false (carriers true)).1.ended =
        false := by
  intro jobs carriers result
  obtain ⟨stores, logs, asked, -, runs⟩ := transports_have_no_influence
    (Carriers.publish (.recorder 0)) (Carriers.publish (.recorder 0)) {} jobs (carriers true)
    (carriers false)
  obtain ⟨-, -, goes, -⟩ := runs (result true).1 (by decide +kernel) (by decide +kernel)
  refine ⟨stores, logs, asked, ?_, ?_, goes⟩
  · decide +kernel
  · decide +kernel

end Coordinator

end PartExchange
