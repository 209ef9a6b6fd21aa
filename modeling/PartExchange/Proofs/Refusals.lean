/-
**A call that is refused leaves no trace.**

The fragment of a call is read before anything else is done with the call.  If the fragment has
bytes and does not read back for the call's group, the coordinator forgets the call, whatever it
announces: no group is created and none has to leave, nothing is reported, nothing is answered and
nothing is published.  So the refused calls can be struck from what a coordinator handles, wherever
they stand, and everything else comes out the same, down to the order in which groups leave a full
topic.

Main definitions:

* `Rpc.isRefused`, `Job.isRefused`: whether the fragment of a call does not read back.

Main results:

* `Rpc.isRefused_iff`: a call is refused exactly if it is not acceptable;
* `Coordinator.perform_of_refused`: handling a refused call does nothing;
* `Coordinator.refused_calls_leave_no_trace`: refused calls can be struck from any sequence of
  requests, and from what waits in the queues.
-/

import PartExchange.Proofs.Outbound

set_option relaxedAutoImplicit false
set_option autoImplicit false

namespace PartExchange

/-! ### Refused calls -/

/-- Whether the fragment of a call has bytes and does not read back for the group of the call. -/
def Rpc.isRefused (rpc : Rpc) : Bool :=
  rpc.fragment.any fun data => !data.isEmpty && !(Fragment.decode data rpc.group).isOk

/-- A call is refused exactly if it is not acceptable. -/
theorem Rpc.isRefused_iff {rpc : Rpc} : rpc.isRefused = true ↔ ¬ rpc.Acceptable := by
  have read : ∀ data, (Fragment.decode data rpc.group).isOk = true ↔
      ∃ fragment, Fragment.decode data rpc.group = .ok fragment := by
    intro data
    cases Fragment.decode data rpc.group <;> simp [Except.isOk, Except.toBool]
  unfold isRefused Acceptable payload?
  cases rpc.fragment with
  | none => simp
  | some data =>
    rw [Option.any_some, Bool.and_eq_true, Bool.not_eq_true', Bool.not_eq_true',
      Bool.eq_false_iff (b := Except.isOk _), Ne, read]
    cases empty : data.isEmpty <;> simp [Option.filter, empty]

/-- Whether a job is a call that is refused. -/
def Job.isRefused (job : Job) : Bool :=
  match job.request with
  | .rpc delivery => delivery.rpc.isRefused
  | _ => false

/-- A refused call has no effect on any store. -/
theorem Store.react_of_refused {store : Store} {job : Job} (refused : job.isRefused = true) :
    store.react job.request = { store } := by
  unfold Job.isRefused at refused
  cases asks : job.request with
  | rpc delivery =>
    rw [asks] at refused
    exact react_rpc_of_not_acceptable (Rpc.isRefused_iff.1 refused)
  | add _ _ | publish _ _ _ | get _ _ =>
    rw [asks] at refused
    cases refused

namespace Coordinator

variable {σ : Type} (send : Transport σ)

/-- Handling a refused call does nothing: the coordinator and its transport stay as they are. -/
theorem perform_of_refused (c : Coordinator) (s : σ) {job : Job} (refused : job.isRefused = true) :
    c.perform send s job = (c, s) := by
  rw [perform_eq, Store.react_of_refused refused]
  simp [Reply.given, carry]

/-- Refused calls can be struck from the jobs that a coordinator handles. -/
theorem handle_filter_not_refused (c : Coordinator) (s : σ) (jobs : List Job) :
    c.handle send s (jobs.filter fun job => !job.isRefused) = c.handle send s jobs := by
  induction jobs generalizing c s with
  | nil => rfl
  | cons job rest ih =>
    cases refused : job.isRefused with
    | true =>
      rw [List.filter_cons_of_neg (by simp [refused]), ih, handle_cons,
        perform_of_refused send c s refused]
    | false =>
      rw [List.filter_cons_of_pos (by simp [refused]), handle_cons, handle_cons, ih]

/-- **A refused call leaves no trace.**  Whatever a coordinator is set to and has done before, and
whatever its transport does, striking all refused calls from the requests that it handles changes
nothing: neither the store, with the order in which groups leave it, nor the reports, nor the
answers, nor what the transport is asked to publish and what becomes of it.  The same holds of the
requests that wait when it runs.  One refused call does nothing by itself, whatever it announces. -/
theorem refused_calls_leave_no_trace (c : Coordinator) (s : σ) (jobs : List Job) :
    c.handle send.traced (s, []) (jobs.filter fun job => !job.isRefused) =
        c.handle send.traced (s, []) jobs ∧
      (c.ended = false → c.stopAsked = false →
        (c.handle send.traced (s, []) (c.waiting.filter fun job => !job.isRefused)).1.SameBooks
            (c.run send.traced false (s, [])).1 ∧
          (c.run send.traced false (s, [])).2 =
            (c.handle send.traced (s, []) (c.waiting.filter fun job => !job.isRefused)).2) ∧
      ∀ (id : Nat) (delivery : Delivery) (metadata : Option Bytes),
        delivery.rpc.isRefused = true →
          c.perform send.traced (s, [])
            ⟨id, .rpc { delivery with rpc := { delivery.rpc with metadata } }⟩ = (c, (s, [])) := by
  refine ⟨handle_filter_not_refused _ c _ jobs, ?_, ?_⟩
  · intro running goes
    rw [handle_filter_not_refused]
    obtain ⟨books, sent, -⟩ := run_eq_handle (s, ([] : List Publication)) running goes
    exact ⟨books, sent⟩
  · intro id delivery metadata refused
    exact perform_of_refused send.traced c (s, []) refused

/-- A store that is full keeps its group when a call for another group announces every part, but
carries a single byte. -/
theorem full_store_keeps_its_group :
    let send : Transport Unit := fun _ _ => ((), none)
    let c := ((new { maxGroupsPerTopic := some 1 }).handle send.traced ((), [])
      [⟨0, .add default (.new default)⟩]).1
    let call : Rpc := { topic := default, group := .ofUInt64 1,
                        metadata := some PartSet.full.metadata, fragment := some [0] }
    let job : Job := ⟨1, .rpc { sender := default, rpc := call }⟩
    c.store.contains default default = true ∧ c.store.limit = some 1 ∧ call.isRefused = true ∧
      c.perform send.traced ((), []) job = (c, ((), [])) ∧
      (c.handle send.traced ((), []) (c.waiting.filter fun job => !job.isRefused)).1.SameBooks
        (c.run send.traced false ((), [])).1 := by
  intro send c call job
  have refused : call.isRefused = true := by decide +kernel
  obtain ⟨-, runs, alone⟩ := refused_calls_leave_no_trace send c () [job]
  refine ⟨by decide +kernel, by decide +kernel, refused, ?_, ?_⟩
  · exact alone 1 { sender := default, rpc := call } call.metadata refused
  · exact (runs (by decide +kernel) (by decide +kernel)).1

end Coordinator

end PartExchange
