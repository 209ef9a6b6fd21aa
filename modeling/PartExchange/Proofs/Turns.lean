/-
**In which order a coordinator takes its jobs.**

A coordinator that nobody asks to stop takes the oldest job of the first lane that has one, and so
on until no lane has any.  A job is taken only when all lanes before its own are empty, so the
lookups, whose lane is the last, come when nothing else waits.  Nothing enters while a coordinator
runs, and it handles all that waits in a row, lane by lane.

Main definitions:

* `Reply.given`: the answers that a reply amounts to;
* `Coordinator.verdict`: what a transport says to a publication;
* `Coordinator.waiting`: the jobs that wait, in the order in which they are taken.

Main results:

* `Coordinator.perform_eq`: what handling a job does, in one equation;
* `Coordinator.next?_first`: a job is taken when all lanes before its own are empty;
* `Coordinator.run_eq_handle`: a run handles all that waits, and does not end the coordinator.
-/

import PartExchange.Proofs.Coordinator
import PartExchange.Proofs.Events

set_option relaxedAutoImplicit false
set_option autoImplicit false

namespace PartExchange

/-- The answers that a reply amounts to under a number, given what the transport says. -/
def Reply.given (id : Nat) (failure : Option SyncError) : Reply → List (Nat × Answer)
  | .silent => []
  | .answer said => [(id, said)]
  | .outcome => [(id, .published failure)]

namespace Coordinator

variable {σ : Type} {send : Transport σ}

/-! ### Handling a job -/

/-- What a transport says to a publication that may be absent. -/
def verdict (send : Transport σ) (s : σ) : Option Publication → Option SyncError
  | none => none
  | some publication => (send s publication).2

/-- What handling a job does: the store and the reports are those of the reaction, and the transport
has a say in the answer at most. -/
theorem perform_eq (send : Transport σ) (c : Coordinator) (s : σ) (job : Job) :
    c.perform send s job =
      ({ c with
          store := (c.store.react job.request).store
          log := c.log ++ (c.store.react job.request).events
          answers := (c.store.react job.request).reply.given job.id
            (verdict send s (c.store.react job.request).publication) ++ c.answers },
        carry send s (c.store.react job.request).publication) := by
  simp only [perform, carry, verdict]
  cases (c.store.react job.request).publication <;>
    cases (c.store.react job.request).reply <;> rfl

@[simp] theorem handle_cons (send : Transport σ) (c : Coordinator) (s : σ) (job : Job)
    (rest : List Job) : c.handle send s (job :: rest) =
      (c.perform send s job).1.handle send (c.perform send s job).2 rest := rfl

/-- Two coordinators with the same store, the same reports and the same answers. -/
structure SameBooks (c d : Coordinator) : Prop where
  /-- The store. -/
  store : d.store = c.store
  /-- The reports. -/
  log : d.log = c.log
  /-- The answers. -/
  answers : d.answers = c.answers

theorem SameBooks.refl (c : Coordinator) : c.SameBooks c := ⟨rfl, rfl, rfl⟩

theorem SameBooks.trans {c c' c'' : Coordinator} (first : c.SameBooks c')
    (second : c'.SameBooks c'') : c.SameBooks c'' where
  store := second.store.trans first.store
  log := second.log.trans first.log
  answers := second.answers.trans first.answers

/-- The queues do not matter for the jobs that are handled. -/
theorem SameBooks.handle {c d : Coordinator} (same : c.SameBooks d) (s : σ) (jobs : List Job) :
    (c.handle send s jobs).1.SameBooks (d.handle send s jobs).1 ∧
      (d.handle send s jobs).2 = (c.handle send s jobs).2 := by
  induction jobs generalizing c d s with
  | nil => exact ⟨same, rfl⟩
  | cons job rest ih =>
    have next : (c.perform send s job).1.SameBooks (d.perform send s job).1 := by
      rw [perform_eq, perform_eq, same.store, same.log, same.answers]
      exact ⟨rfl, rfl, rfl⟩
    have carried : (d.perform send s job).2 = (c.perform send s job).2 := by
      rw [perform_eq, perform_eq, same.store]
    rw [handle_cons, handle_cons, carried]
    exact ih next (c.perform send s job).2

/-! ### Taking jobs -/

/-- The job that is taken next is the oldest of its lane, and all lanes before that are empty. -/
theorem next?_first {c rest : Coordinator} {job : Job} (next : c.next? = some (job, rest)) :
    ∃ before lane after q, Lane.order = before ++ lane :: after ∧
      (∀ other ∈ before, (c.queue other).items = []) ∧
        (c.queue lane).take? = some (job, q) ∧ rest = c.setQueue lane q := by
  obtain ⟨before, lane, after, order, taken, none⟩ := List.findSome?_eq_some_iff.1 next
  obtain ⟨⟨oldest, q⟩, found, same⟩ := Option.map_eq_some_iff.1 taken
  obtain ⟨rfl, rfl⟩ := Prod.mk.injEq .. ▸ same
  refine ⟨before, lane, after, q, order, ?_, found, rfl⟩
  intro other member
  exact Queue.take?_eq_none_iff.1 (Option.map_eq_none_iff.1 (none other member))

/-- Nothing is taken exactly if no lane has a job. -/
theorem next?_eq_none_iff {c : Coordinator} :
    c.next? = none ↔ ∀ lane, (c.queue lane).items = [] := by
  rw [next?, List.findSome?_eq_none_iff]
  constructor
  · intro none lane
    have listed : lane ∈ Lane.order := by cases lane <;> decide
    exact Queue.take?_eq_none_iff.1 (Option.map_eq_none_iff.1 (none lane listed))
  · intro none lane _
    rw [Queue.take?_eq_none_iff.2 (none lane), Option.map_none]

/-- The jobs that wait, in the order in which they are taken. -/
def waiting (c : Coordinator) : List Job := Lane.order.flatMap fun lane => (c.queue lane).items

theorem length_waiting (c : Coordinator) : c.waiting.length = c.backlog := by
  simp only [waiting, Lane.order, backlog, queue, List.flatMap_cons, List.flatMap_nil,
    List.length_append, List.length_nil]
  omega

theorem waiting_eq_nil_iff {c : Coordinator} :
    c.waiting = [] ↔ ∀ lane, (c.queue lane).items = [] := by
  rw [waiting, List.flatMap_eq_nil_iff]
  constructor
  · intro none lane
    exact none lane (by cases lane <;> decide)
  · intro none lane _
    exact none lane

/-- What waits depends on the queues only. -/
theorem waiting_congr {c d : Coordinator}
    (same : ∀ lane, (d.queue lane).items = (c.queue lane).items) : d.waiting = c.waiting := by
  simp only [waiting, same]

/-- The job that is taken is the first that waits. -/
theorem waiting_of_next? {c rest : Coordinator} {job : Job} (next : c.next? = some (job, rest)) :
    c.waiting = job :: rest.waiting := by
  obtain ⟨before, lane, after, q, order, none, taken, rfl⟩ := next?_first next
  have distinct : (before ++ lane :: after).Nodup := order ▸ by decide
  have others : ∀ lanes : List Lane, lane ∉ lanes →
      lanes.flatMap (fun other => ((c.setQueue lane q).queue other).items) =
        lanes.flatMap fun other => (c.queue other).items := by
    intro lanes absent
    apply List.flatMap_congr
    intro other member
    rw [queue_setQueue_of_ne]
    rintro rfl
    exact absent member
  have nothing : before.flatMap (fun other => (c.queue other).items) = [] :=
    List.flatMap_eq_nil_iff.2 none
  obtain ⟨-, tail, apart⟩ := List.nodup_append.1 distinct
  have absent : lane ∉ before := fun member => apart lane member lane List.mem_cons_self rfl
  rw [waiting, waiting, order, List.flatMap_append, List.flatMap_cons, List.flatMap_append,
    List.flatMap_cons, others before absent, others after (List.nodup_cons.1 tail).1, nothing,
    queue_setQueue_self, Queue.items_of_take? taken]
  rfl

/-! ### Running -/

/-- A coordinator that nobody asks to stop handles all that waits, if it has enough steps. -/
theorem steps_eq_handle {fuel : Nat} {c : Coordinator} (s : σ) (running : c.ended = false)
    (goes : c.stopAsked = false) (enough : c.waiting.length ≤ fuel) :
    (c.handle send s c.waiting).1.SameBooks (steps send false fuel c s).1 ∧
      (steps send false fuel c s).2 = (c.handle send s c.waiting).2 ∧
      (steps send false fuel c s).1.ended = false ∧
      (steps send false fuel c s).1.waiting = [] := by
  induction fuel generalizing c s with
  | zero =>
    have none : c.waiting = [] := List.length_eq_zero_iff.1 (Nat.le_zero.1 enough)
    rw [none]
    exact ⟨.refl c, rfl, running, none⟩
  | succ fuel ih =>
    have step : c.step? send false s = c.next?.map fun taken => taken.2.perform send s taken.1 := by
      rw [step?, if_neg (by simp [running]), if_neg (by simp [goes])]
    cases next : c.next? with
    | none =>
      have none : c.waiting = [] := waiting_eq_nil_iff.2 (next?_eq_none_iff.1 next)
      rw [steps, step, next, none]
      exact ⟨.refl c, rfl, running, none⟩
    | some taken =>
      obtain ⟨job, rest⟩ := taken
      have first := waiting_of_next? next
      obtain ⟨lane, q, -, rfl⟩ := next?_eq_some next
      have same : c.SameBooks (c.setQueue lane q) := by cases lane <;> exact ⟨rfl, rfl, rfl⟩
      have performed : steps send false (fuel + 1) c s =
          steps send false fuel ((c.setQueue lane q).perform send s job).1
            ((c.setQueue lane q).perform send s job).2 := by
        rw [steps, step, next]
        rfl
      have left : ((c.setQueue lane q).perform send s job).1.waiting =
          (c.setQueue lane q).waiting := waiting_congr fun other => by rw [queue_perform]
      have unasked : ((c.setQueue lane q).perform send s job).1.stopAsked = false := by
        cases lane <;> exact goes
      obtain ⟨books, sent, rest⟩ := ih ((c.setQueue lane q).perform send s job).2
        (by rw [ended_perform, ended_setQueue, running]) unasked
        (by rw [left]; simpa [first] using enough)
      -- The same jobs are handled whether the first one has left its queue before or not.
      obtain ⟨whole, carried⟩ := @SameBooks.handle _ send _ _ same s
        (job :: (c.setQueue lane q).waiting)
      rw [performed, first]
      rw [left, ← handle_cons] at books sent
      exact ⟨whole.trans books, sent.trans carried, rest⟩

/-- **A run handles all that waits**, lane by lane, and does not end the coordinator. -/
theorem run_eq_handle {c : Coordinator} (s : σ) (running : c.ended = false)
    (goes : c.stopAsked = false) :
    (c.handle send s c.waiting).1.SameBooks (c.run send false s).1 ∧
      (c.run send false s).2 = (c.handle send s c.waiting).2 ∧
      (c.run send false s).1.ended = false ∧ (c.run send false s).1.waiting = [] :=
  steps_eq_handle s running goes (by rw [length_waiting]; exact Nat.le_succ _)

end Coordinator

end PartExchange
