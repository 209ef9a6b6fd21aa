/-
**What a coordinator does in one step, and what a sender does to it.**

A sender that reaches a coordinator changes nothing but the end of one queue.  A step takes the
oldest job of one lane and turns the store into what the reaction says, or it is the end: then all
queues are empty and closed.  In between, a job waits in the lane of its request, and a queue is
closed only when the coordinator has ended.

Main definitions:

* `Coordinator.Tidy`: what holds of the queues of every coordinator;
* `Coordinator.Fed`: a coordinator before and after a sender's attempt;
* `Coordinator.Served`: a coordinator before and after a job;
* `Coordinator.upcoming?`: the job that the next step handles.

Main results:

* `Coordinator.fed_submit`, `Coordinator.fed_resume`: what an attempt does;
* `Coordinator.step?_cases`: what a step does.
-/

import PartExchange.Coordinator.Basic

set_option relaxedAutoImplicit false
set_option autoImplicit false

namespace PartExchange

/-! ### Queues -/

namespace Queue

variable {α : Type}

theorem items_offer (q : Queue α) (sender : Nat) (item : α) :
    (q.offer sender item).1.items =
      q.items ++ (if (q.offer sender item).2 = .sent then [item] else []) := by
  unfold offer
  split
  · simp
  · split <;> simp

theorem items_retry (q : Queue α) (sender : Nat) (item : α) :
    (q.retry sender item).1.items =
      q.items ++ (if (q.retry sender item).2 = .sent then [item] else []) := by
  unfold retry
  split
  · simp
  · split <;> simp

@[simp] theorem closed_offer (q : Queue α) (sender : Nat) (item : α) :
    (q.offer sender item).1.closed = q.closed := by
  unfold offer
  split
  · rfl
  · split <;> rfl

@[simp] theorem closed_retry (q : Queue α) (sender : Nat) (item : α) :
    (q.retry sender item).1.closed = q.closed := by
  unfold retry
  split
  · rfl
  · split <;> rfl

@[simp] theorem closed_promise (q : Queue α) : q.promise.closed = q.closed := by
  unfold promise
  split
  · rfl
  · split <;> rfl

/-- An attempt is refused exactly if the queue is closed. -/
theorem refused_offer_iff {q : Queue α} {sender : Nat} {item : α} :
    (q.offer sender item).2 = .refused ↔ q.closed = true := by
  unfold offer
  split
  · simp [*]
  · split <;> simp [*]

theorem refused_retry_iff {q : Queue α} {sender : Nat} {item : α} :
    (q.retry sender item).2 = .refused ↔ q.closed = true := by
  unfold retry
  split
  · simp [*]
  · split <;> simp [*]

@[simp] theorem items_withdraw (q : Queue α) (sender : Nat) :
    (q.withdraw sender).items = q.items := by
  simp [withdraw]

@[simp] theorem closed_withdraw (q : Queue α) (sender : Nat) :
    (q.withdraw sender).closed = q.closed := by
  simp [withdraw]

theorem closed_of_take? {q rest : Queue α} {item : α} (taken : q.take? = some (item, rest)) :
    rest.closed = q.closed := by
  unfold take? at taken
  split at taken
  · cases taken
  · obtain ⟨rfl, rfl⟩ := Prod.mk.injEq .. ▸ Option.some.inj taken
    exact closed_promise _

end Queue

namespace Coordinator

/-! ### Lanes -/

@[simp] theorem ended_setQueue (c : Coordinator) (lane : Lane) (q : Queue Job) :
    (c.setQueue lane q).ended = c.ended := by
  cases lane <;> rfl

theorem queue_setQueue (c : Coordinator) (lane other : Lane) (q : Queue Job) :
    (c.setQueue lane q).queue other = if other = lane then q else c.queue other := by
  split
  · rename_i same
    rw [same, queue_setQueue_self]
  · rename_i differ
    exact queue_setQueue_of_ne differ

theorem queue_close (c : Coordinator) (lane : Lane) :
    c.close.queue lane = (c.queue lane).close := by
  cases lane <;> rfl

/-- What holds of the queues of every coordinator. -/
structure Tidy (c : Coordinator) : Prop where
  /-- A job waits in the lane of its request. -/
  lane : ∀ lane, ∀ job ∈ (c.queue lane).items, job.request.lane = lane
  /-- Only a coordinator that has ended refuses requests. -/
  closed : ∀ lane, (c.queue lane).closed = true → c.ended = true
  /-- A coordinator that has ended refuses all requests. -/
  refuses : c.ended = true → ∀ lane, (c.queue lane).closed = true
  /-- A coordinator that has ended has no jobs. -/
  empty : c.ended = true → ∀ lane, (c.queue lane).items = []

theorem tidy_new (config : CoordinatorConfig) : (new config).Tidy := by
  have fresh : ∀ lane, ((new config).queue lane).items = [] ∧
      ((new config).queue lane).closed = false := by
    intro lane
    cases lane <;> exact ⟨rfl, rfl⟩
  constructor
  case lane =>
    intro lane job member
    rw [(fresh lane).1] at member
    cases member
  case closed =>
    intro lane closed
    rw [(fresh lane).2] at closed
    cases closed
  case refuses =>
    intro ended
    cases ended
  case empty =>
    intro ended
    cases ended

theorem tidy_close {c : Coordinator} : c.close.Tidy := by
  constructor
  case lane =>
    intro lane job member
    rw [queue_close, Queue.items_close] at member
    cases member
  case closed =>
    intro _ _
    rfl
  case refuses =>
    intro _ lane
    rw [queue_close, Queue.closed_close]
  case empty =>
    intro _ lane
    rw [queue_close, Queue.items_close]

/-! ### Senders -/

/-- A coordinator before and after a sender's attempt, with the job that has entered its queue, if
any. -/
structure Fed (c c' : Coordinator) (entered : Option Job) : Prop where
  /-- The store is untouched. -/
  store : c'.store = c.store
  /-- A sender does not end a coordinator. -/
  ended : c'.ended = c.ended
  /-- Only the lane of the job grows. -/
  items : ∀ lane, (c'.queue lane).items =
    (c.queue lane).items ++ (entered.filter (·.request.lane = lane)).toList
  /-- No queue is closed or opened. -/
  closed : ∀ lane, (c'.queue lane).closed = (c.queue lane).closed
  /-- Nothing enters a closed queue. -/
  enters : ∀ job, entered = some job → (c.queue job.request.lane).closed = false

/-- The coordinator stays as it is, as far as its store and its queues are concerned. -/
theorem Fed.still {c c' : Coordinator} (store : c'.store = c.store) (ended : c'.ended = c.ended)
    (items : ∀ lane, (c'.queue lane).items = (c.queue lane).items)
    (closed : ∀ lane, (c'.queue lane).closed = (c.queue lane).closed) : c.Fed c' none where
  store := store
  ended := ended
  items lane := by rw [items lane, Option.filter_none, Option.toList_none, List.append_nil]
  closed := closed
  enters _ h := by cases h

theorem Tidy.fed {c c' : Coordinator} {entered : Option Job} (tidy : c.Tidy)
    (fed : c.Fed c' entered) : c'.Tidy := by
  -- The queues of a coordinator that has ended are closed, so nothing has entered one of them.
  have blocked : c.ended = true → entered = none := by
    intro ended
    cases entered with
    | none => rfl
    | some job =>
      have shut := tidy.refuses ended job.request.lane
      rw [fed.enters job rfl] at shut
      cases shut
  constructor
  case lane =>
    intro lane job member
    rw [fed.items, List.mem_append] at member
    rcases member with old | new
    · exact tidy.lane lane job old
    · rw [Option.mem_toList, Option.filter_eq_some_iff] at new
      exact of_decide_eq_true new.2
  case closed =>
    intro lane closed
    rw [fed.closed] at closed
    rw [fed.ended]
    exact tidy.closed lane closed
  case refuses =>
    intro ended lane
    rw [fed.ended] at ended
    rw [fed.closed]
    exact tidy.refuses ended lane
  case empty =>
    intro ended lane
    rw [fed.ended] at ended
    rw [fed.items, blocked ended, tidy.empty ended lane]
    rfl

/-- Replacing the queue of a lane by one that has more items at its end. -/
theorem fed_setQueue {c : Coordinator} {job : Job} {q : Queue Job} {sent : Prop} [Decidable sent]
    (items : q.items = (c.queue job.request.lane).items ++ (if sent then [job] else []))
    (closed : q.closed = (c.queue job.request.lane).closed)
    (enters : sent → (c.queue job.request.lane).closed = false) :
    c.Fed (c.setQueue job.request.lane q) (if sent then some job else none) where
  store := store_setQueue _ _ _
  ended := ended_setQueue _ _ _
  items lane := by
    rw [queue_setQueue]
    by_cases here : lane = job.request.lane
    · subst here
      rw [if_pos rfl, items]
      split
      · rw [Option.filter_some, if_pos (decide_eq_true rfl), Option.toList_some]
      · rw [Option.filter_none, Option.toList_none]
    · rw [if_neg here]
      split
      · rw [Option.filter_some, if_neg (by simpa using Ne.symm here), Option.toList_none,
          List.append_nil]
      · rw [Option.filter_none, Option.toList_none, List.append_nil]
  closed lane := by
    rw [queue_setQueue]
    split
    · rename_i here
      rw [here, closed]
    · rfl
  enters entered h := by
    split at h
    · rename_i yes
      cases h
      exact enters yes
    · cases h

/-- A request's first attempt. -/
theorem fed_submit (c : Coordinator) (request : Request) :
    c.Fed (c.submit request).1
      (if (c.submit request).2.2 = .sent then some (c.submit request).2.1 else none) := by
  let job : Job := ⟨c.nextId, request⟩
  have accepted : ((c.queue request.lane).offer job.id job).2 = .sent →
      (c.queue request.lane).closed = false := by
    intro sent
    rw [Bool.eq_false_iff]
    intro shut
    rw [(@Queue.refused_offer_iff _ _ job.id job).2 shut] at sent
    cases sent
  have fed := @fed_setQueue c job _ _ _ (Queue.items_offer _ job.id job)
    (Queue.closed_offer _ job.id job) accepted
  -- A submission also uses up a number, on which neither the store nor the lanes depend.
  refine ⟨fed.store, fed.ended, ?_, ?_, fed.enters⟩
  · intro lane
    have items := fed.items lane
    cases lane <;> exact items
  · intro lane
    have closed := fed.closed lane
    cases lane <;> exact closed

/-- A waiting request's next attempt. -/
theorem fed_resume (c : Coordinator) (job : Job) :
    c.Fed (c.resume job).1 (if (c.resume job).2 = .sent then some job else none) := by
  refine fed_setQueue (Queue.items_retry _ job.id job) (Queue.closed_retry _ job.id job) ?_
  intro sent
  rw [Bool.eq_false_iff]
  intro shut
  rw [resume, (@Queue.refused_retry_iff _ _ job.id job).2 shut] at sent
  cases sent

/-- Only a coordinator that has ended refuses a request. -/
theorem ended_of_submit_refused {c : Coordinator} {request : Request} (tidy : c.Tidy)
    (refused : (c.submit request).2.2 = .refused) : c.ended = true :=
  tidy.closed _ (Queue.refused_offer_iff.1 refused)

theorem ended_of_resume_refused {c : Coordinator} {job : Job} (tidy : c.Tidy)
    (refused : (c.resume job).2 = .refused) : c.ended = true :=
  tidy.closed _ (Queue.refused_retry_iff.1 refused)

/-- Giving up a request changes no queue. -/
theorem fed_withdraw (c : Coordinator) (job : Job) : c.Fed (c.withdraw job) none := by
  refine Fed.still (store_setQueue _ _ _) (ended_setQueue _ _ _) ?_ ?_
  · intro lane
    rw [withdraw, queue_setQueue]
    split
    · rename_i here
      rw [here, Queue.items_withdraw]
    · rfl
  · intro lane
    rw [withdraw, queue_setQueue]
    split
    · rename_i here
      rw [here, Queue.closed_withdraw]
    · rfl

theorem fed_askStop (c : Coordinator) : c.Fed c.askStop none :=
  Fed.still rfl rfl (fun lane => by cases lane <;> rfl) (fun lane => by cases lane <;> rfl)

/-! ### Steps -/

/-- A coordinator before and after the oldest job of a lane. -/
structure Served (c c' : Coordinator) (job : Job) (lane : Lane) : Prop where
  /-- The store is what the reaction says. -/
  store : c'.store = (c.store.react job.request).store
  /-- Serving a job does not end a coordinator. -/
  ended : c'.ended = c.ended
  /-- The job leaves its lane. -/
  head : (c.queue lane).items = job :: (c'.queue lane).items
  /-- No other lane changes. -/
  others : ∀ other, other ≠ lane → (c'.queue other).items = (c.queue other).items
  /-- No queue is closed or opened. -/
  closed : ∀ other, (c'.queue other).closed = (c.queue other).closed

theorem Served.mem {c c' : Coordinator} {job : Job} {lane : Lane} (served : c.Served c' job lane) :
    job ∈ (c.queue lane).items := by
  rw [served.head]
  exact List.mem_cons_self

/-- What waits after a job has waited before it. -/
theorem Served.subset {c c' : Coordinator} {job : Job} {lane : Lane}
    (served : c.Served c' job lane) (other : Lane) :
    (c'.queue other).items ⊆ (c.queue other).items := by
  by_cases here : other = lane
  · subst here
    rw [served.head]
    exact List.subset_cons_self _ _
  · rw [served.others other here]
    exact List.Subset.refl _

theorem Tidy.served {c c' : Coordinator} {job : Job} {lane : Lane} (tidy : c.Tidy)
    (served : c.Served c' job lane) : c'.Tidy := by
  constructor
  case lane =>
    intro other waiting member
    exact tidy.lane other waiting (served.subset other member)
  case closed =>
    intro other closed
    rw [served.closed] at closed
    rw [served.ended]
    exact tidy.closed other closed
  case refuses =>
    intro ended other
    rw [served.ended] at ended
    rw [served.closed]
    exact tidy.refuses ended other
  case empty =>
    -- There is no such coordinator: one that has ended has no job to serve.
    intro ended
    rw [served.ended] at ended
    have none := tidy.empty ended lane
    rw [served.head] at none
    cases none

/-- The job that the next step handles; none if there is no job, or if the next step is the end. -/
def upcoming? (c : Coordinator) (abandoned : Bool) : Option Job :=
  if c.ended || c.stopAsked || abandoned then none else c.next?.map Prod.fst

variable {σ : Type}

/-- What a transport makes of a publication that may be absent. -/
def carry (send : Transport σ) (s : σ) : Option Publication → σ
  | none => s
  | some publication => (send s publication).1

/-- The next job is the oldest of a lane. -/
theorem next?_eq_some {c rest : Coordinator} {job : Job} (next : c.next? = some (job, rest)) :
    ∃ lane q, (c.queue lane).take? = some (job, q) ∧ rest = c.setQueue lane q := by
  obtain ⟨lane, -, taken⟩ := List.exists_of_findSome?_eq_some next
  obtain ⟨⟨oldest, q⟩, found, same⟩ := Option.map_eq_some_iff.1 taken
  obtain ⟨rfl, rfl⟩ := Prod.mk.injEq .. ▸ same
  exact ⟨lane, q, found, rfl⟩

@[simp] theorem queue_perform (send : Transport σ) (c : Coordinator) (s : σ) (job : Job)
    (lane : Lane) : ((c.perform send s job).1).queue lane = c.queue lane := by
  cases lane <;> rfl

@[simp] theorem ended_perform (send : Transport σ) (c : Coordinator) (s : σ) (job : Job) :
    ((c.perform send s job).1).ended = c.ended := rfl

theorem carry_perform (send : Transport σ) (c : Coordinator) (s : σ) (job : Job) :
    (c.perform send s job).2 = carry send s (c.store.react job.request).publication := by
  unfold perform carry
  dsimp only
  cases (c.store.react job.request).publication <;> rfl

/-- Handling the oldest job of a lane. -/
theorem served_perform (send : Transport σ) (s : σ) {c : Coordinator} {lane : Lane} {job : Job}
    {q : Queue Job} (taken : (c.queue lane).take? = some (job, q)) :
    c.Served ((c.setQueue lane q).perform send s job).1 job lane where
  store := by rw [perform_store, store_setQueue]
  ended := by rw [ended_perform, ended_setQueue]
  head := by
    rw [queue_perform, queue_setQueue_self]
    exact Queue.items_of_take? taken
  others other differ := by rw [queue_perform, queue_setQueue_of_ne differ]
  closed other := by
    rw [queue_perform, queue_setQueue]
    split
    · rename_i here
      rw [here, Queue.closed_of_take? taken]
    · rfl

/-- What a step of a coordinator does: it is the end, or it handles a job and passes on what the
reaction wants published. -/
theorem step?_cases {send : Transport σ} {abandoned : Bool} {c c' : Coordinator} {s s' : σ}
    (step : c.step? send abandoned s = some (c', s')) :
    c.ended = false ∧
      ((c.upcoming? abandoned = none ∧ c' = c.close ∧ s' = s) ∨
        ∃ job lane, c.upcoming? abandoned = some job ∧ c.Served c' job lane ∧
          s' = carry send s (c.store.react job.request).publication) := by
  unfold step? at step
  split at step
  · cases step
  · rename_i running
    rw [Bool.not_eq_true] at running
    refine ⟨running, ?_⟩
    split at step
    · -- A request to stop, or a handle that nobody holds any more, comes before every job.
      rename_i stops
      cases step
      rw [upcoming?, Bool.or_assoc, stops, Bool.or_true, if_pos rfl]
      exact Or.inl ⟨rfl, rfl, rfl⟩
    · rename_i goes
      rw [Bool.not_eq_true] at goes
      obtain ⟨⟨job, rest⟩, next, performed⟩ := Option.map_eq_some_iff.1 step
      obtain ⟨lane, q, taken, rfl⟩ := next?_eq_some next
      have whole : (c.setQueue lane q).perform send s job = (c', s') := performed
      have upcoming : c.upcoming? abandoned = some job := by
        rw [upcoming?, Bool.or_assoc, goes, Bool.or_false, running, if_neg Bool.false_ne_true, next]
        rfl
      have served := served_perform send s taken
      have carried := carry_perform send (c.setQueue lane q) s job
      rw [whole] at served carried
      rw [store_setQueue] at carried
      exact Or.inr ⟨job, lane, upcoming, served, carried⟩

end Coordinator

end PartExchange
