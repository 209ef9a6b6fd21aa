/-
**A lookup sees everything that was queued before it.**

Requests of the four kinds stand in four queues, so nothing about their order is kept from one kind
to another.  What keeps a lookup from overtaking the rest is the order in which the coordinator
looks at its queues: the lookups come last, and after every job it begins at the first queue again.
So when a lookup is handled, nothing waits in the other three queues.  Whatever had entered them
before is handled by then, and so are the lookups that stand before it in its own queue.

The argument is about two moments of a run.  At the first one the lookup has not entered its queue
yet; at the second one it is handled.  What waits in a queue at the first moment is what is handled
first from that queue, and it is not still there at the second moment.

Main definitions:

* `Exchange.lineAt`, `Exchange.turnsAt`: the jobs that wait in a lane of a coordinator, and those of
  a lane that have been handled;
* `Exchange.Settled`, `Exchange.Delivered`: requests that have been answered or delivered, against
  what is found of them;
* `Call.Visible`: what a request that has ended leaves to see.

Main results:

* `Exchange.Serving.line`: the jobs that wait in a lane are the next ones that are handled from it;
* `Exchange.Serving.moment`: the moment at which a job is handled;
* `Exchange.lookup_sees_what_was_queued_before`: what a lookup sees when it is answered.
-/

import PartExchange.Proofs.Changes

set_option relaxedAutoImplicit false
set_option autoImplicit false

namespace PartExchange

/-! ### One coordinator -/

namespace Coordinator

variable {c c' : Coordinator} {handled : Option Job}

/-- A job that is handled is the next one, and leaves its lane. -/
theorem Change.serves {job : Job} (change : c.Change (some job) c') :
    c.ended = false ∧ ∃ rest lane, c.next? = some (job, rest) ∧ c.Served c' job lane := by
  cases change with
  | @served send carriers rest _ running next =>
    obtain ⟨lane, served⟩ := served_of_next? next send carriers
    exact ⟨running, rest, lane, next, served⟩

/-- What waits in a lane is handled, or it still waits, in front of all that has entered since; only
the end of the coordinator discards it. -/
theorem Change.line (change : c.Change handled c') (tidy : c.Tidy) : c'.ended = true ∨
    ∀ lane, (c.queue lane).items <+:
      handled.toList.filter (·.request.lane = lane) ++ (c'.queue lane).items := by
  cases change with
  | sent fed silent =>
    right
    intro lane
    rw [fed.items]
    exact List.prefix_append _ _
  | @served send carriers rest job running next =>
    right
    intro lane
    obtain ⟨own, served⟩ := served_of_next? next send carriers
    have home : job.request.lane = own := tidy.lane own job served.mem
    rw [Option.toList_some]
    by_cases here : lane = own
    · subst here
      rw [List.filter_cons_of_pos (by simp [home]), List.filter_nil, served.head]
      exact List.prefix_refl _
    · rw [List.filter_cons_of_neg (by simpa [home] using Ne.symm here), List.filter_nil,
        served.others lane here]
      exact List.prefix_refl _
  | closed => exact Or.inl rfl

theorem mem_given {reply : Reply} {id : Nat} {failure : Option SyncError} {x : Nat × Answer}
    (member : x ∈ reply.given id failure) : x.1 = id ∧ reply ≠ .silent := by
  cases reply with
  | silent => cases member
  | answer said | outcome =>
    obtain rfl := List.mem_singleton.1 member
    exact ⟨rfl, Reply.noConfusion⟩

/-- Nothing but the job that is handled is answered. -/
theorem Change.answers (change : c.Change handled c') : ∃ given, c'.answers = given ++ c.answers ∧
    ∀ x ∈ given, ∃ job, handled = some job ∧ job.Asks ∧ x.1 = job.id := by
  cases change with
  | sent fed silent => exact ⟨[], silent.answers, fun x member => by cases member⟩
  | @served send carriers rest job running next =>
    obtain ⟨lane, q, -, rfl⟩ := next?_eq_some next
    rw [perform_eq]
    refine ⟨_, congrArg _ (answers_setQueue c lane q), ?_⟩
    intro x member
    obtain ⟨id, speaks⟩ := mem_given member
    exact ⟨job, rfl, fun call => speaks ((Store.reply_react_eq_silent_iff _ _).2 call), id⟩
  | closed => exact ⟨[], rfl, fun x member => by cases member⟩

/-- An answer stands, unless a job with the same number is answered. -/
theorem Change.answer? (change : c.Change handled c') {id : Nat} {answer : Answer}
    (answered : c.answer? id = some answer)
    (other : ∀ job, handled = some job → job.Asks → job.id ≠ id) : c'.answer? id = some answer := by
  obtain ⟨given, answers, own⟩ := change.answers
  have nothing : given.lookup id = none := by
    rw [List.lookup_eq_none_iff]
    intro x member
    obtain ⟨job, handles, asks, number⟩ := own x member
    rw [number]
    simpa using (other job handles asks).symm
  rw [Coordinator.answer?, answers, List.lookup_append, nothing, Option.none_or]
  exact answered

/-- The limit of a store is set once. -/
theorem Change.limit (change : c.Change handled c') : c'.store.limit = c.store.limit := by
  cases change with
  | sent fed silent => rw [fed.store]
  | served running next =>
    obtain ⟨lane, q, -, rfl⟩ := next?_eq_some next
    rw [perform_store, Store.limit_react, store_setQueue]
  | closed => rfl

/-- A lookup that is handled is answered with what is stored. -/
theorem Change.found {job : Job} (change : c.Change (some job) c') {topic : Topic}
    {group : GroupId} (asks : job.request = .get topic group) :
    c'.answer? job.id = some (.found (c.store.get? topic group)) := by
  cases change with
  | served running next =>
    obtain ⟨lane, q, -, rfl⟩ := next?_eq_some next
    rw [perform_eq, asks, store_setQueue]
    simp [Coordinator.answer?, Store.react, Reply.given]

/-- A request to add a message that is handled is told whether its group is new. -/
theorem Change.inserted {job : Job} (change : c.Change (some job) c') {topic : Topic} {m : Message}
    (asks : job.request = .add topic m) :
    c'.answer? job.id = some (.inserted (!c.store.contains topic m.group)) := by
  cases change with
  | served running next =>
    obtain ⟨lane, q, -, rfl⟩ := next?_eq_some next
    rw [perform_eq, asks, store_setQueue]
    cases held : c.store.contains topic m.group <;>
      simp [Coordinator.answer?, Store.react, Store.reactAdd, Store.insertIfAbsent, Reply.given,
        held]

/-- When a lookup is next, nothing waits in the other lanes. -/
theorem empty_of_next? {rest : Coordinator} {job : Job} (tidy : c.Tidy)
    (next : c.next? = some (job, rest)) (lookup : job.request.lane = .query) :
    (∀ lane, lane ≠ .query → (c.queue lane).items = []) ∧
      ∃ others, (c.queue .query).items = job :: others := by
  obtain ⟨before, lane, after, q, order, none, taken, -⟩ := next?_first next
  have items := Queue.items_of_take? taken
  have own : lane = .query := by
    rw [← lookup]
    exact (tidy.lane lane job (items ▸ List.mem_cons_self)).symm
  subst own
  refine ⟨?_, _, items⟩
  intro other differ
  refine none other ?_
  -- The lane of the lookups is listed once, at the end, so all others are listed before it.
  have distinct : (before ++ .query :: after).Nodup := order ▸ by decide
  have last : (before ++ .query :: after).getLast? = some .query := order ▸ rfl
  have alone : after = [] := by
    rw [List.getLast?_append, List.getLast?_cons] at last
    cases final : after.getLast? with
    | none => exact List.getLast?_eq_none_iff.1 final
    | some lane =>
      rw [final] at last
      obtain rfl : lane = .query := by simpa using last
      exact absurd (List.mem_of_getLast? final)
        (List.nodup_cons.1 (List.nodup_append.1 distinct).2.1).1
  have listed : other ∈ before ++ .query :: after := order ▸ by cases other <;> decide
  rw [alone, List.mem_append, List.mem_singleton] at listed
  exact listed.resolve_right differ

end Coordinator

/-- A job waits once or has been handled once, and not both. -/
theorem CallStage.Fits.once {stage : CallStage} {waits handled : Nat}
    {ended : Bool} (fits : stage.Fits waits handled ended) : waits + handled ≤ 1 := by
  match stage with
  | .waiting | .queued | .finished .closed | .finished (.answered _) | .abandoned =>
    simp only [CallStage.Fits] at fits
    omega

namespace Exchange

variable {e e' : Exchange} {log : List (Nat × Job)}

/-! ### Lines and turns -/

/-- The jobs that wait in a lane of a coordinator, oldest first. -/
def lineAt (e : Exchange) (i : Nat) (lane : Lane) : List Job :=
  (e.stations[i]?.map fun s => (s.coordinator.queue lane).items).getD []

/-- The jobs of a lane that a coordinator has handled, oldest first. -/
def turnsAt (log : List (Nat × Job)) (i : Nat) (lane : Lane) : List Job :=
  ((recordOf log i).filter (·.request.lane = lane)).reverse

theorem lineAt_of_station {i : Nat} {s : Station} (here : e.stations[i]? = some s) (lane : Lane) :
    e.lineAt i lane = (s.coordinator.queue lane).items := by
  rw [lineAt, here]
  rfl

theorem turnsAt_append (later log : List (Nat × Job)) (i : Nat) (lane : Lane) :
    turnsAt (later ++ log) i lane = turnsAt log i lane ++ turnsAt later i lane := by
  simp [turnsAt, recordOf]

theorem mem_recordOf {i : Nat} {job : Job} : job ∈ recordOf log i ↔ (i, job) ∈ log := by
  simp [recordOf]

theorem mem_turnsAt {i : Nat} {lane : Lane} {job : Job} :
    job ∈ turnsAt log i lane ↔ (i, job) ∈ log ∧ job.request.lane = lane := by
  rw [turnsAt, List.mem_reverse, List.mem_filter, mem_recordOf, decide_eq_true_iff]

theorem turnsAt_handled? (e : Exchange) (action : Action) (i : Nat) (lane : Lane) :
    turnsAt (e.handled? action).toList i lane =
      (e.handledBy action i).toList.filter (·.request.lane = lane) := by
  rw [handledBy]
  cases e.handled? action with
  | none => rfl
  | some x =>
    obtain ⟨j, job⟩ := x
    by_cases here : j = i
    · by_cases own : job.request.lane = lane <;> simp [turnsAt, recordOf, here, own]
    · simp [turnsAt, recordOf, here]

/-- What has been found of a job, said of its lane. -/
theorem found_iff {i : Nat} {job : Job} :
    Found log e i job ↔ (i, job) ∈ log ∨ job ∈ e.lineAt i job.request.lane := by
  refine or_congr_right ?_
  unfold lineAt
  cases e.stations[i]? with
  | none => simp
  | some s => simp

theorem halted_act? {action : Action} (acts : e.act? action = some e') {i : Nat}
    (halted : e.Halted i) : e'.Halted i := by
  obtain ⟨s, here, ended⟩ := halted
  obtain ⟨s', there, change⟩ := change_act? acts here
  exact ⟨s', there, change.ended ended⟩

/-- What waits in a lane is handled by an action, or it still waits, in front of all that has
entered since. -/
theorem line_act? {action : Action} (tidied : e.Tidied) (acts : e.act? action = some e') (i : Nat) :
    e'.Halted i ∨ ∀ lane, e.lineAt i lane <+:
      turnsAt (e.handled? action).toList i lane ++ e'.lineAt i lane := by
  cases here : e.stations[i]? with
  | none =>
    right
    intro lane
    rw [lineAt, here]
    exact List.nil_prefix
  | some s =>
    obtain ⟨s', there, change⟩ := change_act? acts here
    rcases change.line (tidied here) with ended | line
    · exact Or.inl ⟨s', there, ended⟩
    · right
      intro lane
      rw [lineAt_of_station here, lineAt_of_station there, turnsAt_handled?]
      exact line lane

/-! ### Along a run -/

section Run

variable {capacity : Nat} {later : List (Nat × Job)}
  (run : Serving Addressed (.new capacity) log e) (rest : Serving Addressed e later e')

include rest

/-- What has ended does not begin again. -/
theorem Serving.halted {i : Nat} (halted : e.Halted i) : e'.Halted i := by
  induction rest with
  | start => exact halted
  | step _ _ acts ih => exact halted_act? acts ih

/-- The limit of a store is set once. -/
theorem Serving.limit {i : Nat} {s : Station} (here : e.stations[i]? = some s) :
    ∃ s' : Station, e'.stations[i]? = some s' ∧
      s'.coordinator.store.limit = s.coordinator.store.limit := by
  induction rest with
  | start => exact ⟨s, here, rfl⟩
  | step _ _ acts ih =>
    obtain ⟨t, there, same⟩ := ih
    obtain ⟨t', there', change⟩ := change_act? acts there
    exact ⟨t', there', change.limit.trans same⟩

include run

/-- **The jobs that wait in a lane are the next ones that are handled from it**, or they still wait,
unless the coordinator has ended. -/
theorem Serving.line (i : Nat) : e'.Halted i ∨
    ∀ lane, e.lineAt i lane <+: turnsAt later i lane ++ e'.lineAt i lane := by
  induction rest with
  | start => exact Or.inr fun lane => List.prefix_refl _
  | @step later e' e'' action rest allow acts ih =>
    rcases line_act? (run.trans rest).ledger.tidy acts i with halted | next
    · exact Or.inl halted
    · rcases ih with halted | line
      · exact Or.inl (halted_act? acts halted)
      · right
        intro lane
        rw [turnsAt_append, List.append_assoc]
        exact (line lane).trans ((List.prefix_append_right_inj _).2 (next lane))

end Run

/-- **The moment at which a job is handled** parts a run in two. -/
theorem Serving.moment {allowed : Exchange → Action → Prop} {start : Exchange}
    (run : Serving allowed start log e) {i : Nat} {job : Job} (handled : (i, job) ∈ log) :
    ∃ before after e₁ e₂, Serving allowed start before e₁ ∧ e₁.upcoming? i = some job ∧
      e₁.act? (.serve i) = some e₂ ∧ Serving allowed e₂ after e ∧
        log = after ++ (i, job) :: before := by
  induction run with
  | start => cases handled
  | @step log e e' action run allow acts ih =>
    rcases List.mem_append.1 handled with now | earlier
    · -- Only a coordinator's step handles anything, and that is the step in question.
      have handles : e.handled? action = some (i, job) := Option.mem_toList.1 now
      cases action with
      | serve j =>
        obtain ⟨next, upcoming, same⟩ := Option.map_eq_some_iff.1 handles
        obtain ⟨rfl, rfl⟩ := Prod.mk.inj same
        exact ⟨log, [], e, e', run, upcoming, acts, .start, by rw [handles]; rfl⟩
      | _ => cases handles
    · obtain ⟨before, after, e₁, e₂, first, next, serves, rest, rfl⟩ := ih earlier
      refine ⟨before, (e.handled? action).toList ++ after, e₁, e₂, first, next, serves,
        rest.step allow acts, ?_⟩
      rw [List.append_assoc]

/-! ### Answers stand -/

/-- An answer stands: no other job is handled under the same number, and no job is handled twice. -/
theorem Ledger.answer?_act? (ledger : Ledger log e) {action : Action}
    (acts : e.act? action = some e') {i : Nat} {s : Station} (here : e.stations[i]? = some s)
    {id : Nat} {said : Answer} (answered : s.coordinator.answer? id = some said) :
    ∃ s' : Station, e'.stations[i]? = some s' ∧ s'.coordinator.answer? id = some said := by
  obtain ⟨s', there, change⟩ := change_act? acts here
  refine ⟨s', there, change.answer? answered ?_⟩
  rintro job handles asks rfl
  rw [handles] at change
  obtain ⟨-, rest, lane, -, served⟩ := change.serves
  obtain rfl := (ledger.tidy here).lane lane job served.mem
  -- The job that has been answered under this number is the one that is handled now.
  obtain ⟨job', member, asks', number'⟩ :=
    (ledger.answered here job.id).1 (Option.isSome_of_mem answered)
  obtain ⟨n, call, made, rfl, rfl⟩ := ledger.owned asks (Or.inr ⟨s, here, served.mem⟩)
  obtain ⟨m, call', made', station', rfl⟩ := ledger.owned asks' (Or.inl member)
  obtain rfl := ledger.distinct made' made station' number'
  obtain rfl := Option.some.inj (made'.symm.trans made)
  obtain ⟨t, there', -, fits⟩ := ledger.called made
  obtain rfl := Option.some.inj (here.symm.trans there')
  have waits : 0 < s.coordinator.waits call'.job := List.count_pos_iff.2 served.mem
  have handled := List.count_pos_iff.2 member
  have once := (fits asks).once
  omega

/-- An answer stands for the rest of a run. -/
theorem Serving.answer? {capacity : Nat} {later : List (Nat × Job)}
    (run : Serving Addressed (.new capacity) log e) (rest : Serving Addressed e later e') {i : Nat}
    {s : Station} (here : e.stations[i]? = some s) {id : Nat} {said : Answer}
    (answered : s.coordinator.answer? id = some said) :
    ∃ s' : Station, e'.stations[i]? = some s' ∧ s'.coordinator.answer? id = some said := by
  induction rest with
  | start => exact ⟨s, here, answered⟩
  | step rest allow acts ih =>
    obtain ⟨t, there, still⟩ := ih
    exact (run.trans rest).ledger.answer?_act? acts there still

/-- Whoever has been answered has got the answer of its coordinator. -/
def Settled (e : Exchange) : Prop :=
  ∀ {number : Nat} {call : Call} {said : Answer}, e.calls[number]? = some call →
    call.stage = .finished (.answered said) → ∃ s : Station, e.stations[call.station]? = some s ∧
      s.coordinator.answer? call.job.id = some said

theorem not_answered_stageAfter {request : Request} {sending : Sending} {said : Answer} :
    stageAfter request sending ≠ .finished (.answered said) := by
  cases sending with
  | refused | waiting => simp [stageAfter]
  | sent => cases request <;> simp [stageAfter]

theorem Serving.settled {capacity : Nat} (run : Serving Addressed (.new capacity) log e) :
    Settled e := by
  induction run with
  | start =>
    intro number call said made
    cases made
  | @step log e e' action run allow acts ih =>
    intro number call said made finished
    suffices before : ∃ s : Station, e.stations[call.station]? = some s ∧
        s.coordinator.answer? call.job.id = some said by
      obtain ⟨s, here, answered⟩ := before
      exact run.ledger.answer?_act? acts here answered
    cases restaged_act? run.replayed.held allow acts made with
    | same made => exact ih made finished
    | resumed made here stations => exact absurd finished not_answered_stageAfter
    | told made here answered =>
      cases finished
      exact ⟨_, here, answered⟩
    | closed made | abandoned made => cases finished
    | asked new here stations => exact absurd finished not_answered_stageAfter

/-! ### What has entered is found -/

/-- A job that is found is found after an action, unless the coordinator has ended. -/
theorem found_act? {action : Action} (tidied : e.Tidied) (acts : e.act? action = some e') {i : Nat}
    {job : Job} (found : Found log e i job) :
    e'.Halted i ∨ Found ((e.handled? action).toList ++ log) e' i job := by
  rw [found_iff] at found ⊢
  rcases found with handled | waits
  · exact Or.inr (Or.inl (List.mem_append_right _ handled))
  · refine (line_act? tidied acts i).imp_right fun line => ?_
    rcases List.mem_append.1 ((line job.request.lane).subset waits) with turn | still
    · exact Or.inl (List.mem_append_left _ (mem_turnsAt.1 turn).1)
    · exact Or.inr still

/-- A job that has entered its queue is found there. -/
theorem found_of_sent {i : Nat} {s : Station} (here : e.stations[i]? = some s) {c : Coordinator}
    {job : Job} (fed : s.coordinator.Fed c (some job))
    (stations : e'.stations = (e.putCoordinator i c).stations) : Found log e' i job := by
  refine Or.inr ⟨{ s with coordinator := c }, ?_, ?_⟩
  · rw [stations, getElem?_putCoordinator, if_pos rfl, here]
    rfl
  · rw [fed.items]
    exact List.mem_append_right _ (by simp [Option.filter_some])

theorem sent_of_delivered {request : Request} {sending : Sending}
    (delivered : stageAfter request sending = .finished .delivered) : sending = .sent := by
  cases sending with
  | sent => rfl
  | refused | waiting => cases delivered

/-- A call from a peer that has been delivered has entered its queue. -/
def Delivered (log : List (Nat × Job)) (e : Exchange) : Prop :=
  ∀ {number : Nat} {call : Call}, e.calls[number]? = some call →
    call.stage = .finished .delivered → e.Halted call.station ∨ Found log e call.station call.job

theorem Serving.delivered {capacity : Nat} (run : Serving Addressed (.new capacity) log e) :
    Delivered log e := by
  induction run with
  | start =>
    intro number call made
    cases made
  | @step log e e' action run allow acts ih =>
    have tidied : e.Tidied := run.ledger.tidy
    have old : ∀ {number : Nat} {call : Call}, e.calls[number]? = some call →
        call.stage = .finished .delivered → e'.Halted call.station ∨
          Found ((e.handled? action).toList ++ log) e' call.station call.job := by
      intro number call made finished
      rcases ih made finished with halted | found
      · exact Or.inl (halted_act? acts halted)
      · exact found_act? tidied acts found
    intro number call made finished
    cases restaged_act? run.replayed.held allow acts made with
    | same made => exact old made finished
    | @resumed before s made here stations =>
      have fed := s.coordinator.fed_resume before.job
      rw [if_pos (sent_of_delivered finished)] at fed
      exact Or.inr (found_of_sent here fed stations)
    | told made here answered | closed made | abandoned made => cases finished
    | @asked i request s new here stations =>
      have fed := s.coordinator.fed_submit request
      rw [if_pos (sent_of_delivered finished)] at fed
      exact Or.inr (found_of_sent here fed stations)

end Exchange

/-! ### What a handled request leaves to see -/

namespace Store

theorem limit_replay (limit : Option Nat) (jobs : List Job) :
    (replay limit jobs).1.limit = limit.map (max 1) := by
  induction jobs with
  | nil => rfl
  | cons job earlier ih => rw [replay, limit_react, ih]

/-- Nothing that is held is lost by later jobs, without a limit. -/
theorem get?_replay_append {older : List Job} {topic : Topic} {group : GroupId} {m : Message}
    (held : (replay none older).1.get? topic group = some m) (newer : List Job) :
    ∃ m', (replay none (newer ++ older)).1.get? topic group = some m' ∧
      m.available ≤ m'.available := by
  induction newer with
  | nil => exact ⟨m, held, le_refl _⟩
  | cons job newer ih =>
    obtain ⟨m', held', grown⟩ := ih
    obtain ⟨m'', held'', grown'⟩ := get?_react_of_get? (limit_replay none _) held'
    exact ⟨m'', held'', grown.trans grown'⟩

end Store

/-- What a request that has ended leaves to see in a store without a limit: the group of a message
that was to be added, with all its parts if it was new, and the parts that a call has brought. -/
def Call.Visible (call : Call) (store : Store) : Prop :=
  match call.job.request with
  | .add topic m => ∃ held, store.get? topic m.group = some held ∧
      (call.stage = .finished (.answered (.inserted true)) → m.available ≤ held.available)
  | .rpc d => d.rpc.Acceptable → ∃ held, store.get? d.rpc.topic d.rpc.group = some held ∧
      d.rpc.carried ≤ held.available
  | .publish .. | .get .. => True

/-- A request that has been handled is visible afterwards. -/
theorem Call.visible_replay {call : Call} {older : List Job}
    (fresh : ∀ topic m, call.job.request = .add topic m →
      call.stage = .finished (.answered (.inserted true)) →
        (Store.replay none older).1.contains topic m.group = false) (newer : List Job) :
    call.Visible (Store.replay none (newer ++ call.job :: older)).1 := by
  have unlimited : (Store.replay none older).1.limit = none := Store.limit_replay none older
  -- What the request has left to see right after it was handled is not lost later.
  have stays : ∀ {topic group m},
      ((Store.replay none older).1.react call.job.request).store.get? topic group = some m →
        ∃ m', (Store.replay none (newer ++ call.job :: older)).1.get? topic group = some m' ∧
          m.available ≤ m'.available :=
    fun after => @Store.get?_replay_append (call.job :: older) _ _ _ after newer
  unfold Call.Visible
  cases asks : call.job.request with
  | publish _ _ _ | get _ _ => trivial
  | rpc d =>
    intro acceptable
    have after := Store.get?_react_rpc unlimited acceptable d.rpc.topic d.rpc.group
    rw [if_pos ⟨rfl, rfl⟩, ← asks] at after
    obtain ⟨held, here, grown⟩ := stays after
    refine ⟨held, here, le_trans ?_ grown⟩
    rw [Store.available_afterCall]
    exact PartSet.le_union_right _ _
  | add topic m =>
    cases before : (Store.replay none older).1.get? topic m.group with
    | none =>
      have after := @Store.get?_react_add _ unlimited topic m topic m.group
      rw [if_pos ⟨Store.contains_eq_false.2 before, rfl, rfl⟩, ← asks] at after
      obtain ⟨held, here, grown⟩ := stays after
      exact ⟨held, here, fun _ => grown⟩
    | some old =>
      obtain ⟨m', after, -⟩ := Store.get?_react_of_get? unlimited before
      obtain ⟨held, here, -⟩ := stays after
      refine ⟨held, here, fun finished => ?_⟩
      have absent := fresh topic m asks finished
      rw [Store.contains_eq_false, before] at absent
      cases absent

namespace Exchange

section Moments

variable {capacity : Nat} {log log₁ log₂ : List (Nat × Job)} {e e₁ e₂ e₃ : Exchange}

/-! ### A request that has been answered -/

/-- A request that has been answered has been handled. -/
theorem Serving.handled_of_answered (run : Serving Addressed (.new capacity) log e) {number : Nat}
    {call : Call} {said : Answer} (made : e.calls[number]? = some call)
    (finished : call.stage = .finished (.answered said)) : (call.station, call.job) ∈ log := by
  obtain ⟨s, here, answered⟩ := run.settled made finished
  exact run.ledger.mem_of_answered made here (Option.isSome_of_mem answered)

/-- Whoever is answered gets the answer that was given when the request was handled. -/
theorem said_when_handled {before after : List (Nat × Job)} {number : Nat} {call : Call}
    {said : Answer} (made : e.calls[number]? = some call)
    (finished : call.stage = .finished (.answered said))
    (first : Serving Addressed (.new capacity) before e₂)
    (next : e₂.upcoming? call.station = some call.job)
    (serves : e₂.act? (.serve call.station) = some e₃) (rest : Serving Addressed e₃ after e) :
    ∃ (s : Station) (c' : Coordinator), e₂.stations[call.station]? = some s ∧
      s.coordinator.Change (some call.job) c' ∧
        ∀ given, c'.answer? call.job.id = some given → said = given := by
  have handles : e₂.handledBy (.serve call.station) call.station = some call.job := by
    simp [handledBy, handled?, next]
  have done : Serving Addressed (.new capacity)
      ((e₂.handled? (.serve call.station)).toList ++ before) e₃ := first.step trivial serves
  obtain ⟨s, here, -⟩ := stationStep?_eq_some serves
  obtain ⟨s', there, change⟩ := change_act? serves here
  rw [handles] at change
  refine ⟨s, s'.coordinator, here, change, ?_⟩
  intro given answered
  obtain ⟨t, there', still⟩ := done.answer? rest there answered
  obtain ⟨t', there'', answer⟩ := (done.trans rest).settled made finished
  obtain rfl := Option.some.inj (there'.symm.trans there'')
  exact Option.some.inj (answer.symm.trans still)

/-- The store of a coordinator is that of what it has handled. -/
theorem Serving.store (run : Serving Addressed (.new capacity) log e) {i : Nat} {s : Station}
    (here : e.stations[i]? = some s) :
    ∃ limit, s.coordinator.store = (Store.replay limit (recordOf log i)).1 := by
  have effects : e.effects? i = some (s.coordinator.store, s.coordinator.log) := by
    rw [effects?, here]
    rfl
  obtain ⟨limit, same⟩ := run.replayed.replay effects
  exact ⟨limit, congrArg Prod.fst same⟩

/-- A store without a limit is that of what its coordinator has handled, without a limit. -/
theorem Serving.store_of_unlimited (run : Serving Addressed (.new capacity) log e) {i : Nat}
    {s : Station} (here : e.stations[i]? = some s) (unlimited : s.coordinator.store.limit = none) :
    s.coordinator.store = (Store.replay none (recordOf log i)).1 := by
  obtain ⟨limit, store⟩ := run.store here
  rw [store, Store.limit_replay, Option.map_eq_none_iff] at unlimited
  rw [store, unlimited]

/-- A request that had been answered at an earlier moment is visible at a later one, without a
limit. -/
theorem Serving.visible_of_answered (first : Serving Addressed (.new capacity) log₁ e₁)
    (rest : Serving Addressed e₁ log₂ e₂) {n : Nat} {other : Call} {said : Answer}
    (made : e₁.calls[n]? = some other) (finished : other.stage = .finished (.answered said))
    {s : Station} (here : e₂.stations[other.station]? = some s)
    (unlimited : s.coordinator.store.limit = none) : other.Visible s.coordinator.store := by
  obtain ⟨before, after, f, f', run, next, serves, rest', rfl⟩ :=
    first.moment (first.handled_of_answered made finished)
  obtain ⟨t, c', there, change, answer⟩ := said_when_handled made finished run next serves rest'
  -- The store had no limit when the request was handled either.
  have same : t.coordinator.store.limit = none := by
    have begun : Serving Addressed f [] f := .start
    have served := @Serving.step _ _ _ _ _ (.serve other.station) begun trivial serves
    have onwards := (served.trans rest').trans rest
    obtain ⟨s', here', same⟩ := onwards.limit there
    obtain rfl := Option.some.inj (here.symm.trans here')
    exact same.symm.trans unlimited
  have record : recordOf (log₂ ++ (after ++ (other.station, other.job) :: before)) other.station =
      (recordOf log₂ other.station ++ recordOf after other.station) ++
        other.job :: recordOf before other.station := by
    simp [recordOf]
  rw [(first.trans rest).store_of_unlimited here unlimited, record]
  refine Call.visible_replay ?_ _
  intro topic m asks told
  rw [← run.store_of_unlimited there same]
  have given := answer _ (change.inserted asks)
  rw [finished] at told
  simp only [CallStage.finished.injEq, Outcome.answered.injEq] at told
  simpa [told] using given

/-- A call from a peer that had been delivered at an earlier moment, and has been handled, is
visible at a later one, without a limit. -/
theorem Serving.visible_of_handled (run : Serving Addressed (.new capacity) log e) {other : Call}
    (delivered : other.stage = .finished .delivered)
    (handled : (other.station, other.job) ∈ log) {s : Station}
    (here : e.stations[other.station]? = some s)
    (unlimited : s.coordinator.store.limit = none) : other.Visible s.coordinator.store := by
  obtain ⟨newer, older, record⟩ := List.append_of_mem (mem_recordOf.2 handled)
  rw [run.store_of_unlimited here unlimited, record]
  refine Call.visible_replay ?_ newer
  intro topic m asks told
  rw [delivered] at told
  cases told

/-! ### What a lookup sees -/

/-- A request that has not been made is found nowhere. -/
theorem Serving.not_found_of_later (first : Serving Addressed (.new capacity) log₁ e₁)
    (rest : Serving Addressed e₁ log₂ e) {number : Nat} {call : Call}
    (made : e.calls[number]? = some call) (asks : call.job.Asks)
    (later : e₁.calls.length ≤ number) : ¬ Found log₁ e₁ call.station call.job := by
  intro found
  obtain ⟨n, owner, made₁, station, job⟩ := first.ledger.owned asks found
  obtain ⟨owner', made', station', job'⟩ := first.sameCall rest made₁
  have same := (first.trans rest).ledger.distinct made' made (station'.trans station)
    (congrArg Job.id (job'.trans job))
  rw [← same] at later
  exact absurd (List.getElem?_eq_some_iff.1 made₁).1 (Nat.not_lt_of_le later)

/-- A list that is a prefix of others does not reach an element that it does not have. -/
theorem prefix_of_not_mem {α : Type} {l front back : List α} {x : α}
    (starts : l <+: front ++ x :: back) (absent : x ∉ l) : l <+: front := by
  have whole : front ++ [x] <+: front ++ x :: back := by
    rw [List.prefix_append_right_inj]
    exact ⟨back, rfl⟩
  rcases List.prefix_or_prefix_of_prefix starts whole with short | long
  · rcases List.prefix_concat_iff.1 short with rfl | within
    · exact absurd (List.mem_append_right _ (List.mem_singleton_self x)) absent
    · exact within
  · exact absurd (long.subset (List.mem_append_right _ (List.mem_singleton_self x))) absent

/-- When a lookup is handled, whatever waited at an earlier moment is handled, if the lookup did not
wait then; and nothing waits in the other lanes. -/
theorem Serving.handled_before_lookup (first : Serving Addressed (.new capacity) log₁ e₁)
    (rest : Serving Addressed e₁ log₂ e₂) {i : Nat} {s : Station} {c' : Coordinator} {job : Job}
    (here : e₂.stations[i]? = some s) (change : s.coordinator.Change (some job) c')
    (lookup : job.request.lane = .query) (absent : job ∉ e₁.lineAt i .query) :
    (∀ lane, lane ≠ .query → e₂.lineAt i lane = []) ∧
      ∀ lane, ∀ other ∈ e₁.lineAt i lane, (i, other) ∈ log₂ := by
  obtain ⟨running, _, _, next, -⟩ := change.serves
  obtain ⟨empty, others, items⟩ := Coordinator.empty_of_next?
    ((first.trans rest).ledger.tidy here) next lookup
  have none : ∀ lane, lane ≠ .query → e₂.lineAt i lane = [] := by
    intro lane differ
    rw [lineAt_of_station here, empty lane differ]
  refine ⟨none, ?_⟩
  have line : ∀ lane, e₁.lineAt i lane <+: turnsAt log₂ i lane ++ e₂.lineAt i lane := by
    refine (first.line rest i).resolve_left ?_
    rw [halted_iff here, running]
    exact Bool.false_ne_true
  intro lane other waits
  have turns : e₁.lineAt i lane <+: turnsAt log₂ i lane := by
    by_cases queries : lane = .query
    · subst queries
      have starts := line .query
      rw [lineAt_of_station here, items] at starts
      exact prefix_of_not_mem starts absent
    · have starts := line lane
      rwa [none lane queries, List.append_nil] at starts
  exact (mem_turnsAt.1 (turns.subset waits)).1

/-- **A lookup sees everything that was queued before it.**

A run of an exchange goes from the beginning to some moment, and on from there.  At that moment a
lookup has not entered its queue; for instance, it has not even been made.  In the end whoever made
it is told an answer.  Then there is a moment in between at which the lookup has been handled, and
the answer is what was stored at that moment: the result of all that the coordinator had handled
until then.  By then it had handled every job that had waited in one of its queues at the first
moment, and in the three queues of the other kinds nothing was left at all, so that not even a job
that had entered after the lookup was still waiting there.

In particular this holds of the requests that had ended with an answer, and of the calls that had
been delivered, by the first moment: all of them had been handled before the lookup, and what they
leave to see in a store without a limit was there to see. -/
theorem lookup_sees_what_was_queued_before (first : Serving Addressed (.new capacity) log₁ e₁)
    (rest : Serving Addressed e₁ log₂ e) {number : Nat} {call : Call} {topic : Topic}
    {group : GroupId} {said : Answer} (made : e.calls[number]? = some call)
    (asks : call.job.request = .get topic group)
    (answered : (e.pollCall number).2 = some (.answered said))
    (ahead : e₁.calls.length ≤ number ∨ ¬ Found log₁ e₁ call.station call.job) :
    ∃ before after e₂ e₃ s, Serving Addressed e₁ before e₂ ∧
      e₂.stations[call.station]? = some s ∧ e₂.upcoming? call.station = some call.job ∧
      e₂.act? (.serve call.station) = some e₃ ∧ Serving Addressed e₃ after e ∧
      log₂ = after ++ (call.station, call.job) :: before ∧
      said = .found (s.coordinator.store.get? topic group) ∧
      (∃ limit, s.coordinator.store =
        (Store.replay limit (recordOf (before ++ log₁) call.station)).1) ∧
      (∀ lane, ∀ job ∈ e₁.lineAt call.station lane, (call.station, job) ∈ before) ∧
      (∀ lane, lane ≠ .query → e₂.lineAt call.station lane = []) ∧
      ∀ (n : Nat) (other : Call), e₁.calls[n]? = some other → other.station = call.station →
        (other.stage = .finished .delivered ∨ ∃ said, other.stage = .finished (.answered said)) →
          (call.station, other.job) ∈ before ++ log₁ ∧
            (s.coordinator.store.limit = none → other.Visible s.coordinator.store) := by
  have lookup : call.job.request.lane = .query := by rw [asks]; rfl
  have absent : ¬ Found log₁ e₁ call.station call.job := by
    rcases ahead with later | absent
    · exact first.not_found_of_later rest made (by rw [Job.Asks, lookup]; decide) later
    · exact absent
  -- Polling the lookup handles nothing; afterwards it has ended with the answer.
  have polled := @Serving.step _ _ _ _ _ (.poll number) rest trivial rfl
  have ended := stage_of_pollCall made answered
  have handled : (call.station, call.job) ∈ log₂ :=
    (List.mem_append.1 ((first.trans polled).handled_of_answered ended rfl)).resolve_right
      fun member => absent (Or.inl member)
  obtain ⟨before, after, e₂, e₃, between, next, serves, onwards, rfl⟩ := rest.moment handled
  obtain ⟨s, c', here, change, answer⟩ := said_when_handled ended rfl (first.trans between) next
    serves (@Serving.step _ _ _ _ _ (.poll number) onwards trivial rfl)
  obtain ⟨empty, line⟩ := first.handled_before_lookup between here change lookup fun waits =>
    absent (found_iff.2 (Or.inr (lookup ▸ waits)))
  refine ⟨before, after, e₂, e₃, s, between, here, next, serves, onwards, rfl,
    answer _ (change.found asks), (first.trans between).store here, line, empty, ?_⟩
  rintro n other made₁ station (delivered | ⟨told, finished⟩)
  · -- What has been delivered has entered, and the coordinator had not ended.
    have running : ¬ e₁.Halted other.station := by
      intro halted
      obtain ⟨going, -⟩ := change.serves
      have still := between.halted (station ▸ halted)
      rw [halted_iff here, going] at still
      cases still
    have found := (first.delivered made₁ delivered).resolve_left running
    have done : (other.station, other.job) ∈ before ++ log₁ := by
      rcases found_iff.1 found with member | waits
      · exact List.mem_append_right _ member
      · rw [station] at waits ⊢
        exact List.mem_append_left _ (line _ _ waits)
    exact ⟨station ▸ done,
      (first.trans between).visible_of_handled delivered done (station.symm ▸ here)⟩
  · exact ⟨List.mem_append_right _ (station ▸ first.handled_of_answered made₁ finished),
      first.visible_of_answered between made₁ finished (station.symm ▸ here)⟩

end Moments

/-- A call from a peer is delivered, and then its group is looked up: the call waits in one queue
and the lookup in another, and yet the call has been handled when the lookup is answered. -/
theorem delivered_then_found :
    let call := Rpc.update default (uniformMessage default 3 5) .empty
    ∃ log₁ log₂ e₁ e, Serving Addressed (.new 4) log₁ e₁ ∧ Serving Addressed e₁ log₂ e ∧
      ∃ delivered lookup : Call, e₁.calls[0]? = some delivered ∧
        delivered.stage = .finished .delivered ∧
        delivered.job.request = .rpc { sender := default, rpc := call } ∧
        delivered.job ∈ e₁.lineAt delivered.station .incoming ∧ e.calls[1]? = some lookup ∧
        (e.pollCall 1).2 = some (.answered (.found (some (uniformMessage default 3 5)))) ∧
        ∃ before after, log₂ = after ++ (lookup.station, lookup.job) :: before ∧
          (delivered.station, delivered.job) ∈ before := by
  intro call
  have check : ((play? Addressed {} (.new 4) [.record default, .attach 0 {},
      .request 0 (.rpc { sender := default, rpc := call })]).any fun r =>
        (play? Addressed {} r.2
          [.request 0 (.get default default), .serve 0, .serve 0]).any fun q =>
          ∃ a ∈ r.2.calls[0]?, ∃ b ∈ q.2.calls[1]?, a.station = b.station ∧
            a.stage = .finished .delivered ∧
            a.job.request = .rpc { sender := default, rpc := call } ∧
            a.job ∈ r.2.lineAt a.station .incoming ∧ r.2.calls.length ≤ 1 ∧
            b.job.request = .get default default ∧ (q.2.pollCall 1).2 =
              some (.answered (.found (some (uniformMessage default 3 5))))) = true := by
    decide +kernel
  obtain ⟨⟨h₁, e₁⟩, played₁, check⟩ := (Option.any_eq_true _ _).1 check
  obtain ⟨⟨h₂, e⟩, played₂, check⟩ := (Option.any_eq_true _ _).1 check
  obtain ⟨delivered, made₁, lookup, made, station, stage, about, waits, short, asks, answered⟩ :=
    of_decide_eq_true check
  obtain ⟨log₁, first⟩ := (Run.start.play played₁).serving
  obtain ⟨log₂, rest⟩ := (Run.start.play played₂).serving
  obtain ⟨before, after, _, _, _, -, -, -, -, -, handled, -, -, line, -⟩ :=
    lookup_sees_what_was_queued_before first rest made asks answered (Or.inl short)
  exact ⟨log₁, log₂, e₁, e, first, rest, delivered, lookup, made₁, stage, about, waits, made,
    answered, before, after, handled, station ▸ line .incoming delivered.job (station ▸ waits)⟩

end Exchange

end PartExchange
