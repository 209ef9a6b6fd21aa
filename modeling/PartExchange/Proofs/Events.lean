/-
**The events of a coordinator tell the history of its store.**

A coordinator reports when a message has gained parts by a call, and when a message holds every part.
Who only reads the events may wait for the second kind and rely on it: of every group without a limit
it comes once when the message is complete, whether the last part came by a call or the message was
complete when it was added, and it does not come before.  The sets that are reported of a group grow
strictly, up to what is stored.

The proof is an induction on the requests that have been handled.  A request says nothing of groups
other than its own, and of its own group there are three courses: nothing happens, the group is added,
or a call brings it the parts that the call carries.

Main definitions:

* `Event.subject`, `growth`: what an event is about, and the sets reported of a group;
* `Store.Told`: the events so far match what is stored of a group;
* `Coordinator.handle`: a coordinator after some jobs.

Main results:

* `Store.course_react`: the three courses of a request;
* `Store.Told.react`: a request keeps the events and the store together;
* `Coordinator.events_tell_store`: the events of a coordinator that was started empty.
-/

import Mathlib.Data.List.Induction
import PartExchange.Coordinator.Basic
import PartExchange.Proofs.Reaction

set_option relaxedAutoImplicit false
set_option autoImplicit false

namespace PartExchange

/-- The group that an event is about, with its topic. -/
def Event.subject : Event → Topic × GroupId
  | .extended topic group _ => (topic, group)
  | .completed topic group => (topic, group)

/-- The set that an event reports of a group, if it reports one. -/
def Event.growth? (topic : Topic) (group : GroupId) : Event → Option PartSet
  | .extended t g held => if t = topic ∧ g = group then some held else none
  | .completed _ _ => none

/-- The sets that are reported of a group, oldest first. -/
def growth (log : List Event) (topic : Topic) (group : GroupId) : List PartSet :=
  log.filterMap (Event.growth? topic group)

theorem growth_append (log events : List Event) (topic : Topic) (group : GroupId) :
    growth (log ++ events) topic group = growth log topic group ++ growth events topic group :=
  List.filterMap_append

/-- Events about other groups report nothing of a group. -/
theorem growth_eq_nil {events : List Event} {topic : Topic} {group : GroupId}
    (elsewhere : ∀ event ∈ events, event.subject ≠ (topic, group)) :
    growth events topic group = [] := by
  rw [growth, List.filterMap_eq_nil_iff]
  intro event member
  have other := elsewhere event member
  cases event with
  | extended t g held => simpa [Event.growth?, Event.subject] using other
  | completed t g => rfl

namespace Store

/-! ### What a request does to its group -/

section Events

variable {store : Store} {request : Request}

/-- The events of a call that is not refused. -/
theorem events_react_rpc {delivery : Delivery} (acceptable : delivery.rpc.Acceptable) :
    (store.react (.rpc delivery)).events =
      if store.available delivery.rpc.topic delivery.rpc.group ≠
          (store.afterCall delivery.rpc).available
      then growthEvents delivery.rpc.topic (store.afterCall delivery.rpc) else [] := by
  simp only [react, reactRpc, absorb_of_acceptable acceptable]
  change (if (store.available delivery.rpc.topic delivery.rpc.group !=
    (store.afterCall delivery.rpc).available) = true then _ else _) = _
  simp only [bne_iff_ne]
  rfl

/-- The events of a request to add a message. -/
theorem events_react_add (topic : Topic) (m : Message) :
    (store.react (.add topic m)).events =
      if store.contains topic m.group = false ∧ m.isComplete = true
      then [.completed topic m.group] else [] := by
  simp only [react, reactAdd, insertIfAbsent]
  by_cases held : store.contains topic m.group = true <;> simp [held]

theorem subject_of_mem_growthEvents {topic : Topic} {m : Message} {event : Event}
    (member : event ∈ growthEvents topic m) : event.subject = (topic, m.group) := by
  unfold growthEvents at member
  split at member
  · simp only [List.mem_cons, List.not_mem_nil, or_false] at member
    rcases member with rfl | rfl <;> rfl
  · obtain rfl := List.mem_singleton.1 member
    rfl

/-- A request reports of its own group only. -/
theorem subject_of_mem_events {event : Event} (member : event ∈ (store.react request).events) :
    event.subject = request.subject := by
  cases request with
  | add topic m =>
    rw [events_react_add] at member
    split at member
    · obtain rfl := List.mem_singleton.1 member
      rfl
    · cases member
  | publish topic group peers =>
    simp only [react, reactPublish] at member
    split at member <;> cases member
  | rpc delivery =>
    by_cases acceptable : delivery.rpc.Acceptable
    · rw [events_react_rpc acceptable] at member
      split at member
      · rw [subject_of_mem_growthEvents member, group_afterCall]
        rfl
      · cases member
    · rw [react_rpc_of_not_acceptable acceptable] at member
      cases member
  | get topic group => cases member

/-- What a request does to the group that it is about, and what it reports: `held` is the message of
the group before, and `held'` the one after. -/
inductive Course (request : Request) (held held' : Option Message) (events : List Event) : Prop
  | still (same : held' = held) (silent : events = [])
  | added {topic : Topic} {m : Message} (asks : request = .add topic m) (absent : held = none)
      (stored : held' = some m)
      (reported : events = if m.isComplete then [.completed topic m.group] else [])
  | called {topic : Topic} {m : Message} (about : request.subject = (topic, m.group))
      (grown : ∀ old, held = some old → old.available ≤ m.available) (stored : held' = some m)
      (reported : events = if (held.map Message.available).getD .empty = m.available then []
        else growthEvents topic m)

/-- A message is reported complete after the report that it has grown to the full set, or when it is
added. -/
theorem Course.completed {held held' : Option Message} {events : List Event} {n : Nat} {topic : Topic}
    {group : GroupId} (course : Course request held held' events)
    (about : request.subject = (topic, group)) (reported : events[n]? = some (.completed topic group)) :
    (n = 1 ∧ events[0]? = some (.extended topic group .full)) ∨
      (n = 0 ∧ ∃ m, request = .add topic m ∧ m.group = group ∧ m.isComplete = true ∧ held = none) := by
  cases course with
  | still same silent =>
    rw [silent] at reported
    cases reported
  | @added t m asks absent stored events =>
    rw [asks] at about
    obtain ⟨rfl, own⟩ := Prod.mk.inj about
    rw [events] at reported
    split at reported
    · rename_i complete
      have first : n = 0 := Nat.lt_one_iff.1 (List.getElem?_eq_some_iff.1 reported).1
      exact Or.inr ⟨first, m, asks, own, complete, absent⟩
    · cases reported
  | @called t m subject grown stored events =>
    obtain ⟨rfl, rfl⟩ := Prod.mk.inj (about.symm.trans subject)
    rw [events] at reported ⊢
    split at reported
    · cases reported
    · rename_i growing
      rw [if_neg growing]
      unfold growthEvents at reported ⊢
      split at reported
      · rename_i complete
        rw [if_pos complete, Message.isComplete_iff.1 complete]
        match n with
        | 0 => cases reported
        | 1 => exact Or.inl ⟨rfl, rfl⟩
        | n + 2 => cases reported
      · match n with
        | 0 => cases reported
        | n + 1 => cases reported

variable (unlimited : store.limit = none)

include unlimited

/-- Every request takes one of the three courses. -/
theorem course_react (request : Request) :
    Course request (store.get? request.subject.1 request.subject.2)
      ((store.react request).store.get? request.subject.1 request.subject.2)
      (store.react request).events := by
  cases request with
  | add topic m =>
    cases held : store.contains topic m.group with
    | true =>
      refine .still ?_ ?_
      · exact (get?_react_add unlimited topic m.group).trans (if_neg (by simp [held]))
      · rw [events_react_add, held]
        simp
    | false =>
      refine .added rfl (contains_eq_false.1 held) ?_ ?_
      · exact (get?_react_add unlimited topic m.group).trans (if_pos ⟨held, rfl, rfl⟩)
      · rw [events_react_add, held]
        simp
  | publish topic group peers =>
    refine .still (by rw [react_publish_store]) ?_
    simp only [react, reactPublish]
    split <;> rfl
  | rpc delivery =>
    by_cases acceptable : delivery.rpc.Acceptable
    · have own := group_afterCall store delivery.rpc
      refine @Course.called _ _ _ _ delivery.rpc.topic (store.afterCall delivery.rpc) ?_ ?_ ?_ ?_
      · rw [own]
        rfl
      · intro old held
        have now : store.available delivery.rpc.topic delivery.rpc.group = old.available :=
          available_of_get? held
        rw [available_afterCall, now]
        exact PartSet.le_union_left _ _
      · exact (get?_react_rpc unlimited acceptable _ _).trans (if_pos ⟨rfl, rfl⟩)
      · have now : ((store.get? delivery.rpc.topic delivery.rpc.group).map
            Message.available).getD .empty =
              store.available delivery.rpc.topic delivery.rpc.group := by
          cases held : store.get? delivery.rpc.topic delivery.rpc.group with
          | none => exact (available_of_get?_none held).symm
          | some m => exact (available_of_get? held).symm
        rw [events_react_rpc acceptable, Request.subject, now, ite_not]
    · exact .still (by rw [react_rpc_of_not_acceptable acceptable])
        (by rw [react_rpc_of_not_acceptable acceptable])
  | get topic group => exact .still rfl rfl

/-- A request leaves other groups as they are. -/
theorem get?_react_of_ne {topic : Topic} {group : GroupId}
    (elsewhere : request.subject ≠ (topic, group)) :
    (store.react request).store.get? topic group = store.get? topic group := by
  rcases @react_changes _ unlimited request topic group with same | ⟨-, m, rfl, rfl⟩ |
    ⟨delivery, m, rfl, rfl, rfl, -⟩
  · exact same
  · exact absurd rfl elsewhere
  · exact absurd rfl elsewhere

end Events

/-! ### Events against the store -/

/-- The events so far match what is stored of a group. -/
structure Told (held : Option Message) (log : List Event) (topic : Topic) (group : GroupId) :
    Prop where
  /-- Nothing is reported of a group that is not stored. -/
  untold : held = none → ∀ event ∈ log, event.subject ≠ (topic, group)
  /-- A complete message has been reported once, and no other. -/
  completions : log.count (.completed topic group) = if held.any Message.isComplete then 1 else 0
  /-- The reported sets grow strictly. -/
  chain : (growth log topic group).Pairwise (· < ·)
  /-- The last one is what is stored. -/
  last : ∀ set, (growth log topic group).getLast? = some set →
    ∃ m, held = some m ∧ m.available = set

theorem told_new (topic : Topic) (group : GroupId) : Told none [] topic group where
  untold _ _ member := by cases member
  completions := rfl
  chain := List.Pairwise.nil
  last _ h := by cases h

namespace Told

variable {held : Option Message} {log events : List Event} {topic : Topic} {group : GroupId}

/-- Events about other groups change nothing. -/
theorem elsewhere (told : Told held log topic group)
    (others : ∀ event ∈ events, event.subject ≠ (topic, group)) :
    Told held (log ++ events) topic group where
  untold absent event member := by
    rcases List.mem_append.1 member with before | new
    · exact told.untold absent event before
    · exact others event new
  completions := by
    have none : events.count (.completed topic group) = 0 :=
      List.count_eq_zero.2 fun member => others _ member rfl
    rw [List.count_append, none, Nat.add_zero, told.completions]
  chain := by
    rw [growth_append, growth_eq_nil others, List.append_nil]
    exact told.chain
  last := by
    rw [growth_append, growth_eq_nil others, List.append_nil]
    exact told.last

/-- Another message that holds the same is reported in the same way. -/
theorem congr (told : Told held log topic group) {m : Message}
    (same : ∀ old, held = some old → old.available = m.available)
    (empty : held = none → m.available = .empty) : Told (some m) log topic group where
  untold absent := by cases absent
  completions := by
    rw [told.completions]
    cases held with
    | none =>
      have incomplete : m.isComplete = false := by
        rw [Message.isComplete, empty rfl]
        rfl
      simp [incomplete]
    | some old =>
      have complete : old.isComplete = m.isComplete := congrArg PartSet.isFull (same old rfl)
      rw [Option.any_some, Option.any_some, complete]
  chain := told.chain
  last set found := by
    obtain ⟨old, rfl, holds⟩ := told.last set found
    exact ⟨m, rfl, (same old rfl).symm.trans holds⟩

/-- Nothing has been reported of a group that is added. -/
theorem add (told : Told none log topic group) {m : Message} (own : m.group = group) :
    Told (some m) (log ++ if m.isComplete then [.completed topic m.group] else []) topic group := by
  have silent : growth log topic group = [] := growth_eq_nil (told.untold rfl)
  have quiet : growth (if m.isComplete then [.completed topic m.group] else []) topic group =
      [] := by
    split <;> rfl
  constructor
  case untold =>
    intro absent
    cases absent
  case completions =>
    rw [List.count_append, told.completions, own]
    cases complete : m.isComplete <;> simp [complete]
  case chain =>
    rw [growth_append, silent, quiet]
    exact List.Pairwise.nil
  case last =>
    rw [growth_append, silent, quiet]
    intro set found
    cases found

/-- The message of a group has gained parts. -/
theorem grow (told : Told held log topic group) {m : Message} (own : m.group = group)
    (grown : ∀ old, held = some old → old.available < m.available) :
    Told (some m) (log ++ growthEvents topic m) topic group := by
  have reported : growth (growthEvents topic m) topic group = [m.available] := by
    unfold growthEvents
    split <;> simp [growth, Event.growth?, own]
  have never : log.count (.completed topic group) = 0 := by
    rw [told.completions, if_neg]
    intro complete
    obtain ⟨old, present, full⟩ := (Option.any_eq_true _ _).1 complete
    rw [Message.isComplete_iff] at full
    have more := grown old present
    rw [full] at more
    exact absurd (PartSet.le_full _) (not_le_of_gt more)
  constructor
  case untold =>
    intro absent
    cases absent
  case completions =>
    rw [List.count_append, never, growthEvents, own]
    cases complete : m.isComplete <;> simp [complete]
  case chain =>
    rw [growth_append, reported, List.pairwise_append]
    refine ⟨told.chain, List.pairwise_singleton _ _, ?_⟩
    intro set member latest here
    obtain rfl := List.mem_singleton.1 here
    obtain ⟨last, final⟩ : ∃ last, (growth log topic group).getLast? = some last :=
      Option.isSome_iff_exists.1 (List.getLast?_isSome.2 (List.ne_nil_of_mem member))
    obtain ⟨old, present, holds⟩ := told.last last final
    have more := grown old present
    rw [holds] at more
    -- A chain that grows ends with its largest set.
    obtain ⟨front, split⟩ := List.getLast?_eq_some_iff.1 final
    have chain := told.chain
    rw [split] at member chain
    rcases List.mem_append.1 member with earlier | same
    · exact ((List.pairwise_append.1 chain).2.2 set earlier last
        (List.mem_singleton_self last)).trans more
    · obtain rfl := List.mem_singleton.1 same
      exact more
  case last =>
    rw [growth_append, reported]
    intro set found
    rw [List.getLast?_concat] at found
    exact ⟨m, rfl, Option.some.inj found⟩

/-- Whatever course a request takes for its own group. -/
theorem course (told : Told held log topic group) {request : Request} {held' : Option Message}
    (about : request.subject = (topic, group)) (course : Course request held held' events) :
    Told held' (log ++ events) topic group := by
  cases course with
  | still same silent =>
    rw [same, silent, List.append_nil]
    exact told
  | added asks absent stored reported =>
    subst asks absent stored reported
    obtain ⟨rfl, own⟩ := Prod.mk.inj about
    exact told.add own
  | @called t m subject grown stored reported =>
    rw [about] at subject
    obtain ⟨rfl, own⟩ := Prod.mk.inj subject
    subst stored reported
    by_cases same : (held.map Message.available).getD .empty = m.available
    · rw [if_pos same, List.append_nil]
      refine told.congr ?_ ?_
      · rintro old rfl
        exact same
      · rintro rfl
        exact same.symm
    · rw [if_neg same]
      refine told.grow own.symm ?_
      rintro old rfl
      exact lt_of_le_of_ne (grown old rfl) same

/-- A request keeps the events and the store together. -/
theorem react {store : Store} (unlimited : store.limit = none)
    (told : Told (store.get? topic group) log topic group) (request : Request) :
    Told ((store.react request).store.get? topic group) (log ++ (store.react request).events) topic
      group := by
  by_cases about : request.subject = (topic, group)
  · have taken := course_react unlimited request
    rw [about] at taken
    exact told.course about taken
  · rw [get?_react_of_ne unlimited about]
    refine told.elsewhere ?_
    intro event member same
    rw [subject_of_mem_events member] at same
    exact about same

end Told

end Store

/-! ### A coordinator that handles requests -/

namespace Coordinator

variable {σ : Type} (send : Transport σ)

/-- A coordinator and its transport after some jobs, one after the other. -/
def handle (c : Coordinator) (s : σ) (jobs : List Job) : Coordinator × σ :=
  jobs.foldl (fun (c, s) job => c.perform send s job) (c, s)

@[simp] theorem handle_append (c : Coordinator) (s : σ) (jobs later : List Job) :
    c.handle send s (jobs ++ later) =
      (c.handle send s jobs).1.handle send (c.handle send s jobs).2 later := by
  rw [handle, List.foldl_append]
  rfl

theorem handle_singleton (c : Coordinator) (s : σ) (job : Job) :
    c.handle send s [job] = c.perform send s job := rfl

theorem limit_handle (c : Coordinator) (s : σ) (jobs : List Job) :
    (c.handle send s jobs).1.store.limit = c.store.limit := by
  induction jobs generalizing c s with
  | nil => rfl
  | cons job rest ih =>
    exact (ih _ _).trans (Store.limit_react c.store job.request)

section Unlimited

variable {config : CoordinatorConfig} (unlimited : config.maxGroupsPerTopic = none) (s : σ)

include unlimited

theorem limit_handle_new (jobs : List Job) :
    ((new config).handle send s jobs).1.store.limit = none := by
  rw [limit_handle]
  exact congrArg (Option.map (max 1)) unlimited

/-- The events of a coordinator match its store. -/
theorem told_handle (jobs : List Job) (topic : Topic) (group : GroupId) :
    Store.Told (((new config).handle send s jobs).1.store.get? topic group)
      ((new config).handle send s jobs).1.log topic group := by
  induction jobs using List.reverseRecOn with
  | nil => exact Store.told_new topic group
  | append_singleton jobs job ih =>
    rw [handle_append, handle_singleton, perform_store, perform_log]
    exact ih.react (limit_handle_new send unlimited s jobs) job.request

/-- A complete message is reported right after its last growth, or by the request that added it. -/
theorem completed_after_growth_or_add {jobs : List Job} {n : Nat} {topic : Topic} {group : GroupId}
    (reported : ((new config).handle send s jobs).1.log[n]? = some (.completed topic group)) :
    (∃ p, n = p + 1 ∧ ((new config).handle send s jobs).1.log[p]? =
        some (.extended topic group .full)) ∨
      ∃ earlier id m later, jobs = earlier ++ ⟨id, .add topic m⟩ :: later ∧ m.group = group ∧
        m.isComplete = true ∧
        ((new config).handle send s earlier).1.store.get? topic group = none ∧
        n = ((new config).handle send s earlier).1.log.length := by
  induction jobs using List.reverseRecOn with
  | nil => cases reported
  | append_singleton jobs job ih =>
    rw [handle_append, handle_singleton, perform_log] at reported ⊢
    generalize before : ((new config).handle send s jobs).1 = c at reported ih ⊢
    rcases Nat.lt_or_ge n c.log.length with old | new
    · rw [List.getElem?_append_left old] at reported
      rcases ih reported with ⟨p, rfl, growth⟩ | ⟨earlier, id, m, later, rfl, rest⟩
      · exact Or.inl ⟨p, rfl, by rwa [List.getElem?_append_left (by omega)]⟩
      · exact Or.inr ⟨earlier, id, m, later ++ [job], by simp, rest⟩
    · rw [List.getElem?_append_right new] at reported
      have unbounded : c.store.limit = none := before ▸ limit_handle_new send unlimited s jobs
      have about : job.request.subject = (topic, group) :=
        (Store.subject_of_mem_events (List.mem_of_getElem? reported)).symm
      have course := Store.course_react unbounded job.request
      rw [about] at course
      rcases course.completed about reported with
        ⟨second, growth⟩ | ⟨first, m, asks, own, complete, absent⟩
      · refine Or.inl ⟨c.log.length, by omega, ?_⟩
        rwa [List.getElem?_append_right (Nat.le_refl _), Nat.sub_self]
      · obtain ⟨id, request⟩ := job
        obtain rfl : request = .add topic m := asks
        exact Or.inr ⟨jobs, id, m, [], rfl, own, complete, by rwa [before], by rw [before]; omega⟩

/-- **The events of a coordinator tell the history of its store.**  A coordinator without a limit has
started empty and handled any requests, and its transport has done whatever it likes.  Then of every
group it has reported as many times that the message is complete as the stored message is: once or
not at all.  The sets it has reported of the group grow strictly, and the last one is what the stored
message holds.  Every report that the message is complete comes right after the report that it has
grown to the full set, or it is the report of the request that added the complete message. -/
theorem events_tell_store (jobs : List Job) (topic : Topic) (group : GroupId) :
    let c := ((new config).handle send s jobs).1
    c.log.count (.completed topic group) =
        (if (c.store.get? topic group).any Message.isComplete then 1 else 0) ∧
      (growth c.log topic group).Pairwise (· < ·) ∧
      (∀ last, (growth c.log topic group).getLast? = some last →
        ∃ m, c.store.get? topic group = some m ∧ m.available = last) ∧
      ∀ n, c.log[n]? = some (.completed topic group) →
        (∃ p, n = p + 1 ∧ c.log[p]? = some (.extended topic group .full)) ∨
          ∃ earlier id m later, jobs = earlier ++ ⟨id, .add topic m⟩ :: later ∧ m.group = group ∧
            m.isComplete = true ∧
            ((new config).handle send s earlier).1.store.get? topic group = none ∧
            n = ((new config).handle send s earlier).1.log.length := by
  have told := told_handle send unlimited s jobs topic group
  exact ⟨told.completions, told.chain, told.last,
    fun _ reported => completed_after_growth_or_add send unlimited s reported⟩

end Unlimited

/-- A call comes before a request to add the complete message, so the message is not complete, and
only its growth by the call has been reported. -/
theorem add_too_late :
    let part : Part := ⟨List.replicate partLength 7, List.length_replicate⟩
    let whole : Message := (List.range partCount).foldl (·.fill · part) (.new default)
    let call := Rpc.update default ((Message.new default).fill 3 part) .empty
    let jobs : List Job := [⟨0, .rpc { sender := default, rpc := call }⟩, ⟨1, .add default whole⟩]
    let c := ((new {}).handle (fun (_ : Unit) _ => ((), none)) () jobs).1
    ({} : CoordinatorConfig).maxGroupsPerTopic = none ∧
      c.log.count (.completed default default) = 0 ∧
      growth c.log default default = [.single 3] ∧
      ∃ m, c.store.get? default default = some m ∧ m.available = .single 3 := by
  intro part whole call jobs c
  have told := @events_tell_store Unit (fun _ _ => ((), none)) {} rfl () jobs default default
  have reported : growth c.log default default = [.single 3] := by decide +kernel
  refine ⟨rfl, told.1.trans (by decide +kernel), reported, told.2.2.1 _ ?_⟩
  exact (congrArg List.getLast? reported).trans rfl

end Coordinator

end PartExchange
