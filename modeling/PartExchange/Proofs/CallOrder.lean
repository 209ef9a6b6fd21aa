/-
**The order of calls does not matter.**

Calls from peers come in any order, again and again, about any groups, and some of them are
refused.  A call may create its group or find it there, and may bring parts first or too late, all
depending on what came before it.  In a store without a limit the order still leaves no trace in the
end: which calls are refused depends on the calls alone, a group is there if it was before or if a
call for it was not refused, and its message is the old one with the buffers of its calls merged
in.  The first two do not depend on the order at all, and the third only if two buffers bring
different parts for the same slot.

Main definitions:

* `Store.after`, `Store.refusals`: the store after some jobs, and the calls that it refuses;
* `Job.Reaches`, `buffersFor`: the calls for a group, and what they carry;
* `Consistent`: calls for one group that bring the same parts.

Main results:

* `Store.refusals_eq_filter`: which calls are refused;
* `Store.contains_after_iff`, `Store.current_after`: which groups a store holds after some calls,
  and the message of each;
* `Coordinator.order_of_calls_leaves_no_trace`: two coordinators that handle the same calls in two
  orders.
-/

import PartExchange.Proofs.Refusals
import PartExchange.Proofs.Merging

set_option relaxedAutoImplicit false
set_option autoImplicit false

namespace PartExchange

/-! ### Calls for one group -/

/-- A call for a group that is not refused. -/
def Job.Reaches (topic : Topic) (group : GroupId) (job : Job) : Prop :=
  ∃ delivery, job.request = .rpc delivery ∧ delivery.rpc.topic = topic ∧
    delivery.rpc.group = group ∧ delivery.rpc.Acceptable

/-- The buffer that a call for a group carries, refused or not. -/
def Job.bufferFor? (topic : Topic) (group : GroupId) (job : Job) : Option Bytes :=
  match job.request with
  | .rpc delivery =>
    if delivery.rpc.topic = topic ∧ delivery.rpc.group = group then delivery.rpc.payload? else none
  | _ => none

/-- The buffers of the calls for a group. -/
def buffersFor (topic : Topic) (group : GroupId) (jobs : List Job) : List Bytes :=
  jobs.filterMap (Job.bufferFor? topic group)

theorem mem_buffersFor {topic : Topic} {group : GroupId} {jobs : List Job} {data : Bytes} :
    data ∈ buffersFor topic group jobs ↔ ∃ job ∈ jobs, ∃ delivery, job.request = .rpc delivery ∧
      delivery.rpc.topic = topic ∧ delivery.rpc.group = group ∧
        delivery.rpc.payload? = some data := by
  rw [buffersFor, List.mem_filterMap]
  refine exists_congr fun job => and_congr_right fun _ => ?_
  unfold Job.bufferFor?
  cases job.request with
  | rpc delivery =>
    simp only [Option.ite_none_right_eq_some, Request.rpc.injEq, exists_eq_left']
    tauto
  | add _ _ | publish _ _ _ | get _ _ => simp

/-- Calls for one group that bring the same part wherever they bring one for the same slot.  A call
that is refused brings nothing. -/
def Consistent (jobs : List Job) : Prop :=
  ∀ first ∈ jobs, ∀ second ∈ jobs, ∀ d d', first.request = .rpc d → second.request = .rpc d' →
    d.rpc.topic = d'.rpc.topic → d.rpc.group = d'.rpc.group →
      ∀ index part part', (index, part) ∈ d.rpc.parts → (index, part') ∈ d'.rpc.parts → part = part'

theorem Rpc.parts_of_decode {rpc : Rpc} {data : Bytes} {fragment : Fragment}
    (payload : rpc.payload? = some data) (read : Fragment.decode data rpc.group = .ok fragment) :
    rpc.parts = fragment.parts := by
  simp [parts, decoded?, payload, read, Except.toOption]

/-- What a buffer brings for a slot is among the parts of the call that carries the buffer. -/
theorem Rpc.mem_parts_of_partIn? {rpc : Rpc} {data : Bytes} {index : Nat} {part : Part}
    (payload : rpc.payload? = some data)
    (brings : Fragment.partIn? data rpc.group index = some part) : (index, part) ∈ rpc.parts := by
  unfold Fragment.partIn? at brings
  split at brings
  · cases brings
  · rename_i fragment read
    obtain ⟨⟨i, p⟩, found, rfl⟩ := Option.map_eq_some_iff.1 brings
    obtain rfl : i = index := by simpa using List.find?_some found
    rw [parts_of_decode payload read]
    exact List.mem_of_find?_eq_some found

/-- The buffers of consistent calls agree. -/
theorem Consistent.agree {jobs : List Job} (consistent : Consistent jobs) (m : Message)
    (topic : Topic) : m.Agree (buffersFor topic m.group jobs) := by
  intro index _ data listed data' listed' part part' brings brings'
  obtain ⟨job, member, d, asks, rfl, group, payload⟩ := mem_buffersFor.1 listed
  obtain ⟨job', member', d', asks', topic', group', payload'⟩ := mem_buffersFor.1 listed'
  rw [← group] at brings
  rw [← group'] at brings'
  exact consistent job member job' member' d d' asks asks' topic'.symm (group.trans group'.symm)
    index part part' (Rpc.mem_parts_of_partIn? payload brings)
    (Rpc.mem_parts_of_partIn? payload' brings')

section Merge

variable {m : Message} {rpc : Rpc} (own : m.group = rpc.group)

include own

/-- Merging the buffer of a call that is not refused fills in the parts of the call. -/
theorem Message.mergeAll_payload (acceptable : rpc.Acceptable) :
    m.mergeAll rpc.payload?.toList = m.fillAll rpc.parts := by
  cases payload : rpc.payload? with
  | none =>
    have nothing : rpc.parts = [] := by simp [Rpc.parts, Rpc.decoded?, payload]
    rw [nothing]
    rfl
  | some data =>
    obtain ⟨fragment, read⟩ := acceptable data payload
    rw [Rpc.parts_of_decode payload read]
    exact merge_of_decode (own ▸ read)

/-- Merging the buffer of a refused call changes nothing. -/
theorem Message.mergeAll_payload_of_refused (refused : ¬ rpc.Acceptable) :
    m.mergeAll rpc.payload?.toList = m := by
  obtain ⟨data, h⟩ := not_forall.1 refused
  obtain ⟨payload, unread⟩ := Classical.not_imp.1 h
  cases read : Fragment.decode data rpc.group with
  | ok fragment => exact absurd ⟨fragment, read⟩ unread
  | error refusal =>
    rw [payload]
    exact merge_of_refused (own ▸ read)

end Merge

namespace Store

/-! ### What is refused -/

/-- A store after some jobs, one after the other. -/
def after (store : Store) (jobs : List Job) : Store :=
  jobs.foldl (fun store job => (store.react job.request).store) store

/-- Whether a store refuses a call. -/
def refuses (store : Store) (job : Job) : Bool :=
  match job.request with
  | .rpc delivery => !(store.absorb delivery.rpc).isOk
  | _ => false

/-- The calls that are refused when a store handles some jobs, one after the other. -/
def refusals (store : Store) : List Job → List Job
  | [] => []
  | job :: rest =>
    (if store.refuses job then [job] else []) ++ (store.react job.request).store.refusals rest

/-- Whether a call is refused does not depend on the store. -/
theorem refuses_eq (store : Store) (job : Job) : store.refuses job = job.isRefused := by
  unfold refuses Job.isRefused
  cases job.request with
  | add _ _ | publish _ _ _ | get _ _ => rfl
  | rpc delivery =>
    dsimp only
    by_cases acceptable : delivery.rpc.Acceptable
    · rw [absorb_of_acceptable acceptable,
        (Bool.eq_false_iff.2 fun refused => Rpc.isRefused_iff.1 refused acceptable :
          delivery.rpc.isRefused = false)]
      rfl
    · obtain ⟨⟨refusal, error⟩, -⟩ := @absorb_of_not_acceptable store _ acceptable
      rw [error, Rpc.isRefused_iff.2 acceptable]
      rfl

/-- The calls that are refused are those whose fragment does not read back. -/
theorem refusals_eq_filter (store : Store) (jobs : List Job) :
    store.refusals jobs = jobs.filter Job.isRefused := by
  induction jobs generalizing store with
  | nil => rfl
  | cons job rest ih =>
    rw [refusals, refuses_eq, ih]
    cases refused : job.isRefused with
    | true => rw [List.filter_cons_of_pos refused, if_pos rfl, List.singleton_append]
    | false =>
      rw [List.filter_cons_of_neg (by simp [refused]), if_neg Bool.false_ne_true, List.nil_append]

/-! ### What is stored -/

/-- What is found of a group is its message, if the group is held. -/
theorem get?_eq_current (store : Store) (topic : Topic) (group : GroupId) :
    store.get? topic group =
      if store.contains topic group = true then some (store.current topic group) else none := by
  unfold contains current
  cases store.get? topic group <;> rfl

section Calls

variable {store : Store} (unlimited : store.limit = none) (topic : Topic) (group : GroupId)

include unlimited

/-- Which groups are held after a call. -/
theorem contains_react_rpc {job : Job} (call : job.request.lane = .incoming) :
    (store.react job.request).store.contains topic group = true ↔
      store.contains topic group = true ∨ job.Reaches topic group := by
  obtain ⟨id, request⟩ := job
  cases request with
  | add _ _ | publish _ _ _ | get _ _ => cases call
  | rpc delivery =>
    simp only [Job.Reaches, Request.rpc.injEq, exists_eq_left']
    by_cases acceptable : delivery.rpc.Acceptable
    · rw [contains, get?_react_rpc unlimited acceptable]
      split
      · rename_i here
        exact iff_of_true rfl (Or.inr ⟨here.1.symm, here.2.symm, acceptable⟩)
      · rename_i elsewhere
        refine (or_iff_left ?_).symm
        rintro ⟨rfl, rfl, -⟩
        exact elsewhere ⟨rfl, rfl⟩
    · rw [react_rpc_of_not_acceptable acceptable]
      exact (or_iff_left fun reaches => acceptable reaches.2.2).symm

/-- The message of a group after a call is the old one, with the buffer merged in if the call is for
the group. -/
theorem current_react_rpc {job : Job} (call : job.request.lane = .incoming) :
    (store.react job.request).store.current topic group =
      (store.current topic group).mergeAll (buffersFor topic group [job]) := by
  obtain ⟨id, request⟩ := job
  cases request with
  | add _ _ | publish _ _ _ | get _ _ => cases call
  | rpc delivery =>
    have buffers : buffersFor topic group [⟨id, .rpc delivery⟩] =
        if delivery.rpc.topic = topic ∧ delivery.rpc.group = group
        then delivery.rpc.payload?.toList else [] := by
      simp only [buffersFor, Job.bufferFor?, List.filterMap_cons, List.filterMap_nil]
      split <;> split <;> simp_all
    rw [buffers]
    by_cases acceptable : delivery.rpc.Acceptable
    · rw [current, get?_react_rpc unlimited acceptable]
      by_cases here : topic = delivery.rpc.topic ∧ group = delivery.rpc.group
      · obtain ⟨rfl, rfl⟩ := here
        rw [if_pos ⟨rfl, rfl⟩, if_pos ⟨rfl, rfl⟩,
          Message.mergeAll_payload (group_current ..) acceptable]
        rfl
      · rw [if_neg here, if_neg (fun there => here ⟨there.1.symm, there.2.symm⟩)]
        rfl
    · rw [react_rpc_of_not_acceptable acceptable]
      split
      · rename_i here
        obtain ⟨rfl, rfl⟩ := here
        exact (Message.mergeAll_payload_of_refused (group_current ..) acceptable).symm
      · rfl

variable {jobs : List Job} (calls : ∀ job ∈ jobs, job.request.lane = .incoming)

include calls

/-- Which groups are held after some calls: those that were, and those with a call that is not
refused. -/
theorem contains_after_iff : (store.after jobs).contains topic group = true ↔
    store.contains topic group = true ∨ ∃ job ∈ jobs, job.Reaches topic group := by
  induction jobs generalizing store with
  | nil => simp [after]
  | cons job rest ih =>
    obtain ⟨call, calls'⟩ := List.forall_mem_cons.1 calls
    have next := ih ((limit_react store job.request).trans unlimited) calls'
    rw [contains_react_rpc unlimited topic group call] at next
    exact next.trans (by rw [List.exists_mem_cons_iff, or_assoc])

/-- The message of a group after some calls is the old one, with the buffers of the calls for the
group merged in. -/
theorem current_after : (store.after jobs).current topic group =
    (store.current topic group).mergeAll (buffersFor topic group jobs) := by
  induction jobs generalizing store with
  | nil => rfl
  | cons job rest ih =>
    obtain ⟨call, calls'⟩ := List.forall_mem_cons.1 calls
    have next := ih ((limit_react store job.request).trans unlimited) calls'
    rw [current_react_rpc unlimited topic group call] at next
    have split : buffersFor topic group (job :: rest) =
        buffersFor topic group [job] ++ buffersFor topic group rest := by
      rw [buffersFor, buffersFor, buffersFor, ← List.filterMap_append, List.singleton_append]
    rw [split, Message.mergeAll, List.foldl_append]
    exact next

end Calls

/-! ### Two orders -/

/-- Calls in another order are calls. -/
theorem incoming_of_perm {jobs others : List Job}
    (calls : ∀ job ∈ jobs, job.request.lane = .incoming) (rearranged : jobs.Perm others) :
    ∀ job ∈ others, job.request.lane = .incoming :=
  fun job member => calls job (rearranged.mem_iff.2 member)

section Orders

variable {store : Store} (unlimited : store.limit = none) {jobs others : List Job}
  (calls : ∀ job ∈ jobs, job.request.lane = .incoming) (rearranged : jobs.Perm others)
  (topic : Topic) (group : GroupId)

include unlimited calls rearranged

/-- Which groups are held after some calls does not depend on their order. -/
theorem contains_after_perm :
    (store.after others).contains topic group = (store.after jobs).contains topic group := by
  have calls' := incoming_of_perm calls rearranged
  rw [Bool.eq_iff_iff, contains_after_iff unlimited topic group calls',
    contains_after_iff unlimited topic group calls]
  simp only [rearranged.mem_iff]

/-- Neither does what is held of them. -/
theorem available_after_perm :
    ((store.after others).get? topic group).map Message.available =
      ((store.after jobs).get? topic group).map Message.available := by
  have calls' := incoming_of_perm calls rearranged
  have same : ((store.after others).current topic group).available =
      ((store.after jobs).current topic group).available := by
    rw [current_after unlimited topic group calls', current_after unlimited topic group calls]
    exact Message.available_mergeAll_congr fun data => (rearranged.filterMap _).mem_iff.symm
  rw [get?_eq_current, get?_eq_current,
    contains_after_perm unlimited calls rearranged topic group]
  split
  · exact congrArg some same
  · rfl

/-- Neither do the messages themselves, if the calls are consistent. -/
theorem get?_after_perm (consistent : Consistent jobs) :
    (store.after others).get? topic group = (store.after jobs).get? topic group := by
  have calls' := incoming_of_perm calls rearranged
  have agree := consistent.agree (store.current topic group) topic
  rw [group_current] at agree
  have same : (store.after others).current topic group =
      (store.after jobs).current topic group := by
    rw [current_after unlimited topic group calls', current_after unlimited topic group calls]
    exact Message.mergeAll_congr agree fun data => (rearranged.filterMap _).mem_iff.symm
  rw [get?_eq_current, get?_eq_current,
    contains_after_perm unlimited calls rearranged topic group, same]

end Orders

end Store

namespace Coordinator

variable {σ τ : Type} (send : Transport σ) (send' : Transport τ)

theorem store_handle (c : Coordinator) (s : σ) (jobs : List Job) :
    (c.handle send s jobs).1.store = c.store.after jobs := by
  induction jobs generalizing c s with
  | nil => rfl
  | cons job rest ih =>
    rw [handle_cons, ih, perform_store]
    rfl

/-- **The order of calls leaves no trace.**  A coordinator without a limit, whatever it holds,
handles some calls from peers, once in one order and once in another, over any two transports.  The
calls may be about any topics and groups; some may be refused, and some may come several times.
Either way the same calls are refused, and in the end the same groups are held, with the same parts
of each.  If moreover the calls for one group that are not refused bring the same part wherever they
bring one for the same slot, the messages are the same. -/
theorem order_of_calls_leaves_no_trace {c : Coordinator} (unlimited : c.store.limit = none) (s : σ)
    (s' : τ) {jobs others : List Job} (calls : ∀ job ∈ jobs, job.request.lane = .incoming)
    (rearranged : jobs.Perm others) :
    let one := (c.handle send s jobs).1.store
    let two := (c.handle send' s' others).1.store
    (c.store.refusals jobs).Perm (c.store.refusals others) ∧
      (∀ topic group, two.contains topic group = one.contains topic group ∧
        (two.get? topic group).map Message.available =
          (one.get? topic group).map Message.available) ∧
      (Consistent jobs → ∀ topic group, two.get? topic group = one.get? topic group) := by
  intro one two
  have one_eq : one = c.store.after jobs := store_handle send c s jobs
  have two_eq : two = c.store.after others := store_handle send' c s' others
  rw [one_eq, two_eq]
  refine ⟨?_, ?_, ?_⟩
  · rw [Store.refusals_eq_filter, Store.refusals_eq_filter]
    exact rearranged.filter _
  · intro topic group
    exact ⟨Store.contains_after_perm unlimited calls rearranged topic group,
      Store.available_after_perm unlimited calls rearranged topic group⟩
  · intro consistent topic group
    exact Store.get?_after_perm unlimited calls rearranged topic group consistent

/-- Two calls bring different parts for one slot, and a third one is refused.  In both orders the
third call is the refused one and the slot is full, but the call that comes first decides how. -/
theorem first_call_decides :
    let part (byte : UInt8) : Part := ⟨List.replicate partLength byte, List.length_replicate⟩
    let call (byte : UInt8) := Rpc.update default ((Message.new default).fill 3 (part byte)) .empty
    let jobs : List Job := [⟨0, .rpc { sender := default, rpc := call 7 }⟩,
      ⟨1, .rpc { sender := default, rpc := { call 7 with fragment := some [0] } }⟩,
      ⟨2, .rpc { sender := default, rpc := call 9 }⟩]
    let held (jobs : List Job) :=
      ((new {}).handle (fun (_ : Unit) _ => ((), none)) () jobs).1.store.get? default default
    (new {}).store.limit = none ∧ jobs.Perm jobs.reverse ∧
      ((new {}).store.refusals jobs).Perm ((new {}).store.refusals jobs.reverse) ∧
      (held jobs.reverse).map Message.available = (held jobs).map Message.available ∧
      held jobs.reverse ≠ held jobs := by
  intro part call jobs held
  have calls : ∀ job ∈ jobs, job.request.lane = .incoming := by
    intro job member
    simp only [jobs, List.mem_cons, List.not_mem_nil, or_false] at member
    rcases member with rfl | rfl | rfl <;> rfl
  have rearranged : jobs.Perm jobs.reverse := (List.reverse_perm jobs).symm
  obtain ⟨refused, stored, -⟩ := order_of_calls_leaves_no_trace (fun (_ : Unit) _ => ((), none))
    (fun (_ : Unit) _ => ((), none)) (show (new {}).store.limit = none from rfl) () () calls
    rearranged
  refine ⟨rfl, rearranged, refused, (stored default default).2, ?_⟩
  decide +kernel

end Coordinator

end PartExchange
