/-
**A store kept by index and queue.**

For a look-up that does not search, the messages of a topic are kept by group in an index, and what
has to leave first is kept apart, in a queue of the groups in the order of their arrival.  Every
write has to keep the two in step.  A group must be in the queue exactly when it is in the index; it
must not get a second place when its message is replaced, nor keep its old one when it comes back
after it had to leave.  Both layouts, one list of messages for all topics and an index with a queue
for each, answer in every run as shelves do.

Main definitions:

* `Drawer`, `Drawer.put`: index and queue of one topic, and storing in them;
* `Cabinet`: a drawer for each topic that something was stored on;
* `Drawer.Shows`, `Cabinet.Shows`: index and queue hold the messages of a shelf.

Main results:

* `Drawer.Shows.size`: the index is as large as the queue is long;
* `Cabinet.simulates_shelves`: a cabinet answers as shelves do;
* `Store.bounded_fifo`: what a store and a cabinet answer, and what every store satisfies.
-/

import Mathlib.Algebra.GroupWithZero.Nat
import Mathlib.Data.List.AList
import PartExchange.Proofs.BoundedFifo

set_option relaxedAutoImplicit false
set_option autoImplicit false

namespace PartExchange

/-! ### One topic -/

/-- What is kept for one topic. -/
structure Drawer where
  /-- The messages by group. -/
  index : AList fun _ : GroupId => Message
  /-- The groups in the order of their arrival, oldest first. -/
  order : List GroupId

namespace Drawer

/-- A drawer with nothing in it. -/
def empty : Drawer := ⟨∅, []⟩

/-- The number of groups. -/
def size (drawer : Drawer) : Nat := drawer.index.keys.length

/-- Stores a message under its group.  A group that is new is also queued, and if there are more
than the limit then, the first in the queue leaves both. -/
def put (limit : Option Nat) (drawer : Drawer) (m : Message) : Drawer × Option GroupId :=
  let index := drawer.index.insert m.group m
  if (drawer.index.lookup m.group).isSome then (⟨index, drawer.order⟩, none)
  else
    let order := drawer.order ++ [m.group]
    match limit with
    | none => (⟨index, order⟩, none)
    | some bound =>
      if order.length ≤ bound then (⟨index, order⟩, none)
      else
        match order with
        | [] => (⟨index, []⟩, none)
        | eldest :: later => (⟨index.erase eldest, later⟩, some eldest)

section Put

variable {limit : Option Nat} {drawer : Drawer} {m : Message}

theorem put_of_held (held : drawer.index.lookup m.group ≠ none) :
    drawer.put limit m = (⟨drawer.index.insert m.group m, drawer.order⟩, none) := by
  rw [put]
  exact if_pos (Option.isSome_iff_ne_none.2 held)

variable (absent : drawer.index.lookup m.group = none)

include absent

theorem put_of_room (room : ¬ limit.any (· < drawer.order.length + 1) = true) :
    drawer.put limit m =
      (⟨drawer.index.insert m.group m, drawer.order ++ [m.group]⟩, none) := by
  rw [put]
  refine (if_neg (by simp [absent])).trans ?_
  cases limit with
  | none => rfl
  | some bound =>
    have narrow : ¬ bound < drawer.order.length + 1 := fun longer => room (decide_eq_true longer)
    exact if_pos (by rw [List.length_append, List.length_singleton]; omega)

theorem put_of_full (full : limit.any (· < drawer.order.length + 1) = true) {eldest : GroupId}
    {later : List GroupId} (order : drawer.order ++ [m.group] = eldest :: later) :
    drawer.put limit m = (⟨(drawer.index.insert m.group m).erase eldest, later⟩, some eldest) := by
  rw [put]
  refine (if_neg (by simp [absent])).trans ?_
  cases limit with
  | none => cases full
  | some bound =>
    have longer : bound < drawer.order.length + 1 := of_decide_eq_true full
    refine (if_neg (by rw [List.length_append, List.length_singleton]; omega)).trans ?_
    rw [order]

end Put

/-- Index and queue hold the messages of a shelf. -/
structure Shows (drawer : Drawer) (shelf : Shelf) : Prop where
  /-- The queue has the groups in the order of the shelf. -/
  order : drawer.order = shelf.messages.map Message.group
  /-- The index finds what is on the shelf. -/
  index : ∀ group, drawer.index.lookup group = shelf.get? group

theorem shows_empty : empty.Shows .empty := ⟨rfl, fun _ => rfl⟩

namespace Shows

variable {drawer : Drawer} {shelf : Shelf} (shows : drawer.Shows shelf)

include shows

/-- A group is in the index exactly when it is in the queue. -/
theorem mem_order (group : GroupId) : group ∈ drawer.order ↔ group ∈ drawer.index := by
  rw [shows.order, ← AList.lookup_isSome, shows.index, Option.isSome_iff_ne_none, ne_eq,
    Shelf.get?_eq_none, not_not]

/-- The index has as many groups as the queue. -/
theorem size : drawer.size = shelf.messages.length := by
  have distinct : drawer.order.Nodup := shows.order ▸ shelf.distinct
  have same : drawer.index.keys.Perm drawer.order := by
    rw [List.perm_ext_iff_of_nodup drawer.index.keys_nodup distinct]
    intro group
    rw [shows.mem_order, AList.mem_keys]
  rw [Drawer.size, same.length_eq, shows.order, List.length_map]

/-- Storing keeps index, queue and shelf in step, and the same group leaves. -/
theorem put (bound : Option Nat) (m : Message) :
    (drawer.put (bound.map (max 1)) m).1.Shows (shelf.put bound m).1 ∧
      (drawer.put (bound.map (max 1)) m).2 = (shelf.put bound m).2 := by
  have length : drawer.order.length = shelf.messages.length := by
    rw [shows.order, List.length_map]
  have full : (bound.map (max 1)).any (· < drawer.order.length + 1) = shelf.full bound := by
    rw [length, Shelf.full]
    cases bound with
    | none => rfl
    | some n => simp [Nat.max_comm 1 n]
  have inserted (group : GroupId) : (drawer.index.insert m.group m).lookup group =
      if group = m.group then some m else shelf.get? group := by
    by_cases here : group = m.group
    · rw [if_pos here, here, AList.lookup_insert]
    · rw [if_neg here, AList.lookup_insert_ne here, shows.index]
  by_cases absent : shelf.get? m.group = none
  · have missing : drawer.index.lookup m.group = none := (shows.index _).trans absent
    have appended : drawer.order ++ [m.group] =
        (shelf.append m absent).messages.map Message.group := by
      rw [shows.order, Shelf.append, List.map_append, List.map_singleton]
    by_cases filled : shelf.full bound = true
    · obtain ⟨head, rest, messages⟩ := Shelf.messages_of_full filled
      have first : (shelf.append m absent).messages = head :: (rest ++ [m]) := by
        simp [Shelf.append, messages]
      rw [first, List.map_cons] at appended
      rw [put_of_full missing (full.trans filled) appended, Shelf.put_of_full absent filled]
      refine ⟨⟨?_, ?_⟩, ?_⟩
      · exact congrArg (fun messages => messages.tail.map Message.group) first.symm
      · intro group
        rw [Shelf.get?_removeHead first, Shelf.get?_append]
        by_cases gone : group = head.group
        · rw [if_pos gone, gone, AList.lookup_erase]
        · rw [if_neg gone, AList.lookup_erase_ne gone, inserted]
      · rw [first, List.head?_cons, Option.map_some]
    · have room : ¬ (bound.map (max 1)).any (· < drawer.order.length + 1) = true := by
        rwa [full]
      rw [put_of_room missing room, Shelf.put_of_room absent filled]
      refine ⟨⟨appended, ?_⟩, rfl⟩
      intro group
      rw [inserted, Shelf.get?_append]
  · have held : drawer.index.lookup m.group ≠ none := by rwa [shows.index]
    rw [put_of_held held, Shelf.put_of_held absent]
    refine ⟨⟨?_, ?_⟩, rfl⟩
    · rw [shows.order, Shelf.replace, List.map_map]
      apply List.map_congr_left
      intro old _
      by_cases same : old.group = m.group <;> simp [same]
    · intro group
      rw [inserted, Shelf.get?_replace absent]

end Shows

end Drawer

/-! ### All topics -/

/-- A drawer for each topic that something was stored on. -/
structure Cabinet where
  /-- How many groups a drawer may hold; without a limit, any number. -/
  limit : Option Nat
  /-- The drawers by topic. -/
  drawers : AList fun _ : Topic => Drawer

namespace Cabinet

/-- A cabinet with nothing in it.  A limit below one is raised to one. -/
def new (limit : Option Nat) : Cabinet := ⟨limit.map (max 1), ∅⟩

/-- The drawer of a topic. -/
def drawer (cabinet : Cabinet) (topic : Topic) : Drawer :=
  (cabinet.drawers.lookup topic).getD .empty

/-- The message of a group on a topic. -/
def get? (cabinet : Cabinet) (topic : Topic) (group : GroupId) : Option Message :=
  (cabinet.drawers.lookup topic).bind (·.index.lookup group)

/-- Whether a group is held on a topic. -/
def contains (cabinet : Cabinet) (topic : Topic) (group : GroupId) : Bool :=
  (cabinet.get? topic group).isSome

/-- Stores a message in the drawer of its topic, and names the group that left. -/
def put (cabinet : Cabinet) (topic : Topic) (m : Message) : Cabinet × Option GroupId :=
  let stored := (cabinet.drawer topic).put cabinet.limit m
  ({ cabinet with drawers := cabinet.drawers.insert topic stored.1 }, stored.2)

/-- Stores a message unless its group is held already, and says whether it did. -/
def insertIfAbsent (cabinet : Cabinet) (topic : Topic) (m : Message) : Cabinet × Bool :=
  if cabinet.contains topic m.group then (cabinet, false) else ((cabinet.put topic m).1, true)

/-- The number of groups held on a topic. -/
def groupCount (cabinet : Cabinet) (topic : Topic) : Nat :=
  (cabinet.drawers.lookup topic).elim 0 Drawer.size

/-- The number of groups in all drawers. -/
def size (cabinet : Cabinet) : Nat := (cabinet.drawers.entries.map (·.2.size)).sum

/-- Whether nothing is held. -/
def isEmpty (cabinet : Cabinet) : Bool := cabinet.size = 0

/-- The functions of a cabinet. -/
def keeping : Keeping Cabinet :=
  ⟨put, insertIfAbsent, get?, contains, groupCount, size, isEmpty⟩

theorem get?_eq (cabinet : Cabinet) (topic : Topic) (group : GroupId) :
    cabinet.get? topic group = (cabinet.drawer topic).index.lookup group := by
  unfold get? drawer
  cases cabinet.drawers.lookup topic <;> rfl

theorem groupCount_eq (cabinet : Cabinet) (topic : Topic) :
    cabinet.groupCount topic = (cabinet.drawer topic).size := by
  unfold groupCount drawer
  cases cabinet.drawers.lookup topic <;> rfl

/-- All groups are counted drawer by drawer. -/
theorem size_eq_sum (cabinet : Cabinet) :
    cabinet.size = ∑ topic ∈ cabinet.drawers.keys.toFinset, cabinet.groupCount topic := by
  rw [List.sum_toFinset _ cabinet.drawers.keys_nodup, size, AList.keys, List.keys, List.map_map]
  congr 1
  apply List.map_congr_left
  intro e listed
  have found : cabinet.drawers.lookup e.1 = some e.2 :=
    List.mem_dlookup_iff cabinet.drawers.nodupKeys |>.2 listed
  simp [groupCount, found]

/-- A cabinet holds, topic by topic, what shelves hold. -/
structure Shows (cabinet : Cabinet) (shelves : Shelves) : Prop where
  /-- A limit below one counts as one. -/
  capped : cabinet.limit = shelves.bound.map (max 1)
  /-- There are drawers for the topics that something was stored on. -/
  topics : cabinet.drawers.keys.toFinset = shelves.topics
  /-- The drawer of a topic holds the messages of its shelf. -/
  drawer : ∀ topic, (cabinet.drawer topic).Shows (shelves.shelf topic)

theorem shows_new (limit : Option Nat) : (new limit).Shows (.new limit) :=
  ⟨rfl, rfl, fun _ => Drawer.shows_empty⟩

namespace Shows

variable {cabinet : Cabinet} {shelves : Shelves} (shows : cabinet.Shows shelves)

include shows

theorem get? (topic : Topic) (group : GroupId) :
    cabinet.get? topic group = shelves.get? topic group := by
  rw [get?_eq, (shows.drawer topic).index]
  rfl

theorem contains (topic : Topic) (group : GroupId) :
    cabinet.contains topic group = shelves.contains topic group := by
  rw [Cabinet.contains, shows.get?]
  rfl

theorem groupCount (topic : Topic) : cabinet.groupCount topic = shelves.groupCount topic := by
  rw [groupCount_eq, (shows.drawer topic).size]
  rfl

theorem size : cabinet.size = shelves.size := by
  rw [size_eq_sum, shows.topics, Shelves.size]
  exact Finset.sum_congr rfl fun topic _ => shows.groupCount topic

theorem isEmpty : cabinet.isEmpty = shelves.isEmpty := by
  rw [Shelves.isEmpty, ← shows.size]
  rfl

/-- Storing keeps a cabinet and shelves alike, and the same group leaves. -/
theorem put (topic : Topic) (m : Message) :
    (cabinet.put topic m).1.Shows (shelves.put topic m).1 ∧
      (cabinet.put topic m).2 = (shelves.put topic m).2 := by
  obtain ⟨stored, evicted⟩ := (shows.drawer topic).put shelves.bound m
  rw [← shows.capped] at stored evicted
  refine ⟨⟨shows.capped, ?_, ?_⟩, evicted⟩
  · ext other
    change other ∈ (cabinet.drawers.insert topic _).keys.toFinset ↔ other ∈ insert topic _
    rw [List.mem_toFinset, ← AList.mem_keys, AList.mem_insert, Finset.mem_insert, ← shows.topics,
      List.mem_toFinset, AList.mem_keys]
  · intro other
    change Drawer.Shows (Option.getD ((cabinet.drawers.insert topic _).lookup other) .empty)
      (Function.update shelves.shelf topic _ other)
    by_cases here : other = topic
    · subst here
      rw [AList.lookup_insert, Function.update_self]
      exact stored
    · rw [AList.lookup_insert_ne here, Function.update_of_ne here]
      exact shows.drawer other

/-- Storing a message of a new group keeps a cabinet and shelves alike. -/
theorem insertIfAbsent (topic : Topic) (m : Message) :
    (cabinet.insertIfAbsent topic m).1.Shows (shelves.insertIfAbsent topic m).1 ∧
      (cabinet.insertIfAbsent topic m).2 = (shelves.insertIfAbsent topic m).2 := by
  unfold Cabinet.insertIfAbsent Shelves.insertIfAbsent
  rw [shows.contains]
  split
  · exact ⟨shows, rfl⟩
  · exact ⟨(shows.put topic m).1, rfl⟩

end Shows

/-- A cabinet answers as shelves do. -/
theorem simulates_shelves : Simulates keeping Shelves.keeping Shows where
  put shows := shows.put
  insertIfAbsent shows := shows.insertIfAbsent
  get? shows := shows.get?
  contains shows := shows.contains
  groupCount shows := shows.groupCount
  size shows := shows.size
  isEmpty shows := shows.isEmpty

end Cabinet

/-! ### What a store answers -/

namespace Store

/-- The message that was stored is found. -/
theorem Shelved.get?_put_self {store : Store} {shelves : Shelves} (shelved : store.Shelved shelves)
    (topic : Topic) (m : Message) : (store.put topic m).1.get? topic m.group = some m := by
  rw [(shelved.put topic m).1.get?]
  change Shelf.get? (Function.update shelves.shelf topic _ topic) m.group = some m
  rw [Function.update_self]
  exact Shelf.get?_put_self _ _ m

/-- Storing on one topic leaves the others as they are. -/
theorem Shelved.messages_put_of_ne {store : Store} {shelves : Shelves}
    (shelved : store.Shelved shelves) {topic other : Topic} (elsewhere : other ≠ topic)
    (m : Message) : (store.put topic m).1.messages other = store.messages other := by
  rw [(shelved.put topic m).1.row, shelved.row]
  change (Function.update shelves.shelf topic _ other).messages = _
  rw [Function.update_of_ne elsewhere]

/-- **A store is a bounded first-in, first-out map.**  Whatever is asked of a new store, in any
order and however often, the outcomes are those of shelves with the same limit, and also those of
a cabinet, which keeps an index and a queue for each topic.  After any such run no topic holds more
than the limit, or one group if the limit is zero; a group that was just stored is there, with its
message, or with the older one if it came only where its group was absent; a message that is found
is of the group that was asked for; and writing on one topic leaves the others as they are. -/
theorem bounded_fifo (limit : Option Nat) (accesses : List Access) :
    let store := (keeping.run (new limit) accesses).1
    (keeping.run (new limit) accesses).2 = (Shelves.keeping.run (.new limit) accesses).2 ∧
    (Cabinet.keeping.run (.new limit) accesses).2 =
      (Shelves.keeping.run (.new limit) accesses).2 ∧
    (∀ bound, limit = some bound → ∀ topic, store.groupCount topic ≤ max bound 1) ∧
    (∀ topic m, (store.put topic m).1.get? topic m.group = some m ∧
      (store.insertIfAbsent topic m).1.get? topic m.group =
        some ((store.get? topic m.group).getD m)) ∧
    (∀ topic group m, store.get? topic group = some m → m.group = group) ∧
    ∀ topic m other, other ≠ topic →
      (store.put topic m).1.messages other = store.messages other ∧
        (store.insertIfAbsent topic m).1.messages other = store.messages other := by
  intro store
  obtain ⟨shelved, same⟩ := simulates_shelves.run (shelved_new limit) accesses
  obtain ⟨-, same'⟩ := Cabinet.simulates_shelves.run (Cabinet.shows_new limit) accesses
  refine ⟨same, same', ?_, ?_, ?_, ?_⟩
  · intro bound capped topic
    rw [shelved.groupCount topic]
    exact (Shelves.bounded_new limit).run accesses bound
      ((Shelves.bound_run _ accesses).trans capped) topic
  · intro topic m
    refine ⟨shelved.get?_put_self topic m, ?_⟩
    unfold insertIfAbsent
    split
    · rename_i held
      obtain ⟨old, found⟩ := Option.isSome_iff_exists.1 held
      rw [found, Option.getD_some]
    · rename_i absent
      rw [Bool.not_eq_true, contains_eq_false] at absent
      rw [absent, Option.getD_none]
      exact shelved.get?_put_self topic m
  · intro topic group m found
    exact (mem_of_get? found).2
  · intro topic m other elsewhere
    refine ⟨shelved.messages_put_of_ne elsewhere m, ?_⟩
    unfold insertIfAbsent
    split
    · rfl
    · exact shelved.messages_put_of_ne elsewhere m

/-- A limit of zero keeps the newest group, and a group that comes back is the newest again. -/
theorem zero_limit_keeps_newest :
    let first : Message := .new (.ofUInt64 1)
    let second : Message := .new (.ofUInt64 2)
    let accesses : List Access :=
      [.put default first, .put default second, .put default first, .get default first.group]
    (keeping.run (new (some 0)) accesses).2 =
        [.evicted none, .evicted (some first.group), .evicted (some second.group),
          .message (some first)] ∧
      (keeping.run (new (some 0)) accesses).1.groupCount default ≤ max 0 1 ∧
      (keeping.run (new (some 0)) accesses).1.messages ⟨"other"⟩ = [] := by
  intro first second accesses
  have law := bounded_fifo (some 0) accesses
  have elsewhere : (⟨"other"⟩ : Topic) ≠ default := by decide
  refine ⟨by decide +kernel, law.2.2.1 0 rfl default, ?_⟩
  rw [← (law.2.2.2.2.2 default first _ elsewhere).1]
  decide +kernel

end Store

end PartExchange
