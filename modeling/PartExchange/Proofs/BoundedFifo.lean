/-
**A store is a bounded first-in, first-out map.**

The plainest account of a store is one shelf for each topic: a list of messages, oldest first, no
two of them of one group.  A message of a group on the shelf takes the old one's place.  A message
of another group goes to the end, and if the shelf is longer than the limit then, its head leaves.
`Store` keeps the messages of all topics in one list, and still whatever is asked of it and of
shelves, in any order and however often, the outcomes are the same.

Main definitions:

* `Shelf`, `Shelf.put`: the messages of one topic, and storing among them;
* `Shelves`: a shelf for each topic;
* `Access`, `Finding`, `Keeping`: what may be asked, what comes of it, and what answers;
* `Keeping.run`: what comes of many accesses;
* `Simulates`: one keeping answers as another does.

Main results:

* `Shelf.get?_put_self`, `Shelf.length_put_le`: what was stored is there, and no shelf is too long;
* `Simulates.run`: keepings that answer alike once do so in every run;
* `Store.simulates_shelves`: a store answers as shelves do.
-/

import Mathlib.Algebra.BigOperators.Group.Finset.Piecewise
import PartExchange.Proofs.Eviction

set_option relaxedAutoImplicit false
set_option autoImplicit false

namespace PartExchange

/-! ### One shelf -/

/-- The messages of one topic, oldest first. -/
structure Shelf where
  /-- The messages. -/
  messages : List Message
  /-- No two messages are of one group. -/
  distinct : (messages.map Message.group).Nodup

namespace Shelf

/-- A shelf with nothing on it. -/
def empty : Shelf := ⟨[], List.nodup_nil⟩

/-- The message of a group. -/
def get? (shelf : Shelf) (group : GroupId) : Option Message :=
  shelf.messages.find? (·.group = group)

theorem get?_eq_none {shelf : Shelf} {group : GroupId} :
    shelf.get? group = none ↔ group ∉ shelf.messages.map Message.group := by
  simp [get?]

/-- A message in the place of the one of its group. -/
def replace (shelf : Shelf) (m : Message) : Shelf where
  messages := shelf.messages.map fun old => if old.group = m.group then m else old
  distinct := by
    have groups : Message.group ∘ (fun old => if old.group = m.group then m else old) =
        Message.group := by
      funext old
      by_cases same : old.group = m.group <;> simp [same]
    rw [List.map_map, groups]
    exact shelf.distinct

/-- A message of a new group at the end. -/
def append (shelf : Shelf) (m : Message) (absent : shelf.get? m.group = none) : Shelf where
  messages := shelf.messages ++ [m]
  distinct := by
    rw [List.map_append, List.nodup_append]
    refine ⟨shelf.distinct, List.nodup_singleton _, ?_⟩
    rintro group listed _ last rfl
    rw [List.map_singleton, List.mem_singleton] at last
    rw [last] at listed
    exact get?_eq_none.1 absent listed

/-- A shelf without its oldest message. -/
def removeHead (shelf : Shelf) : Shelf where
  messages := shelf.messages.tail
  distinct := by
    rw [List.map_tail]
    exact shelf.distinct.sublist (List.tail_sublist _)

/-- Look-up after a message has taken the place of the one of its group. -/
theorem get?_replace {shelf : Shelf} {m : Message} (held : shelf.get? m.group ≠ none)
    (group : GroupId) :
    (shelf.replace m).get? group = if group = m.group then some m else shelf.get? group := by
  rw [get?, replace, List.find?_map]
  have places : (fun e : Message => decide (e.group = group)) ∘
      (fun e => if e.group = m.group then m else e) = fun e => decide (e.group = group) := by
    funext e
    by_cases same : e.group = m.group <;> simp [same]
  rw [places]
  change Option.map _ (shelf.get? group) = _
  by_cases here : group = m.group
  · subst here
    obtain ⟨old, found⟩ := Option.ne_none_iff_exists'.1 held
    have belongs : old.group = m.group := by simpa using List.find?_some found
    simp [found, belongs]
  · rw [if_neg here]
    cases found : shelf.get? group with
    | none => rfl
    | some old =>
      have belongs : old.group = group := by simpa using List.find?_some found
      simp [belongs, here]

/-- Look-up with a message of a new group at the end. -/
theorem get?_append {shelf : Shelf} {m : Message} (absent : shelf.get? m.group = none)
    (group : GroupId) :
    (shelf.append m absent).get? group = if group = m.group then some m else shelf.get? group := by
  rw [get?, append, List.find?_append]
  change (shelf.get? group).or _ = _
  by_cases here : group = m.group
  · simp [here, absent]
  · simp [here, Ne.symm here]

/-- Look-up without the oldest message. -/
theorem get?_removeHead {shelf : Shelf} {head : Message} {rest : List Message}
    (messages : shelf.messages = head :: rest) (group : GroupId) :
    shelf.removeHead.get? group = if group = head.group then none else shelf.get? group := by
  have remaining : shelf.removeHead.messages = rest := congrArg List.tail messages
  rw [get?, get?, remaining, messages]
  have distinct := shelf.distinct
  rw [messages, List.map_cons, List.nodup_cons] at distinct
  by_cases here : group = head.group
  · rw [if_pos here, List.find?_eq_none]
    intro m listed same
    refine distinct.1 (List.mem_map.2 ⟨m, listed, ?_⟩)
    rw [← here]
    simpa using same
  · rw [if_neg here, List.find?_cons_of_neg (by simpa using Ne.symm here)]

/-- Stores a message on a shelf that may hold `bound` groups, and names the group that left. -/
def put (bound : Option Nat) (shelf : Shelf) (m : Message) : Shelf × Option GroupId :=
  if absent : shelf.get? m.group = none then
    let grown := shelf.append m absent
    if bound.any (max · 1 < grown.messages.length) then
      (grown.removeHead, grown.messages.head?.map Message.group)
    else (grown, none)
  else (shelf.replace m, none)

/-- Whether one more group is too many. -/
def full (bound : Option Nat) (shelf : Shelf) : Bool :=
  bound.any (max · 1 < shelf.messages.length + 1)

section Put

variable {bound : Option Nat} {shelf : Shelf} {m : Message}

theorem put_of_held (held : shelf.get? m.group ≠ none) :
    shelf.put bound m = (shelf.replace m, none) := dif_neg held

theorem put_of_room (absent : shelf.get? m.group = none) (room : ¬ shelf.full bound = true) :
    shelf.put bound m = (shelf.append m absent, none) := by
  rw [put, dif_pos absent]
  exact if_neg (by simpa [append, full] using room)

theorem put_of_full (absent : shelf.get? m.group = none) (filled : shelf.full bound = true) :
    shelf.put bound m =
      ((shelf.append m absent).removeHead,
        (shelf.append m absent).messages.head?.map Message.group) := by
  rw [put, dif_pos absent]
  exact if_pos (by simpa [append, full] using filled)

/-- A bound leaves room for one group, so something is on a shelf that is full. -/
theorem messages_of_full (filled : shelf.full bound = true) :
    ∃ head rest, shelf.messages = head :: rest := by
  obtain ⟨n, -, longer⟩ := (Option.any_eq_true _ _).1 filled
  rw [decide_eq_true_eq] at longer
  exact List.exists_cons_of_length_pos (by omega)

end Put

/-- The message that was stored is found. -/
theorem get?_put_self (bound : Option Nat) (shelf : Shelf) (m : Message) :
    (shelf.put bound m).1.get? m.group = some m := by
  by_cases absent : shelf.get? m.group = none
  · by_cases filled : shelf.full bound = true
    · obtain ⟨head, rest, messages⟩ := messages_of_full filled
      have appended : (shelf.append m absent).messages = head :: (rest ++ [m]) := by
        simp [append, messages]
      have older : m.group ≠ head.group := by
        intro same
        exact get?_eq_none.1 absent (by simp [messages, same])
      rw [put_of_full absent filled, get?_removeHead appended, if_neg older, get?_append,
        if_pos rfl]
    · rw [put_of_room absent filled, get?_append, if_pos rfl]
  · rw [put_of_held absent, get?_replace absent, if_pos rfl]

/-- A shelf that is not too long is not too long after storing. -/
theorem length_put_le {bound : Nat} {shelf : Shelf} (short : shelf.messages.length ≤ max bound 1)
    (m : Message) : (shelf.put (some bound) m).1.messages.length ≤ max bound 1 := by
  by_cases absent : shelf.get? m.group = none
  · by_cases filled : shelf.full (some bound) = true
    · rw [put_of_full absent filled]
      simpa [removeHead, append] using short
    · have narrow : ¬ max bound 1 < shelf.messages.length + 1 :=
        fun longer => filled (decide_eq_true longer)
      rw [put_of_room absent filled, append, List.length_append, List.length_singleton]
      omega
  · rw [put_of_held absent]
    simpa [replace] using short

end Shelf

/-! ### A shelf for each topic -/

/-- The messages of all topics, each topic on a shelf of its own. -/
structure Shelves where
  /-- How many groups a shelf may hold; without a bound, any number. -/
  bound : Option Nat
  /-- The topics that something was stored on. -/
  topics : Finset Topic
  /-- The shelf of a topic. -/
  shelf : Topic → Shelf
  /-- Nothing was stored on another topic. -/
  vacant : ∀ topic, topic ∉ topics → shelf topic = .empty

namespace Shelves

/-- Shelves with nothing on them. -/
def new (bound : Option Nat) : Shelves := ⟨bound, ∅, fun _ => .empty, fun _ _ => rfl⟩

/-- Another shelf for a topic. -/
def set (shelves : Shelves) (topic : Topic) (shelf : Shelf) : Shelves where
  bound := shelves.bound
  topics := insert topic shelves.topics
  shelf := Function.update shelves.shelf topic shelf
  vacant := by
    intro other outside
    rw [Finset.mem_insert, not_or] at outside
    rw [Function.update_of_ne outside.1]
    exact shelves.vacant other outside.2

/-- Stores a message on the shelf of its topic, and names the group that left. -/
def put (shelves : Shelves) (topic : Topic) (m : Message) : Shelves × Option GroupId :=
  let stored := (shelves.shelf topic).put shelves.bound m
  (shelves.set topic stored.1, stored.2)

/-- The message of a group on a topic. -/
def get? (shelves : Shelves) (topic : Topic) (group : GroupId) : Option Message :=
  (shelves.shelf topic).get? group

/-- Whether a group is on the shelf of a topic. -/
def contains (shelves : Shelves) (topic : Topic) (group : GroupId) : Bool :=
  (shelves.get? topic group).isSome

/-- Stores a message unless its group is there already, and says whether it did. -/
def insertIfAbsent (shelves : Shelves) (topic : Topic) (m : Message) : Shelves × Bool :=
  if shelves.contains topic m.group then (shelves, false) else ((shelves.put topic m).1, true)

/-- The number of groups on the shelf of a topic. -/
def groupCount (shelves : Shelves) (topic : Topic) : Nat := (shelves.shelf topic).messages.length

/-- The number of groups on all shelves. -/
def size (shelves : Shelves) : Nat := ∑ topic ∈ shelves.topics, shelves.groupCount topic

/-- Whether all shelves are empty. -/
def isEmpty (shelves : Shelves) : Bool := shelves.size = 0

/-- No shelf is too long. -/
def Bounded (shelves : Shelves) : Prop :=
  ∀ bound, shelves.bound = some bound → ∀ topic, shelves.groupCount topic ≤ max bound 1

theorem bounded_new (bound : Option Nat) : (new bound).Bounded := by
  intro n _ topic
  exact Nat.zero_le _

/-- Storing makes no shelf too long. -/
theorem Bounded.put {shelves : Shelves} (bounded : shelves.Bounded) (topic : Topic) (m : Message) :
    (shelves.put topic m).1.Bounded := by
  intro bound capped other
  have here : shelves.bound = some bound := capped
  change (Function.update shelves.shelf topic _ other).messages.length ≤ _
  rw [here]
  by_cases same : other = topic
  · rw [same, Function.update_self]
    exact Shelf.length_put_le (bounded bound here topic) m
  · rw [Function.update_of_ne same]
    exact bounded bound here other

end Shelves

/-! ### Accesses -/

/-- What may be asked of a store. -/
inductive Access where
  | put (topic : Topic) (m : Message)
  | insertIfAbsent (topic : Topic) (m : Message)
  | get (topic : Topic) (group : GroupId)
  | contains (topic : Topic) (group : GroupId)
  | groupCount (topic : Topic)
  | size
  | isEmpty

/-- What comes of an access. -/
inductive Finding where
  | evicted (group : Option GroupId)
  | verdict (yes : Bool)
  | message (found : Option Message)
  | count (groups : Nat)
  deriving DecidableEq

/-- What answers accesses: the functions of a store. -/
structure Keeping (σ : Type) where
  /-- Storing a message; the group that left. -/
  put : σ → Topic → Message → σ × Option GroupId
  /-- Storing a message of a new group; whether it was stored. -/
  insertIfAbsent : σ → Topic → Message → σ × Bool
  /-- The message of a group. -/
  get? : σ → Topic → GroupId → Option Message
  /-- Whether a group is held. -/
  contains : σ → Topic → GroupId → Bool
  /-- The number of groups of a topic. -/
  groupCount : σ → Topic → Nat
  /-- The number of all groups. -/
  size : σ → Nat
  /-- Whether there are none. -/
  isEmpty : σ → Bool

/-- The functions of a store. -/
def Store.keeping : Keeping Store :=
  ⟨Store.put, Store.insertIfAbsent, Store.get?, Store.contains, Store.groupCount, Store.size,
    Store.isEmpty⟩

/-- The functions of shelves. -/
def Shelves.keeping : Keeping Shelves :=
  ⟨Shelves.put, Shelves.insertIfAbsent, Shelves.get?, Shelves.contains, Shelves.groupCount,
    Shelves.size, Shelves.isEmpty⟩

namespace Keeping

variable {σ : Type} (keeping : Keeping σ)

/-- One access. -/
def access (s : σ) : Access → σ × Finding
  | .put topic m => let stored := keeping.put s topic m; (stored.1, .evicted stored.2)
  | .insertIfAbsent topic m =>
    let stored := keeping.insertIfAbsent s topic m; (stored.1, .verdict stored.2)
  | .get topic group => (s, .message (keeping.get? s topic group))
  | .contains topic group => (s, .verdict (keeping.contains s topic group))
  | .groupCount topic => (s, .count (keeping.groupCount s topic))
  | .size => (s, .count (keeping.size s))
  | .isEmpty => (s, .verdict (keeping.isEmpty s))

/-- Accesses one after another, with the outcome of each. -/
def run : σ → List Access → σ × List Finding
  | s, [] => (s, [])
  | s, access :: rest =>
    let step := keeping.access s access
    let later := run step.1 rest
    (later.1, step.2 :: later.2)

end Keeping

/-- What one keeping gives is what the other gives, and what it holds corresponds to what the other
holds again after storing. -/
structure Simulates {σ τ : Type} (one : Keeping σ) (other : Keeping τ) (Match : σ → τ → Prop) :
    Prop where
  /-- The same group leaves. -/
  put : ∀ {s t}, Match s t → ∀ topic m,
    Match (one.put s topic m).1 (other.put t topic m).1 ∧
      (one.put s topic m).2 = (other.put t topic m).2
  /-- The same messages are of new groups. -/
  insertIfAbsent : ∀ {s t}, Match s t → ∀ topic m,
    Match (one.insertIfAbsent s topic m).1 (other.insertIfAbsent t topic m).1 ∧
      (one.insertIfAbsent s topic m).2 = (other.insertIfAbsent t topic m).2
  /-- The same messages are found. -/
  get? : ∀ {s t}, Match s t → ∀ topic group, one.get? s topic group = other.get? t topic group
  /-- The same groups are held. -/
  contains : ∀ {s t}, Match s t → ∀ topic group,
    one.contains s topic group = other.contains t topic group
  /-- Topics hold as many groups. -/
  groupCount : ∀ {s t}, Match s t → ∀ topic, one.groupCount s topic = other.groupCount t topic
  /-- There are as many groups. -/
  size : ∀ {s t}, Match s t → one.size s = other.size t
  /-- One is empty when the other is. -/
  isEmpty : ∀ {s t}, Match s t → one.isEmpty s = other.isEmpty t

namespace Simulates

variable {σ τ : Type} {one : Keeping σ} {other : Keeping τ} {Match : σ → τ → Prop}

/-- One access. -/
theorem access (simulates : Simulates one other Match) {s : σ} {t : τ} (fit : Match s t)
    (access : Access) : Match (one.access s access).1 (other.access t access).1 ∧
      (one.access s access).2 = (other.access t access).2 := by
  cases access with
  | put topic m =>
    obtain ⟨fit', same⟩ := simulates.put fit topic m
    exact ⟨fit', congrArg Finding.evicted same⟩
  | insertIfAbsent topic m =>
    obtain ⟨fit', same⟩ := simulates.insertIfAbsent fit topic m
    exact ⟨fit', congrArg Finding.verdict same⟩
  | get topic group => exact ⟨fit, congrArg Finding.message (simulates.get? fit topic group)⟩
  | contains topic group =>
    exact ⟨fit, congrArg Finding.verdict (simulates.contains fit topic group)⟩
  | groupCount topic => exact ⟨fit, congrArg Finding.count (simulates.groupCount fit topic)⟩
  | size => exact ⟨fit, congrArg Finding.count (simulates.size fit)⟩
  | isEmpty => exact ⟨fit, congrArg Finding.verdict (simulates.isEmpty fit)⟩

/-- All accesses of a run. -/
theorem run (simulates : Simulates one other Match) {s : σ} {t : τ} (fit : Match s t)
    (accesses : List Access) : Match (one.run s accesses).1 (other.run t accesses).1 ∧
      (one.run s accesses).2 = (other.run t accesses).2 := by
  induction accesses generalizing s t with
  | nil => exact ⟨fit, rfl⟩
  | cons access rest ih =>
    obtain ⟨fit', first⟩ := simulates.access fit access
    obtain ⟨final, later⟩ := ih fit'
    exact ⟨final, congrArg₂ List.cons first later⟩

end Simulates

/-- No access makes a shelf too long. -/
theorem Shelves.Bounded.run {shelves : Shelves} (bounded : shelves.Bounded)
    (accesses : List Access) : (Shelves.keeping.run shelves accesses).1.Bounded := by
  induction accesses generalizing shelves with
  | nil => exact bounded
  | cons access rest ih =>
    refine ih ?_
    cases access with
    | put topic m => exact bounded.put topic m
    | insertIfAbsent topic m =>
      change (shelves.insertIfAbsent topic m).1.Bounded
      unfold Shelves.insertIfAbsent
      split
      · exact bounded
      · exact bounded.put topic m
    | _ => exact bounded

/-- The bound of shelves stays. -/
theorem Shelves.bound_run (shelves : Shelves) (accesses : List Access) :
    (Shelves.keeping.run shelves accesses).1.bound = shelves.bound := by
  induction accesses generalizing shelves with
  | nil => rfl
  | cons access rest ih =>
    refine (ih _).trans ?_
    cases access with
    | insertIfAbsent topic m =>
      change (shelves.insertIfAbsent topic m).1.bound = shelves.bound
      unfold Shelves.insertIfAbsent
      split <;> rfl
    | _ => rfl

/-! ### The messages of a topic in a store -/

namespace Store

/-- A message is looked up among those of its topic. -/
theorem get?_eq_find? (store : Store) (topic : Topic) (group : GroupId) :
    store.get? topic group = (store.messages topic).find? (·.group = group) := by
  unfold get? messages
  induction store.entries with
  | nil => rfl
  | cons e rest ih =>
    by_cases here : e.1 = topic
    · by_cases same : e.2.group = group <;> simp [holds, here, same, ih]
    · simp [holds, here, ih]

theorem messages_join (store : Store) (topic t : Topic) (m : Message) :
    (store.join topic m).messages t =
      if t = topic then store.messages t ++ [m] else store.messages t := by
  by_cases here : t = topic
  · simp [join, messages, here]
  · simp [join, messages, here, Ne.symm here]

theorem messages_dropOldest (store : Store) (topic t : Topic) :
    (store.dropOldest topic).messages t =
      if t = topic then (store.messages t).tail else store.messages t := by
  unfold dropOldest messages
  induction store.entries with
  | nil => simp
  | cons e rest ih =>
    by_cases first : e.1 = topic
    · -- The first entry of the topic leaves, and the others stay as they are.
      by_cases here : t = topic
      · simp [first, here]
      · simp [first, here, Ne.symm here]
    · rw [List.eraseP_cons_of_neg (by simpa using first)]
      by_cases here : t = topic
      · subst here
        simpa [first] using ih
      · rw [if_neg here] at ih ⊢
        by_cases own : e.1 = t <;> simp [own, ih]

/-- A message takes the place of the one of its group, and the other topics stay. -/
theorem messages_put_of_contains {store : Store} {topic : Topic} {m : Message}
    (held : store.contains topic m.group = true) (t : Topic) :
    (store.put topic m).1.messages t =
      if t = topic then (store.messages t).map fun old => if old.group = m.group then m else old
      else store.messages t := by
  unfold put messages
  rw [if_pos held]
  simp only [List.filterMap_map]
  by_cases here : t = topic
  · subst here
    rw [if_pos rfl, List.map_filterMap]
    apply List.filterMap_congr
    rintro ⟨about, old⟩ -
    by_cases own : about = t <;> by_cases same : old.group = m.group <;> simp [holds, own, same]
  · rw [if_neg here]
    apply List.filterMap_congr
    rintro ⟨about, old⟩ -
    by_cases own : about = topic
    · subst own
      by_cases same : old.group = m.group <;> simp [holds, same, Ne.symm here]
    · simp [holds, own]

/-- No group leaves when one that is held gets a new message. -/
theorem evicted_of_contains {store : Store} {topic : Topic} {m : Message}
    (held : store.contains topic m.group = true) : (store.put topic m).2 = none := by
  unfold put
  rw [if_pos held]

/-- A new group makes the first group of a topic that has become too large leave. -/
theorem evicted_of_absent {store : Store} {topic : Topic} {m : Message}
    (absent : store.contains topic m.group = false) : (store.put topic m).2 =
      if (store.join topic m).overfull topic then (store.join topic m).eldest? topic else none := by
  unfold put
  rw [if_neg (by simp [absent])]
  change (if (store.join topic m).overfull topic = true then _ else _ : Store × Option GroupId).2 =
    _
  split <;> rfl

/-- All groups are counted topic by topic. -/
theorem size_eq_sum {store : Store} {topics : Finset Topic}
    (listed : ∀ e ∈ store.entries, e.1 ∈ topics) :
    store.size = ∑ topic ∈ topics, store.groupCount topic := by
  simp only [size, groupCount, messages]
  generalize store.entries = entries at listed
  induction entries with
  | nil => simp
  | cons e rest ih =>
    have own : e.1 ∈ topics := listed e List.mem_cons_self
    have split : ∀ topic, ((e :: rest).filterMap fun entry =>
        if entry.1 = topic then some entry.2 else none).length =
          (if e.1 = topic then 1 else 0) + (rest.filterMap fun entry =>
            if entry.1 = topic then some entry.2 else none).length := by
      intro topic
      by_cases here : e.1 = topic
      · simp [here, Nat.add_comm]
      · simp [here]
    simp only [split, Finset.sum_add_distrib, Finset.sum_ite_eq, own, if_true]
    rw [List.length_cons, ih fun e' later => listed e' (List.mem_cons_of_mem e later), Nat.add_comm]

/-! ### A store against shelves -/

/-- A store holds, topic by topic, what shelves hold. -/
structure Shelved (store : Store) (shelves : Shelves) : Prop where
  /-- A limit below one counts as one. -/
  capped : store.limit = shelves.bound.map (max 1)
  /-- The messages of a topic are those on its shelf, in the same order. -/
  row : ∀ topic, store.messages topic = (shelves.shelf topic).messages

theorem shelved_new (limit : Option Nat) : (new limit).Shelved (.new limit) :=
  ⟨rfl, fun _ => rfl⟩

namespace Shelved

variable {store : Store} {shelves : Shelves} (shelved : store.Shelved shelves)

include shelved

theorem get? (topic : Topic) (group : GroupId) :
    store.get? topic group = shelves.get? topic group := by
  rw [get?_eq_find?, shelved.row]
  rfl

theorem contains (topic : Topic) (group : GroupId) :
    store.contains topic group = shelves.contains topic group := by
  rw [Store.contains, shelved.get?]
  rfl

theorem groupCount (topic : Topic) : store.groupCount topic = shelves.groupCount topic := by
  rw [Store.groupCount, shelved.row]
  rfl

theorem size : store.size = shelves.size := by
  have listed : ∀ e ∈ store.entries, e.1 ∈ shelves.topics := by
    intro e stored
    by_contra outside
    have row := shelved.row e.1
    rw [shelves.vacant e.1 outside] at row
    have present : e.2 ∈ store.messages e.1 :=
      List.mem_filterMap.2 ⟨e, stored, if_pos rfl⟩
    rw [row] at present
    cases present
  rw [size_eq_sum listed, Shelves.size]
  exact Finset.sum_congr rfl fun topic _ => shelved.groupCount topic

theorem isEmpty : store.isEmpty = shelves.isEmpty := by
  rw [Shelves.isEmpty, ← shelved.size, Store.isEmpty, Store.size, Bool.eq_iff_iff]
  simp

/-- A topic has become too large when its shelf has. -/
theorem overfull_join (topic : Topic) (m : Message) :
    (store.join topic m).overfull topic = (shelves.shelf topic).full shelves.bound := by
  have limit : (store.join topic m).limit = store.limit := rfl
  have row : store.groupCount topic = (shelves.shelf topic).messages.length :=
    shelved.groupCount topic
  rw [overfull, limit, shelved.capped, groupCount_join, if_pos rfl, row, Shelf.full]
  cases shelves.bound with
  | none => rfl
  | some bound => simp [Nat.max_comm 1 bound]

/-- Storing keeps a store and shelves alike, and the same group leaves. -/
theorem put (topic : Topic) (m : Message) :
    (store.put topic m).1.Shelved (shelves.put topic m).1 ∧
      (store.put topic m).2 = (shelves.put topic m).2 := by
  -- On the topic of the message both do the same, and the other topics stay as they are.
  suffices same : (∀ t, (store.put topic m).1.messages t =
        if t = topic then ((shelves.shelf topic).put shelves.bound m).1.messages
        else store.messages t) ∧
      (store.put topic m).2 = ((shelves.shelf topic).put shelves.bound m).2 by
    refine ⟨⟨?_, ?_⟩, same.2⟩
    · rw [limit_put, shelved.capped]
      rfl
    · intro t
      rw [same.1]
      change _ = (Function.update shelves.shelf topic _ t).messages
      by_cases here : t = topic
      · rw [if_pos here, here, Function.update_self]
      · rw [if_neg here, Function.update_of_ne here, shelved.row]
  have row := shelved.row topic
  cases held : store.contains topic m.group with
  | true =>
    have there : (shelves.shelf topic).get? m.group ≠ none := by
      rw [shelved.contains] at held
      exact Option.isSome_iff_ne_none.1 held
    rw [Shelf.put_of_held there]
    refine ⟨?_, evicted_of_contains held⟩
    intro t
    rw [messages_put_of_contains held]
    by_cases here : t = topic
    · rw [if_pos here, if_pos here, here, row]
      rfl
    · rw [if_neg here, if_neg here]
  | false =>
    have missing : (shelves.shelf topic).get? m.group = none := by
      rw [shelved.contains] at held
      exact Option.isSome_eq_false_iff.1 held |> Option.isNone_iff_eq_none.1
    have joined : (store.join topic m).messages topic =
        ((shelves.shelf topic).append m missing).messages := by
      rw [messages_join, if_pos rfl, row]
      rfl
    rw [put_of_absent held, evicted_of_absent held, shelved.overfull_join]
    by_cases filled : (shelves.shelf topic).full shelves.bound = true
    · rw [if_pos filled, if_pos filled, Shelf.put_of_full missing filled]
      refine ⟨?_, by rw [eldest?, joined]⟩
      intro t
      rw [messages_dropOldest]
      by_cases here : t = topic
      · rw [if_pos here, if_pos here, here, joined]
        rfl
      · rw [if_neg here, if_neg here, messages_join, if_neg here]
    · rw [if_neg filled, if_neg filled, Shelf.put_of_room missing filled]
      refine ⟨?_, rfl⟩
      intro t
      by_cases here : t = topic
      · rw [if_pos here, here, joined]
      · rw [if_neg here, messages_join, if_neg here]

/-- Storing a message of a new group keeps a store and shelves alike. -/
theorem insertIfAbsent (topic : Topic) (m : Message) :
    (store.insertIfAbsent topic m).1.Shelved (shelves.insertIfAbsent topic m).1 ∧
      (store.insertIfAbsent topic m).2 = (shelves.insertIfAbsent topic m).2 := by
  unfold Store.insertIfAbsent Shelves.insertIfAbsent
  rw [shelved.contains]
  split
  · exact ⟨shelved, rfl⟩
  · exact ⟨(shelved.put topic m).1, rfl⟩

end Shelved

/-- A store answers as shelves do. -/
theorem simulates_shelves : Simulates keeping Shelves.keeping Shelved where
  put shelved := shelved.put
  insertIfAbsent shelved := shelved.insertIfAbsent
  get? shelved := shelved.get?
  contains shelved := shelved.contains
  groupCount shelved := shelved.groupCount
  size shelved := shelved.size
  isEmpty shelved := shelved.isEmpty

end Store

end PartExchange
