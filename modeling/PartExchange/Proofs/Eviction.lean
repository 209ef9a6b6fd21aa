/-
**A store loses nothing but by eviction.**

A store only ever replaces a message by one that holds at least the same parts, byte for byte.  What
was stored can therefore disappear in one way only: a new group joins a topic that already holds as
many groups as it may, and the topic gives up the group that joined longest ago.  Publishing and
looking up change nothing.

Which group is the oldest is not a matter of how the store arranges its messages.  It is read off
the joinings of the whole run, newest first: the further back a group's latest joining, the older
the group.

Main definitions:

* `Message.Below`: a message holds at least the parts of another, byte for byte;
* `Store.joins?`, `Store.Run`: the group that joins with a request, and the runs of a store with all
  joinings;
* `Store.Eldest`: the group of a topic that joined longest ago;
* `Store.Crowds`: a request brings a new group to a topic that is full.

Main results:

* `Store.store_react_cases`: a reaction stores a message that holds at least what was held, or
  changes nothing;
* `Store.Run.ordered`: in every run the messages are stored in the order of their joinings, and no
  topic holds too many;
* `Store.lost_only_by_eviction`: what a request does to what is stored.
-/

import PartExchange.Proofs.Reaction

set_option relaxedAutoImplicit false
set_option autoImplicit false

namespace PartExchange

/-! ### Messages that hold at least as much -/

/-- A message of the same group holds every part of the first, byte for byte. -/
def Message.Below (m m' : Message) : Prop :=
  m'.group = m.group ∧ ∀ index part, m.part? index = some part → m'.part? index = some part

theorem Message.Below.refl (m : Message) : m.Below m := ⟨rfl, fun _ _ held => held⟩

/-- Parts only ever come to a message. -/
theorem Message.below_fillAll (m : Message) {parts : List (Nat × Part)}
    (small : ∀ e ∈ parts, e.1 < partCount) : m.Below (m.fillAll parts) := by
  refine ⟨group_fillAll m parts, ?_⟩
  intro index part held
  rw [part?_fillAll m small, held, Option.some_or]

namespace Store

/-! ### Keys -/

/-- The groups that are stored with their topics, in the order of the store. -/
def keys (store : Store) : List (Topic × GroupId) := store.entries.map fun e => (e.1, e.2.group)

theorem mem_keys {store : Store} {topic : Topic} {group : GroupId} :
    (topic, group) ∈ store.keys ↔ store.contains topic group = true := by
  simp [keys, contains, get?, holds, Prod.ext_iff]

theorem keys_put_of_contains {store : Store} {topic : Topic} {m : Message}
    (held : store.contains topic m.group = true) : (store.put topic m).1.keys = store.keys := by
  unfold put keys
  rw [if_pos held, List.map_map]
  apply List.map_congr_left
  intro e _
  simp only [Function.comp_apply]
  split
  · rename_i same
    obtain ⟨about, group⟩ := holds_iff.1 same
    rw [about, group]
  · rfl

@[simp] theorem keys_join (store : Store) (topic : Topic) (m : Message) :
    (store.join topic m).keys = store.keys ++ [(topic, m.group)] := by
  simp [keys, join]

/-- The groups of a topic, counted by their keys. -/
theorem groupCount_eq (store : Store) (topic : Topic) :
    store.groupCount topic = store.keys.countP (·.1 = topic) := by
  rw [groupCount, messages, keys]
  induction store.entries with
  | nil => rfl
  | cons e rest ih => by_cases here : e.1 = topic <;> simp [here, ih]

theorem groupCount_join (store : Store) (topic t : Topic) (m : Message) :
    (store.join topic m).groupCount t = store.groupCount t + if t = topic then 1 else 0 := by
  by_cases here : t = topic
  · simp [groupCount_eq, here]
  · simp [groupCount_eq, here, Ne.symm here]

/-! ### Giving up the oldest group -/

/-- The first group of a topic. -/
def eldest? (store : Store) (topic : Topic) : Option GroupId :=
  (store.messages topic).head?.map Message.group

/-- A topic that holds a group gives up the first one, and all else stays. -/
theorem dropOldest_split {store : Store} {topic : Topic} (held : 0 < store.groupCount topic) :
    ∃ older m newer, store.entries = older ++ (topic, m) :: newer ∧
      (∀ e ∈ older, e.1 ≠ topic) ∧ (store.dropOldest topic).entries = older ++ newer ∧
      store.eldest? topic = some m.group := by
  rw [groupCount_eq, List.countP_pos_iff] at held
  obtain ⟨key, listed, about⟩ := held
  obtain ⟨e, stored, rfl⟩ := List.mem_map.1 listed
  obtain ⟨⟨t, m⟩, older, newer, before, first, split, erased⟩ :=
    @List.exists_of_eraseP _ (fun e => decide (e.1 = topic)) _ e stored about
  obtain rfl : t = topic := by simpa using first
  have elsewhere : ∀ e ∈ older, e.1 ≠ t := fun e member => by simpa using before e member
  refine ⟨older, m, newer, split, elsewhere, erased, ?_⟩
  have skipped : (older.filterMap fun e => if e.1 = t then some e.2 else none) = [] := by
    simpa [List.filterMap_eq_nil_iff] using elsewhere
  simp [eldest?, messages, split, List.filterMap_append, skipped]

section Drop

variable {store : Store} {topic : Topic} (held : 0 < store.groupCount topic)

include held

theorem groupCount_dropOldest (t : Topic) :
    (store.dropOldest topic).groupCount t + (if t = topic then 1 else 0) = store.groupCount t := by
  obtain ⟨older, m, newer, split, -, erased, -⟩ := dropOldest_split held
  simp only [groupCount_eq, keys, split, erased, List.map_append, List.map_cons,
    List.countP_append, List.countP_cons]
  by_cases here : t = topic
  · simp [here]
    omega
  · simp [here, Ne.symm here]

/-- Look-up after a topic has given up its first group. -/
theorem get?_dropOldest (distinct : store.keys.Nodup) (t : Topic) (g : GroupId) :
    (store.dropOldest topic).get? t g =
      if t = topic ∧ store.eldest? topic = some g then none else store.get? t g := by
  obtain ⟨older, m, newer, split, elsewhere, erased, eldest⟩ := dropOldest_split held
  simp only [eldest, Option.some.injEq, get?, split, erased, List.find?_append]
  by_cases gone : t = topic ∧ m.group = g
  · obtain ⟨rfl, rfl⟩ := gone
    have before : older.find? (holds t m.group) = none := by
      rw [List.find?_eq_none]
      intro e member same
      exact elsewhere e member (holds_iff.1 same).1
    have after : newer.find? (holds t m.group) = none := by
      rw [List.find?_eq_none]
      intro e member same
      obtain ⟨about, group⟩ := holds_iff.1 same
      rw [keys, split, List.map_append, List.map_cons, List.nodup_append,
        List.nodup_cons] at distinct
      refine distinct.2.1.1 (List.mem_map.2 ⟨e, member, ?_⟩)
      rw [about, group]
    rw [if_pos ⟨rfl, rfl⟩, before, after]
    rfl
  · have other : ¬ holds t g (topic, m) = true := by
      rw [holds_iff]
      rintro ⟨rfl, rfl⟩
      exact gone ⟨rfl, rfl⟩
    rw [if_neg gone, List.find?_cons_of_neg other]

end Drop

theorem keys_dropOldest_sublist (store : Store) (topic : Topic) :
    (store.dropOldest topic).keys.Sublist store.keys :=
  List.eraseP_sublist.map _

/-! ### What a reaction stores -/

/-- A reaction changes nothing, or it stores a message of the group that it is about; the message
holds at least what was held of the group. -/
theorem store_react_cases (store : Store) (request : Request) :
    (store.react request).store = store ∨ ∃ m, m.group = request.subject.2 ∧
      (∀ old, store.get? request.subject.1 request.subject.2 = some old → old.Below m) ∧
      (store.react request).store = (store.put request.subject.1 m).1 := by
  cases request with
  | add topic m =>
    rw [(react_add store topic m).1, insertIfAbsent]
    split
    · exact Or.inl rfl
    · rename_i absent
      rw [Bool.not_eq_true, contains_eq_false] at absent
      refine Or.inr ⟨m, rfl, ?_, rfl⟩
      intro old held
      rw [Request.subject, absent] at held
      cases held
  | publish topic group peers => exact Or.inl (react_publish_store store topic group peers)
  | rpc delivery =>
    by_cases acceptable : delivery.rpc.Acceptable
    · rw [store_react_rpc acceptable]
      split
      · refine Or.inr ⟨store.afterCall delivery.rpc, group_afterCall store _, ?_, rfl⟩
        intro old held
        have now : store.current delivery.rpc.topic delivery.rpc.group = old := by
          rw [Request.subject] at held
          simp [current, held]
        rw [afterCall, now]
        exact old.below_fillAll fun e => Rpc.parts_lt
      · exact Or.inl rfl
    · exact Or.inl (by rw [react_rpc_of_not_acceptable acceptable])
  | get topic group => exact Or.inl rfl

/-! ### Runs of a store -/

/-- The group that joins a topic with a request: it was not stored before and is stored after. -/
def joins? (store : Store) (request : Request) : Option (Topic × GroupId) :=
  if store.contains request.subject.1 request.subject.2 = false ∧
      (store.react request).store.contains request.subject.1 request.subject.2 = true
  then some request.subject else none

/-- The runs of a store whose topics may hold `limit` groups, with all joinings, newest first. -/
inductive Run (limit : Option Nat) : List (Topic × GroupId) → Store → Prop
  | start : Run limit [] (.new limit)
  | step {joinings : List (Topic × GroupId)} {store : Store} (run : Run limit joinings store)
      (request : Request) :
      Run limit ((store.joins? request).toList ++ joinings) (store.react request).store

/-- The stored group of a topic that joined longest ago. -/
def Eldest (joinings : List (Topic × GroupId)) (store : Store) (topic : Topic) (group : GroupId) :
    Prop :=
  store.contains topic group = true ∧
    ∀ other, store.contains topic other = true → other ≠ group →
      joinings.idxOf (topic, other) < joinings.idxOf (topic, group)

/-- A request brings a new group to a topic that holds as many groups as it may. -/
def Crowds (limit : Option Nat) (store : Store) (request : Request) (topic : Topic) : Prop :=
  (∃ bound, limit = some bound ∧ store.groupCount topic = max bound 1) ∧
    ∃ group, store.joins? request = some (topic, group)

/-- A group that was stored is stored after, with all its parts, byte for byte. -/
def Kept (store after : Store) (topic : Topic) (group : GroupId) : Prop :=
  ∀ old, store.get? topic group = some old →
    ∃ new, after.get? topic group = some new ∧ old.Below new

/-- A store whose messages stand in the order of their joinings, and no topic of which holds more
groups than it may. -/
structure Ordered (limit : Option Nat) (joinings : List (Topic × GroupId)) (store : Store) :
    Prop where
  /-- A limit below one counts as one. -/
  capped : store.limit = limit.map (max 1)
  /-- Older groups stand before newer ones. -/
  order : store.keys.Pairwise fun older newer => joinings.idxOf newer < joinings.idxOf older
  /-- No topic holds too many groups. -/
  bounded : ∀ bound, limit = some bound → ∀ topic, store.groupCount topic ≤ max bound 1

section Ordered

variable {limit : Option Nat} {joinings : List (Topic × GroupId)} {store : Store}

theorem Ordered.distinct (ordered : Ordered limit joinings store) : store.keys.Nodup :=
  ordered.order.imp fun newer same => by simp [same] at newer

/-- A limit leaves every topic room for one group. -/
theorem Ordered.roomy (ordered : Ordered limit joinings store) : store.limit ≠ some 0 := by
  rw [ordered.capped]
  intro none
  obtain ⟨bound, -, zero⟩ := Option.map_eq_some_iff.1 none
  omega

/-- The first group of a topic is the one that joined longest ago. -/
theorem Ordered.eldest (ordered : Ordered limit joinings store) {topic : Topic}
    (held : 0 < store.groupCount topic) :
    ∃ group, store.eldest? topic = some group ∧ Eldest joinings store topic group := by
  obtain ⟨older, m, newer, split, elsewhere, -, eldest⟩ := dropOldest_split held
  have keys : store.keys = older.map (fun e => (e.1, e.2.group)) ++ (topic, m.group) ::
      newer.map fun e => (e.1, e.2.group) := by
    simp [Store.keys, split]
  refine ⟨m.group, eldest, mem_keys.1 (by simp [keys]), ?_⟩
  intro other stored differ
  have order := ordered.order
  rw [keys, List.pairwise_append, List.pairwise_cons] at order
  rw [← mem_keys, keys, List.mem_append, List.mem_cons] at stored
  rcases stored with before | same | after
  · obtain ⟨e, member, key⟩ := List.mem_map.1 before
    exact absurd (congrArg Prod.fst key) (elsewhere e member)
  · exact absurd (congrArg Prod.snd same) differ
  · exact order.2.1.1 _ after

/-- A new group at the end is the newest. -/
theorem Ordered.order_join (ordered : Ordered limit joinings store) {topic : Topic} {m : Message}
    (absent : store.contains topic m.group = false) :
    (store.join topic m).keys.Pairwise fun older newer =>
      ((topic, m.group) :: joinings).idxOf newer < ((topic, m.group) :: joinings).idxOf older := by
  have old : ∀ key ∈ store.keys, key ≠ (topic, m.group) := by
    rintro key listed rfl
    rw [mem_keys, absent] at listed
    cases listed
  rw [keys_join, List.pairwise_append]
  refine ⟨?_, List.pairwise_singleton _ _, ?_⟩
  · refine ordered.order.imp_of_mem ?_
    intro a b member member' newer
    rw [List.idxOf_cons_ne _ (old a member).symm, List.idxOf_cons_ne _ (old b member').symm]
    omega
  · intro a member b last
    obtain rfl := List.mem_singleton.1 last
    rw [List.idxOf_cons_self, List.idxOf_cons_ne _ (old a member).symm]
    omega

end Ordered

/-! ### Storing a message of a new group -/

/-- A topic is full when it holds as many groups as the store's limit. -/
def Full (store : Store) (topic : Topic) : Prop :=
  ∃ bound, store.limit = some bound ∧ bound ≤ store.groupCount topic

instance (store : Store) (topic : Topic) : Decidable (store.Full topic) :=
  decidable_of_iff (store.limit.any (· ≤ store.groupCount topic) = true)
    (by simp [Full, Option.any_eq_true])

section Put

variable {store : Store} {topic : Topic} {m : Message}

theorem overfull_join : (store.join topic m).overfull topic = true ↔ store.Full topic := by
  have limit : (store.join topic m).limit = store.limit := rfl
  rw [overfull, limit, groupCount_join, if_pos rfl]
  cases capped : store.limit with
  | none => simp [Full, capped]
  | some bound =>
    rw [Full, capped, Option.any_some, decide_eq_true_eq, Nat.lt_succ_iff]
    constructor
    · intro filled
      exact ⟨bound, rfl, filled⟩
    · rintro ⟨other, same, filled⟩
      rwa [Option.some.inj same]

theorem groupCount_join_pos : 0 < (store.join topic m).groupCount topic := by
  rw [groupCount_join, if_pos rfl]
  omega

/-- A topic that held groups has the same first group after another has joined. -/
theorem eldest?_join (held : 0 < store.groupCount topic) :
    (store.join topic m).eldest? topic = store.eldest? topic := by
  have present : store.messages topic ≠ [] := List.ne_nil_of_length_pos held
  have joined : (store.join topic m).messages topic = store.messages topic ++ [m] := by
    simp [messages, join]
  rw [eldest?, eldest?, joined, List.head?_append_of_ne_nil _ present]

variable (absent : store.contains topic m.group = false)

include absent

/-- Where there is room, a new group joins and nothing else changes. -/
theorem put_of_room (room : ¬ store.Full topic) : (store.put topic m).1 = store.join topic m := by
  rw [put_of_absent absent, if_neg (mt overfull_join.1 room)]

/-- A topic that is full gives up its first group for a new one. -/
theorem put_of_full (full : store.Full topic) :
    (store.put topic m).1 = (store.join topic m).dropOldest topic := by
  rw [put_of_absent absent, if_pos (overfull_join.2 full)]

theorem nodup_keys_join (distinct : store.keys.Nodup) : (store.join topic m).keys.Nodup := by
  have fresh : (topic, m.group) ∉ store.keys := by simp [mem_keys, absent]
  rw [keys_join, List.nodup_append]
  refine ⟨distinct, List.pairwise_singleton _ _, ?_⟩
  intro key listed last here
  obtain rfl := List.mem_singleton.1 here
  rintro rfl
  exact fresh listed

/-- Look-up after a topic that is full has given up its first group for a new one. -/
theorem get?_put_of_full (distinct : store.keys.Nodup) (held : 0 < store.groupCount topic)
    (full : store.Full topic) (t : Topic) (g : GroupId) : (store.put topic m).1.get? t g =
      if t = topic ∧ store.eldest? topic = some g then none
      else if t = topic ∧ g = m.group then some m else store.get? t g := by
  rw [put_of_full absent full, get?_dropOldest groupCount_join_pos
    (nodup_keys_join absent distinct), eldest?_join held, get?_join absent]

/-- A new group makes its topic larger by one if there is room, and no topic larger otherwise. -/
theorem groupCount_put_of_absent (t : Topic) : (store.put topic m).1.groupCount t =
    store.groupCount t + if t = topic ∧ ¬ store.Full topic then 1 else 0 := by
  by_cases full : store.Full topic
  · have held : 0 < (store.join topic m).groupCount topic := groupCount_join_pos
    have dropped := groupCount_dropOldest held t
    rw [groupCount_join] at dropped
    rw [put_of_full absent full]
    simp only [full, not_true_eq_false, and_false, if_false]
    omega
  · rw [put_of_room absent full, groupCount_join]
    simp [full]

end Put

/-! ### Every run keeps the order -/

section Step

variable {limit : Option Nat} {joinings : List (Topic × GroupId)} {store : Store}
  {request : Request}

/-- Nothing joins a store whose groups stay the same. -/
theorem joins?_of_keys_eq (same : (store.react request).store.keys = store.keys) :
    store.joins? request = none := by
  rw [joins?, if_neg]
  rintro ⟨absent, present⟩
  rw [← mem_keys, same, mem_keys, absent] at present
  cases present

/-- A topic is full when it holds as many groups as a store with this limit may hold. -/
theorem Ordered.full_iff (ordered : Ordered limit joinings store) {topic : Topic} :
    store.Full topic ↔ ∃ bound, limit = some bound ∧ store.groupCount topic = max bound 1 := by
  rw [Full, ordered.capped]
  constructor
  · rintro ⟨_, capped, filled⟩
    obtain ⟨bound, rfl, rfl⟩ := Option.map_eq_some_iff.1 capped
    have bounded := ordered.bounded bound rfl topic
    exact ⟨bound, rfl, by omega⟩
  · rintro ⟨bound, rfl, filled⟩
    exact ⟨max 1 bound, rfl, by omega⟩

/-- A topic that is full holds a group. -/
theorem Ordered.held_of_full (ordered : Ordered limit joinings store) {topic : Topic}
    (full : store.Full topic) : 0 < store.groupCount topic := by
  obtain ⟨bound, -, filled⟩ := ordered.full_iff.1 full
  omega

/-- Look-up after a new group has joined. -/
theorem Ordered.get?_put (ordered : Ordered limit joinings store) {topic : Topic} {m : Message}
    (absent : store.contains topic m.group = false) (t : Topic) (g : GroupId) :
    (store.put topic m).1.get? t g =
      if store.Full topic ∧ t = topic ∧ store.eldest? topic = some g then none
      else if t = topic ∧ g = m.group then some m else store.get? t g := by
  by_cases full : store.Full topic
  · rw [get?_put_of_full absent ordered.distinct (ordered.held_of_full full) full]
    simp [full]
  · rw [put_of_room absent full, get?_join absent]
    simp [full]

/-- The first group of a topic is not one that is still to join. -/
theorem Ordered.eldest_ne (ordered : Ordered limit joinings store) {topic : Topic} {group : GroupId}
    (absent : store.contains topic group = false) (full : store.Full topic) :
    store.eldest? topic ≠ some group := by
  obtain ⟨first, eldest, oldest⟩ := ordered.eldest (ordered.held_of_full full)
  rw [eldest]
  rintro ⟨⟩
  rw [oldest.1] at absent
  cases absent

/-- When a new group joins, only the first group of a full topic can get lost. -/
theorem Ordered.kept_put (ordered : Ordered limit joinings store) {topic : Topic} {m : Message}
    (absent : store.contains topic m.group = false) {t : Topic} {g : GroupId}
    (stays : ¬ (store.Full topic ∧ t = topic ∧ store.eldest? topic = some g)) :
    Kept store (store.put topic m).1 t g := by
  intro old held
  refine ⟨old, ?_, .refl old⟩
  have other : ¬ (t = topic ∧ g = m.group) := by
    rintro ⟨rfl, rfl⟩
    rw [contains_eq_false, held] at absent
    cases absent
  rw [ordered.get?_put absent, if_neg stays, if_neg other]
  exact held

/-- What a request does to a store in order: every group is kept and none joins, or a new group
joins a topic. -/
theorem Ordered.react_cases (ordered : Ordered limit joinings store) (request : Request) :
    (store.joins? request = none ∧ (store.react request).store.keys = store.keys ∧
      ∀ t g, Kept store (store.react request).store t g) ∨
    ∃ topic m, store.contains topic m.group = false ∧
      store.joins? request = some (topic, m.group) ∧
      (store.react request).store = (store.put topic m).1 := by
  rcases store_react_cases store request with unchanged | ⟨m, group, grown, stored⟩
  · refine Or.inl ⟨joins?_of_keys_eq (by rw [unchanged]), by rw [unchanged], ?_⟩
    intro t g old held
    exact ⟨old, by rw [unchanged]; exact held, .refl old⟩
  · rw [← group] at grown
    cases present : store.contains request.subject.1 m.group with
    | true =>
      have keys : (store.react request).store.keys = store.keys := by
        rw [stored, keys_put_of_contains present]
      refine Or.inl ⟨joins?_of_keys_eq keys, keys, ?_⟩
      intro t g old held
      rw [stored, get?_put_of_contains present]
      by_cases here : t = request.subject.1 ∧ g = m.group
      · obtain ⟨rfl, rfl⟩ := here
        exact ⟨m, if_pos ⟨rfl, rfl⟩, grown old held⟩
      · exact ⟨old, by rw [if_neg here]; exact held, .refl old⟩
    | false =>
      refine Or.inr ⟨request.subject.1, m, present, ?_, stored⟩
      have joined :
          (store.put request.subject.1 m).1.contains request.subject.1 m.group = true := by
        rw [contains, ordered.get?_put present, if_neg]
        · simp
        · rintro ⟨full, -, eldest⟩
          exact ordered.eldest_ne present full eldest
      rw [joins?, stored, ← group, if_pos ⟨present, joined⟩, group]

/-- A new group leaves the store in the order of the joinings. -/
theorem Ordered.order_put (ordered : Ordered limit joinings store) {topic : Topic} {m : Message}
    (absent : store.contains topic m.group = false) :
    (store.put topic m).1.keys.Pairwise fun older newer =>
      ((topic, m.group) :: joinings).idxOf newer < ((topic, m.group) :: joinings).idxOf older := by
  have order := ordered.order_join absent
  by_cases full : store.Full topic
  · rw [put_of_full absent full]
    exact order.sublist (keys_dropOldest_sublist _ _)
  · rw [put_of_room absent full]
    exact order

/-- A request keeps a store in order. -/
theorem Ordered.react (ordered : Ordered limit joinings store) (request : Request) :
    Ordered limit ((store.joins? request).toList ++ joinings) (store.react request).store := by
  have capped : (store.react request).store.limit = limit.map (max 1) := by
    rw [limit_react, ordered.capped]
  rcases ordered.react_cases request with ⟨joins, keys, -⟩ | ⟨topic, m, absent, joins, stored⟩
  · rw [joins]
    refine ⟨capped, ?_, ?_⟩
    · rw [keys]
      exact ordered.order
    · intro bound here t
      rw [groupCount_eq, keys, ← groupCount_eq]
      exact ordered.bounded bound here t
  · rw [joins]
    refine ⟨capped, ?_, ?_⟩
    · rw [stored]
      exact ordered.order_put absent
    · intro bound here t
      have before := ordered.bounded bound here t
      have grown := groupCount_put_of_absent absent t
      rw [stored]
      split at grown
      · rename_i room
        obtain ⟨rfl, room⟩ := room
        have narrow : ¬ store.groupCount t = max bound 1 := fun filled =>
          room (ordered.full_iff.2 ⟨bound, here, filled⟩)
        omega
      · omega

/-- In every run the messages are stored in the order of their joinings, and no topic holds more
groups than it may. -/
theorem Run.ordered (run : Run limit joinings store) : Ordered limit joinings store := by
  induction run with
  | start =>
    refine ⟨rfl, List.Pairwise.nil, ?_⟩
    intro bound _ topic
    exact Nat.zero_le _
  | step _ request ih => exact ih.react request

end Step

/-! ### What is lost -/

/-- **What is stored is lost by eviction alone.**  A request keeps every group of a topic, with all
its parts, unless it brings a new group to a topic that is full; then the topic loses the one group
that joined longest ago, and keeps the others with all their parts.  Publishing and looking up
change nothing. -/
theorem lost_only_by_eviction {limit : Option Nat} {joinings : List (Topic × GroupId)}
    {store : Store} (run : Run limit joinings store) (request : Request) :
    (∀ topic, ¬ Crowds limit store request topic →
      ∀ group, Kept store (store.react request).store topic group) ∧
    (∀ topic, Crowds limit store request topic → ∃ eldest, Eldest joinings store topic eldest ∧
      (store.react request).store.get? topic eldest = none ∧
      ∀ group, group ≠ eldest → Kept store (store.react request).store topic group) ∧
    ((∃ topic group peers, request = .publish topic group peers) ∨
      (∃ topic group, request = .get topic group) → (store.react request).store = store) := by
  have ordered := run.ordered
  refine ⟨?_, ?_, ?_⟩
  · intro t calm g
    rcases ordered.react_cases request with ⟨-, -, kept⟩ | ⟨topic, m, absent, joins, stored⟩
    · exact kept t g
    · rw [stored]
      apply ordered.kept_put absent
      rintro ⟨full, rfl, -⟩
      exact calm ⟨ordered.full_iff.1 full, m.group, joins⟩
  · rintro t ⟨filled, g, crowding⟩
    have full := ordered.full_iff.2 filled
    rcases ordered.react_cases request with ⟨joins, -⟩ | ⟨topic, m, absent, joins, stored⟩
    · rw [joins] at crowding
      cases crowding
    · rw [joins] at crowding
      obtain ⟨rfl, rfl⟩ := Prod.mk.inj (Option.some.inj crowding)
      obtain ⟨eldest, first, oldest⟩ := ordered.eldest (ordered.held_of_full full)
      rw [stored]
      refine ⟨eldest, oldest, ?_, ?_⟩
      · rw [ordered.get?_put absent, if_pos ⟨full, rfl, first⟩]
      · intro other differ
        apply ordered.kept_put absent
        rintro ⟨-, -, same⟩
        rw [first] at same
        exact differ (Option.some.inj same).symm
  · rintro (⟨topic, group, peers, rfl⟩ | ⟨topic, group, rfl⟩)
    · exact react_publish_store store topic group peers
    · rfl

/-- A topic with room for one group holds one that came by a call, and loses it when another is
added. -/
theorem called_group_lost :
    let before : Store := .new (some 1)
    let first : Request :=
      .rpc { sender := default, rpc := .announce default (.ofUInt64 1) (.single 0) }
    let second : Request := .add default (.new (.ofUInt64 2))
    ∃ eldest, Eldest [(default, .ofUInt64 1)] (before.react first).store default eldest ∧
      ((before.react first).store.react second).store.get? default eldest = none := by
  intro before first second
  have run : Run (some 1) ((before.joins? first).toList ++ []) (before.react first).store :=
    Run.start.step first
  have joined : (before.joins? first).toList ++ [] = [(default, .ofUInt64 1)] := by decide +kernel
  rw [joined] at run
  have crowds : Crowds (some 1) (before.react first).store second default :=
    ⟨⟨1, rfl, by decide +kernel⟩, .ofUInt64 2, by decide +kernel⟩
  obtain ⟨eldest, oldest, gone, -⟩ := (lost_only_by_eviction run second).2.1 default crowds
  exact ⟨eldest, oldest, gone⟩

end Store

end PartExchange
