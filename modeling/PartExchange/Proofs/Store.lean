/-
**What a store holds after a message or a call.**

A store without a limit never loses a message: storing one changes the message of its own group on
its own topic and no other.  A call that is not refused adds its parts to the message of its group.

Main definitions:

* `Store.available`: what a store holds of a group;
* `Store.join`: a store with one more message at its end.

Main results:

* `Store.get?_put_of_contains`, `Store.get?_join`: look-up after storing a message of a group that
  is held, and of a new one;
* `Store.get?_put`: look-up after storing, without a limit;
* `Store.get?_put_self`: what has just been stored is found, unless there is room for nothing;
* `Store.mem_entries_put`: what is stored after storing, whatever the limit;
* `Store.absorb_of_acceptable`, `Store.absorb_of_not_acceptable`: the message of a call's group
  after the call.
-/

import PartExchange.Coordinator.Reaction
import PartExchange.Proofs.Rpc

set_option relaxedAutoImplicit false
set_option autoImplicit false

namespace PartExchange

/-! ### Looking up and storing -/

namespace Store

theorem holds_iff {topic : Topic} {group : GroupId} {entry : Topic × Message} :
    holds topic group entry = true ↔ entry.1 = topic ∧ entry.2.group = group := by
  simp [holds]

/-- A message that is found is stored under its topic and belongs to its group. -/
theorem mem_of_get? {store : Store} {topic : Topic} {group : GroupId} {m : Message}
    (found : store.get? topic group = some m) : (topic, m) ∈ store.entries ∧ m.group = group := by
  obtain ⟨⟨t, m'⟩, hit, rfl⟩ := Option.map_eq_some_iff.1 found
  obtain ⟨rfl, belongs⟩ := holds_iff.1 (List.find?_some hit)
  exact ⟨List.mem_of_find?_eq_some hit, belongs⟩

@[simp] theorem group_current (store : Store) (topic : Topic) (group : GroupId) :
    (store.current topic group).group = group := by
  unfold current
  cases found : store.get? topic group with
  | none => rfl
  | some m => exact (mem_of_get? found).2

/-- What a store holds of a group. -/
def available (store : Store) (topic : Topic) (group : GroupId) : PartSet :=
  (store.current topic group).available

theorem available_of_get? {store : Store} {topic : Topic} {group : GroupId} {m : Message}
    (found : store.get? topic group = some m) : store.available topic group = m.available := by
  simp [available, current, found]

theorem available_of_get?_none {store : Store} {topic : Topic} {group : GroupId}
    (missing : store.get? topic group = none) : store.available topic group = .empty := by
  simp [available, current, missing]

theorem contains_eq_false {store : Store} {topic : Topic} {group : GroupId} :
    store.contains topic group = false ↔ store.get? topic group = none := by
  simp [contains]

/-- What is stored after storing a message was stored before, or is that message. -/
theorem mem_entries_put {store : Store} {topic : Topic} {m : Message} {entry : Topic × Message}
    (member : entry ∈ (store.put topic m).1.entries) :
    entry ∈ store.entries ∨ entry = (topic, m) := by
  unfold put at member
  split at member
  · obtain ⟨old, stored, rfl⟩ := List.mem_map.1 member
    split
    · exact Or.inr rfl
    · exact Or.inl stored
  · have grown : entry ∈ store.entries ++ [(topic, m)] := by
      dsimp only at member
      split at member
      · exact List.mem_of_mem_eraseP member
      · exact member
    simpa using grown

@[simp] theorem limit_put (store : Store) (topic : Topic) (m : Message) :
    (store.put topic m).1.limit = store.limit := by
  unfold put
  split
  · rfl
  · dsimp only
    split <;> rfl

@[simp] theorem limit_insertIfAbsent (store : Store) (topic : Topic) (m : Message) :
    (store.insertIfAbsent topic m).1.limit = store.limit := by
  unfold insertIfAbsent
  split
  · rfl
  · exact limit_put store topic m

/-- Look-up after storing a message of a group that is held: the new message is found in place of
the old one, and nothing else changes. -/
theorem get?_put_of_contains {store : Store} {topic : Topic} {m : Message}
    (held : store.contains topic m.group = true) (t : Topic) (g : GroupId) :
    (store.put topic m).1.get? t g =
      if t = topic ∧ g = m.group then some m else store.get? t g := by
  unfold put
  rw [if_pos held]
  -- Replacing an entry leaves its key as it is, so look-up finds the same place as before.
  have keys : holds t g ∘ (fun entry => if holds topic m.group entry then (topic, m) else entry) =
      holds t g := by
    funext entry
    simp only [Function.comp_apply]
    split
    · rename_i same
      obtain ⟨rfl, group⟩ := holds_iff.1 same
      simp [holds, group]
    · rfl
  simp only [get?, List.find?_map, keys, Option.map_map]
  by_cases here : t = topic ∧ g = m.group
  · obtain ⟨rfl, rfl⟩ := here
    obtain ⟨old, present⟩ := Option.isSome_iff_exists.1 held
    obtain ⟨entry, found, -⟩ := Option.map_eq_some_iff.1 present
    simp [found, List.find?_some found]
  · rw [if_neg here]
    cases found : store.entries.find? (holds t g) with
    | none => rfl
    | some entry =>
      have key := holds_iff.1 (List.find?_some found)
      have other : ¬ holds topic m.group entry = true := by
        rw [holds_iff]
        rintro ⟨rfl, group⟩
        exact here ⟨key.1.symm, key.2.symm.trans group⟩
      simp [other]

/-- A store with one more message at its end. -/
def join (store : Store) (topic : Topic) (m : Message) : Store :=
  { store with entries := store.entries ++ [(topic, m)] }

/-- Storing a message of a new group: it joins at the end, and if the topic has become too large it
gives up its oldest group. -/
theorem put_of_absent {store : Store} {topic : Topic} {m : Message}
    (absent : store.contains topic m.group = false) : (store.put topic m).1 =
      if (store.join topic m).overfull topic then (store.join topic m).dropOldest topic
      else store.join topic m := by
  unfold put
  rw [if_neg (by simp [absent])]
  change (if (store.join topic m).overfull topic = true then _ else _ : Store × Option GroupId).1 = _
  split <;> rfl

/-- Look-up in a store with a message of a new group at its end. -/
theorem get?_join {store : Store} {topic : Topic} {m : Message}
    (absent : store.contains topic m.group = false) (t : Topic) (g : GroupId) :
    (store.join topic m).get? t g =
      if t = topic ∧ g = m.group then some m else store.get? t g := by
  rw [join, get?, List.find?_append]
  by_cases here : t = topic ∧ g = m.group
  · obtain ⟨rfl, rfl⟩ := here
    rw [contains_eq_false, get?, Option.map_eq_none_iff] at absent
    simp [absent, holds]
  · have other : ¬ holds t g (topic, m) = true := by
      rw [holds_iff]
      rintro ⟨rfl, rfl⟩
      exact here ⟨rfl, rfl⟩
    rw [if_neg here, List.find?_cons_of_neg other, List.find?_nil, Option.or_none, get?]

/-- Look-up after storing a message, without a limit: the message is found under its own topic and
group, and nothing else changes. -/
theorem get?_put {store : Store} (unlimited : store.limit = none) (topic : Topic) (m : Message)
    (t : Topic) (g : GroupId) :
    (store.put topic m).1.get? t g =
      if t = topic ∧ g = m.group then some m else store.get? t g := by
  cases held : store.contains topic m.group with
  | true => exact get?_put_of_contains held t g
  | false =>
    have narrow : ¬ (store.join topic m).overfull topic = true := by
      simp [overfull, join, unlimited]
    rw [put_of_absent held, if_neg narrow, get?_join held]

/-- A topic that is too large after a message has joined held a group before, unless it may hold
none at all. -/
theorem exists_of_overfull_join {store : Store} (roomy : store.limit ≠ some 0) {topic : Topic}
    {m : Message} (overfull : (store.join topic m).overfull topic = true) :
    ∃ entry ∈ store.entries, entry.1 = topic := by
  obtain ⟨bound, capped, fewer⟩ := (Option.any_eq_true _ _).1 overfull
  have positive : bound ≠ 0 := by
    rintro rfl
    exact roomy capped
  have joined : (store.join topic m).groupCount topic = (store.messages topic).length + 1 := by
    simp [groupCount, messages, join]
  rw [decide_eq_true_eq, joined] at fewer
  obtain ⟨old, member⟩ := List.exists_mem_of_length_pos
    (show 0 < (store.messages topic).length by omega)
  obtain ⟨entry, stored, kept⟩ := List.mem_filterMap.1 member
  exact ⟨entry, stored, (Option.ite_none_right_eq_some.1 kept).1⟩

/-- What has just been stored is found.  A group that has to leave for it is an older one. -/
theorem get?_put_self {store : Store} (roomy : store.limit ≠ some 0) (topic : Topic) (m : Message) :
    (store.put topic m).1.get? topic m.group = some m := by
  cases held : store.contains topic m.group with
  | true => rw [get?_put_of_contains held, if_pos ⟨rfl, rfl⟩]
  | false =>
    rw [put_of_absent held]
    split
    · rename_i overfull
      obtain ⟨entry, stored, about⟩ := exists_of_overfull_join roomy overfull
      have kept : ((store.join topic m).dropOldest topic).entries =
          store.entries.eraseP (·.1 = topic) ++ [(topic, m)] :=
        List.eraseP_append_left (by simpa using about) _ stored
      have absent : (store.entries.eraseP (·.1 = topic)).find? (holds topic m.group) = none := by
        rw [contains_eq_false, get?, Option.map_eq_none_iff, List.find?_eq_none] at held
        exact List.find?_eq_none.2 fun e member => held e (List.mem_of_mem_eraseP member)
      rw [get?, kept, List.find?_append, absent]
      simp [holds]
    · rw [get?_join held, if_pos ⟨rfl, rfl⟩]

/-! ### The message of a call's group -/

/-- The message of a call's group after a call that is not refused. -/
theorem absorb_of_acceptable {store : Store} {rpc : Rpc} (acceptable : rpc.Acceptable) :
    store.absorb rpc = .ok ((store.current rpc.topic rpc.group).fillAll rpc.parts) := by
  unfold absorb
  cases payload : rpc.payload? with
  | none => simp [Rpc.parts, Rpc.decoded?, payload]
  | some data =>
    obtain ⟨fragment, read⟩ := acceptable data payload
    have parts : rpc.parts = fragment.parts := by
      simp [Rpc.parts, Rpc.decoded?, payload, read, Except.toOption]
    rw [← group_current store rpc.topic rpc.group] at read
    rw [parts]
    exact Message.extend_of_decode read

/-- A call that is refused brings no parts. -/
theorem absorb_of_not_acceptable {store : Store} {rpc : Rpc} (refused : ¬ rpc.Acceptable) :
    (∃ refusal, store.absorb rpc = .error refusal) ∧ rpc.parts = [] ∧ rpc.carried = .empty := by
  obtain ⟨data, h⟩ := not_forall.1 refused
  obtain ⟨payload, unread⟩ := Classical.not_imp.1 h
  cases read : Fragment.decode data rpc.group with
  | ok fragment => exact absurd ⟨fragment, read⟩ unread
  | error refusal =>
    -- A payload that does not decode is the only cause of a refusal.
    refine ⟨⟨refusal, ?_⟩, ?_, ?_⟩
    · simp [absorb, payload, Message.extend, read]
    · simp [Rpc.parts, Rpc.decoded?, payload, read, Except.toOption]
    · simp [Rpc.carried, Rpc.decoded?, payload, read, Except.toOption]

/-- What a message holds after the parts of a call. -/
theorem available_fillAll_parts (m : Message) (rpc : Rpc) :
    (m.fillAll rpc.parts).available = m.available.union rpc.carried := by
  unfold Rpc.parts Rpc.carried
  cases rpc.decoded? with
  | none => exact (PartSet.union_eq_left (PartSet.empty_le _)).symm
  | some fragment => exact m.available_fillAll_parts fragment

/-- A call that brings nothing new leaves the message as it is. -/
theorem fillAll_parts_eq_self {m : Message} {rpc : Rpc}
    (known : (m.fillAll rpc.parts).available = m.available) : m.fillAll rpc.parts = m := by
  unfold Rpc.parts at known ⊢
  cases h : rpc.decoded? with
  | none => rfl
  | some fragment =>
    rw [h] at known
    exact Message.fillAll_eq_self known

end Store

end PartExchange
