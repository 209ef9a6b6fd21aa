/-
**Merging fragments: the first one decides, and the order matters only where they disagree.**

A message takes in buffers one after the other, and passes over those that are refused.  Each of its
slots ends with what it held at the beginning, or else with the part that the first buffer to carry
one for this slot has brought.  Which slots end up full therefore depends on the buffers alone, not
on their order or on how often each of them comes.  What the slots contain can depend on the order,
but only if two buffers bring different parts for a slot that was empty at the beginning.

Main definitions:

* `Fragment.partIn?`: the part that a buffer brings for a slot;
* `Message.merge`, `Message.mergeAll`: a message after a buffer, and after a list of buffers;
* `Message.Agree`: buffers that bring the same parts for the slots that are empty.

Main results:

* `Message.part?_mergeAll`: the content of each slot after a list of buffers;
* `Message.contains_available_mergeAll`: which slots are full after a list of buffers;
* `Message.mergeAll_filter`: buffers that are refused have no effect;
* `Message.mergeAll_append_of_subset`: buffers that come again have no effect;
* `Message.available_mergeAll_congr`: which slots are full does not depend on the order;
* `Message.mergeAll_congr_iff_agree`: what they contain does not either, exactly if the buffers agree;
* `Message.merges_like_a_set`: all of it together.
-/

import PartExchange.Proofs.Message

set_option relaxedAutoImplicit false
set_option autoImplicit false

namespace PartExchange

/-! ### What a buffer brings -/

/-- The part that a buffer brings a group for slot `index`: none if the buffer is refused, or if it
does not carry one. -/
def Fragment.partIn? (data : Bytes) (group : GroupId) (index : Nat) : Option Part :=
  match decode data group with
  | .error _ => none
  | .ok fragment => (fragment.parts.find? (·.1 = index)).map Prod.snd

/-- A buffer brings a part for a slot exactly if it is not refused and names the slot. -/
theorem Fragment.isSome_partIn?_iff {data : Bytes} {group : GroupId} {index : Nat} :
    (partIn? data group index).isSome = true ↔
      ∃ fragment, decode data group = .ok fragment ∧ fragment.included.contains index = true := by
  cases read : decode data group with
  | error refusal => simp [partIn?, read]
  | ok fragment =>
    rw [partIn?, read, Option.isSome_map, List.find?_isSome]
    simp only [Except.ok.injEq, exists_eq_left', decide_eq_true_eq]
    rw [← PartSet.mem_indices, ← map_fst_parts, List.mem_map]

namespace Message

/-- A message after a buffer; one that is refused is passed over. -/
def merge (m : Message) (data : Bytes) : Message :=
  match m.extend data with
  | .error _ => m
  | .ok extended => extended

/-- A message after a list of buffers, one after the other. -/
def mergeAll (m : Message) (buffers : List Bytes) : Message := buffers.foldl merge m

@[simp] theorem mergeAll_nil (m : Message) : m.mergeAll [] = m := rfl

@[simp] theorem mergeAll_cons (m : Message) (data : Bytes) (buffers : List Bytes) :
    m.mergeAll (data :: buffers) = (m.merge data).mergeAll buffers := rfl

theorem merge_of_decode {m : Message} {data : Bytes} {fragment : Fragment}
    (read : Fragment.decode data m.group = .ok fragment) :
    m.merge data = m.fillAll fragment.parts := by
  rw [merge, extend_of_decode read]

/-- A buffer that is refused leaves the message as it is. -/
theorem merge_of_refused {m : Message} {data : Bytes} {refusal : PartError}
    (refused : Fragment.decode data m.group = .error refusal) : m.merge data = m := by
  rw [merge, extend_of_refused refused]

@[simp] theorem group_merge (m : Message) (data : Bytes) : (m.merge data).group = m.group := by
  cases read : Fragment.decode data m.group with
  | error refusal => rw [merge_of_refused read]
  | ok fragment => rw [merge_of_decode read, group_fillAll]

@[simp] theorem group_mergeAll (m : Message) (buffers : List Bytes) :
    (m.mergeAll buffers).group = m.group := by
  induction buffers generalizing m with
  | nil => rfl
  | cons data rest ih => rw [mergeAll_cons, ih, group_merge]

/-! ### The content of each slot -/

/-- A slot that is held keeps its part; an empty one gets the part that the buffer brings for it. -/
theorem part?_merge (m : Message) (data : Bytes) (index : Nat) :
    (m.merge data).part? index = (m.part? index).or (Fragment.partIn? data m.group index) := by
  cases read : Fragment.decode data m.group with
  | error refusal => rw [merge_of_refused read, Fragment.partIn?, read, Option.or_none]
  | ok fragment =>
    rw [merge_of_decode read, part?_fillAll m fun e => Fragment.parts_lt, Fragment.partIn?, read]

/-- A slot that is held keeps its part; an empty one gets the part of the first buffer that brings
one for it, and stays empty if none does. -/
theorem part?_mergeAll (m : Message) (buffers : List Bytes) (index : Nat) :
    (m.mergeAll buffers).part? index =
      (m.part? index).or (buffers.findSome? fun data => Fragment.partIn? data m.group index) := by
  -- A buffer changes the message but not its group, so the induction is for every message.
  induction buffers generalizing m with
  | nil => rw [mergeAll_nil, List.findSome?_nil, Option.or_none]
  | cons data rest ih =>
    rw [mergeAll_cons, ih, part?_merge, group_merge, List.findSome?_cons, Option.or_assoc]
    cases Fragment.partIn? data m.group index <;> rfl

/-- The slots that are full after a list of buffers are those that were, and those that a buffer names
which is not refused. -/
theorem contains_available_mergeAll (m : Message) (buffers : List Bytes) (index : Nat) :
    (m.mergeAll buffers).available.contains index = true ↔
      m.available.contains index = true ∨ ∃ data ∈ buffers, ∃ fragment,
        Fragment.decode data m.group = .ok fragment ∧
          fragment.included.contains index = true := by
  rw [contains_available, part?_mergeAll, Option.isSome_or, Bool.or_eq_true, contains_available,
    List.findSome?_isSome_iff]
  simp only [Fragment.isSome_partIn?_iff]

/-- Buffers that are refused have no effect at all. -/
theorem mergeAll_filter (m : Message) (buffers : List Bytes) :
    m.mergeAll (buffers.filter fun data => (Fragment.decode data m.group).isOk) =
      m.mergeAll buffers := by
  induction buffers generalizing m with
  | nil => rfl
  | cons data rest ih =>
    have after := ih (m.merge data)
    rw [group_merge] at after
    cases read : Fragment.decode data m.group with
    | error refusal =>
      rw [merge_of_refused read] at after
      rw [List.filter_cons_of_neg (by simp [read, Except.isOk, Except.toBool]), mergeAll_cons,
        merge_of_refused read, after]
    | ok fragment =>
      rw [List.filter_cons_of_pos (by simp [read, Except.isOk, Except.toBool]), mergeAll_cons,
        mergeAll_cons, after]

/-! ### Order and repetition -/

section Order

variable {m : Message} {buffers others : List Bytes}

/-- Buffers that have come before have no effect when they come again. -/
theorem mergeAll_append_of_subset (known : others ⊆ buffers) :
    m.mergeAll (buffers ++ others) = m.mergeAll buffers := by
  refine eq_of_part?_eq (by rw [group_mergeAll, group_mergeAll]) ?_
  intro index
  rw [part?_mergeAll, part?_mergeAll, List.findSome?_append]
  cases first : buffers.findSome? fun data => Fragment.partIn? data m.group index with
  | some part => rw [Option.some_or]
  | none =>
    have nothing : others.findSome? (fun data => Fragment.partIn? data m.group index) = none :=
      List.findSome?_eq_none_iff.2 fun data member =>
        List.findSome?_eq_none_iff.1 first data (known member)
    rw [nothing, Option.or_none]

/-- Which slots are full after a list of buffers does not depend on their order, nor on how often
each of them comes. -/
theorem available_mergeAll_congr (same : ∀ data, data ∈ others ↔ data ∈ buffers) :
    (m.mergeAll others).available = (m.mergeAll buffers).available := by
  apply PartSet.eq_of_contains_eq
  intro index
  rw [Bool.eq_iff_iff, contains_available_mergeAll, contains_available_mergeAll]
  simp only [same]

/-- Buffers that bring the same parts for the slots that are empty. -/
def Agree (m : Message) (buffers : List Bytes) : Prop :=
  ∀ index, m.part? index = none → ∀ first ∈ buffers, ∀ second ∈ buffers, ∀ part part',
    Fragment.partIn? first m.group index = some part →
      Fragment.partIn? second m.group index = some part' → part = part'

/-- What an empty slot gets from buffers that agree is what any of them brings for it. -/
theorem findSome?_of_agree (agree : m.Agree buffers) {index : Nat} (vacant : m.part? index = none)
    {data : Bytes} (member : data ∈ buffers) {part : Part}
    (brings : Fragment.partIn? data m.group index = some part) :
    buffers.findSome? (fun data => Fragment.partIn? data m.group index) = some part := by
  cases first : buffers.findSome? fun data => Fragment.partIn? data m.group index with
  | none =>
    rw [List.findSome?_eq_none_iff.1 first data member] at brings
    cases brings
  | some other =>
    obtain ⟨source, listed, brought⟩ := List.exists_of_findSome?_eq_some first
    rw [agree index vacant source listed data member other part brought brings]

/-- The message after buffers that agree does not depend on their order, nor on how often each of
them comes. -/
theorem mergeAll_congr (agree : m.Agree buffers) (same : ∀ data, data ∈ others ↔ data ∈ buffers) :
    m.mergeAll others = m.mergeAll buffers := by
  refine eq_of_part?_eq (by rw [group_mergeAll, group_mergeAll]) ?_
  intro index
  rw [part?_mergeAll, part?_mergeAll]
  cases vacant : m.part? index with
  | some part => rw [Option.some_or, Option.some_or]
  | none =>
    rw [Option.none_or, Option.none_or]
    cases first : others.findSome? fun data => Fragment.partIn? data m.group index with
    | none =>
      refine (List.findSome?_eq_none_iff.2 ?_).symm
      intro data member
      exact List.findSome?_eq_none_iff.1 first data ((same data).2 member)
    | some part =>
      obtain ⟨source, listed, brings⟩ := List.exists_of_findSome?_eq_some first
      exact (findSome?_of_agree agree vacant ((same source).1 listed) brings).symm

/-- The message after a list of buffers is the same for every order and repetition of them exactly
if they agree: of two that disagree the one that comes first decides. -/
theorem mergeAll_congr_iff_agree :
    (∀ others, (∀ data, data ∈ others ↔ data ∈ buffers) → m.mergeAll others = m.mergeAll buffers) ↔
      m.Agree buffers := by
  constructor
  · intro always index vacant first listed second listed' part part' brings brings'
    -- Each of the two is put in front of the list, where it decides.
    have leading : ∀ data ∈ buffers, ∀ part, Fragment.partIn? data m.group index = some part →
        (m.mergeAll buffers).part? index = some part := by
      intro data member part brings
      have again : ∀ other, other ∈ data :: buffers ↔ other ∈ buffers := by
        intro other
        rw [List.mem_cons, or_iff_right_of_imp]
        rintro rfl
        exact member
      rw [← always _ again, part?_mergeAll, vacant, Option.none_or, List.findSome?_cons, brings]
    exact Option.some.inj ((leading first listed part brings).symm.trans
      (leading second listed' part' brings'))
  · exact fun agree _ same => mergeAll_congr agree same

end Order

/-- **Merging is write-once, atomic, idempotent and independent of the order.**  After a list of
buffers each slot holds what it held before; an empty one holds the part of the first buffer that is
not refused and carries one for it, or nothing.  Buffers that are refused have no effect, and neither
have buffers that come again.  Which slots are full depends on what the buffers name, not on their
order and repetition; and so does the whole message, exactly if the buffers agree on the slots that
were empty. -/
theorem merges_like_a_set (m : Message) (buffers : List Bytes) :
    (m.mergeAll buffers).group = m.group ∧
      (∀ index, (m.mergeAll buffers).part? index =
        (m.part? index).or (buffers.findSome? fun data => Fragment.partIn? data m.group index)) ∧
      (∀ index, (m.mergeAll buffers).available.contains index = true ↔
        m.available.contains index = true ∨ ∃ data ∈ buffers, ∃ fragment,
          Fragment.decode data m.group = .ok fragment ∧
            fragment.included.contains index = true) ∧
      m.mergeAll (buffers.filter fun data => (Fragment.decode data m.group).isOk) =
        m.mergeAll buffers ∧
      (∀ others, others ⊆ buffers → m.mergeAll (buffers ++ others) = m.mergeAll buffers) ∧
      (∀ others, (∀ data, data ∈ others ↔ data ∈ buffers) →
        (m.mergeAll others).available = (m.mergeAll buffers).available) ∧
      ((∀ others, (∀ data, data ∈ others ↔ data ∈ buffers) →
        m.mergeAll others = m.mergeAll buffers) ↔ m.Agree buffers) :=
  ⟨group_mergeAll m buffers, part?_mergeAll m buffers, contains_available_mergeAll m buffers,
    mergeAll_filter m buffers, fun _ => mergeAll_append_of_subset,
    fun _ => available_mergeAll_congr, mergeAll_congr_iff_agree⟩

end Message

end PartExchange
