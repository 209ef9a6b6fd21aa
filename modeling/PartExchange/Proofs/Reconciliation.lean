/-
**Two messages that give each other what they lack.**

Whether a message asks a peer for parts and whether the peer would give it some are decided in
different places, the one from what is missing here, the other from what is held there.  They decide
the same.  So one exchange is enough: after each of two messages of a group has taken in what the
other gives it, both hold what either held, neither would ask again, and neither has anything more to
give.  It makes no difference whether the second one answers with what it held at the beginning or
with what it holds after the first has given.

Contents never change, so where both held a part beforehand they keep their own; if these were the
same the two messages end equal.

Main definitions:

* `Message.accept`: a message after what it has been given, if there is anything.

Main results:

* `Message.shouldRequest_iff_wire`: a peer is asked exactly if it would give something;
* `Message.part?_accept`: each slot after a peer has given what is lacking here;
* `Message.one_exchange_suffices`: both messages after one exchange.
-/

import PartExchange.Proofs.Payload

set_option relaxedAutoImplicit false
set_option autoImplicit false

namespace PartExchange.Message

variable {a b m giver : Message}

/-! ### Asking and giving -/

/-- A peer is asked exactly if it holds a part that is missing here. -/
theorem shouldRequest_iff {peer : PartSet} :
    m.shouldRequest peer = true ↔ ¬ peer ≤ m.available := by
  have lacking : m.missing.inter peer = peer.diff m.available := by
    apply PartSet.eq_of_contains_eq
    intro index
    rw [missing, PartSet.contains_inter, PartSet.contains_compl, PartSet.contains_diff]
    cases held : peer.contains index with
    | false => rw [Bool.and_false, Bool.false_and]
    | true => simp [PartSet.lt_of_contains held]
  rw [shouldRequest, lacking, PartSet.le_iff_diff_eq_empty, ← PartSet.isEmpty_iff,
    Bool.not_eq_true', Bool.not_eq_true]

/-- A peer is asked exactly if it would give something. -/
theorem shouldRequest_iff_wire : a.shouldRequest b.available = true ↔
    (b.payloadFor a.available).wire.isSome = true := by
  rw [shouldRequest_iff, Option.isSome_iff_ne_none, ne_eq, wire_eq_none_iff]

/-! ### Taking in what is given -/

/-- A message after what it has been given: the buffer is taken in, if there is one. -/
def accept (m : Message) (payload : Payload) : Except PartError Message :=
  match payload.wire with
  | none => .ok m
  | some data => m.extend data

/-- What a message of the same group gives for the parts that are held here is taken in, and fills
the empty slots with its parts. -/
theorem part?_accept (same : giver.group = m.group) :
    ∃ after, m.accept (giver.payloadFor m.available) = .ok after ∧ after.group = m.group ∧
      ∀ index, after.part? index = (m.part? index).or (giver.part? index) := by
  cases wire : (giver.payloadFor m.available).wire with
  | none =>
    refine ⟨m, by rw [accept, wire], rfl, ?_⟩
    intro index
    cases held : m.part? index with
    | some part => rfl
    | none =>
      have vacant := part?_eq_none_iff.1 held
      have known := wire_eq_none_iff.1 wire index
      rw [vacant, Bool.false_eq_true, imp_false, Bool.not_eq_true] at known
      rw [part?_eq_none_iff.2 known, Option.or_none]
  | some data =>
    refine ⟨m.fillAll (giver.partsIn (giver.available.diff m.available)), ?_, group_fillAll _ _, ?_⟩
    · rw [accept, wire]
      exact extend_wire wire same
    · intro index
      rw [part?_fillAll_partsIn, PartSet.contains_diff, contains_available, contains_available]
      cases m.part? index <;> cases giver.part? index <;> rfl

/-! ### One exchange -/

/-- What two messages have come to that were `a` and `b` before they gave each other what they
lacked. -/
structure Reconciled (a b a' b' : Message) : Prop where
  /-- Both hold what either of them held. -/
  available : a'.available = a.available.union b.available ∧
    b'.available = a.available.union b.available
  /-- Neither has lost or changed a part. -/
  kept : (∀ index part, a.part? index = some part → a'.part? index = some part) ∧
    ∀ index part, b.part? index = some part → b'.part? index = some part
  /-- Neither would ask the other for more. -/
  settled : a'.shouldRequest b'.available = false ∧ b'.shouldRequest a'.available = false
  /-- Neither has more to give. -/
  spent : (a'.payloadFor b'.available).wire = none ∧ (b'.payloadFor a'.available).wire = none ∧
    (a'.payloadFor b'.available).included = .empty ∧
    (b'.payloadFor a'.available).included = .empty
  /-- They are equal if no part differed that both of them held. -/
  equal : (∀ index part part', a.part? index = some part → b.part? index = some part' →
    part = part') → a' = b'

/-- Two messages each of whose slots holds its own part, or else that of the other, are
reconciled. -/
theorem reconciled_of_slots {a' b' : Message} (group : a'.group = b'.group)
    (first : ∀ index, a'.part? index = (a.part? index).or (b.part? index))
    (second : ∀ index, b'.part? index = (b.part? index).or (a.part? index)) :
    Reconciled a b a' b' := by
  have left : a'.available = a.available.union b.available := by
    apply PartSet.eq_of_contains_eq
    intro index
    simp only [contains_available, PartSet.contains_union, first, Option.isSome_or]
  have right : b'.available = a.available.union b.available := by
    apply PartSet.eq_of_contains_eq
    intro index
    simp only [contains_available, PartSet.contains_union, second, Option.isSome_or, Bool.or_comm]
  have even : a'.available = b'.available := left.trans right.symm
  constructor
  case available => exact ⟨left, right⟩
  case kept =>
    constructor
    · intro index part held
      rw [first, held, Option.some_or]
    · intro index part held
      rw [second, held, Option.some_or]
  case settled =>
    constructor
    · exact Bool.eq_false_iff.2 fun asks => shouldRequest_iff.1 asks even.ge
    · exact Bool.eq_false_iff.2 fun asks => shouldRequest_iff.1 asks even.le
  case spent =>
    exact ⟨wire_eq_none_iff.2 even.le, wire_eq_none_iff.2 even.ge,
      PartSet.le_iff_diff_eq_empty.1 even.le, PartSet.le_iff_diff_eq_empty.1 even.ge⟩
  case equal =>
    intro agree
    refine eq_of_part?_eq group ?_
    intro index
    rw [first, second]
    cases held : a.part? index with
    | none => rw [Option.none_or, Option.or_none]
    | some part =>
      cases held' : b.part? index with
      | none => rfl
      | some part' => rw [agree index part part' held held']

/-- **One exchange is enough.**  A message asks a peer exactly if the peer would give it something.
And after one of two messages of a group has taken in what the other gives for what it holds, and the
other what the first gives for what it holds, before or after it has taken something in itself, both
hold what either held, neither has lost or changed a part, neither would ask again or has more to
give, and they are equal if they did not differ in a part that both held. -/
theorem one_exchange_suffices (same : a.group = b.group) :
    (a.shouldRequest b.available = true ↔ (b.payloadFor a.available).wire.isSome = true) ∧
      ∃ b', b.accept (a.payloadFor b.available) = .ok b' ∧
        ∀ giver, giver = b ∨ giver = b' →
          ∃ a', a.accept (giver.payloadFor a.available) = .ok a' ∧ Reconciled a b a' b' := by
  refine ⟨shouldRequest_iff_wire, ?_⟩
  obtain ⟨b', given, group, second⟩ := @part?_accept b a same
  refine ⟨b', given, ?_⟩
  intro giver either
  -- What `b` has taken in from `a` makes no difference: `a` holds that already.
  have source : giver.group = a.group ∧
      ∀ index, (a.part? index).or (giver.part? index) = (a.part? index).or (b.part? index) := by
    rcases either with rfl | rfl
    · exact ⟨same.symm, fun _ => rfl⟩
    · refine ⟨group.trans same.symm, ?_⟩
      intro index
      rw [second]
      cases a.part? index with
      | some part => rfl
      | none => rw [Option.or_none]
  obtain ⟨a', answered, group', first⟩ := @part?_accept a giver source.1
  refine ⟨a', answered, reconciled_of_slots ?_ ?_ second⟩
  · rw [group', group, same]
  · intro index
    rw [first, source.2]

/-- Two messages that hold three parts each, two of them in common, end equal with four parts. -/
theorem overlapping_messages_end_equal :
    let a := filled (.ofUInt64 42) ⟨0x07⟩
    let b := filled (.ofUInt64 42) ⟨0x0e⟩
    a.group = b.group ∧ a.shouldRequest b.available = true ∧
      ∃ b' a', b.accept (a.payloadFor b.available) = .ok b' ∧
        a.accept (b'.payloadFor a.available) = .ok a' ∧ a' = b' ∧ a'.available = ⟨0x0f⟩ := by
  intro a b
  have same : a.group = b.group := (group_filled _ _).trans (group_filled _ _).symm
  obtain ⟨-, b', given, rest⟩ := one_exchange_suffices same
  obtain ⟨a', answered, reconciled⟩ := rest b' (Or.inr rfl)
  refine ⟨same, ?_, b', a', given, answered, reconciled.equal ?_, ?_⟩
  · rw [shouldRequest_iff, available_filled, available_filled]
    decide
  · -- Both hold the content that the slot has in every message of the group.
    have content : ∀ s index part, (filled (.ofUInt64 42) s).part? index = some part →
        part = sampleContent (.ofUInt64 42) index := by
      intro s
      exact (eq_filled_iff.1 (by rw [available_filled])).2
    intro index part part' held held'
    rw [content _ index part held, content _ index part' held']
  · rw [reconciled.available.1, available_filled, available_filled]
    decide

end PartExchange.Message
