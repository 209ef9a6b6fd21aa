/-
**What a peer is given is what it lacks, byte for byte.**

What a message gives to a peer says of itself which parts it carries and which parts neither side has.
Both are computed from sets alone, while the buffer is written by a writer that skips whatever would
not read back.  The two agree, because every part that is held has the size of a part and the parts go
out in ascending order: nothing is skipped, so the parts that are named are the parts that are sent,
and a message that held nothing takes in exactly these.

As each part of a message has its size by its type, the results hold for whatever has been filled,
taken in or copied.  No message is more than that: each one is taken in from a single buffer by the
message that holds nothing (`Message.exists_extend_new`).

Main results:

* `Message.part?_fillAll_partsIn`: each slot after parts of another message;
* `Message.extend_wire`: what is given is taken in as the parts that it names;
* `Message.wire_eq_none_iff`: nothing is given exactly if the peer holds everything;
* `Message.gives_what_it_says`: all of it together.
-/

import PartExchange.Proofs.Grammar
import PartExchange.Proofs.Message

set_option relaxedAutoImplicit false
set_option autoImplicit false

namespace PartExchange

namespace PartSet

theorem le_iff_diff_eq_empty {s t : PartSet} : s ≤ t ↔ s.diff t = .empty := by
  constructor
  · intro below
    apply eq_of_contains_eq
    intro index
    rw [contains_diff, contains_empty]
    cases member : s.contains index with
    | false => rfl
    | true => simp [below index member]
  · intro nothing index member
    have none := congrArg (fun s => contains s index) nothing
    simpa [member] using none

theorem inter_diff_self (s t : PartSet) : t.inter (s.diff t) = .empty := by
  apply eq_of_contains_eq
  intro index
  rw [contains_inter, contains_diff, contains_empty]
  cases t.contains index <;> simp

theorem inter_diff_of_compl (s t : PartSet) : t.inter (t.compl.diff s) = .empty := by
  apply eq_of_contains_eq
  intro index
  rw [contains_inter, contains_diff, contains_compl, contains_empty]
  cases t.contains index <;> simp

/-- A set, what another has besides, and what neither has make up all parts. -/
theorem union_diff_union_compl (s t : PartSet) :
    (t.union (s.diff t)).union (t.compl.diff (s.diff t)) = .full := by
  apply eq_of_contains_eq
  intro index
  simp only [contains_union, contains_diff, contains_compl, contains_full]
  by_cases small : index < partCount
  · cases s.contains index <;> cases t.contains index <;> simp [small]
  · have outside : ∀ u : PartSet, u.contains index = false := fun u =>
      Bool.eq_false_iff.2 (mt lt_of_contains small)
    simp [small, outside]

end PartSet

/-- A buffer that has been read begins with the byte that names its parts, and has the size for
them. -/
theorem Fragment.frame_of_decode {data : Bytes} {group : GroupId} {fragment : Fragment}
    (read : decode data group = .ok fragment) :
    data.head? = some fragment.included.bits ∧
      data.length = fragmentLength fragment.included.count := by
  obtain ⟨good, first, -⟩ := of_decode read
  constructor
  · rw [head?_of_room good.room, first]
  · rw [good.length, named, ← first, PartSet.count_eq_cpop]

namespace Message

/-! ### Parts of one message in another -/

/-- The part of a number among the parts of a set that are held. -/
theorem find?_partsIn (m : Message) (s : PartSet) (index : Nat) :
    ((m.partsIn s).find? (·.1 = index)).map Prod.snd =
      if s.contains index = true then m.part? index else none := by
  cases found : (m.partsIn s).find? (·.1 = index) with
  | some e =>
    obtain ⟨number, part⟩ := e
    obtain rfl : number = index := by simpa using List.find?_some found
    obtain ⟨member, held⟩ := mem_partsIn.1 (List.mem_of_find?_eq_some found)
    rw [if_pos member, held]
    rfl
  | none =>
    split
    · rename_i member
      cases held : m.part? index with
      | none => rfl
      | some part =>
        have absent := List.find?_eq_none.1 found (index, part) (mem_partsIn.2 ⟨member, held⟩)
        exact absurd (decide_eq_true rfl) absent
    · rfl

/-- A slot that is held keeps its part; an empty one gets the part of the other message, if that is
among those taken from it. -/
theorem part?_fillAll_partsIn (m giver : Message) (s : PartSet) (index : Nat) :
    (m.fillAll (giver.partsIn s)).part? index =
      (m.part? index).or (if s.contains index = true then giver.part? index else none) := by
  rw [part?_fillAll m fun e => partsIn_lt, find?_partsIn]

/-! ### What is given -/

variable {m giver : Message} {known : PartSet}

/-- Nothing is given exactly if the peer holds everything that is held. -/
theorem wire_eq_none_iff : (m.payloadFor known).wire = none ↔ m.available ≤ known := by
  rw [wire_payloadFor, PartSet.le_iff_diff_eq_empty, ← PartSet.isEmpty_iff]
  split <;> simp [*]

/-- What is given is taken in, by a message of the same group, as the parts that it names. -/
theorem extend_wire {data : Bytes} (wire : (giver.payloadFor known).wire = some data)
    (same : giver.group = m.group) :
    m.extend data = .ok (m.fillAll (giver.partsIn (giver.available.diff known))) := by
  rcases giver.decode_payloadFor known with ⟨nothing, -⟩ | ⟨_, fragment, sent, -, read, -, parts⟩
  · rw [nothing] at wire
    cases wire
  · obtain rfl := Option.some.inj (wire.symm.trans sent)
    rw [same] at read
    rw [extend_of_decode read, parts]

/-- What is given begins with the byte that names its parts, and has the size for them. -/
theorem frame_of_wire {data : Bytes} (wire : (m.payloadFor known).wire = some data) :
    data.head? = some (m.available.diff known).bits ∧
      data.length = fragmentLength (m.available.diff known).count := by
  rcases m.decode_payloadFor known with ⟨nothing, -⟩ | ⟨_, fragment, sent, -, read, included, -⟩
  · rw [nothing] at wire
    cases wire
  · obtain rfl := Option.some.inj (wire.symm.trans sent)
    rw [← included]
    exact Fragment.frame_of_decode read

/-- **What is given to a peer is what it says.**  It names the parts that are held and that the peer
lacks, and besides the parts that neither holds.  There is no buffer exactly if no part is named.
Otherwise the buffer begins with the byte that names them and has the size for them, and a message
that held nothing takes in exactly the parts that are named, byte for byte. -/
theorem gives_what_it_says (m : Message) (peer : PartSet) :
    (∀ index part, m.part? index = some part → part.bytes.length = partLength) ∧
      (m.payloadFor peer).included = m.available.inter peer.compl ∧
      (peer.inter (m.payloadFor peer).included = .empty ∧
        peer.inter (m.payloadFor peer).remaining = .empty ∧
        (m.payloadFor peer).included.inter (m.payloadFor peer).remaining = .empty) ∧
      (peer.union (m.payloadFor peer).included).union (m.payloadFor peer).remaining = .full ∧
      ((m.payloadFor peer).wire = none ↔ (m.payloadFor peer).included = .empty) ∧
      ∀ data, (m.payloadFor peer).wire = some data →
        data.head? = some (m.payloadFor peer).included.bits ∧
        data.length = fragmentLength (m.payloadFor peer).included.count ∧
        ∃ fresh, (Message.new m.group).extend data = .ok fresh ∧ fresh.group = m.group ∧
          ∀ index, fresh.part? index =
            if (m.payloadFor peer).included.contains index = true then m.part? index else none := by
  have given : (m.payloadFor peer).included = m.available.diff peer := rfl
  have lacking : (m.payloadFor peer).remaining = peer.compl.diff (m.available.diff peer) := rfl
  rw [given, lacking]
  refine ⟨fun _ part _ => part.length_bytes, rfl, ⟨?_, ?_, ?_⟩, ?_, ?_, ?_⟩
  · exact PartSet.inter_diff_self _ _
  · exact PartSet.inter_diff_of_compl _ _
  · exact PartSet.inter_diff_self _ _
  · exact PartSet.union_diff_union_compl _ _
  · rw [wire_eq_none_iff, PartSet.le_iff_diff_eq_empty]
  · intro data wire
    obtain ⟨head, size⟩ := frame_of_wire wire
    refine ⟨head, size, _, extend_wire wire rfl, group_fillAll _ _, ?_⟩
    intro index
    rw [part?_fillAll_partsIn, part?_new, Option.none_or]

/-- Every message is taken in from a single buffer by the message that holds nothing, unless it holds
nothing itself. -/
theorem exists_extend_new (m : Message) :
    m = .new m.group ∨ ∃ data, (Message.new m.group).extend data = .ok m := by
  cases wire : (m.payloadFor .empty).wire with
  | none =>
    have nothing := wire_eq_none_iff.1 wire
    refine Or.inl (eq_of_part?_eq rfl ?_)
    intro index
    rw [part?_new, part?_eq_none_iff, Bool.eq_false_iff]
    intro held
    simpa using nothing index held
  | some data =>
    refine Or.inr ⟨data, ?_⟩
    rw [extend_wire (m := .new m.group) wire rfl]
    refine congrArg _ (eq_of_part?_eq (group_fillAll _ _) ?_)
    intro index
    rw [part?_fillAll_partsIn, part?_new, Option.none_or, PartSet.contains_diff,
      PartSet.contains_empty, contains_available]
    cases m.part? index <;> rfl

end Message

end PartExchange
