/-
**What reference vectors may say.**

A reference vector says how a fragment with reproducible content begins and ends.  Since every byte of
such content can be told from its place, there is exactly one right answer to each of its questions,
for every group and every pair of sets of parts, and it can be computed without building the fragment:
behind the byte that names the parts stands the first number of the lowest part, and before the group
the last number of the highest.

The check of a vector cuts nine bytes off the front of the fragment and sixteen off its end.  As in
`PartExchange.Proofs.Grammar`, that they are there is stated through a second check that looks before
it cuts: it never gives up, and comes to the same.

Main definitions:

* `ReferenceVector.sent`: the parts that are sent;
* `ReferenceVector.Accepted`: the vector tells the truth;
* `ReferenceVector.verify?`: the check with every cut checked.

Main results:

* `Message.IsSample.slice`: the numbers that make up the content of a slot;
* `ReferenceVector.accepted_iff_of_sent`: what an accepted vector says of a fragment;
* `ReferenceVector.verify?_eq`: the cuts are inside the fragment;
* `ReferenceVector.accepted_iff_closed_form`: all of it together.
-/

import PartExchange.Experiment.Vector
import PartExchange.Proofs.Samples
import Mathlib.Order.Bounds.Basic

set_option relaxedAutoImplicit false
set_option autoImplicit false

namespace PartExchange

/-! ### The ends of a set of parts -/

namespace PartSet

/-- The first of the listed members is the lowest. -/
theorem isLeast_of_indices {s : PartSet} {index : Nat} {rest : List Nat}
    (listed : s.indices = index :: rest) : IsLeast {i | s.contains i = true} index := by
  have ascending := pairwise_indices s
  rw [listed, List.pairwise_cons] at ascending
  refine ⟨mem_indices.1 (by rw [listed]; exact List.mem_cons_self), ?_⟩
  intro other member
  rw [Set.mem_ofPred_eq, ← mem_indices, listed, List.mem_cons] at member
  rcases member with rfl | member
  · exact Nat.le_refl _
  · exact Nat.le_of_lt (ascending.1 other member)

/-- The last of the listed members is the highest. -/
theorem isGreatest_of_indices {s : PartSet} {index : Nat} {rest : List Nat}
    (listed : s.indices = rest ++ [index]) : IsGreatest {i | s.contains i = true} index := by
  have ascending := pairwise_indices s
  rw [listed, List.pairwise_append] at ascending
  refine ⟨mem_indices.1 (by rw [listed]; simp), ?_⟩
  intro other member
  rw [Set.mem_ofPred_eq, ← mem_indices, listed, List.mem_append, List.mem_singleton] at member
  rcases member with member | rfl
  · exact Nat.le_of_lt (ascending.2.2 other member index List.mem_cons_self)
  · exact Nat.le_refl _

/-- A set with members lists a first and a last one. -/
theorem exists_indices_of_ne_empty {s : PartSet} (any : s ≠ .empty) :
    (∃ low rest, s.indices = low :: rest) ∧ ∃ high rest, s.indices = rest ++ [high] := by
  have listed : s.indices ≠ [] := by
    intro nothing
    apply any
    rw [← ofIndices_indices s, nothing]
    rfl
  refine ⟨List.exists_cons_of_ne_nil listed, ?_⟩
  exact ⟨s.indices.getLast listed, s.indices.dropLast, (List.dropLast_append_getLast listed).symm⟩

end PartSet

/-! ### The content of a slot, number by number -/

/-- The content of a slot is made up of 128 numbers of eight digits. -/
theorem Message.IsSample.slice {group : GroupId} {index : Nat} {part : Part}
    (sample : IsSample group index part) {k : Nat} (small : k < 128) :
    part.bytes.slice (8 * k) 8 =
      Bytes.bigEndian ((group.toUInt64.toNat + 128 * index + k) % 2 ^ 64) := by
  obtain ⟨size, content⟩ := sample
  rw [partLength] at size content
  have fits : (part.bytes.slice (8 * k) 8).length = 8 := Bytes.length_slice (by omega)
  apply List.ext_getElem?
  intro place
  rcases Nat.lt_or_ge place 8 with inside | beyond
  · have number : (8 * k + place) / 8 = k := by omega
    have digit : (8 * k + place) % 8 = place := by omega
    rw [Bytes.slice, List.getElem?_take_of_lt inside, List.getElem?_drop, content _ (by omega),
      number, digit, Bytes.getElem?_bigEndian _ inside]
  · rw [List.getElem?_eq_none (by omega), List.getElem?_eq_none (by simpa using beyond)]

/-- Parts of a message with reproducible content have that content. -/
theorem Message.partsIn_filled {group : GroupId} {held s : PartSet} (below : s ≤ held) :
    (filled group held).partsIn s =
      s.indices.map fun index => (index, sampleContent group index) := by
  have every : ∀ index ∈ s.indices,
      (filled group held).part? index = some (sampleContent group index) := by
    intro index member
    rw [part?_filled, if_pos (below index (PartSet.mem_indices.1 member))]
  rw [partsIn, ← List.filterMap_eq_map]
  apply List.filterMap_congr
  intro index member
  rw [every index member]
  rfl

namespace ReferenceVector

variable {v : ReferenceVector}

/-! ### What is sent -/

/-- The parts that are sent: those that the sender holds and the receiver lacks. -/
def sent (v : ReferenceVector) : PartSet := v.held.diff v.peer

/-- The vector tells the truth. -/
def Accepted (v : ReferenceVector) : Prop := ∃ payload, v.verify = .ok payload

theorem included_payload (v : ReferenceVector) : v.payload.included = v.sent := by
  have included : v.payload.included =
      (Message.filled (.ofUInt64 v.group) v.held).available.diff v.peer := rfl
  rw [included, Message.available_filled, sent]

/-- Nothing is sent exactly if the receiver lacks nothing. -/
theorem wire_eq_none_iff : v.payload.wire = none ↔ v.sent = .empty := by
  rw [payload, Message.wire_eq_none_iff, Message.available_filled, PartSet.le_iff_diff_eq_empty,
    sent]

/-- The fragment that is sent: the byte that names the parts, their contents, the group. -/
theorem wire_eq (any : v.sent ≠ .empty) : v.payload.wire =
    some (v.sent.bits ::
      joinParts (v.sent.indices.map fun index =>
        (index, Message.sampleContent (.ofUInt64 v.group) index)) ++
      Bytes.bigEndian v.group.toNat) := by
  have below : v.sent ≤ v.held := by
    intro index member
    rw [sent, PartSet.contains_diff, Bool.and_eq_true] at member
    exact member.1
  have full : ¬ v.sent.isEmpty = true := mt PartSet.isEmpty_iff.1 any
  rw [payload, Message.wire_payloadFor, Message.available_filled, ← sent, if_neg full,
    Message.partsIn_filled below, Message.group_filled, GroupId.bytes_ofUInt64]

/-- The size of the fragment is fixed by the number of parts. -/
theorem length_wire {wire : Bytes} (sends : v.payload.wire = some wire) :
    wire.length = 9 + 1024 * v.sent.bits.toBitVec.cpop.toNat := by
  rw [(Message.frame_of_wire sends).2, Message.available_filled, ← sent, PartSet.count_eq_cpop,
    fragmentLength, minFragmentLength, partLength, groupIdLength, Nat.mul_comm]

theorem sent_ne_empty {wire : Bytes} (sends : v.payload.wire = some wire) : v.sent ≠ .empty := by
  refine mt wire_eq_none_iff.2 ?_
  rw [sends]
  exact Option.some_ne_none wire

/-- A fragment that is sent carries a part. -/
theorem length_wire_ge {wire : Bytes} (sends : v.payload.wire = some wire) :
    1033 ≤ wire.length := by
  obtain ⟨⟨low, rest, listed⟩, -⟩ := PartSet.exists_indices_of_ne_empty (sent_ne_empty sends)
  rw [length_wire sends, ← PartSet.count_eq_cpop, PartSet.count, listed, List.length_cons]
  omega

/-- Behind the byte that names the parts stands the first number of the lowest part. -/
theorem take_wire {wire : Bytes} {low : Nat} {rest : List Nat}
    (sends : v.payload.wire = some wire) (listed : v.sent.indices = low :: rest) :
    wire.take 9 =
      v.sent.bits :: Bytes.bigEndian ((v.group.toNat + 128 * low) % 2 ^ 64) := by
  have sample := Message.isSample_sampleContent (.ofUInt64 v.group) low
  have first := sample.slice (show 0 < 128 by decide)
  rw [GroupId.toUInt64_ofUInt64, Nat.add_zero, Nat.mul_zero, Bytes.slice, List.drop_zero] at first
  have form := wire_eq (sent_ne_empty sends)
  rw [sends, listed, Option.some.injEq] at form
  rw [form, List.cons_append, List.take_succ_cons, List.map_cons, joinParts_cons,
    List.append_assoc, List.take_append_of_le_length (by rw [sample.1]; decide), first]

/-- Before the group stands the last number of the highest part. -/
theorem drop_wire {wire : Bytes} {high : Nat} {rest : List Nat}
    (sends : v.payload.wire = some wire) (listed : v.sent.indices = rest ++ [high]) :
    wire.drop (wire.length - 16) =
      Bytes.bigEndian ((v.group.toNat + 128 * high + 127) % 2 ^ 64) ++
        Bytes.bigEndian v.group.toNat := by
  have sample := Message.isSample_sampleContent (.ofUInt64 v.group) high
  have last := sample.slice (show 127 < 128 by decide)
  rw [GroupId.toUInt64_ofUInt64, Bytes.slice, List.take_of_length_le
    (by rw [List.length_drop, sample.1]; decide)] at last
  have form := wire_eq (sent_ne_empty sends)
  rw [sends, listed, Option.some.injEq, List.map_append, joinParts, List.flatMap_append,
    List.map_singleton, List.flatMap_singleton,
    ← List.take_append_drop (8 * 127) (Message.sampleContent _ high).bytes, last,
    ← List.append_assoc, ← List.cons_append, List.append_assoc _ (Bytes.bigEndian _)] at form
  rw [form]
  refine List.drop_left' ?_
  simp only [List.length_append, Bytes.length_bigEndian]
  omega

/-! ### What is accepted -/

/-- If nothing is sent, an accepted vector names no parts and no size; what it says of the ends does
not matter. -/
theorem accepted_iff_of_not_sent (nothing : v.sent = .empty) :
    v.Accepted ↔ v.included = .empty ∧ v.wireLength = 0 := by
  have wire := wire_eq_none_iff.2 nothing
  rw [Accepted, verify, wire, included_payload, nothing]
  by_cases parts : v.included = .empty
  · by_cases size : v.wireLength = 0
    · simp [parts, size]
    · simp [parts, size, Ne.symm size]
  · simp [parts, Ne.symm parts]

/-- An accepted vector gives the parts, the size and both ends of the fragment that is sent. -/
theorem accepted_iff_of_sent {wire : Bytes} (sends : v.payload.wire = some wire) :
    v.Accepted ↔ v.included = v.sent ∧ v.wireLength = wire.length ∧
      v.head = Hex.encode (wire.take 9) ∧
      v.tail = Hex.encode (wire.drop (wire.length - 16)) := by
  have full : wire.isEmpty = false := by
    have room := length_wire_ge sends
    rw [List.isEmpty_eq_false_iff, ← List.length_pos_iff]
    omega
  -- The questions are asked one after the other, and every answer but the last ends the check.
  constructor
  · rintro ⟨payload, accepted⟩
    rw [verify, sends, included_payload, Option.getD_some, full] at accepted
    simp only [Bool.false_eq_true, if_false] at accepted
    split_ifs at accepted with parts size head tail
    exact ⟨(not_not.1 parts).symm, (not_not.1 size).symm, (not_not.1 head).symm,
      (not_not.1 tail).symm⟩
  · rintro ⟨parts, size, head, tail⟩
    refine ⟨v.payload, ?_⟩
    rw [verify, sends, included_payload, Option.getD_some, full, parts, size, head, tail]
    rw [if_neg (not_not_intro rfl), if_neg (not_not_intro rfl), if_neg Bool.false_ne_true,
      if_neg (not_not_intro rfl), if_neg (not_not_intro rfl)]

/-! ### The cuts -/

/-- The check with every cut checked: nothing if one reaches beyond the fragment. -/
def verify? (v : ReferenceVector) : Option (Except Mismatch Payload) :=
  let payload := v.payload
  let wire := payload.wire.getD []
  if payload.included ≠ v.included then some (.error (.included payload.included v.included))
  else if wire.length ≠ v.wireLength then some (.error (.length wire.length v.wireLength))
  else if wire.isEmpty then some (.ok payload)
  else do
    let head := Hex.encode (← wire.window? 0 9)
    if head ≠ v.head then some (.error (.head head v.head))
    else do
      let start ← wire.length.psub 16
      let tail := Hex.encode (← wire.window? start wire.length)
      if tail ≠ v.tail then some (.error (.tail tail v.tail)) else some (.ok payload)

/-- No cut of the check reaches beyond the fragment. -/
theorem verify?_eq (v : ReferenceVector) : v.verify? = some v.verify := by
  rw [verify?, verify]
  cases sends : v.payload.wire with
  | none =>
    simp only [Option.getD_none, List.isEmpty_nil, if_true]
    split_ifs <;> rfl
  | some wire =>
    have room := length_wire_ge sends
    have head : wire.window? 0 9 = some (wire.take 9) := by
      rw [Bytes.window?_of_le (by omega) (by omega)]
      rfl
    have start : wire.length.psub 16 = some (wire.length - 16) := Nat.psub_eq_sub (by omega)
    have tail : wire.window? (wire.length - 16) wire.length =
        some (wire.drop (wire.length - 16)) := by
      rw [Bytes.window?_of_le (Nat.sub_le _ _) (Nat.le_refl _), Bytes.slice,
        List.take_of_length_le (by rw [List.length_drop])]
    simp only [Option.getD_some, head, start, tail, Option.bind_eq_bind, Option.bind_some]
    split_ifs <;> rfl

/-! ### The whole answer -/

/-- **A reference vector has one right answer.**  If the receiver lacks nothing that the sender holds,
it is accepted exactly if it names no parts and the size zero.  Otherwise it is accepted exactly if it
names the parts that the receiver lacks, and the size of as many parts; and if it begins with these
parts and the first number of the lowest of them, and ends with the last number of the highest and the
group.  And the check never cuts beyond the fragment. -/
theorem accepted_iff_closed_form (v : ReferenceVector) :
    (v.sent = ⟨v.held.bits &&& ~~~v.peer.bits⟩) ∧
      (v.sent = .empty → (v.Accepted ↔ v.included = .empty ∧ v.wireLength = 0)) ∧
      (v.sent ≠ .empty → ∃ low high, IsLeast {i | v.sent.contains i = true} low ∧
        IsGreatest {i | v.sent.contains i = true} high ∧
        (v.Accepted ↔ v.included = v.sent ∧
          v.wireLength = 9 + 1024 * v.sent.bits.toBitVec.cpop.toNat ∧
          v.head = Hex.encode
            (v.sent.bits :: Bytes.bigEndian ((v.group.toNat + 128 * low) % 2 ^ 64)) ∧
          v.tail = Hex.encode (Bytes.bigEndian ((v.group.toNat + 128 * high + 127) % 2 ^ 64) ++
            Bytes.bigEndian v.group.toNat))) ∧
      v.verify? = some v.verify := by
  refine ⟨rfl, accepted_iff_of_not_sent, ?_, verify?_eq v⟩
  intro any
  obtain ⟨wire, sends⟩ := Option.ne_none_iff_exists'.1 (mt wire_eq_none_iff.1 any)
  obtain ⟨⟨low, above, lowest⟩, high, below, highest⟩ := PartSet.exists_indices_of_ne_empty any
  refine ⟨low, high, PartSet.isLeast_of_indices lowest, PartSet.isGreatest_of_indices highest, ?_⟩
  rw [accepted_iff_of_sent sends, take_wire sends lowest, drop_wire sends highest,
    length_wire sends]

/-- A vector of the last group, whose count starts again from zero in the middle of the first part,
and one of a receiver that lacks nothing, whose ends do not matter. -/
theorem wrapping_and_idle_vectors_accepted :
    let wrapping : ReferenceVector :=
      { name := "wrapping", group := 0xffffffffffffffff, held := ⟨0x07⟩, peer := ⟨0x02⟩
        included := ⟨0x05⟩, wireLength := 2057
        head := "05ffffffffffffffff", tail := "000000000000017effffffffffffffff" }
    let idle : ReferenceVector :=
      { name := "idle", group := 42, held := ⟨0x0f⟩, peer := ⟨0xff⟩
        included := ⟨0x00⟩, wireLength := 0, head := "2a", tail := "2a" }
    wrapping.sent ≠ .empty ∧ wrapping.Accepted ∧ idle.sent = .empty ∧ idle.Accepted := by
  intro wrapping idle
  obtain ⟨-, -, closed, -⟩ := accepted_iff_closed_form wrapping
  obtain ⟨-, empty, -, -⟩ := accepted_iff_closed_form idle
  have any : wrapping.sent ≠ .empty := by decide
  have nothing : idle.sent = .empty := by decide
  obtain ⟨low, high, least, greatest, accepted⟩ := closed any
  have listed : wrapping.sent.indices = [0, 2] := by decide
  obtain rfl : low = 0 := least.unique (PartSet.isLeast_of_indices listed)
  have listed' : wrapping.sent.indices = [0] ++ [2] := listed
  obtain rfl : high = 2 := greatest.unique (PartSet.isGreatest_of_indices listed')
  exact ⟨any, accepted.2 ⟨by decide, by decide, by decide, by decide⟩, nothing,
    (empty nothing).2 ⟨by decide, rfl⟩⟩

end ReferenceVector

end PartExchange
