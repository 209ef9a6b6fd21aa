/-
**Reproducible content is the same wherever it comes from.**

The content of a slot depends on the group and the number of the slot alone: a count that begins at
the group's number runs through all eight parts, 128 numbers to a part, and starts again from zero
behind the last number of 64 bits.  So every byte of it can be told from its place.  And participants
that each make up the parts they are told to hold, and give each other what they lack, never
disagree: what such a message holds is determined by which parts it holds.

Main definitions:

* `Message.IsSample`: the reproducible content of a slot, byte by byte;
* `Message.Sampled`: a message that has come by its parts through making them up and exchanging them.

Main results:

* `Message.getElem?_counterBytes`: the bytes of a count by their places;
* `Message.Sampled.eq_filled`: a message that came by its parts in this way;
* `Message.samples_agree`: all of it together.
-/

import PartExchange.Proofs.Digits
import PartExchange.Proofs.Payload

set_option relaxedAutoImplicit false
set_option autoImplicit false

namespace PartExchange.Message

/-! ### The bytes of a count -/

/-- The byte at place `j` of a count is a digit of the number that stands there; the numbers start
again from zero behind the last of 64 bits. -/
theorem getElem?_counterBytes {count : Nat} {start : UInt64} {j : Nat} (small : j < count * 8) :
    (counterBytes count start)[j]? =
      some (Bytes.digit ((start.toNat + j / 8) % 2 ^ 64) (j % 8)) := by
  -- The rest of a count is a count that starts one later, so the induction is for every start.
  induction count generalizing start j with
  | zero => omega
  | succ count ih =>
    rw [counterBytes, Bytes.ofUInt64_eq]
    rcases Nat.lt_or_ge j 8 with first | later
    · have number : (start.toNat + j / 8) % 2 ^ 64 = start.toNat := by
        have bound := start.toNat_lt
        omega
      rw [List.getElem?_append_left (by simpa using first), Bytes.getElem?_bigEndian _ first,
        number, Nat.mod_eq_of_lt first]
    · have number : ((start + 1).toNat + (j - 8) / 8) % 2 ^ 64 =
          (start.toNat + j / 8) % 2 ^ 64 := by
        rw [UInt64.toNat_add, UInt64.toNat_one]
        omega
      have place : (j - 8) % 8 = j % 8 := by omega
      rw [List.getElem?_append_right (by simpa using later), Bytes.length_bigEndian,
        ih (by omega), number, place]

/-! ### The content of a slot -/

/-- A part with the reproducible content of slot `index`: its bytes are those of 128 numbers of eight
digits, of which the first is 128 times `index` above the number of the group. -/
def IsSample (group : GroupId) (index : Nat) (part : Part) : Prop :=
  part.bytes.length = partLength ∧ ∀ j < partLength, part.bytes[j]? =
    some (Bytes.digit ((group.toUInt64.toNat + 128 * index + j / 8) % 2 ^ 64) (j % 8))

/-- The content of a slot is made up as its place says. -/
theorem isSample_sampleContent (group : GroupId) (index : Nat) :
    IsSample group index (sampleContent group index) := by
  refine ⟨(sampleContent group index).length_bytes, ?_⟩
  intro j small
  have number : ((group.toUInt64 + UInt64.ofNat index * 128).toNat + j / 8) % 2 ^ 64 =
      (group.toUInt64.toNat + 128 * index + j / 8) % 2 ^ 64 := by
    have factor : (128 : UInt64).toNat = 128 := rfl
    rw [UInt64.toNat_add, UInt64.toNat_mul, UInt64.toNat_ofNat', factor]
    omega
  rw [← number]
  exact getElem?_counterBytes small

/-! ### Messages that are filled and exchanged -/

/-- A message of a group that has come by its parts through making up reproducible content and taking
in what other such messages give. -/
inductive Sampled (group : GroupId) : Message → Prop
  | filled (s : PartSet) : Sampled group (.filled group s)
  | fillParts {m : Message} (before : Sampled group m) (s : PartSet) : Sampled group (m.fillParts s)
  | extend {m giver after : Message} {known : PartSet} {data : Bytes} (before : Sampled group m)
      (source : Sampled group giver) (wire : (giver.payloadFor known).wire = some data)
      (taken : m.extend data = .ok after) : Sampled group after

variable {group : GroupId} {m giver : Message}

/-- Making up parts adds them. -/
theorem fillParts_filled (s t : PartSet) :
    (Message.filled group s).fillParts t = .filled group (s.union t) := by
  refine eq_of_part?_eq (by rw [group_fillParts, group_filled, group_filled]) ?_
  intro index
  rw [part?_fillParts, part?_filled, part?_filled, group_filled, PartSet.contains_union]
  cases s.contains index <;> cases t.contains index <;> rfl

/-- What a message with reproducible content gives is taken in by another, and adds the parts that
the peer lacked. -/
theorem extend_filled {s t known : PartSet} {data : Bytes}
    (wire : ((Message.filled group t).payloadFor known).wire = some data) :
    (Message.filled group s).extend data = .ok (.filled group (s.union (t.diff known))) := by
  rw [extend_wire wire (by rw [group_filled, group_filled]), available_filled]
  refine congrArg _ (eq_of_part?_eq (by rw [group_fillAll, group_filled, group_filled]) ?_)
  intro index
  simp only [part?_fillAll_partsIn, part?_filled, PartSet.contains_union, PartSet.contains_diff]
  cases s.contains index <;> cases t.contains index <;> cases known.contains index <;> rfl

/-- What a message holds that makes up and exchanges parts is determined by which parts it holds. -/
theorem Sampled.eq_filled (sampled : Sampled group m) : m = .filled group m.available := by
  induction sampled with
  | filled s => rw [available_filled]
  | fillParts before s ih =>
    rw [ih, fillParts_filled, available_filled]
  | @extend m giver after known data before source wire taken ih source_ih =>
    rw [source_ih] at wire
    rw [ih, extend_filled wire] at taken
    rw [← Except.ok.inj taken, available_filled]

/-- **Reproducible content is the same wherever it comes from.**  Making up the parts of a set leaves
the slots that are held and those outside the set as they were, and gives each other slot the content
that its place says.  The order in which sets are made up makes no difference.  And however messages
of a group make up parts and take in what others give, which is never refused, each is the message
with reproducible content in the slots that it holds. -/
theorem samples_agree (group : GroupId) :
    (∀ (m : Message) (s : PartSet), m.group = group →
      (m.fillParts s).group = group ∧ ∀ index,
        (∀ part, m.part? index = some part → (m.fillParts s).part? index = some part) ∧
        (m.part? index = none → s.contains index = false →
          (m.fillParts s).part? index = none) ∧
        (m.part? index = none → s.contains index = true →
          ∃ part, (m.fillParts s).part? index = some part ∧ IsSample group index part)) ∧
      (∀ s t : PartSet,
        ((new group).fillParts s).fillParts t = .filled group (s.union t) ∧
        ((new group).fillParts t).fillParts s = .filled group (s.union t)) ∧
      (∀ m, Sampled group m → m = .filled group m.available) ∧
      ∀ m giver known data, Sampled group m → Sampled group giver →
        (giver.payloadFor known).wire = some data →
          m.extend data = .ok (.filled group (m.available.union (giver.available.diff known))) := by
  refine ⟨?_, ?_, fun m => Sampled.eq_filled, ?_⟩
  · rintro m s rfl
    refine ⟨group_fillParts m s, ?_⟩
    intro index
    rw [part?_fillParts]
    refine ⟨?_, ?_, ?_⟩
    · intro part held
      rw [held, Option.some_or]
    · intro vacant outside
      rw [vacant, outside]
      rfl
    · intro vacant inside
      rw [vacant, inside]
      exact ⟨_, rfl, isSample_sampleContent m.group index⟩
  · intro s t
    have swap : s.union t = t.union s := by
      apply PartSet.eq_of_contains_eq
      intro index
      rw [PartSet.contains_union, PartSet.contains_union, Bool.or_comm]
    refine ⟨fillParts_filled s t, ?_⟩
    rw [swap]
    exact fillParts_filled t s
  · intro m giver known data sampled source wire
    rw [source.eq_filled] at wire
    rw [sampled.eq_filled, extend_filled wire, available_filled]

/-- A message of the last group takes in the second part from another as it makes it up itself: the
count has started again from zero, and the part begins with the number 127. -/
theorem taken_sample_wraps :
    let group := GroupId.ofUInt64 0xffffffffffffffff
    ∃ data part, ((Message.filled group ⟨0x02⟩).payloadFor ⟨0x01⟩).wire = some data ∧
      (Message.filled group ⟨0x01⟩).extend data = .ok (.filled group ⟨0x03⟩) ∧
      ((Message.filled group ⟨0x01⟩).fillParts ⟨0x02⟩).part? 1 = some part ∧
      part.bytes[7]? = some 127 := by
  intro group
  obtain ⟨slots, -, -, exchange⟩ := samples_agree group
  have first : Sampled group (.filled group ⟨0x01⟩) := .filled ⟨0x01⟩
  have second : Sampled group (.filled group ⟨0x02⟩) := .filled ⟨0x02⟩
  obtain ⟨-, slot⟩ := slots (.filled group ⟨0x01⟩) ⟨0x02⟩ (group_filled _ _)
  obtain ⟨part, held, size, content⟩ := (slot 1).2.2 (by rw [part?_filled]; rfl) rfl
  obtain ⟨data, wire⟩ :
      ∃ data, ((Message.filled group ⟨0x02⟩).payloadFor ⟨0x01⟩).wire = some data := by
    rw [← Option.isSome_iff_exists, Option.isSome_iff_ne_none, ne_eq, wire_eq_none_iff,
      available_filled]
    decide
  refine ⟨data, part, wire, ?_, held, ?_⟩
  · rw [exchange _ _ _ _ first second wire, available_filled, available_filled]
    rfl
  · have number : group.toUInt64.toNat = 0xffffffffffffffff := by
      rw [GroupId.toUInt64_ofUInt64]
      rfl
    rw [content 7 (by decide), number]
    rfl

end PartExchange.Message
