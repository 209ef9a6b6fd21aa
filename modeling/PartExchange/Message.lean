/-
**Messages held in part.**

A message is a group with eight slots.  A slot is empty or holds a part, and a slot that holds a
part never changes again; so fragments may arrive in any order and any number of times.

Main definitions:
* `Message`: the parts of one group that are held;
* `Message.available`, `Message.missing`: which parts those are;
* `Message.extend`: the message after a fragment, all of it or nothing;
* `Message.payloadFor`: the fragment for a peer that holds a given set of parts;
* `Message.filled`: a message with reproducible content.

Main results:
* `part?_fill`: filling a slot writes it only if it was empty, and touches no other slot;
* `contains_available`: the available set names the slots that hold a part.
-/

import PartExchange.Fragment

set_option relaxedAutoImplicit false
set_option autoImplicit false

namespace PartExchange

namespace PartSet

/-- The set of the listed parts. -/
def ofIndices (indices : List Nat) : PartSet :=
  indices.foldl (fun s index => s.union (.single index)) .empty

theorem contains_single (index other : Nat) :
    (single index).contains other = (decide (index < partCount) && decide (other = index)) := by
  rw [single, Nat.one_shiftLeft]
  split
  · rename_i small
    have bound : 2 ^ index < 2 ^ 8 := Nat.pow_lt_pow_right (by decide) small
    have value : (UInt8.ofNat (2 ^ index)).toNat = 2 ^ index := by
      rw [UInt8.toNat_ofNat']; exact Nat.mod_eq_of_lt bound
    simp only [contains, value, Nat.testBit_two_pow, small, decide_true, Bool.true_and]
    exact decide_eq_decide.2 eq_comm
  · rename_i large
    simp [large]

theorem contains_foldl_union (indices : List Nat) (s : PartSet) (other : Nat) :
    (indices.foldl (fun s index => s.union (.single index)) s).contains other =
      (s.contains other || (decide (other < partCount) && decide (other ∈ indices))) := by
  induction indices generalizing s with
  | nil => simp
  | cons index rest ih =>
    rw [List.foldl_cons, ih, contains_union, contains_single]
    by_cases same : other = index
    · subst same; cases s.contains other <;> cases decide (other < partCount) <;> simp
    · simp [same]

@[simp] theorem contains_ofIndices (indices : List Nat) (other : Nat) :
    (ofIndices indices).contains other =
      (decide (other < partCount) && decide (other ∈ indices)) := by
  simp [ofIndices, contains_foldl_union]

end PartSet

/-- The parts of one group that are held. -/
structure Message where
  /-- The group. -/
  group : GroupId
  /-- One slot for each part. -/
  slots : Vector (Option Part) partCount
  deriving DecidableEq

/-- What is sent to a peer, and what it lacks besides. -/
structure Payload where
  /-- The buffer, if there is anything to send. -/
  wire : Option Bytes
  /-- The parts that the buffer carries. -/
  included : PartSet
  /-- The parts that neither the peer nor the sender holds. -/
  remaining : PartSet
  deriving DecidableEq

namespace Message

/-- The message that holds nothing of a group. -/
def new (group : GroupId) : Message := ⟨group, Vector.replicate partCount none⟩

/-- The part in slot `index`, if there is such a slot and it holds one. -/
def part? (m : Message) (index : Nat) : Option Part := m.slots[index]?.join

@[simp] theorem part?_new (group : GroupId) (index : Nat) : (new group).part? index = none := by
  simp only [new, part?, Vector.getElem?_replicate]
  split <;> rfl

/-- The parts that are held. -/
def available (m : Message) : PartSet :=
  .ofIndices ((List.range partCount).filter fun index => (m.part? index).isSome)

/-- The parts that are not held. -/
def missing (m : Message) : PartSet := m.available.compl

/-- Whether every part is held. -/
def isComplete (m : Message) : Bool := m.available.isFull

/-- No slot of number eight or above holds a part. -/
theorem lt_of_isSome_part? {m : Message} {index : Nat} (h : (m.part? index).isSome = true) :
    index < partCount := by
  apply Decidable.byContradiction
  intro large
  have outside : m.slots[index]? = none := Vector.getElem?_eq_none (by omega)
  simp [part?, outside] at h

/-- The available set names the slots that hold a part. -/
@[simp] theorem contains_available (m : Message) (index : Nat) :
    m.available.contains index = (m.part? index).isSome := by
  rw [available, PartSet.contains_ofIndices]
  cases held : (m.part? index).isSome with
  | false => simp [held]
  | true => simp [held, lt_of_isSome_part? held]

/-! ### Taking parts in -/

/-- Writes a part into its slot if the slot is empty; a slot that holds a part keeps it. -/
def fill (m : Message) (index : Nat) (part : Part) : Message :=
  match m.part? index with
  | some _ => m
  | none => { m with slots := m.slots.setIfInBounds index (some part) }

@[simp] theorem group_fill (m : Message) (index : Nat) (part : Part) :
    (m.fill index part).group = m.group := by
  unfold fill; split <;> rfl

/-- Filling a slot writes it only if it was empty, and touches no other slot. -/
theorem part?_fill (m : Message) (index other : Nat) (part : Part) :
    (m.fill index part).part? other =
      if other = index ∧ index < partCount then some ((m.part? index).getD part)
      else m.part? other := by
  unfold fill
  split
  · rename_i held eq
    have small : index < partCount :=
      lt_of_isSome_part? (show (m.part? index).isSome by simp [eq])
    by_cases same : other = index
    · subst same; simp [eq, small]
    · simp [same]
  · rename_i eq
    by_cases same : other = index
    · subst same
      by_cases small : other < partCount
      · simp only [part?, Vector.getElem?_setIfInBounds_self, small, and_self, if_true] at eq ⊢
        simp [eq]
      · simp [part?, small]
    · simp only [part?, Vector.getElem?_setIfInBounds]
      simp [same, Ne.symm same]

/-- Takes in the parts of a fragment.  The whole buffer is checked first, so a refusal leaves
nothing behind; slots that hold a part already keep it. -/
def extend (m : Message) (data : Bytes) : Except PartError Message :=
  match Fragment.decode data m.group with
  | .error refusal => .error refusal
  | .ok fragment => .ok (fragment.parts.foldl (fun m entry => m.fill entry.1 entry.2) m)

/-! ### Giving parts out -/

/-- The parts of a set that are held, with their numbers, in ascending order. -/
def entries (m : Message) (s : PartSet) : List (Nat × Bytes) :=
  s.indices.filterMap fun index => (m.part? index).map fun part => (index, part.bytes)

/-- The fragment for a peer that holds `peer`: what is held here and not there. -/
def payloadFor (m : Message) (peer : PartSet) : Payload :=
  let requested := peer.compl
  let included := m.available.inter requested
  { wire := Fragment.encode m.group (m.entries included)
    included
    remaining := requested.diff included }

/-- The fragment for a peer that sent this announcement. -/
def payloadForMetadata (m : Message) (metadata : Bytes) : Except PartError Payload :=
  (PartSet.ofMetadata metadata).map m.payloadFor

/-- Whether a peer that holds `peer` has a part that is missing here. -/
def shouldRequest (m : Message) (peer : PartSet) : Bool :=
  !(m.missing.inter peer).isEmpty

/-! ### Reproducible content -/

/-- The 64-bit numbers from `start` on, `count` of them, eight bytes each; they wrap around. -/
def counterBytes : (count : Nat) → (start : UInt64) → Bytes
  | 0, _ => []
  | count + 1, start => Bytes.ofUInt64 start ++ counterBytes count (start + 1)

@[simp] theorem length_counterBytes (count : Nat) (start : UInt64) :
    (counterBytes count start).length = count * 8 := by
  induction count generalizing start with
  | zero => rfl
  | succ count ih => simp only [counterBytes, List.length_append, ih, Bytes.length_ofUInt64]; omega

/-- The part that counts upwards from `start`. -/
def counterPart (start : UInt64) : Part := ⟨counterBytes 128 start, length_counterBytes 128 start⟩

/-- Fills the empty slots of a set with content that depends only on the group and the slot: the
group's number starts a count that runs through the eight parts, 128 numbers to a part. -/
def fillParts (m : Message) (s : PartSet) : Message :=
  s.indices.foldl
    (fun filling index =>
      filling.fill index (counterPart (m.group.toUInt64 + UInt64.ofNat index * 128)))
    m

/-- The message of a group that holds reproducible content in the slots of a set. -/
def filled (group : GroupId) (s : PartSet) : Message := (new group).fillParts s

/-! ### Text -/

/-- The group and the parts held, in the order of the fields. -/
def debug (m : Message) : String :=
  "PartialMessage \x7b group_id: " ++ m.group.debug ++ ", available: " ++ m.available.debug ++
    " \x7d"

end Message

end PartExchange
