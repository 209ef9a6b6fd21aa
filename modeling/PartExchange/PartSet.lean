/-
**Sets of parts.**

A message is cut into eight parts, numbered from zero.  A set of parts is one byte: bit `i` is set
exactly when part `i` belongs to the set.  The same byte is the "parts metadata" that a peer sends
to announce what it holds.

Main definitions:
* `PartSet`: a set of part numbers below `partCount`;
* `PartSet.indices`: its members in ascending order;
* `PartSet.ofMetadata?`, `PartSet.metadata`: the announcement that carries a set;
* `mergeMetadata`: the bytewise union of two announcements of any length.

Main results:
* `contains_union`, `contains_inter`, `contains_compl`, `contains_diff`: each operation through the
  members;
* `mem_indices`: the listed indices are the members.
-/

import PartExchange.Bytes

set_option relaxedAutoImplicit false
set_option autoImplicit false

namespace PartExchange

/-- The number of parts of a message. -/
def partCount : Nat := 8

/-- A set of part numbers, one bit for each of the eight parts. -/
structure PartSet where
  /-- The byte whose bit `i` says whether part `i` is a member. -/
  bits : UInt8
  deriving DecidableEq, Repr, Inhabited

namespace PartSet

/-- The set without members. -/
def empty : PartSet := ⟨0⟩

/-- The set of all eight parts. -/
def full : PartSet := ⟨0xff⟩

/-- The set of one part; empty if there is no part of that number. -/
def single (index : Nat) : PartSet :=
  if index < partCount then ⟨UInt8.ofNat (1 <<< index)⟩ else empty

/-- Whether part `index` is a member. -/
def contains (s : PartSet) (index : Nat) : Bool :=
  s.bits.toNat.testBit index

/-- The members of either set. -/
def union (s t : PartSet) : PartSet := ⟨s.bits ||| t.bits⟩

/-- The members of both sets. -/
def inter (s t : PartSet) : PartSet := ⟨s.bits &&& t.bits⟩

/-- The parts that are no members. -/
def compl (s : PartSet) : PartSet := ⟨~~~s.bits⟩

/-- The members of the first set that are not in the second. -/
def diff (s t : PartSet) : PartSet := ⟨s.bits &&& ~~~t.bits⟩

/-- Whether the set has no members. -/
def isEmpty (s : PartSet) : Bool := s.bits == 0

/-- Whether the set has every part as a member. -/
def isFull (s : PartSet) : Bool := s.bits == 0xff

/-- The members in ascending order. -/
def indices (s : PartSet) : List Nat :=
  (List.range partCount).filter s.contains

/-- The number of members. -/
def count (s : PartSet) : Nat := s.indices.length

/-! ### Members -/

/-- No part of number eight or above is ever a member. -/
theorem lt_of_contains {s : PartSet} {index : Nat} (h : s.contains index = true) :
    index < partCount := by
  apply Decidable.byContradiction
  intro large
  have bound : s.bits.toNat < 2 ^ index :=
    Nat.lt_of_lt_of_le s.bits.toNat_lt
      (Nat.pow_le_pow_right (by decide) (by simpa [partCount] using large))
  simp [contains, Nat.testBit_lt_two_pow bound] at h

@[simp] theorem contains_empty (index : Nat) : empty.contains index = false := by
  simp [contains, empty]

@[simp] theorem contains_union (s t : PartSet) (index : Nat) :
    (s.union t).contains index = (s.contains index || t.contains index) := by
  simp [contains, union, Nat.testBit_or]

@[simp] theorem contains_inter (s t : PartSet) (index : Nat) :
    (s.inter t).contains index = (s.contains index && t.contains index) := by
  simp [contains, inter, Nat.testBit_and]

@[simp] theorem contains_compl (s : PartSet) (index : Nat) :
    s.compl.contains index = (decide (index < partCount) && !s.contains index) := by
  have bound : s.bits.toNat < 2 ^ 8 := s.bits.toNat_lt
  have value : (~~~s.bits).toNat = 2 ^ 8 - (s.bits.toNat + 1) := by
    rw [UInt8.toNat_not]
    simp only [UInt8.size]
    omega
  show Nat.testBit (~~~s.bits).toNat index = _
  rw [value, Nat.testBit_two_pow_sub_succ bound]
  rfl

@[simp] theorem contains_diff (s t : PartSet) (index : Nat) :
    (s.diff t).contains index = (s.contains index && !t.contains index) := by
  have split : s.diff t = s.inter t.compl := rfl
  rw [split, contains_inter, contains_compl]
  cases h : s.contains index with
  | false => rfl
  | true => simp [lt_of_contains h]

/-- The listed indices are the members. -/
@[simp] theorem mem_indices {s : PartSet} {index : Nat} :
    index ∈ s.indices ↔ s.contains index = true := by
  simp only [indices, List.mem_filter, List.mem_range]
  exact ⟨And.right, fun h => ⟨lt_of_contains h, h⟩⟩

/-! ### Announcements -/

/-- The announcement that carries a set: its byte alone. -/
def metadata (s : PartSet) : Bytes := [s.bits]

/-- The set that an announcement carries.  Only a single byte is one. -/
def ofMetadata? : Bytes → Option PartSet
  | [bits] => some ⟨bits⟩
  | _ => none

@[simp] theorem ofMetadata?_metadata (s : PartSet) : ofMetadata? s.metadata = some s := rfl

/-! ### Text -/

/-- Two hexadecimal digits after `0x`. -/
def display (s : PartSet) : String :=
  "0x" ++ String.ofList ((Nat.toDigits 16 (256 + s.bits.toNat)).drop 1)

/-- The eight bits, highest part first, with the type's name around them. -/
def debug (s : PartSet) : String :=
  "PartsBitmap(0b" ++ String.ofList ((Nat.toDigits 2 (256 + s.bits.toNat)).drop 1) ++ ")"

end PartSet

/-- A byte string with another laid over its beginning: where both have a byte, the result has the
bits of either. -/
def overlay (base top : Bytes) : Bytes :=
  List.zipWith (· ||| ·) base top ++ base.drop top.length

/-- The bytewise union of two announcements: the longer one with the other laid over it. -/
def mergeMetadata (left right : Bytes) : Bytes :=
  if left.length < right.length then overlay right left else overlay left right

end PartExchange
