/-
**Groups in the order of their numbers.**

A group is stored, sent and compared as eight bytes, and shown as a number.  The two views agree in
everything: each number is spelled by exactly one identifier, and the dictionary order of the
identifiers is the order of the numbers.

The order agrees because the most significant byte comes first.  While two byte strings are read from
the left, what has been read of one comes before what has been read of the other exactly if the
numbers read so far do, and a further byte decides only where there was no difference before.  This
is the invariant of `Bytes.compare_foldl`.  It needs strings of the same size: otherwise a shorter
string could come later and spell less.

Main results:

* `Bytes.compare_eq_compare_value`: byte strings of one size are in the order of their numbers;
* `GroupId.ofUInt64_toUInt64`: an identifier is the one that spells its number;
* `GroupId.compare_eq_compare_toUInt64`: identifiers are in the order of their numbers;
* `GroupId.ordered_as_numbers`: the correspondence, and what the reader of fragments makes of it.
-/

import PartExchange.Proofs.Digits
import PartExchange.Proofs.Grammar
import PartExchange.Proofs.PeerOrder

set_option relaxedAutoImplicit false
set_option autoImplicit false

namespace PartExchange

/-! ### Byte strings of one size -/

namespace Bytes

/-- One more digit decides between two numbers only if they have been equal before. -/
theorem compare_digit (m n : Nat) (x y : UInt8) :
    Ord.compare (m * 256 + x.toNat) (n * 256 + y.toNat) =
      (Ord.compare m n).then (Ord.compare x y) := by
  have xSmall := x.toNat_lt
  have ySmall := y.toNat_lt
  cases order : Ord.compare m n with
  | lt =>
    have less := Nat.compare_eq_lt.1 order
    exact Nat.compare_eq_lt.2 (by omega)
  | eq =>
    obtain rfl := Nat.compare_eq_eq.1 order
    rw [Ordering.eq_then, UInt8.compare_eq_toNat_compare_toNat, Nat.compare_eq_ite_lt,
      Nat.compare_eq_ite_lt]
    simp only [Nat.add_lt_add_iff_left]
  | gt =>
    have more := Nat.compare_eq_gt.1 order
    exact Nat.compare_eq_gt.2 (by omega)

/-- Reading on from two numbers: these decide, and the strings that are read only if the numbers are
equal. -/
theorem compare_foldl {a b : Bytes} (size : a.length = b.length) (m n : Nat) :
    Ord.compare (a.foldl (fun n byte => n * 256 + byte.toNat) m)
        (b.foldl (fun n byte => n * 256 + byte.toNat) n) =
      (Ord.compare m n).then (compare a b) := by
  -- Each byte goes into the numbers, and so the induction is for every two of them.
  induction a generalizing b m n with
  | nil =>
    obtain rfl : b = [] := List.length_eq_zero_iff.1 size.symm
    rw [compare_self, Ordering.then_eq]
    rfl
  | cons x a ih =>
    obtain ⟨y, b, rfl⟩ := List.exists_cons_of_length_eq_add_one size.symm
    calc
      _ = (Ord.compare (m * 256 + x.toNat) (n * 256 + y.toNat)).then (compare a b) :=
        ih (Nat.succ.inj size) _ _
      _ = (Ord.compare m n).then ((Ord.compare x y).then (compare a b)) := by
        rw [compare_digit, Ordering.then_assoc]
      _ = (Ord.compare m n).then (compare (x :: a) (y :: b)) := by
        rw [compare_cons_cons]

/-- Byte strings of the same size are in the order of the numbers that they spell. -/
theorem compare_eq_compare_value {a b : Bytes} (size : a.length = b.length) :
    compare a b = Ord.compare a.value b.value :=
  (compare_foldl size 0 0).symm

/-- Byte strings of the same size that spell the same number are the same. -/
theorem value_inj {a b : Bytes} (size : a.length = b.length) : a.value = b.value ↔ a = b := by
  constructor
  · intro same
    have order : compare a b = .eq := by
      rw [compare_eq_compare_value size, same, Nat.compare_eq_eq]
    exact Std.LawfulEqCmp.eq_of_compare order
  · exact congrArg value

end Bytes

/-! ### Identifiers -/

namespace GroupId

/-- An identifier is the one that spells its number. -/
@[simp] theorem ofUInt64_toUInt64 (group : GroupId) : ofUInt64 group.toUInt64 = group := by
  have size : (ofUInt64 group.toUInt64).bytes.length = group.bytes.length := by
    rw [length_bytes, length_bytes]
  have number : (ofUInt64 group.toUInt64).bytes.value = group.bytes.value := by
    rw [← toNat_toUInt64, ← toNat_toUInt64, toUInt64_ofUInt64]
  exact GroupId.ext ((Bytes.value_inj size).1 number)

theorem ofUInt64_inj {x y : UInt64} : ofUInt64 x = ofUInt64 y ↔ x = y :=
  (Function.LeftInverse.injective toUInt64_ofUInt64).eq_iff

/-- Identifiers are in the order of their numbers. -/
theorem compare_eq_compare_toUInt64 (g h : GroupId) :
    compare g h = Ord.compare g.toUInt64 h.toUInt64 := by
  have size : g.bytes.length = h.bytes.length := by
    rw [length_bytes, length_bytes]
  rw [compare, Bytes.compare_eq_compare_value size, UInt64.compare_eq_toNat_compare_toNat,
    toNat_toUInt64, toNat_toUInt64]

/-- The first byte that differs decides, although the last one has fallen from 255 to 0. -/
example : compare (ofUInt64 255) (ofUInt64 256) = .lt := by decide

/-- **Identifiers are the 64-bit numbers, in the same order.**  Each number is that of the identifier
which spells it, each identifier spells its number, and two identifiers compare as their numbers do.
So a buffer that ends in the identifier of `x` passes for one of the group `y` if and only if the two
numbers are the same: only then does it end in the bytes that are looked for, it is refused as
belonging to another group if and only if the numbers differ and there is something in front of the
identifier, and it is accepted if and only if they are the same and the size is right. -/
theorem ordered_as_numbers :
    (∀ word : UInt64, (ofUInt64 word).toUInt64 = word) ∧
    (∀ group : GroupId, ofUInt64 group.toUInt64 = group) ∧
    (∀ g h : GroupId, compare g h = Ord.compare g.toUInt64 h.toUInt64) ∧
    ∀ (x y : UInt64) (front : Bytes),
      (Fragment.trailer (front ++ (ofUInt64 x).bytes) = (ofUInt64 y).bytes ↔ x = y) ∧
      (∀ received, Fragment.decode (front ++ (ofUInt64 x).bytes) (ofUInt64 y) =
          .error (.groupMismatch (ofUInt64 y) received) ↔
        front ≠ [] ∧ x ≠ y ∧ received = (ofUInt64 x).bytes) ∧
      ((∃ fragment, Fragment.decode (front ++ (ofUInt64 x).bytes) (ofUInt64 y) = .ok fragment) ↔
        x = y ∧ (front ++ (ofUInt64 x).bytes).length =
          fragmentLength (Fragment.named (front ++ (ofUInt64 x).bytes))) := by
  refine ⟨toUInt64_ofUInt64, ofUInt64_toUInt64, compare_eq_compare_toUInt64, ?_⟩
  intro x y front
  have same : Fragment.trailer (front ++ (ofUInt64 x).bytes) = (ofUInt64 y).bytes ↔ x = y := by
    rw [Fragment.trailer_append, ← GroupId.ext_iff, ofUInt64_inj]
  refine ⟨same, ?_, ?_⟩
  · intro received
    simp only [Fragment.decode_eq_mismatch_iff, ne_eq, ofUInt64_inj]
  · rw [Fragment.decode_eq_ok_iff]
    constructor
    · exact fun good => ⟨same.1 good.trailer, good.length⟩
    · exact fun ⟨equal, size⟩ => ⟨size, same.2 equal⟩

end GroupId

end PartExchange
