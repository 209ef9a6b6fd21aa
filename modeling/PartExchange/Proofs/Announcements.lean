/-
**Announcements of any length are merged byte by byte.**

Two announcements are merged by laying the shorter over the longer.  Which of them is the base depends
on their lengths, and with three announcements the two ways of bracketing them begin with different
bases.  All this is invisible in the result: what stands at a place of it is made of what stands at
that place of the announcements, and of nothing else.  So merging takes after the union of sets of
parts, with the empty announcement as the empty set.

Main results:

* `getElem?_mergeMetadata`: the bytes of a merged announcement;
* `merging_is_a_join`: merging is commutative, associative and idempotent.
-/

import PartExchange.PartSet

set_option relaxedAutoImplicit false
set_option autoImplicit false

namespace PartExchange

/-! ### One announcement over another -/

variable {base top : Bytes}

theorem length_overlay (fits : top.length ≤ base.length) :
    (overlay base top).length = base.length := by
  rw [overlay, List.length_append, List.length_zipWith, List.length_drop]
  omega

/-- Where both have a byte, the bits of either are set; the rest of the longer is kept. -/
theorem getElem?_overlay (fits : top.length ≤ base.length) (i : Nat) :
    (overlay base top)[i]? = Option.merge (· ||| ·) base[i]? top[i]? := by
  have both : (List.zipWith (· ||| ·) base top).length = top.length := by
    rw [List.length_zipWith]
    omega
  rcases Nat.lt_or_ge i top.length with inside | beyond
  · rw [overlay, List.getElem?_append_left (by omega), List.getElem?_zipWith,
      List.getElem?_eq_getElem inside, List.getElem?_eq_getElem (by omega)]
    rfl
  · rw [overlay, List.getElem?_append_right (by omega), both, List.getElem?_drop,
      Nat.add_sub_cancel' beyond, List.getElem?_eq_none beyond, Option.merge_none_right]

/-! ### Merging -/

theorem length_mergeMetadata (a b : Bytes) :
    (mergeMetadata a b).length = max a.length b.length := by
  rw [mergeMetadata]
  split
  · rw [length_overlay (by omega)]
    omega
  · rw [length_overlay (by omega)]
    omega

/-- A byte of a merged announcement has the bits of the bytes at its place. -/
theorem getElem?_mergeMetadata (a b : Bytes) (i : Nat) :
    (mergeMetadata a b)[i]? = Option.merge (· ||| ·) a[i]? b[i]? := by
  rw [mergeMetadata]
  split
  · -- The base is the second one, and its bytes come first.
    rw [getElem?_overlay (by omega)]
    exact Std.Commutative.comm _ _
  · exact getElem?_overlay (by omega) i

/-- **Merging announcements of any length is a join.**  The result is as long as the longer of the
two, and each byte of it has the bits of those that stand at its place.  The order and the bracketing
of what is merged make no difference, nor does repetition, and the empty announcement adds nothing.
Of announcements of one byte, the result announces the union of their sets. -/
theorem merging_is_a_join (a b c : Bytes) :
    (mergeMetadata a b).length = max a.length b.length ∧
      (∀ i : Nat, (mergeMetadata a b)[i]? = Option.merge (· ||| ·) a[i]? b[i]?) ∧
      mergeMetadata a b = mergeMetadata b a ∧
      mergeMetadata (mergeMetadata a b) c = mergeMetadata a (mergeMetadata b c) ∧
      mergeMetadata a a = a ∧
      mergeMetadata a [] = a ∧ mergeMetadata [] a = a ∧
      ∀ x y : UInt8, mergeMetadata [x] [y] = (PartSet.union ⟨x⟩ ⟨y⟩).metadata := by
  refine ⟨length_mergeMetadata a b, getElem?_mergeMetadata a b, ?_, ?_, ?_, ?_, ?_, ?_⟩
  · apply List.ext_getElem?
    intro i
    rw [getElem?_mergeMetadata, getElem?_mergeMetadata]
    exact Std.Commutative.comm _ _
  · apply List.ext_getElem?
    intro i
    simp only [getElem?_mergeMetadata]
    exact Std.Associative.assoc _ _ _
  · apply List.ext_getElem?
    intro i
    rw [getElem?_mergeMetadata]
    exact Std.IdempotentOp.idempotent _
  · apply List.ext_getElem?
    intro i
    rw [getElem?_mergeMetadata, List.getElem?_nil, Option.merge_none_right]
  · apply List.ext_getElem?
    intro i
    rw [getElem?_mergeMetadata, List.getElem?_nil, Option.merge_none_left]
  · intro x y
    rfl

end PartExchange
