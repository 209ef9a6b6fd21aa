/-
**The order of peers.**

Byte strings are compared like words in a dictionary, with bytes for letters, and peers are compared
by their bytes.  This is a linear order: two peers of which neither comes first are the same peer.  So
peers that are listed in ascending order without repetition are listed in strictly ascending order,
and there is only one such list.

Main results:

* `Bytes.compare_cons_cons`, `Bytes.compare_eq_compareLex`: the order of byte strings is the
  lexicographic one;
* `PeerId.pairwise_sort`: sorting gives an ascending list;
* `PeerId.ascending_sort`: a strictly ascending one, if no peer is repeated.
-/

import PartExchange.Peer

set_option relaxedAutoImplicit false
set_option autoImplicit false

namespace PartExchange

/-! ### Byte strings -/

namespace Bytes

/-- The first bytes decide, and the rest only if they are equal. -/
theorem compare_cons_cons (x y : UInt8) (a b : Bytes) :
    compare (x :: a) (y :: b) = (Ord.compare x y).then (compare a b) := by
  rw [compare]
  cases order : Ord.compare x y with
  | lt =>
    rw [if_pos (Std.compare_eq_lt.1 order)]
    rfl
  | eq =>
    obtain rfl := Std.LawfulEqCmp.eq_of_compare order
    rw [if_neg (UInt8.lt_irrefl x), if_neg (UInt8.lt_irrefl x)]
    rfl
  | gt =>
    have more : y < x := Std.compare_eq_gt.1 order
    rw [if_neg (UInt8.lt_asymm more), if_pos more]
    rfl

/-- Byte strings are compared lexicographically. -/
theorem compare_eq_compareLex (a b : Bytes) : compare a b = List.compareLex Ord.compare a b := by
  induction a generalizing b with
  | nil => cases b <;> rfl
  | cons x a ih =>
    cases b with
    | nil => rfl
    | cons y b => rw [compare_cons_cons, List.compareLex_cons_cons, ih b]

instance : Std.TransCmp compare where
  eq_swap {a b} := by
    rw [compare_eq_compareLex, compare_eq_compareLex]
    exact Std.OrientedCmp.eq_swap
  isLE_trans {a b c} first second := by
    rw [compare_eq_compareLex] at first second ⊢
    exact Std.TransCmp.isLE_trans first second

instance : Std.LawfulEqCmp compare where
  compare_self {a} := compare_self a
  eq_of_compare {a b} same := by
    rw [compare_eq_compareLex] at same
    exact Std.LawfulEqCmp.eq_of_compare same

end Bytes

/-! ### Peers -/

namespace PeerId

@[simp] theorem compare_self (p : PeerId) : compare p p = .eq := Bytes.compare_self p.bytes

instance : Std.TransCmp compare where
  eq_swap {p q} := @Std.OrientedCmp.eq_swap _ Bytes.compare _ p.bytes q.bytes
  isLE_trans {p q r} := @Std.TransCmp.isLE_trans _ Bytes.compare _ p.bytes q.bytes r.bytes

instance : Std.LawfulEqCmp compare where
  compare_self {p} := compare_self p
  eq_of_compare {_ _} same := PeerId.ext (Std.LawfulEqCmp.eq_of_compare same)

/-- Sorting gives an ascending list. -/
theorem pairwise_sort (peers : List PeerId) :
    (sort peers).Pairwise fun p q => (compare p q).isLE = true := by
  refine List.pairwise_mergeSort (fun p q r => Std.TransCmp.isLE_trans) ?_ peers
  intro p q
  rw [Bool.or_eq_true]
  cases order : compare p q with
  | lt | eq => exact Or.inl rfl
  | gt =>
    rw [Std.OrientedCmp.gt_iff_lt] at order
    exact Or.inr (by rw [order]; rfl)

theorem nodup_sort {peers : List PeerId} (distinct : peers.Nodup) : (sort peers).Nodup :=
  (List.mergeSort_perm peers _).nodup_iff.2 distinct

/-- Sorting peers of which none is repeated gives a strictly ascending list. -/
theorem ascending_sort {peers : List PeerId} (distinct : peers.Nodup) :
    (sort peers).Pairwise fun p q => compare p q = .lt := by
  refine ((pairwise_sort peers).and (nodup_sort distinct)).imp ?_
  rintro p q ⟨ordered, differ⟩
  cases order : compare p q with
  | lt => rfl
  | eq => exact absurd (Std.LawfulEqCmp.eq_of_compare order) differ
  | gt =>
    rw [order] at ordered
    cases ordered

end PeerId

end PartExchange
