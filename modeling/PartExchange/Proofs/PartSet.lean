/-
**The order of sets of parts.**

One set of parts lies below another when every member of the first is a member of the second.  Sets
with the same members are equal, because a set is nothing but its byte.  What a participant knows
only ever grows along this order, and since there are eight parts it can grow only eight times;
`lacking` measures how far it still has to go.

Main definitions:

* the partial order on `PartSet`: inclusion of members;
* `PartSet.lacking`: how many parts a set lacks.

Main results:

* `PartSet.eq_of_contains_eq`: a set is determined by its members;
* `PartSet.lacking_strictAnti`: a set that lies strictly below another lacks more parts;
* `PartSet.indices_ofIndices`: an ascending list of part numbers lists the members of its set.
-/

import PartExchange.Message
import Mathlib.Order.Basic
import Mathlib.Order.Monotone.Basic
import Mathlib.Data.List.Basic

set_option relaxedAutoImplicit false
set_option autoImplicit false

namespace PartExchange.PartSet

/-! ### Inclusion -/

/-- A set is determined by its members. -/
theorem eq_of_contains_eq {s t : PartSet}
    (same : ∀ index, s.contains index = t.contains index) : s = t := by
  have bits : s.bits.toNat = t.bits.toNat := Nat.eq_of_testBit_eq same
  cases s
  cases t
  exact congrArg PartSet.mk (UInt8.toNat_inj.1 bits)

/-- Sets are ordered by inclusion. -/
instance : PartialOrder PartSet where
  le s t := ∀ index, s.contains index = true → t.contains index = true
  le_refl _ _ h := h
  le_trans _ _ _ first second index h := second index (first index h)
  le_antisymm s t first second := by
    apply eq_of_contains_eq
    intro index
    rw [Bool.eq_iff_iff]
    exact ⟨first index, second index⟩

theorem le_def {s t : PartSet} :
    s ≤ t ↔ ∀ index, s.contains index = true → t.contains index = true := Iff.rfl

instance (s t : PartSet) : Decidable (s ≤ t) :=
  decidable_of_iff (∀ index ∈ s.indices, t.contains index = true) (by
    simp only [mem_indices, le_def])

theorem empty_le (s : PartSet) : empty ≤ s := by
  intro index h
  simp at h

@[simp] theorem contains_full (index : Nat) : full.contains index = decide (index < partCount) := by
  have complement : full = empty.compl := rfl
  rw [complement, contains_compl, contains_empty, Bool.not_false, Bool.and_true]

theorem le_full (s : PartSet) : s ≤ full := by
  intro index h
  simpa using lt_of_contains h

theorem le_union_left (s t : PartSet) : s ≤ s.union t := by
  intro index h
  simp [h]

theorem le_union_right (s t : PartSet) : t ≤ s.union t := by
  intro index h
  simp [h]

theorem union_le {s t u : PartSet} (left : s ≤ u) (right : t ≤ u) : s.union t ≤ u := by
  intro index h
  rw [contains_union, Bool.or_eq_true] at h
  rcases h with h | h
  · exact left index h
  · exact right index h

/-- Adding parts that are members already changes nothing. -/
theorem union_eq_left {s t : PartSet} (known : t ≤ s) : s.union t = s :=
  le_antisymm (union_le (le_refl s) known) (le_union_left s t)

/-- A set to which has been added what it lacked of another lacks nothing of the other. -/
theorem le_union_diff (s t : PartSet) : t ≤ s.union (t.diff s) := by
  intro index h
  rw [contains_union, contains_diff, h]
  cases s.contains index <;> rfl

/-! ### Counting members -/

theorem count_le (s : PartSet) : s.count ≤ partCount := by
  have bound := List.length_filter_le s.contains (List.range partCount)
  simpa [count, indices] using bound

theorem indices_sublist {s t : PartSet} (below : s ≤ t) : s.indices.Sublist t.indices :=
  List.monotone_filter_right _ fun index h => below index h

theorem count_mono {s t : PartSet} (below : s ≤ t) : s.count ≤ t.count :=
  (indices_sublist below).length_le

/-- A set that lies strictly below another has fewer members. -/
theorem count_strictMono : StrictMono count := by
  intro s t less
  rcases Nat.lt_or_ge s.count t.count with fewer | large
  · exact fewer
  · have same : s.indices = t.indices := (indices_sublist less.le).eq_of_length_le large
    apply absurd _ less.ne
    apply eq_of_contains_eq
    intro index
    rw [Bool.eq_iff_iff, ← mem_indices, ← mem_indices, same]

/-- How many parts a set lacks. -/
def lacking (s : PartSet) : Nat := partCount - s.count

theorem lacking_anti {s t : PartSet} (below : s ≤ t) : t.lacking ≤ s.lacking :=
  Nat.sub_le_sub_left (count_mono below) partCount

/-- A set that lies strictly below another lacks more parts. -/
theorem lacking_strictAnti : StrictAnti lacking := by
  intro s t less
  have fewer := count_strictMono less
  have bound := count_le t
  rw [lacking, lacking]
  omega

/-- A set that lies below another and lacks as many parts is the same. -/
theorem eq_of_lacking_eq {s t : PartSet} (below : s ≤ t) (same : t.lacking = s.lacking) : s = t :=
  below.eq_of_not_lt fun less => (lacking_strictAnti less).ne same

theorem lacking_le (s : PartSet) : s.lacking ≤ partCount := Nat.sub_le _ _

/-! ### Listing members -/

/-- The members are listed in strictly ascending order. -/
theorem pairwise_indices (s : PartSet) : s.indices.Pairwise (· < ·) :=
  List.Pairwise.filter _ List.pairwise_lt_range

/-- A strictly ascending list of part numbers lists the members of the set that is made from it. -/
theorem indices_ofIndices {numbers : List Nat} (small : ∀ index ∈ numbers, index < partCount)
    (ascending : numbers.Pairwise (· < ·)) : (ofIndices numbers).indices = numbers := by
  have same : ∀ index, index ∈ (ofIndices numbers).indices ↔ index ∈ numbers := by
    intro index
    rw [mem_indices, contains_ofIndices, Bool.and_eq_true, decide_eq_true_eq, decide_eq_true_eq]
    constructor
    · intro both
      exact both.2
    · intro member
      exact ⟨small index member, member⟩
  -- Two ascending lists with the same members are the same list.
  have perm : (ofIndices numbers).indices.Perm numbers :=
    (List.perm_ext_iff_of_nodup ((pairwise_indices _).imp Nat.ne_of_lt)
      (ascending.imp Nat.ne_of_lt)).2 same
  exact perm.eq_of_pairwise (fun a b _ _ ab ba => absurd ab (Nat.lt_asymm ba))
    (pairwise_indices _) ascending

end PartExchange.PartSet
