/-
**Every part is dealt once, and evenly.**

The parts are dealt like cards, so what a holder gets depends on the order of the parts, but how much
he gets does not: the part at place `s` of the order goes to holder `s % n` of `n`, and the places
that leave the same remainder are counted in the same way for every order.  Different holders get
different places and so different parts, and every place goes to somebody.

Main definitions:

* `share`: the parts that a holder is dealt, one after the other.

Main results:

* `getElem?_deal`: dealing adds to each hand the share of its holder;
* `length_share`, `count_places`: the number of parts in a share;
* `disjoint_scatter`, `exists_hand`: every part is in one hand;
* `dealt_once_and_evenly`: all of it together.
-/

import Mathlib.Data.Int.CardIntervalMod
import PartExchange.Experiment.Scatter
import PartExchange.Proofs.PartSet

set_option relaxedAutoImplicit false
set_option autoImplicit false

namespace PartExchange

/-! ### Shares -/

/-- The parts that are dealt to holder `k`, one after the other, if the turn of the first of the
listed parts is `turn`. -/
def share (holders turn : Nat) (order : List Nat) (k : Nat) : List Nat :=
  ((order.zipIdx turn).filter fun pair => pair.2 % holders = k).map Prod.fst

theorem share_cons (holders turn index : Nat) (rest : List Nat) (k : Nat) :
    share holders turn (index :: rest) k =
      if turn % holders = k then index :: share holders (turn + 1) rest k
      else share holders (turn + 1) rest k := by
  rw [share, List.zipIdx_cons]
  by_cases mine : turn % holders = k
  · rw [if_pos mine, List.filter_cons_of_pos (by simpa using mine), List.map_cons, share]
  · rw [if_neg mine, List.filter_cons_of_neg (by simpa using mine), share]

/-- Dealing adds to each hand the share of its holder. -/
theorem getElem?_deal (holders turn : Nat) (order : List Nat) (hands : List PartSet) (k : Nat) :
    (deal holders turn order hands)[k]? = hands[k]?.map fun hand =>
      (share holders turn order k).foldl (fun s index => s.union (.single index)) hand := by
  induction order generalizing turn hands with
  | nil => exact Option.map_id'.symm
  | cons index rest ih =>
    rw [deal, ih, List.getElem?_modify, share_cons]
    cases hands[k]? with
    | none => rfl
    | some hand =>
      by_cases mine : turn % holders = k
      · simp [mine]
      · simp [mine]

section Share

variable {holders k : Nat} {order : List Nat}

/-- A part is in the share of the holder whose turn it is. -/
theorem mem_share {index : Nat} : index ∈ share holders 0 order k ↔
    ∃ place, order[place]? = some index ∧ place % holders = k := by
  simp only [share, List.mem_map, List.mem_filter, decide_eq_true_eq, Prod.exists,
    List.mk_mem_zipIdx_iff_getElem?]
  constructor
  · rintro ⟨_, place, ⟨here, mine⟩, rfl⟩
    exact ⟨place, here, mine⟩
  · rintro ⟨place, here, mine⟩
    exact ⟨index, place, ⟨here, mine⟩, rfl⟩

/-- Parts of which none is repeated are dealt to one holder each. -/
theorem eq_of_mem_share (distinct : order.Nodup) {index j : Nat}
    (first : index ∈ share holders 0 order k) (second : index ∈ share holders 0 order j) :
    k = j := by
  obtain ⟨place, here, rfl⟩ := mem_share.1 first
  obtain ⟨other, there, rfl⟩ := mem_share.1 second
  obtain ⟨small, -⟩ := List.getElem?_eq_some_iff.1 here
  rw [(List.getElem?_inj small distinct).1 (here.trans there.symm)]

theorem sublist_share (holders turn : Nat) (order : List Nat) (k : Nat) :
    (share holders turn order k).Sublist order := by
  have parts := (List.filter_sublist (p := fun pair : Nat × Nat => pair.2 % holders = k)
    (l := order.zipIdx turn)).map Prod.fst
  rwa [List.zipIdx_map_fst] at parts

/-- The number of parts in a share is that of the places in the order that fall to the holder. -/
theorem length_share (holders : Nat) (order : List Nat) (k : Nat) :
    (share holders 0 order k).length = order.length.count fun place => place % holders = k :=
  calc (share holders 0 order k).length
    _ = (order.zipIdx 0).countP fun pair => pair.2 % holders = k := by
      rw [share, List.length_map, List.countP_eq_length_filter]
    _ = ((order.zipIdx 0).map Prod.snd).countP fun place => place % holders = k := by
      rw [List.countP_map]
      rfl
    _ = order.length.count fun place => place % holders = k := by
      rw [List.zipIdx_map_snd, ← List.range_eq_range']
      rfl

/-- So many places fall to a holder: the first ones get one more if there is a remainder. -/
theorem count_places (places : Nat) (small : k < holders) :
    (places.count fun place => place % holders = k) =
      places / holders + if k < places % holders then 1 else 0 := by
  have remainders := Nat.count_modEq_card places (Nat.zero_lt_of_lt small) k
  simpa only [Nat.ModEq, Nat.mod_eq_of_lt small] using remainders

end Share

/-! ### Hands -/

/-- What hands hold together. -/
theorem PartSet.contains_foldl (hands : List PartSet) (s : PartSet) (index : Nat) :
    (hands.foldl union s).contains index =
      (s.contains index || hands.any (·.contains index)) := by
  induction hands generalizing s with
  | nil => rw [List.foldl_nil, List.any_nil, Bool.or_false]
  | cons hand rest ih => rw [List.foldl_cons, ih, contains_union, List.any_cons, Bool.or_assoc]

section Hands

variable {nodes : Nat} {order : List Nat}

/-- A holder has the parts of his share. -/
theorem getElem?_scatter (nodes : Nat) (order : List Nat) {k : Nat} (small : k < max nodes 1) :
    (scatter nodes order)[k]? = some (.ofIndices (share (max nodes 1) 0 order k)) := by
  rw [scatter, getElem?_deal, List.getElem?_replicate, if_pos small, Option.map_some,
    PartSet.ofIndices]

variable (shuffled : order.Perm PartSet.full.indices)

include shuffled

theorem lt_of_mem_share {holders index k : Nat} (dealt : index ∈ share holders 0 order k) :
    index < partCount := by
  have listed := shuffled.mem_iff.1 ((sublist_share holders 0 order k).mem dealt)
  exact PartSet.lt_of_contains (PartSet.mem_indices.1 listed)

theorem nodup_order : order.Nodup :=
  shuffled.nodup_iff.2 ((PartSet.pairwise_indices _).imp Nat.ne_of_lt)

/-- A hand holds as many parts as its holder has been dealt. -/
theorem count_share (holders k : Nat) :
    (PartSet.ofIndices (share holders 0 order k)).count = (share holders 0 order k).length := by
  refine List.Perm.length_eq ((List.perm_ext_iff_of_nodup ?_ ?_).2 ?_)
  · exact (PartSet.pairwise_indices _).imp Nat.ne_of_lt
  · exact (sublist_share holders 0 order k).nodup (nodup_order shuffled)
  · intro index
    rw [PartSet.mem_indices, PartSet.contains_ofIndices, Bool.and_eq_true, decide_eq_true_eq,
      decide_eq_true_eq]
    exact ⟨And.right, fun dealt => ⟨lt_of_mem_share shuffled dealt, dealt⟩⟩

/-- The size of a hand does not depend on the order of the parts. -/
theorem count_getElem?_scatter {nodes k : Nat} {hand : PartSet}
    (here : (scatter nodes order)[k]? = some hand) :
    k < max nodes 1 ∧ hand.count = partCount.count fun place => place % max nodes 1 = k := by
  have all : order.length = partCount := shuffled.length_eq
  obtain ⟨small, -⟩ := List.getElem?_eq_some_iff.1 here
  rw [length_scatter] at small
  rw [getElem?_scatter nodes order small, Option.some.injEq] at here
  rw [← here, count_share shuffled, length_share, all]
  exact ⟨small, rfl⟩

/-- No part is in two hands. -/
theorem disjoint_scatter (nodes : Nat) :
    (scatter nodes order).Pairwise fun first second => first.inter second = .empty := by
  rw [List.pairwise_iff_getElem]
  intro k j smaller small ordered
  rw [length_scatter] at smaller small
  have first := List.getElem?_eq_some_iff.1 (getElem?_scatter nodes order smaller)
  have second := List.getElem?_eq_some_iff.1 (getElem?_scatter nodes order small)
  rw [first.2, second.2]
  apply PartSet.eq_of_contains_eq
  intro index
  rw [PartSet.contains_empty, Bool.eq_false_iff]
  intro both
  simp only [PartSet.contains_inter, PartSet.contains_ofIndices, Bool.and_eq_true,
    decide_eq_true_eq] at both
  exact absurd (eq_of_mem_share (nodup_order shuffled) both.1.2 both.2.2) (Nat.ne_of_lt ordered)

/-- Every part is in a hand. -/
theorem exists_hand (nodes : Nat) {index : Nat} (small : index < partCount) :
    ∃ hand ∈ scatter nodes order, hand.contains index = true := by
  have listed : index ∈ order := shuffled.mem_iff.2 (PartSet.mem_indices.2 (by simpa using small))
  obtain ⟨place, here⟩ := List.getElem?_of_mem listed
  have inside : place % max nodes 1 < max nodes 1 := Nat.mod_lt _ (by omega)
  refine ⟨_, List.mem_of_getElem? (getElem?_scatter nodes order inside), ?_⟩
  rw [PartSet.contains_ofIndices, Bool.and_eq_true, decide_eq_true_eq, decide_eq_true_eq]
  exact ⟨small, mem_share.2 ⟨place, here, rfl⟩⟩

end Hands

/-- **Every part is dealt once, and evenly, whatever the order.**  There is a hand for each holder, and
at least one.  No part is in two hands, and together they are all parts.  A holder gets as many parts
as there are places in the order that fall to him; so no holder gets two parts more than another, and
none gets more than one before him. -/
theorem dealt_once_and_evenly {order : List Nat} (shuffled : order.Perm PartSet.full.indices)
    (nodes : Nat) :
    let hands := scatter nodes order
    hands.length = max nodes 1 ∧
      (hands.Pairwise fun first second => first.inter second = .empty) ∧
      hands.foldl PartSet.union .empty = .full ∧
      (∀ k hand, hands[k]? = some hand →
        hand.count = ((List.range partCount).filter fun place => place % max nodes 1 = k).length) ∧
      (∀ first ∈ hands, ∀ second ∈ hands, first.count ≤ second.count + 1) ∧
      hands.Pairwise fun first second => second.count ≤ first.count := by
  intro hands
  have size : ∀ {k hand}, hands[k]? = some hand →
      hand.count = partCount / max nodes 1 + if k < partCount % max nodes 1 then 1 else 0 := by
    intro k hand here
    obtain ⟨small, counted⟩ := count_getElem?_scatter shuffled here
    rw [counted, count_places partCount small]
  refine ⟨length_scatter nodes order, disjoint_scatter shuffled nodes, ?_, ?_, ?_, ?_⟩
  · apply PartSet.eq_of_contains_eq
    intro index
    rw [PartSet.contains_foldl, PartSet.contains_empty, Bool.false_or, PartSet.contains_full,
      Bool.eq_iff_iff, List.any_eq_true, decide_eq_true_eq]
    constructor
    · rintro ⟨hand, -, holds⟩
      exact PartSet.lt_of_contains holds
    · exact exists_hand shuffled nodes
  · intro k hand here
    rw [(count_getElem?_scatter shuffled here).2, Nat.count, List.countP_eq_length_filter]
  · intro first among second among'
    obtain ⟨k, here⟩ := List.getElem?_of_mem among
    obtain ⟨j, there⟩ := List.getElem?_of_mem among'
    rw [size here, size there]
    split_ifs <;> omega
  · rw [List.pairwise_iff_getElem]
    intro k j smaller small ordered
    rw [size (List.getElem?_eq_getElem smaller), size (List.getElem?_eq_getElem small)]
    split_ifs <;> omega

/-- Three holders and the parts from last to first. -/
theorem dealt_from_last_to_first :
    [7, 6, 5, 4, 3, 2, 1, 0].Perm PartSet.full.indices ∧
      scatter 3 [7, 6, 5, 4, 3, 2, 1, 0] = [⟨0x92⟩, ⟨0x49⟩, ⟨0x24⟩] ∧
      (scatter 3 [7, 6, 5, 4, 3, 2, 1, 0]).foldl PartSet.union .empty = .full := by
  have shuffled : [7, 6, 5, 4, 3, 2, 1, 0].Perm PartSet.full.indices := by decide
  exact ⟨shuffled, by decide, (dealt_once_and_evenly shuffled 3).2.2.1⟩

end PartExchange
