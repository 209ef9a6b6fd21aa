/-
**The order of members is forgotten.**

A value that is kept for later is kept tidy: the members of every object in it are sorted by name.
Whoever writes such a value may list the members of each object as they like, and each of these
arrangements is kept as the same value.

Main definitions:

* `Json.Ascending`: members that are sorted by name, each name once;
* `Json.Arranges`: a value that is a tidy one with the members of its objects in some order.

Main results:

* `Json.tidyMembers_perm`: members with distinct names are sorted, whatever their order;
* `Json.Arranges.tidy_eq`: tidying undoes an arrangement.
-/

import Mathlib.Data.List.Perm.Basic
import Mathlib.Data.String.Basic
import PartExchange.Json.Value

set_option relaxedAutoImplicit false
set_option autoImplicit false

namespace PartExchange.Json

/-! ### Sorted members -/

/-- Members sorted by name, each name once. -/
def Ascending (members : List (String × Json)) : Prop := members.Pairwise (·.1 < ·.1)

variable {name : String} {value : Json} {members sorted : List (String × Json)}

theorem Ascending.names_nodup (ascending : Ascending members) : (members.map Prod.fst).Nodup :=
  List.pairwise_map.mpr (ascending.imp fun less => less.ne)

/-- Lists in ascending order are equal if they have the same members. -/
theorem Ascending.eq_of_perm (ascending : Ascending members) (ascending' : Ascending sorted)
    (perm : members.Perm sorted) : members = sorted :=
  perm.eq_of_pairwise (fun _ _ _ _ less greater => absurd greater (lt_asymm less)) ascending
    ascending'

/-- A new name is put between the others. -/
theorem insertMember_perm (new : name ∉ members.map Prod.fst) :
    (insertMember name value members).Perm ((name, value) :: members) := by
  induction members with
  | nil => exact .refl _
  | cons member rest ih =>
    obtain ⟨other, known⟩ := member
    rw [List.map_cons, List.mem_cons, not_or] at new
    rw [insertMember]
    split
    · exact .refl _
    · rw [if_neg new.1]
      exact ((ih new.2).cons _).trans (.swap _ _ _)

theorem ascending_insertMember (ascending : Ascending members)
    (new : name ∉ members.map Prod.fst) : Ascending (insertMember name value members) := by
  induction members with
  | nil => exact List.pairwise_singleton _ _
  | cons member rest ih =>
    obtain ⟨other, known⟩ := member
    obtain ⟨least, ascending⟩ := List.pairwise_cons.mp ascending
    have fresh := new
    rw [List.map_cons, List.mem_cons, not_or] at fresh
    rw [insertMember]
    split
    next less =>
      refine List.pairwise_cons.mpr ⟨fun found found_mem => ?_, List.pairwise_cons.mpr
        ⟨least, ascending⟩⟩
      rcases List.mem_cons.mp found_mem with rfl | found_mem
      · exact less
      · exact less.trans (least found found_mem)
    next not_less =>
      rw [if_neg fresh.1]
      refine List.pairwise_cons.mpr ⟨fun found found_mem => ?_, ih ascending fresh.2⟩
      rcases List.mem_cons.mp ((insertMember_perm fresh.2).mem_iff.mp found_mem) with
        rfl | found_mem
      · exact lt_of_le_of_ne (not_lt.mp not_less) (Ne.symm fresh.1)
      · exact least found found_mem

/-- Members with distinct names are sorted, whatever their order. -/
theorem tidyMembers_perm {before : List (String × Json)} (ascending : Ascending before)
    (distinct : ((members ++ before).map Prod.fst).Nodup) :
    Ascending (tidyMembers before members) ∧
      (tidyMembers before members).Perm
        (members.map (fun member => (member.1, member.2.tidy)) ++ before) := by
  induction members generalizing before with
  | nil => exact ⟨by rwa [tidyMembers], by rw [tidyMembers]; exact .refl _⟩
  | cons member rest ih =>
    obtain ⟨name, value⟩ := member
    rw [List.cons_append, List.map_cons, List.nodup_cons, List.map_append, List.mem_append,
      not_or] at distinct
    obtain ⟨⟨unused, new⟩, distinct⟩ := distinct
    have inserted : (insertMember name value.tidy before).Perm ((name, value.tidy) :: before) :=
      insertMember_perm new
    have distinct' :
        ((rest ++ insertMember name value.tidy before).map Prod.fst).Nodup := by
      have moved : (rest ++ insertMember name value.tidy before).Perm
          ((name, value.tidy) :: (rest ++ before)) :=
        (inserted.append_left rest).trans List.perm_middle
      rw [(moved.map Prod.fst).nodup_iff, List.map_cons, List.nodup_cons, List.map_append,
        List.mem_append, not_or]
      exact ⟨⟨unused, new⟩, distinct⟩
    obtain ⟨ascending', perm⟩ := ih (ascending_insertMember ascending new) distinct'
    rw [tidyMembers]
    exact ⟨ascending', perm.trans ((inserted.append_left _).trans List.perm_middle)⟩

/-! ### Arrangements -/

mutual

/-- A value is a tidy one with the members of each object in some order. -/
inductive Arranges : (value tidied : Json) → Prop
  | simple {value : Json} (leaf : value.head.leaf? = some value) : Arranges value value
  | array {items tidied : List Json} (each : ArrangesItems items tidied) :
    Arranges (.array items) (.array tidied)
  | object {members listed tidied : List (String × Json)} (perm : members.Perm listed)
    (each : ArrangesMembers listed tidied) (ascending : Ascending tidied) :
    Arranges (.object members) (.object tidied)

/-- Each item is arranged. -/
inductive ArrangesItems : (items tidied : List Json) → Prop
  | nil : ArrangesItems [] []
  | cons {item tidied : Json} {items others : List Json} (first : Arranges item tidied)
    (rest : ArrangesItems items others) : ArrangesItems (item :: items) (tidied :: others)

/-- The value of each member is arranged. -/
inductive ArrangesMembers : (members tidied : List (String × Json)) → Prop
  | nil : ArrangesMembers [] []
  | cons {name : String} {value tidied : Json} {members others : List (String × Json)}
    (first : Arranges value tidied) (rest : ArrangesMembers members others) :
    ArrangesMembers ((name, value) :: members) ((name, tidied) :: others)

end

theorem tidy_of_leaf (leaf : value.head.leaf? = some value) : value.tidy = value := by
  cases value with
  | array | object => simp [head, Head.leaf?] at leaf
  | null | bool | number | text => simp only [tidy]

mutual

/-- Tidying undoes an arrangement. -/
theorem Arranges.tidy_eq {value tidied : Json} : Arranges value tidied → value.tidy = tidied
  | .simple leaf => tidy_of_leaf leaf
  | .array each => by rw [tidy, each.tidyItems_eq]
  | @Arranges.object members listed sorted perm each ascending => by
    have tidied_listed : listed.map (fun member => (member.1, member.2.tidy)) = sorted :=
      each.map_tidy_eq
    have names : listed.map Prod.fst = sorted.map Prod.fst := by
      rw [← tidied_listed, List.map_map]
      rfl
    have distinct : ((members ++ []).map Prod.fst).Nodup := by
      rw [List.append_nil, (perm.map Prod.fst).nodup_iff, names]
      exact ascending.names_nodup
    obtain ⟨ascending', perm'⟩ := tidyMembers_perm List.Pairwise.nil distinct
    rw [tidy, ascending'.eq_of_perm ascending]
    rw [List.append_nil] at perm'
    exact perm'.trans (tidied_listed ▸ perm.map _)

theorem ArrangesItems.tidyItems_eq {items tidied : List Json} :
    ArrangesItems items tidied → tidyItems items = tidied
  | .nil => by rw [tidyItems]
  | .cons first rest => by rw [tidyItems, first.tidy_eq, rest.tidyItems_eq]

theorem ArrangesMembers.map_tidy_eq {members tidied : List (String × Json)} :
    ArrangesMembers members tidied →
      members.map (fun member => (member.1, member.2.tidy)) = tidied
  | .nil => rfl
  | .cons first rest => by rw [List.map_cons, first.tidy_eq, rest.map_tidy_eq]

end

end PartExchange.Json
