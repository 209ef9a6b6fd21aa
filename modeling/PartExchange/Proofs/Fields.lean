/-
**The fields that members give to an instruction.**

The members of an instruction are gone through one after the other, and each that is a field of its
kind is decoded and put in front of a draft.  That the draft has them in the order of the members is
of no consequence, for no field comes twice and the values are looked up by their fields.

Main definitions:

* `Instruction.fieldsOf`: the members that are fields of a kind;
* `Instruction.Decodes`: a field is decoded.

Main results:

* `bind_eq_ok_iff`: two steps that may fail give a result if both do;
* `Instruction.draftOfMembers_eq_ok_iff`: members make a draft if each field decodes and none comes
  twice;
* `Instruction.Draft.find_of_mem`: a value in a draft is found;
* `Instruction.Draft.values_eq_ok`, `Instruction.Draft.find_of_values`: the values of the fields come
  out if each is found, and only then.
-/

import Mathlib
import PartExchange.Script.Instruction

set_option relaxedAutoImplicit false
set_option autoImplicit false

namespace PartExchange

open Json (Mismatch)

/-! ### Steps that may fail -/

theorem error_ne_ok {ε α : Type} {e : ε} {a : α} : Except.error e ≠ Except.ok a := nofun

/-- Two steps that may fail give a result if both do. -/
theorem bind_eq_ok_iff {ε α β : Type} {first : Except ε α} {next : α → Except ε β} {b : β} :
    first >>= next = .ok b ↔ ∃ a, first = .ok a ∧ next a = .ok b := by
  cases first with
  | error =>
    constructor
    · rintro ⟨⟩
    · rintro ⟨a, ⟨⟩, -⟩
  | ok a =>
    constructor
    · exact fun made => ⟨a, rfl, made⟩
    · rintro ⟨_, ⟨⟩, made⟩
      exact made

namespace Instruction

/-! ### Names of fields -/

theorem FieldName.name_injective : Function.Injective FieldName.name := by
  intro field other same
  cases field <;> cases other <;> first | rfl | exact absurd same (by decide)

theorem FieldName.name_ne_tagName (field : FieldName) : field.name ≠ tagName := by
  cases field <;> decide

theorem Kind.fields_nodup (kind : Kind) : kind.fields.Nodup := by
  cases kind <;> decide

theorem Kind.name_of_find? {kind : Kind} {field : FieldName} {name : String}
    (found : kind.fields.find? (·.name = name) = some field) : field.name = name := by
  have named := List.find?_some found
  exact of_decide_eq_true named

theorem Kind.find?_name {kind : Kind} {field : FieldName} (of_kind : field ∈ kind.fields) :
    kind.fields.find? (·.name = field.name) = some field := by
  cases found : kind.fields.find? (·.name = field.name) with
  | none =>
    have none_so := List.find?_eq_none.mp found field of_kind
    exact absurd (decide_eq_true rfl) none_so
  | some other =>
    rw [FieldName.name_injective (Kind.name_of_find? found)]

/-! ### Members that are fields -/

/-- The members that are fields of a kind, in their order. -/
def fieldsOf (kind : Kind) (members : List (String × Json)) : List (FieldName × Json) :=
  members.filterMap fun member =>
    (kind.fields.find? (·.name = member.1)).map fun field => (field, member.2)

/-- A field is decoded. -/
def Decodes (given : FieldName × Json) (decoded : FieldName × FieldValue) : Prop :=
  given.1 = decoded.1 ∧ decodeField given.1 given.2 = .ok decoded.2

variable {kind : Kind} {name : String} {value : Json} {members others : List (String × Json)}
  {draft result : Draft} {field : FieldName}

theorem fieldsOf_append (kind : Kind) (members others : List (String × Json)) :
    fieldsOf kind (members ++ others) = fieldsOf kind members ++ fieldsOf kind others :=
  List.filterMap_append

theorem fieldsOf_cons_of_find?_eq_none (found : kind.fields.find? (·.name = name) = none) :
    fieldsOf kind ((name, value) :: members) = fieldsOf kind members :=
  List.filterMap_cons_none (by rw [found]; rfl)

theorem fieldsOf_cons_of_find?_eq_some (found : kind.fields.find? (·.name = name) = some field) :
    fieldsOf kind ((name, value) :: members) = (field, value) :: fieldsOf kind members :=
  List.filterMap_cons_some (by rw [found]; rfl)

theorem find?_eq_none_of_foreign (foreign : ∀ field ∈ kind.fields, name ≠ field.name) :
    kind.fields.find? (·.name = name) = none := by
  refine List.find?_eq_none.mpr fun field of_kind same => ?_
  exact foreign field of_kind (of_decide_eq_true same).symm

/-- Members that are no fields give none. -/
theorem fieldsOf_eq_nil (foreign : ∀ member ∈ members, ∀ field ∈ kind.fields,
    member.1 ≠ field.name) : fieldsOf kind members = [] := by
  refine List.filterMap_eq_nil_iff.mpr fun member member_mem => ?_
  rw [find?_eq_none_of_foreign (foreign member member_mem)]
  rfl

/-- The members of the fields of a kind give these fields. -/
theorem fieldsOf_map_name {given : List (FieldName × Json)}
    (of_kind : ∀ entry ∈ given, entry.1 ∈ kind.fields) :
    fieldsOf kind (given.map fun entry => (entry.1.name, entry.2)) = given := by
  induction given with
  | nil => rfl
  | cons entry rest ih =>
    rw [List.map_cons, fieldsOf_cons_of_find?_eq_some
      (Kind.find?_name (of_kind entry (List.mem_cons_self ..))),
      ih fun other other_mem => of_kind other (List.mem_cons_of_mem _ other_mem)]

theorem mem_fieldsOf (of_kind : field ∈ kind.fields) (member : (field.name, value) ∈ members) :
    (field, value) ∈ fieldsOf kind members :=
  List.mem_filterMap.mpr ⟨_, member, by rw [Kind.find?_name of_kind]; rfl⟩

/-- A field comes as often as its name. -/
theorem count_fieldsOf (of_kind : field ∈ kind.fields) :
    ((fieldsOf kind members).map Prod.fst).count field =
      (members.map Prod.fst).count field.name := by
  induction members with
  | nil => rfl
  | cons member rest ih =>
    obtain ⟨name, value⟩ := member
    cases found : kind.fields.find? (·.name = name) with
    | none =>
      have differ : name ≠ field.name := by
        rintro rfl
        rw [Kind.find?_name of_kind] at found
        cases found
      rw [fieldsOf_cons_of_find?_eq_none found, ih, List.map_cons, List.count_cons_of_ne differ]
    | some other =>
      rw [fieldsOf_cons_of_find?_eq_some found, List.map_cons, List.map_cons, List.count_cons,
        List.count_cons, ih, ← Kind.name_of_find? found]
      simp only [beq_iff_eq, FieldName.name_injective.eq_iff]

/-- Decoding keeps the fields. -/
theorem map_fst_of_decodes {given : List (FieldName × Json)} {decoded : Draft}
    (decodes : List.Forall₂ Decodes given decoded) : given.map Prod.fst = decoded.map Prod.fst :=
  List.forall₂_eq_eq_eq ▸ List.rel_map (fun _ _ decodes => decodes.1) decodes

/-! ### Drafts -/

theorem lookup_isSome_iff : (draft.lookup field).isSome ↔ field ∈ draft.map Prod.fst := by
  rw [Option.isSome_iff_ne_none, ne_eq, List.lookup_eq_none_iff, List.mem_map]
  simp only [bne_iff_ne, ne_eq, not_forall, not_not, eq_comm (a := field), exists_prop]

/-- Members add to a draft if each field decodes and none comes twice. -/
theorem draftOfMembers_append (distinct : (draft.map Prod.fst).Nodup) :
    draftOfMembers kind draft members = .ok result ↔
      ∃ decoded, List.Forall₂ Decodes (fieldsOf kind members) decoded ∧
        result = decoded.reverse ++ draft ∧ (result.map Prod.fst).Nodup := by
  induction members generalizing draft with
  | nil =>
    rw [draftOfMembers]
    constructor
    · rintro ⟨⟩
      exact ⟨[], .nil, rfl, distinct⟩
    · rintro ⟨decoded, decodes, rfl, -⟩
      cases decodes
      rfl
  | cons member rest ih =>
    obtain ⟨name, value⟩ := member
    rw [draftOfMembers]
    cases found : kind.fields.find? (·.name = name) with
    | none =>
      rw [fieldsOf_cons_of_find?_eq_none found]
      exact ih distinct
    | some field =>
      rw [fieldsOf_cons_of_find?_eq_some found]
      dsimp only
      split
      next known =>
        refine ⟨fun made => absurd made error_ne_ok, ?_⟩
        rintro ⟨decoded, decodes, rfl, distinct'⟩
        obtain ⟨⟨other, content⟩, tail, ⟨rfl, -⟩, -, rfl⟩ := List.forall₂_cons_left_iff.mp decodes
        rw [List.reverse_cons, List.append_assoc, List.singleton_append, List.map_append,
          List.map_cons] at distinct'
        have first := (List.nodup_append.mp distinct').2.1
        exact absurd (lookup_isSome_iff.mp known) (List.nodup_cons.mp first).1
      next unknown =>
        cases decoded_to : decodeField field value with
        | error mismatch =>
          refine ⟨fun made => absurd made error_ne_ok, ?_⟩
          rintro ⟨decoded, decodes, -, -⟩
          obtain ⟨entry, tail, ⟨-, decodes⟩, -, -⟩ := List.forall₂_cons_left_iff.mp decodes
          rw [decoded_to] at decodes
          cases decodes
        | ok content =>
          have distinct' : (((field, content) :: draft).map Prod.fst).Nodup :=
            List.nodup_cons.mpr ⟨fun known => unknown (lookup_isSome_iff.mpr known), distinct⟩
          refine (ih distinct').trans ⟨?_, ?_⟩
          · rintro ⟨decoded, decodes, rfl, distinct''⟩
            refine ⟨(field, content) :: decoded, .cons ⟨rfl, decoded_to⟩ decodes, ?_, distinct''⟩
            rw [List.reverse_cons, List.append_assoc, List.singleton_append]
          · rintro ⟨decoded, decodes, rfl, distinct''⟩
            obtain ⟨⟨other, content'⟩, tail, ⟨rfl, first⟩, later, rfl⟩ :=
              List.forall₂_cons_left_iff.mp decodes
            cases decoded_to.symm.trans first
            refine ⟨tail, later, ?_, distinct''⟩
            rw [List.reverse_cons, List.append_assoc, List.singleton_append]

/-- Members make a draft if each field decodes and none comes twice. -/
theorem draftOfMembers_eq_ok_iff :
    draftOfMembers kind [] members = .ok result ↔
      ∃ decoded, List.Forall₂ Decodes (fieldsOf kind members) decoded ∧
        result = decoded.reverse ∧ (result.map Prod.fst).Nodup := by
  have empty : ((([] : Draft)).map Prod.fst).Nodup := .nil
  simpa only [List.append_nil] using draftOfMembers_append empty

/-! ### Looking up -/

/-- A value in a draft is found. -/
theorem Draft.find_of_mem {content : FieldValue} (distinct : (draft.map Prod.fst).Nodup)
    (member : (field, content) ∈ draft) : draft.find field = .ok content := by
  have found : draft.lookup field = some content := by
    induction draft with
    | nil => cases member
    | cons entry rest ih =>
      obtain ⟨unused, distinct⟩ := List.nodup_cons.mp distinct
      rcases List.mem_cons.mp member with rfl | member
      · exact List.lookup_cons_self
      · have differ : field ≠ entry.1 := by
          rintro rfl
          exact unused (List.mem_map.mpr ⟨_, member, rfl⟩)
        rw [List.lookup_cons, beq_false_of_ne differ]
        exact ih distinct member
  unfold Draft.find
  rw [found]

/-- A field that a draft does not have is found as in a draft that has none. -/
theorem Draft.find_of_not_mem (absent : field ∉ draft.map Prod.fst) :
    draft.find field = Draft.find [] field := by
  have none_found : draft.lookup field = none := by
    rw [← Option.not_isSome_iff_eq_none, lookup_isSome_iff]
    exact absent
  unfold Draft.find
  rw [none_found, List.lookup_nil]

theorem Draft.values_eq_ok {entries : List (FieldName × FieldValue)}
    (finds : ∀ entry ∈ entries, draft.find entry.1 = .ok entry.2) :
    draft.values (entries.map Prod.fst) = .ok (entries.map Prod.snd) := by
  induction entries with
  | nil => rfl
  | cons entry rest ih =>
    rw [List.map_cons, Draft.values, finds entry (List.mem_cons_self ..),
      ih fun other other_mem => finds other (List.mem_cons_of_mem _ other_mem)]
    rfl

/-- Values that come out are found. -/
theorem Draft.find_of_values {fields : List FieldName} {contents : List FieldValue}
    (values : draft.values fields = .ok contents) (asked : field ∈ fields) :
    ∃ content, draft.find field = .ok content := by
  induction fields generalizing contents with
  | nil => cases asked
  | cons first rest ih =>
    obtain ⟨content, found, made⟩ := bind_eq_ok_iff.mp values
    obtain ⟨others, later, -⟩ := bind_eq_ok_iff.mp made
    rcases List.mem_cons.mp asked with rfl | asked
    · exact ⟨content, found⟩
    · exact ih later asked

end Instruction

end PartExchange
