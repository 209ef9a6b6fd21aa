/-
**Faults of instructions.**

An object is no instruction if it names no kind or several, if it misses a field or gives one twice,
if a number in it is out of its range, or if the instruction inside it has a fault.  None of these is
made up for by anything else in the object, and the order of its members decides at most which of
several faults is reported.

Main definitions:

* `Instruction.Kind.Named`: what names a kind.  Inside another instruction the kinds may be counted
  from zero;
* `Instruction.Faulty`: the faults of an instruction and of those inside it;
* `Instruction.Legible`: what is true of the members of an instruction that has been read.

Main results:

* `Instruction.legible_of_ofMembers`: what members must be to make an instruction;
* `Instruction.Faulty.ofMembers_eq`: faulty members make none.
-/

import PartExchange.Proofs.Spelling

set_option relaxedAutoImplicit false
set_option autoImplicit false

namespace PartExchange

open Json (Mismatch)

/-! ### Faults -/

/-- A number is not an integer of at least zero below a bound.  An integer that does not fit 64 bits
is a double. -/
def Json.Number.Outside (bound : Nat) : Json.Number → Prop
  | .int value => value < 0 ∨ bound ≤ value
  | .real _ => True

namespace Instruction

/-- A value names a kind. -/
inductive Kind.Named : (nested : Bool) → (value : Json) → (kind : Kind) → Prop
  | name (nested : Bool) (kind : Kind) : Named nested (.text kind.name) kind
  | number {n : Nat} {kind : Kind} (listed : Kind.all[n]? = some kind) : Named true (.ofNat n) kind

/-- Members name a kind. -/
def Names (nested : Bool) (members : List (String × Json)) (kind : Kind) : Prop :=
  ∃ value, ("type", value) ∈ members ∧ kind.Named nested value

/-- The bound that the number in a field stays below. -/
def FieldName.bound? : FieldName → Option Nat
  | .parts => some (2 ^ 8)
  | .node => some (2 ^ 32)
  | .group | .elapsed | .message | .size => some (2 ^ 64)
  | _ => none

/-- A field has a number, or a list with a number in it, that is out of its range. -/
inductive FieldName.Overflows : (field : FieldName) → (value : Json) → Prop
  | number {field : FieldName} {bound : Nat} {n : Json.Number} (bounded : field.bound? = some bound)
    (outside : n.Outside bound) : Overflows field (.number n)
  | listed {field : FieldName} {items : List Json} {n : Json.Number}
    (nodes : field = .links ∨ field = .targets) (item : .number n ∈ items)
    (outside : n.Outside (2 ^ 32)) : Overflows field (.array items)

/-- An object is no instruction, because of itself or of what is inside it. -/
inductive Faulty : (nested : Bool) → (value : Json) → Prop
  | unnamed {nested : Bool} {members : List (String × Json)}
    (untagged : ∀ member ∈ members, member.1 ≠ "type") : Faulty nested (.object members)
  | unknown {nested : Bool} {members : List (String × Json)} {value : Json}
    (tag : ("type", value) ∈ members) (unknown : ∀ kind : Kind, ¬kind.Named nested value) :
    Faulty nested (.object members)
  | renamed {nested : Bool} {members : List (String × Json)}
    (twice : 2 ≤ (members.map Prod.fst).count "type") : Faulty nested (.object members)
  | missing {nested : Bool} {members : List (String × Json)} {kind : Kind} {field : FieldName}
    (names : Names nested members kind) (of_kind : field ∈ kind.fields)
    (required : field ∉ [FieldName.targets, .wantsParts, .settings])
    (absent : field.name ∉ members.map Prod.fst) : Faulty nested (.object members)
  | repeated {nested : Bool} {members : List (String × Json)} {kind : Kind} {field : FieldName}
    (names : Names nested members kind) (of_kind : field ∈ kind.fields)
    (twice : 2 ≤ (members.map Prod.fst).count field.name) : Faulty nested (.object members)
  | outOfRange {nested : Bool} {members : List (String × Json)} {kind : Kind} {field : FieldName}
    {value : Json} (names : Names nested members kind) (of_kind : field ∈ kind.fields)
    (given : (field.name, value) ∈ members) (overflows : field.Overflows value) :
    Faulty nested (.object members)
  | inside {nested : Bool} {members : List (String × Json)} {body : Json}
    (names : Names nested members .onlyOn) (given : ("instruction", body) ∈ members)
    (faulty : Faulty true body) : Faulty nested (.object members)

/-! ### What has been read -/

/-- What is true of the members of an instruction that has been read. -/
structure Legible (nested : Bool) (kind : Kind) (members : List (String × Json)) : Prop where
  /-- They name one kind, and once. -/
  tag : ∃ value, members.filter (·.1 = tagName) = [(tagName, value)] ∧ kind.Named nested value
  /-- No field comes twice. -/
  distinct : ((fieldsOf kind members).map Prod.fst).Nodup
  /-- Each field decodes. -/
  decodes : ∀ entry ∈ fieldsOf kind members,
    ∃ content, decodeField entry.1 entry.2 = .ok content
  /-- Fields that may not be left out are there. -/
  complete : ∀ field ∈ kind.fields, field ∉ [FieldName.targets, .wantsParts, .settings] →
    field ∈ (fieldsOf kind members).map Prod.fst

variable {nested : Bool} {kind : Kind} {members : List (String × Json)} {value : Json}
  {instruction : Instruction} {field : FieldName}

theorem Kind.ofName_eq_ok {name : String} (named : ofName name = .ok kind) : name = kind.name := by
  unfold ofName at named
  split at named
  next found =>
    cases named
    have same := List.find?_some found
    exact (of_decide_eq_true same).symm
  next => cases named

/-- What is read as a kind names it. -/
theorem Kind.named_of_reader (read : Kind.reader nested value.head = .ok kind) :
    kind.Named nested value := by
  have of_head : ∀ {value : Json}, ofHead value.head = .ok kind → kind.Named nested value := by
    intro value read
    cases value with
    | text name =>
      rw [ofName_eq_ok read]
      exact .name ..
    | _ => cases read
  cases nested with
  | false => exact of_head read
  | true =>
    cases value with
    | number n =>
      cases n with
      | int value =>
        change (if value < 0 then _ else _) = _ at read
        split at read
        · cases read
        next natural =>
          obtain ⟨n, rfl⟩ := Int.eq_ofNat_of_zero_le (not_lt.mp natural)
          split at read
          next listed =>
            cases read
            exact .number listed
          next => cases read
      | real => cases read
    | _ => exact of_head read

theorem Draft.find_nil_of_required (required : field ∉ [FieldName.targets, .wantsParts, .settings]) :
    Draft.find [] field = .error (.missing field.name) := by
  cases field <;> first | rfl | exact absurd (by decide) required

theorem filter_of_kindOf (named : kindOf nested members = .ok kind) :
    ∃ value, members.filter (·.1 = tagName) = [(tagName, value)] ∧ kind.Named nested value := by
  unfold kindOf at named
  split at named
  next => cases named
  next name value more found =>
    obtain rfl : name = tagName := by
      have tag : (name, value) ∈ members.filter (·.1 = tagName) :=
        found ▸ List.mem_cons_self ..
      exact of_decide_eq_true (List.mem_filter.mp tag).2
    obtain ⟨other, read, named⟩ := bind_eq_ok_iff.mp named
    split at named
    next single =>
      cases named
      exact ⟨value, List.isEmpty_iff.mp single ▸ found, Kind.named_of_reader read⟩
    next => cases named

/-- What members must be to make an instruction. -/
theorem legible_of_ofMembers (made : ofMembers nested members = .ok instruction) :
    ∃ kind, Legible nested kind members := by
  obtain ⟨kind, named, made⟩ := bind_eq_ok_iff.mp made
  obtain ⟨draft, drafted, made⟩ := bind_eq_ok_iff.mp made
  obtain ⟨contents, listed, -⟩ := bind_eq_ok_iff.mp made
  obtain ⟨decoded, decodes, rfl, distinct⟩ := draftOfMembers_eq_ok_iff.mp drafted
  have same_fields := map_fst_of_decodes decodes
  have in_draft := decoded.reverse_perm.map Prod.fst
  refine ⟨kind, filter_of_kindOf named, ?_, ?_, ?_⟩
  · rw [same_fields]
    exact in_draft.nodup_iff.mp distinct
  · exact ((List.forall₂_and_left _ _).mp (decodes.imp fun _ _ decodes =>
      ⟨⟨_, decodes.2⟩, decodes⟩)).1
  · intro field of_kind required
    obtain ⟨content, found⟩ := Draft.find_of_values listed of_kind
    rw [same_fields, ← in_draft.mem_iff]
    by_contra absent
    rw [Draft.find_of_not_mem absent, Draft.find_nil_of_required required] at found
    cases found

/-! ### Faulty members are refused -/

theorem Legible.mem_tag (legible : Legible nested kind members)
    (tag : (tagName, value) ∈ members) : kind.Named nested value := by
  obtain ⟨only, filtered, named⟩ := legible.tag
  have among : (tagName, value) ∈ members.filter (·.1 = tagName) :=
    List.mem_filter.mpr ⟨tag, decide_eq_true rfl⟩
  rw [filtered, List.mem_singleton, Prod.mk.injEq] at among
  rwa [among.2]

theorem Kind.Named.reader_eq (named : kind.Named nested value) :
    Kind.reader nested value.head = .ok kind := by
  cases named with
  | name => exact Kind.reader_name ..
  | @number n _ listed =>
    rw [Kind.reader, Json.ofNat, Json.head, ofInner, if_neg (Int.natCast_nonneg n).not_gt,
      Int.toNat_natCast, listed]

/-- The members of an instruction that has been read name no other kind. -/
theorem Legible.kind_eq {other : Kind} (legible : Legible nested kind members)
    (names : Names nested members other) : kind = other := by
  obtain ⟨value, tag, named⟩ := names
  exact Except.ok.inj ((legible.mem_tag tag).reader_eq.symm.trans named.reader_eq)

theorem natural_of_outside {bound : Nat} {n : Json.Number} (expected : String)
    (outside : n.Outside bound) {result : Nat} :
    Json.natural bound expected (Json.number n).head ≠ .ok result := by
  cases n with
  | int value =>
    have beyond : ¬(0 ≤ value ∧ value < bound) := by
      change value < 0 ∨ (bound : Int) ≤ value at outside
      omega
    change (if _ then _ else _) ≠ _
    rw [if_neg beyond]
    exact error_ne_ok
  | real => exact error_ne_ok

theorem map_ne_ok {α β : Type} {result : Except Mismatch α} {f : α → β}
    (refused : ∀ a, result ≠ .ok a) (b : β) : result.map f ≠ .ok b := by
  cases result with
  | error => exact error_ne_ok
  | ok a => exact absurd rfl (refused a)

theorem nodesOfItems_of_outside {items : List Json} {n : Json.Number}
    (item : .number n ∈ items) (outside : n.Outside (2 ^ 32)) (nodes : List UInt32) :
    nodesOfItems items ≠ .ok nodes := by
  induction items generalizing nodes with
  | nil => cases item
  | cons first rest ih =>
    rw [nodesOfItems]
    cases read : Json.word32 first.head with
    | error => exact error_ne_ok
    | ok node =>
      rcases List.mem_cons.mp item with rfl | item
      · exact absurd read (map_ne_ok (fun _ => natural_of_outside _ outside) node)
      · cases later : nodesOfItems rest with
        | error => exact error_ne_ok
        | ok others => exact absurd later (ih item others)

/-- A field that is out of range does not decode. -/
theorem FieldName.Overflows.decodeField_ne (overflows : field.Overflows value)
    (content : FieldValue) : decodeField field value ≠ .ok content := by
  cases overflows with
  | number bounded outside =>
    cases field <;> cases bounded <;> rw [decodeField_of_ne_body (by decide)] <;>
      exact map_ne_ok (fun _ => map_ne_ok (fun _ => natural_of_outside _ outside) _) content
  | listed nodes item outside =>
    have refused := nodesOfItems_of_outside item outside
    rcases nodes with rfl | rfl <;> rw [decodeField_of_ne_body (by decide)]
    · exact map_ne_ok refused content
    · exact map_ne_ok refused content

/-- Faulty members are not those of an instruction that has been read. -/
theorem Faulty.not_legible (faulty : Faulty nested value) :
    ∃ members, value = .object members ∧ ∀ kind, ¬Legible nested kind members := by
  induction faulty with
  | @unnamed nested members untagged =>
    refine ⟨members, rfl, fun found legible => ?_⟩
    obtain ⟨value, filtered, -⟩ := legible.tag
    have tag : (tagName, value) ∈ members.filter (·.1 = tagName) :=
      filtered ▸ List.mem_cons_self ..
    exact untagged _ (List.mem_filter.mp tag).1 rfl
  | @unknown nested members value tag unknown =>
    exact ⟨members, rfl, fun found legible => unknown found (legible.mem_tag tag)⟩
  | @renamed nested members twice =>
    refine ⟨members, rfl, fun found legible => ?_⟩
    obtain ⟨value, filtered, -⟩ := legible.tag
    have once : (members.map Prod.fst).count "type" =
        (members.filter (·.1 = tagName)).length := by
      rw [List.count, List.countP_map, List.countP_eq_length_filter]
      rfl
    rw [once, filtered, List.length_singleton] at twice
    omega
  | @missing nested members kind field names of_kind required absent =>
    refine ⟨members, rfl, fun found legible => absent ?_⟩
    obtain rfl := legible.kind_eq names
    have present := legible.complete field of_kind required
    rwa [← List.count_pos_iff, count_fieldsOf of_kind, List.count_pos_iff] at present
  | @repeated nested members kind field names of_kind twice =>
    refine ⟨members, rfl, fun found legible => ?_⟩
    obtain rfl := legible.kind_eq names
    have once := List.nodup_iff_count_le_one.mp legible.distinct field
    rw [count_fieldsOf of_kind] at once
    omega
  | @outOfRange nested members kind field value names of_kind given overflows =>
    refine ⟨members, rfl, fun found legible => ?_⟩
    obtain rfl := legible.kind_eq names
    obtain ⟨content, decoded⟩ := legible.decodes _ (mem_fieldsOf of_kind given)
    exact overflows.decodeField_ne content decoded
  | @inside nested members body names given faulty refused =>
    refine ⟨members, rfl, fun found legible => ?_⟩
    obtain rfl := legible.kind_eq names
    have of_kind : FieldName.body ∈ Kind.onlyOn.fields := by decide
    obtain ⟨content, decoded⟩ := legible.decodes _ (mem_fieldsOf of_kind given)
    obtain ⟨inner, rfl, illegible⟩ := refused
    rw [decodeField, ofJson_object] at decoded
    refine map_ne_ok (fun instruction made => ?_) content decoded
    obtain ⟨kind, legible⟩ := legible_of_ofMembers made
    exact illegible kind legible

/-- Faulty members make no instruction. -/
theorem Faulty.ofMembers_eq (faulty : Faulty nested value) :
    ∃ members, value = .object members ∧
      ∃ mismatch, ofMembers nested members = .error mismatch := by
  obtain ⟨members, rfl, illegible⟩ := faulty.not_legible
  refine ⟨members, rfl, ?_⟩
  cases made : ofMembers nested members with
  | error mismatch => exact ⟨mismatch, rfl⟩
  | ok instruction =>
    obtain ⟨kind, legible⟩ := legible_of_ofMembers made
    exact absurd legible (illegible kind)

end Instruction

end PartExchange
