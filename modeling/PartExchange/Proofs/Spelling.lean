/-
**The spellings of an instruction.**

An instruction is written as an object that names its kind and gives its fields, and there are many
ways of doing this: the members may come in any order, with others between them that mean nothing, a
field may be left out where its value is the default, and the same freedom exists again in the
instruction inside `ifNodeIDEquals` and, as to the order, in the settings of a router.

`Instruction.Spells` says what these ways are without a word on how they are read.  Here it is shown
that each of them is read as the instruction that it spells.

Main definitions:

* `Instruction.form`: the name of the kind, and the names and values of the fields;
* `Instruction.Omissible`: the fields that may be left out;
* `Instruction.Writes`, `Instruction.Gives`, `Instruction.Spells`: the spellings of a value, of
  fields and of an instruction;
* `Instruction.ofMembers`: an instruction from its members, which may stand inside another one.

Main results:

* `Instruction.ofMembers_eq_ok`: members in any order make an instruction if its fields decode;
* `Instruction.Spells.ofMembers_eq`: a spelling is read as the instruction that it spells.
-/

import PartExchange.Proofs.Fields
import PartExchange.Proofs.MemberOrder

set_option relaxedAutoImplicit false
set_option autoImplicit false

namespace PartExchange

open Json (Mismatch Simple)

namespace Instruction

/-! ### Written forms -/

/-- The name of the kind of an instruction, and the names and values of its fields. -/
def form : Instruction → String × List (String × FieldValue)
  | .addParts parts topic group =>
    ("addPartialMessage",
      [("parts", .byte parts), ("topicID", .text topic), ("groupID", .word64 group)])
  | .publishParts topic group nodes =>
    ("publishPartial",
      [("topicID", .text topic), ("groupID", .word64 group), ("publishToNodeIDs", .nodes? nodes)])
  | .connect nodes => ("connect", [("connectTo", .nodes nodes)])
  | .onlyOn node body =>
    ("ifNodeIDEquals", [("nodeID", .word32 node), ("instruction", .instruction body)])
  | .waitUntil seconds => ("waitUntil", [("elapsedSeconds", .word64 seconds)])
  | .initRouter settings => ("initGossipSub", [("gossipSubParams", .json settings)])
  | .subscribe topic parts =>
    ("subscribeToTopic", [("topicID", .text topic), ("partial", .flag parts)])
  | .publishFull message size topic =>
    ("publish",
      [("messageID", .word64 message), ("messageSizeBytes", .word64 size),
        ("topicID", .text topic)])
  | .delayValidation topic seconds =>
    ("setTopicValidationDelay", [("topicID", .text topic), ("delaySeconds", .real seconds)])

/-- The fields that may be left out, with the value they have then. -/
inductive Omissible : (name : String) → (content : FieldValue) → Prop
  | targets : Omissible "publishToNodeIDs" (.nodes? none)
  | wantsParts : Omissible "partial" (.flag false)
  | settings : Omissible "gossipSubParams" (.json .null)

mutual

/-- A value stands for the content of a field. -/
inductive Writes : (content : FieldValue) → (value : Json) → Prop
  | byte (byte : UInt8) : Writes (.byte byte) (.ofNat byte.toNat)
  | text (text : String) : Writes (.text text) (.text text)
  | word32 (word : UInt32) : Writes (.word32 word) (.ofNat word.toNat)
  | word64 (word : UInt64) : Writes (.word64 word) (.ofNat word.toNat)
  | everyNode : Writes (.nodes? none) .null
  | someNodes (nodes : List UInt32) : Writes (.nodes? (some nodes)) (nodesToJson nodes)
  | nodes (nodes : List UInt32) : Writes (.nodes nodes) (nodesToJson nodes)
  | flag (flag : Bool) : Writes (.flag flag) (.bool flag)
  | real (seconds : Float) : Writes (.real seconds) (.number (.real seconds))
  | whole (seconds : Int) : Writes (.real (Json.intToReal seconds)) (.number (.int seconds))
  | json {value settings : Json} (arranges : value.Arranges settings) : Writes (.json settings) value
  | instruction {body : Instruction} {value : Json} (spells : Spells body value) :
    Writes (.instruction body) value

/-- Members stand for fields. -/
inductive Gives : (fields : List (String × FieldValue)) → (given : List (String × Json)) → Prop
  | nil : Gives [] []
  | given {name : String} {content : FieldValue} {value : Json}
    {fields : List (String × FieldValue)} {given : List (String × Json)}
    (writes : Writes content value) (rest : Gives fields given) :
    Gives ((name, content) :: fields) ((name, value) :: given)
  | omitted {name : String} {content : FieldValue} {fields : List (String × FieldValue)}
    {given : List (String × Json)} (omissible : Omissible name content)
    (rest : Gives fields given) : Gives ((name, content) :: fields) given

/-- A value spells an instruction. -/
inductive Spells : (instruction : Instruction) → (value : Json) → Prop
  | object {instruction : Instruction} {members given others : List (String × Json)}
    (gives : Gives instruction.form.2 given)
    (perm : members.Perm (("type", .text instruction.form.1) :: (given ++ others)))
    (foreign : ∀ member ∈ others,
      member.1 ≠ "type" ∧ ∀ field ∈ instruction.form.2, member.1 ≠ field.1) :
    Spells instruction (.object members)

end

/-! ### The fields of an instruction -/

/-- The kind of an instruction. -/
def kind : Instruction → Kind
  | .addParts .. => .addParts
  | .publishParts .. => .publishParts
  | .connect .. => .connect
  | .onlyOn .. => .onlyOn
  | .waitUntil .. => .waitUntil
  | .initRouter .. => .initRouter
  | .subscribe .. => .subscribe
  | .publishFull .. => .publishFull
  | .delayValidation .. => .delayValidation

/-- The fields of an instruction with their values. -/
def contents : Instruction → List (FieldName × FieldValue)
  | .addParts parts topic group =>
    [(.parts, .byte parts), (.topic, .text topic), (.group, .word64 group)]
  | .publishParts topic group nodes =>
    [(.topic, .text topic), (.group, .word64 group), (.targets, .nodes? nodes)]
  | .connect nodes => [(.links, .nodes nodes)]
  | .onlyOn node body => [(.node, .word32 node), (.body, .instruction body)]
  | .waitUntil seconds => [(.elapsed, .word64 seconds)]
  | .initRouter settings => [(.settings, .json settings)]
  | .subscribe topic parts => [(.topic, .text topic), (.wantsParts, .flag parts)]
  | .publishFull message size topic =>
    [(.message, .word64 message), (.size, .word64 size), (.topic, .text topic)]
  | .delayValidation topic seconds => [(.topic, .text topic), (.delay, .real seconds)]

/-- What sort of value a field has. -/
inductive FieldName.Holds : FieldName → FieldValue → Prop
  | parts (value : UInt8) : Holds .parts (.byte value)
  | topic (value : String) : Holds .topic (.text value)
  | group (value : UInt64) : Holds .group (.word64 value)
  | targets (value : Option (List UInt32)) : Holds .targets (.nodes? value)
  | links (value : List UInt32) : Holds .links (.nodes value)
  | node (value : UInt32) : Holds .node (.word32 value)
  | body (value : Instruction) : Holds .body (.instruction value)
  | elapsed (value : UInt64) : Holds .elapsed (.word64 value)
  | settings (value : Json) : Holds .settings (.json value)
  | wantsParts (value : Bool) : Holds .wantsParts (.flag value)
  | message (value : UInt64) : Holds .message (.word64 value)
  | size (value : UInt64) : Holds .size (.word64 value)
  | delay (value : Float) : Holds .delay (.real value)

variable (instruction : Instruction)

theorem form_eq :
    instruction.form =
      (instruction.kind.name, instruction.contents.map fun entry => (entry.1.name, entry.2)) := by
  cases instruction <;> rfl

theorem map_fst_contents : instruction.contents.map Prod.fst = instruction.kind.fields := by
  cases instruction <;> rfl

theorem ofValues_contents :
    ofValues instruction.kind (instruction.contents.map Prod.snd) = some instruction := by
  cases instruction <;> rfl

theorem contents_hold : ∀ entry ∈ instruction.contents, entry.1.Holds entry.2 := by
  cases instruction <;>
    simp only [contents, List.forall_mem_cons, List.not_mem_nil, IsEmpty.forall_iff, implies_true,
      and_true] <;>
    and_intros <;> constructor

/-! ### Contents are decoded -/

variable {instruction} {field : FieldName} {content : FieldValue} {value : Json}

theorem natural_ofNat {n bound : Nat} (expected : String) (fits : n < bound) :
    Json.natural bound expected (Json.ofNat n).head = .ok n := by
  have within : (0 : Int) ≤ n ∧ (n : Int) < bound := ⟨Int.natCast_nonneg n, Int.ofNat_lt.mpr fits⟩
  rw [Json.ofNat, Json.head, Json.natural, if_pos within, Int.toNat_natCast]

theorem byte_ofNat (byte : UInt8) : Json.byte (Json.ofNat byte.toNat).head = .ok byte := by
  rw [Json.byte, natural_ofNat _ byte.toNat_lt]
  exact congrArg Except.ok (UInt8.ofNat_toNat ..)

theorem word32_ofNat (word : UInt32) : Json.word32 (Json.ofNat word.toNat).head = .ok word := by
  rw [Json.word32, natural_ofNat _ word.toNat_lt]
  exact congrArg Except.ok (UInt32.ofNat_toNat ..)

theorem word64_ofNat (word : UInt64) : Json.word64 (Json.ofNat word.toNat).head = .ok word := by
  rw [Json.word64, natural_ofNat _ word.toNat_lt]
  exact congrArg Except.ok (UInt64.ofNat_toNat ..)

theorem nodesOfItems_map (nodes : List UInt32) :
    nodesOfItems (nodes.map fun (node : UInt32) => .ofNat node.toNat) = .ok nodes := by
  induction nodes with
  | nil => rfl
  | cons node rest ih =>
    rw [List.map_cons, nodesOfItems, word32_ofNat, ih]
    rfl

theorem nodesOfJson_nodesToJson (nodes : List UInt32) :
    nodesOfJson (nodesToJson nodes) = .ok nodes := nodesOfItems_map nodes

theorem decodeField_of_ne_body (simple : field ≠ .body) :
    decodeField field value = field.decode value := by
  rw [decodeField]
  exact simple

/-- A field that may be left out has its default in a draft without it. -/
theorem Omissible.find_eq {name : String} (omissible : Omissible name content)
    (named : field.name = name) : Draft.find [] field = .ok content := by
  cases omissible <;> cases field <;> first | rfl | exact absurd named (by decide)

/-! ### Members -/

/-- The kind is read from a text, and inside another instruction from a value. -/
def Kind.reader : (nested : Bool) → Simple Kind
  | false => ofHead
  | true => ofInner

/-- The kind that the members of an object name. -/
def kindOf (nested : Bool) (members : List (String × Json)) : Except Mismatch Kind := do
  match members.filter (·.1 = tagName) with
  | [] => .error (.missing tagName)
  | (_, value) :: more =>
    let kind ← Kind.reader nested value.head
    if more.isEmpty then .ok kind else .error (.repeated tagName)

/-- The instruction that the members of an object make. -/
def ofMembers (nested : Bool) (members : List (String × Json)) : Except Mismatch Instruction := do
  let kind ← kindOf nested members
  ofDraft kind (← draftOfMembers kind [] members)

variable {nested : Bool} {members : List (String × Json)}

theorem ofJson_object : ofJson (.object members) = ofMembers true members := by
  rw [ofJson]
  rfl

theorem Kind.reader_name (nested : Bool) (kind : Kind) :
    Kind.reader nested (Json.text kind.name).head = .ok kind := by
  cases nested <;> cases kind <;> rfl

theorem kindOf_eq_ok {kind : Kind}
    (only : members.filter (·.1 = tagName) = [(tagName, .text kind.name)]) :
    kindOf nested members = .ok kind := by
  rw [kindOf, only]
  dsimp only
  rw [Kind.reader_name]
  rfl

/-- Some of these fields are given and decode, and the others may be left out. -/
structure Covers (contents : List (FieldName × FieldValue)) (given : List (FieldName × Json))
    (decoded : List (FieldName × FieldValue)) : Prop where
  /-- Each given field decodes. -/
  decodes : List.Forall₂ Decodes given decoded
  /-- The decoded fields are among these fields. -/
  sublist : decoded.Sublist contents
  /-- What is not decoded is the default. -/
  omitted : ∀ entry ∈ contents, entry ∈ decoded ∨ Draft.find [] entry.1 = .ok entry.2

section Members

variable {kind : Kind} {given : List (FieldName × Json)} {others : List (String × Json)}
  {decoded draft : Draft}

/-- Members in any order name the kind that one of them names. -/
theorem kindOf_of_perm
    (perm : members.Perm ((tagName, .text kind.name) ::
      (given.map (fun entry => (entry.1.name, entry.2)) ++ others)))
    (untagged : ∀ member ∈ others, member.1 ≠ tagName) : kindOf nested members = .ok kind := by
  refine kindOf_eq_ok (List.perm_singleton.mp ((perm.filter _).trans (.of_eq ?_)))
  rw [List.filter_cons, if_pos (decide_eq_true rfl), List.filter_eq_nil_iff.mpr]
  intro member member_mem same
  rcases List.mem_append.mp member_mem with member_mem | member_mem
  · obtain ⟨entry, -, rfl⟩ := List.mem_map.mp member_mem
    exact entry.1.name_ne_tagName (of_decide_eq_true same)
  · exact untagged member member_mem (of_decide_eq_true same)

/-- Members in any order give the fields that are among them. -/
theorem fieldsOf_perm {tag : Json}
    (perm : members.Perm ((tagName, tag) ::
      (given.map (fun entry => (entry.1.name, entry.2)) ++ others)))
    (of_kind : ∀ entry ∈ given, entry.1 ∈ kind.fields)
    (unknown : ∀ member ∈ others, ∀ field ∈ kind.fields, member.1 ≠ field.name) :
    (fieldsOf kind members).Perm given := by
  refine (perm.filterMap _).trans (.of_eq ?_)
  change fieldsOf kind ((tagName, tag) :: _) = given
  rw [fieldsOf_cons_of_find?_eq_none, fieldsOf_append, fieldsOf_map_name of_kind,
    fieldsOf_eq_nil unknown, List.append_nil]
  exact find?_eq_none_of_foreign fun field _ => field.name_ne_tagName.symm

theorem contents_nodup : (instruction.contents.map Prod.fst).Nodup :=
  instruction.map_fst_contents ▸ instruction.kind.fields_nodup

theorem Covers.of_kind (covers : Covers instruction.contents given decoded) :
    ∀ entry ∈ given, entry.1 ∈ instruction.kind.fields := by
  intro entry entry_mem
  have known : entry.1 ∈ decoded.map Prod.fst :=
    map_fst_of_decodes covers.decodes ▸ List.mem_map_of_mem entry_mem
  exact instruction.map_fst_contents ▸ (covers.sublist.map Prod.fst).subset known

/-- The decoded fields in any order are a draft without repetitions. -/
theorem Covers.nodup (covers : Covers instruction.contents given decoded)
    (perm : draft.Perm decoded) : (draft.map Prod.fst).Nodup :=
  (perm.map Prod.fst).nodup_iff.mpr ((covers.sublist.map Prod.fst).nodup contents_nodup)

/-- In a draft of the decoded fields all contents are found. -/
theorem Covers.find_eq (covers : Covers instruction.contents given decoded)
    (perm : draft.Perm decoded) :
    ∀ entry ∈ instruction.contents, draft.find entry.1 = .ok entry.2 := by
  intro entry entry_mem
  by_cases known : entry ∈ decoded
  · exact Draft.find_of_mem (covers.nodup perm) (perm.mem_iff.mpr known)
  · have default_of := (covers.omitted entry entry_mem).resolve_left known
    rw [Draft.find_of_not_mem, default_of]
    intro has_field
    obtain ⟨other, other_mem, same⟩ := List.mem_map.mp has_field
    have other_decoded := perm.mem_iff.mp other_mem
    have other_content := covers.sublist.subset other_decoded
    exact known (List.inj_on_of_nodup_map contents_nodup other_content entry_mem same ▸
      other_decoded)

/-- A draft in which all contents are found is the instruction. -/
theorem ofDraft_of_finds
    (finds : ∀ entry ∈ instruction.contents, draft.find entry.1 = .ok entry.2) :
    ofDraft instruction.kind draft = .ok instruction := by
  rw [ofDraft, ← instruction.map_fst_contents, Draft.values_eq_ok finds]
  change Except.ok ((ofValues _ _).getD default) = _
  rw [ofValues_contents]
  rfl

/-- Members in any order make an instruction if its fields decode. -/
theorem ofMembers_eq_ok
    (perm : members.Perm ((tagName, .text instruction.kind.name) ::
      (given.map (fun entry => (entry.1.name, entry.2)) ++ others)))
    (untagged : ∀ member ∈ others, member.1 ≠ tagName)
    (unknown : ∀ member ∈ others, ∀ field ∈ instruction.kind.fields, member.1 ≠ field.name)
    (covers : Covers instruction.contents given decoded) :
    ofMembers nested members = .ok instruction := by
  obtain ⟨listed, decodes, reordered⟩ :=
    List.perm_comp_forall₂ (fieldsOf_perm perm covers.of_kind unknown) covers.decodes
  have in_draft := listed.reverse_perm.trans reordered
  have draft : draftOfMembers instruction.kind [] members = .ok listed.reverse :=
    draftOfMembers_eq_ok_iff.mpr ⟨listed, decodes, rfl, covers.nodup in_draft⟩
  refine bind_eq_ok_iff.mpr ⟨_, kindOf_of_perm perm untagged, ?_⟩
  exact bind_eq_ok_iff.mpr ⟨_, draft, ofDraft_of_finds (covers.find_eq in_draft)⟩

end Members

/-! ### Spellings -/

mutual

theorem Writes.decodeField_eq {content : FieldValue} {value : Json} : Writes content value →
    ∀ field : FieldName, field.Holds content → decodeField field value = .ok content
  | .byte byte, _, .parts _ => by
    rw [decodeField_of_ne_body (by decide), FieldName.decode, byte_ofNat]
    rfl
  | .text text, _, .topic _ => by
    rw [decodeField_of_ne_body (by decide)]
    rfl
  | .word32 word, _, .node _ => by
    rw [decodeField_of_ne_body (by decide), FieldName.decode, word32_ofNat]
    rfl
  | .word64 word, _, .group _ | .word64 word, _, .elapsed _ | .word64 word, _, .message _
  | .word64 word, _, .size _ => by
    rw [decodeField_of_ne_body (by decide), FieldName.decode, word64_ofNat]
    rfl
  | .everyNode, _, .targets _ => by
    rw [decodeField_of_ne_body (by decide)]
    rfl
  | .someNodes nodes, _, .targets _ => by
    rw [decodeField_of_ne_body (by decide), FieldName.decode, nodesOfJson_nodesToJson]
    · rfl
    · rintro ⟨⟩
  | .nodes nodes, _, .links _ => by
    rw [decodeField_of_ne_body (by decide), FieldName.decode, nodesOfJson_nodesToJson]
    rfl
  | .flag flag, _, .wantsParts _ => by
    rw [decodeField_of_ne_body (by decide)]
    rfl
  | .real seconds, _, .delay _ | .whole seconds, _, .delay _ => by
    rw [decodeField_of_ne_body (by decide)]
    rfl
  | .json arranges, _, .settings _ => by
    rw [decodeField_of_ne_body (by decide), FieldName.decode, arranges.tidy_eq]
  | .instruction spells, _, .body _ => by
    obtain ⟨members, rfl, made⟩ := spells.ofMembers_eq
    rw [decodeField, ofJson_object, made]
    rfl

theorem Gives.exists_covers {fields : List (String × FieldValue)}
    {written : List (String × Json)} : Gives fields written →
    ∀ contents : List (FieldName × FieldValue),
      fields = contents.map (fun entry => (entry.1.name, entry.2)) →
      (∀ entry ∈ contents, entry.1.Holds entry.2) →
      ∃ given decoded, written = given.map (fun entry => (entry.1.name, entry.2)) ∧
        Covers contents given decoded
  | .nil, contents, listed, _ => by
    obtain rfl := List.map_eq_nil_iff.mp listed.symm
    exact ⟨[], [], rfl, .nil, .slnil, List.forall_mem_nil _⟩
  | .given writes rest, _, listed, hold => by
    -- The recursive calls come before the fields are taken apart, which rewrites the derivations.
    have decodes := writes.decodeField_eq
    have covered := rest.exists_covers
    obtain ⟨⟨field, content⟩, contents, rfl, same, later⟩ := List.map_eq_cons_iff.mp listed.symm
    obtain ⟨rfl, rfl⟩ := same
    obtain ⟨first, hold⟩ := List.forall_mem_cons.mp hold
    obtain ⟨given, decoded, rfl, covers⟩ := covered contents later.symm hold
    refine ⟨(field, _) :: given, (field, content) :: decoded, rfl,
      .cons ⟨rfl, decodes field first⟩ covers.decodes, covers.sublist.cons_cons _, ?_⟩
    intro entry entry_mem
    rcases List.mem_cons.mp entry_mem with rfl | entry_mem
    · exact .inl (List.mem_cons_self ..)
    · exact (covers.omitted entry entry_mem).imp_left (List.mem_cons_of_mem _)
  | .omitted omissible rest, _, listed, hold => by
    have covered := rest.exists_covers
    obtain ⟨⟨field, content⟩, contents, rfl, same, later⟩ := List.map_eq_cons_iff.mp listed.symm
    obtain ⟨rfl, rfl⟩ := same
    obtain ⟨given, decoded, rfl, covers⟩ :=
      covered contents later.symm (List.forall_mem_cons.mp hold).2
    refine ⟨given, decoded, rfl, covers.decodes, covers.sublist.cons _, ?_⟩
    intro entry entry_mem
    rcases List.mem_cons.mp entry_mem with rfl | entry_mem
    · exact .inr (omissible.find_eq rfl)
    · exact covers.omitted entry entry_mem

/-- A spelling is read as the instruction that it spells. -/
theorem Spells.ofMembers_eq {instruction : Instruction} {value : Json} : Spells instruction value →
    ∃ members, value = .object members ∧ ∀ nested, ofMembers nested members = .ok instruction
  | .object gives perm foreign => by
    rw [form_eq] at perm foreign
    obtain ⟨given, decoded, rfl, covers⟩ :=
      gives.exists_covers _ (congrArg Prod.snd (form_eq _)) (contents_hold _)
    refine ⟨_, rfl, fun nested => ofMembers_eq_ok perm
      (fun member member_mem => (foreign member member_mem).1)
      (fun member member_mem field of_kind => ?_) covers⟩
    rw [← map_fst_contents] at of_kind
    obtain ⟨entry, entry_mem, rfl⟩ := List.mem_map.mp of_kind
    exact (foreign member member_mem).2 _ (List.mem_map_of_mem entry_mem)

end

end Instruction

end PartExchange
