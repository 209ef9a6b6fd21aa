/-
**Instructions are decoded by their content.**

An instruction is read from a text in one pass: its kind as soon as that comes, everything else as
values, and the fields when all has been read.  What comes out is a function of the value that the
text spells, whatever the kind has been found behind.  With this the spellings of an instruction are
read as that instruction from a text too, and an object with a fault in an instruction, however deep
inside, is refused.

How many levels a text may be nested is a matter of reading values, so it is no concern of this
module: it looks at texts that are values at all.

Main definitions:

* `Instruction.kindAfter`: the kind that is known after some members.

Main results:

* `Instruction.readMembers_eq`: members are read as an instruction if they are read as values;
* `Instruction.ofText_of_readWhole`, `Script.ofText_of_readWhole`: what is read from a text is what
  its value makes;
* `Script.instructions_decode_by_content`: all spellings of an instruction are read as that
  instruction, and what has a fault is refused.
-/

import PartExchange.Proofs.Faults
import PartExchange.Script.Basic

set_option relaxedAutoImplicit false
set_option autoImplicit false

namespace PartExchange

open Json (Fault Mismatch Input)

/-! ### Reading values -/

section Values

variable {levels : Nat} {value : Json} {input rest : Input}

/-- A value is simple, and no more than its head, or it is an array or an object, whose inside has
one level less. -/
theorem Json.readValue_cases (read : Json.readValue levels input = .ok (value, rest)) :
    (value.head.leaf? = some value ∧ Json.readHead input = .ok (value.head, rest)) ∨
    (∃ inside after items, levels = inside + 1 ∧ value = .array items ∧
      Json.readHead input = .ok (.array, after) ∧
      Json.readItems (Json.readValue inside) after true [] after = .ok (items, rest)) ∨
    ∃ inside after members, levels = inside + 1 ∧ value = .object members ∧
      Json.readHead input = .ok (.object, after) ∧
      Json.readMembers (Json.readValue inside) after true [] after = .ok (members, rest) := by
  cases levels with
  | zero =>
    unfold Json.readValue at read
    obtain ⟨⟨found, after⟩, headed, made⟩ := bind_eq_ok_iff.mp read
    cases found with
    | array | object => cases made
    | _ => cases made; exact .inl ⟨rfl, headed⟩
  | succ inside =>
    unfold Json.readValue at read
    obtain ⟨⟨found, after⟩, headed, made⟩ := bind_eq_ok_iff.mp read
    cases found with
    | array =>
      obtain ⟨⟨items, rest⟩, inside_read, made⟩ := bind_eq_ok_iff.mp made
      cases made
      exact .inr (.inl ⟨inside, after, items, rfl, rfl, headed, inside_read⟩)
    | object =>
      obtain ⟨⟨members, rest⟩, inside_read, made⟩ := bind_eq_ok_iff.mp made
      cases made
      exact .inr (.inr ⟨inside, after, members, rfl, rfl, headed, inside_read⟩)
    | _ => cases made; exact .inl ⟨rfl, headed⟩

/-- A whole text is a value and blanks. -/
theorem Json.exists_of_readWhole {α : Type} {reader : Nat → Json.Reader α} {text : String}
    {result : α} (read : Json.readWhole reader text = .ok result) :
    ∃ rest, reader Json.maxDepth text.toList = .ok (result, rest) ∧
      (Json.skipBlanks rest).isEmpty := by
  obtain ⟨⟨found, rest⟩, found_read, made⟩ := bind_eq_ok_iff.mp read
  change (if (Json.skipBlanks rest).isEmpty then _ else _) = _ at made
  split at made
  next ended =>
    cases made
    exact ⟨rest, found_read, ended⟩
  next => cases made

/-- Behind what is read from a text nothing but blanks may be left. -/
theorem Json.readWhole_of_ended {α : Type} {reader : Nat → Json.Reader α} {text : String}
    {result : Except Fault α} (ended : (Json.skipBlanks rest).isEmpty)
    (read : reader Json.maxDepth text.toList = result.map fun a => (a, rest)) :
    Json.readWhole reader text = result := by
  rw [Json.readWhole, read]
  cases result with
  | error => rfl
  | ok => exact if_pos ended

end Values

namespace Instruction

variable {levels : Nat} {value : Json} {input rest : Input} {members : List (String × Json)}

/-! ### The kind -/

/-- The kind that is known after some members. -/
def kindAfter (kind : Option Kind) : List (String × Json) → Except Mismatch (Option Kind)
  | [] => .ok kind
  | (name, value) :: rest =>
    if name = tagName then
      if kind.isSome then .error (.repeated tagName)
      else Kind.ofHead value.head >>= fun kind => kindAfter (some kind) rest
    else kindAfter kind rest

theorem kindAfter_filter (kind : Option Kind) (members : List (String × Json)) :
    kindAfter kind (members.filter (·.1 = tagName)) = kindAfter kind members := by
  induction members generalizing kind with
  | nil => rfl
  | cons member rest ih =>
    obtain ⟨name, value⟩ := member
    by_cases tag : name = tagName
    · rw [List.filter_cons, if_pos (decide_eq_true tag), kindAfter, kindAfter, if_pos tag,
        if_pos tag]
      simp only [ih]
    · rw [List.filter_cons, if_neg (by simpa using tag), kindAfter, if_neg tag, ih]

/-- The kind is known after all members if they name one, and once. -/
theorem kindOf_eq_kindAfter (members : List (String × Json)) :
    kindOf false members =
      kindAfter none members >>= fun kind => kind.elim (.error (.missing tagName)) .ok := by
  rw [← kindAfter_filter, kindOf]
  -- Only the first two members of that name matter: the second one is a fault.
  have tags : ∀ member ∈ members.filter (·.1 = tagName), member.1 = tagName := fun member tag =>
    of_decide_eq_true (List.mem_filter.mp tag).2
  generalize members.filter (·.1 = tagName) = named at tags
  cases named with
  | nil => rfl
  | cons member more =>
    obtain ⟨name, value⟩ := member
    obtain ⟨tag, tags⟩ := List.forall_mem_cons.mp tags
    rw [kindAfter, if_pos tag]
    change (Kind.ofHead value.head >>= _) = ((Kind.ofHead value.head >>= _) >>= _)
    cases Kind.ofHead value.head with
    | error => rfl
    | ok kind =>
      cases more with
      | nil => rfl
      | cons member more =>
        obtain ⟨name, value⟩ := member
        obtain ⟨tag, -⟩ := List.forall_mem_cons.mp tags
        change _ = (kindAfter (some kind) ((name, value) :: more) >>= _)
        rw [kindAfter, if_pos tag]
        rfl

/-- The kind is read as a value is. -/
theorem readSimple_of_readValue (read : Json.readValue levels input = .ok (value, rest)) :
    Json.readSimple Kind.ofHead input =
      (liftMismatch (Kind.ofHead value.head)).map fun kind => (kind, rest) := by
  rw [Json.readSimple]
  rcases Json.readValue_cases read with
    ⟨-, headed⟩ | ⟨-, after, items, -, rfl, headed, -⟩ | ⟨-, after, members, -, rfl, headed, -⟩
  · rw [headed]
    cases named : Kind.ofHead value.head <;> simp only [bind, Except.bind, named] <;> rfl
  · rw [headed]
    rfl
  · rw [headed]
    rfl

/-! ### Members -/

/-- Members are read as an instruction if they are read as values. -/
theorem readMembers_eq {bound : Input} {first : Bool} {before : List (String × Json)}
    (read : Json.readMembers (Json.readValue levels) bound first before input =
      .ok (members, rest)) :
    ∃ new, members = before.reverse ++ new ∧ ∀ kind known,
      readMembers levels bound first kind known input =
        (liftMismatch (kindAfter kind new)).map fun kind =>
          ((kind, known.reverse ++ new.filter (·.1 ≠ tagName)), rest) := by
  -- The two loops have the same bound and take the same turns.
  induction bound generalizing first before input with
  | nil => cases read
  | cons c bound ih =>
    rw [Json.readMembers] at read
    obtain ⟨step, stepped, made⟩ := bind_eq_ok_iff.mp read
    cases step with
    | done after =>
      cases made
      refine ⟨[], (List.append_nil _).symm, fun kind known => ?_⟩
      rw [readMembers, stepped]
      change Except.ok ((kind, known.reverse), rest) = .ok ((kind, known.reverse ++ []), rest)
      rw [List.append_nil]
    | more name after =>
      obtain ⟨start, colon, made⟩ := bind_eq_ok_iff.mp made
      obtain ⟨⟨value, behind⟩, value_read, made⟩ := bind_eq_ok_iff.mp made
      obtain ⟨new, rfl, later⟩ := ih made
      refine ⟨(name, value) :: new, by rw [List.reverse_cons, List.append_assoc]; rfl,
        fun kind known => ?_⟩
      rw [readMembers, stepped]
      change (if name = tagName then _ else _) = _
      rw [kindAfter]
      by_cases tag : name = tagName
      · rw [if_pos tag, if_pos tag]
        cases kind with
        | some kind => rfl
        | none =>
          change (Json.readColon after >>= _) = _
          rw [colon]
          change (Json.readSimple Kind.ofHead start >>= _) = _
          rw [readSimple_of_readValue value_read]
          cases Kind.ofHead value.head with
          | error => rfl
          | ok kind =>
            change readMembers levels bound false (some kind) known behind = _
            rw [later, List.filter_cons, if_neg (by simpa using tag)]
            rfl
      · rw [if_neg tag, if_neg tag, colon]
        change (Json.readValue levels start >>= _) = _
        rw [value_read]
        change readMembers levels bound false kind ((name, value) :: known) behind = _
        rw [later, List.filter_cons, if_pos (by simpa using tag), List.reverse_cons,
          List.append_assoc]
        rfl

/-- The kind is no field. -/
theorem draftOfMembers_filter (kind : Kind) (draft : Draft) (members : List (String × Json)) :
    draftOfMembers kind draft (members.filter (·.1 ≠ tagName)) =
      draftOfMembers kind draft members := by
  induction members generalizing draft with
  | nil => rfl
  | cons member rest ih =>
    obtain ⟨name, value⟩ := member
    by_cases tag : name = tagName
    · have no_field : kind.fields.find? (·.name = name) = none :=
        find?_eq_none_of_foreign fun field _ => tag ▸ field.name_ne_tagName.symm
      rw [List.filter_cons, if_neg (by simpa using tag), ih, draftOfMembers, no_field]
    · rw [List.filter_cons, if_pos (by simpa using tag), draftOfMembers, draftOfMembers]
      simp only [ih]

/-- An instruction is read from a text as from the members of the object there. -/
theorem read_of_readValue (found : Json.readValue levels input = .ok (.object members, rest)) :
    read levels input =
      (liftMismatch (ofMembers false members)).map fun instruction => (instruction, rest) := by
  rcases Json.readValue_cases found with
    ⟨leaf, -⟩ | ⟨inside, after, items, rfl, other, -⟩ |
      ⟨inside, after, same, rfl, written, headed, members_read⟩
  · cases leaf
  · cases other
  · cases written
    obtain ⟨new, same, instruction_read⟩ := readMembers_eq members_read
    obtain rfl : members = new := same
    rw [read, headed]
    change (readMembers inside after true none [] after >>= _) = _
    rw [instruction_read, List.reverse_nil, List.nil_append, ofMembers,
      kindOf_eq_kindAfter]
    cases kindAfter none members with
    | error => rfl
    | ok kind =>
      cases kind with
      | none => rfl
      | some kind =>
        change (liftMismatch (draftOfMembers kind [] (members.filter (·.1 ≠ tagName))) >>= _) =
          (liftMismatch (draftOfMembers kind [] members >>= ofDraft kind)).map _
        rw [draftOfMembers_filter]
        cases draftOfMembers kind [] members with
        | error => rfl
        | ok draft =>
          change (liftMismatch (ofDraft kind draft) >>= _) =
            (liftMismatch (ofDraft kind draft)).map _
          cases ofDraft kind draft <;> rfl

/-! ### Whole texts -/

/-- What is read from a text is what the members of its object make. -/
theorem ofText_of_readWhole {text : String}
    (found : Json.readWhole Json.readValue text = .ok (.object members)) :
    ofText text = liftMismatch (ofMembers false members) := by
  obtain ⟨rest, value_read, ended⟩ := Json.exists_of_readWhole found
  exact Json.readWhole_of_ended ended (read_of_readValue value_read)

/-- Objects in an array are read as instructions. -/
theorem readItems_eq {bound : Input} {first : Bool} {before items : List Json}
    (found : Json.readItems (Json.readValue levels) bound first before input = .ok (items, rest)) :
    ∃ new, items = before.reverse ++ new ∧ ∀ objects : List (List (String × Json)),
      new = objects.map .object → ∀ known,
        Json.readItems (read levels) bound first known input =
          (liftMismatch (objects.mapM (ofMembers false))).map fun made =>
            (known.reverse ++ made, rest) := by
  induction bound generalizing first before input with
  | nil => cases found
  | cons c bound ih =>
    rw [Json.readItems] at found
    obtain ⟨step, stepped, made⟩ := bind_eq_ok_iff.mp found
    cases step with
    | done after =>
      cases made
      refine ⟨[], (List.append_nil _).symm, fun objects none known => ?_⟩
      obtain rfl := List.map_eq_nil_iff.mp none.symm
      rw [Json.readItems, stepped, List.mapM_nil]
      change Except.ok (known.reverse, rest) = .ok (known.reverse ++ [], rest)
      rw [List.append_nil]
    | more _ after =>
      obtain ⟨⟨value, behind⟩, value_read, made⟩ := bind_eq_ok_iff.mp made
      obtain ⟨new, rfl, later⟩ := ih made
      refine ⟨value :: new, by rw [List.reverse_cons, List.append_assoc]; rfl,
        fun objects written known => ?_⟩
      obtain ⟨members, others, rfl, rfl, rfl⟩ := List.map_eq_cons_iff.mp written.symm
      rw [Json.readItems, stepped, List.mapM_cons]
      change (read levels after >>= _) = _
      rw [read_of_readValue value_read]
      cases ofMembers false members with
      | error => rfl
      | ok instruction =>
        change Json.readItems (read levels) bound false (instruction :: known) behind = _
        rw [later others rfl]
        change _ = (liftMismatch (others.mapM (ofMembers false) >>= _)).map _
        cases others.mapM (ofMembers false) with
        | error => rfl
        | ok made =>
          rw [List.reverse_cons]
          change Except.ok (known.reverse ++ [instruction] ++ made, rest) =
            .ok (known.reverse ++ instruction :: made, rest)
          rw [List.append_assoc, List.singleton_append]

/-- A list of instructions is read as the objects in an array. -/
theorem readList_of_readValue {objects : List (List (String × Json))}
    (found : Json.readValue levels input = .ok (.array (objects.map .object), rest)) :
    Json.readList read levels input =
      (liftMismatch (objects.mapM (ofMembers false))).map fun made => (made, rest) := by
  rcases Json.readValue_cases found with
    ⟨leaf, -⟩ | ⟨inside, after, items, rfl, written, headed, items_read⟩ |
      ⟨inside, after, members, rfl, other, -⟩
  · cases leaf
  · cases written
    obtain ⟨new, same, made⟩ := readItems_eq items_read
    rw [Json.readList, headed]
    exact made objects same.symm []
  · cases other

end Instruction

namespace Script

open Instruction (liftMismatch ofMembers)

variable {levels : Nat} {input rest : Input}

/-- What has been read of an object stays in front. -/
theorem length_le_of_readMembers {bound : Input} {first : Bool}
    {before members : List (String × Json)}
    (found : Json.readMembers (Json.readValue levels) bound first before input =
      .ok (members, rest)) : before.length ≤ members.length := by
  obtain ⟨new, rfl, -⟩ := Instruction.readMembers_eq found
  rw [List.length_append, List.length_reverse]
  omega

/-- A lone member is read, and then the object ends. -/
theorem lone_member {bound : Input} {name : String} {value : Json}
    (found : Json.readMembers (Json.readValue levels) bound true [] input =
      .ok ([(name, value)], rest)) :
    ∃ c d inner after start behind, bound = c :: d :: inner ∧
      Json.nextMember Json.readText true input = .ok (.more name after) ∧
      Json.readColon after = .ok start ∧
      Json.readValue levels start = .ok (value, behind) ∧
      Json.nextMember Json.readText false behind = .ok (.done rest) := by
  cases bound with
  | nil => cases found
  | cons c bound =>
    obtain ⟨step, stepped, made⟩ := bind_eq_ok_iff.mp found
    cases step with
    | done => cases made
    | more name after =>
      obtain ⟨start, colon, made⟩ := bind_eq_ok_iff.mp made
      obtain ⟨⟨value, behind⟩, value_read, made⟩ := bind_eq_ok_iff.mp made
      cases bound with
      | nil => cases made
      | cons d inner =>
        obtain ⟨step, ended, made⟩ := bind_eq_ok_iff.mp made
        cases step with
        | done =>
          cases made
          exact ⟨c, d, inner, after, start, behind, rfl, stepped, colon, value_read, ended⟩
        | more =>
          obtain ⟨start, -, made⟩ := bind_eq_ok_iff.mp made
          obtain ⟨⟨value, behind⟩, -, made⟩ := bind_eq_ok_iff.mp made
          exact absurd (length_le_of_readMembers made) (Nat.not_succ_le_self 1)

/-- A script is read from a text as from the objects in its array. -/
theorem ofText_of_readWhole {text : String} {objects : List (List (String × Json))}
    (found : Json.readWhole Json.readValue text =
      .ok (.object [("script", .array (objects.map .object))])) :
    ofText text = (liftMismatch (objects.mapM (ofMembers false))).map Script.mk := by
  obtain ⟨rest, value_read, ended⟩ := Json.exists_of_readWhole found
  rw [ofText]
  refine Json.readWhole_of_ended ended ?_
  rcases Json.readValue_cases value_read with
    ⟨leaf, -⟩ | ⟨inside, after, items, -, other, -⟩ |
      ⟨inside, opened, members, levels_eq, written, headed, members_read⟩
  · cases leaf
  · cases other
  · cases written
    obtain ⟨c, d, inner, after, start, behind, rfl, named, colon, list_read, closed⟩ :=
      lone_member members_read
    rw [Json.Record.read, headed, levels_eq]
    change (record.readMembers inside (c :: d :: inner) true [] none (c :: d :: inner) >>= _) = _
    rw [Json.Record.readMembers, named]
    change ((Json.readColon after >>= fun start =>
      (Json.readList Instruction.read inside start).map
        (fun result => (some result.1, result.2)) >>= _) >>= _) = _
    rw [colon]
    change (((Json.readList Instruction.read inside start).map _ >>= _) >>= _) = _
    rw [Instruction.readList_of_readValue list_read]
    cases objects.mapM (ofMembers false) with
    | error => rfl
    | ok made =>
      change (record.readMembers inside (d :: inner) false ["script"] (some made) behind >>= _) = _
      rw [Json.Record.readMembers, closed]
      rfl

/-! ### Spellings and faults in a script -/

/-- Spellings are objects that make what they spell. -/
theorem mapM_of_spells {instructions : List Instruction} {values : List Json}
    (spells : List.Forall₂ Instruction.Spells instructions values) :
    ∃ objects : List (List (String × Json)), values = objects.map .object ∧
      objects.mapM (ofMembers false) = .ok instructions := by
  induction spells with
  | nil => exact ⟨[], rfl, rfl⟩
  | cons first _ ih =>
    obtain ⟨members, rfl, made⟩ := first.ofMembers_eq
    obtain ⟨objects, rfl, others⟩ := ih
    refine ⟨members :: objects, rfl, ?_⟩
    rw [List.mapM_cons, made false, others]
    rfl

theorem exists_objects {values : List Json} (objects : ∀ value ∈ values, value.head = .object) :
    ∃ objects : List (List (String × Json)), values = objects.map .object := by
  induction values with
  | nil => exact ⟨[], rfl⟩
  | cons value rest ih =>
    obtain ⟨first, objects⟩ := List.forall_mem_cons.mp objects
    obtain ⟨others, rfl⟩ := ih objects
    cases value with
    | object members => exact ⟨members :: others, rfl⟩
    | _ => cases first

/-- One faulty object spoils the list. -/
theorem mapM_of_faulty {objects : List (List (String × Json))}
    (faulty : ∃ value ∈ objects.map Json.object, Instruction.Faulty false value) :
    ∃ mismatch, objects.mapM (ofMembers false) = .error mismatch := by
  induction objects with
  | nil =>
    obtain ⟨value, none, -⟩ := faulty
    cases none
  | cons members rest ih =>
    rw [List.mapM_cons]
    cases made : ofMembers false members with
    | error mismatch => exact ⟨mismatch, rfl⟩
    | ok instruction =>
      obtain ⟨value, among, faulty⟩ := faulty
      rcases List.mem_cons.mp among with rfl | among
      · obtain ⟨same, written, mismatch, refused⟩ := faulty.ofMembers_eq
        cases written
        cases made.symm.trans refused
      · obtain ⟨mismatch, refused⟩ := ih ⟨value, among, faulty⟩
        refine ⟨mismatch, ?_⟩
        change (rest.mapM (ofMembers false) >>= _) = _
        rw [refused]
        rfl

/-- **Instructions are decoded by their content.**  Whatever spells an instruction is read as that
instruction, alone or in a script, and an object with a fault, in itself or in an instruction inside
it, is refused. -/
theorem instructions_decode_by_content (text : String) :
    (∀ value, Json.readWhole Json.readValue text = .ok value →
      (∀ instruction, Instruction.Spells instruction value →
        Instruction.ofText text = .ok instruction) ∧
      (Instruction.Faulty false value →
        ∃ mismatch, Instruction.ofText text = .error (.mismatch mismatch))) ∧
    ∀ values, Json.readWhole Json.readValue text = .ok (.object [("script", .array values)]) →
      (∀ instructions, List.Forall₂ Instruction.Spells instructions values →
        ofText text = .ok ⟨instructions⟩) ∧
      ((∀ value ∈ values, value.head = .object) →
        (∃ value ∈ values, Instruction.Faulty false value) →
        ∃ mismatch, ofText text = .error (.mismatch mismatch)) := by
  refine ⟨fun value found => ⟨fun instruction spells => ?_, fun faulty => ?_⟩,
    fun values found => ⟨fun instructions spells => ?_, fun are_objects faulty => ?_⟩⟩
  · obtain ⟨members, rfl, made⟩ := spells.ofMembers_eq
    rw [Instruction.ofText_of_readWhole found, made]
    rfl
  · obtain ⟨members, rfl, mismatch, refused⟩ := faulty.ofMembers_eq
    refine ⟨mismatch, ?_⟩
    rw [Instruction.ofText_of_readWhole found, refused]
    rfl
  · obtain ⟨objects, rfl, made⟩ := mapM_of_spells spells
    rw [ofText_of_readWhole found, made]
    rfl
  · obtain ⟨objects, rfl⟩ := exists_objects are_objects
    obtain ⟨mismatch, refused⟩ := mapM_of_faulty faulty
    refine ⟨mismatch, ?_⟩
    rw [ofText_of_readWhole found, refused]
    rfl

/-- A subscription of node 1, with its members and those around it from last to first, and a note
among them. -/
def backwards : String :=
  "\x7b\"instruction\":\x7b\"note\":[1],\"partial\":true,\"topicID\":\"a\",\"type\":" ++
    "\"subscribeToTopic\"\x7d,\"nodeID\":1,\"type\":\"ifNodeIDEquals\"\x7d"

/-- The same in a script. -/
def backwardsScript : String :=
  "\x7b\"script\":[\x7b\"instruction\":\x7b\"note\":[1],\"partial\":true,\"topicID\":\"a\"," ++
    "\"type\":\"subscribeToTopic\"\x7d,\"nodeID\":1,\"type\":\"ifNodeIDEquals\"\x7d]\x7d"

/-- The instruction inside lacks the list of nodes. -/
def unlinked : String :=
  "\x7b\"type\":\"ifNodeIDEquals\",\"nodeID\":1,\"instruction\":\x7b\"type\":\"connect\"\x7d\x7d"

/-- The spelling from last to first is read alone and in a script, and a fault inside is not passed
over. -/
theorem backwards_is_decoded :
    let value : Json := .object [
      ("instruction", .object [("note", .array [.ofNat 1]), ("partial", .bool true),
        ("topicID", .text "a"), ("type", .text "subscribeToTopic")]),
      ("nodeID", .ofNat 1), ("type", .text "ifNodeIDEquals")]
    let broken : Json := .object [("type", .text "ifNodeIDEquals"), ("nodeID", .ofNat 1),
      ("instruction", .object [("type", .text "connect")])]
    (Json.readWhole Json.readValue backwards = .ok value ∧
      Instruction.Spells (.onlyOn 1 (.subscribe "a" true)) value ∧
      Instruction.ofText backwards = .ok (.onlyOn 1 (.subscribe "a" true))) ∧
    (Json.readWhole Json.readValue backwardsScript = .ok (.object [("script", .array [value])]) ∧
      ofText backwardsScript = .ok ⟨[.onlyOn 1 (.subscribe "a" true)]⟩) ∧
    Json.readWhole Json.readValue unlinked = .ok broken ∧ Instruction.Faulty false broken ∧
      ∃ mismatch, Instruction.ofText unlinked = .error (.mismatch mismatch) := by
  intro value broken
  have read : Json.readWhole Json.readValue backwards = .ok value := by cbv
  have listed : Json.readWhole Json.readValue backwardsScript =
      .ok (.object [("script", .array [value])]) := by cbv
  have unlinked_read : Json.readWhole Json.readValue unlinked = .ok broken := by cbv
  have subscribes : Instruction.Spells (.subscribe "a" true) (.object [
      ("note", .array [.ofNat 1]), ("partial", .bool true), ("topicID", .text "a"),
      ("type", .text "subscribeToTopic")]) :=
    @Instruction.Spells.object _ _ [("topicID", .text "a"), ("partial", .bool true)]
      [("note", .array [.ofNat 1])] (.given (.text _) (.given (.flag _) .nil))
      (List.reverse_perm [_, _, _, _]) (by simp [Instruction.form])
  have spells : Instruction.Spells (.onlyOn 1 (.subscribe "a" true)) value :=
    @Instruction.Spells.object _ _ [("nodeID", .ofNat 1), ("instruction", _)] []
      (.given (.word32 1) (.given (.instruction subscribes) .nil))
      (List.reverse_perm [_, _, _]) (List.forall_mem_nil _)
  have names : Instruction.Names false [("type", .text "ifNodeIDEquals"), ("nodeID", .ofNat 1),
      ("instruction", .object [("type", .text "connect")])] .onlyOn :=
    ⟨_, List.mem_cons_self .., .name false .onlyOn⟩
  have lacks : Instruction.Faulty true (.object [("type", .text "connect")]) :=
    @Instruction.Faulty.missing _ _ .connect .links
      ⟨_, List.mem_cons_self .., .name true .connect⟩ (by decide) (by decide) (by decide)
  have faulty : Instruction.Faulty false broken :=
    .inside names (.tail _ (.tail _ (.head _))) lacks
  refine ⟨⟨read, spells, ?_⟩, ⟨listed, ?_⟩, unlinked_read, faulty, ?_⟩
  · exact ((instructions_decode_by_content backwards).1 _ read).1 _ spells
  · exact ((instructions_decode_by_content backwardsScript).2 _ listed).1 _ (.cons spells .nil)
  · exact ((instructions_decode_by_content unlinked).1 _ unlinked_read).2 faulty

/-- Node 1 connects to itself, in an instruction whose kind is given as a number. -/
def counted : String :=
  "\x7b\"type\":\"ifNodeIDEquals\",\"nodeID\":1,\"instruction\":" ++
    "\x7b\"type\":2,\"connectTo\":[1]\x7d\x7d"

/-- A number in the place of a name is no fault in an instruction that is inside another one. -/
theorem number_names_a_kind :
    Json.readWhole Json.readValue counted =
      .ok (.object [("type", .text "ifNodeIDEquals"), ("nodeID", .ofNat 1),
        ("instruction", .object [("type", .ofNat 2), ("connectTo", .array [.ofNat 1])])]) ∧
    (∀ kind : Instruction.Kind, Json.ofNat 2 ≠ .text kind.name) ∧
    Instruction.ofText counted = .ok (.onlyOn 1 (.connect [1])) := by
  refine ⟨?_, ?_, ?_⟩
  · cbv
  · rintro kind ⟨⟩
  · cbv

end Script

end PartExchange
