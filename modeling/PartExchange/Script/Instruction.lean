/-
**Instructions of an experiment.**

Every node of an experiment runs the same script, a list of instructions.  An instruction is written
as an object whose member `type` names its kind; the other members are its fields.  Members may come
in any order, and those that are neither `type` nor a field are ignored.  An instruction may also be
written as an array, its kind first and its fields in their order.

The whole instruction is read before its fields are looked at, so a broken text or an unknown kind
is reported before any fault in a field.

Main definitions:

* `Instruction`: what a node can be told to do;
* `Instruction.Kind`, `Instruction.FieldName`: the names in the written form;
* `Instruction.ofJson`: the instruction that a value spells;
* `Instruction.read`: the instruction at the front of a text;
* `Instruction.toJson`: the written form.
-/

import PartExchange.Json.Reader

set_option relaxedAutoImplicit false
set_option autoImplicit false

namespace PartExchange

open Json (Fault Mismatch Simple Reader Input Head)

/-- What a node can be told to do.  The instructions from `initRouter` on concern a router of full
messages; a node that exchanges parts passes over them. -/
inductive Instruction where
  /-- Hold these parts of a group, with reproducible content. -/
  | addParts (parts : UInt8) (topic : String) (group : UInt64)
  /-- Send a group that is held to the listed nodes, or to all if none is listed. -/
  | publishParts (topic : String) (group : UInt64) (nodes : Option (List UInt32))
  /-- Link to the listed nodes. -/
  | connect (nodes : List UInt32)
  /-- Follow `body` only on this node. -/
  | onlyOn (node : UInt32) (body : Instruction)
  /-- Wait until this many seconds after the start of the script. -/
  | waitUntil (seconds : UInt64)
  /-- Settings of the router, as they are written. -/
  | initRouter (settings : Json)
  /-- Subscribe to a topic, for parts or for full messages. -/
  | subscribe (topic : String) (parts : Bool)
  /-- Publish a full message of this size. -/
  | publishFull (message size : UInt64) (topic : String)
  /-- Delay the validation of messages. -/
  | delayValidation (topic : String) (seconds : Float)

instance : Inhabited Instruction := ⟨.connect []⟩

namespace Instruction

/-! ### Names -/

/-- The kinds of instruction, one for each form. -/
inductive Kind where
  | addParts
  | publishParts
  | connect
  | onlyOn
  | waitUntil
  | initRouter
  | subscribe
  | publishFull
  | delayValidation
  deriving DecidableEq, Repr

/-- The fields of instructions.  `targets` are the nodes to publish to, `links` the nodes to link to;
`node` and `body` are what an instruction for one node is made of, `message` and `size` describe a full
message. -/
inductive FieldName where
  | parts
  | topic
  | group
  | targets
  | links
  | node
  | body
  | elapsed
  | settings
  | wantsParts
  | message
  | size
  | delay
  deriving DecidableEq, Repr

namespace Kind

/-- The kinds in their order. -/
def all : List Kind :=
  [.addParts, .publishParts, .connect, .onlyOn, .waitUntil, .initRouter, .subscribe, .publishFull,
    .delayValidation]

/-- The name of a kind in the written form. -/
def name : Kind → String
  | .addParts => "addPartialMessage"
  | .publishParts => "publishPartial"
  | .connect => "connect"
  | .onlyOn => "ifNodeIDEquals"
  | .waitUntil => "waitUntil"
  | .initRouter => "initGossipSub"
  | .subscribe => "subscribeToTopic"
  | .publishFull => "publish"
  | .delayValidation => "setTopicValidationDelay"

/-- The name of a kind in reports of faults. -/
def title : Kind → String
  | .addParts => "AddPartialMessage"
  | .publishParts => "PublishPartial"
  | .connect => "Connect"
  | .onlyOn => "IfNodeIdEquals"
  | .waitUntil => "WaitUntil"
  | .initRouter => "InitGossipSub"
  | .subscribe => "SubscribeToTopic"
  | .publishFull => "Publish"
  | .delayValidation => "SetTopicValidationDelay"

/-- The fields of a kind in their order. -/
def fields : Kind → List FieldName
  | .addParts => [.parts, .topic, .group]
  | .publishParts => [.topic, .group, .targets]
  | .connect => [.links]
  | .onlyOn => [.node, .body]
  | .waitUntil => [.elapsed]
  | .initRouter => [.settings]
  | .subscribe => [.topic, .wantsParts]
  | .publishFull => [.message, .size, .topic]
  | .delayValidation => [.topic, .delay]

/-- The kind of this name. -/
def ofName (name : String) : Except Mismatch Kind :=
  match all.find? (·.name = name) with
  | some kind => .ok kind
  | none => .error (.unknownName name (all.map Kind.name))

/-- The kind that stands in a text: it must be named. -/
def ofHead : Simple Kind
  | .text name => ofName name
  | found => .error (.wrongKind found "variant identifier")

/-- The kind that stands in a value: it may be named, or counted from zero. -/
def ofInner : Simple Kind
  | .number (.int value) =>
    if value < 0 then .error (.wrongKind (.number (.int value)) "variant identifier")
    else
      match all[value.toNat]? with
      | some kind => .ok kind
      | none => .error (.outOfRange value ("variant index 0 <= i < " ++ toString all.length))
  | found => ofHead found

/-- The words for a number of elements. -/
def elements (count : Nat) : String :=
  toString count ++ (if count = 1 then " element" else " elements")

/-- What a reader of the fields says it was looking for. -/
def expected (kind : Kind) : String :=
  "struct variant ScriptInstruction::" ++ kind.title ++ " with " ++ elements kind.fields.length

end Kind

namespace FieldName

/-- The name of a field in the written form. -/
def name : FieldName → String
  | .parts => "parts"
  | .topic => "topicID"
  | .group => "groupID"
  | .targets => "publishToNodeIDs"
  | .links => "connectTo"
  | .node => "nodeID"
  | .body => "instruction"
  | .elapsed => "elapsedSeconds"
  | .settings => "gossipSubParams"
  | .wantsParts => "partial"
  | .message => "messageID"
  | .size => "messageSizeBytes"
  | .delay => "delaySeconds"

/-- Whether a field may be absent. -/
def optional : FieldName → Bool
  | .targets | .settings | .wantsParts => true
  | _ => false

end FieldName

/-- The name of the member that names the kind. -/
def tagName : String := "type"

/-- What a reader of an instruction says it was looking for. -/
def expected : String := "internally tagged enum ScriptInstruction"

/-! ### Fields -/

/-- The value of a field. -/
inductive FieldValue where
  | byte (value : UInt8)
  | text (value : String)
  | word32 (value : UInt32)
  | word64 (value : UInt64)
  | nodes? (value : Option (List UInt32))
  | nodes (value : List UInt32)
  | flag (value : Bool)
  | real (value : Float)
  | json (value : Json)
  | instruction (value : Instruction)

/-- Fields with their values, last first. -/
abbrev Draft := List (FieldName × FieldValue)

/-- The numbers of the listed nodes. -/
def nodesOfItems : List Json → Except Mismatch (List UInt32)
  | [] => .ok []
  | item :: rest => do
    let node ← Json.word32 item.head
    let nodes ← nodesOfItems rest
    .ok (node :: nodes)

/-- A list of nodes. -/
def nodesOfJson : Json → Except Mismatch (List UInt32)
  | .array items => nodesOfItems items
  | value => .error (.wrongKind value.head "a sequence")

/-- The value of a field other than `FieldName.body`. -/
def FieldName.decode : FieldName → Json → Except Mismatch FieldValue
  | .parts, value => (Json.byte value.head).map .byte
  | .topic, value => (Json.string value.head).map .text
  | .group, value | .elapsed, value | .message, value | .size, value =>
    (Json.word64 value.head).map .word64
  | .targets, .null => .ok (.nodes? none)
  | .targets, value => (nodesOfJson value).map fun nodes => .nodes? (some nodes)
  | .links, value => (nodesOfJson value).map .nodes
  | .node, value => (Json.word32 value.head).map .word32
  | .wantsParts, value => (Json.boolean value.head).map .flag
  | .delay, value => (Json.real value.head).map .real
  | .settings, value => .ok (.json value.tidy)
  | .body, value => .error (.wrongKind value.head expected)

/-- The value of a field, or the default of one that may be absent. -/
def Draft.find (draft : Draft) (field : FieldName) : Except Mismatch FieldValue :=
  match draft.lookup field, field with
  | some value, _ => .ok value
  | none, .targets => .ok (.nodes? none)
  | none, .settings => .ok (.json .null)
  | none, .wantsParts => .ok (.flag false)
  | none, _ => .error (.missing field.name)

/-- The values of the listed fields.  The first that is absent is reported. -/
def Draft.values (draft : Draft) : List FieldName → Except Mismatch (List FieldValue)
  | [] => .ok []
  | field :: rest => do
    let value ← draft.find field
    let values ← draft.values rest
    .ok (value :: values)

/-- The instruction of a kind with these values in the order of its fields. -/
def ofValues : Kind → List FieldValue → Option Instruction
  | .addParts, [.byte parts, .text topic, .word64 group] => some (.addParts parts topic group)
  | .publishParts, [.text topic, .word64 group, .nodes? nodes] =>
    some (.publishParts topic group nodes)
  | .connect, [.nodes nodes] => some (.connect nodes)
  | .onlyOn, [.word32 node, .instruction body] => some (.onlyOn node body)
  | .waitUntil, [.word64 seconds] => some (.waitUntil seconds)
  | .initRouter, [.json settings] => some (.initRouter settings)
  | .subscribe, [.text topic, .flag parts] => some (.subscribe topic parts)
  | .publishFull, [.word64 message, .word64 size, .text topic] =>
    some (.publishFull message size topic)
  | .delayValidation, [.text topic, .real seconds] => some (.delayValidation topic seconds)
  | _, _ => none

/-- The instruction of a kind with the fields of a draft. -/
def ofDraft (kind : Kind) (draft : Draft) : Except Mismatch Instruction := do
  let values ← draft.values kind.fields
  .ok ((ofValues kind values).getD default)

/-! ### Values -/

/-- The kind that the members of an object name, and the fault of naming none or several. -/
def kindOfMembers (members : List (String × Json)) : Except Mismatch Kind := do
  match members.filter (·.1 = tagName) with
  | [] => .error (.missing tagName)
  | (_, value) :: more =>
    let kind ← Kind.ofInner value.head
    if more.isEmpty then .ok kind else .error (.repeated tagName)

mutual

/-- The instruction that a value spells. -/
def ofJson : Json → Except Mismatch Instruction
  | .object members => do
    let kind ← kindOfMembers members
    ofDraft kind (← draftOfMembers kind [] members)
  | .array (item :: items) => do
    let kind ← Kind.ofInner item.head
    ofDraft kind (← draftOfItems kind 0 kind.fields [] items)
  | .array [] => .error (.missing tagName)
  | value => .error (.wrongKind value.head expected)

/-- The value of a field. -/
def decodeField : FieldName → Json → Except Mismatch FieldValue
  | .body, value => (ofJson value).map .instruction
  | field, value => field.decode value

/-- The fields that members give to an instruction of a kind, in the order of the members. -/
def draftOfMembers (kind : Kind) (draft : Draft) : List (String × Json) → Except Mismatch Draft
  | [] => .ok draft
  | (name, value) :: rest =>
    match kind.fields.find? (·.name = name) with
    | none => draftOfMembers kind draft rest
    | some field =>
      if (draft.lookup field).isSome then .error (.repeated name)
      else
        match decodeField field value with
        | .error mismatch => .error mismatch
        | .ok value => draftOfMembers kind ((field, value) :: draft) rest

/-- The fields that items give to an instruction of a kind, in the order of its fields; `count`
fields came before. -/
def draftOfItems (kind : Kind) (count : Nat) (fields : List FieldName) (draft : Draft) :
    List Json → Except Mismatch Draft
  | [] =>
    match fields.find? (!·.optional) with
    | none => .ok draft
    | some _ => .error (.wrongLength count kind.expected)
  | item :: rest =>
    match fields with
    | [] =>
      .error (.wrongLength (count + (item :: rest).length) (Kind.elements count ++ " in sequence"))
    | field :: fields =>
      match decodeField field item with
      | .error mismatch => .error mismatch
      | .ok value => draftOfItems kind (count + 1) fields ((field, value) :: draft) rest

end

/-! ### Texts -/

/-- Lets a mismatch be a fault of the text. -/
def liftMismatch {α : Type} : Except Mismatch α → Except Fault α
  | .ok value => .ok value
  | .error mismatch => .error (.mismatch mismatch)

/-- Reads the members of an instruction: its kind as soon as it comes, everything else as values,
last first. -/
def readMembers (levels : Nat) : (bound : Input) → (first : Bool) → (kind : Option Kind) →
    (read : List (String × Json)) → Reader (Option Kind × List (String × Json))
  | [], _, _, _, _ => .error .cutShort
  | _ :: bound, first, kind, read, input => do
    match ← Json.nextMember Json.readText first input with
    | .done rest => .ok ((kind, read.reverse), rest)
    | .more name rest =>
      if name = tagName then
        if kind.isSome then .error (.mismatch (.repeated tagName))
        else
          let (kind, rest) ← Json.readSimple Kind.ofHead (← Json.readColon rest)
          readMembers levels bound false (some kind) read rest
      else
        let (value, rest) ← Json.readValue levels (← Json.readColon rest)
        readMembers levels bound false kind ((name, value) :: read) rest

/-- Reads an instruction. -/
def read (levels : Nat) : Reader Instruction := fun input => do
  let (found, rest) ← Json.readHead input
  match found with
  | .object =>
    let levels ← Json.enter levels
    let ((kind, members), rest) ← readMembers levels rest true none [] rest
    match kind with
    | none => .error (.mismatch (.missing tagName))
    | some kind =>
      let draft ← liftMismatch (draftOfMembers kind [] members)
      .ok (← liftMismatch (ofDraft kind draft), rest)
  | .array =>
    let levels ← Json.enter levels
    match ← Json.nextItem true rest with
    | .done _ => .error (.mismatch (.missing tagName))
    | .more _ rest =>
      let (kind, rest) ← Json.readSimple Kind.ofHead rest
      let (items, rest) ← Json.readItems (Json.readValue levels) rest false [] rest
      let draft ← liftMismatch (draftOfItems kind 0 kind.fields [] items)
      .ok (← liftMismatch (ofDraft kind draft), rest)
  | _ => .error (.mismatch (.wrongKind found expected))

/-- Reads a text that holds one instruction. -/
def ofText (text : String) : Except Fault Instruction := Json.readWhole read text

/-! ### Writing -/

/-- A list of nodes as a value. -/
def nodesToJson (nodes : List UInt32) : Json :=
  .array (nodes.map fun (node : UInt32) => .ofNat node.toNat)

/-- The members of an instruction in the written form, without its kind. -/
def tagged (kind : Kind) (members : List (FieldName × Json)) : Json :=
  .object ((tagName, .text kind.name) :: members.map fun (field, value) => (field.name, value))

/-- The written form of an instruction. -/
def toJson : Instruction → Json
  | .addParts parts topic group =>
    tagged .addParts [(.parts, .ofNat parts.toNat), (.topic, .text topic),
      (.group, .ofNat group.toNat)]
  | .publishParts topic group nodes =>
    tagged .publishParts [(.topic, .text topic), (.group, .ofNat group.toNat),
      (.targets, (nodes.map nodesToJson).getD .null)]
  | .connect nodes => tagged .connect [(.links, nodesToJson nodes)]
  | .onlyOn node body => tagged .onlyOn [(.node, .ofNat node.toNat), (.body, body.toJson)]
  | .waitUntil seconds => tagged .waitUntil [(.elapsed, .ofNat seconds.toNat)]
  | .initRouter settings => tagged .initRouter [(.settings, settings)]
  | .subscribe topic parts =>
    tagged .subscribe [(.topic, .text topic), (.wantsParts, .bool parts)]
  | .publishFull message size topic =>
    tagged .publishFull [(.message, .ofNat message.toNat), (.size, .ofNat size.toNat),
      (.topic, .text topic)]
  | .delayValidation topic seconds =>
    tagged .delayValidation [(.topic, .text topic), (.delay, .number (.real seconds))]

end Instruction

end PartExchange
