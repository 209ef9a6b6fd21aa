/-
**Reading records.**

A record has fields with names and an order.  It may be written as an object, with its members in
any order, or as an array of values in the order of the fields.  Members that are no fields are
skipped, a field that is given twice is a fault, and an array may break off early.

Main definitions:

* `Json.Field`: a field, and how its value changes the record;
* `Json.Record`: the fields of a record;
* `Json.Record.read`: reads a record, starting from its defaults.
-/

import PartExchange.Json.Reader

set_option relaxedAutoImplicit false
set_option autoImplicit false

namespace PartExchange.Json

/-- A field of a record of type `σ`. -/
structure Field (σ : Type) where
  /-- Its name. -/
  name : String
  /-- Reads its value into a record; `levels` are left for arrays and objects in it. -/
  assign : (levels : Nat) → σ → Reader σ

/-- A field with a simple value. -/
def Field.simple {σ α : Type} (name : String) (value : Simple α) (set : σ → α → σ) : Field σ where
  name
  assign _ record input := (readSimple value input).map fun (a, rest) => (set record a, rest)

/-- The fields of a record. -/
structure Record (σ : Type) where
  /-- What a reader says it was looking for. -/
  expected : String
  /-- The fields in their order. -/
  fields : List (Field σ)

/-- How a record was written: as an array of so many values, or as an object with these fields. -/
inductive Given where
  | items (count : Nat)
  | members (names : List String)

namespace Record

variable {σ : Type}

/-- Reads members into a record; `given` are the fields there were so far. -/
def readMembers (r : Record σ) (levels : Nat) : (bound : Input) → (first : Bool) →
    (given : List String) → (record : σ) → Reader (σ × Given)
  | [], _, _, _, _ => .error .cutShort
  | _ :: bound, first, given, record, input => do
    match ← nextMember readText first input with
    | .done rest => .ok ((record, .members given), rest)
    | .more name rest =>
      match r.fields.find? (·.name = name) with
      | none => readMembers r levels bound false given record (← skipValue (← readColon rest))
      | some field =>
        if given.contains name then .error (.mismatch (.repeated name))
        else
          let (record, rest) ← field.assign levels record (← readColon rest)
          readMembers r levels bound false (name :: given) record rest

/-- Reads the values of the listed fields into a record; `count` values came before. -/
def readItems (levels : Nat) : (fields : List (Field σ)) → (count : Nat) → (record : σ) →
    Reader (σ × Given)
  | [], count, record, input => do .ok ((record, .items count), ← endArray input)
  | field :: fields, count, record, input => do
    match ← nextItem (count == 0) input with
    | .done rest => .ok ((record, .items count), rest)
    | .more _ rest =>
      let (record, rest) ← field.assign levels record rest
      readItems levels fields (count + 1) record rest

/-- Reads a record, starting from its defaults. -/
def read (r : Record σ) (defaults : σ) (levels : Nat) : Reader (σ × Given) := fun input => do
  let (found, rest) ← readHead input
  match found with
  | .object => r.readMembers (← enter levels) rest true [] defaults rest
  | .array => readItems (← enter levels) r.fields 0 defaults rest
  | _ => .error (.mismatch (.wrongKind found r.expected))

/-- Reads a record all of whose fields may be absent. -/
def readLenient (r : Record σ) (defaults : σ) (levels : Nat) : Reader σ := fun input =>
  (r.read defaults levels input).map fun ((record, _), rest) => (record, rest)

end Record

end PartExchange.Json
