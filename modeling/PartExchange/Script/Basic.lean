/-
**Scripts.**

A script is a list of instructions, written as the member `script` of an object.

Main definitions:

* `Script`: the instructions in order;
* `Script.ofText`: a script read from a text;
* `Script.load`: a script read from the content of a file, with `Script.LoadError` for the causes of
  failure;
* `Script.toJson`: the written form.
-/

import PartExchange.Bytes
import PartExchange.Json.Record
import PartExchange.Script.Instruction

set_option relaxedAutoImplicit false
set_option autoImplicit false

namespace PartExchange

open Json (Fault Record)

/-- A list of instructions. -/
structure Script where
  /-- The instructions in order. -/
  instructions : List Instruction

namespace Script

/-- The name of the only field. -/
def fieldName : String := "script"

/-- The field of a script; without a value there is no list. -/
def record : Record (Option (List Instruction)) where
  expected := "struct Script"
  fields := [
    { name := fieldName
      assign := fun levels _ input =>
        (Json.readList Instruction.read levels input).map fun (list, rest) => (some list, rest) }]

/-- Reads a text that holds one script. -/
def ofText (text : String) : Except Fault Script := do
  let reader := fun levels input => do
    let ((list, given), rest) ← record.read none levels input
    match list, given with
    | some list, _ => .ok (⟨list⟩, rest)
    | none, .members _ => .error (.mismatch (.missing fieldName))
    | none, .items count =>
      .error (.mismatch (.wrongLength count (record.expected ++ " with 1 element")))
  Json.readWhole reader text

/-- The written form of a script. -/
def toJson (script : Script) : Json :=
  .object [(fieldName, .array (script.instructions.map Instruction.toJson))]

/-- Why a script could not be loaded from a file. -/
inductive LoadError where
  | unreadable (path : String)
  | invalid (path : String) (fault : Fault)

/-- The wording of a failure to load. -/
def LoadError.message : LoadError → String
  | .unreadable path => "failed to read script " ++ path
  | .invalid path _ => "failed to parse script " ++ path

/-- The script in the content of a file; `none` if there is no such file. -/
def load (path : String) (content : Option Bytes) : Except LoadError Script :=
  match content.bind fun (bytes : Bytes) => String.fromUTF8? ⟨bytes.toArray⟩ with
  | none => .error (.unreadable path)
  | some text =>
    match ofText text with
    | .ok script => .ok script
    | .error fault => .error (.invalid path fault)

end Script

end PartExchange
