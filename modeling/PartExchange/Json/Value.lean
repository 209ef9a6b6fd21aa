/-
**JSON values.**

A value is kept as it was written: an object lists its members in order, with repeated names if
there were any.  A number is an integer if it was written without point and exponent and fits 64
bits, and a double otherwise.

Main definitions:

* `Json`, `Json.Number`: values;
* `Json.Head`: the outermost form of a value, which is what a reader sees of it first;
* `Json.tidy`: the value with the members of each object sorted by name, the last of a name kept.

Main results:

* `Json.head_array`, `Json.head_object`: the heads of compound values.
-/

set_option relaxedAutoImplicit false
set_option autoImplicit false

namespace PartExchange

/-- A number: an integer of 64 bits, with or without sign, or a double. -/
inductive Json.Number where
  | int (value : Int)
  | real (value : Float)

/-- A value. -/
inductive Json where
  | null
  | bool (value : Bool)
  | number (value : Json.Number)
  | text (value : String)
  | array (items : List Json)
  | object (members : List (String × Json))

namespace Json

instance : Inhabited Json := ⟨.null⟩

/-- The outermost form of a value. -/
inductive Head where
  | null
  | bool (value : Bool)
  | number (value : Number)
  | text (value : String)
  | array
  | object

/-- The outermost form of a value. -/
def head : Json → Head
  | .null => .null
  | .bool value => .bool value
  | .number value => .number value
  | .text value => .text value
  | .array _ => .array
  | .object _ => .object

@[simp] theorem head_array (items : List Json) : (Json.array items).head = .array := rfl

@[simp] theorem head_object (members : List (String × Json)) :
    (Json.object members).head = .object := rfl

/-- The simple value of this form; an array or an object is more than its form. -/
def Head.leaf? : Head → Option Json
  | .null => some .null
  | .bool value => some (.bool value)
  | .number value => some (.number value)
  | .text value => some (.text value)
  | .array | .object => none

/-- A natural number as a value. -/
def ofNat (n : Nat) : Json := .number (.int n)

/-- Puts a member into a list that is sorted by name; a member of the same name gives way. -/
def insertMember (name : String) (value : Json) : List (String × Json) → List (String × Json)
  | [] => [(name, value)]
  | (other, known) :: rest =>
    if name < other then (name, value) :: (other, known) :: rest
    else if name = other then (name, value) :: rest
    else (other, known) :: insertMember name value rest

mutual

/-- The value with the members of each object sorted by name; of several members of one name the
last is kept. -/
def tidy : Json → Json
  | .array items => .array (tidyItems items)
  | .object members => .object (tidyMembers [] members)
  | value => value

/-- Tidies each of the listed values. -/
def tidyItems : List Json → List Json
  | [] => []
  | item :: rest => tidy item :: tidyItems rest

/-- Puts the listed members, tidied, into a sorted list. -/
def tidyMembers (sorted : List (String × Json)) : List (String × Json) → List (String × Json)
  | [] => sorted
  | (name, value) :: rest => tidyMembers (insertMember name (tidy value) sorted) rest

end

end Json

end PartExchange
