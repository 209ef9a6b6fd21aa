/-
**Faults of JSON texts.**

A text can break the grammar, end too early, or be a JSON value of another kind than was asked for.
Only the last sort of fault has a wording.

Main definitions:

* `Json.Mismatch`: how a value can differ from what was asked for, and its wording;
* `Json.Fault`: the three sorts of fault;
* `Json.realText`: a double in decimal.
-/

import PartExchange.Decimal.Shortest
import PartExchange.Json.Value
import PartExchange.Text.Quoted

set_option relaxedAutoImplicit false
set_option autoImplicit false

namespace PartExchange.Json

/-! ### Doubles in decimal -/

/-- The form of a double in decimal. -/
structure RealForm where
  /-- The least power of ten of the first digit that is written without an exponent. -/
  minPlain : Int
  /-- The greatest one. -/
  maxPlain : Int

/-- Doubles from `0.00001` to below ten quadrillions are written without an exponent. -/
def realForm : RealForm := ⟨-5, 15⟩

/-- A positive decimal: always with a point or an exponent, the exponent with its sign. -/
def RealForm.render (form : RealForm) (d : Decimal) : String :=
  let digits := toString d.digits
  let count : Int := digits.length
  let first := d.exponent + count - 1
  let zeros := fun n : Int => String.ofList (List.replicate n.toNat '0')
  if form.minPlain ≤ first ∧ first ≤ form.maxPlain then
    if 0 ≤ d.exponent then digits ++ zeros d.exponent ++ ".0"
    else if 0 ≤ first then
      let whole := (first + 1).toNat
      String.ofList (digits.toList.take whole) ++ "." ++ String.ofList (digits.toList.drop whole)
    else "0." ++ zeros (-first - 1) ++ digits
  else
    let fraction := String.ofList (digits.toList.drop 1)
    String.ofList (digits.toList.take 1) ++ (if fraction.isEmpty then "" else "." ++ fraction) ++
      "e" ++ (if first < 0 then "-" else "+") ++ toString first.natAbs

/-- A finite double in decimal, with the fewest digits that read back. -/
def realText (x : Float) : String :=
  let bits := x.toBits
  let magnitude := bits &&& 0x7fffffffffffffff
  (if bits = magnitude then "" else "-") ++
    (if magnitude = 0 then "0.0" else realForm.render (.shortest (.ofBits magnitude)))

/-! ### Mismatches -/

/-- The wording of what was found. -/
def Head.describe : Head → String
  | .null => "null"
  | .bool value => "boolean `" ++ toString value ++ "`"
  | .number (.int value) => "integer `" ++ toString value ++ "`"
  | .number (.real value) => "floating point `" ++ realText value ++ "`"
  | .text value => "string " ++ Text.quote value
  | .array => "sequence"
  | .object => "map"

/-- How a value can differ from what was asked for. -/
inductive Mismatch where
  | wrongKind (found : Head) (expected : String)
  | outOfRange (value : Int) (expected : String)
  | wrongLength (length : Nat) (expected : String)
  | unknownName (name : String) (known : List String)
  | missing (name : String)
  | repeated (name : String)

/-- A name between backquotes. -/
def ticked (name : String) : String := "`" ++ name ++ "`"

/-- The wording of a mismatch. -/
def Mismatch.message : Mismatch → String
  | .wrongKind found expected => "invalid type: " ++ found.describe ++ ", expected " ++ expected
  | .outOfRange value expected =>
    "invalid value: integer " ++ ticked (toString value) ++ ", expected " ++ expected
  | .wrongLength length expected =>
    "invalid length " ++ toString length ++ ", expected " ++ expected
  | .unknownName name known =>
    "unknown variant " ++ ticked name ++ ", expected one of " ++
      ", ".intercalate (known.map ticked)
  | .missing name => "missing field " ++ ticked name
  | .repeated name => "duplicate field " ++ ticked name

/-- What can be wrong with a text: it breaks the grammar, it ends before the value does, or the value
is not what was asked for. -/
inductive Fault where
  | malformed
  | cutShort
  | mismatch (mismatch : Mismatch)

/-! ### Simple values -/

/-- A reader of simple values: it looks at the outermost form only. -/
abbrev Simple (α : Type) := Head → Except Mismatch α

/-- An integer of at least zero and below `bound`; `expected` names the range. -/
def natural (bound : Nat) (expected : String) : Simple Nat
  | .number (.int value) =>
    if 0 ≤ value ∧ value < bound then .ok value.toNat else .error (.outOfRange value expected)
  | found => .error (.wrongKind found expected)

/-- A byte. -/
def byte : Simple UInt8 := fun found => (natural UInt8.size "u8" found).map UInt8.ofNat

/-- An integer of 32 bits. -/
def word32 : Simple UInt32 := fun found => (natural UInt32.size "u32" found).map UInt32.ofNat

/-- An integer of 64 bits. -/
def word64 : Simple UInt64 := fun found => (natural UInt64.size "u64" found).map UInt64.ofNat

/-- A size. -/
def size : Simple Nat := natural UInt64.size "usize"

/-- A text. -/
def string : Simple String
  | .text value => .ok value
  | found => .error (.wrongKind found "a string")

/-- A truth value. -/
def boolean : Simple Bool
  | .bool value => .ok value
  | found => .error (.wrongKind found "a boolean")

/-- An integer as a double. -/
def intToReal (value : Int) : Float :=
  if value < 0 then -(UInt64.ofNat value.natAbs).toFloat else (UInt64.ofNat value.natAbs).toFloat

/-- A double; an integer is taken as one. -/
def real : Simple Float
  | .number (.int value) => .ok (intToReal value)
  | .number (.real value) => .ok value
  | found => .error (.wrongKind found "f64")

end PartExchange.Json
