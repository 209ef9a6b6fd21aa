/-
**Group identifiers.**

A group is one logical message within a topic.  Its identifier is eight bytes; read as a number, the
first byte is the most significant.  The eight bytes are what is stored, sent and compared, and the
number is what is shown.

Main definitions:
* `GroupId`: eight bytes;
* `GroupId.ofUInt64`, `GroupId.toUInt64`: the identifier as a number;
* `GroupId.ofBytes?`, `GroupId.ofHex`: the checked ways to obtain one;
* `GroupId.compare`: the dictionary order of the bytes.

Main results:
* `GroupId.ofBytes?_bytes`: the bytes of an identifier give that identifier back.
-/

import PartExchange.Hex

set_option relaxedAutoImplicit false
set_option autoImplicit false

namespace PartExchange

/-- The size of a group identifier in bytes. -/
def groupIdLength : Nat := 8

/-- The identifier of one logical message within a topic. -/
@[ext]
structure GroupId where
  /-- The eight bytes, most significant first. -/
  bytes : Bytes
  /-- An identifier is never shorter or longer. -/
  length_bytes : bytes.length = groupIdLength
  deriving DecidableEq

namespace GroupId

/-- The identifier that spells a number. -/
def ofUInt64 (word : UInt64) : GroupId := ⟨Bytes.ofUInt64 word, rfl⟩

/-- The number an identifier spells. -/
def toUInt64 (group : GroupId) : UInt64 := UInt64.ofNat group.bytes.value

instance : Inhabited GroupId := ⟨ofUInt64 0⟩

/-- The identifier with these bytes, if there are eight of them. -/
def ofBytes? (bytes : Bytes) : Option GroupId :=
  if h : bytes.length = groupIdLength then some ⟨bytes, h⟩ else none

@[simp] theorem ofBytes?_bytes (group : GroupId) : ofBytes? group.bytes = some group := by
  simp [ofBytes?, group.length_bytes]

/-- The dictionary order of the eight bytes. -/
def compare (g h : GroupId) : Ordering := Bytes.compare g.bytes h.bytes

/-! ### Text -/

/-- The ways a text can fail to name a group. -/
inductive ParseFault where
  | digits (fault : Hex.Fault)
  | size
  deriving DecidableEq, Repr

/-- The wording of a fault. -/
def ParseFault.message : ParseFault → String
  | .digits fault => fault.message
  | .size => "Invalid string length"

/-- Reads sixteen hexadecimal digits. -/
def ofHex (text : String) : Except ParseFault GroupId :=
  match Hex.decode text with
  | .error fault => .error (.digits fault)
  | .ok bytes =>
    match ofBytes? bytes with
    | some group => .ok group
    | none => .error .size

/-- The sixteen hexadecimal digits of an identifier. -/
def toHex (group : GroupId) : String := Hex.encode group.bytes

/-- The number in decimal. -/
def display (group : GroupId) : String := toString group.toUInt64.toNat

/-- The hexadecimal digits with the type's name around them. -/
def debug (group : GroupId) : String := "GroupId(" ++ group.toHex ++ ")"

end GroupId

end PartExchange
