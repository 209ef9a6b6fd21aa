/-
**Hexadecimal text.**

Bytes are shown as two digits each, high half first, with lower-case letters.  Reading accepts both
cases and works on the UTF-8 bytes of the text, so that a fault is reported at a byte position.  An
odd number of bytes is reported before any digit is looked at; after that the leftmost fault wins.

Main definitions:
* `Hex.encode`: the text of a byte string;
* `Hex.decode`: the byte string a text spells, or the fault that prevents it;
* `Hex.Fault`: the two ways a text can fail to be hexadecimal.
-/

import PartExchange.Bytes
import PartExchange.Text.Quoted

set_option relaxedAutoImplicit false
set_option autoImplicit false

namespace PartExchange.Hex

/-! ### Writing -/

/-- The digit of a number below sixteen, as an ASCII byte. -/
def digit (n : UInt8) : UInt8 :=
  if n < 10 then 48 + n else 87 + n

/-- The ASCII bytes of the digits of a byte string. -/
def digits (bytes : Bytes) : Bytes :=
  bytes.flatMap fun (byte : UInt8) => [digit (byte >>> 4), digit (byte &&& 15)]

@[simp] theorem digits_nil : digits [] = [] := rfl

@[simp] theorem digits_cons (byte : UInt8) (rest : Bytes) :
    digits (byte :: rest) = digit (byte >>> 4) :: digit (byte &&& 15) :: digits rest := rfl

/-- A byte string as lower-case hexadecimal text. -/
def encode (bytes : Bytes) : String :=
  String.ofList ((digits bytes).map fun byte => Char.ofNat byte.toNat)

/-! ### Reading -/

/-- The two ways a text can fail to be hexadecimal. -/
inductive Fault where
  | oddLength
  | invalidDigit (byte : UInt8) (position : Nat)
  deriving DecidableEq, Repr

/-- The wording of a fault; the byte is shown as the character of the same number. -/
def Fault.message : Fault → String
  | .oddLength => "Odd number of digits"
  | .invalidDigit byte position =>
    "Invalid character " ++ Text.quoteChar (Char.ofNat byte.toNat) ++ " at position " ++
      toString position

/-- The value of an ASCII digit, of either case. -/
def digitValue (byte : UInt8) : Option UInt8 :=
  if 48 ≤ byte ∧ byte ≤ 57 then some (byte - 48)
  else if 97 ≤ byte ∧ byte ≤ 102 then some (byte - 87)
  else if 65 ≤ byte ∧ byte ≤ 70 then some (byte - 55)
  else none

/-- Reads digits in pairs; `position` is the number of bytes before the text. -/
def readPairs (position : Nat) : Bytes → Except Fault Bytes
  | high :: low :: rest =>
    match digitValue high, digitValue low with
    | none, _ => .error (.invalidDigit high position)
    | _, none => .error (.invalidDigit low (position + 1))
    | some h, some l =>
      match readPairs (position + 2) rest with
      | .ok bytes => .ok ((h <<< 4 ||| l) :: bytes)
      | .error fault => .error fault
  | _ => .ok []

/-- The byte string that a text of ASCII bytes spells. -/
def readBytes (text : Bytes) : Except Fault Bytes :=
  if text.length % 2 = 1 then .error .oddLength else readPairs 0 text

/-- The byte string that a hexadecimal text spells. -/
def decode (text : String) : Except Fault Bytes :=
  readBytes text.toUTF8.toList

end PartExchange.Hex
