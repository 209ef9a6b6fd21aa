/-
**Reading JSON texts.**

A text is read from front to back, and the first fault met ends the reading.  A reader takes what is
left of the text and gives back a value and what is left after it.  Readers know what they look for,
so a value of the wrong kind is a fault as soon as its beginning shows it, even if the text goes on
badly.  Values that nobody asked for are skipped by a more lenient rule.

Arrays and objects may be nested `maxDepth` levels deep; one more breaks the grammar.  Skipping
knows no such bound.  A loop that goes through a text takes a list as its `bound` that is no
shorter than the text, usually the text itself: every turn uses up some of the text, so the bound
is never felt.

Main definitions:

* `Json.readHead`: the outermost form of the next value;
* `Json.readValue`: a whole value;
* `Json.skipValue`: what is left after a value that nobody asked for;
* `Json.nextItem`, `Json.nextMember`: the way through an array or an object;
* `Json.readWhole`: a text that holds one value and nothing else.
-/

import PartExchange.Json.Fault

set_option relaxedAutoImplicit false
set_option autoImplicit false

namespace PartExchange.Json

/-- What is left of a text. -/
abbrev Input := List Char

/-- A reader: a value and what is left after it. -/
abbrev Reader (α : Type) := Input → Except Fault (α × Input)

/-- The number of levels that arrays and objects may be nested. -/
def maxDepth : Nat := 127

/-- The levels that are left inside one more array or object. -/
def enter : (levels : Nat) → Except Fault Nat
  | 0 => .error .malformed
  | levels + 1 => .ok levels

/-- Whether a character may stand between the parts of a text. -/
def isBlank (c : Char) : Bool := c = ' ' || c = '\n' || c = '\t' || c = '\r'

/-- What is left after blanks. -/
def skipBlanks (input : Input) : Input := input.dropWhile isBlank

/-! ### Words -/

/-- What is left after the given characters. -/
def expectChars : (expected : List Char) → Input → Except Fault Input
  | [], input => .ok input
  | _ :: _, [] => .error .cutShort
  | c :: expected, d :: input =>
    if c = d then expectChars expected input else .error .malformed

/-! ### Numbers -/

/-- Digits at the front, and what is left after them. -/
def spanDigits (input : Input) : List Char × Input := input.span Char.isDigit

/-- Appends digits to a number as long as the result fits 64 bits; the digits left over come
second. -/
def appendDigits (n : Nat) : List Char → Nat × List Char
  | [] => (n, [])
  | c :: rest =>
    let next := n * 10 + (c.toNat - 48)
    if next < UInt64.size then appendDigits next rest else (n, c :: rest)

/-- A power of ten as a double. -/
def powerOfTen (exponent : Nat) : Float := Float.ofScientific 1 false exponent

/-- Divides a double by a power of ten, in steps of at most 308. -/
def divideByPower (x : Float) (exponent : Nat) : Float :=
  if exponent ≤ 308 then x / powerOfTen exponent
  else if x == 0 then x
  else divideByPower (x / powerOfTen 308) (exponent - 308)
termination_by exponent

/-- The double for a significand and a power of ten: the significand is rounded, and then multiplied
or divided once.  A number that is too large breaks the grammar. -/
def scale (negative : Bool) (significand : Nat) (exponent : Int) : Except Fault Float :=
  let x := (UInt64.ofNat significand).toFloat
  let signed := fun x : Float => if negative then -x else x
  match exponent with
  | .negSucc e => .ok (signed (divideByPower x (e + 1)))
  | .ofNat e =>
    if e ≤ 308 then
      let y := x * powerOfTen e
      if y.isInf then .error .malformed else .ok (signed y)
    else if x == 0 then .ok (signed x)
    else .error .malformed

/-- The exponent of a number, after its `e`. -/
def readExponent (negative : Bool) (significand : Nat) (start : Int) (input : Input) :
    Except Fault (Float × Input) :=
  let (down, input) := match input with
    | '+' :: rest => (false, rest)
    | '-' :: rest => (true, rest)
    | _ => (false, input)
  match spanDigits input with
  | ([], []) => .error .cutShort
  | ([], _ :: _) => .error .malformed
  | (digits, rest) =>
    let exponent : Nat := digits.foldl (fun n c => n * 10 + (c.toNat - 48)) 0
    if exponent < 1 <<< 31 then
      let power : Int := if down then start - exponent else start + exponent
      (scale negative significand power).map (·, rest)
    else if significand ≠ 0 ∧ !down then .error .malformed
    else .ok (if negative then -0.0 else 0.0, rest)

/-- What may follow the digits of a number that is not an integer: an exponent or nothing. -/
def readScale (negative : Bool) (significand : Nat) (exponent : Int) (input : Input) :
    Except Fault (Float × Input) :=
  match input with
  | 'e' :: rest | 'E' :: rest => readExponent negative significand exponent rest
  | _ => (scale negative significand exponent).map (·, input)

/-- The digits after the point.  Digits that do not fit 64 bits any more are passed over. -/
def readFraction (negative : Bool) (significand : Nat) (exponent : Int) (input : Input) :
    Except Fault (Float × Input) :=
  match spanDigits input with
  | ([], []) => .error .cutShort
  | ([], _ :: _) => .error .malformed
  | (digits, rest) =>
    let (significand, extra) := appendDigits significand digits
    let used := digits.length - extra.length
    readScale negative significand (exponent - used) rest

/-- A number, after its sign.  An integer that does not fit 64 bits is a double, and so is the
negative zero. -/
def readNumber (negative : Bool) (input : Input) : Except Fault (Number × Input) :=
  match spanDigits input with
  | ([], []) => .error .cutShort
  | ([], _ :: _) => .error .malformed
  | (digits, rest) =>
    if digits.head? = some '0' ∧ 1 < digits.length then .error .malformed
    else
      let (significand, extra) := appendDigits 0 digits
      let asReal := fun result : Except Fault (Float × Input) =>
        result.map fun (x, rest) => (Number.real x, rest)
      match rest with
      | '.' :: rest => asReal (readFraction negative significand extra.length rest)
      | 'e' :: rest | 'E' :: rest =>
        asReal (readExponent negative significand extra.length rest)
      | _ =>
        if !extra.isEmpty then asReal ((scale negative significand extra.length).map (·, rest))
        else if !negative then .ok (.int significand, rest)
        else if significand = 0 ∨ 1 <<< 63 < significand then
          asReal (.ok (-(UInt64.ofNat significand).toFloat, rest))
        else .ok (.int (-significand), rest)

/-- What is left after a number that nobody asked for.  Its size does not matter. -/
def skipNumber (input : Input) : Except Fault Input :=
  let afterExponent := fun input : Input =>
    let input := match input with
      | '+' :: rest | '-' :: rest => rest
      | _ => input
    match spanDigits input with
    | ([], _) => Except.error Fault.malformed
    | (_, rest) => .ok rest
  match spanDigits input with
  | ([], _) => .error .malformed
  | (digits, rest) =>
    if digits.head? = some '0' ∧ 1 < digits.length then .error .malformed
    else
      match rest with
      | '.' :: rest =>
        match spanDigits rest with
        | ([], _) => .error .malformed
        | (_, 'e' :: rest) | (_, 'E' :: rest) => afterExponent rest
        | (_, rest) => .ok rest
      | 'e' :: rest | 'E' :: rest => afterExponent rest
      | _ => .ok rest

/-! ### Texts -/

/-- The value of a hexadecimal digit. -/
def hexValue (c : Char) : Option Nat :=
  if '0' ≤ c ∧ c ≤ '9' then some (c.toNat - 48)
  else if 'a' ≤ c ∧ c ≤ 'f' then some (c.toNat - 87)
  else if 'A' ≤ c ∧ c ≤ 'F' then some (c.toNat - 55)
  else none

/-- Four hexadecimal digits.  A text with fewer than four bytes left is cut short, whatever they
are. -/
def readHex4 (input : Input) : Except Fault (Nat × Input) :=
  if (String.ofList (input.take 4)).utf8ByteSize < 4 then .error .cutShort
  else
    match input with
    | a :: b :: c :: d :: rest =>
      match hexValue a, hexValue b, hexValue c, hexValue d with
      | some a, some b, some c, some d => .ok (((a * 16 + b) * 16 + c) * 16 + d, rest)
      | _, _, _, _ => .error .malformed
    | _ => .error .malformed

/-- The character spelt by number, after `\u`.  A character beyond the first 65536 is spelt by a
pair of numbers, high before low, and neither may stand alone. -/
def readSpelt (input : Input) : Except Fault (Char × Input) := do
  let (high, rest) ← readHex4 input
  if 0xdc00 ≤ high ∧ high ≤ 0xdfff then .error .malformed
  else if high < 0xd800 ∨ 0xdbff < high then .ok (Char.ofNat high, rest)
  else
    let rest ← expectChars ['\\', 'u'] rest
    let (low, rest) ← readHex4 rest
    if low < 0xdc00 ∨ 0xdfff < low then .error .malformed
    else .ok (Char.ofNat ((high - 0xd800) * 1024 + (low - 0xdc00) + 0x10000), rest)

/-- The character that stands after a backslash. -/
def readEscaped : Input → Except Fault (Char × Input)
  | [] => .error .cutShort
  | '"' :: rest => .ok ('"', rest)
  | '\\' :: rest => .ok ('\\', rest)
  | '/' :: rest => .ok ('/', rest)
  | 'b' :: rest => .ok ('\x08', rest)
  | 'f' :: rest => .ok ('\x0c', rest)
  | 'n' :: rest => .ok ('\n', rest)
  | 'r' :: rest => .ok ('\r', rest)
  | 't' :: rest => .ok ('\t', rest)
  | 'u' :: rest => readSpelt rest
  | _ :: _ => .error .malformed

/-- The rest of a text, after its opening quote; `read` holds the characters so far, last first. -/
def readChars : (bound : Input) → (read : List Char) → Input → Except Fault (String × Input)
  | [], _, _ => .error .cutShort
  | _ :: bound, read, input =>
    match input with
    | [] => .error .cutShort
    | '"' :: rest => .ok (String.ofList read.reverse, rest)
    | '\\' :: rest => do
      let (c, rest) ← readEscaped rest
      readChars bound (c :: read) rest
    | c :: rest => if c.toNat < 32 then .error .malformed else readChars bound (c :: read) rest

/-- A text, after its opening quote. -/
def readText (input : Input) : Except Fault (String × Input) := readChars input [] input

/-- What is left after a text that nobody asked for, after its opening quote.  Halves of pairs may
stand alone in it. -/
def skipChars : (bound : Input) → Input → Except Fault Input
  | [], _ => .error .cutShort
  | _ :: bound, input =>
    match input with
    | [] => .error .cutShort
    | '"' :: rest => .ok rest
    | ['\\'] => .error .cutShort
    | '\\' :: 'u' :: rest => do
      let (_, rest) ← readHex4 rest
      skipChars bound rest
    | '\\' :: c :: rest =>
      if "\"\\/bfnrt".toList.contains c then skipChars bound rest else .error .malformed
    | c :: rest => if c.toNat < 32 then .error .malformed else skipChars bound rest

/-- What is left after a text that nobody asked for, after its opening quote. -/
def skipText (input : Input) : Except Fault Input := skipChars input input

/-! ### Heads -/

/-- The outermost form of the next value.  A simple value is read as a whole; of an array or an
object only the bracket is read. -/
def readHead : Reader Head := fun input =>
  match skipBlanks input with
  | [] => .error .cutShort
  | 'n' :: rest => (expectChars ['u', 'l', 'l'] rest).map (Head.null, ·)
  | 't' :: rest => (expectChars ['r', 'u', 'e'] rest).map (Head.bool true, ·)
  | 'f' :: rest => (expectChars ['a', 'l', 's', 'e'] rest).map (Head.bool false, ·)
  | '"' :: rest => (readText rest).map fun (value, rest) => (.text value, rest)
  | '[' :: rest => .ok (.array, rest)
  | '{' :: rest => .ok (.object, rest)
  | '-' :: rest => (readNumber true rest).map fun (n, rest) => (.number n, rest)
  | c :: rest =>
    if c.isDigit then (readNumber false (c :: rest)).map fun (n, rest) => (.number n, rest)
    else .error .malformed

/-- A simple value. -/
def readSimple {α : Type} (simple : Simple α) : Reader α := fun input => do
  let (found, rest) ← readHead input
  match simple found with
  | .ok value => .ok (value, rest)
  | .error mismatch => .error (.mismatch mismatch)

/-! ### Arrays and objects -/

/-- The way through an array or an object: it ends, or it goes on after an item.  Either way there is
a rest of the text. -/
inductive Step (α : Type) where
  | done (rest : Input)
  | more (item : α) (rest : Input)

/-- Looks for the next item of an array; `first` if there was none yet. -/
def nextItem (first : Bool) (input : Input) : Except Fault (Step Unit) :=
  match skipBlanks input with
  | [] => .error .cutShort
  | ']' :: rest => .ok (.done rest)
  | c :: rest =>
    if first then .ok (.more () (c :: rest))
    else if c = ',' then
      match skipBlanks rest with
      | [] => .error .cutShort
      | ']' :: _ => .error .malformed
      | rest => .ok (.more () rest)
    else .error .malformed

/-- Looks for the name of the next member of an object; `first` if there was none yet.  `text` reads
the name, and what is left begins before the colon. -/
def nextMember {α : Type} (text : Input → Except Fault (α × Input)) (first : Bool) (input : Input) :
    Except Fault (Step α) :=
  let name := fun input => (text input).map fun (name, rest) => Step.more name rest
  match skipBlanks input with
  | [] => .error .cutShort
  | '}' :: rest => .ok (.done rest)
  | c :: rest =>
    if first then
      if c = '"' then name rest else .error .malformed
    else if c = ',' then
      match skipBlanks rest with
      | [] => .error .cutShort
      | '"' :: rest => name rest
      | _ => .error .malformed
    else .error .malformed

/-- The colon after the name of a member. -/
def readColon (input : Input) : Except Fault Input :=
  match skipBlanks input with
  | [] => .error .cutShort
  | ':' :: rest => .ok rest
  | _ => .error .malformed

/-- The end of an array all of whose items have been read. -/
def endArray (input : Input) : Except Fault Input :=
  match skipBlanks input with
  | [] => .error .cutShort
  | ']' :: rest => .ok rest
  | _ => .error .malformed

/-- The rest of an array, after the items `read`, last first. -/
def readItems {α : Type} (item : Reader α) : (bound : Input) → (first : Bool) → (read : List α) →
    Reader (List α)
  | [], _, _, _ => .error .cutShort
  | _ :: bound, first, read, input => do
    match ← nextItem first input with
    | .done rest => .ok (read.reverse, rest)
    | .more _ rest =>
      let (value, rest) ← item rest
      readItems item bound false (value :: read) rest

/-- The rest of an object, after the members `read`, last first. -/
def readMembers {α : Type} (item : Reader α) : (bound : Input) → (first : Bool) →
    (read : List (String × α)) → Reader (List (String × α))
  | [], _, _, _ => .error .cutShort
  | _ :: bound, first, read, input => do
    match ← nextMember readText first input with
    | .done rest => .ok (read.reverse, rest)
    | .more name rest =>
      let (value, rest) ← item (← readColon rest)
      readMembers item bound false ((name, value) :: read) rest

/-- A whole value. -/
def readValue : (levels : Nat) → Reader Json
  | 0 => fun input => do
    let (found, rest) ← readHead input
    match found.leaf? with
    | some value => .ok (value, rest)
    | none => .error .malformed
  | levels + 1 => fun input => do
    let (found, rest) ← readHead input
    match found with
    | .array =>
      let (items, rest) ← readItems (readValue levels) rest true [] rest
      .ok (.array items, rest)
    | .object =>
      let (members, rest) ← readMembers (readValue levels) rest true [] rest
      .ok (.object members, rest)
    | simple => .ok (simple.leaf?.getD .null, rest)

/-! ### Values that nobody asked for -/

/-- What a value is read inside of. -/
inductive Enclosure where
  | array
  | object
  deriving DecidableEq, Repr

/-- The way through an array or an object that nobody asked for: what is left before the next value
in it, or after its end. -/
def Enclosure.skipTo (first : Bool) (input : Input) : Enclosure → Except Fault (Step Unit)
  | .array => nextItem first input
  | .object => do
    match ← nextMember (fun input => (skipText input).map ((), ·)) first input with
    | .done rest => .ok (.done rest)
    | .more _ rest => .ok (.more () (← readColon rest))

/-- What is left after the next value, if that is simple; otherwise what it is, and what is left
after its bracket. -/
def skipHead (input : Input) : Except Fault (Option Enclosure × Input) :=
  match skipBlanks input with
  | [] => .error .cutShort
  | 'n' :: rest => (expectChars ['u', 'l', 'l'] rest).map (none, ·)
  | 't' :: rest => (expectChars ['r', 'u', 'e'] rest).map (none, ·)
  | 'f' :: rest => (expectChars ['a', 'l', 's', 'e'] rest).map (none, ·)
  | '"' :: rest => (skipText rest).map (none, ·)
  | '[' :: rest => .ok (some .array, rest)
  | '{' :: rest => .ok (some .object, rest)
  | '-' :: rest => (skipNumber rest).map (none, ·)
  | c :: rest =>
    if c.isDigit then (skipNumber (c :: rest)).map (none, ·) else .error .malformed

/-- What is left after the arrays and objects around a place have ended, innermost first.  If
`before` is set, the place is before a value, otherwise after one. -/
def skipOut : (bound : Input) → (before : Bool) → (around : List Enclosure) → Input →
    Except Fault Input
  | _, false, [], input => .ok input
  | [], _, _, _ => .error .cutShort
  | _ :: bound, false, inner :: around, input => do
    match ← inner.skipTo false input with
    | .done rest => skipOut bound false around rest
    | .more _ rest => skipOut bound true (inner :: around) rest
  | _ :: bound, true, around, input => do
    match ← skipHead input with
    | (none, rest) => skipOut bound false around rest
    | (some inner, rest) =>
      match ← inner.skipTo true rest with
      | .done rest => skipOut bound false around rest
      | .more _ rest => skipOut bound true (inner :: around) rest

/-- What is left after a value that nobody asked for. -/
def skipValue (input : Input) : Except Fault Input := skipOut input true [] input

/-! ### Lists -/

/-- An array of any length; `item` gets the levels that are left inside. -/
def readList {α : Type} (item : (levels : Nat) → Reader α) (levels : Nat) : Reader (List α) :=
  fun input => do
    let (found, rest) ← readHead input
    match found with
    | .array =>
      let levels ← enter levels
      readItems (item levels) rest true [] rest
    | _ => .error (.mismatch (.wrongKind found "a sequence"))

/-- The items of an array of `count` items, of which `seen` have been read. -/
def readExactly {α : Type} (item : Reader α) (expected : String) : (count seen : Nat) →
    Reader (List α)
  | 0, _, input => .ok ([], input)
  | count + 1, seen, input => do
    match ← nextItem (seen == 0) input with
    | .done _ => .error (.mismatch (.wrongLength seen expected))
    | .more _ rest =>
      let (value, rest) ← item rest
      let (values, rest) ← readExactly item expected count (seen + 1) rest
      .ok (value :: values, rest)

/-- An array of `count` items. -/
def readTuple {α : Type} (item : Reader α) (count : Nat) : Reader (List α) := fun input => do
  let expected := "an array of length " ++ toString count
  let (found, rest) ← readHead input
  match found with
  | .array =>
    let (values, rest) ← readExactly item expected count 0 rest
    .ok (values, ← endArray rest)
  | _ => .error (.mismatch (.wrongKind found expected))

/-! ### Whole texts -/

/-- A text that holds one value and nothing else but blanks. -/
def readWhole {α : Type} (reader : (levels : Nat) → Reader α) (text : String) : Except Fault α := do
  let (value, rest) ← reader maxDepth text.toList
  if (skipBlanks rest).isEmpty then .ok value else .error .malformed

end PartExchange.Json
