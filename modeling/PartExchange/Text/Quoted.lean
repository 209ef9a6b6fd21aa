/-
**Quoted text.**

A text is quoted so that every character of it can be read off: between double quotes, with a
backslash before a quote or a backslash, short names for the usual control characters, and the
number of any other character without a shape of its own.  A single character is quoted likewise
between single quotes.

Main definitions:

* `Text.quote`: a text between double quotes;
* `Text.quoteChar`: a character between single quotes.
-/

import PartExchange.Text.Shapeless

set_option relaxedAutoImplicit false
set_option autoImplicit false

namespace PartExchange.Text

/-- The hexadecimal number of a character between braces, after `\u`. -/
def spellNumber (c : Char) : List Char :=
  ['\\', 'u', '\x7b'] ++ Nat.toDigits 16 c.toNat ++ ['\x7d']

/-- How a character is written between quotes of the kind `mark`. -/
def spell (mark c : Char) : List Char :=
  if c = '\x00' then ['\\', '0']
  else if c = '\t' then ['\\', 't']
  else if c = '\r' then ['\\', 'r']
  else if c = '\n' then ['\\', 'n']
  else if c = '\\' || c = mark then ['\\', c]
  else if isShapeless c then spellNumber c
  else [c]

/-- A text between double quotes. -/
def quote (text : String) : String :=
  String.ofList (['"'] ++ text.toList.flatMap (spell '"') ++ ['"'])

/-- A character between single quotes. -/
def quoteChar (c : Char) : String :=
  String.ofList (['\''] ++ spell '\'' c ++ ['\''])

end PartExchange.Text
