/-
**Byte strings.**

Everything that travels between peers is a finite string of bytes.  This module fixes the
representation and the one numeral system used on the wire: base 256, most significant byte first.

Main definitions:
* `Bytes`: a byte string, first byte first;
* `Bytes.slice`: a window of a byte string;
* `Bytes.value`: the number that a byte string spells;
* `Bytes.ofUInt64`: the eight digits of a 64-bit word;
* `Bytes.compare`: the dictionary order of byte strings.

Main results:
* `Bytes.length_slice`: a window that fits has the size asked for;
* `Bytes.value_append_singleton`: appending a digit multiplies by 256 and adds it.
-/

set_option relaxedAutoImplicit false
set_option autoImplicit false

namespace PartExchange

/-- A byte string, first byte first. -/
abbrev Bytes := List UInt8

namespace Bytes

/-- The window of `size` bytes that begins at position `start`; shorter where the string ends. -/
def slice (bytes : Bytes) (start size : Nat) : Bytes :=
  (bytes.drop start).take size

/-- A window that lies inside the string has the size asked for. -/
theorem length_slice {bytes : Bytes} {start size : Nat} (fits : start + size ≤ bytes.length) :
    (bytes.slice start size).length = size := by
  simp only [slice, List.length_take, List.length_drop]
  omega

/-- The number a byte string spells in base 256, most significant byte first. -/
def value (bytes : Bytes) : Nat :=
  bytes.foldl (fun n byte => n * 256 + byte.toNat) 0

@[simp] theorem value_nil : value [] = 0 := rfl

@[simp] theorem value_append_singleton (bytes : Bytes) (byte : UInt8) :
    value (bytes ++ [byte]) = value bytes * 256 + byte.toNat := by
  simp [value]

/-- The eight digits of a 64-bit word in base 256, most significant first. -/
def ofUInt64 (word : UInt64) : Bytes :=
  [(word >>> 56).toUInt8, (word >>> 48).toUInt8, (word >>> 40).toUInt8, (word >>> 32).toUInt8,
    (word >>> 24).toUInt8, (word >>> 16).toUInt8, (word >>> 8).toUInt8, word.toUInt8]

@[simp] theorem length_ofUInt64 (word : UInt64) : (ofUInt64 word).length = 8 := rfl

/-- The four digits of a 32-bit word in base 256, most significant first. -/
def ofUInt32 (word : UInt32) : Bytes :=
  [(word >>> 24).toUInt8, (word >>> 16).toUInt8, (word >>> 8).toUInt8, word.toUInt8]

@[simp] theorem length_ofUInt32 (word : UInt32) : (ofUInt32 word).length = 4 := rfl

/-- The dictionary order of byte strings: the first byte that differs decides, and a string comes
before its own continuations. -/
def compare : Bytes → Bytes → Ordering
  | [], [] => .eq
  | [], _ :: _ => .lt
  | _ :: _, [] => .gt
  | a :: as, b :: bs => if a < b then .lt else if b < a then .gt else compare as bs

@[simp] theorem compare_self (bytes : Bytes) : compare bytes bytes = .eq := by
  induction bytes with
  | nil => rfl
  | cons byte rest ih => simp [compare, ih]

end Bytes

end PartExchange
