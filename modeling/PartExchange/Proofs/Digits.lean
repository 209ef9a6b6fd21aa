/-
**Numbers in base 256.**

A 64-bit word is written as eight digits in base 256, most significant first.  The writer obtains
them by shifting; here they are described by division, so that a digit at any place can be told from
the number alone, and the number that eight digits spell is the word they were written for.

Main definitions:

* `Bytes.digit`: one of the eight digits of a number;
* `Bytes.bigEndian`: all eight.

Main results:

* `Bytes.ofUInt64_eq`: a word is written as its eight digits;
* `Bytes.value_ofUInt64`: they spell the word;
* `GroupId.toNat_toUInt64`: eight bytes spell a number that fits a word.
-/

import Mathlib.Algebra.Group.Nat.Defs
import Mathlib.Data.List.Induction
import PartExchange.GroupId

set_option relaxedAutoImplicit false
set_option autoImplicit false

namespace PartExchange

namespace Bytes

/-- The digit of a number at one of the eight places, of which place zero is the most significant;
what does not fit eight digits is cut off. -/
def digit (n place : Nat) : UInt8 := UInt8.ofNat (n / 256 ^ (7 - place))

/-- The eight digits of a number, most significant first. -/
def bigEndian (n : Nat) : Bytes := (List.range 8).map (digit n)

@[simp] theorem length_bigEndian (n : Nat) : (bigEndian n).length = 8 := rfl

theorem getElem?_bigEndian (n : Nat) {place : Nat} (small : place < 8) :
    (bigEndian n)[place]? = some (digit n place) := by
  rw [bigEndian, List.getElem?_map, List.getElem?_range small, Option.map_some]

/-- A digit of a word is shifted to the end of it. -/
theorem toUInt8_shiftRight (word : UInt64) {place : Nat} (small : place < 8) :
    (word >>> UInt64.ofNat (8 * (7 - place))).toUInt8 = digit word.toNat place := by
  apply UInt8.toNat_inj.1
  have shift : (UInt64.ofNat (8 * (7 - place))).toNat % 64 = 8 * (7 - place) := by
    rw [UInt64.toNat_ofNat']
    omega
  rw [digit, UInt64.toNat_toUInt8, UInt64.toNat_shiftRight, shift, UInt8.toNat_ofNat',
    Nat.shiftRight_eq_div_pow, Nat.pow_mul]

/-- A word is written as its eight digits. -/
theorem ofUInt64_eq (word : UInt64) : ofUInt64 word = bigEndian word.toNat := by
  -- The last digit is not shifted, and so the lemma does not apply to it as it stands.
  have last : word.toUInt8 = digit word.toNat 7 := by
    simpa using toUInt8_shiftRight word (show 7 < 8 by decide)
  simp only [ofUInt64, bigEndian, last]
  simp [List.range_succ, ← toUInt8_shiftRight]

/-- The eight digits of a word spell it. -/
@[simp] theorem value_ofUInt64 (word : UInt64) : value (ofUInt64 word) = word.toNat := by
  have small := word.toNat_lt
  rw [ofUInt64_eq]
  simp only [bigEndian, digit, value, List.range_succ, List.range_zero, List.map_cons, List.map_nil,
    List.nil_append, List.cons_append, List.foldl_cons, List.foldl_nil, UInt8.toNat_ofNat']
  omega

/-- A number of so many digits in base 256 is smaller than the first number that needs one more. -/
theorem value_lt (bytes : Bytes) : value bytes < 256 ^ bytes.length := by
  induction bytes using List.reverseRecOn with
  | nil => exact Nat.one_pos
  | append_singleton bytes byte ih =>
    have small := byte.toNat_lt
    rw [value_append_singleton, List.length_append, List.length_singleton, Nat.pow_succ]
    omega

end Bytes

/-- The bytes of an identifier are the digits of the number that it spells. -/
theorem GroupId.bytes_ofUInt64 (word : UInt64) :
    (ofUInt64 word).bytes = Bytes.bigEndian word.toNat :=
  Bytes.ofUInt64_eq word

/-- The number that an identifier spells is the number that its bytes spell. -/
theorem GroupId.toNat_toUInt64 (group : GroupId) : group.toUInt64.toNat = group.bytes.value := by
  have small : group.bytes.value < 2 ^ 64 := by
    simpa [group.length_bytes, groupIdLength] using Bytes.value_lt group.bytes
  rw [toUInt64, UInt64.toNat_ofNat', Nat.mod_eq_of_lt small]

/-- An identifier that spells a number spells that number. -/
@[simp] theorem GroupId.toUInt64_ofUInt64 (word : UInt64) : (ofUInt64 word).toUInt64 = word := by
  rw [toUInt64, ofUInt64, Bytes.value_ofUInt64, UInt64.ofNat_toNat]

end PartExchange
