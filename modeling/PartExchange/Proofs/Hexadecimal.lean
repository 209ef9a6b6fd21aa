/-
**Sixteen hexadecimal digits.**

The text of a group identifier passes through two positional systems: sixteen digits in base 16 are
eight bytes in base 256, and those are one number.  Moreover the grammar speaks of characters, while
the reader looks at the UTF-8 bytes of the text, in pairs.  The two agree because a digit is a
character of one byte, and a character of several bytes begins with one that is no digit.

Main definitions:

* `Hex.alphabet`, `Hex.IsDigit`, `Hex.valueOf`: the digits of both cases, and what each counts;
* `Hex.spelled`: the number that digits spell;
* `Hex.packed`: the bytes that digits spell, two digits each;
* `Hex.Paired`: the texts that consist of pairs of digits.

Main results:

* `Hex.Paired.value_packed`, `Hex.Paired.digits_packed`, `Hex.packed_digits`: packing keeps the
  number, and forgets the case of the digits but nothing else;
* `Hex.readPairs_packed`, `Hex.readPairs_bad`: what the reader makes of digits, and of the rest;
* `Hex.isDigit_toUTF8`: the bytes of a text are digits if and only if its characters are;
* `GroupId.ofHex_eq_ok`: the texts that name a group, and the group that each of them names;
* `GroupId.accepts_sixteen_digits`: the grammar and the faults, all of it together.
-/

import Mathlib.Data.List.Basic
import PartExchange.Proofs.Digits

set_option relaxedAutoImplicit false
set_option autoImplicit false

namespace PartExchange

/-! ### The bytes of a text -/

namespace Bytes

theorem toList_loop (bytes : ByteArray) (i : Nat) (reversed : List UInt8) :
    ByteArray.toList.loop bytes i reversed = reversed.reverse ++ bytes.data.toList.drop i := by
  fun_induction ByteArray.toList.loop bytes i reversed with
  | case1 i reversed inside ih =>
    have bound : i < bytes.data.toList.length := by simpa using inside
    rw [ih, List.drop_eq_getElem_cons bound]
    simp [ByteArray.get!, inside]
  | case2 i reversed outside =>
    rw [List.drop_eq_nil_of_le (by simpa using Nat.le_of_not_lt outside)]
    simp

/-- The bytes of a text are those of its characters, one after the other. -/
theorem toList_toUTF8 (text : String) :
    text.toUTF8.toList = text.toList.flatMap String.utf8EncodeChar := by
  have encoded : text.toUTF8 = text.toList.utf8Encode := String.utf8Encode_toList.symm
  rw [encoded, ByteArray.toList, toList_loop, List.utf8Encode, List.toList_data_toByteArray]
  rfl

theorem length_toUTF8 (text : String) : text.toUTF8.toList.length = text.utf8ByteSize := by
  rw [ByteArray.toList, toList_loop, List.reverse_nil, List.nil_append, List.drop_zero]
  exact String.size_toByteArray

end Bytes

namespace Hex

/-! ### Digits -/

/-- The sixteen digits in lower case, each at the place of its value. -/
def lowerDigits : List Char :=
  ['0', '1', '2', '3', '4', '5', '6', '7', '8', '9', 'a', 'b', 'c', 'd', 'e', 'f']

/-- The digits of both cases. -/
def alphabet : List Char := lowerDigits ++ ['A', 'B', 'C', 'D', 'E', 'F']

/-- The hexadecimal digits. -/
def IsDigit (c : Char) : Prop := c ∈ alphabet

instance : DecidablePred IsDigit := fun c => inferInstanceAs (Decidable (c ∈ _))

/-- What a digit counts: its place among the sixteen. -/
def valueOf (c : Char) : Nat := lowerDigits.idxOf c.toLower

/-- The number that digits spell in base sixteen, most significant digit first. -/
def spelled (digits : List Char) : Nat := digits.foldl (fun n c => 16 * n + valueOf c) 0

/-- The character with the number of a byte. -/
def character (byte : UInt8) : Char := Char.ofNat byte.toNat

theorem toNat_character (byte : UInt8) : (character byte).toNat = byte.toNat := by
  have small := byte.toNat_lt
  have valid : byte.toNat.isValidChar := Or.inl (by omega)
  rw [character, Char.ofNat, dif_pos valid]
  rfl

theorem ascii_of_isDigit {c : Char} : IsDigit c → c.toNat ≤ 127 := by
  -- With `∀ c ∈ alphabet` the decision would go through all characters there are.
  have table : alphabet.Forall fun c => c.toNat ≤ 127 := by decide
  exact List.forall_iff_forall_mem.1 table c

theorem valueOf_lt {c : Char} : IsDigit c → valueOf c < 16 := by
  have table : alphabet.Forall fun c => valueOf c < 16 := by decide
  exact List.forall_iff_forall_mem.1 table c

/-- A digit is written as the same digit in lower case. -/
theorem digit_valueOf {c : Char} :
    IsDigit c → character (digit (UInt8.ofNat (valueOf c))) = c.toLower := by
  have table : alphabet.Forall fun c =>
      character (digit (UInt8.ofNat (valueOf c))) = c.toLower := by
    decide
  exact List.forall_iff_forall_mem.1 table c

/-- The digit of a number below sixteen counts as that number. -/
theorem valueOf_digit : ∀ n : Fin 16,
    IsDigit (character (digit (UInt8.ofNat n))) ∧
      valueOf (character (digit (UInt8.ofNat n))) = n := by
  decide

/-- The reader takes a byte for a digit if and only if it is the code of one. -/
theorem digitValue_eq (byte : UInt8) :
    digitValue byte =
      if IsDigit (character byte) then some (UInt8.ofNat (valueOf (character byte))) else none := by
  have table : ∀ n : Fin 256, digitValue (UInt8.ofNat n) =
      if IsDigit (character (UInt8.ofNat n)) then
        some (UInt8.ofNat (valueOf (character (UInt8.ofNat n)))) else none := by
    decide +kernel
  simpa using table ⟨byte.toNat, byte.toNat_lt⟩

/-- Two digits are the two halves of a byte. -/
theorem halves : ∀ high low : Fin 16,
    (UInt8.ofNat high <<< 4 ||| UInt8.ofNat low) = UInt8.ofNat (16 * high + low) ∧
      UInt8.ofNat (16 * high + low) >>> 4 = UInt8.ofNat high ∧
      UInt8.ofNat (16 * high + low) &&& 15 = UInt8.ofNat low := by
  decide

/-! ### Packing -/

/-- The bytes that digits spell, two digits each. -/
def packed : List Char → Bytes
  | high :: low :: rest => UInt8.ofNat (16 * valueOf high + valueOf low) :: packed rest
  | _ => []

/-- The texts that consist of pairs of digits. -/
inductive Paired : List Char → Prop
  | nil : Paired []
  | cons {high low : Char} {rest : List Char} :
      IsDigit high → IsDigit low → Paired rest → Paired (high :: low :: rest)

theorem Paired.of_even : ∀ {text : List Char},
    text.length % 2 = 0 → (∀ c ∈ text, IsDigit c) → Paired text
  | [], _, _ => .nil
  | [_], even, _ => absurd even (by simp)
  | high :: low :: rest, even, allDigits => by
    rw [List.length_cons, List.length_cons] at even
    exact .cons (allDigits high (by simp)) (allDigits low (by simp))
      (.of_even (by omega) fun c present => allDigits c (by simp [present]))

theorem Paired.allDigits {text : List Char} (paired : Paired text) : ∀ c ∈ text, IsDigit c := by
  induction paired with
  | nil => exact fun c absent => absurd absent List.not_mem_nil
  | cons high low _ ih => exact List.forall_mem_cons.2 ⟨high, List.forall_mem_cons.2 ⟨low, ih⟩⟩

/-- Two digits make one byte. -/
theorem Paired.length_packed {text : List Char} (paired : Paired text) :
    text.length = 2 * (packed text).length := by
  induction paired with
  | nil => rfl
  | cons _ _ _ ih =>
    rw [packed, List.length_cons, List.length_cons, List.length_cons, ih]
    omega

/-- Packing keeps the number that digits spell. -/
theorem Paired.value_packed {text : List Char} (paired : Paired text) :
    (packed text).value = spelled text := by
  -- Both sides are folds from the left, and so the statement is about any digits before the text.
  have general (before : Nat) :
      (packed text).foldl (fun n byte => n * 256 + byte.toNat) before =
        text.foldl (fun n c => 16 * n + valueOf c) before := by
    induction paired generalizing before with
    | nil => rfl
    | @cons high low rest highDigit lowDigit _ ih =>
      have highSmall := valueOf_lt highDigit
      have lowSmall := valueOf_lt lowDigit
      have pair : (UInt8.ofNat (16 * valueOf high + valueOf low)).toNat =
          16 * valueOf high + valueOf low := by
        rw [UInt8.toNat_ofNat']
        omega
      rw [packed, List.foldl_cons, List.foldl_cons, List.foldl_cons, pair, ih]
      congr 1
      omega
  exact general 0

/-- Packing forgets the case of the digits, and nothing else. -/
theorem Paired.digits_packed {text : List Char} (paired : Paired text) :
    (digits (packed text)).map character = text.map Char.toLower := by
  induction paired with
  | nil => rfl
  | cons highDigit lowDigit _ ih =>
    obtain ⟨-, upper, lower⟩ := halves ⟨_, valueOf_lt highDigit⟩ ⟨_, valueOf_lt lowDigit⟩
    rw [packed, digits_cons, upper, lower, List.map_cons, List.map_cons, digit_valueOf highDigit,
      digit_valueOf lowDigit, ih, List.map_cons, List.map_cons]

/-- What is written for bytes is made of pairs, and packs to these bytes. -/
theorem packed_digits (bytes : Bytes) :
    Paired ((digits bytes).map character) ∧ packed ((digits bytes).map character) = bytes := by
  induction bytes with
  | nil => exact ⟨.nil, rfl⟩
  | cons byte rest ih =>
    have small := byte.toNat_lt
    obtain ⟨-, upper, lower⟩ := halves ⟨byte.toNat / 16, by omega⟩ ⟨byte.toNat % 16, by omega⟩
    simp only [Nat.div_add_mod, UInt8.ofNat_toNat] at upper lower
    obtain ⟨highDigit, highValue⟩ := valueOf_digit ⟨byte.toNat / 16, by omega⟩
    obtain ⟨lowDigit, lowValue⟩ := valueOf_digit ⟨byte.toNat % 16, by omega⟩
    rw [digits_cons, upper, lower, List.map_cons, List.map_cons, packed, highValue, lowValue, ih.2,
      Nat.div_add_mod, UInt8.ofNat_toNat]
    exact ⟨.cons highDigit lowDigit ih.1, rfl⟩

/-! ### Reading -/

/-- Two digits are read as the byte that they spell, and the reader goes on behind them. -/
theorem readPairs_pair (position : Nat) {high low : UInt8} (rest : Bytes)
    (highDigit : IsDigit (character high)) (lowDigit : IsDigit (character low)) :
    readPairs position (high :: low :: rest) =
      (readPairs (position + 2) rest).map
        (UInt8.ofNat (16 * valueOf (character high) + valueOf (character low)) :: ·) := by
  have joined := (halves ⟨_, valueOf_lt highDigit⟩ ⟨_, valueOf_lt lowDigit⟩).1
  rw [readPairs, digitValue_eq, digitValue_eq, if_pos highDigit, if_pos lowDigit]
  cases readPairs (position + 2) rest with
  | ok bytes => exact congrArg (fun byte => Except.ok (byte :: bytes)) joined
  | error fault => rfl

/-- Pairs of digits are packed. -/
theorem readPairs_packed (position : Nat) : ∀ {codes : Bytes}, Paired (codes.map character) →
    readPairs position codes = .ok (packed (codes.map character))
  | [], _ => rfl
  | [_], paired => by cases paired
  | high :: low :: rest, .cons highDigit lowDigit paired => by
    rw [readPairs_pair position rest highDigit lowDigit, readPairs_packed (position + 2) paired]
    rfl

/-- The reader stops at the first byte that is no digit. -/
theorem readPairs_bad (position : Nat) {bad : UInt8} {rest : Bytes}
    (notDigit : ¬ IsDigit (character bad)) : ∀ {good : Bytes},
    (∀ byte ∈ good, IsDigit (character byte)) → (good ++ bad :: rest).length % 2 = 0 →
    readPairs position (good ++ bad :: rest) = .error (.invalidDigit bad (position + good.length))
  | [], _, even => by
    cases rest with
    | nil => exact absurd even (by simp)
    | cons low rest => simp [readPairs, digitValue_eq, notDigit]
  | [high], allDigits, _ => by
    have highDigit := allDigits high (by simp)
    simp [readPairs, digitValue_eq, notDigit, highDigit]
  | high :: low :: good, allDigits, even => by
    simp only [List.cons_append, List.length_cons] at even
    rw [List.cons_append, List.cons_append, readPairs_pair position _ (allDigits high (by simp))
        (allDigits low (by simp)),
      readPairs_bad (position + 2) notDigit (fun byte present => allDigits byte (by simp [present]))
        (by omega), List.length_cons, List.length_cons]
    simp only [Except.map]
    congr 2
    omega

/-- If not all bytes are digits, one of them is the first that is none. -/
theorem exists_first_bad {codes : Bytes}
    (faulty : ¬ ∀ byte ∈ codes, IsDigit (character byte)) :
    ∃ good bad rest, codes = good ++ bad :: rest ∧
      (∀ byte ∈ good, IsDigit (character byte)) ∧ ¬ IsDigit (character bad) := by
  have found : (codes.find? fun byte => ¬ IsDigit (character byte)).isSome := by
    simpa using faulty
  obtain ⟨bad, first⟩ := Option.isSome_iff_exists.1 found
  obtain ⟨notDigit, good, rest, split, before⟩ := List.find?_eq_some_iff_append.1 first
  exact ⟨good, bad, rest, split, by simpa using before, by simpa using notDigit⟩

/-! ### Characters and bytes -/

section Ascii

variable {c : Char} (ascii : c.toNat ≤ 127)

include ascii

/-- The first 128 characters have one byte, their number. -/
theorem utf8EncodeChar_ascii : String.utf8EncodeChar c = [UInt8.ofNat c.toNat] := if_pos ascii

theorem character_ascii : character (UInt8.ofNat c.toNat) = c := by
  rw [character, UInt8.toNat_ofNat', Nat.mod_eq_of_lt (by omega), Char.ofNat_toNat]

end Ascii

/-- All other characters begin with a byte that is none of the first 128. -/
theorem utf8EncodeChar_not_ascii {c : Char} (large : 127 < c.toNat) :
    ∃ first rest, String.utf8EncodeChar c = first :: rest ∧ 127 < first.toNat := by
  have large : ¬ c.val.toNat ≤ 127 := Nat.not_le_of_lt large
  unfold String.utf8EncodeChar
  rw [if_neg large]
  split_ifs
  all_goals
    refine ⟨_, _, rfl, ?_⟩
    rw [UInt8.toNat_ofNat']
    omega

/-- The bytes of a character are digits if and only if it is a digit itself. -/
theorem isDigit_utf8EncodeChar (c : Char) :
    (∀ byte ∈ String.utf8EncodeChar c, IsDigit (character byte)) ↔ IsDigit c := by
  by_cases ascii : c.toNat ≤ 127
  · rw [utf8EncodeChar_ascii ascii, List.forall_mem_singleton, character_ascii ascii]
  · obtain ⟨first, rest, bytes, large⟩ := utf8EncodeChar_not_ascii (Nat.lt_of_not_le ascii)
    constructor
    · intro allDigits
      have small := ascii_of_isDigit (allDigits first (by simp [bytes]))
      rw [toNat_character] at small
      omega
    · exact fun isDigit => absurd (ascii_of_isDigit isDigit) ascii

/-- A text is made of digits if and only if its bytes are the codes of digits. -/
theorem isDigit_toUTF8 (text : String) :
    (∀ byte ∈ text.toUTF8.toList, IsDigit (character byte)) ↔ ∀ c ∈ text.toList, IsDigit c := by
  rw [Bytes.toList_toUTF8, List.forall_mem_flatMap]
  exact forall₂_congr fun c _ => isDigit_utf8EncodeChar c

/-- The bytes of a text of digits are the codes of its characters. -/
theorem character_toUTF8 {text : String} (allDigits : ∀ c ∈ text.toList, IsDigit c) :
    text.toUTF8.toList.map character = text.toList := by
  rw [Bytes.toList_toUTF8, List.map_flatMap, List.flatMap_congr (g := fun c => [c]),
    List.flatMap_singleton']
  intro c present
  have ascii := ascii_of_isDigit (allDigits c present)
  rw [utf8EncodeChar_ascii ascii, List.map_singleton, character_ascii ascii]

/-- A text of digits has as many bytes as characters. -/
theorem utf8ByteSize_of_isDigit {text : String} (allDigits : ∀ c ∈ text.toList, IsDigit c) :
    text.utf8ByteSize = text.toList.length := by
  rw [← character_toUTF8 allDigits, List.length_map, Bytes.length_toUTF8]

theorem decode_odd {text : String} (odd : text.utf8ByteSize % 2 = 1) :
    decode text = .error .oddLength :=
  if_pos (by rw [Bytes.length_toUTF8, odd])

theorem decode_even {text : String} (even : text.utf8ByteSize % 2 = 0) :
    decode text = readPairs 0 text.toUTF8.toList :=
  if_neg (by rw [Bytes.length_toUTF8, even]; decide)

/-- A text of paired digits is decoded to the bytes that they spell. -/
theorem decode_paired {text : String} (paired : Paired text.toList) :
    decode text = .ok (packed text.toList) := by
  have codes := character_toUTF8 paired.allDigits
  have even : text.utf8ByteSize % 2 = 0 := by
    rw [utf8ByteSize_of_isDigit paired.allDigits, paired.length_packed, Nat.mul_mod_right]
  rw [decode_even even, readPairs_packed 0 (by rwa [codes]), codes]

end Hex

namespace GroupId

theorem ofHex_paired {text : String} (paired : Hex.Paired text.toList) :
    ofHex text = (ofBytes? (Hex.packed text.toList)).elim (.error .size) .ok := by
  simp only [ofHex, Hex.decode_paired paired]
  cases ofBytes? (Hex.packed text.toList) <;> rfl

/-- An odd number of bytes is found out before anything else. -/
theorem ofHex_odd {text : String} (odd : text.utf8ByteSize % 2 = 1) :
    ofHex text = .error (.digits .oddLength) := by
  rw [ofHex, Hex.decode_odd odd]

/-- The first byte that is no digit is found out before the size. -/
theorem ofHex_bad {text : String} (even : text.utf8ByteSize % 2 = 0) {good rest : Bytes}
    {bad : UInt8} (codes : text.toUTF8.toList = good ++ bad :: rest)
    (allDigits : ∀ byte ∈ good, Hex.IsDigit (Hex.character byte))
    (notDigit : ¬ Hex.IsDigit (Hex.character bad)) :
    ofHex text = .error (.digits (.invalidDigit bad good.length)) := by
  have evenCodes := even
  rw [← Bytes.length_toUTF8, codes] at evenCodes
  rw [ofHex, Hex.decode_even even, codes, Hex.readPairs_bad 0 notDigit allDigits evenCodes,
    Nat.zero_add]

/-- Sixteen digits make the bytes of an identifier, and no other number of digits does. -/
theorem length_packed_iff {text : List Char} (paired : Hex.Paired text) :
    (Hex.packed text).length = groupIdLength ↔ text.length = 16 := by
  have pairs := paired.length_packed
  simp only [groupIdLength]
  omega

/-- Digits of which there is an even number, but not sixteen, are of the wrong size. -/
theorem ofHex_size {text : String} (paired : Hex.Paired text.toList)
    (wrong : text.toList.length ≠ 16) : ofHex text = .error .size := by
  rw [ofHex_paired paired, ofBytes?, dif_neg (mt (length_packed_iff paired).1 wrong)]
  rfl

/-- A text that names a group is made of pairs of digits. -/
theorem paired_of_ofHex {text : String} {group : GroupId} (read : ofHex text = .ok group) :
    Hex.Paired text.toList := by
  have even : text.utf8ByteSize % 2 = 0 := by
    rcases Nat.mod_two_eq_zero_or_one text.utf8ByteSize with even | odd
    · exact even
    · cases (ofHex_odd odd).symm.trans read
  have allDigits : ∀ c ∈ text.toList, Hex.IsDigit c := by
    rw [← Hex.isDigit_toUTF8]
    by_contra faulty
    obtain ⟨good, bad, rest, codes, before, notDigit⟩ := Hex.exists_first_bad faulty
    cases (ofHex_bad even codes before notDigit).symm.trans read
  exact .of_even (by rw [← Hex.utf8ByteSize_of_isDigit allDigits, even]) allDigits

/-- The texts that name a group, and the group that each of them names. -/
theorem ofHex_eq_ok {text : String} {group : GroupId} :
    ofHex text = .ok group ↔ text.toList.length = 16 ∧ (∀ c ∈ text.toList, Hex.IsDigit c) ∧
      Hex.packed text.toList = group.bytes := by
  constructor
  · intro read
    have paired := paired_of_ofHex read
    have length : text.toList.length = 16 := by
      by_contra wrong
      cases (ofHex_size paired wrong).symm.trans read
    rw [ofHex_paired paired, ofBytes?, dif_pos ((length_packed_iff paired).2 length)] at read
    exact ⟨length, paired.allDigits, congrArg bytes (Except.ok.inj read)⟩
  · rintro ⟨length, allDigits, packs⟩
    rw [ofHex_paired (.of_even (by rw [length]) allDigits), packs, ofBytes?_bytes]
    rfl

/-- The number and the digits of a group are those of any text that names it. -/
theorem spelled_of_ofHex {text : String} {group : GroupId} (read : ofHex text = .ok group) :
    group.toUInt64.toNat = Hex.spelled text.toList ∧ group.toHex = text.toLower := by
  obtain ⟨-, -, packs⟩ := ofHex_eq_ok.1 read
  have paired := paired_of_ofHex read
  constructor
  · rw [toNat_toUInt64, ← packs, paired.value_packed]
  · have lower : text.toLower = text.map Char.toLower := rfl
    apply String.toList_inj.1
    rw [toHex, Hex.encode, ← packs, String.toList_ofList, lower, String.toList_map]
    exact paired.digits_packed

/-- A group is named by its own digits. -/
theorem ofHex_toHex (group : GroupId) : ofHex group.toHex = .ok group := by
  obtain ⟨paired, packs⟩ := Hex.packed_digits group.bytes
  have text : group.toHex.toList = (Hex.digits group.bytes).map Hex.character :=
    String.toList_ofList
  rw [ofHex_eq_ok, text, packs]
  refine ⟨?_, paired.allDigits, rfl⟩
  rw [paired.length_packed, packs, group.length_bytes, groupIdLength]

/-- Hexadecimal text names a group if and only if it is sixteen digits of either case; the group's
number is then the one that the digits spell, and its own text is the same in lower case.  The text
of every group names that group.  In any other text an odd number of bytes is reported first, then
the first byte that is no digit together with its place, and then the size. -/
theorem accepts_sixteen_digits (text : String) :
    ((∃ group, ofHex text = .ok group) ↔
      text.toList.length = 16 ∧ ∀ c ∈ text.toList, Hex.IsDigit c) ∧
    (∀ group, ofHex text = .ok group →
      group.toUInt64.toNat = Hex.spelled text.toList ∧ group.toHex = text.toLower) ∧
    (∀ group : GroupId, ofHex group.toHex = .ok group) ∧
    (text.utf8ByteSize % 2 = 1 → ofHex text = .error (.digits .oddLength)) ∧
    (text.utf8ByteSize % 2 = 0 → ∀ good bad rest, text.toUTF8.toList = good ++ bad :: rest →
      (∀ byte ∈ good, Hex.IsDigit (Hex.character byte)) → ¬ Hex.IsDigit (Hex.character bad) →
      ofHex text = .error (.digits (.invalidDigit bad good.length))) ∧
    (text.utf8ByteSize % 2 = 0 → (∀ byte ∈ text.toUTF8.toList, Hex.IsDigit (Hex.character byte)) →
      text.toList.length ≠ 16 → ofHex text = .error .size) := by
  refine ⟨⟨?_, ?_⟩, fun group => spelled_of_ofHex, ofHex_toHex, ofHex_odd, ?_, ?_⟩
  · rintro ⟨group, read⟩
    obtain ⟨length, allDigits, -⟩ := ofHex_eq_ok.1 read
    exact ⟨length, allDigits⟩
  · rintro ⟨length, allDigits⟩
    have paired : Hex.Paired text.toList := .of_even (by rw [length]) allDigits
    exact ⟨⟨_, (length_packed_iff paired).2 length⟩, ofHex_eq_ok.2 ⟨length, allDigits, rfl⟩⟩
  · exact fun even good bad rest codes allDigits notDigit =>
      ofHex_bad even codes allDigits notDigit
  · intro even codes wrong
    have allDigits := (Hex.isDigit_toUTF8 text).1 codes
    exact ofHex_size (.of_even (by rw [← Hex.utf8ByteSize_of_isDigit allDigits, even]) allDigits)
      wrong

/-- Where faults overlap: an odd text is not searched, a byte in the middle of a character has a
place of its own, and digits in both cases name one group. -/
theorem texts_with_several_bytes :
    ofHex "1é" = .error (.digits .oddLength) ∧
      ofHex "é1xé0" = .error (.digits .oddLength) ∧
      ofHex "1xé" = .error (.digits (.invalidDigit 120 1)) ∧
      ofHex "12é" = .error (.digits (.invalidDigit 195 2)) ∧
      ofHex "abcd" = .error .size ∧
      ∃ group, ofHex "00000000DEADbeef" = .ok group ∧ group.toUInt64.toNat = 3735928559 := by
  refine ⟨?_, ?_, ?_, ?_, ?_, ?_⟩
  · exact (accepts_sixteen_digits "1é").2.2.2.1 rfl
  · exact (accepts_sixteen_digits "é1xé0").2.2.2.1 rfl
  · exact (accepts_sixteen_digits "1xé").2.2.2.2.1 rfl [49] 120 [195, 169]
      (by rw [Bytes.toList_toUTF8]; decide) (List.forall_iff_forall_mem.1 (by decide)) (by decide)
  · exact (accepts_sixteen_digits "12é").2.2.2.2.1 rfl [49, 50] 195 [169]
      (by rw [Bytes.toList_toUTF8]; decide) (List.forall_iff_forall_mem.1 (by decide)) (by decide)
  · exact (accepts_sixteen_digits "abcd").2.2.2.2.2 rfl
      ((Hex.isDigit_toUTF8 _).2 (List.forall_iff_forall_mem.1 (by decide))) (by decide)
  · obtain ⟨group, read⟩ := (accepts_sixteen_digits "00000000DEADbeef").1.2
      ⟨by decide, List.forall_iff_forall_mem.1 (by decide)⟩
    exact ⟨group, read, ((accepts_sixteen_digits "00000000DEADbeef").2.1 group read).1.trans
      (by decide)⟩

end GroupId

end PartExchange
