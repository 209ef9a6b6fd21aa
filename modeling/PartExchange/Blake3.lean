/-
**The BLAKE3 hash of a single block.**

Peers of an experiment are named by the hash of a short text, which fits in one block of 64 bytes.
BLAKE3 hashes such a text by one run of its compression function: the text is at once the first
block of its chunk, the last one, and the root of the tree.

Main definitions:
* `Blake3.compress`: seven rounds of mixing over sixteen words;
* `Blake3.hashBlock`: the 32-byte hash of at most 64 bytes.

Main results:
* `Blake3.length_hashBlock`: a hash has 32 bytes.
-/

import PartExchange.Bytes

set_option relaxedAutoImplicit false
set_option autoImplicit false

namespace PartExchange.Blake3

/-- Sixteen words: the state that is mixed, and likewise the words of a block. -/
abbrev Words := Vector UInt32 16

/-- The initial chaining value: the fractional parts of the square roots of the first eight
primes. -/
def iv : Vector UInt32 8 :=
  #v[0x6a09e667, 0xbb67ae85, 0x3c6ef372, 0xa54ff53a, 0x510e527f, 0x9b05688c, 0x1f83d9ab, 0x5be0cd19]

/-- The order in which the words of the block enter the next round. -/
def permutation : Vector (Fin 16) 16 :=
  #v[2, 6, 3, 10, 7, 0, 4, 13, 1, 11, 12, 5, 9, 14, 15, 8]

/-- The word with its bits moved right by `count`, from the lowest place back to the highest. -/
def rotateRight (word count : UInt32) : UInt32 :=
  (word >>> count) ||| (word <<< (32 - count))

/-- Mixes two words of the block into four places of the state. -/
def mix (v : Words) (a b c d : Fin 16) (x y : UInt32) : Words :=
  let va := v[a] + v[b] + x
  let vd := rotateRight (v[d] ^^^ va) 16
  let vc := v[c] + vd
  let vb := rotateRight (v[b] ^^^ vc) 12
  let va := va + vb + y
  let vd := rotateRight (vd ^^^ va) 8
  let vc := vc + vd
  let vb := rotateRight (vb ^^^ vc) 7
  (((v.set a va).set b vb).set c vc).set d vd

/-- One round: the four columns, then the four diagonals. -/
def round (v m : Words) : Words :=
  let v := mix v 0 4 8 12 m[0] m[1]
  let v := mix v 1 5 9 13 m[2] m[3]
  let v := mix v 2 6 10 14 m[4] m[5]
  let v := mix v 3 7 11 15 m[6] m[7]
  let v := mix v 0 5 10 15 m[8] m[9]
  let v := mix v 1 6 11 12 m[10] m[11]
  let v := mix v 2 7 8 13 m[12] m[13]
  mix v 3 4 9 14 m[14] m[15]

/-- Runs `count` rounds, permuting the words of the block between them. -/
def rounds : (count : Nat) → (v m : Words) → Words
  | 0, v, _ => v
  | count + 1, v, m => rounds count (round v m) (permutation.map fun i => m[i])

/-- The compression function on a block of the given size, with its flags, for the first chunk. -/
def compress (block : Words) (size flags : UInt32) : Vector UInt32 8 :=
  let start : Words :=
    #v[iv[0], iv[1], iv[2], iv[3], iv[4], iv[5], iv[6], iv[7], iv[0], iv[1], iv[2], iv[3],
      0, 0, size, flags]
  let v := rounds 7 start block
  Vector.ofFn fun i : Fin 8 => v[i.val] ^^^ v[i.val + 8]

/-- The word that four bytes spell, least significant first; absent bytes count as zero. -/
def wordAt (text : Bytes) (position : Nat) : UInt32 :=
  let byte := fun i => (text.getD (position + i) 0).toUInt32
  byte 0 ||| byte 1 <<< 8 ||| byte 2 <<< 16 ||| byte 3 <<< 24

/-- The four bytes of a word, least significant first. -/
def wordBytes (word : UInt32) : Bytes :=
  [word.toUInt8, (word >>> 8).toUInt8, (word >>> 16).toUInt8, (word >>> 24).toUInt8]

/-- The flags of a block that begins its chunk, ends it and is the root. -/
def rootFlags : UInt32 := 1 ||| 2 ||| 8

/-- The hash of a text of at most one block. -/
def hashBlock (text : Bytes) (_fits : text.length ≤ 64) : Bytes :=
  let block : Words := Vector.ofFn fun i : Fin 16 => wordAt text (4 * i.val)
  (compress block (UInt32.ofNat text.length) rootFlags).toList.flatMap wordBytes

/-- A hash has 32 bytes. -/
@[simp] theorem length_hashBlock (text : Bytes) (fits : text.length ≤ 64) :
    (hashBlock text fits).length = 32 := by
  have each : ∀ words : List UInt32, (words.flatMap wordBytes).length = words.length * 4 := by
    intro words
    induction words with
    | nil => rfl
    | cons word rest ih => simp only [List.flatMap_cons, List.length_append, ih,
        List.length_cons, wordBytes, List.length_nil]; omega
  simp [hashBlock, each]

end PartExchange.Blake3
