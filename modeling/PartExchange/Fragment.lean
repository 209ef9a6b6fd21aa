/-
**Fragments.**

A fragment carries some of the parts of one group.  On the wire it is one byte that names the parts,
then the parts in ascending order, then the eight bytes of the group:

    | parts named (1 byte) | part | part | … | group (8 bytes) |

Every part has the same size, so no lengths are sent.  Reading checks the whole buffer before it
yields anything: whoever applies the result never applies half of it.

Main definitions:
* `Part`: a block of exactly `partLength` bytes;
* `Fragment`: the parts of a group that one buffer carries;
* `Fragment.decode`: the checked reader, with `PartError` for what it refuses;
* `Fragment.encode`: the writer, which skips entries that would not read back.

Main results:
* `Fragment.map_fst_parts`: a fragment carries the parts that its first byte names, in order;
* `Fragment.decode_group`: what is read belongs to the group that was asked for.
-/

import PartExchange.GroupId
import PartExchange.PartSet

set_option relaxedAutoImplicit false
set_option autoImplicit false

namespace PartExchange

/-- The size of every part in bytes. -/
def partLength : Nat := 1024

/-- The size of the smallest buffer: the byte that names the parts and the group. -/
def minFragmentLength : Nat := 1 + groupIdLength

/-- The size of a buffer that carries `parts` parts. -/
def fragmentLength (parts : Nat) : Nat := minFragmentLength + parts * partLength

/-- One part of a message. -/
@[ext]
structure Part where
  /-- The content. -/
  bytes : Bytes
  /-- Every part has the same size. -/
  length_bytes : bytes.length = partLength
  deriving DecidableEq

/-! ### Refusals -/

/-- The reasons to refuse a buffer for its size. -/
inductive LengthFault where
  /-- There is no room for the byte that names the parts and the group. -/
  | tooShort
  /-- What lies between them does not divide into parts. -/
  | brokenPart
  /-- It divides into more or fewer parts than are named. -/
  | wrongCount
  deriving DecidableEq, Repr

/-- The wording of a size fault. -/
def LengthFault.message : LengthFault → String
  | .tooShort => "shorter than included byte and group id"
  | .brokenPart => "part section is not a multiple of the part length"
  | .wrongCount => "part section does not match the included bitmap"

/-- The reasons to refuse a fragment or an announcement. -/
inductive PartError where
  | invalidLength (length : Nat) (reason : LengthFault)
  | groupMismatch (expected : GroupId) (received : Bytes)
  | invalidMetadata (length : Nat)
  deriving DecidableEq

/-- The wording of a refusal. -/
def PartError.message : PartError → String
  | .invalidLength length reason =>
    "invalid data length " ++ toString length ++ ": " ++ reason.message
  | .groupMismatch expected received =>
    "group id mismatch: expected " ++ expected.debug ++ ", received " ++ Hex.encode received
  | .invalidMetadata length =>
    "invalid parts metadata length: expected 1, got " ++ toString length

/-- The set that an announcement carries, with the reason why it carries none. -/
def PartSet.ofMetadata (metadata : Bytes) : Except PartError PartSet :=
  match PartSet.ofMetadata? metadata with
  | some s => .ok s
  | none => .error (.invalidMetadata metadata.length)

/-! ### Reading -/

/-- The parts of a group that one buffer carries. -/
structure Fragment where
  /-- The numbers of the parts that are carried. -/
  included : PartSet
  /-- The group they belong to. -/
  group : GroupId
  /-- The parts, one after the other in ascending order. -/
  body : Bytes
  /-- There is one block for each part that is named. -/
  length_body : body.length = included.indices.length * partLength

/-- Cuts a byte string into one part for each of the listed numbers. -/
def cutParts : (indices : List Nat) → (body : Bytes) →
    body.length = indices.length * partLength → List (Nat × Part)
  | [], _, _ => []
  | index :: rest, body, h =>
    have cut : partLength ≤ body.length := by
      simp only [h, List.length_cons, Nat.add_mul, Nat.one_mul]; omega
    have left : (body.drop partLength).length = rest.length * partLength := by
      simp only [List.length_drop, h, List.length_cons, Nat.add_mul, Nat.one_mul]; omega
    (index, ⟨body.take partLength, by simp [cut]⟩) ::
      cutParts rest (body.drop partLength) left

@[simp] theorem map_fst_cutParts (indices : List Nat) (body : Bytes)
    (h : body.length = indices.length * partLength) :
    (cutParts indices body h).map Prod.fst = indices := by
  induction indices generalizing body with
  | nil => rfl
  | cons index rest ih => simp [cutParts, ih]

namespace Fragment

/-- The parts that are carried, with their numbers, in ascending order. -/
def parts (fragment : Fragment) : List (Nat × Part) :=
  cutParts fragment.included.indices fragment.body fragment.length_body

/-- A fragment carries the parts that it names, in ascending order. -/
@[simp] theorem map_fst_parts (fragment : Fragment) :
    fragment.parts.map Prod.fst = fragment.included.indices :=
  map_fst_cutParts _ _ _

/-- Reads a whole buffer as a fragment of the group `expected`.

The faults are looked for in a fixed order: room for the ends, then the group, then the size of what
lies between. -/
def decode (data : Bytes) (expected : GroupId) : Except PartError Fragment :=
  if data.length < minFragmentLength then
    .error (.invalidLength data.length .tooShort)
  else
    let included : PartSet := ⟨data.headD 0⟩
    let trailer := data.drop (data.length - groupIdLength)
    let body := data.slice 1 (data.length - minFragmentLength)
    if trailer ≠ expected.bytes then
      .error (.groupMismatch expected trailer)
    else if body.length % partLength ≠ 0 then
      .error (.invalidLength data.length .brokenPart)
    else if h : body.length = included.count * partLength then
      .ok ⟨included, expected, body, h⟩
    else
      .error (.invalidLength data.length .wrongCount)

/-- What is read belongs to the group that was asked for. -/
theorem decode_group {data : Bytes} {expected : GroupId} {fragment : Fragment}
    (h : decode data expected = .ok fragment) : fragment.group = expected := by
  unfold decode at h
  grind

/-! ### Writing -/

/-- A buffer under construction. -/
structure Packing where
  /-- The numbers of the parts taken so far. -/
  included : PartSet := .empty
  /-- The number taken last. -/
  last : Option Nat := none
  /-- The parts taken so far, one after the other. -/
  body : Bytes := []

/-- Whether an entry would read back into the slot it is meant for: its number exists and lies above
the last one taken, and it has the size of a part. -/
def Packing.fits (packing : Packing) (index : Nat) (part : Bytes) : Bool :=
  index < partCount && part.length == partLength && packing.last.all (· < index)

/-- Takes an entry if it fits, and skips it otherwise. -/
def Packing.add (packing : Packing) (entry : Nat × Bytes) : Packing :=
  if packing.fits entry.1 entry.2 then
    { included := packing.included.union (.single entry.1)
      last := some entry.1
      body := packing.body ++ entry.2 }
  else packing

/-- Writes the entries that fit, in the order given; nothing if none does. -/
def encode (group : GroupId) (entries : List (Nat × Bytes)) : Option Bytes :=
  let packing := entries.foldl Packing.add {}
  if packing.included.isEmpty then none
  else some (packing.included.bits :: packing.body ++ group.bytes)

end Fragment

end PartExchange
