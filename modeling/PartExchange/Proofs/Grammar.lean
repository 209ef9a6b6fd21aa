/-
**What the reader accepts, and why it refuses the rest.**

The first byte of a buffer fixes its size: there is a block for each bit that is set, and around the
blocks there is nothing but that byte and the group.  So a buffer of the right size that ends in the
right group is accepted whatever its blocks contain, and every other buffer is refused, for the first
of three reasons that applies.

The reader cuts the buffer at places that it computes from the size.  That no cut ever reaches beyond
the buffer is stated through a second reader, which checks each access before it is made and gives up
where one would fail: it never gives up, and comes to the same.

Main definitions:

* `Fragment.InGrammar`: a buffer of the wire format for a group;
* `Fragment.Refused`: a buffer outside the wire format, with the reason to refuse it;
* `Fragment.decode?`, `Fragment.parts?`: reading with every access checked.

Main results:

* `PartSet.count_eq_cpop`: the members of a set are the bits of its byte that are set;
* `Fragment.decode_of_inGrammar`, `Fragment.decode_of_refused`: what reading comes to;
* `Fragment.decode_eq_mismatch_iff`: when a buffer is refused for the group that it ends in;
* `Fragment.decode?_eq`, `Fragment.parts?_eq`: no access falls outside the buffer;
* `Fragment.accepts_exactly_the_grammar`: all of it together.
-/

import PartExchange.Proofs.Fragment
import Mathlib.Data.Nat.PSub

set_option relaxedAutoImplicit false
set_option autoImplicit false

namespace PartExchange

/-- The members of a set are the bits of its byte that are set. -/
theorem PartSet.count_eq_cpop (s : PartSet) : s.count = s.bits.toBitVec.cpop.toNat := by
  obtain ⟨⟨bits⟩⟩ := s
  revert bits
  decide +kernel

namespace Bytes

/-- A window that lies inside a window is a window of the whole string. -/
theorem slice_slice {bytes : Bytes} {start size start' size' : Nat} (fits : start' + size' ≤ size) :
    (bytes.slice start size).slice start' size' = bytes.slice (start + start') size' := by
  have room : min size' (size - start') = size' := by omega
  simp only [slice, List.drop_take, List.drop_drop, List.take_take, room]

/-- The window from `start` up to `stop`; nothing if it does not lie inside the string. -/
def window? (bytes : Bytes) (start stop : Nat) : Option Bytes :=
  if start ≤ stop ∧ stop ≤ bytes.length then some (bytes.slice start (stop - start)) else none

theorem window?_of_le {bytes : Bytes} {start stop : Nat} (order : start ≤ stop)
    (inside : stop ≤ bytes.length) :
    bytes.window? start stop = some (bytes.slice start (stop - start)) :=
  if_pos ⟨order, inside⟩

end Bytes

namespace Fragment

/-! ### The wire format -/

/-- The number of bits that are set in the first byte of a buffer. -/
def named (data : Bytes) : Nat := (data.headD 0).toBitVec.cpop.toNat

/-- The bytes at the end of a buffer, where the group stands. -/
def trailer (data : Bytes) : Bytes := data.drop (data.length - groupIdLength)

/-- A buffer of the wire format: it has a block for each bit that is set in its first byte, and ends
in the bytes of the group. -/
structure InGrammar (data : Bytes) (group : GroupId) : Prop where
  /-- The size is the one that the first byte asks for. -/
  length : data.length = fragmentLength (named data)
  /-- The last bytes are those of the group. -/
  trailer : trailer data = group.bytes

/-- A buffer outside the wire format, with the reason to refuse it: the first that applies of having
no room for the ends, ending in another group, and having the wrong size. -/
inductive Refused (data : Bytes) (expected : GroupId) : PartError → Prop
  | tooShort (short : data.length < minFragmentLength) :
      Refused data expected (.invalidLength data.length .tooShort)
  | foreign (room : minFragmentLength ≤ data.length) (differ : trailer data ≠ expected.bytes) :
      Refused data expected (.groupMismatch expected (trailer data))
  | brokenPart (room : minFragmentLength ≤ data.length) (same : trailer data = expected.bytes)
      (broken : ¬ partLength ∣ data.length - minFragmentLength) :
      Refused data expected (.invalidLength data.length .brokenPart)
  | wrongCount (room : minFragmentLength ≤ data.length) (same : trailer data = expected.bytes)
      (whole : partLength ∣ data.length - minFragmentLength)
      (wrong : data.length ≠ fragmentLength (named data)) :
      Refused data expected (.invalidLength data.length .wrongCount)

variable {data : Bytes} {expected : GroupId}

theorem InGrammar.room (good : InGrammar data expected) : minFragmentLength ≤ data.length := by
  rw [good.length]
  exact Nat.le_add_right _ _

theorem head?_of_room (room : minFragmentLength ≤ data.length) :
    data.head? = some (data.headD 0) := by
  cases data with
  | nil => simp [minFragmentLength] at room
  | cons byte rest => rfl

theorem length_middle (room : minFragmentLength ≤ data.length) :
    (data.slice 1 (data.length - minFragmentLength)).length = data.length - minFragmentLength := by
  refine Bytes.length_slice ?_
  simp only [minFragmentLength] at room ⊢
  omega

/-- A buffer belongs to the wire format, or there is a reason to refuse it. -/
theorem inGrammar_or_refused (data : Bytes) (expected : GroupId) :
    InGrammar data expected ∨ ∃ refusal, Refused data expected refusal := by
  rcases Nat.lt_or_ge data.length minFragmentLength with short | room
  · exact Or.inr ⟨_, .tooShort short⟩
  by_cases same : trailer data = expected.bytes
  · by_cases size : data.length = fragmentLength (named data)
    · exact Or.inl ⟨size, same⟩
    · by_cases whole : partLength ∣ data.length - minFragmentLength
      · exact Or.inr ⟨_, .wrongCount room same whole size⟩
      · exact Or.inr ⟨_, .brokenPart room same whole⟩
  · exact Or.inr ⟨_, .foreign room same⟩

/-! ### What reading comes to -/

/-- A buffer has the size that its first byte asks for exactly if the blocks fill what lies between
its ends. -/
theorem length_eq_iff (room : minFragmentLength ≤ data.length) :
    data.length = fragmentLength (named data) ↔
      (data.slice 1 (data.length - minFragmentLength)).length =
        (⟨data.headD 0⟩ : PartSet).count * partLength := by
  have count : (⟨data.headD 0⟩ : PartSet).count = named data := PartSet.count_eq_cpop _
  rw [length_middle room, count, fragmentLength]
  omega

/-- A buffer of the wire format is accepted, and cut into its first byte and its blocks. -/
theorem decode_of_inGrammar (good : InGrammar data expected) :
    ∃ fragment, decode data expected = .ok fragment ∧ fragment.included.bits = data.headD 0 ∧
      fragment.body = data.slice 1 (data.length - minFragmentLength) :=
  ⟨_, decode_of_sections (Nat.not_lt.2 good.room) rfl good.trailer rfl
    ((length_eq_iff good.room).1 good.length), rfl, rfl⟩

/-- A buffer is refused for a reason that applies. -/
theorem decode_of_refused {refusal : PartError} (refused : Refused data expected refusal) :
    decode data expected = .error refusal := by
  cases refused with
  | tooShort short => rw [decode, if_pos short]
  | foreign room differ =>
    rw [decode, if_neg (Nat.not_lt.2 room)]
    exact if_pos differ
  | brokenPart room same broken =>
    rw [trailer] at same
    rw [← length_middle room] at broken
    rw [decode, if_neg (Nat.not_lt.2 room)]
    dsimp only
    rw [if_neg (not_not_intro same), if_pos (mt Nat.dvd_of_mod_eq_zero broken)]
  | wrongCount room same whole wrong =>
    rw [trailer] at same
    rw [← length_middle room] at whole
    rw [decode, if_neg (Nat.not_lt.2 room)]
    dsimp only
    rw [if_neg (not_not_intro same), if_neg (not_not_intro (Nat.mod_eq_zero_of_dvd whole)),
      dif_neg (mt (length_eq_iff room).2 wrong)]

/-- What has been read is of the wire format, and made up of the first byte and the blocks. -/
theorem of_decode {fragment : Fragment} (read : decode data expected = .ok fragment) :
    InGrammar data expected ∧ fragment.included.bits = data.headD 0 ∧
      fragment.body = data.slice 1 (data.length - minFragmentLength) := by
  rcases inGrammar_or_refused data expected with good | ⟨refusal, refused⟩
  · obtain ⟨other, accepted, rest⟩ := decode_of_inGrammar good
    obtain rfl := Except.ok.inj (read.symm.trans accepted)
    exact ⟨good, rest⟩
  · rw [decode_of_refused refused] at read
    cases read

/-- What is read is exactly what is of the wire format. -/
theorem decode_eq_ok_iff :
    (∃ fragment, decode data expected = .ok fragment) ↔ InGrammar data expected := by
  constructor
  · rintro ⟨fragment, read⟩
    exact (of_decode read).1
  · intro good
    obtain ⟨fragment, read, -⟩ := decode_of_inGrammar good
    exact ⟨fragment, read⟩

/-- A buffer is refused for exactly the reason that applies. -/
theorem decode_eq_error_iff {refusal : PartError} :
    decode data expected = .error refusal ↔ Refused data expected refusal := by
  constructor
  · intro refused
    rcases inGrammar_or_refused data expected with good | ⟨other, reason⟩
    · obtain ⟨fragment, read, -⟩ := decode_of_inGrammar good
      rw [read] at refused
      cases refused
    · obtain rfl := Except.error.inj ((decode_of_refused reason).symm.trans refused)
      exact reason
  · exact decode_of_refused

/-! ### A group at the end of a buffer -/

/-- A buffer that ends in a group has the bytes of that group for its trailer. -/
theorem trailer_append (front : Bytes) (group : GroupId) :
    trailer (front ++ group.bytes) = group.bytes :=
  drop_append_group front group

/-- In front of the group there is room for the byte that names the parts unless nothing stands
there. -/
theorem room_append {front : Bytes} {group : GroupId} :
    minFragmentLength ≤ (front ++ group.bytes).length ↔ front ≠ [] := by
  rw [List.length_append, group.length_bytes, minFragmentLength, Nat.add_le_add_iff_right,
    Nat.one_le_iff_ne_zero, ne_eq, List.length_eq_zero_iff]

/-- A buffer that has room and ends in a group is refused for ending in it exactly if another one is
expected. -/
theorem decode_eq_mismatch_iff {front : Bytes} {group : GroupId} {received : Bytes} :
    decode (front ++ group.bytes) expected = .error (.groupMismatch expected received) ↔
      front ≠ [] ∧ group ≠ expected ∧ received = group.bytes := by
  rw [decode_eq_error_iff]
  constructor
  · intro refused
    cases refused with
    | foreign room differ =>
      rw [trailer_append] at differ
      exact ⟨room_append.1 room, mt (congrArg GroupId.bytes) differ, trailer_append front group⟩
  · rintro ⟨something, differ, rfl⟩
    have foreign : trailer (front ++ group.bytes) ≠ expected.bytes := by
      rw [trailer_append]
      exact mt GroupId.ext differ
    have refused := Refused.foreign (room_append.2 something) foreign
    rwa [trailer_append] at refused

/-! ### The parts by their places -/

/-- The parts that are cut out of a byte string are its blocks. -/
theorem map_entry_cutParts (indices : List Nat) (body : Bytes)
    (h : body.length = indices.length * partLength) :
    (cutParts indices body h).map Part.entry =
      indices.mapIdx fun n index => (index, body.slice (partLength * n) partLength) := by
  -- What follows a block begins with a block again, so the induction is for every byte string.
  induction indices generalizing body with
  | nil => rfl
  | cons index rest ih =>
    rw [cutParts, List.map_cons, ih, List.mapIdx_cons]
    simp only [Part.entry, Bytes.slice, Nat.mul_zero, List.drop_zero, List.drop_drop, Nat.mul_succ,
      Nat.add_comm partLength]

theorem map_entry_parts (fragment : Fragment) : fragment.parts.map Part.entry =
    fragment.included.indices.mapIdx fun n index =>
      (index, fragment.body.slice (partLength * n) partLength) :=
  map_entry_cutParts _ _ _

/-- The block of the part that stands at place `n` lies inside the body. -/
theorem block_le (fragment : Fragment) {n : Nat} (small : n < fragment.included.indices.length) :
    partLength * n + partLength ≤ fragment.body.length := by
  rw [fragment.length_body, ← Nat.mul_succ, Nat.mul_comm partLength]
  exact Nat.mul_le_mul_right _ small

/-- The parts of a buffer that has been read are its blocks behind the first byte. -/
theorem map_entry_parts_of_decode {fragment : Fragment}
    (read : decode data expected = .ok fragment) : fragment.parts.map Part.entry =
      fragment.included.indices.mapIdx fun n index =>
        (index, data.slice (1 + partLength * n) partLength) := by
  obtain ⟨good, -, middle⟩ := of_decode read
  rw [map_entry_parts, List.mapIdx_eq_mapIdx_iff]
  intro n small
  have inside := fragment.block_le small
  rw [middle, length_middle good.room] at inside
  rw [middle, Bytes.slice_slice inside]

/-! ### Reading with every access checked -/

/-- The parts of a fragment with every cut checked: nothing if one reaches beyond the body. -/
def parts? (fragment : Fragment) : Option (List (Nat × Bytes)) :=
  fragment.included.indices.zipIdx.mapM fun place =>
    (fragment.body.window? (partLength * place.2) (partLength * (place.2 + 1))).map (place.1, ·)

/-- The reader with every access checked: nothing if a position is computed below zero, or lies
outside the buffer. -/
def decode? (data : Bytes) (expected : GroupId) : Option (Except PartError Fragment) :=
  if data.length < minFragmentLength then
    some (.error (.invalidLength data.length .tooShort))
  else do
    let first ← data[0]?
    let stop ← data.length.psub groupIdLength
    let trailer ← data.window? stop data.length
    if trailer ≠ expected.bytes then
      some (.error (.groupMismatch expected trailer))
    else do
      let body ← data.window? 1 stop
      if body.length % partLength ≠ 0 then
        some (.error (.invalidLength data.length .brokenPart))
      else if h : body.length = (⟨first⟩ : PartSet).count * partLength then
        some (.ok ⟨⟨first⟩, expected, body, h⟩)
      else
        some (.error (.invalidLength data.length .wrongCount))

/-- A check that no member of a list fails gives what it gives for each of them. -/
theorem mapM_of_forall {α β : Type} {check : α → Option β} {value : α → β} {members : List α}
    (passes : ∀ x ∈ members, check x = some (value x)) :
    members.mapM check = some (members.map value) := by
  induction members with
  | nil => rfl
  | cons x rest ih =>
    rw [List.mapM_cons, passes x List.mem_cons_self,
      ih fun y member => passes y (List.mem_cons_of_mem x member)]
    rfl

/-- No cut reaches beyond the body. -/
theorem parts?_eq (fragment : Fragment) :
    fragment.parts? = some (fragment.parts.map Part.entry) := by
  rw [map_entry_parts, List.mapIdx_eq_zipIdx_map]
  refine mapM_of_forall ?_
  rintro ⟨index, n⟩ member
  have inside := fragment.block_le (List.mem_zipIdx' member).1
  rw [Bytes.window?_of_le (Nat.mul_le_mul_left _ (Nat.le_succ n)) inside, Nat.mul_succ,
    Nat.add_sub_cancel_left]
  rfl

/-- No access of the reader falls outside the buffer. -/
theorem decode?_eq (data : Bytes) (expected : GroupId) :
    decode? data expected = some (decode data expected) := by
  rw [decode?, decode]
  split
  · rfl
  rename_i room
  rw [Nat.not_lt] at room
  have first : data[0]? = some (data.headD 0) := by
    rw [← List.head?_eq_getElem?, head?_of_room room]
  rw [minFragmentLength] at room
  have stop : data.length.psub groupIdLength = some (data.length - groupIdLength) :=
    Nat.psub_eq_sub (by omega)
  have ending : data.window? (data.length - groupIdLength) data.length =
      some (data.drop (data.length - groupIdLength)) := by
    rw [Bytes.window?_of_le (Nat.sub_le _ _) (Nat.le_refl _), Bytes.slice,
      List.take_of_length_le (by rw [List.length_drop])]
  have middle : data.window? 1 (data.length - groupIdLength) =
      some (data.slice 1 (data.length - minFragmentLength)) := by
    rw [Bytes.window?_of_le (by omega) (Nat.sub_le _ _), Nat.sub_sub, Nat.add_comm groupIdLength,
      minFragmentLength]
  simp only [first, stop, ending, middle, Option.bind_eq_bind, Option.bind_some]
  -- Both readers ask the same questions from here on.
  split_ifs <;> rfl

/-! ### The whole contract -/

/-- **The reader accepts exactly the wire format.**  A buffer is accepted if and only if it has the
size that its first byte asks for and ends in the group that is expected.  Then the fragment has the
first byte as its set, and its parts are the blocks behind that byte, numbered by the bits that are
set, in ascending order.  Every other buffer is refused for exactly the reason that applies.  And no
access that the reader makes, of the buffer or of the blocks, falls outside of it. -/
theorem accepts_exactly_the_grammar (data : Bytes) (expected : GroupId) :
    ((∃ fragment, decode data expected = .ok fragment) ↔ InGrammar data expected) ∧
      (∀ fragment, decode data expected = .ok fragment →
        data.head? = some fragment.included.bits ∧ fragment.group = expected ∧
        fragment.included.indices.Pairwise (· < ·) ∧
        (∀ index, index ∈ fragment.included.indices ↔
          fragment.included.bits.toNat.testBit index = true) ∧
        fragment.parts.map Part.entry = fragment.included.indices.mapIdx fun n index =>
          (index, data.slice (1 + partLength * n) partLength)) ∧
      (∀ refusal, decode data expected = .error refusal ↔ Refused data expected refusal) ∧
      decode? data expected = some (decode data expected) ∧
      ∀ fragment, decode data expected = .ok fragment →
        fragment.parts? = some (fragment.parts.map Part.entry) := by
  refine ⟨decode_eq_ok_iff, ?_, fun refusal => decode_eq_error_iff, decode?_eq data expected,
    fun fragment _ => parts?_eq fragment⟩
  intro fragment read
  obtain ⟨good, first, -⟩ := of_decode read
  exact ⟨by rw [head?_of_room good.room, first], decode_group read, PartSet.pairwise_indices _,
    fun index => PartSet.mem_indices, map_entry_parts_of_decode read⟩

end Fragment

end PartExchange
