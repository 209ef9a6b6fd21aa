/-
**Writing and reading undo each other.**

The writer takes entries of any number and any size, in any order, and keeps those that would read
back: an entry that is a part, and whose number lies above the last one kept.  What it writes of them
reads back as exactly these entries, and for no other group.  In the other direction there is nothing
to choose: a buffer that is read at all is the only one that carries its parts, so writing the parts
again gives the same buffer.

Main definitions:

* `Fragment.IsPart`: an entry with the number and the size of a part;
* `Fragment.select`: the entries that the writer keeps.

Main results:

* `Fragment.encode_select`: the writer sees nothing but the entries that it keeps;
* `Fragment.eq_of_decode`: a buffer is determined by what it reads back as;
* `Fragment.round_trip`: both directions together.
-/

import PartExchange.Proofs.Grammar
import PartExchange.Proofs.Message

set_option relaxedAutoImplicit false
set_option autoImplicit false

namespace PartExchange

namespace Fragment

/-! ### The entries that are kept -/

/-- An entry with the number and the size of a part. -/
def IsPart (entry : Nat × Bytes) : Prop := entry.1 < partCount ∧ entry.2.length = partLength

instance : DecidablePred IsPart := fun entry =>
  inferInstanceAs (Decidable (entry.1 < partCount ∧ entry.2.length = partLength))

/-- The entries that are kept when `last` is the number of the last one kept so far: greedily, each
that is a part and whose number is greater. -/
def select (last : Option Nat) : List (Nat × Bytes) → List (Nat × Bytes)
  | [] => []
  | entry :: rest =>
    if IsPart entry ∧ ∀ number ∈ last, number < entry.1 then entry :: select (some entry.1) rest
    else select last rest

theorem fits_iff (packing : Packing) (entry : Nat × Bytes) :
    packing.fits entry.1 entry.2 = true ↔
      IsPart entry ∧ ∀ number ∈ packing.last, number < entry.1 := by
  cases h : packing.last <;> simp [Packing.fits, IsPart, h]

/-- The writer goes through the entries that it keeps as if there were no others. -/
theorem foldl_add_select (entries : List (Nat × Bytes)) (packing : Packing) :
    (select packing.last entries).foldl Packing.add packing = entries.foldl Packing.add packing := by
  induction entries generalizing packing with
  | nil => rfl
  | cons entry rest ih =>
    by_cases fits : packing.fits entry.1 entry.2 = true
    · rw [select, if_pos ((fits_iff packing entry).1 fits), List.foldl_cons, List.foldl_cons, ← ih]
      simp [Packing.add, fits]
    · rw [select, if_neg (mt (fits_iff packing entry).2 fits), List.foldl_cons, ih packing]
      simp [Packing.add, fits]

/-- The writer sees nothing but the entries that it keeps. -/
theorem encode_select (group : GroupId) (entries : List (Nat × Bytes)) :
    encode group (select none entries) = encode group entries := by
  simp only [encode]
  rw [show (none : Option Nat) = ({} : Packing).last from rfl, foldl_add_select]

/-- What is kept are parts in ascending order, with numbers above the last one kept before. -/
theorem select_eq (entries : List (Nat × Bytes)) (last : Option Nat) :
    ∃ parts : List (Nat × Part), select last entries = parts.map Part.entry ∧
      (∀ e ∈ parts, e.1 < partCount) ∧ (parts.Pairwise fun e f => e.1 < f.1) ∧
      ∀ e ∈ parts, ∀ number ∈ last, number < e.1 := by
  induction entries generalizing last with
  | nil => exact ⟨[], by simp [select]⟩
  | cons entry rest ih =>
    rw [select]
    split
    · -- What comes later lies above this entry, and this entry above what came before.
      rename_i kept
      obtain ⟨⟨small, size⟩, above⟩ := kept
      obtain ⟨parts, same, numbers, ascending, later⟩ := ih (some entry.1)
      refine ⟨(entry.1, ⟨entry.2, size⟩) :: parts, by simp [same, Part.entry], ?_, ?_, ?_⟩
      · simpa [small] using numbers
      · simpa [ascending] using later
      · intro e member number before
        rcases List.mem_cons.1 member with rfl | member
        · exact above number before
        · exact (above number before).trans (later e member entry.1 rfl)
    · exact ih last

/-- Nothing is kept exactly if no entry is a part. -/
theorem select_eq_nil_iff (entries : List (Nat × Bytes)) :
    select none entries = [] ↔ ∀ entry ∈ entries, ¬ IsPart entry := by
  induction entries with
  | nil => simp [select]
  | cons entry rest ih =>
    by_cases part : IsPart entry
    · simp [select, part]
    · simp [select, part, ih]

/-! ### Reading what has been written -/

/-- What is written is a buffer exactly if an entry is a part. -/
theorem encode_eq_none_iff (group : GroupId) (entries : List (Nat × Bytes)) :
    encode group entries = none ↔ ∀ entry ∈ entries, ¬ IsPart entry := by
  obtain ⟨parts, same, small, ascending, -⟩ := select_eq entries none
  rw [← select_eq_nil_iff, ← encode_select, same, encode_of_ascending small ascending]
  cases parts with
  | nil => simp [PartSet.ofIndices, PartSet.isEmpty, PartSet.empty]
  | cons e rest =>
    have listed : (PartSet.ofIndices ((e :: rest).map Prod.fst)).contains e.1 = true := by
      simp [small e List.mem_cons_self]
    have full : ¬ (PartSet.ofIndices ((e :: rest).map Prod.fst)).isEmpty = true := by
      intro nothing
      rw [PartSet.isEmpty_iff.1 nothing, PartSet.contains_empty] at listed
      cases listed
    rw [if_neg full]
    simp

/-- A buffer is refused for every group but the one in whose bytes it ends. -/
theorem decode_of_trailer_ne {group other : GroupId} (included : PartSet) (body : Bytes)
    (differ : other ≠ group) : decode (included.bits :: body ++ group.bytes) other =
      .error (.groupMismatch other group.bytes) :=
  decode_eq_mismatch_iff.2 ⟨List.cons_ne_nil _ _, differ.symm, rfl⟩

/-- What is written reads back, for its own group, as the entries that were kept, and for no other
group at all. -/
theorem decode_encode {group : GroupId} {entries : List (Nat × Bytes)} {data : Bytes}
    (written : encode group entries = some data) :
    (∃ fragment, decode data group = .ok fragment ∧
        fragment.parts.map Part.entry = select none entries) ∧
      ∀ other, other ≠ group → decode data other = .error (.groupMismatch other group.bytes) := by
  obtain ⟨parts, same, small, ascending, -⟩ := select_eq entries none
  rw [← encode_select, same, encode_of_ascending small ascending] at written
  split at written
  · cases written
  · obtain rfl := Option.some.inj written
    obtain ⟨fragment, read, -, content⟩ := @decode_written group parts small ascending
    exact ⟨⟨fragment, read, by rw [content, same]⟩,
      fun other differ => decode_of_trailer_ne _ _ differ⟩

/-! ### Writing what has been read -/

/-- Parts that were cut out of a byte string make it up. -/
theorem joinParts_cutParts (indices : List Nat) (body : Bytes)
    (h : body.length = indices.length * partLength) : joinParts (cutParts indices body h) = body := by
  induction indices generalizing body with
  | nil =>
    have nothing : body = [] := List.length_eq_zero_iff.1 (by simpa using h)
    simp [cutParts, nothing]
  | cons index rest ih => simp [cutParts, ih]

/-- A buffer with room for its ends is made up of its first byte, its body and its trailer. -/
theorem join_sections {data : Bytes} (room : minFragmentLength ≤ data.length) :
    data.headD 0 :: data.slice 1 (data.length - minFragmentLength) ++
      data.drop (data.length - groupIdLength) = data := by
  cases data with
  | nil => simp [minFragmentLength] at room
  | cons byte rest =>
    have body : (byte :: rest).length - minFragmentLength = rest.length - groupIdLength := by
      simp only [minFragmentLength, List.length_cons]
      omega
    have start : (byte :: rest).length - groupIdLength = rest.length - groupIdLength + 1 := by
      simp only [minFragmentLength, List.length_cons] at room ⊢
      omega
    rw [body, start]
    simp [Bytes.slice]

/-- A buffer is determined by what it reads back as: the byte that names the parts, the parts one
after the other, and the group. -/
theorem eq_of_decode {data : Bytes} {group : GroupId} {fragment : Fragment}
    (read : decode data group = .ok fragment) :
    data = fragment.included.bits :: joinParts fragment.parts ++ group.bytes := by
  obtain ⟨good, first, middle⟩ := of_decode read
  rw [Fragment.parts, joinParts_cutParts, first, middle, ← good.trailer]
  exact (join_sections good.room).symm

/-- Writing the parts of a buffer that has been read gives the buffer again, unless it carries no
parts; then nothing is written. -/
theorem encode_decode {data : Bytes} {group : GroupId} {fragment : Fragment}
    (read : decode data group = .ok fragment) :
    encode group (fragment.parts.map Part.entry) =
      if fragment.included.isEmpty then none else some data := by
  have ascending : fragment.parts.Pairwise fun e f => e.1 < f.1 := by
    rw [← List.pairwise_map (f := Prod.fst) (R := (· < ·)), map_fst_parts]
    exact PartSet.pairwise_indices _
  rw [encode_of_ascending (fun e => parts_lt) ascending, map_fst_parts, PartSet.ofIndices_indices,
    ← eq_of_decode read]

/-- Writing and reading undo each other.  Nothing is written exactly if no entry is a part; what is
written reads back as the entries that were kept, and for no other group.  And whatever has been read
is written again as the very same buffer, or, if it carries no parts, as nothing. -/
theorem round_trip (group : GroupId) :
    (∀ entries : List (Nat × Bytes),
      (encode group entries = none ↔ ∀ entry ∈ entries, ¬ IsPart entry) ∧
        ∀ data, encode group entries = some data →
          (∃ fragment, decode data group = .ok fragment ∧
              fragment.parts.map Part.entry = select none entries) ∧
            ∀ other, other ≠ group →
              decode data other = .error (.groupMismatch other group.bytes)) ∧
      ∀ (data : Bytes) (fragment : Fragment), decode data group = .ok fragment →
        encode group (fragment.parts.map Part.entry) =
          if fragment.included = .empty then none else some data := by
  constructor
  · intro entries
    exact ⟨encode_eq_none_iff group entries, fun data written => decode_encode written⟩
  · intro data fragment read
    rw [encode_decode read]
    simp only [PartSet.isEmpty_iff]

end Fragment

end PartExchange
