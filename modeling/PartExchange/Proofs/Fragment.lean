/-
**Writing and reading a fragment.**

The writer skips what would not read back.  Parts in ascending order all fit, so nothing is skipped:
the buffer is the byte that names them, the parts one after the other, and the group.  Its size is
fixed by the number of parts, and the reader cuts it at the same places.

Main definitions:

* `joinParts`: parts one after the other.

Main results:

* `Fragment.encode_of_ascending`: what is written of parts in ascending order;
* `Fragment.decode_written`: it reads back as the same parts;
* `Fragment.parts_lt`: what is read has part numbers only.
-/

import PartExchange.Proofs.PartSet

set_option relaxedAutoImplicit false
set_option autoImplicit false

namespace PartExchange

/-! ### Parts one after the other -/

/-- An entry as the writer takes it. -/
def Part.entry (numbered : Nat × Part) : Nat × Bytes := (numbered.1, numbered.2.bytes)

/-- Parts one after the other. -/
def joinParts (parts : List (Nat × Part)) : Bytes := parts.flatMap fun e => e.2.bytes

@[simp] theorem joinParts_nil : joinParts [] = [] := rfl

@[simp] theorem joinParts_cons (e : Nat × Part) (parts : List (Nat × Part)) :
    joinParts (e :: parts) = e.2.bytes ++ joinParts parts := rfl

theorem length_joinParts (parts : List (Nat × Part)) :
    (joinParts parts).length = parts.length * partLength := by
  induction parts with
  | nil => simp
  | cons e parts ih =>
    rw [joinParts_cons, List.length_append, ih, e.2.length_bytes, List.length_cons, Nat.add_mul]
    omega

/-- Cutting parts that were joined gives them back. -/
theorem cutParts_joinParts (parts : List (Nat × Part))
    (h : (joinParts parts).length = (parts.map Prod.fst).length * partLength) :
    cutParts (parts.map Prod.fst) (joinParts parts) h = parts := by
  induction parts with
  | nil => rfl
  | cons e parts ih =>
    have rest : (joinParts (e :: parts)).drop partLength = joinParts parts := by
      rw [joinParts_cons]
      exact List.drop_left' e.2.length_bytes
    have first : (joinParts (e :: parts)).take partLength = e.2.bytes := by
      rw [joinParts_cons]
      exact List.take_left' e.2.length_bytes
    have tail : (joinParts parts).length = (parts.map Prod.fst).length * partLength := by
      rw [List.length_map, length_joinParts]
    simp only [List.map_cons, cutParts, first, rest]
    rw [ih tail]

namespace Fragment

/-- What is read has part numbers only. -/
theorem parts_lt {fragment : Fragment} {e : Nat × Part} (member : e ∈ fragment.parts) :
    e.1 < partCount := by
  have listed : e.1 ∈ fragment.included.indices := by
    rw [← map_fst_parts]
    exact List.mem_map_of_mem member
  exact PartSet.lt_of_contains (PartSet.mem_indices.1 listed)

/-! ### Writing -/

/-- Parts in ascending order above the last one taken are all taken. -/
theorem foldl_add {parts : List (Nat × Part)} {packing : Packing}
    (small : ∀ e ∈ parts, e.1 < partCount) (ascending : parts.Pairwise fun e f => e.1 < f.1)
    (above : ∀ e ∈ parts, packing.last.all (· < e.1) = true) :
    ((parts.map Part.entry).foldl Packing.add packing).included =
        (parts.map Prod.fst).foldl (fun s index => s.union (.single index)) packing.included ∧
      ((parts.map Part.entry).foldl Packing.add packing).body =
        packing.body ++ joinParts parts := by
  -- Taking a part in raises the last index, so the induction is for every packing.
  induction parts generalizing packing with
  | nil => simp
  | cons e parts ih =>
    obtain ⟨below, ascending⟩ := List.pairwise_cons.1 ascending
    have fits : packing.fits e.1 e.2.bytes = true := by
      have last := above e List.mem_cons_self
      have size := small e List.mem_cons_self
      simp [Packing.fits, size, e.2.length_bytes, last]
    -- The part is in range, of the right size and above the last one: none of the checks drops it.
    have taken : packing.add (Part.entry e) =
        { included := packing.included.union (.single e.1)
          last := some e.1
          body := packing.body ++ e.2.bytes } := by
      simp [Packing.add, Part.entry, fits]
    rw [List.map_cons, List.foldl_cons, taken]
    obtain ⟨included, body⟩ := @ih
      { included := packing.included.union (.single e.1)
        last := some e.1
        body := packing.body ++ e.2.bytes }
      (fun f member => small f (List.mem_cons_of_mem e member)) ascending
      (fun f member => by simpa using below f member)
    constructor
    · exact included
    · rw [body, joinParts_cons, List.append_assoc]

/-- What is written of parts in ascending order: the byte that names them, the parts, the group. -/
theorem encode_of_ascending {group : GroupId} {parts : List (Nat × Part)}
    (small : ∀ e ∈ parts, e.1 < partCount) (ascending : parts.Pairwise fun e f => e.1 < f.1) :
    encode group (parts.map Part.entry) =
      if (PartSet.ofIndices (parts.map Prod.fst)).isEmpty then none
      else some ((PartSet.ofIndices (parts.map Prod.fst)).bits :: joinParts parts ++
        group.bytes) := by
  obtain ⟨included, body⟩ := @foldl_add parts {} small ascending (fun _ _ => rfl)
  simp only [encode, included, body, List.nil_append]
  rfl

/-! ### Reading -/

/-- A buffer that ends in a group has the bytes of that group at its end. -/
theorem drop_append_group (front : Bytes) (group : GroupId) :
    (front ++ group.bytes).drop ((front ++ group.bytes).length - groupIdLength) =
      group.bytes := by
  refine List.drop_left' ?_
  rw [List.length_append, group.length_bytes, Nat.add_sub_cancel]

/-- A buffer whose sections have the right content and size is accepted. -/
theorem decode_of_sections {data body : Bytes} {expected : GroupId} {included : PartSet}
    (room : ¬ data.length < minFragmentLength) (head : data.headD 0 = included.bits)
    (trailer : data.drop (data.length - groupIdLength) = expected.bytes)
    (middle : data.slice 1 (data.length - minFragmentLength) = body)
    (count : body.length = included.count * partLength) :
    decode data expected = .ok ⟨included, expected, body, count⟩ := by
  obtain ⟨bits⟩ := included
  subst head
  subst middle
  have whole : ¬ (data.slice 1 (data.length - minFragmentLength)).length % partLength ≠ 0 := by
    rw [count, Nat.mul_mod_left]
    simp
  unfold decode
  rw [if_neg room]
  dsimp only
  rw [if_neg (not_not_intro trailer), if_neg whole, dif_pos count]

/-- What is written of parts in ascending order reads back as the same parts. -/
theorem decode_written {group : GroupId} {parts : List (Nat × Part)}
    (small : ∀ e ∈ parts, e.1 < partCount) (ascending : parts.Pairwise fun e f => e.1 < f.1) :
    ∃ fragment,
      decode ((PartSet.ofIndices (parts.map Prod.fst)).bits :: joinParts parts ++ group.bytes)
          group = .ok fragment ∧
        fragment.included = .ofIndices (parts.map Prod.fst) ∧ fragment.parts = parts := by
  have numbers : (PartSet.ofIndices (parts.map Prod.fst)).indices = parts.map Prod.fst := by
    refine PartSet.indices_ofIndices ?_ (List.pairwise_map.2 ascending)
    intro index member
    obtain ⟨e, listed, rfl⟩ := List.mem_map.1 member
    exact small e listed
  -- From here on only the numbers of the set matter, not how it was put together.
  generalize PartSet.ofIndices (parts.map Prod.fst) = included at numbers ⊢
  have size : (included.bits :: joinParts parts ++ group.bytes).length =
      minFragmentLength + (joinParts parts).length := by
    simp only [List.length_append, List.length_cons, group.length_bytes, minFragmentLength]
    omega
  have count : (joinParts parts).length = included.count * partLength := by
    rw [length_joinParts, PartSet.count, numbers, List.length_map]
  have middle : Bytes.slice (included.bits :: joinParts parts ++ group.bytes) 1
      ((included.bits :: joinParts parts ++ group.bytes).length - minFragmentLength) =
        joinParts parts := by
    rw [size, Nat.add_sub_cancel_left]
    simp only [Bytes.slice, List.cons_append, List.drop_succ_cons, List.drop_zero]
    exact List.take_left' rfl
  refine ⟨⟨included, group, joinParts parts, count⟩, ?_, rfl, ?_⟩
  · exact decode_of_sections (by omega) (by rw [List.cons_append, List.headD_cons])
      (drop_append_group _ _) middle count
  · -- The size of the body is stated in terms of the numbers, so they are replaced in both at once.
    have cut : ∀ (indices : List Nat) (h : (joinParts parts).length = indices.length * partLength),
        indices = parts.map Prod.fst → cutParts indices (joinParts parts) h = parts := by
      rintro _ h rfl
      exact cutParts_joinParts parts h
    exact cut included.indices count numbers

end Fragment

end PartExchange
