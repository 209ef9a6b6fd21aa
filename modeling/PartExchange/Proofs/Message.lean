/-
**Messages that gain parts, and what they give to others.**

Filling slots never changes one that is held, so a message after a list of parts holds what it held
before, and in the other slots the first part of the list that belongs there.  What a message gives
to a peer reads back, for its own group, as exactly the parts that were taken from it.

Main definitions:

* `Message.fillAll`: a message after a list of parts;
* `Message.partsIn`: the parts of a set that are held;
* `Message.sampleContent`: the reproducible content of a slot.

Main results:

* `Message.part?_fillAll`: the content of each slot after a list of parts;
* `Message.available_fillAll_parts`: what is held after a fragment;
* `Message.fillAll_eq_self`: a fragment without new parts changes nothing;
* `Message.wire_payloadFor`, `Message.decode_payloadFor`: what is given to a peer, and that it reads
  back;
* `Message.part?_fillParts`: reproducible content in the empty slots of a message;
* `Message.part?_filled`, `Message.available_filled`, `Message.eq_filled_iff`: a message with
  reproducible content.
-/

import PartExchange.Proofs.Fragment

set_option relaxedAutoImplicit false
set_option autoImplicit false

namespace PartExchange

theorem PartSet.ofIndices_indices (s : PartSet) : PartSet.ofIndices s.indices = s := by
  apply PartSet.eq_of_contains_eq
  intro index
  rw [PartSet.contains_ofIndices, Bool.eq_iff_iff, Bool.and_eq_true, decide_eq_true_eq,
    decide_eq_true_eq, PartSet.mem_indices]
  constructor
  · intro both
    exact both.2
  · intro member
    exact ⟨PartSet.lt_of_contains member, member⟩

theorem PartSet.isEmpty_iff {s : PartSet} : s.isEmpty = true ↔ s = .empty := by
  obtain ⟨bits⟩ := s
  simp [PartSet.isEmpty, PartSet.empty]

namespace Message

/-! ### Equality -/

/-- A message is determined by its group and the content of its slots. -/
theorem eq_of_part?_eq {m m' : Message} (group : m.group = m'.group)
    (parts : ∀ index, m.part? index = m'.part? index) : m = m' := by
  obtain ⟨g, slots⟩ := m
  obtain ⟨g', slots'⟩ := m'
  simp only at group
  subst group
  congr 1
  apply Vector.ext
  intro index small
  simpa [part?, Vector.getElem?_eq_getElem small] using parts index

theorem part?_eq_none_iff {m : Message} {index : Nat} :
    m.part? index = none ↔ m.available.contains index = false := by
  rw [contains_available]
  cases m.part? index <;> simp

@[simp] theorem available_new (group : GroupId) : (new group).available = .empty := by
  apply PartSet.eq_of_contains_eq
  intro index
  simp

theorem isComplete_iff {m : Message} : m.isComplete = true ↔ m.available = .full := by
  rw [isComplete, PartSet.isFull, beq_iff_eq]
  constructor
  · intro bits
    exact congrArg PartSet.mk bits
  · intro full
    rw [full]
    rfl

/-! ### Taking parts in -/

/-- A message after a list of parts. -/
def fillAll (m : Message) (parts : List (Nat × Part)) : Message :=
  parts.foldl (fun m entry => m.fill entry.1 entry.2) m

@[simp] theorem fillAll_nil (m : Message) : m.fillAll [] = m := rfl

@[simp] theorem fillAll_cons (m : Message) (e : Nat × Part) (parts : List (Nat × Part)) :
    m.fillAll (e :: parts) = (m.fill e.1 e.2).fillAll parts := rfl

@[simp] theorem group_fillAll (m : Message) (parts : List (Nat × Part)) :
    (m.fillAll parts).group = m.group := by
  induction parts generalizing m with
  | nil => rfl
  | cons e parts ih => rw [fillAll_cons, ih, group_fill]

/-- A slot that is held keeps its part; an empty one gets the first part that is meant for it. -/
theorem part?_fillAll (m : Message) {parts : List (Nat × Part)}
    (small : ∀ e ∈ parts, e.1 < partCount) (index : Nat) :
    (m.fillAll parts).part? index =
      (m.part? index).or ((parts.find? (·.1 = index)).map Prod.snd) := by
  -- Filling a slot changes the message, so the induction is for every message.
  induction parts generalizing m with
  | nil => simp
  | cons e parts ih =>
    have size := small e List.mem_cons_self
    rw [fillAll_cons, ih _ fun f member => small f (List.mem_cons_of_mem e member), part?_fill]
    by_cases here : e.1 = index
    · -- The first part for this slot: it is taken if the slot is empty, and ignored otherwise.
      subst here
      rw [if_pos ⟨rfl, size⟩, List.find?_cons_of_pos (by simp)]
      cases m.part? e.1 <;> rfl
    · rw [if_neg fun h => here h.1.symm, List.find?_cons_of_neg (by simpa using here)]

/-- A part of a message after a list of parts was there before or stands in the list. -/
theorem part?_fillAll_cases {m : Message} {parts : List (Nat × Part)}
    (small : ∀ e ∈ parts, e.1 < partCount) {index : Nat} {part : Part}
    (held : (m.fillAll parts).part? index = some part) :
    m.part? index = some part ∨ (index, part) ∈ parts := by
  rw [part?_fillAll m small] at held
  cases before : m.part? index with
  | some old => rw [before] at held; exact Or.inl held
  | none =>
    rw [before, Option.none_or, Option.map_eq_some_iff] at held
    obtain ⟨e, found, rfl⟩ := held
    have number := List.find?_some found
    have member := List.mem_of_find?_eq_some found
    rw [decide_eq_true_eq] at number
    subst number
    exact Or.inr member

/-- A message after a fragment holds what it held before and what the fragment names. -/
theorem available_fillAll_parts (m : Message) (fragment : Fragment) :
    (m.fillAll fragment.parts).available = m.available.union fragment.included := by
  apply PartSet.eq_of_contains_eq
  intro index
  rw [contains_available, part?_fillAll m fun e => Fragment.parts_lt, PartSet.contains_union,
    contains_available, Option.isSome_or, Option.isSome_map, Bool.eq_iff_iff, Bool.or_eq_true,
    Bool.or_eq_true, List.find?_isSome, ← PartSet.mem_indices, ← Fragment.map_fst_parts,
    List.mem_map]
  simp only [decide_eq_true_eq]

/-- A fragment without new parts changes nothing. -/
theorem fillAll_eq_self {m : Message} {fragment : Fragment}
    (known : (m.fillAll fragment.parts).available = m.available) :
    m.fillAll fragment.parts = m := by
  refine eq_of_part?_eq (group_fillAll m _) ?_
  intro index
  have slot := @part?_fillAll m fragment.parts (fun e => Fragment.parts_lt) index
  cases before : m.part? index with
  | some old => rw [slot, before, Option.some_or]
  | none =>
    rw [part?_eq_none_iff, known, ← part?_eq_none_iff]
    exact before

/-- What is taken in of a buffer that is not refused are its parts. -/
theorem extend_of_decode {m : Message} {data : Bytes} {fragment : Fragment}
    (read : Fragment.decode data m.group = .ok fragment) :
    m.extend data = .ok (m.fillAll fragment.parts) := by
  rw [extend, read]
  rfl

theorem extend_of_refused {m : Message} {data : Bytes} {refusal : PartError}
    (refused : Fragment.decode data m.group = .error refusal) :
    m.extend data = .error refusal := by
  rw [extend, refused]

/-! ### Giving parts out -/

/-- The parts of a set that are held, with their numbers. -/
def partsIn (m : Message) (s : PartSet) : List (Nat × Part) :=
  s.indices.filterMap fun index => (m.part? index).map fun part => (index, part)

theorem mem_partsIn {m : Message} {s : PartSet} {index : Nat} {part : Part} :
    (index, part) ∈ m.partsIn s ↔ s.contains index = true ∧ m.part? index = some part := by
  simp [partsIn]

theorem entries_eq (m : Message) (s : PartSet) : m.entries s = (m.partsIn s).map Part.entry := by
  rw [entries, partsIn, List.map_filterMap]
  simp only [Option.map_map, Function.comp_def, Part.entry]

/-- The numbers of the parts of a set all of which are held are the members of the set. -/
theorem map_fst_partsIn {m : Message} {s : PartSet} (held : s ≤ m.available) :
    (m.partsIn s).map Prod.fst = s.indices := by
  have every : ∀ index ∈ s.indices, (m.part? index).isSome = true := by
    intro index member
    rw [← contains_available]
    exact held index (PartSet.mem_indices.1 member)
  rw [partsIn, List.map_filterMap]
  -- That the list comes from a set plays no role, only that all its members are held.
  generalize s.indices = indices at every ⊢
  induction indices with
  | nil => rfl
  | cons index rest ih =>
    obtain ⟨part, content⟩ := Option.isSome_iff_exists.1 (every index List.mem_cons_self)
    rw [List.filterMap_cons_some (by rw [content]; rfl),
      ih fun other member => every other (List.mem_cons_of_mem index member)]

theorem partsIn_lt {m : Message} {s : PartSet} {e : Nat × Part} (member : e ∈ m.partsIn s) :
    e.1 < partCount :=
  PartSet.lt_of_contains (mem_partsIn.1 member).1

theorem diff_le_available (m : Message) (known : PartSet) :
    m.available.diff known ≤ m.available := by
  intro index h
  rw [PartSet.contains_diff, Bool.and_eq_true] at h
  exact h.1

/-- Parts that are held are listed in ascending order of their numbers. -/
theorem pairwise_partsIn {m : Message} {s : PartSet} (held : s ≤ m.available) :
    (m.partsIn s).Pairwise fun e f => e.1 < f.1 := by
  rw [← List.pairwise_map (f := Prod.fst) (R := (· < ·)), map_fst_partsIn held]
  exact PartSet.pairwise_indices _

/-- The buffer for a peer: the byte that names the parts it lacks, these parts, and the group.  They
go out in ascending order and within range, so that the writer drops none of them. -/
theorem wire_payloadFor (m : Message) (known : PartSet) : (m.payloadFor known).wire =
    if (m.available.diff known).isEmpty then none
    else some ((m.available.diff known).bits :: joinParts (m.partsIn (m.available.diff known)) ++
      m.group.bytes) := by
  have held := m.diff_le_available known
  change Fragment.encode m.group (m.entries (m.available.diff known)) = _
  rw [entries_eq, Fragment.encode_of_ascending (fun e => partsIn_lt) (pairwise_partsIn held),
    map_fst_partsIn held, PartSet.ofIndices_indices]

/-- What is given to a peer: nothing if there is nothing to give, and otherwise a buffer that reads
back, for the message's own group, as the parts that the peer lacks. -/
theorem decode_payloadFor (m : Message) (known : PartSet) :
    ((m.payloadFor known).wire = none ∧ m.available.diff known = .empty) ∨
      ∃ data fragment, (m.payloadFor known).wire = some data ∧ data ≠ [] ∧
        Fragment.decode data m.group = .ok fragment ∧
        fragment.included = m.available.diff known ∧
        fragment.parts = m.partsIn (m.available.diff known) := by
  have wire := m.wire_payloadFor known
  have held := m.diff_le_available known
  by_cases nothing : (m.available.diff known).isEmpty = true
  · rw [if_pos nothing] at wire
    exact Or.inl ⟨wire, PartSet.isEmpty_iff.1 nothing⟩
  · rw [if_neg nothing] at wire
    obtain ⟨fragment, read, included, parts⟩ :=
      @Fragment.decode_written m.group _ (fun e => partsIn_lt) (pairwise_partsIn held)
    rw [map_fst_partsIn held, PartSet.ofIndices_indices] at read included
    exact Or.inr ⟨_, fragment, wire, by simp, read, included, parts⟩

/-! ### Reproducible content -/

/-- The reproducible content of a slot. -/
def sampleContent (group : GroupId) (index : Nat) : Part :=
  counterPart (group.toUInt64 + UInt64.ofNat index * 128)

/-- The part for a slot among the reproducible content of a set. -/
theorem find?_samples (group : GroupId) (s : PartSet) (index : Nat) :
    ((s.indices.map fun index => (index, sampleContent group index)).find? (·.1 = index)).map
        Prod.snd = if s.contains index = true then some (sampleContent group index) else none := by
  rw [List.find?_map, Option.map_map]
  split
  · rename_i listed
    have found : s.indices.find? (fun other => decide (other = index)) = some index := by
      cases hit : s.indices.find? (fun other => decide (other = index)) with
      | some other =>
        have same := List.find?_some hit
        rw [decide_eq_true_eq] at same
        rw [same]
      | none =>
        have miss := List.find?_eq_none.1 hit index (PartSet.mem_indices.2 listed)
        simp at miss
    exact congrArg (Option.map _) found
  · rename_i absent
    have missing : s.indices.find? (fun other => decide (other = index)) = none := by
      rw [List.find?_eq_none]
      intro other listed same
      apply absent
      rw [← of_decide_eq_true same]
      exact PartSet.mem_indices.1 listed
    exact congrArg (Option.map _) missing

theorem fillParts_eq_fillAll (m : Message) (s : PartSet) : m.fillParts s =
    m.fillAll (s.indices.map fun index => (index, sampleContent m.group index)) := by
  rw [fillParts, fillAll, List.foldl_map]
  rfl

@[simp] theorem group_fillParts (m : Message) (s : PartSet) : (m.fillParts s).group = m.group := by
  rw [fillParts_eq_fillAll, group_fillAll]

/-- A slot that is held keeps its part; an empty one of the set gets its reproducible content. -/
theorem part?_fillParts (m : Message) (s : PartSet) (index : Nat) :
    (m.fillParts s).part? index = (m.part? index).or
      (if s.contains index = true then some (sampleContent m.group index) else none) := by
  have small : ∀ e ∈ s.indices.map fun index => (index, sampleContent m.group index),
      e.1 < partCount := by
    intro e member
    obtain ⟨other, listed, rfl⟩ := List.mem_map.1 member
    exact PartSet.lt_of_contains (PartSet.mem_indices.1 listed)
  rw [fillParts_eq_fillAll, part?_fillAll _ small, find?_samples]

@[simp] theorem group_filled (group : GroupId) (s : PartSet) : (filled group s).group = group := by
  rw [filled, group_fillParts]
  rfl

/-- A message with reproducible content holds it in the slots of the set, and nothing elsewhere. -/
theorem part?_filled (group : GroupId) (s : PartSet) (index : Nat) :
    (filled group s).part? index =
      if s.contains index = true then some (sampleContent group index) else none := by
  rw [filled, part?_fillParts, part?_new, Option.none_or]
  rfl

/-- A message with reproducible content holds exactly the parts of the set. -/
@[simp] theorem available_filled (group : GroupId) (s : PartSet) :
    (filled group s).available = s := by
  apply PartSet.eq_of_contains_eq
  intro index
  rw [contains_available, part?_filled]
  cases s.contains index <;> rfl

/-- A message has reproducible content exactly if each part that it holds is that of its slot. -/
theorem eq_filled_iff {m : Message} {group : GroupId} : m = filled group m.available ↔
    m.group = group ∧
      ∀ index part, m.part? index = some part → part = sampleContent group index := by
  constructor
  · intro same
    refine ⟨by rw [same, group_filled], ?_⟩
    intro index part held
    rw [same, part?_filled] at held
    split at held
    · exact (Option.some.inj held).symm
    · cases held
  · rintro ⟨belongs, content⟩
    refine eq_of_part?_eq (by rw [group_filled, belongs]) ?_
    intro index
    rw [part?_filled, contains_available]
    cases held : m.part? index with
    | none => rfl
    | some part => exact congrArg some (content index part held)

end Message

end PartExchange
