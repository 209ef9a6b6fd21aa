/-
**When a coordinator announces a message again.**

A call from a peer leaves the coordinator with a message of the call's group: what was held, and in
the slots that were empty the parts of the call's fragment.  There are three reasons to announce
that message again: the group is new, a slot has been filled, or the peer has announced other parts
than are held now.  One reason is enough, two of them do not make two announcements, and a call with
a refused fragment gives none.

What is announced is worked out aside, and the store may not even be written to.  It is still the
message that the store holds afterwards, also when the group is new and an older one has to leave
for it.

Main definitions:

* `Store.Notable`: the reasons to announce a message again after a call.

Main results:

* `Message.available_ne_iff`: a message that has grown has filled a slot;
* `Rpc.acceptable_iff`, `Rpc.announced?_eq_some_iff`: the fragments that are not refused and the
  metadata that announce something, byte for byte;
* `Store.react_rpc_of_malformed`: metadata that announce nothing are as good as none;
* `Store.publication_eq_some_iff`: what a call makes a coordinator publish;
* `Coordinator.announces_exactly_when_notable`: the rule, as the transport sees it.
-/

import PartExchange.Proofs.Outbound

set_option relaxedAutoImplicit false
set_option autoImplicit false

namespace PartExchange

/-! ### Fragments and announcements -/

/-- A message that holds at least as much as before holds something else exactly if a slot that was
empty holds a part now. -/
theorem Message.available_ne_iff {m m' : Message} (grown : m.available ≤ m'.available) :
    m.available ≠ m'.available ↔ ∃ index, m.part? index = none ∧ m'.part? index ≠ none := by
  constructor
  · intro differ
    by_contra none
    apply differ
    apply le_antisymm grown
    intro index held
    by_contra empty
    rw [Bool.not_eq_true, ← part?_eq_none_iff] at empty
    refine none ⟨index, empty, ?_⟩
    rw [Ne, part?_eq_none_iff, held]
    exact Bool.noConfusion
  · rintro ⟨index, empty, filled⟩ same
    rw [part?_eq_none_iff, same, ← part?_eq_none_iff] at empty
    exact filled empty

namespace Rpc

/-- A fragment that is not refused is absent, or empty, or reads back for the call's group. -/
theorem acceptable_iff {rpc : Rpc} : rpc.Acceptable ↔
    rpc.fragment = none ∨ rpc.fragment = some [] ∨
      ∃ data fragment, rpc.fragment = some data ∧
        Fragment.decode data rpc.group = .ok fragment := by
  unfold Acceptable payload?
  cases rpc.fragment with
  | none => simp
  | some data =>
    cases data with
    | nil => simp
    | cons byte rest => simp [Option.filter]

/-- Metadata announce a set exactly if they are its byte and nothing else. -/
theorem announced?_eq_some_iff {rpc : Rpc} {held : PartSet} :
    rpc.announced? = some held ↔ rpc.metadata = some [held.bits] := by
  unfold announced?
  cases rpc.metadata with
  | none => simp
  | some bytes =>
    match bytes with
    | [] => simp [PartSet.ofMetadata?]
    | [byte] =>
      rw [Option.bind_some, PartSet.ofMetadata?, Option.some.injEq, Option.some.injEq]
      constructor
      · rintro rfl
        rfl
      · intro same
        rw [List.singleton_inj.1 same]
    | _ :: _ :: _ => simp [PartSet.ofMetadata?]

end Rpc

theorem PartSet.ofMetadata?_eq_none {bytes : Bytes} (malformed : bytes.length ≠ 1) :
    PartSet.ofMetadata? bytes = none := by
  match bytes with
  | [] => rfl
  | [_] => exact absurd rfl malformed
  | _ :: _ :: _ => rfl

/-! ### The reasons for an announcement -/

namespace Store

/-- The reasons to announce a message again after a call: its group is new, an empty slot has been
filled, or the call announced other parts than are held now. -/
inductive Notable (store : Store) (rpc : Rpc) : Prop
  | created (absent : store.get? rpc.topic rpc.group = none)
  | extended (index : Nat) (empty : (store.current rpc.topic rpc.group).part? index = none)
      (filled : (store.afterCall rpc).part? index ≠ none)
  | differs (byte : UInt8) (announced : rpc.metadata = some [byte])
      (other : byte ≠ (store.afterCall rpc).available.bits)

/-- No store has a limit of zero. -/
theorem limit_new_ne_zero (limit : Option Nat) : (new limit).limit ≠ some 0 := by
  intro none
  obtain ⟨bound, -, zero⟩ := Option.map_eq_some_iff.1 none
  omega

variable {store : Store} {delivery : Delivery}

theorem notable_iff {rpc : Rpc} : store.Notable rpc ↔
    store.available rpc.topic rpc.group ≠ (store.afterCall rpc).available ∨
      (∃ held, rpc.announced? = some held ∧ held ≠ (store.afterCall rpc).available) ∨
        store.contains rpc.topic rpc.group = false := by
  have grown : (store.current rpc.topic rpc.group).available ≤ (store.afterCall rpc).available := by
    rw [available_afterCall]
    exact PartSet.le_union_left _ _
  rw [available, Message.available_ne_iff grown, contains_eq_false]
  constructor
  · rintro (absent | ⟨index, empty, filled⟩ | ⟨byte, announced, other⟩)
    · exact Or.inr (Or.inr absent)
    · exact Or.inl ⟨index, empty, filled⟩
    · refine Or.inr (Or.inl ⟨⟨byte⟩, Rpc.announced?_eq_some_iff.2 announced, ?_⟩)
      intro same
      exact other (congrArg PartSet.bits same)
  · rintro (⟨index, empty, filled⟩ | ⟨held, announced, other⟩ | absent)
    · exact .extended index empty filled
    · refine .differs held.bits (Rpc.announced?_eq_some_iff.1 announced) ?_
      intro same
      exact other (congrArg PartSet.mk same)
    · exact .created absent

/-- What a call makes a coordinator publish: the message of the call's group, to wherever the call
wants it, if the call is not refused and there is a reason. -/
theorem publication_eq_some_iff {publication : Publication} :
    (store.react (.rpc delivery)).publication = some publication ↔
      delivery.rpc.Acceptable ∧ store.Notable delivery.rpc ∧
        publication = ⟨delivery.rpc.topic, store.afterCall delivery.rpc, delivery.replyTo⟩ := by
  by_cases acceptable : delivery.rpc.Acceptable
  · rw [publication_react_rpc acceptable]
    by_cases notable : store.Notable delivery.rpc
    · rw [if_pos (notable_iff.1 notable), Option.some.injEq]
      constructor
      · rintro rfl
        exact ⟨acceptable, notable, rfl⟩
      · rintro ⟨-, -, rfl⟩
        rfl
    · rw [if_neg (mt notable_iff.2 notable)]
      constructor
      · rintro ⟨⟩
      · rintro ⟨-, reason, -⟩
        exact absurd reason notable
  · rw [react_rpc_of_not_acceptable acceptable]
    constructor
    · rintro ⟨⟩
    · rintro ⟨taken, -⟩
      exact absurd taken acceptable

/-- Metadata that announce nothing are as good as none. -/
theorem react_rpc_of_malformed {bytes : Bytes} (malformed : bytes.length ≠ 1) :
    store.react (.rpc { delivery with rpc := { delivery.rpc with metadata := some bytes } }) =
      store.react (.rpc { delivery with rpc := { delivery.rpc with metadata := none } }) := by
  have silent : ∀ rpc : Rpc, { rpc with metadata := some bytes }.announced? =
      { rpc with metadata := none }.announced? := fun _ => PartSet.ofMetadata?_eq_none malformed
  simp only [react, reactRpc, silent]
  rfl

end Store

/-! ### What the transport sees -/

namespace Coordinator

variable {σ : Type} (send : Transport σ)

/-- What handling a job does depends on the reaction to its request only. -/
theorem perform_congr {c : Coordinator} {request request' : Request}
    (same : c.store.react request = c.store.react request') (s : σ) (id : Nat) :
    c.perform send s ⟨id, request⟩ = c.perform send s ⟨id, request'⟩ := by
  rw [perform_eq, perform_eq]
  simp only [same]

/-- **A message is announced again exactly if there is something to tell.**  The store may hold
anything, and its limit may be set to any number, zero counting as one.  A call that has an absent
or empty fragment, or one that reads back for the call's group, leaves the store with the message
that was held, or an empty one, with the parts of the fragment in the slots that were empty.  The
transport is asked to publish that message, once and to where the call wants it, if moreover the
group is new, an empty slot has been filled, or the metadata are a single byte other than that of
what is held now; otherwise the transport is asked nothing.  Metadata of any other length are as
good as none: the coordinator and its transport end up the same. -/
theorem announces_exactly_when_notable (c : Coordinator) (limit : Option Nat)
    (entries : List (Topic × Message)) (s : σ) (id : Nat) (delivery : Delivery) :
    let rpc := delivery.rpc
    let store : Store := { Store.new limit with entries }
    let handled (delivery : Delivery) :=
      { c with store }.perform send.traced (s, []) ⟨id, .rpc delivery⟩
    let published := (handled delivery).2.2
    let taken := rpc.fragment = none ∨ rpc.fragment = some [] ∨
      ∃ data fragment, rpc.fragment = some data ∧ Fragment.decode data rpc.group = .ok fragment
    (published = [] ∨ published = [⟨rpc.topic, store.afterCall rpc, delivery.replyTo⟩]) ∧
      (published ≠ [] ↔ taken ∧ store.Notable rpc) ∧
      (taken → (handled delivery).1.store.get? rpc.topic rpc.group =
        some (store.afterCall rpc)) ∧
      ∀ bytes : Bytes, bytes.length ≠ 1 →
        handled { delivery with rpc := { rpc with metadata := some bytes } } =
          handled { delivery with rpc := { rpc with metadata := none } } := by
  intro rpc store handled published taken
  have sees : published = (store.react (.rpc delivery)).publication.toList := by
    simp only [published, handled, perform_eq, asked_carry, List.nil_append]
  refine ⟨?_, ?_, ?_, ?_⟩
  · rw [sees]
    cases asks : (store.react (.rpc delivery)).publication with
    | none => exact Or.inl rfl
    | some publication =>
      obtain ⟨-, -, rfl⟩ := Store.publication_eq_some_iff.1 asks
      exact Or.inr rfl
  · rw [sees, Ne, Option.toList_eq_nil_iff, ← Ne, Option.ne_none_iff_exists',
      ← show rpc.Acceptable ↔ taken from Rpc.acceptable_iff]
    constructor
    · rintro ⟨publication, asks⟩
      obtain ⟨acceptable, notable, -⟩ := Store.publication_eq_some_iff.1 asks
      exact ⟨acceptable, notable⟩
    · rintro ⟨acceptable, notable⟩
      exact ⟨_, Store.publication_eq_some_iff.2 ⟨acceptable, notable, rfl⟩⟩
  · intro read
    exact Store.get?_afterCall (Store.limit_new_ne_zero limit) (Rpc.acceptable_iff.2 read)
  · intro bytes malformed
    exact perform_congr send.traced (Store.react_rpc_of_malformed malformed) (s, []) id

/-- A store that has room for one group gives it up for another one that a call only mentions.  The
call has a fragment without bytes and metadata of two, and the new group is announced with nothing
in it. -/
theorem mentioned_group_announced :
    let send : Transport Unit := fun _ _ => ((), none)
    let call : Rpc :=
      { topic := default, group := .ofUInt64 1, metadata := some [255, 255], fragment := some [] }
    let store : Store := { Store.new (some 0) with entries := [(default, .new default)] }
    let handled := { new {} with store }.perform send.traced ((), [])
      ⟨0, .rpc { sender := default, rpc := call }⟩
    handled.2.2 = [⟨default, .new (.ofUInt64 1), []⟩] ∧
      handled.1.store.get? default (.ofUInt64 1) = some (.new (.ofUInt64 1)) ∧
      handled.1.store.get? default default = none := by
  intro send call store handled
  obtain ⟨once, asked, stored, -⟩ := announces_exactly_when_notable send (new {}) (some 0)
    [(default, .new default)] () 0 { sender := default, rpc := call }
  have created : store.Notable call := .created (by decide +kernel)
  have empty : store.afterCall call = .new (.ofUInt64 1) := by decide +kernel
  refine ⟨?_, ?_, by decide +kernel⟩
  · rw [← empty]
    exact once.resolve_left (asked.2 ⟨Or.inr (Or.inl rfl), created⟩)
  · rw [← empty]
    exact stored (Or.inr (Or.inl rfl))

end Coordinator

end PartExchange
