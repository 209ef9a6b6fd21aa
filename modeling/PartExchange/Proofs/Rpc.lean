/-
**What a call brings.**

A call brings the parts of its fragment, if the fragment reads back for the call's group.  A fragment
that does not is refused, and the call then brings nothing.  The call with which a peer is brought up
to date is never refused, and carries exactly what the peer is believed to lack.

Main definitions:

* `Rpc.decoded?`, `Rpc.parts`, `Rpc.carried`: the fragment of a call, its parts and their numbers;
* `Rpc.Acceptable`: the fragment of a call, if it has one, is not refused;
* `Rpc.update`: the call that brings a peer up to date.

Main results:

* `Rpc.acceptable_update`: a call that brings a peer up to date is not refused;
* `Rpc.carried_update`, `Rpc.parts_update`: it carries what the peer is believed to lack.
-/

import PartExchange.Rpc
import PartExchange.Proofs.Message

set_option relaxedAutoImplicit false
set_option autoImplicit false

namespace PartExchange

namespace Rpc

/-- The fragment of a call, if it has one and it reads back for the call's group. -/
def decoded? (rpc : Rpc) : Option Fragment :=
  rpc.payload?.bind fun data => (Fragment.decode data rpc.group).toOption

/-- The parts that a call brings, with their numbers. -/
def parts (rpc : Rpc) : List (Nat × Part) := (rpc.decoded?.map Fragment.parts).getD []

/-- The numbers of the parts that a call brings. -/
def carried (rpc : Rpc) : PartSet := (rpc.decoded?.map Fragment.included).getD .empty

/-- The fragment of a call, if it has one, reads back for the call's group. -/
def Acceptable (rpc : Rpc) : Prop :=
  ∀ data, rpc.payload? = some data → ∃ fragment, Fragment.decode data rpc.group = .ok fragment

theorem parts_lt {rpc : Rpc} {e : Nat × Part} (member : e ∈ rpc.parts) : e.1 < partCount := by
  unfold parts at member
  cases h : rpc.decoded? with
  | none => simp [h] at member
  | some fragment =>
    rw [h] at member
    exact Fragment.parts_lt member

/-! ### Bringing a peer up to date -/

/-- The call that announces what is held of a message and carries what a peer lacks of it. -/
def update (topic : Topic) (m : Message) (known : PartSet) : Rpc :=
  { announce topic m.group m.available with fragment := (m.payloadFor known).wire }

section Update

variable (topic : Topic) (m : Message) (known : PartSet)

@[simp] theorem topic_update : (update topic m known).topic = topic := rfl

@[simp] theorem group_update : (update topic m known).group = m.group := rfl

@[simp] theorem metadata_update :
    (update topic m known).metadata = some m.available.metadata := rfl

@[simp] theorem announced?_update : (update topic m known).announced? = some m.available := rfl

/-- The fragment of a call that brings a peer up to date is absent, and then the peer lacks nothing,
or it reads back as what the peer lacks. -/
theorem decoded?_update :
    ((update topic m known).fragment = none ∧ (update topic m known).decoded? = none ∧
        m.available.diff known = .empty) ∨
      ∃ data fragment, (update topic m known).fragment = some data ∧
        Fragment.decode data m.group = .ok fragment ∧
        (update topic m known).payload? = some data ∧
        (update topic m known).decoded? = some fragment ∧
        fragment.included = m.available.diff known ∧
        fragment.parts = m.partsIn (m.available.diff known) := by
  rcases m.decode_payloadFor known with ⟨wire, nothing⟩ | ⟨data, fragment, wire, bytes, read, rest⟩
  · refine Or.inl ⟨wire, ?_, nothing⟩
    simp [decoded?, payload?, update, wire]
  · have payload : (update topic m known).payload? = some data := by
      cases data with
      | nil => exact absurd rfl bytes
      | cons byte data => simp [payload?, update, wire]
    refine Or.inr ⟨data, fragment, wire, read, payload, ?_, rest⟩
    simp [decoded?, payload, read, Except.toOption]

/-- A call that brings a peer up to date is never refused. -/
theorem acceptable_update : (update topic m known).Acceptable := by
  intro data payload
  rcases decoded?_update topic m known with ⟨wire, -⟩ | ⟨data', fragment, -, read, payload', -⟩
  · simp [payload?, wire] at payload
  · rw [payload', Option.some.injEq] at payload
    exact ⟨fragment, payload ▸ read⟩

/-- A call that brings a peer up to date carries what the peer is believed to lack. -/
theorem carried_update : (update topic m known).carried = m.available.diff known := by
  rcases decoded?_update topic m known with ⟨-, none, nothing⟩ | ⟨_, fragment, -, -, -, some, rest⟩
  · simp [carried, none, nothing]
  · simp [carried, some, rest.1]

/-- The parts of a call that brings a peer up to date are those of the message. -/
theorem parts_update : (update topic m known).parts = m.partsIn (m.available.diff known) := by
  rcases decoded?_update topic m known with ⟨-, none, nothing⟩ | ⟨_, fragment, -, -, -, some, rest⟩
  · simp [parts, none, nothing, Message.partsIn, PartSet.indices]
  · simp [parts, some, rest.2]

end Update

end Rpc

end PartExchange
