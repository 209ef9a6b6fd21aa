/-
**What a reaction does to a store without a limit.**

Without a limit no reaction loses anything: each message stays, and holds at least what it held.  A
message is new or gains parts only through a request to add it or a call that is not refused, and in
the second case it is published in the same reaction.  What is published is what is stored.

Main definitions:

* `Store.afterCall`: the message of a call's group after the call.

Main results:

* `Store.mem_entries_react`: where a stored message comes from, whatever the limit;
* `Store.available_le_react`, `Store.carried_le_react`: nothing is lost, and what a call brings is
  held afterwards;
* `Store.get?_afterCall`: the message of a call's group is stored after the call;
* `Store.get?_of_publication`: what is published is what is stored;
* `Store.react_changes`: a group whose message changes is added or published;
* `Store.react_rpc_of_silent`: a call that is not answered announced what is held;
* `Store.react_rpc_of_known`: a call that brings nothing new is answered only if it announced
  something else than what is held.
-/

import PartExchange.Proofs.Store

set_option relaxedAutoImplicit false
set_option autoImplicit false

namespace PartExchange

/-- What a request is about. -/
def Request.subject : Request → Topic × GroupId
  | .add topic m => (topic, m.group)
  | .publish topic group _ => (topic, group)
  | .rpc d => (d.rpc.topic, d.rpc.group)
  | .get topic group => (topic, group)

namespace Store

/-- The message of a call's group after a call that is not refused. -/
def afterCall (store : Store) (rpc : Rpc) : Message :=
  (store.current rpc.topic rpc.group).fillAll rpc.parts

@[simp] theorem group_afterCall (store : Store) (rpc : Rpc) :
    (store.afterCall rpc).group = rpc.group := by
  simp [afterCall]

@[simp] theorem available_afterCall (store : Store) (rpc : Rpc) :
    (store.afterCall rpc).available = (store.available rpc.topic rpc.group).union rpc.carried :=
  available_fillAll_parts _ rpc

/-- A call that brings nothing new leaves a message that is held as it is. -/
theorem afterCall_eq_of_known {store : Store} {rpc : Rpc} {m : Message}
    (held : store.get? rpc.topic rpc.group = some m)
    (known : (store.afterCall rpc).available = store.available rpc.topic rpc.group) :
    store.afterCall rpc = m := by
  have now : store.current rpc.topic rpc.group = m := by simp [current, held]
  rw [available, now] at known
  rw [afterCall, now] at known ⊢
  exact fillAll_parts_eq_self known

/-- A call whose parts are held leaves the message of its group as it is. -/
theorem afterCall_of_held {store : Store} {rpc : Rpc} {m : Message}
    (held : store.get? rpc.topic rpc.group = some m) (known : rpc.carried ≤ m.available) :
    store.afterCall rpc = m := by
  refine afterCall_eq_of_known held ?_
  rw [available_afterCall, available_of_get? held]
  exact PartSet.union_eq_left known

/-! ### The parts of a reaction -/

section Rpc

variable {store : Store} {delivery : Delivery}

/-- A refused call has no effect. -/
theorem react_rpc_of_not_acceptable (refused : ¬ delivery.rpc.Acceptable) :
    store.react (.rpc delivery) = { store } := by
  obtain ⟨⟨refusal, h⟩, -⟩ := @absorb_of_not_acceptable store _ refused
  exact react_rpc_of_error h

/-- The store after a call that is not refused. -/
theorem store_react_rpc (acceptable : delivery.rpc.Acceptable) :
    (store.react (.rpc delivery)).store =
      if store.contains delivery.rpc.topic delivery.rpc.group = false ∨
          store.available delivery.rpc.topic delivery.rpc.group ≠
            (store.afterCall delivery.rpc).available
      then (store.put delivery.rpc.topic (store.afterCall delivery.rpc)).1 else store := by
  simp only [react, reactRpc, absorb_of_acceptable acceptable]
  change (if (!store.contains delivery.rpc.topic delivery.rpc.group ||
    store.available delivery.rpc.topic delivery.rpc.group !=
      (store.afterCall delivery.rpc).available) = true then _ else _) = _
  simp only [Bool.or_eq_true, Bool.not_eq_true', bne_iff_ne]
  rfl

/-- What a call that is not refused is answered with. -/
theorem publication_react_rpc (acceptable : delivery.rpc.Acceptable) :
    (store.react (.rpc delivery)).publication =
      if store.available delivery.rpc.topic delivery.rpc.group ≠
            (store.afterCall delivery.rpc).available ∨
          (∃ held, delivery.rpc.announced? = some held ∧
            held ≠ (store.afterCall delivery.rpc).available) ∨
          store.contains delivery.rpc.topic delivery.rpc.group = false
      then some ⟨delivery.rpc.topic, store.afterCall delivery.rpc, delivery.replyTo⟩ else none := by
  simp only [react, reactRpc, absorb_of_acceptable acceptable]
  change (if (store.available delivery.rpc.topic delivery.rpc.group !=
      (store.afterCall delivery.rpc).available ||
    delivery.rpc.announced?.any (· != (store.afterCall delivery.rpc).available) ||
    !store.contains delivery.rpc.topic delivery.rpc.group) = true then _ else _) = _
  simp only [Bool.or_eq_true, Bool.not_eq_true', bne_iff_ne, Option.any_eq_true, or_assoc]
  rfl

/-- What answers a call concerns the call's group, and goes where the call wants it. -/
theorem publication_of_rpc {publication : Publication}
    (published : (store.react (.rpc delivery)).publication = some publication) :
    publication.topic = delivery.rpc.topic ∧ publication.message.group = delivery.rpc.group ∧
      publication.peers = delivery.replyTo := by
  by_cases acceptable : delivery.rpc.Acceptable
  · rw [publication_react_rpc acceptable] at published
    split at published
    · cases published
      exact ⟨rfl, group_afterCall store _, rfl⟩
    · cases published
  · rw [react_rpc_of_not_acceptable acceptable] at published
    cases published

/-- The message of a call's group is stored after a call that is not refused, whatever the limit. -/
theorem get?_afterCall (roomy : store.limit ≠ some 0) (acceptable : delivery.rpc.Acceptable) :
    (store.react (.rpc delivery)).store.get? delivery.rpc.topic delivery.rpc.group =
      some (store.afterCall delivery.rpc) := by
  rw [store_react_rpc acceptable]
  split
  · have stored := get?_put_self roomy delivery.rpc.topic (store.afterCall delivery.rpc)
    rwa [group_afterCall] at stored
  · -- Nothing is written, because the message with the call's parts is the one that is stored.
    rename_i known
    rw [not_or, not_ne_iff, Bool.not_eq_false] at known
    obtain ⟨m, held⟩ := Option.isSome_iff_exists.1 known.1
    rw [held, afterCall_eq_of_known held known.2.symm]

end Rpc

/-- What is published is what is stored, whatever the limit. -/
theorem get?_of_publication {store : Store} (roomy : store.limit ≠ some 0) {request : Request}
    {publication : Publication}
    (published : (store.react request).publication = some publication) :
    (store.react request).store.get? publication.topic publication.message.group =
      some publication.message := by
  cases request with
  | add topic m => cases published
  | publish topic group peers =>
    rw [react_publish_store]
    simp only [react, reactPublish] at published
    split at published
    · rename_i m held
      cases published
      rwa [(mem_of_get? held).2]
    · cases published
  | rpc delivery =>
    by_cases acceptable : delivery.rpc.Acceptable
    · rw [publication_react_rpc acceptable] at published
      split at published
      · cases published
        rw [group_afterCall, get?_afterCall roomy acceptable]
      · cases published
    · rw [react_rpc_of_not_acceptable acceptable] at published
      cases published
  | get topic group => cases published

theorem react_add (store : Store) (topic : Topic) (m : Message) :
    (store.react (.add topic m)).store = (store.insertIfAbsent topic m).1 ∧
      (store.react (.add topic m)).publication = none := ⟨rfl, rfl⟩

/-! ### Where a stored message comes from -/

/-- A message that is stored after a reaction was stored before, or has just been added, or is what
a call made of the message of its group. -/
theorem mem_entries_react {store : Store} {request : Request} {topic : Topic} {m : Message}
    (member : (topic, m) ∈ (store.react request).store.entries) :
    (topic, m) ∈ store.entries ∨
      (request = .add topic m ∧ store.contains topic m.group = false) ∨
      ∃ delivery, request = .rpc delivery ∧ topic = delivery.rpc.topic ∧
        m = store.afterCall delivery.rpc := by
  cases request with
  | add t m' =>
    rw [(react_add store t m').1, insertIfAbsent] at member
    split at member
    · exact Or.inl member
    · rename_i fresh
      rcases mem_entries_put member with old | new
      · exact Or.inl old
      · obtain ⟨rfl, rfl⟩ := Prod.mk.injEq .. ▸ new
        exact Or.inr (Or.inl ⟨rfl, by simpa using fresh⟩)
  | publish t g peers =>
    rw [react_publish_store] at member
    exact Or.inl member
  | rpc delivery =>
    by_cases acceptable : delivery.rpc.Acceptable
    · rw [store_react_rpc acceptable] at member
      split at member
      · rcases mem_entries_put member with old | new
        · exact Or.inl old
        · obtain ⟨rfl, rfl⟩ := Prod.mk.injEq .. ▸ new
          exact Or.inr (Or.inr ⟨delivery, rfl, rfl, rfl⟩)
      · exact Or.inl member
    · rw [react_rpc_of_not_acceptable acceptable] at member
      exact Or.inl member
  | get t g => exact Or.inl member

@[simp] theorem limit_react (store : Store) (request : Request) :
    (store.react request).store.limit = store.limit := by
  cases request with
  | add t m => rw [(react_add store t m).1, limit_insertIfAbsent]
  | publish t g peers => rw [react_publish_store]
  | rpc delivery =>
    by_cases acceptable : delivery.rpc.Acceptable
    · rw [store_react_rpc acceptable]
      split
      · exact limit_put _ _ _
      · rfl
    · rw [react_rpc_of_not_acceptable acceptable]
  | get t g => rfl

/-! ### Look-up after a reaction, without a limit -/

section Unlimited

variable {store : Store} (unlimited : store.limit = none)

include unlimited

/-- Look-up after a call that is not refused: the group of the call has its message, and nothing
else changes. -/
theorem get?_react_rpc {delivery : Delivery} (acceptable : delivery.rpc.Acceptable) (t : Topic)
    (g : GroupId) :
    (store.react (.rpc delivery)).store.get? t g =
      if t = delivery.rpc.topic ∧ g = delivery.rpc.group then some (store.afterCall delivery.rpc)
      else store.get? t g := by
  rw [store_react_rpc acceptable]
  split
  · rw [get?_put unlimited, group_afterCall]
  · -- Nothing is written, because the message with the call's parts is the one that is stored.
    rename_i same
    rw [not_or, not_ne_iff, Bool.not_eq_false] at same
    obtain ⟨present, known⟩ := same
    obtain ⟨m, held⟩ := Option.isSome_iff_exists.1 present
    split
    · rename_i here
      obtain ⟨rfl, rfl⟩ := here
      rw [held, afterCall_eq_of_known held known.symm]
    · rfl

/-- Look-up after a request to add a message: it is found if its group was not held. -/
theorem get?_react_add {topic : Topic} {m : Message} (t : Topic) (g : GroupId) :
    (store.react (.add topic m)).store.get? t g =
      if store.contains topic m.group = false ∧ t = topic ∧ g = m.group then some m
      else store.get? t g := by
  rw [(react_add store topic m).1, insertIfAbsent]
  by_cases held : store.contains topic m.group = true
  · simp [held]
  · rw [if_neg held, get?_put unlimited]
    simp [show store.contains topic m.group = false by simpa using held]

/-- Nothing that is held is lost, and a call's group holds what the call brings. -/
theorem get?_react_of_get? {request : Request} {t : Topic} {g : GroupId} {m : Message}
    (held : store.get? t g = some m) :
    ∃ m', (store.react request).store.get? t g = some m' ∧ m.available ≤ m'.available := by
  cases request with
  | add topic m' =>
    rw [get?_react_add unlimited]
    split
    · rename_i new
      obtain ⟨fresh, rfl, rfl⟩ := new
      rw [contains_eq_false, held] at fresh
      cases fresh
    · exact ⟨m, held, le_refl _⟩
  | publish topic group peers => exact ⟨m, by rw [react_publish_store, held], le_refl _⟩
  | rpc delivery =>
    by_cases acceptable : delivery.rpc.Acceptable
    · rw [get?_react_rpc unlimited acceptable]
      split
      · rename_i here
        obtain ⟨rfl, rfl⟩ := here
        refine ⟨_, rfl, ?_⟩
        rw [available_afterCall, available_of_get? held]
        exact PartSet.le_union_left _ _
      · exact ⟨m, held, le_refl _⟩
    · exact ⟨m, by rw [react_rpc_of_not_acceptable acceptable, held], le_refl _⟩
  | get topic group => exact ⟨m, held, le_refl _⟩

/-- A reaction loses nothing that is held. -/
theorem available_le_react (request : Request) (t : Topic) (g : GroupId) :
    store.available t g ≤ (store.react request).store.available t g := by
  cases held : store.get? t g with
  | none =>
    rw [available_of_get?_none held]
    exact PartSet.empty_le _
  | some m =>
    obtain ⟨m', after, grown⟩ := @get?_react_of_get? _ unlimited request _ _ _ held
    rwa [available_of_get? held, available_of_get? after]

/-- What a call brings is held afterwards. -/
theorem carried_le_react (delivery : Delivery) :
    delivery.rpc.carried ≤
      (store.react (.rpc delivery)).store.available delivery.rpc.topic delivery.rpc.group := by
  by_cases acceptable : delivery.rpc.Acceptable
  · have after := get?_react_rpc unlimited acceptable delivery.rpc.topic delivery.rpc.group
    rw [if_pos ⟨rfl, rfl⟩] at after
    rw [available_of_get? after, available_afterCall]
    exact PartSet.le_union_right _ _
  · rw [(@absorb_of_not_acceptable store _ acceptable).2.2]
    exact PartSet.empty_le _

/-- A group whose message changes has just been added for the first time, or is published. -/
theorem react_changes {request : Request} (t : Topic) (g : GroupId) :
    (store.react request).store.get? t g = store.get? t g ∨
      (store.get? t g = none ∧ ∃ m, request = .add t m ∧ m.group = g) ∨
      ∃ delivery m, request = .rpc delivery ∧ t = delivery.rpc.topic ∧ g = delivery.rpc.group ∧
        (store.react request).publication = some ⟨t, m, delivery.replyTo⟩ ∧ m.group = g := by
  cases request with
  | add topic m =>
    rw [get?_react_add unlimited]
    split
    · rename_i new
      obtain ⟨fresh, rfl, rfl⟩ := new
      exact Or.inr (Or.inl ⟨contains_eq_false.1 fresh, m, rfl, rfl⟩)
    · exact Or.inl rfl
  | publish topic group peers => exact Or.inl (by rw [react_publish_store])
  | rpc delivery =>
    by_cases acceptable : delivery.rpc.Acceptable
    · rw [get?_react_rpc unlimited acceptable, publication_react_rpc acceptable]
      split
      · rename_i here
        obtain ⟨rfl, rfl⟩ := here
        split
        · exact Or.inr (Or.inr ⟨delivery, _, rfl, rfl, rfl, rfl, group_afterCall store _⟩)
        · -- A call that is not answered was to a stored group and brought nothing new.
          rename_i silent
          rw [not_or, not_or, not_ne_iff, Bool.not_eq_false] at silent
          obtain ⟨known, -, present⟩ := silent
          obtain ⟨m, held⟩ := Option.isSome_iff_exists.1 present
          exact Or.inl (by rw [held, afterCall_eq_of_known held known.symm])
      · exact Or.inl rfl
    · exact Or.inl (by rw [react_rpc_of_not_acceptable acceptable])
  | get topic group => exact Or.inl rfl

omit unlimited in
/-- A call that is neither refused nor answered concerns a group that is held, changes nothing, and
announced nothing else than what is held. -/
theorem react_rpc_of_silent {delivery : Delivery} (acceptable : delivery.rpc.Acceptable)
    (silent : (store.react (.rpc delivery)).publication = none) :
    (store.react (.rpc delivery)).store = store ∧
      ∃ m, store.get? delivery.rpc.topic delivery.rpc.group = some m ∧
        ∀ held, delivery.rpc.announced? = some held → held = m.available := by
  rw [publication_react_rpc acceptable] at silent
  split at silent
  · cases silent
  · rename_i quiet
    rw [not_or, not_or, not_ne_iff, Bool.not_eq_false] at quiet
    obtain ⟨known, same, present⟩ := quiet
    obtain ⟨m, held⟩ := Option.isSome_iff_exists.1 present
    refine ⟨?_, m, held, ?_⟩
    · rw [store_react_rpc acceptable, if_neg]
      rw [not_or, not_ne_iff, Bool.not_eq_false]
      exact ⟨present, known⟩
    · intro announced stated
      rw [← afterCall_eq_of_known held known.symm]
      by_contra differs
      exact same ⟨announced, stated, differs⟩

omit unlimited in
/-- A call to a group that is held which brings nothing new changes nothing, and is answered only if
it announced something else than what is held. -/
theorem react_rpc_of_known {delivery : Delivery} {m : Message}
    (held : store.get? delivery.rpc.topic delivery.rpc.group = some m)
    (known : delivery.rpc.carried ≤ m.available) :
    (store.react (.rpc delivery)).store = store ∧
      ∀ publication, (store.react (.rpc delivery)).publication = some publication →
        publication = ⟨delivery.rpc.topic, m, delivery.replyTo⟩ ∧
          ∃ announced, delivery.rpc.announced? = some announced ∧ announced ≠ m.available := by
  by_cases acceptable : delivery.rpc.Acceptable
  · have after := afterCall_of_held held known
    have present : ¬ store.contains delivery.rpc.topic delivery.rpc.group = false := by
      rw [contains_eq_false, held]
      exact Option.some_ne_none m
    constructor
    · rw [store_react_rpc acceptable, if_neg]
      rw [not_or, not_ne_iff, after]
      exact ⟨present, available_of_get? held⟩
    · intro publication published
      rw [publication_react_rpc acceptable] at published
      split at published
      · rename_i cause
        cases published
        rw [after] at cause ⊢
        rcases cause with grown | differs | new
        · exact absurd (available_of_get? held) grown
        · exact ⟨rfl, differs⟩
        · exact absurd new present
      · cases published
  · rw [react_rpc_of_not_acceptable acceptable]
    constructor
    · rfl
    · intro publication published
      cases published

end Unlimited

/-! ### What is published, and when nothing changes -/

section Settled

variable {store : Store} {request : Request}

/-- What is published is what the request is about. -/
theorem subject_of_publication {publication : Publication}
    (published : (store.react request).publication = some publication) :
    (publication.topic, publication.message.group) = request.subject := by
  cases request with
  | add topic m => cases published
  | publish topic group peers =>
    simp only [react, reactPublish] at published
    split at published
    · rename_i m held
      cases published
      exact congrArg (Prod.mk topic) (mem_of_get? held).2
    · cases published
  | rpc d =>
    obtain ⟨about, belongs, -⟩ := publication_of_rpc published
    rw [about, belongs]
    rfl
  | get topic group => cases published

variable (unlimited : store.limit = none)
  (present : ((store.react request).store.get? request.subject.1 request.subject.2).isSome = true →
    (store.get? request.subject.1 request.subject.2).isSome = true)
  (same : store.available request.subject.1 request.subject.2 =
    (store.react request).store.available request.subject.1 request.subject.2)

include unlimited present same

/-- A call that makes its group neither new nor larger brings nothing new. -/
theorem known_of_settled {d : Delivery} (call : request = .rpc d) (acceptable : d.rpc.Acceptable) :
    ∃ m, store.get? d.rpc.topic d.rpc.group = some m ∧ d.rpc.carried ≤ m.available := by
  subst call
  have after := get?_react_rpc unlimited acceptable d.rpc.topic d.rpc.group
  rw [if_pos ⟨rfl, rfl⟩] at after
  obtain ⟨m, held⟩ := Option.isSome_iff_exists.1 (present (Option.isSome_of_mem after))
  refine ⟨m, held, ?_⟩
  rw [← available_of_get? held]
  exact (carried_le_react unlimited d).trans same.ge

/-- A request that makes its group neither new nor larger changes nothing. -/
theorem react_eq_of_settled : (store.react request).store = store := by
  cases request with
  | add topic m =>
    rw [(react_add store topic m).1, insertIfAbsent]
    by_cases held : store.contains topic m.group = true
    · rw [if_pos held]
    · exfalso
      have fresh : store.contains topic m.group = false := by simpa using held
      have after := @get?_react_add store unlimited topic m topic m.group
      rw [if_pos ⟨fresh, rfl, rfl⟩] at after
      exact held (present (Option.isSome_of_mem after))
  | publish topic group peers => exact react_publish_store store topic group peers
  | rpc d =>
    by_cases acceptable : d.rpc.Acceptable
    · obtain ⟨m, held, known⟩ := known_of_settled unlimited present same rfl acceptable
      exact (react_rpc_of_known held known).1
    · rw [react_rpc_of_not_acceptable acceptable]
  | get topic group => rfl

/-- A call that makes its group neither new nor larger is answered only if it announced something
else than what is held. -/
theorem differs_of_settled {d : Delivery} (call : request = .rpc d) {publication : Publication}
    (published : (store.react request).publication = some publication) {announced : PartSet}
    (states : d.rpc.announced? = some announced) : announced ≠ publication.message.available := by
  by_cases acceptable : d.rpc.Acceptable
  · obtain ⟨m, held, known⟩ := known_of_settled unlimited present same call acceptable
    subst call
    obtain ⟨rfl, other, states', differs⟩ := (react_rpc_of_known held known).2 _ published
    rw [states] at states'
    obtain rfl := Option.some.inj states'
    exact differs
  · rw [call, react_rpc_of_not_acceptable acceptable] at published
    cases published

end Settled

end Store

end PartExchange
