/-
**Views never claim too much.**

A peer adds to its view of another peer in two places: the parts of a call when the call is put into
the other's inbox, and what the other announces when the announcement is taken out of the own inbox.
Neither waits for a coordinator.  Still, whatever a view claims is held by the other peer, or it is
carried by a call from the viewing peer that is on its way to the other's coordinator: in its inbox,
in the hands of its pump, or in its queue.  Only a peer whose coordinator has ended may hold less
than it is believed to.

The invariant says this of every part of every view, and of every announcement in an inbox that its
sender holds at least what it announces.

Main definitions:

* `Exchange.Accounted`: a part that one endpoint believes to be held at another is held there, or on
  its way;
* `Exchange.Sound`: every part of every view is accounted for, and no announcement is false.

Main results:

* `Exchange.Sound.step`: an orderly action keeps views sound;
* `Exchange.Sound.view_le_holding_of_idle`: what is believed of a peer is held there if nothing is on
  its way;
* `Exchange.held_or_on_its_way`: what is believed of a peer is held or on its way.
-/

import PartExchange.Proofs.Handling

set_option relaxedAutoImplicit false
set_option autoImplicit false

namespace PartExchange.Exchange

/-! ### The invariant -/

/-- A part that endpoint `k` of peer `self` believes to be held at endpoint `j`: it is held there,
or a call from `k` that is on its way to `j` carries it, or nobody listens at `j` any more. -/
def Accounted (h : History) (e : Exchange) (k : Nat) (self : PeerId) (j : Nat) (topic : Topic)
    (group : GroupId) (index : Nat) : Prop :=
  e.Deaf j ∨ (e.holding j topic group).contains index = true ∨
    ∃ d ∈ e.transit j, d.sender = self ∧ d.rpc.topic = topic ∧ d.rpc.group = group ∧
      d.rpc.carried.contains index = true ∧ ⟨k, j, ⟨self, d.rpc⟩⟩ ∈ h.posted

/-- Every part of every view is accounted for, and no announcement is false. -/
structure Sound (h : History) (e : Exchange) : Prop where
  /-- Whatever is believed of a peer is accounted for at its endpoint. -/
  views : ∀ {k self peer topic group index}, e.carriers.net.peerAt? k = some self →
    (e.carriers.net.view k ⟨peer, topic, group⟩).contains index = true →
      ∃ j, e.carriers.net.endpointOf? peer = some j ∧ Accounted h e k self j topic group index
  /-- Whatever is announced in an inbox is held by the sender. -/
  announced : ∀ {j envelope held}, envelope ∈ e.carriers.net.inbox j →
    envelope.rpc.announced? = some held →
      ∃ k, e.carriers.net.endpointOf? envelope.sender = some k ∧
        held ≤ e.holding k envelope.rpc.topic envelope.rpc.group

/-- A part that is accounted for stays so when nothing is lost. -/
theorem Accounted.mono {h h' : History} {e e' : Exchange} {k j : Nat} {self : PeerId}
    {topic : Topic} {group : GroupId} {index : Nat} (keeps : e.Keeps e')
    (posted : h.posted ⊆ h'.posted) (known : Accounted h e k self j topic group index) :
    Accounted h' e' k self j topic group index := by
  rcases known with deaf | held | ⟨d, member, sender, rfl, rfl, carries, sent⟩
  · exact Or.inl (keeps.deaf deaf)
  · exact Or.inr (Or.inl (keeps.holding _ _ _ _ held))
  · rcases keeps.transit member with deaf | there | held
    · exact Or.inl deaf
    · exact Or.inr (Or.inr ⟨d, there, sender, rfl, rfl, carries, posted sent⟩)
    · exact Or.inr (Or.inl (held _ carries))

/-- A view at an endpoint without a peer is empty. -/
theorem peerAt?_of_contains_view {net : Network} {k : Nat} {key : ViewKey} {index : Nat}
    (claims : (net.view k key).contains index = true) : ∃ self, net.peerAt? k = some self := by
  cases here : net.peerAt? k with
  | some self => exact ⟨self, rfl⟩
  | none =>
    rw [Network.view_eq_empty here, PartSet.contains_empty] at claims
    cases claims

/-! ### Steps -/

namespace Sound

variable {h : History} {e e' : Exchange} (sound : Sound h e)

include sound

/-- A quiet change keeps views sound. -/
theorem quiet {foreign : Delivery → Prop} (quiet : e.Quiet foreign e') : Sound h e' where
  views {k self peer topic group index} here claims := by
    rw [quiet.view] at claims
    obtain ⟨self', here'⟩ := peerAt?_of_contains_view claims
    obtain rfl : self' = self := Option.some.inj ((quiet.peerAt? here').symm.trans here)
    obtain ⟨j, found, known⟩ := sound.views here' claims
    exact ⟨j, quiet.endpointOf? found,
      known.mono (Keeps.of_quiet quiet) (List.Subset.refl _)⟩
  announced {j envelope held} member announces := by
    rcases quiet.inbox j with same | ⟨-, none⟩
    · rw [same] at member
      obtain ⟨k, found, holds⟩ := sound.announced member announces
      refine ⟨k, quiet.endpointOf? found, holds.trans ?_⟩
      exact (Keeps.of_quiet quiet).holding _ _ _
    · rw [none] at member
      cases member

/-- A pump that takes a call believes what the call announces, and rightly so. -/
theorem takes {k : Nat} {envelope : Envelope} (takes : e.Takes k envelope e') : Sound h e' where
  views {i self peer topic group index} here claims := by
    have keeps := Keeps.of_takes takes
    rw [takes.received.peerAt?] at here
    rw [takes.received.view] at claims
    split at claims
    · rename_i news
      obtain ⟨rfl, key⟩ := news
      rw [PartSet.contains_union, Bool.or_eq_true] at claims
      rcases claims with old | announced
      · obtain ⟨j, found, known⟩ := sound.views here old
        exact ⟨j, keeps.endpointOf? found, known.mono keeps (List.Subset.refl _)⟩
      · -- What the call announces is held by its sender, so it is accounted for at once.
        obtain ⟨rfl, rfl, rfl⟩ := ViewKey.mk.injEq .. ▸ key
        cases announces : envelope.rpc.announced? with
        | none => simp [announces] at announced
        | some held =>
          rw [announces, Option.getD_some] at announced
          have waits : envelope ∈ e.carriers.net.inbox i := by
            rw [takes.received.head]
            exact List.mem_cons_self
          obtain ⟨j, found, holds⟩ := sound.announced waits announces
          refine ⟨j, keeps.endpointOf? found, Or.inr (Or.inl ?_)⟩
          rw [takes.holding]
          exact holds index announced
    · obtain ⟨j, found, known⟩ := sound.views here claims
      exact ⟨j, keeps.endpointOf? found, known.mono keeps (List.Subset.refl _)⟩
  announced {j envelope' held} member announces := by
    have before : envelope' ∈ e.carriers.net.inbox j := by
      by_cases here : j = k
      · subst here
        rw [takes.received.head]
        exact List.mem_cons_of_mem _ member
      · rwa [← takes.received.others j here]
    obtain ⟨i, found, holds⟩ := sound.announced before announces
    refine ⟨i, by rw [takes.received.endpointOf?, found], ?_⟩
    rwa [takes.holding]

/-- A coordinator that handles a job believes only in what its calls carry, and announces only what
it holds. -/
theorem handles {k : Nat} {c c' : Coordinator} {job : Job} {lane : Lane} {h' : History}
    (handles : e.Handles k c c' job lane e') (wired : e.Wired) (posted : h.posted ⊆ h'.posted)
    (arrives : ∀ j, ∀ envelope ∈ e.carriers.net.arrivals e'.carriers.net j,
      ⟨k, j, envelope⟩ ∈ h'.posted) : Sound h' e' where
  views {i self peer topic group index} here claims := by
    have keeps := Keeps.of_handles handles wired
    rw [handles.framed.peerAt?] at here
    by_cases old : (e.carriers.net.view i ⟨peer, topic, group⟩).contains index = true
    · obtain ⟨j, found, known⟩ := sound.views here old
      exact ⟨j, keeps.endpointOf? found, known.mono keeps posted⟩
    · cases published : (c.store.react job.request).publication with
      | none =>
        rw [handles.net_of_silent published] at claims
        exact absurd claims old
      | some publication =>
        have spreads := handles.spreads published
        by_cases news : i = k ∧ topic = publication.topic ∧ group = publication.message.group
        · -- What is newly believed is carried by a call that has just arrived.
          obtain ⟨rfl, rfl, rfl⟩ := news
          rcases spreads.learnt peer index claims with old' | ⟨j, found, envelope, arrived, carries⟩
          · exact absurd old' old
          · obtain ⟨sender, target, known, origin, -, -, form, -⟩ :=
              spreads.arrival j envelope arrived
            rw [here] at origin
            obtain rfl := Option.some.inj origin
            have sent := arrives j envelope arrived
            refine ⟨j, keeps.endpointOf? found,
              Or.inr (Or.inr ⟨envelope.delivery, ?_, ?_, ?_, ?_, carries, ?_⟩)⟩
            · exact handles.mem_transit_of_arrival arrived
            · rw [form]; rfl
            · rw [form]; rfl
            · rw [form]; rfl
            · rw [form] at sent ⊢
              exact sent
        · rw [spreads.others i _ news] at claims
          exact absurd claims old
  announced {j envelope held} member announces := by
    rw [handles.inbox, List.mem_append] at member
    rcases member with old | arrived
    · obtain ⟨i, found, holds⟩ := sound.announced old announces
      refine ⟨i, by rw [handles.framed.endpointOf?, found], holds.trans ?_⟩
      exact handles.holding_le wired _ _ _
    · obtain ⟨publication, published, sender, target, known, origin, -, -, rfl⟩ :=
        handles.arrival arrived
      refine ⟨k, by rw [handles.framed.endpointOf?, wired.home origin], ?_⟩
      rw [Rpc.announced?_update] at announces
      obtain rfl := Option.some.inj announces
      exact (holding_of_stored? (handles.stored?_published wired published)).ge

/-- An orderly action keeps views sound. -/
theorem step {action : Action} (wired : e.Wired) (effect : Effect e action e') :
    Sound (h.after e action e') e' := by
  have more : ∀ {h₁ h₂ : History} {x : Exchange}, Sound h₁ x → h₁.posted ⊆ h₂.posted →
      Sound h₂ x := by
    intro h₁ h₂ x before posted
    refine ⟨?_, before.announced⟩
    intro k self peer topic group index here claims
    obtain ⟨j, found, known⟩ := before.views here claims
    refine ⟨j, found, known.mono ?_ posted⟩
    exact Keeps.of_quiet (Quiet.refl (fun _ => False) x)
  have posted := posted_subset_after h e action e'
  cases effect with
  | quiet quiet silent => exact more (sound.quiet quiet) posted
  | takes held_wired takes quiet silent =>
    exact more ((sound.takes takes).quiet quiet) posted
  | @handles i k s job lane c' serves here outlet next handles =>
    refine sound.handles handles wired posted ?_
    intro j envelope arrived
    refine mem_posted_after.2 (Or.inr ⟨?_, arrived⟩)
    rw [serves, source?, here, Option.bind_some, outlet]

end Sound

/-- Views are sound in every orderly run. -/
theorem Run.sound {capacity : Nat} {h : History} {e : Exchange}
    {allowed : Exchange → Action → Prop} (run : Run allowed (.new capacity) h e)
    (orderly : ∀ e action, allowed e action → e.Orderly action) : Sound h e := by
  induction run with
  | start =>
    constructor
    · intro k self peer topic group index here
      cases here
    · intro j envelope held member
      cases member
  | step run allow acts ih =>
    have wired := run.wired orderly
    exact ih.step wired (wired.effect (orderly _ _ allow) acts).2

/-! ### What is believed of a peer -/

/-- Whatever is believed of a peer that listens is held there if nothing about the group is on its
way. -/
theorem Sound.view_le_holding_of_idle {h : History} {e : Exchange} (sound : Sound h e) {k j : Nat}
    {self peer : PeerId} {topic : Topic} {group : GroupId}
    (here : e.carriers.net.peerAt? k = some self) (found : e.carriers.net.endpointOf? peer = some j)
    (listens : ¬ e.Deaf j) (idle : ∀ d ∈ e.transit j,
      ¬ (d.sender = self ∧ d.rpc.topic = topic ∧ d.rpc.group = group)) :
    e.carriers.net.view k ⟨peer, topic, group⟩ ≤ e.holding j topic group := by
  intro index claims
  obtain ⟨j', found', known⟩ := sound.views here claims
  obtain rfl := Option.some.inj (found.symm.trans found')
  rcases known with deaf | held | ⟨d, waits, sender, about, group, -⟩
  · exact absurd deaf listens
  · exact held
  · exact absurd ⟨sender, about, group⟩ (idle d waits)

/-- Whatever peer `a` believes peer `b` to hold of a group is held by `b`, as long as the
coordinator of `b` has not ended, or it is carried by a call that `a` has sent and that is on its
way to the coordinator of `b`. -/
theorem held_or_on_its_way {capacity : Nat} {h : History} {e : Exchange}
    (run : Run Orderly (.new capacity) h e) {a b : PeerId} {k j i : Nat} {station : Station}
    {topic : Topic} {group : GroupId} {index : Nat}
    (home_a : e.carriers.net.endpointOf? a = some k)
    (home_b : e.carriers.net.endpointOf? b = some j) (here : e.stations[i]? = some station)
    (outlet : station.outlet = .endpoint j) (running : station.coordinator.ended = false)
    (believed : (e.carriers.net.view k ⟨b, topic, group⟩).contains index = true) :
    (∃ m, station.coordinator.store.get? topic group = some m ∧
        m.available.contains index = true) ∨
      ∃ d ∈ e.transit j, d.sender = a ∧ d.rpc.topic = topic ∧ d.rpc.group = group ∧
        d.rpc.carried.contains index = true ∧ ⟨k, j, ⟨a, d.rpc⟩⟩ ∈ h.posted := by
  have wired := run.wired fun _ _ orderly => orderly
  have sound := run.sound fun _ _ orderly => orderly
  have works := wired.coordinatorOn?_of_station here outlet
  obtain ⟨j', found, known⟩ := sound.views (wired.registered home_a) believed
  obtain rfl := Option.some.inj (found.symm.trans home_b)
  rcases known with deaf | held | carried
  · exact absurd deaf (wired.not_deaf here outlet running)
  · left
    rw [holding, stored?_of_coordinatorOn? works] at held
    cases stored : station.coordinator.store.get? topic group with
    | none => simp [stored] at held
    | some m => exact ⟨m, rfl, by simpa [stored] using held⟩
  · exact Or.inr carried

/-- While the greeting waits in the second peer's inbox, the first peer already believes its part to
be held. -/
theorem believed_after_greeting :
    ∃ h e, Run Orderly (.new 4) h e ∧ ∃ station ∈ e.stations, station.outlet = .endpoint 1 ∧
      (e.carriers.net.view 0 ⟨uniformPeer 2, default, default⟩).contains 3 = true ∧
      ((∃ m, station.coordinator.store.get? default default = some m ∧
          m.available.contains 3 = true) ∨
        ∃ d ∈ e.transit 1, d.sender = uniformPeer 1 ∧ d.rpc.topic = default ∧
          d.rpc.group = default ∧ d.rpc.carried.contains 3 = true ∧
          ⟨0, 1, ⟨uniformPeer 1, d.rpc⟩⟩ ∈ h.posted) := by
  have check : ((play? Orderly {} (.new 4) greeting).any fun r =>
      r.2.carriers.net.endpointOf? (uniformPeer 1) = some 0 ∧
        r.2.carriers.net.endpointOf? (uniformPeer 2) = some 1 ∧
        (r.2.carriers.net.view 0 ⟨uniformPeer 2, default, default⟩).contains 3 = true ∧
        ∃ station ∈ r.2.stations, station.outlet = .endpoint 1 ∧
          station.coordinator.ended = false) = true := by
    decide +kernel
  obtain ⟨⟨h, e⟩, played, holds⟩ := (Option.any_eq_true _ _).1 check
  obtain ⟨home_a, home_b, believed, station, member, outlet, running⟩ := of_decide_eq_true holds
  have run := Run.start.play played
  obtain ⟨i, here⟩ := List.mem_iff_getElem?.1 member
  exact ⟨h, e, run, station, member, outlet, believed,
    held_or_on_its_way run home_a home_b here outlet running believed⟩

end PartExchange.Exchange
