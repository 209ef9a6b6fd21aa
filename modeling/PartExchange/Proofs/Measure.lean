/-
**A measure of what is still to come.**

When pumps and coordinators go on without new requests, four things can change.  Coordinators and
pumps end; what is stored and believed grows; calls and requests are handled, and new calls are made
of them; and calls move on from inboxes to pumps and from pumps to queues.  The measure has one
component for each of them, in this order.

The third one is a multiset of weights.  A call weighs the less the more it announces, provided that
the receiver will hold all of that by the time it handles the call, because it is held already or is
carried by calls before it.  Whatever else waits weighs more than any such call.

Main definitions:

* `Delivery.weight`, `weights`: the weights of the calls that wait somewhere;
* `Exchange.Scope`, `Exchange.Within`: the endpoints, peers and groups that are concerned;
* `Exchange.alive`, `Exchange.lack`, `Exchange.workload`, `Exchange.backlog`: the components;
* `Exchange.measure`, `Lower`: the measure and its order;
* `Exchange.Steady`: a change in which nothing but views and places changes.

Main results:

* `lower_wf`: the order is well-founded;
* `weights_lt`: calls that announce more weigh less;
* `Exchange.Grows.settled`: what has not changed if the second component has not.
-/

import PartExchange.Proofs.ViewSoundness
import Mathlib.Algebra.Order.BigOperators.Group.Finset
import Mathlib.Data.Multiset.DershowitzManna

set_option relaxedAutoImplicit false
set_option autoImplicit false

namespace PartExchange

open Finset

/-! ### Weights of calls -/

/-- What will be held once a call has been handled. -/
def absorbed (held : Topic → GroupId → PartSet) (d : Delivery) : Topic → GroupId → PartSet :=
  fun topic group =>
    if topic = d.rpc.topic ∧ group = d.rpc.group then (held topic group).union d.rpc.carried
    else held topic group

/-- The weight of whatever has no smaller one. -/
def fullWeight : Nat := partCount + 2

/-- The weight of a call: the less, the more it announces of what is held. -/
def Delivery.weight (held : Topic → GroupId → PartSet) (d : Delivery) : Nat :=
  match d.rpc.announced? with
  | some announced =>
    if announced ≤ held d.rpc.topic d.rpc.group then announced.lacking + 1 else fullWeight
  | none => fullWeight

/-- The weight of a job: that of the call if it is one. -/
def Job.weight (held : Topic → GroupId → PartSet) (job : Job) : Nat :=
  match job.delivery? with
  | some d => d.weight held
  | none => fullWeight

/-- The weights of calls that are handled one after the other. -/
def weights (held : Topic → GroupId → PartSet) : List Delivery → List Nat
  | [] => []
  | d :: rest => d.weight held :: weights (absorbed held d) rest

section Weights

variable {held : Topic → GroupId → PartSet}

theorem le_absorbed (d : Delivery) (topic : Topic) (group : GroupId) :
    held topic group ≤ absorbed held d topic group := by
  rw [absorbed]
  split
  · exact PartSet.le_union_left _ _
  · exact le_refl _

/-- A call that carries nothing new changes nothing. -/
theorem absorbed_eq_self {d : Delivery} (known : d.rpc.carried ≤ held d.rpc.topic d.rpc.group) :
    absorbed held d = held := by
  funext topic group
  rw [absorbed]
  split
  · rename_i here
    obtain ⟨rfl, rfl⟩ := here
    exact PartSet.union_eq_left known
  · rfl

theorem le_foldl_absorbed (calls : List Delivery) (topic : Topic) (group : GroupId) :
    held topic group ≤ calls.foldl absorbed held topic group := by
  induction calls generalizing held with
  | nil => exact le_refl _
  | cons d rest ih =>
    rw [List.foldl_cons]
    exact (le_absorbed d topic group).trans ih

/-- What a call carries will be held once it has been handled. -/
theorem carried_le_foldl_absorbed {calls : List Delivery} {d : Delivery} (waits : d ∈ calls) :
    d.rpc.carried ≤ calls.foldl absorbed held d.rpc.topic d.rpc.group := by
  induction calls generalizing held with
  | nil => cases waits
  | cons first rest ih =>
    rw [List.foldl_cons]
    rcases List.mem_cons.1 waits with rfl | later
    · refine le_trans ?_ (le_foldl_absorbed rest _ _)
      rw [absorbed, if_pos ⟨rfl, rfl⟩]
      exact PartSet.le_union_right _ _
    · exact ih later

theorem weights_append (calls more : List Delivery) :
    weights held (calls ++ more) = weights held calls ++ weights (calls.foldl absorbed held) more := by
  induction calls generalizing held with
  | nil => rfl
  | cons d rest ih => rw [List.cons_append, weights, weights, ih, List.foldl_cons, List.cons_append]

/-- Calls that announce what will be held, and lack less than a weight, weigh less. -/
theorem weights_lt {calls : List Delivery} {bound : Nat}
    (announce : ∀ d ∈ calls, ∃ announced, d.rpc.announced? = some announced ∧
      announced ≤ held d.rpc.topic d.rpc.group ∧ announced.lacking + 1 < bound) :
    ∀ weight ∈ weights held calls, weight < bound := by
  -- What will be held grows with each call, and what is announced stays below it.
  induction calls generalizing held with
  | nil =>
    intro weight member
    cases member
  | cons d rest ih =>
    intro weight member
    rcases List.mem_cons.1 member with rfl | later
    · obtain ⟨announced, states, known, small⟩ := announce d List.mem_cons_self
      simp only [Delivery.weight, states]
      rwa [if_pos known]
    · refine ih ?_ weight later
      intro other waits
      obtain ⟨announced, states, known, small⟩ := announce other (List.mem_cons_of_mem d waits)
      exact ⟨announced, states, known.trans (le_absorbed d _ _), small⟩

end Weights

/-! ### Other requests -/

/-- The jobs of a coordinator that are not calls from peers. -/
def Coordinator.errands (c : Coordinator) : List Job :=
  c.adds.items ++ c.publishes.items ++ c.queries.items

theorem Coordinator.mem_errands {c : Coordinator} {job : Job} :
    job ∈ c.errands ↔ ∃ lane, lane ≠ .incoming ∧ job ∈ (c.queue lane).items := by
  rw [errands, List.mem_append, List.mem_append]
  constructor
  · rintro ((waits | waits) | waits)
    · exact ⟨.add, by decide, waits⟩
    · exact ⟨.publish, by decide, waits⟩
    · exact ⟨.query, by decide, waits⟩
  · rintro ⟨lane, other, waits⟩
    cases lane with
    | add => exact Or.inl (Or.inl waits)
    | publish => exact Or.inl (Or.inr waits)
    | incoming => exact absurd rfl other
    | query => exact Or.inr waits

/-- A sender's attempt to hand over a call leaves the other jobs alone. -/
theorem Coordinator.Fed.errands {c c' : Coordinator} {entered : Option Job}
    (fed : c.Fed c' entered) (calls : ∀ job, entered = some job → job.request.lane = .incoming) :
    c'.errands = c.errands := by
  have same : ∀ lane, lane ≠ .incoming → (c'.queue lane).items = (c.queue lane).items := by
    intro lane other
    rw [fed.items]
    cases entered with
    | none => exact List.append_nil _
    | some job =>
      rw [Option.filter_some, if_neg]
      · exact List.append_nil _
      · rw [calls job rfl]
        simpa using Ne.symm other
  rw [Coordinator.errands, Coordinator.errands]
  exact congrArg₂ _ (congrArg₂ _ (same .add (by decide)) (same .publish (by decide)))
    (same .query (by decide))

/-- A handled job leaves the other jobs, if it is one of them. -/
theorem Coordinator.Served.errands {c c' : Coordinator} {job : Job} {lane : Lane}
    (served : c.Served c' job lane) : c.errands.length =
      c'.errands.length + (if lane = .incoming then 0 else 1) := by
  have count : ∀ other, (c.queue other).items.length =
      (c'.queue other).items.length + (if other = lane then 1 else 0) := by
    intro other
    split
    · rename_i here
      rw [here, served.head, List.length_cons]
    · rename_i elsewhere
      rw [served.others other elsewhere, Nat.add_zero]
  have adds := count .add
  have publishes := count .publish
  have queries := count .query
  simp only [Coordinator.errands, List.length_append]
  cases lane <;> simp_all [Coordinator.queue] <;> omega

namespace Exchange

/-- The jobs other than calls that wait at an endpoint. -/
def errandsAt (e : Exchange) (k : Nat) : List Job :=
  ((e.coordinatorOn? k).map Coordinator.errands).getD []

/-! ### What is concerned -/

/-- Some endpoints, peers and groups. -/
structure Scope where
  /-- The number of endpoints. -/
  size : Nat
  /-- The peers. -/
  peers : Finset PeerId
  /-- The groups with their topics. -/
  subjects : Finset (Topic × GroupId)

/-- Nothing outside a scope is there or on its way. -/
structure Within (scope : Scope) (e : Exchange) : Prop where
  /-- All endpoints and their peers are in scope. -/
  places : ∀ {k peer}, e.carriers.net.peerAt? k = some peer → k < scope.size ∧ peer ∈ scope.peers
  /-- All calls on their way are in scope. -/
  calls : ∀ {k d}, d ∈ e.transit k → (d.rpc.topic, d.rpc.group) ∈ scope.subjects
  /-- All other jobs are in scope. -/
  errands : ∀ {k job}, job ∈ e.errandsAt k → job.request.subject ∈ scope.subjects

/-- Where there is no peer, nothing waits. -/
theorem Wired.nothing_waits {e : Exchange} (wired : e.Wired) {k : Nat}
    (absent : e.carriers.net.peerAt? k = none) : e.transit k = [] ∧ e.errandsAt k = [] := by
  have idle : e.coordinatorOn? k = none := by
    cases works : e.coordinatorOn? k with
    | none => rfl
    | some c =>
      obtain ⟨self, there⟩ := wired.peerAt?_of_coordinatorOn? works
      rw [absent] at there
      cases there
  have unread : e.pumpOn? k = none := by
    cases reads : e.pumpOn? k with
    | none => rfl
    | some pump =>
      obtain ⟨p, here, rfl⟩ := mem_of_pumpOn? reads
      obtain ⟨self, present⟩ := wired.present_of_pump here
      rw [Network.peerAt?_of_present present] at absent
      cases absent
  have inbox : e.carriers.net.inbox k = [] := by
    rw [Network.inbox, Option.map_eq_none_iff.1 absent]
    rfl
  constructor
  · rw [transit, taken, queued, heldBack, idle, unread, inbox]
    rfl
  · rw [errandsAt, idle]
    rfl

/-- Every exchange has a scope. -/
theorem Wired.exists_within {e : Exchange} (wired : e.Wired) : ∃ scope, Within scope e := by
  let size := e.carriers.net.endpoints.length
  have inside : ∀ {k peer}, e.carriers.net.peerAt? k = some peer → k < size := by
    intro k peer there
    obtain ⟨self, present, -⟩ := Network.peerAt?_eq_some.1 there
    exact (List.getElem?_eq_some_iff.1 present).1
  have placed : ∀ {k}, e.transit k ≠ [] ∨ e.errandsAt k ≠ [] → k < size := by
    intro k waits
    cases there : e.carriers.net.peerAt? k with
    | some peer => exact inside there
    | none =>
      obtain ⟨noCalls, noErrands⟩ := wired.nothing_waits there
      exact (waits.elim (fun some => some noCalls) fun some => some noErrands).elim
  -- The groups in scope are those of all that waits anywhere now.
  let subjects := (List.range size).flatMap fun k =>
    (e.transit k).map (fun d => (d.rpc.topic, d.rpc.group)) ++
      (e.errandsAt k).map (·.request.subject)
  have listed : ∀ {k subject}, (e.transit k ≠ [] ∨ e.errandsAt k ≠ []) →
      subject ∈ (e.transit k).map (fun d => (d.rpc.topic, d.rpc.group)) ++
        (e.errandsAt k).map (·.request.subject) → subject ∈ subjects.toFinset := by
    intro k subject waits member
    rw [List.mem_toFinset, List.mem_flatMap]
    exact ⟨k, List.mem_range.2 (placed waits), member⟩
  refine ⟨⟨size, (e.carriers.net.endpoints.map Endpoint.peer).toFinset, subjects.toFinset⟩, ?_⟩
  constructor
  case places =>
    intro k peer there
    obtain ⟨self, present, rfl⟩ := Network.peerAt?_eq_some.1 there
    exact ⟨inside there, List.mem_toFinset.2 (List.mem_map_of_mem (List.mem_of_getElem? present))⟩
  case calls =>
    intro k d waits
    exact listed (Or.inl (List.ne_nil_of_mem waits))
      (List.mem_append_left _ (List.mem_map_of_mem waits))
  case errands =>
    intro k job waits
    exact listed (Or.inr (List.ne_nil_of_mem waits))
      (List.mem_append_right _ (List.mem_map_of_mem waits))

/-! ### The components -/

/-- How many of the coordinator and the pump at an endpoint have not ended. -/
def aliveAt (e : Exchange) (k : Nat) : Nat :=
  (if (e.coordinatorOn? k).any (!·.ended) then 1 else 0) +
    if (e.pumpOn? k).any (!·.finished) then 1 else 0

/-- What is not stored of a group at an endpoint: the group itself, and its parts. -/
def unheld (e : Exchange) (k : Nat) (subject : Topic × GroupId) : Nat :=
  (if (e.stored? k subject.1 subject.2).isSome then 0 else 1) +
    (e.holding k subject.1 subject.2).lacking

/-- What is not believed at an endpoint to be held by a peer. -/
def unseen (e : Exchange) (k : Nat) (subject : Topic × GroupId) (peer : PeerId) : Nat :=
  (e.carriers.net.view k ⟨peer, subject.1, subject.2⟩).lacking

/-- The weights of what waits at an endpoint.  Calls that nobody will handle have none. -/
def workloadAt (e : Exchange) (k : Nat) : Multiset Nat :=
  (if e.Deaf k then 0 else (weights (e.holding k) (e.transit k) : Multiset Nat)) +
    .replicate (e.errandsAt k).length fullWeight

/-- How often the calls in the inbox and in the pump of an endpoint have to be moved. -/
def backlogAt (e : Exchange) (k : Nat) : Nat :=
  2 * (e.carriers.net.inbox k).length + (e.heldBack k).length

variable (scope : Scope) (e : Exchange)

/-- How many coordinators and pumps have not ended. -/
def alive : Nat := ∑ k ∈ range scope.size, e.aliveAt k

/-- What is not stored and not believed anywhere. -/
def lack : Nat :=
  ∑ k ∈ range scope.size, ∑ subject ∈ scope.subjects,
    (e.unheld k subject + ∑ peer ∈ scope.peers, e.unseen k subject peer)

/-- The weights of all that waits. -/
def workload : Multiset Nat := ∑ k ∈ range scope.size, e.workloadAt k

/-- How often calls have to be moved. -/
def backlog : Nat := ∑ k ∈ range scope.size, e.backlogAt k

/-- What is still to come. -/
def measure : Nat × Nat × Multiset Nat × Nat :=
  (e.alive scope, e.lack scope, e.workload scope, e.backlog scope)

end Exchange

/-- The order of measures: the first component that differs decides. -/
def Lower : Nat × Nat × Multiset Nat × Nat → Nat × Nat × Multiset Nat × Nat → Prop :=
  Prod.Lex (· < ·) (Prod.Lex (· < ·) (Prod.Lex Multiset.IsDershowitzMannaLT (· < ·)))

theorem lower_wf : WellFounded Lower :=
  Nat.lt_wfRel.wf.prod_lex (Nat.lt_wfRel.wf.prod_lex
    (Multiset.wellFounded_isDershowitzMannaLT.prod_lex Nat.lt_wfRel.wf))

theorem Lower.trans {x y z : Nat × Nat × Multiset Nat × Nat} (first : Lower x y)
    (second : Lower y z) : Lower x z := by
  have transitive : IsTrans (Multiset Nat) Multiset.IsDershowitzMannaLT :=
    ⟨fun _ _ _ => Multiset.IsDershowitzMannaLT.trans⟩
  exact Prod.Lex.trans first second

section Lower

variable {a a' l l' : Nat} {w w' : Multiset Nat} {b b' : Nat}

theorem lower_of_alive (less : a' < a) : Lower (a', l', w', b') (a, l, w, b) :=
  .left _ _ less

theorem lower_of_workload (same : a' = a) (below : l' ≤ l)
    (less : l' = l → Multiset.IsDershowitzMannaLT w' w) : Lower (a', l', w', b') (a, l, w, b) := by
  subst same
  rcases Nat.lt_or_eq_of_le below with fewer | equal
  · exact .right _ (.left _ _ fewer)
  · subst equal
    exact .right _ (.right _ (.left _ _ (less rfl)))

theorem lower_of_backlog (same : a' = a) (below : l' ≤ l) (same' : w' = w) (less : b' < b) :
    Lower (a', l', w', b') (a, l, w, b) := by
  subst same same'
  rcases Nat.lt_or_eq_of_le below with fewer | equal
  · exact .right _ (.left _ _ fewer)
  · subst equal
    exact .right _ (.right _ (.right _ less))

end Lower

namespace Exchange

/-! ### Growing -/

/-- A change in which what is stored and believed only grows. -/
structure Grows (e e' : Exchange) : Prop where
  /-- What is stored stays. -/
  stored? : ∀ {k topic group}, (e.stored? k topic group).isSome = true →
    (e'.stored? k topic group).isSome = true
  /-- What is held stays. -/
  holding : ∀ k topic group, e.holding k topic group ≤ e'.holding k topic group
  /-- What is believed stays. -/
  view : ∀ k key, e.carriers.net.view k key ≤ e'.carriers.net.view k key

namespace Grows

variable {e e' : Exchange} (grows : e.Grows e')

include grows

theorem unheld_le (k : Nat) (subject : Topic × GroupId) : e'.unheld k subject ≤ e.unheld k subject := by
  refine Nat.add_le_add ?_ (PartSet.lacking_anti (grows.holding k _ _))
  by_cases stored : (e.stored? k subject.1 subject.2).isSome = true
  · rw [if_pos stored, if_pos (grows.stored? stored)]
  · rw [if_neg stored]
    split
    · exact Nat.zero_le _
    · exact Nat.le_refl _

theorem unseen_le (k : Nat) (subject : Topic × GroupId) (peer : PeerId) :
    e'.unseen k subject peer ≤ e.unseen k subject peer :=
  PartSet.lacking_anti (grows.view k _)

theorem term_le (scope : Scope) (k : Nat) (subject : Topic × GroupId) :
    e'.unheld k subject + ∑ peer ∈ scope.peers, e'.unseen k subject peer ≤
      e.unheld k subject + ∑ peer ∈ scope.peers, e.unseen k subject peer :=
  Nat.add_le_add (grows.unheld_le k subject)
    (sum_le_sum fun peer _ => grows.unseen_le k subject peer)

/-- What grows lacks less. -/
theorem lack_le (scope : Scope) : e'.lack scope ≤ e.lack scope :=
  sum_le_sum fun k _ => sum_le_sum fun subject _ => grows.term_le scope k subject

/-- If no less is lacking, nothing in scope has grown. -/
theorem settled {scope : Scope} (same : e'.lack scope = e.lack scope) {k : Nat}
    (inside : k < scope.size) {subject : Topic × GroupId} (about : subject ∈ scope.subjects) :
    ((e'.stored? k subject.1 subject.2).isSome = true →
        (e.stored? k subject.1 subject.2).isSome = true) ∧
      e.holding k subject.1 subject.2 = e'.holding k subject.1 subject.2 ∧
      ∀ peer ∈ scope.peers, e.carriers.net.view k ⟨peer, subject.1, subject.2⟩ =
        e'.carriers.net.view k ⟨peer, subject.1, subject.2⟩ := by
  -- No term of the sums grows, so if the sums are the same, then so is every term.
  have rows := (sum_eq_sum_iff_of_le fun k _ =>
    sum_le_sum fun subject _ => grows.term_le scope k subject).1 same k (mem_range.2 inside)
  have term := (sum_eq_sum_iff_of_le fun subject _ => grows.term_le scope k subject).1 rows subject
    about
  have held_le := grows.unheld_le k subject
  have seen_le : ∑ peer ∈ scope.peers, e'.unseen k subject peer ≤
      ∑ peer ∈ scope.peers, e.unseen k subject peer :=
    sum_le_sum fun peer _ => grows.unseen_le k subject peer
  have held : e'.unheld k subject = e.unheld k subject := by omega
  have seen : ∑ peer ∈ scope.peers, e'.unseen k subject peer =
      ∑ peer ∈ scope.peers, e.unseen k subject peer := by omega
  have parts_le := PartSet.lacking_anti (grows.holding k subject.1 subject.2)
  rw [unheld, unheld] at held
  refine ⟨?_, PartSet.eq_of_lacking_eq (grows.holding k _ _) ?_, ?_⟩
  · intro after
    rw [if_pos after] at held
    by_cases before : (e.stored? k subject.1 subject.2).isSome = true
    · exact before
    · rw [if_neg before] at held
      omega
  · by_cases before : (e.stored? k subject.1 subject.2).isSome = true
    · rw [if_pos before, if_pos (grows.stored? before)] at held
      omega
    · rw [if_neg before] at held
      split at held <;> omega
  · intro peer listed
    have each := (sum_eq_sum_iff_of_le fun peer _ => grows.unseen_le k subject peer).1 seen peer
      listed
    exact PartSet.eq_of_lacking_eq (grows.view k _) each

end Grows

/-! ### Steady changes -/

/-- A change in which nothing but views and the places of calls changes, and views only grow. -/
structure Steady (e e' : Exchange) : Prop where
  /-- Endpoints keep their peers. -/
  peerAt? : ∀ k, e'.carriers.net.peerAt? k = e.carriers.net.peerAt? k
  /-- Nobody ends. -/
  alive : ∀ k, e'.aliveAt k = e.aliveAt k
  /-- Messages do not change. -/
  stored? : ∀ k topic group, e'.stored? k topic group = e.stored? k topic group
  /-- Views only grow. -/
  view : ∀ k key, e.carriers.net.view k key ≤ e'.carriers.net.view k key
  /-- Nobody becomes deaf. -/
  deaf : ∀ k, e'.Deaf k ↔ e.Deaf k
  /-- The same calls are on their way, in the same order. -/
  transit : ∀ k, e'.transit k = e.transit k
  /-- The same other jobs wait. -/
  errands : ∀ k, e'.errandsAt k = e.errandsAt k

namespace Steady

variable {e e' e'' : Exchange}

theorem trans (first : e.Steady e') (second : e'.Steady e'') : e.Steady e'' where
  peerAt? k := (second.peerAt? k).trans (first.peerAt? k)
  alive k := (second.alive k).trans (first.alive k)
  stored? k topic group := (second.stored? k topic group).trans (first.stored? k topic group)
  view k key := (first.view k key).trans (second.view k key)
  deaf k := (second.deaf k).trans (first.deaf k)
  transit k := (second.transit k).trans (first.transit k)
  errands k := (second.errands k).trans (first.errands k)

variable (steady : e.Steady e')

include steady

theorem holding (k : Nat) : e'.holding k = e.holding k := by
  funext topic group
  rw [Exchange.holding, steady.stored?, Exchange.holding]

theorem grows : e.Grows e' where
  stored? stored := by rwa [steady.stored?]
  holding k topic group := by rw [steady.holding]
  view := steady.view

theorem within {scope : Scope} (within : Within scope e) : Within scope e' where
  places there := within.places ((steady.peerAt? _).symm.trans there)
  calls waits := within.calls (steady.transit _ ▸ waits)
  errands waits := within.errands (steady.errands _ ▸ waits)

theorem workloadAt (k : Nat) : e'.workloadAt k = e.workloadAt k := by
  rw [Exchange.workloadAt, Exchange.workloadAt, steady.holding, steady.transit, steady.errands]
  simp only [steady.deaf]

/-- A steady change that moves calls on. -/
theorem lower (scope : Scope) (less : e'.backlog scope < e.backlog scope) :
    Lower (e'.measure scope) (e.measure scope) :=
  lower_of_backlog (sum_congr rfl fun k _ => steady.alive k) (steady.grows.lack_le scope)
    (sum_congr rfl fun k _ => steady.workloadAt k) less

end Steady

end Exchange

end PartExchange
