/-
**Nothing is lost, doubled or reordered between an inbox and a coordinator.**

A call that has been queued waits in the inbox; then a pump takes it and makes it a job; the pump may
have to hold the job until there is a place in the coordinator's queue; and from the queue the
coordinator takes it and handles it.  The queue also takes calls that anybody with a handle hands over,
so the pump's calls stand between others there, and on the record of the coordinator as well.

The jobs that a pump has made are told apart from all others by their numbers.  Among what has been
handled and what waits in the queue they stand in the order in which they were made, and what the pump
holds comes last.  So the calls that have been handled, those in the queue, the one that the pump holds
and those in the inbox are, one after the other, the calls that have been queued.

Main definitions:

* `queuedTo`, `takenAt`: the calls that have been put into an inbox, and those that have left it;
* `Exchange.intake`: the calls that have entered a coordinator's queue, handled or not;
* `Exchange.Flow`: the numbers of jobs, and the order of the jobs of pumps.

Main results:

* `Exchange.Recorded.queued`: what has been queued has left the inbox or is in it;
* `Exchange.Flow.draw`, `Exchange.Flow.brings`: every action keeps the order;
* `Exchange.handled_in_order`: the whole way from the senders to the coordinator.
-/

import Mathlib.Data.List.Nodup
import PartExchange.Proofs.Plumbing

set_option relaxedAutoImplicit false
set_option autoImplicit false

namespace PartExchange

/-! ### Inboxes -/

/-- The calls of a log that have been put into the inbox of an endpoint, oldest first. -/
def queuedTo (k : Nat) (log : List Passage) : List Envelope :=
  (posted log).filterMap fun posting =>
    if posting.target = k then some posting.envelope else none

/-- The calls of a log that have been taken out of the inbox of an endpoint, oldest first. -/
def takenAt (k : Nat) (takings : List Taking) : List Taking := takings.filter (·.endpoint = k)

theorem queuedTo_append (k : Nat) (log later : List Passage) :
    queuedTo k (log ++ later) = queuedTo k log ++ queuedTo k later := by
  rw [queuedTo, posted_append, List.filterMap_append]
  rfl

theorem takenAt_append (k : Nat) (takings later : List Taking) :
    takenAt k (takings ++ later) = takenAt k takings ++ takenAt k later := List.filter_append ..

theorem mem_takenAt {k : Nat} {takings : List Taking} {t : Taking} :
    t ∈ takenAt k takings ↔ t ∈ takings ∧ t.endpoint = k := by
  simp [takenAt]

namespace Exchange

variable {e e' : Exchange} {action : Action} {allowed : Exchange → Action → Prop} {capacity : Nat}
  {log : List Passage}

/-- What an action puts into an inbox. -/
theorem queuedTo_passages (k : Nat) {source : Nat} (sends : e.source? action = some source) :
    queuedTo k (e.passages action e') = e.carriers.net.arrivals e'.carriers.net k := by
  rw [queuedTo, posted_passages, sends, Option.map_some, Option.getD_some,
    filterMap_postings e e' source k fun posting _ other => if_neg other]
  simp

/-- What has been queued has left the inbox or is in it, in this order, as long as the inbox is not
closed. -/
theorem Recorded.queued (run : Recorded allowed (.new capacity) log e) {k : Nat}
    (opened : e.carriers.net.readingAt? k ≠ some .closed) :
    queuedTo k log =
      (takenAt k (takings log)).map Taking.envelope ++ e.carriers.net.inbox k := by
  induction run with
  | start => rfl
  | @step log e e' action run _ acts ih =>
    have before := ih fun closed => opened (closed_act? acts closed)
    rw [queuedTo_append, takings_append, takings_passages, takenAt_append, List.map_append, before]
    cases traffic_act? acts with
    | publishes source nothing sends =>
      rw [queuedTo_passages k source, nothing, sends,
        (Network.spreads_foldl _ (List.Subset.refl _)).inbox k]
      simp [takenAt]
    | @takes taking net silent taken received rests =>
      have none : queuedTo k (e.passages action e') = [] := by
        rw [queuedTo, posted_passages, silent]
        rfl
      have same : e'.carriers.net.inbox k = net.inbox k :=
        (rests.inbox k).resolve_right fun closed => opened closed.1
      have received := Network.received received
      rw [none, List.append_nil, taken, same]
      by_cases own : taking.endpoint = k
      · subst own
        rw [received.head]
        simp [takenAt]
      · rw [received.others k (Ne.symm own)]
        simp [takenAt, own]
    | rests silent nothing rests =>
      have none : queuedTo k (e.passages action e') = [] := by
        rw [queuedTo, posted_passages, silent]
        rfl
      have same : e'.carriers.net.inbox k = e.carriers.net.inbox k :=
        (rests.inbox k).resolve_right fun closed => opened closed.1
      rw [none, nothing, same]
      simp [takenAt]

/-- Every call that has been queued carries the peer of the endpoint that has sent it. -/
theorem Recorded.signed (run : Recorded allowed (.new capacity) log e) :
    ∀ posting ∈ posted log,
      e.carriers.net.peerAt? posting.source = some posting.envelope.sender := by
  induction run with
  | start =>
    intro posting member
    cases member
  | @step log e e' action run _ acts ih =>
    intro posting member
    rw [posted_append, posted_passages, List.mem_append] at member
    rcases member with old | new
    · exact peerAt?_act? acts (ih posting old)
    · cases source : e.source? action with
      | none =>
        rw [source] at new
        cases new
      | some k =>
        rw [source] at new
        obtain ⟨own, arrived⟩ := mem_postings.1 new
        obtain ⟨topic, m, targets, spreads⟩ := spreads_act? acts source
        obtain ⟨sender, target, known, here, -, -, form, -⟩ := spreads.arrival _ _ arrived
        rw [own, spreads.peerAt?, here, form]

/-! ### The order of the jobs of pumps -/

/-- The calls that have entered a coordinator's queue, handled or not, oldest first. -/
def intake (i : Nat) (served : List (Nat × Job)) (e : Exchange) : List Job :=
  callsFor i served ++ e.incomingAt i

/-- A request to a coordinator has a number that no pump has used. -/
def Clear (takings : List Taking) (e : Exchange) (i : Nat) (job : Job) : Prop :=
  job.id < e.nextNumber i ∧ ∀ t ∈ takings, t.station = i → t.number ≠ job.id

/-- What is picked out of a queue, with what is held back behind it, after something has been taken
and something has entered the queue. -/
theorem order_of_hands {α : Type} [DecidableEq α] {mine taken queue entered held held' : List α}
    (order : mine = queue.filter (· ∈ mine) ++ held) (new : ∀ x ∈ taken, x ∉ queue)
    (hands : held ++ taken = entered ++ held') :
    mine ++ taken = (queue ++ entered).filter (· ∈ mine ++ taken) ++ held' := by
  have old : queue.filter (· ∈ mine ++ taken) = queue.filter (· ∈ mine) := by
    apply List.filter_congr
    intro x member
    have other : x ∉ taken := fun takes => new x takes member
    simp [other]
  have whole : entered.filter (· ∈ mine ++ taken) = entered := by
    rw [List.filter_eq_self]
    intro x enters
    have member : x ∈ held ++ taken := hands ▸ List.mem_append_left _ enters
    rw [decide_eq_true_iff, List.mem_append]
    refine (List.mem_append.1 member).imp_left fun holds => ?_
    rw [order]
    exact List.mem_append_right _ holds
  calc mine ++ taken
      = queue.filter (· ∈ mine) ++ (held ++ taken) := by
        rw [← List.append_assoc, ← order]
    _ = (queue ++ entered).filter (· ∈ mine ++ taken) ++ held' := by
        rw [hands, List.filter_append, old, whole, List.append_assoc]

/-- The numbers of jobs, and the order of the jobs of pumps. -/
structure Flow (takings : List Taking) (served : List (Nat × Job)) (e : Exchange) : Prop where
  /-- Calls are taken out of inboxes that somebody has begun to read. -/
  begun : ∀ t ∈ takings, e.carriers.net.Begun t.endpoint
  /-- The numbers of the jobs of pumps have been given out. -/
  numbered : ∀ t ∈ takings, t.number < e.nextNumber t.station
  /-- No two jobs of pumps for a coordinator have the same number. -/
  distinct : (takings.map fun t => (t.station, t.number)).Nodup
  /-- Whoever else waits for a place has a number of its own. -/
  waiting : ∀ c ∈ e.calls, c.stage = .waiting → Clear takings e c.station c.job
  /-- The numbers of the calls that have entered a queue have been given out. -/
  admitted : ∀ i, ¬ e.Halted i → ∀ job ∈ intake i served e, job.id < e.nextNumber i
  /-- The calls that have been taken out of the inbox of a pump are for the pump's coordinator. -/
  own : ∀ {p : Nat} {a : Pump}, e.pumps[p]? = some a → a.finished = false →
    ∀ t ∈ takenAt a.endpoint takings, t.station = a.station
  /-- The jobs of a pump have entered the queue in their order, and what it holds comes last. -/
  order : ∀ {p : Nat} {a : Pump}, e.pumps[p]? = some a → a.finished = false →
    ¬ e.Halted a.station →
      (takenAt a.endpoint takings).map Taking.job =
        (intake a.station served e).filter
          (· ∈ (takenAt a.endpoint takings).map Taking.job) ++ a.held.toList

theorem flow_new (capacity : Nat) : Flow [] [] (.new capacity) where
  begun t member := by cases member
  numbered t member := by cases member
  distinct := List.nodup_nil
  waiting c member := by cases member
  admitted i _ job member := by cases member
  own h := by cases h
  order h := by cases h

/-- What has entered a queue by the end of a change. -/
theorem Conserves.intake {handled entered : List (Nat × Job)}
    (conserves : Conserves handled entered e e') {i : Nat} (running : ¬ e'.Halted i)
    (served : List (Nat × Job)) :
    intake i (served ++ handled) e' = intake i served e ++ callsFor i entered := by
  rw [Exchange.intake, callsFor_append, List.append_assoc,
    (conserves.calls i).resolve_left running, ← List.append_assoc]
  rfl

/-- What has entered a queue by the end of a change in which nothing is handled. -/
theorem Conserves.intake_nil {entered : List (Nat × Job)} (conserves : Conserves [] entered e e')
    {i : Nat} (running : ¬ e'.Halted i) (served : List (Nat × Job)) :
    Exchange.intake i served e' = Exchange.intake i served e ++ callsFor i entered := by
  have whole := conserves.intake running served
  rwa [List.append_nil] at whole

namespace Flow

variable {T : List Taking} {H : List (Nat × Job)} (flow : Flow T H e)

include flow

/-- Whatever is issued has a number that no pump has used. -/
theorem clear_of_issued {handled entered : List (Nat × Job)}
    (conserves : Conserves handled entered e e') {i : Nat} {job : Job} (issued : Issued e e' i job) :
    Clear T e' i job := by
  rcases issued with ⟨c, member, waits, rfl, rfl⟩ | ⟨next, below⟩
  · obtain ⟨below, others⟩ := flow.waiting c member waits
    exact ⟨Nat.lt_of_lt_of_le below (conserves.nextNumber _), others⟩
  · refine ⟨below, ?_⟩
    rintro t taken rfl
    rw [next]
    exact Nat.ne_of_lt (flow.numbered t taken)

/-- A request with a number that no pump has used is not a job of a pump. -/
theorem not_mem_of_clear {p : Nat} {a : Pump} (here : e.pumps[p]? = some a)
    (works : a.finished = false) {job : Job} (clear : Clear T e' a.station job) :
    job ∉ (takenAt a.endpoint T).map Taking.job := by
  intro member
  obtain ⟨t, taken, rfl⟩ := List.mem_map.1 member
  exact clear.2 t (mem_takenAt.1 taken).1 (flow.own here works t taken) rfl

/-- Where pumps rest, their jobs stay in order. -/
theorem brings {handled entered : List (Nat × Job)} (brings : Brings handled entered e e')
    (begun : ∀ {k}, e.carriers.net.Begun k → e'.carriers.net.Begun k) :
    Flow T (H ++ handled) e' where
  begun t taken := begun (flow.begun t taken)
  numbered t taken := Nat.lt_of_lt_of_le (flow.numbered t taken) (brings.nextNumber _)
  distinct := flow.distinct
  waiting c member waits := flow.clear_of_issued brings.toConserves (brings.waiting c member waits)
  admitted i running job member := by
    rw [brings.toConserves.intake running, List.mem_append] at member
    rcases member with old | new
    · exact Nat.lt_of_lt_of_le (flow.admitted i (running ∘ brings.halted) job old)
        (brings.nextNumber i)
    · exact (flow.clear_of_issued brings.toConserves (brings.enters _ (mem_callsFor.1 new).1)).1
  own {p a} there works := flow.own (brings.working there works) works
  order {p a} there works running := by
    have here := brings.working there works
    have none : (callsFor a.station entered).filter
        (· ∈ (takenAt a.endpoint T).map Taking.job) = [] := by
      rw [List.filter_eq_nil_iff]
      intro job member
      have issued := brings.enters _ (mem_callsFor.1 member).1
      simpa using flow.not_mem_of_clear here works (flow.clear_of_issued brings.toConserves issued)
    rw [brings.toConserves.intake running, List.filter_append, none, List.append_nil]
    exact flow.order here works (running ∘ brings.halted)

/-- What a pump holds is a job of the pump. -/
theorem mem_of_held {p : Nat} {a : Pump} (here : e.pumps[p]? = some a) (works : a.finished = false)
    (running : ¬ e.Halted a.station) {job : Job} (holds : job ∈ a.held.toList) :
    ∃ t ∈ T, t.endpoint = a.endpoint ∧ t.station = a.station ∧ t.job = job := by
  have member : job ∈ (takenAt a.endpoint T).map Taking.job := by
    rw [flow.order here works running]
    exact List.mem_append_right _ holds
  obtain ⟨t, taken, rfl⟩ := List.mem_map.1 member
  obtain ⟨old, endpoint⟩ := mem_takenAt.1 taken
  exact ⟨t, old, endpoint, flow.own here works t taken, rfl⟩

section Pump

variable {p : Nat} {pump : Pump} (here : e.pumps[p]? = some pump) (working : pump.finished = false)
  {taken : Option Taking} {entered : Option Job} (hands : Hands e p pump taken entered e')
  (draws : ∀ t ∈ taken, Draws e pump t e')

include draws

/-- The call that a pump takes has a new number. -/
theorem nodup_draws : ((T ++ taken.toList).map fun t => (t.station, t.number)).Nodup := by
  rw [List.map_append]
  refine List.Nodup.append flow.distinct ?_ ?_
  · cases taken with
    | none => exact List.nodup_nil
    | some t => exact List.nodup_singleton _
  · intro x old last
    obtain ⟨u, member, rfl⟩ := List.mem_map.1 old
    obtain ⟨t, takes, same⟩ := List.mem_map.1 last
    obtain ⟨station, number⟩ := Prod.mk.injEq .. ▸ same
    have draw := draws t (Option.mem_toList.1 takes)
    have below := flow.numbered u member
    rw [← station, ← number, draw.number, draw.station] at below
    exact Nat.lt_irrefl _ below

include hands

/-- All numbers of jobs of pumps have been given out when a pump has taken a call. -/
theorem numbered_draws {t : Taking} (member : t ∈ T ++ taken.toList) :
    t.number < e'.nextNumber t.station := by
  rcases List.mem_append.1 member with old | takes
  · exact Nat.lt_of_lt_of_le (flow.numbered t old) (hands.conserves.nextNumber _)
  · have draw := draws t (Option.mem_toList.1 takes)
    exact draw.station ▸ draw.below

/-- Whoever waits for a place still has a number of its own when a pump has taken a call. -/
theorem clear_draws {c : Call} (member : c ∈ e'.calls) (waits : c.stage = .waiting) :
    Clear (T ++ taken.toList) e' c.station c.job := by
  rw [hands.calls] at member
  obtain ⟨below, others⟩ := flow.waiting c member waits
  refine ⟨Nat.lt_of_lt_of_le below (hands.conserves.nextNumber _), ?_⟩
  intro t member station
  rcases List.mem_append.1 member with old | takes
  · exact others t old station
  · have draw := draws t (Option.mem_toList.1 takes)
    rw [draw.number, ← draw.station, station]
    exact Nat.ne_of_gt below

include here working

/-- What a pump hands over is a job of the pump. -/
theorem mem_of_enters (running : ¬ e'.Halted pump.station) {job : Job} (enters : job ∈ entered) :
    ∃ t ∈ T ++ taken.toList, t.endpoint = pump.endpoint ∧ t.station = pump.station ∧
      t.job = job := by
  rcases List.mem_append.1 (hands.enters job enters) with holds | takes
  · obtain ⟨t, old, rest⟩ :=
      flow.mem_of_held here working (running ∘ hands.conserves.halted) holds
    exact ⟨t, List.mem_append_left _ old, rest⟩
  · obtain ⟨t, new, rfl⟩ := List.mem_map.1 takes
    have draw := draws t (Option.mem_toList.1 new)
    exact ⟨t, List.mem_append_right _ new, draw.endpoint, draw.station, rfl⟩

/-- What enters a queue when a pump hands something over has a number that has been given out. -/
theorem admitted_draws {i : Nat} (running : ¬ e'.Halted i) {job : Job}
    (member : job ∈ intake i H e') : job.id < e'.nextNumber i := by
  rw [hands.conserves.intake_nil running, List.mem_append] at member
  rcases member with old | new
  · exact Nat.lt_of_lt_of_le (flow.admitted i (running ∘ hands.conserves.halted) job old)
      (hands.conserves.nextNumber i)
  · obtain ⟨rfl, enters⟩ := mem_callsFor_of_mem_map new
    obtain ⟨t, member, -, station, rfl⟩ :=
      flow.mem_of_enters here working hands draws running enters
    exact station ▸ flow.numbered_draws hands draws member

/-- The jobs of a pump that moves stay in order. -/
theorem order_self {a : Pump} (there : e'.pumps[p]? = some a) (works : a.finished = false)
    (running : ¬ e'.Halted a.station) :
    (takenAt a.endpoint (T ++ taken.toList)).map Taking.job =
      (intake a.station H e').filter
        (· ∈ (takenAt a.endpoint (T ++ taken.toList)).map Taking.job) ++ a.held.toList := by
  obtain ⟨endpoint, station, hands'⟩ := hands.goes there works
  rw [station] at running
  have running' := running ∘ hands.conserves.halted
  have takes : takenAt pump.endpoint taken.toList = taken.toList := by
    rw [takenAt, List.filter_eq_self]
    intro t takes
    exact decide_eq_true (draws t (Option.mem_toList.1 takes)).endpoint
  have calls : callsFor pump.station (entered.toList.map (pump.station, ·)) = entered.toList := by
    cases entered with
    | none => rfl
    | some job =>
      obtain ⟨t, -, -, -, rfl⟩ := flow.mem_of_enters here working hands draws running rfl
      simp [callsFor, Taking.job, Request.lane]
  rw [endpoint, station, takenAt_append, takes, hands.conserves.intake_nil running, calls,
    List.map_append]
  refine order_of_hands (flow.order here working running') ?_ hands'
  rintro job takes admitted
  obtain ⟨t, new, rfl⟩ := List.mem_map.1 takes
  have below := flow.admitted _ running' _ admitted
  exact Nat.ne_of_lt below (draws t (Option.mem_toList.1 new)).number

variable (plumbed : e.Plumbed)

include plumbed

omit flow hands in
/-- What a pump takes is not taken from the inbox of another pump. -/
theorem takenAt_other {q : Nat} {a : Pump} (before : e.pumps[q]? = some a)
    (works : a.finished = false) (other : q ≠ p) :
    takenAt a.endpoint (T ++ taken.toList) = takenAt a.endpoint T := by
  rw [takenAt_append, List.append_right_eq_self, List.eq_nil_iff_forall_not_mem]
  intro t member
  obtain ⟨takes, endpoint⟩ := mem_takenAt.1 member
  have draw := draws t (Option.mem_toList.1 takes)
  exact other (plumbed.alone before works here working (endpoint.symm.trans draw.endpoint))

/-- The jobs of other pumps stay in order, since what enters is not among them. -/
theorem order_other {q : Nat} {a : Pump} (before : e.pumps[q]? = some a) (works : a.finished = false)
    (other : q ≠ p) (running : ¬ e'.Halted a.station) :
    (takenAt a.endpoint (T ++ taken.toList)).map Taking.job =
      (intake a.station H e').filter
        (· ∈ (takenAt a.endpoint (T ++ taken.toList)).map Taking.job) ++ a.held.toList := by
  have none : (callsFor a.station (entered.toList.map (pump.station, ·))).filter
      (· ∈ (takenAt a.endpoint T).map Taking.job) = [] := by
    rw [List.filter_eq_nil_iff]
    intro job entering
    obtain ⟨station, enters⟩ := mem_callsFor_of_mem_map entering
    obtain ⟨t, member, endpoint, station', rfl⟩ :=
      flow.mem_of_enters here working hands draws (station ▸ running) enters
    rw [decide_eq_true_iff, List.mem_map]
    rintro ⟨u, taken', number⟩
    obtain ⟨old, endpoint'⟩ := mem_takenAt.1 taken'
    obtain rfl : u = t := List.inj_on_of_nodup_map (flow.nodup_draws draws)
      (List.mem_append_left _ old) member
      (Prod.ext (((flow.own before works u taken').trans station).trans station'.symm)
        (congrArg Job.id number))
    exact other (plumbed.alone before works here working (endpoint'.symm.trans endpoint))
  rw [takenAt_other here working draws plumbed before works other,
    hands.conserves.intake_nil running, List.filter_append, none, List.append_nil]
  exact flow.order before works (running ∘ hands.conserves.halted)

/-- A pump takes a call, which gets the next number of the coordinator, or a call that it holds. -/
theorem draw (begun : ∀ {k}, e.carriers.net.Begun k → e'.carriers.net.Begun k) :
    Flow (T ++ taken.toList) H e' where
  begun t member := by
    rcases List.mem_append.1 member with old | takes
    · exact begun (flow.begun t old)
    · rw [(draws t (Option.mem_toList.1 takes)).endpoint]
      exact begun (plumbed.reads here working)
  numbered t member := flow.numbered_draws hands draws member
  distinct := flow.nodup_draws draws
  waiting c member waits := flow.clear_draws hands draws member waits
  admitted i running job member := flow.admitted_draws here working hands draws running member
  own {q a} there works t member := by
    by_cases same : q = p
    · subst same
      obtain ⟨endpoint, station, -⟩ := hands.goes there works
      rw [endpoint, takenAt_append, List.mem_append] at member
      rw [station]
      rcases member with old | takes
      · exact flow.own here working t old
      · exact (draws t (Option.mem_toList.1 (mem_takenAt.1 takes).1)).station
    · have before := hands.others there works same
      rw [takenAt_other here working draws plumbed before works same] at member
      exact flow.own before works t member
  order {q a} there works running := by
    by_cases same : q = p
    · subst same
      exact flow.order_self here working hands draws there works running
    · exact flow.order_other here working hands draws plumbed (hands.others there works same) works
        same running

end Pump

/-- A new pump has made no jobs, since nobody has read the inbox before. -/
theorem openPump {m : Nat} {s : Site} {new : Pump} (opened : Opened e m s new e')
    (begun : ∀ {k}, e.carriers.net.Begun k → e'.carriers.net.Begun k) : Flow T H e' := by
  have conserves := Conserves.of_stations opened.stations
  have nothing : new.finished = false → takenAt new.endpoint T = [] := by
    intro works
    rw [List.eq_nil_iff_forall_not_mem]
    intro t member
    obtain ⟨taken, endpoint⟩ := mem_takenAt.1 member
    exact (opened.unread works).1 (endpoint ▸ flow.begun t taken)
  have queue : ∀ {i : Nat}, ¬ e'.Halted i → intake i H e' = intake i H e := by
    intro i running
    rw [conserves.intake_nil running]
    exact List.append_nil _
  refine
    { begun := fun t taken => begun (flow.begun t taken)
      numbered := fun t taken => Nat.lt_of_lt_of_le (flow.numbered t taken) (conserves.nextNumber _)
      distinct := flow.distinct
      waiting := fun c member waits => ?waiting
      admitted := fun i running job member => ?admitted
      own := fun {p a} there works t member => ?own
      order := fun {p a} there works running => ?order }
  case waiting =>
    obtain ⟨below, others⟩ := flow.waiting c (opened.calls ▸ member) waits
    exact ⟨Nat.lt_of_lt_of_le below (conserves.nextNumber _), others⟩
  case admitted =>
    rw [queue running] at member
    exact Nat.lt_of_lt_of_le (flow.admitted i (running ∘ conserves.halted) job member)
      (conserves.nextNumber i)
  case own =>
    rcases opened.pump_cases there with ⟨-, rfl⟩ | here
    · rw [nothing works] at member
      cases member
    · exact flow.own here works t member
  case order =>
    rw [queue running]
    rcases opened.pump_cases there with ⟨-, rfl⟩ | here
    · rw [nothing works, opened.held]
      simp
    · exact flow.order here works (running ∘ conserves.halted)

end Flow

/-- Every action keeps the jobs of pumps in order. -/
theorem Flow.step (flow : Flow (takings log) (handlings log) e) (plumbed : e.Plumbed)
    (acts : e.act? action = some e') :
    Flow (takings (log ++ e.passages action e')) (handlings (log ++ e.passages action e')) e' := by
  rw [takings_append, takings_passages, handlings_append, handlings_passages]
  have rests (nothing : e.taking? action = none) (still : RestsPumps action) :
      Flow (takings log ++ (e.taking? action).toList) (handlings log ++ (e.handled? action).toList)
        e' := by
    obtain ⟨entered, brings⟩ := brings_act? plumbed.tidied acts still
    rw [nothing, Option.toList_none, List.append_nil]
    exact flow.brings brings (begun_act? acts)
  cases action with
  | pump p =>
    obtain ⟨pump, here, working, -⟩ := pumpStep_of_pumpStep? acts
    have stationed := plumbed.stationed here working
    have moves := pumpMoves_pumpStep? here stationed plumbed.tidied acts
    obtain ⟨entered, hands⟩ := moves.hands here (calls_pumpStep? acts)
    have draws : ∀ t ∈ e.taking? (.pump p), Draws e pump t e' := fun t takes =>
      draws_of_taking? here stationed acts takes
    have silent : e.handled? (.pump p) = none := rfl
    rw [silent, Option.toList_none, List.append_nil]
    exact flow.draw here working hands draws plumbed (begun_act? acts)
  | openPump m =>
    obtain ⟨s, i, number, at_m, -, opened⟩ := openPump_of_act? acts
    obtain ⟨new, opened⟩ := opened_of_opens (opens_openPump at_m opened)
    have idle : e.taking? (.openPump m) = none := rfl
    have silent : e.handled? (.openPump m) = none := rfl
    rw [idle, silent, Option.toList_none, List.append_nil, Option.toList_none, List.append_nil]
    exact flow.openPump opened (begun_act? acts)
  | _ => exact rests rfl trivial

/-- Along every run, inboxes have one reader at most. -/
theorem Recorded.plumbed (run : Recorded allowed (.new capacity) log e) : e.Plumbed := by
  induction run with
  | start => exact plumbed_new capacity
  | step _ _ acts ih => exact plumbed_act? ih acts

/-- Along every run, the jobs of pumps stay in order. -/
theorem Recorded.flow (run : Recorded allowed (.new capacity) log e) :
    Flow (takings log) (handlings log) e := by
  induction run with
  | start => exact flow_new capacity
  | step run _ acts ih => exact ih.step run.plumbed acts

/-- **Calls reach the coordinator in the order in which they have been queued.**

Let an endpoint be the only one of its peer.  As long as nobody reads its inbox, everything that has been
queued is there.  And if a participant has a pump for it whose coordinator has not ended, then the calls
that the coordinator has handled from the pump, those from the pump in its queue, the one that the pump
holds and those in the inbox are, one after the other, what has been queued, each with the peer that has
sent it. -/
theorem handled_in_order (run : Recorded allowed (.new capacity) log e) {k : Nat} {peer : PeerId}
    (here : e.carriers.net.peerAt? k = some peer)
    (once : ∀ j, e.carriers.net.peerAt? j = some peer → j = k) :
    (e.carriers.net.readingAt? k = some .unread →
      queuedTo k log = e.carriers.net.inbox k ∧ takenAt k (takings log) = []) ∧
    (∀ (n p : Nat) (s : Site) (a : Pump) (station : Station), e.sites[n]? = some s →
      s.outlet = .endpoint k → s.pump = some p → e.pumps[p]? = some a →
      e.stations[a.station]? = some station → station.coordinator.ended = false →
        let jobs := (takenAt k (takings log)).map Taking.job
        let own := fun job => job ∈ jobs
        (queuedTo k log).map (fun envelope => Request.rpc envelope.delivery) =
          ((callsFor a.station (handlings log)).filter own ++
            station.coordinator.incoming.items.filter own ++ a.held.toList).map Job.request ++
          (e.carriers.net.inbox k).map (fun envelope => Request.rpc envelope.delivery)) ∧
    (∀ posting ∈ posted log,
      e.carriers.net.peerAt? posting.source = some posting.envelope.sender) := by
  have flow := run.flow
  have plumbed := run.plumbed
  refine ⟨?_, ?_, run.signed⟩
  · intro unread
    have none : takenAt k (takings log) = [] := by
      rw [List.eq_nil_iff_forall_not_mem]
      intro t member
      obtain ⟨taken, rfl⟩ := mem_takenAt.1 member
      have begun := flow.begun t taken
      rw [Network.Begun, unread] at begun
      exact absurd begun (by decide)
    have queued := run.queued (k := k) (by rw [unread]; decide)
    rw [none] at queued
    exact ⟨queued, none⟩
  · intro n p s a station at_n outlet reader at_p works running jobs own
    obtain ⟨b, at_p', fits⟩ := plumbed.fits at_n outlet reader
    obtain rfl := Option.some.inj (at_p.symm.trans at_p')
    -- Nothing can get lost, so the pump is at work and the inbox is not closed.
    have goes : ¬ e.Halted a.station := by
      rw [halted_iff works, running]
      exact Bool.false_ne_true
    have safe : ¬ e.Lost k a.station := by
      rintro (⟨j, other, differ, there, same⟩ | halted)
      · rw [here] at same
        obtain rfl := Option.some.inj same
        exact differ (once j there)
      · exact goes halted
    have working : a.finished = false := by
      rw [← Bool.not_eq_true]
      exact fun ended => safe (fits.finished ended)
    have queued := run.queued fun closed => safe (fits.closed closed)
    have order := flow.order at_p working goes
    rw [fits.endpoint, intake, incomingAt_of_station works, List.filter_append] at order
    rw [queued, List.map_append, ← order, List.map_map, List.map_map]
    rfl

/-- The first peer sends four calls to the second, whose coordinator has two places for calls.  It
handles the first call; then somebody else hands a call over, and the pump takes two more. -/
def crowdedQueue : List Action :=
  [.join (uniformPeer 1), .join (uniformPeer 2), .attach 1 { incomingCapacity := 2 }, .openPump 1,
    .connect (uniformPeer 1) (uniformPeer 2)] ++
  [1, 2, 3, 4].map (fun index => .transmit 0 ⟨default, uniformMessage default index 5, []⟩) ++
  [.pump 0, .serve 0,
    .request 0 (.rpc { sender := uniformPeer 1, rpc := .announce default default .empty }),
    .pump 0, .pump 0]

/-- One of the four calls has been handled, one waits behind the call of somebody else, the pump holds
one, and one is in the inbox. -/
theorem one_call_in_each_place :
    ∃ log e a station, Recorded (fun _ _ => True) (.new 4) log e ∧ e.pumps[0]? = some a ∧
      e.stations[0]? = some station ∧
      let jobs := (takenAt 1 (takings log)).map Taking.job
      let own := fun job => job ∈ jobs
      let handled := (callsFor 0 (handlings log)).filter own
      let waiting := station.coordinator.incoming.items.filter own
      station.coordinator.incoming.items.length = 2 ∧
        [handled.length, waiting.length, a.held.toList.length, (e.carriers.net.inbox 1).length] =
          [1, 1, 1, 1] ∧
        (queuedTo 1 log).map (fun envelope => Request.rpc envelope.delivery) =
          (handled ++ waiting ++ a.held.toList).map Job.request ++
          (e.carriers.net.inbox 1).map (fun envelope => Request.rpc envelope.delivery) := by
  have check : ((record? [] (.new 4) crowdedQueue).any fun r =>
      r.2.sites[1]?.any fun s => r.2.pumps[0]?.any fun a => r.2.stations[0]?.any fun station =>
        let own := fun job => job ∈ (takenAt 1 (takings r.1)).map Taking.job
        r.2.carriers.net.endpoints.map Endpoint.peer = [uniformPeer 1, uniformPeer 2] ∧
        s.outlet = .endpoint 1 ∧ s.pump = some 0 ∧ a.station = 0 ∧
        station.coordinator.ended = false ∧ station.coordinator.incoming.items.length = 2 ∧
        [((callsFor 0 (handlings r.1)).filter own).length,
          (station.coordinator.incoming.items.filter own).length, a.held.toList.length,
          (r.2.carriers.net.inbox 1).length] = [1, 1, 1, 1]) = true := by
    decide +kernel
  obtain ⟨⟨log, e⟩, played, check⟩ := (Option.any_eq_true _ _).1 check
  obtain ⟨s, at_n, check⟩ := (Option.any_eq_true _ _).1 check
  obtain ⟨a, at_p, check⟩ := (Option.any_eq_true _ _).1 check
  obtain ⟨station, works, check⟩ := (Option.any_eq_true _ _).1 check
  obtain ⟨peers, outlet, reader, same, running, two, places⟩ := of_decide_eq_true check
  have peer : ∀ j, e.carriers.net.peerAt? j = [uniformPeer 1, uniformPeer 2][j]? := by
    intro j
    rw [← peers, List.getElem?_map]
    rfl
  have here : e.carriers.net.peerAt? 1 = some (uniformPeer 2) := peer 1
  have once : ∀ j, e.carriers.net.peerAt? j = some (uniformPeer 2) → j = 1 := by
    intro j there
    rw [peer] at there
    match j with
    | 0 => exact absurd there (by decide)
    | 1 => rfl
    | j + 2 => cases there
  have run := Recorded.start.record played
  obtain ⟨-, order, -⟩ := handled_in_order run here once
  have calls := order 1 0 s a station at_n outlet reader at_p (same ▸ works) running
  rw [same] at calls
  exact ⟨log, e, a, station, run, at_p, works, two, places, calls⟩

end Exchange

end PartExchange
