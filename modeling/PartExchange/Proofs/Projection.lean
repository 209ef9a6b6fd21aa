/-
**What a shared script comes to on one node.**

All nodes of an experiment run one script, and each passes over what is not for it: instructions
inside a restriction to another node, at any depth, and instructions for a router of full messages.
What is left can be written down beforehand.  A node that runs what is left does the same as one
that runs the whole script: it makes the same requests and links, waits in the same places, and
breaks off at the same one.

A run is a list of single requests, of which a list of nodes to link to makes several.  They are
made one after the other, and the first that fails is the last one.

Main definitions:

* `Instruction.project?`, `Script.project`: what is left of an instruction and of a script on a
  node;
* `Ask`, `Instruction.asks`: the single requests of a node, and those of an instruction;
* `Host.Follows`: requests that are made up to the first failure.

Main results:

* `Instruction.leaf?_eq`, `Instruction.execute_eq`: an instruction does what is left of it on a
  node;
* `Script.runList_project`: so does a list of instructions;
* `Script.follows_runList`: which requests a run makes;
* `Script.runs_as_projected`: the whole of it, with the publications that may fail.
-/

import PartExchange.Proofs.Turns
import PartExchange.Exchange.Basic
import PartExchange.Script.Runner

set_option relaxedAutoImplicit false
set_option autoImplicit false

namespace PartExchange

/-! ### What is left on one node -/

namespace Instruction

/-- The nodes that an instruction is restricted to, from the outermost restriction inwards. -/
def guards : Instruction → List UInt32
  | .onlyOn node body => node :: body.guards
  | _ => []

/-- What stands inside all restrictions. -/
def core : Instruction → Instruction
  | .onlyOn _ body => body.core
  | other => other

/-- Whether an instruction is for a router of full messages. -/
def isForRouter : Instruction → Bool
  | .initRouter _ | .subscribe _ _ | .publishFull _ _ _ | .delayValidation _ _ => true
  | _ => false

/-- What is left of an instruction on node `index`: what stands inside its restrictions, if all of
them are to this node, and it is not for a router. -/
def project? (index : UInt32) (instruction : Instruction) : Option Instruction :=
  if instruction.guards.all (· = index) && !instruction.core.isForRouter
  then some instruction.core else none

end Instruction

/-- What is left of a script on node `index`. -/
def Script.project (index : UInt32) (script : Script) : Script :=
  ⟨script.instructions.filterMap (Instruction.project? index)⟩

/-! ### Single requests -/

/-- What a node is asked for, one at a time. -/
inductive Ask where
  | add (topic : Topic) (group : GroupId) (parts : PartSet)
  | publish (topic : Topic) (group : GroupId) (peers : List PeerId)
  | connect (node : UInt32)
  | wait (seconds : UInt64)

/-- The requests of an instruction that is for this node, in order. -/
def Instruction.asks : Instruction → List Ask
  | .addParts parts topic group => [.add ⟨topic⟩ (.ofUInt64 group) ⟨parts⟩]
  | .publishParts topic group nodes =>
    [.publish ⟨topic⟩ (.ofUInt64 group) ((nodes.getD []).map .forNode)]
  | .connect nodes => nodes.map .connect
  | .waitUntil seconds => [.wait seconds]
  | _ => []

/-- What a failed publication means for a run: nothing, if the group is not held. -/
def RunError.ofPublication : SyncError → Option RunError
  | .unknownGroup _ _ => none
  | cause => some (.sync cause)

theorem RunError.ofPublication_eq_none_iff {cause : SyncError} :
    ofPublication cause = none ↔ ∃ topic group, cause = .unknownGroup topic group := by
  cases cause <;> simp [ofPublication]

theorem RunError.eq_of_ofPublication {cause : SyncError} {failure : RunError}
    (fails : ofPublication cause = some failure) : failure = .sync cause := by
  cases cause with
  | unknownGroup _ _ => cases fails
  | closed | transport _ | peerNotConnected _ | part _ => exact (Option.some.inj fails).symm

variable {σ : Type}

/-- Makes a request. -/
def Host.answer (host : Host σ) (start : Nat) (p : Progress σ) :
    Ask → Progress σ × Option RunError
  | .add topic group parts =>
    match host.add p.state topic group parts with
    | (s, .ok _) => ({ p with state := s }, none)
    | (s, .error cause) => ({ p with state := s }, some (.sync cause))
  | .publish topic group peers =>
    match host.publish p.state topic group peers with
    | (s, failure) => ({ p with state := s }, failure.bind RunError.ofPublication)
  | .connect node =>
    match host.connect p.state node with
    | (s, failure) => ({ p with state := s }, failure.map .sync)
  | .wait seconds =>
    match deadline? start seconds with
    | none => (p, some .clockRange)
    | some deadline =>
      if deadline ≤ p.now then (p, none)
      else ({ state := host.idle p.state, now := deadline }, none)

/-- A run in progress, and the same run after some requests: they are made one after the other, and
what comes behind the first that fails is not made any more. -/
inductive Host.Follows (host : Host σ) (start : Nat) :
    List Ask → Progress σ → Progress σ → Option RunError → Prop
  | done (p : Progress σ) : Follows host start [] p p none
  | next {ask : Ask} {rest : List Ask} {p q r : Progress σ} {result : Option RunError}
      (went : host.answer start p ask = (q, none)) (later : Follows host start rest q r result) :
      Follows host start (ask :: rest) p r result
  | broken {ask : Ask} {p q : Progress σ} {failure : RunError}
      (failed : host.answer start p ask = (q, some failure)) (rest : List Ask) :
      Follows host start (ask :: rest) p q (some failure)

section Follows

variable {host : Host σ} {start : Nat} {asks : List Ask} {p q : Progress σ}

/-- A single request. -/
theorem Host.Follows.single (host : Host σ) (start : Nat) (p : Progress σ) (ask : Ask) :
    host.Follows start [ask] p (host.answer start p ask).1 (host.answer start p ask).2 := by
  rcases outcome : host.answer start p ask with ⟨q, _ | failure⟩
  · exact .next outcome (.done q)
  · exact .broken outcome []

/-- Requests that succeed, and others behind them. -/
theorem Host.Follows.append {asks' : List Ask} {r : Progress σ} {result : Option RunError}
    (first : host.Follows start asks p q none) (later : host.Follows start asks' q r result) :
    host.Follows start (asks ++ asks') p r result := by
  -- The induction needs the result as a variable; it says that no request of the first ones fails.
  generalize none : (none : Option RunError) = ended at first
  induction first with
  | done p => exact later
  | next went _ ih => exact .next went (ih later none)
  | broken failed rest => cases none

/-- Requests of which one fails, whatever stands behind them. -/
theorem Host.Follows.append_of_failure {failure : RunError}
    (broken : host.Follows start asks p q (some failure)) (rest : List Ask) :
    host.Follows start (asks ++ rest) p q (some failure) := by
  generalize some : some failure = ended at broken ⊢
  induction broken with
  | done p => cases some
  | next went _ ih => exact .next went (ih some)
  | broken failed others => exact .broken failed (others ++ rest)

end Follows

/-! ### One instruction -/

namespace Instruction

theorem leaf?_eq (index : UInt32) (instruction : Instruction) : instruction.leaf? index =
    if instruction.guards.all (· = index) then some instruction.core else none := by
  induction instruction with
  | onlyOn node body ih =>
    rw [leaf?, ih]
    by_cases here : node = index
    · simp [guards, core, here]
    · simp [guards, here]
  | _ => simp [leaf?, guards, core]

/-- Nothing stands inside what stands inside all restrictions. -/
theorem leaf?_core (index : UInt32) (instruction : Instruction) :
    instruction.core.leaf? index = some instruction.core := by
  induction instruction with
  | onlyOn node body ih => exact ih
  | _ => rfl

section Execute

variable (host : Host σ) (index : UInt32) (start : Nat) (p : Progress σ)

/-- An instruction for a router is passed over. -/
theorem executeLeaf_of_isForRouter {instruction : Instruction}
    (router : instruction.isForRouter = true) :
    executeLeaf host start p instruction = (p, none) := by
  cases instruction with
  | initRouter _ | subscribe _ _ | publishFull _ _ _ | delayValidation _ _ => rfl
  | _ => cases router

/-- An instruction does what is left of it on the node. -/
theorem execute_eq (instruction : Instruction) : instruction.execute host index start p =
    match instruction.project? index with
    | none => (p, none)
    | some leaf => leaf.execute host index start p := by
  unfold execute project?
  rw [leaf?_eq]
  -- An instruction for a router is left out of the projection, but not by the restrictions: it is
  -- reached, and passed over.
  by_cases here : instruction.guards.all (· = index) = true
  · by_cases router : instruction.core.isForRouter = true
    · rw [if_pos here, here, router]
      exact executeLeaf_of_isForRouter host start p router
    · rw [if_pos here, here, Bool.eq_false_iff.2 router, Bool.not_false, Bool.and_self, if_pos rfl]
      dsimp only
      rw [leaf?_core]
  · rw [if_neg here, Bool.eq_false_iff.2 here]
    rfl

/-- The nodes to link to are linked to one after the other. -/
theorem follows_connectAll (nodes : List UInt32) :
    host.Follows start (nodes.map .connect) p { p with state := (connectAll host p.state nodes).1 }
      ((connectAll host p.state nodes).2.map .sync) := by
  induction nodes generalizing p with
  | nil => exact .done p
  | cons node rest ih =>
    rw [List.map_cons, connectAll]
    rcases linked : host.connect p.state node with ⟨s, _ | cause⟩
    · refine .next ?_ (ih { p with state := s })
      simp only [Host.answer, linked, Option.map_none]
    · refine .broken ?_ _
      simp only [Host.answer, linked, Option.map_some]

/-- An instruction to publish makes one request. -/
theorem executeLeaf_publishParts (topic : String) (group : UInt64) (nodes : Option (List UInt32)) :
    executeLeaf host start p (.publishParts topic group nodes) =
      host.answer start p
        (.publish ⟨topic⟩ (.ofUInt64 group) ((nodes.getD []).map .forNode)) := by
  rw [executeLeaf, Host.answer]
  rcases host.publish p.state ⟨topic⟩ (.ofUInt64 group) ((nodes.getD []).map .forNode) with
    ⟨s, _ | cause⟩
  · rfl
  · cases cause <;> rfl

/-- An instruction that is for this node makes its requests. -/
theorem follows_executeLeaf (instruction : Instruction) :
    host.Follows start instruction.asks p (executeLeaf host start p instruction).1
      (executeLeaf host start p instruction).2 := by
  cases instruction with
  | addParts parts topic group => exact .single host start p _
  | publishParts topic group nodes =>
    rw [executeLeaf_publishParts]
    exact .single host start p _
  | connect nodes => exact follows_connectAll host start p nodes
  | waitUntil seconds => exact .single host start p _
  | onlyOn _ _ | initRouter _ | subscribe _ _ | publishFull _ _ _ | delayValidation _ _ =>
    exact .done p

/-- An instruction makes the requests of what is left of it on the node. -/
theorem follows_execute (instruction : Instruction) :
    host.Follows start ((instruction.project? index).toList.flatMap asks) p
      (instruction.execute host index start p).1 (instruction.execute host index start p).2 := by
  rw [execute_eq]
  cases left : instruction.project? index with
  | none => exact .done p
  | some leaf =>
    obtain ⟨-, inside⟩ := Option.ite_none_right_eq_some.1 left
    obtain rfl := Option.some.inj inside
    have same : instruction.core.execute host index start p =
        executeLeaf host start p instruction.core := by
      rw [execute, leaf?_core]
    rw [Option.toList_some, List.flatMap_singleton]
    dsimp only
    rw [same]
    exact follows_executeLeaf host start p instruction.core

end Execute

end Instruction

namespace Script

/-! ### Many instructions -/

variable (host : Host σ) (index : UInt32) (start : Nat) (list : List Instruction) (p : Progress σ)

/-- A list of instructions does what is left of it on the node. -/
theorem runList_project : runList host index start (list.filterMap (Instruction.project? index)) p =
    runList host index start list p := by
  induction list generalizing p with
  | nil => rfl
  | cons instruction rest ih =>
    rw [runList, Instruction.execute_eq, List.filterMap_cons]
    cases instruction.project? index with
    | none => exact ih p
    | some leaf =>
      dsimp only
      rw [runList]
      rcases leaf.execute host index start p with ⟨q, _ | failure⟩
      · exact ih q
      · rfl

/-- A run makes the requests of what is left of the instructions, up to the first that fails. -/
theorem follows_runList : host.Follows start
    ((list.filterMap (Instruction.project? index)).flatMap Instruction.asks) p
      (runList host index start list p).1 (runList host index start list p).2 := by
  induction list generalizing p with
  | nil => exact .done p
  | cons instruction rest ih =>
    have split : ((instruction :: rest).filterMap (Instruction.project? index)).flatMap
          Instruction.asks =
        (instruction.project? index).toList.flatMap Instruction.asks ++
          (rest.filterMap (Instruction.project? index)).flatMap Instruction.asks := by
      rw [List.filterMap_cons]
      cases instruction.project? index with
      | none => rfl
      | some leaf => rw [List.flatMap_cons, Option.toList_some, List.flatMap_singleton]
    have first := Instruction.follows_execute host index start p instruction
    rw [split, runList]
    -- The rest starts from what the instruction leaves behind, unless that ends the run.
    rcases outcome : instruction.execute host index start p with ⟨q, _ | failure⟩
    · rw [outcome] at first
      exact first.append (ih q)
    · rw [outcome] at first
      exact first.append_of_failure _

/-- A run that breaks off does so at one instruction, and those behind it have no part in it. -/
theorem runList_stops {failure : RunError}
    (broken : (runList host index start list p).2 = some failure) :
    ∃ before last after, list = before ++ last :: after ∧
      (runList host index start before p).2 = none ∧
        ∀ others, runList host index start (before ++ last :: others) p =
          runList host index start list p := by
  induction list generalizing p with
  | nil => cases broken
  | cons instruction rest ih =>
    rw [runList] at broken
    rcases outcome : instruction.execute host index start p with ⟨q, _ | cause⟩
    · rw [outcome] at broken
      obtain ⟨before, last, after, rfl, went, same⟩ := ih q broken
      refine ⟨instruction :: before, last, after, rfl, ?_, fun others => ?_⟩
      · rw [runList, outcome]
        exact went
      · rw [List.cons_append, runList, outcome, runList, outcome]
        exact same others
    · refine ⟨[], instruction, rest, rfl, rfl, fun others => ?_⟩
      rw [List.nil_append, runList, outcome, runList, outcome]

end Script

/-! ### Publications that may fail -/

/-- No transport says that a group is not held. -/
theorem Carriers.publish_ne_unknownGroup (outlet : Outlet) (carriers : Carriers)
    (publication : Publication) (topic : Topic) (group : GroupId) :
    (Carriers.publish outlet carriers publication).2 ≠ some (.unknownGroup topic group) := by
  unfold Carriers.publish
  cases outlet with
  | endpoint k =>
    dsimp only
    rcases outcome : carriers.net.publish k publication.topic publication.message
      publication.peers with cause | net
    · cases present : carriers.net.endpoints[k]? with
      | none =>
        rw [Network.publish, present] at outcome
        cases outcome
      | some self =>
        obtain ⟨stranger, -, rfl⟩ := (Network.publish_eq_error_iff present).1 outcome
        rintro ⟨⟩
    · rintro ⟨⟩
  | recorder k =>
    dsimp only
    split
    · rintro ⟨⟩
    · split
      · rintro ⟨⟩
      · rintro ⟨⟩

/-- A request to publish is answered with the fault of an unknown group exactly if the group is not
held, whatever the transport is. -/
theorem Coordinator.publish_answer (c : Coordinator) (outlet : Outlet) (carriers : Carriers)
    (id : Nat) (topic : Topic) (group : GroupId) (peers : List PeerId) :
    ∃ failure, (c.perform (Carriers.publish outlet) carriers
        ⟨id, .publish topic group peers⟩).1.answers = (id, .published failure) :: c.answers ∧
      ((∃ t g, failure = some (.unknownGroup t g)) ↔ c.store.get? topic group = none) := by
  rw [perform_eq]
  cases held : c.store.get? topic group with
  | none =>
    refine ⟨some (.unknownGroup topic group), ?_, ?_⟩
    · simp only [Store.react, Store.reactPublish, held]
      rfl
    · exact iff_of_true ⟨topic, group, rfl⟩ rfl
  | some m =>
    refine ⟨(Carriers.publish outlet carriers ⟨topic, m, peers⟩).2, ?_, ?_⟩
    · simp only [Store.react, Store.reactPublish, held]
      rfl
    · refine iff_of_false ?_ (Option.some_ne_none m)
      rintro ⟨t, g, unknown⟩
      exact Carriers.publish_ne_unknownGroup outlet carriers _ t g unknown

/-- What a publication does to a run: a group that is not held is no failure, and every other cause
is one. -/
theorem Instruction.execute_publishParts (host : Host σ) (index : UInt32) (start : Nat)
    (p : Progress σ) (topic : String) (group : UInt64) (nodes : Option (List UInt32)) :
    let sent := host.publish p.state ⟨topic⟩ (.ofUInt64 group) ((nodes.getD []).map .forNode)
    let done := (Instruction.publishParts topic group nodes).execute host index start p
    done.1 = { p with state := sent.1 } ∧
      (done.2 = none ↔ sent.2 = none ∨ ∃ t g, sent.2 = some (.unknownGroup t g)) ∧
      ∀ failure, done.2 = some failure → ∃ cause, sent.2 = some cause ∧ failure = .sync cause := by
  intro sent done
  have ends : done = ({ p with state := sent.1 }, sent.2.bind RunError.ofPublication) :=
    executeLeaf_publishParts host start p topic group nodes
  rw [ends]
  refine ⟨rfl, ?_, ?_⟩
  · cases sent.2 with
    | none => simp
    | some cause => simp [RunError.ofPublication_eq_none_iff]
  · intro failure fails
    obtain ⟨cause, refused, fatal⟩ := Option.bind_eq_some_iff.1 fails
    exact ⟨cause, refused, RunError.eq_of_ofPublication fatal⟩

/-- **Running a shared script is running what is left of it on the node.**  The host may be
anything, so also one that writes down all that it is asked, and `start`, from which waits are counted,
may be any moment: one runner can follow several scripts.  On any node, the whole script and what is
left of it leave the same progress behind and end in the same way.  The run makes the requests of what
is left, links to each node of a list one by one, and breaks off with the first request that
fails; the instructions behind the one that has failed have no part in it.  A publication fails the
run unless the cause is a group that is not held; and a coordinator gives that cause exactly for a
group that it does not hold. -/
theorem Script.runs_as_projected (host : Host σ) (index : UInt32) (script : Script)
    (start : Nat) (p : Progress σ) :
    let mine := script.project index
    let outcome := runList host index start script.instructions p
    (script.run host index p = runList host index p.now script.instructions p ∧
        mine.run host index p = script.run host index p) ∧
      runList host index start mine.instructions p = outcome ∧
      host.Follows start (mine.instructions.flatMap Instruction.asks) p outcome.1 outcome.2 ∧
      (∀ failure, outcome.2 = some failure → ∃ before last after,
        script.instructions = before ++ last :: after ∧
          (runList host index start before p).2 = none ∧
          ∀ others, runList host index start (before ++ last :: others) p = outcome) ∧
      (∀ q topic group nodes,
        let sent := host.publish q.state ⟨topic⟩ (.ofUInt64 group) ((nodes.getD []).map .forNode)
        let done := (Instruction.publishParts topic group nodes).execute host index start q
        done.1 = { q with state := sent.1 } ∧
          (done.2 = none ↔ sent.2 = none ∨ ∃ t g, sent.2 = some (.unknownGroup t g)) ∧
          ∀ failure, done.2 = some failure →
            ∃ cause, sent.2 = some cause ∧ failure = .sync cause) ∧
      ∀ (c : Coordinator) (outlet : Outlet) (carriers : Carriers) (id : Nat) (topic : Topic)
        (group : GroupId) (peers : List PeerId), ∃ failure,
        (c.perform (Carriers.publish outlet) carriers
          ⟨id, .publish topic group peers⟩).1.answers = (id, .published failure) :: c.answers ∧
        ((∃ t g, failure = some (.unknownGroup t g)) ↔ c.store.get? topic group = none) := by
  intro mine outcome
  refine ⟨⟨rfl, ?_⟩, ?_, ?_, ?_, ?_, ?_⟩
  · exact runList_project host index p.now script.instructions p
  · exact runList_project host index start script.instructions p
  · exact follows_runList host index start script.instructions p
  · intro failure broken
    exact runList_stops host index start script.instructions p broken
  · intro q topic group nodes
    exact Instruction.execute_publishParts host index start q topic group nodes
  · exact Coordinator.publish_answer

/-- A script with a contradictory restriction, a double one, a subscription, and a list of three
nodes of which the second cannot be linked to.  On node 1 two instructions are left, and the run
breaks off in the middle of the first. -/
theorem Script.run_cut_short :
    let host : Host (List UInt32) :=
      { add := fun s _ _ _ => (s, .ok true)
        publish := fun s _ _ _ => (s, none)
        connect := fun s node =>
          (s ++ [node], if node = 9 then some (.peerNotConnected default) else none)
        idle := id }
    let script : Script :=
      ⟨[.onlyOn 1 (.onlyOn 2 (.connect [5])), .onlyOn 1 (.onlyOn 1 (.connect [3, 9, 4])),
        .subscribe "blocks" true, .connect [7]]⟩
    (script.project 1).instructions.flatMap Instruction.asks =
        [.connect 3, .connect 9, .connect 4, .connect 7] ∧
      (script.project 1).run host 1 ⟨[], 0⟩ = script.run host 1 ⟨[], 0⟩ ∧
      (script.run host 1 ⟨[], 0⟩).1.state = [3, 9] ∧
      (script.run host 1 ⟨[], 0⟩).2 = some (.sync (.peerNotConnected default)) := by
  intro host script
  obtain ⟨⟨-, same⟩, -⟩ := runs_as_projected host 1 script 0 ⟨[], 0⟩
  exact ⟨by rfl, same, by decide +kernel, by decide +kernel⟩

end PartExchange
