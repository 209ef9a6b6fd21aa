/-
**Running scripts.**

A runner follows a script on behalf of one numbered node.  What the node does is left to a host: the
runner only decides which requests are made and in which order.  Instructions for other nodes and
instructions for a router are passed over.

Time is counted in whole seconds.  Waiting is until a number of seconds after the start of the
run, so waits do not add up, and a moment that has passed is not waited for.  The clock has a last
second; a moment after it does not exist.

Main definitions:

* `Host`: what a node can do;
* `Instruction.leaf?`: what an instruction comes to on a node;
* `Instruction.execute`: follows one instruction;
* `Script.run`: follows instructions up to the first failure.
-/

import PartExchange.Script.Basic
import PartExchange.SyncError

set_option relaxedAutoImplicit false
set_option autoImplicit false

namespace PartExchange

/-- What a node can do, on a state of type `σ`. -/
structure Host (σ : Type) where
  /-- Holds parts of a group unless the group is held; says whether it was new. -/
  add : σ → Topic → GroupId → PartSet → σ × Except SyncError Bool
  /-- Sends a group to these peers, or to all if none is listed. -/
  publish : σ → Topic → GroupId → List PeerId → σ × Option SyncError
  /-- Links to a node. -/
  connect : σ → UInt32 → σ × Option SyncError
  /-- What goes on elsewhere while the node waits. -/
  idle : σ → σ

/-- Why a run broke off: a request was refused, or the clock does not reach as far as an instruction
wants to wait. -/
inductive RunError where
  | sync (cause : SyncError)
  | clockRange
  deriving DecidableEq

/-- The wording of a failure. -/
def RunError.message : RunError → String
  | .sync cause => "sync error: " ++ cause.message
  | .clockRange => "overflow when adding duration to instant"

/-- The last second of the clock. -/
def lastSecond : Nat := (1 <<< 63) - 1

/-- The moment `seconds` after `start`, if the clock reaches it. -/
def deadline? (start : Nat) (seconds : UInt64) : Option Nat :=
  if start + seconds.toNat ≤ lastSecond then some (start + seconds.toNat) else none

/-- A run in progress. -/
structure Progress (σ : Type) where
  /-- The state of the host. -/
  state : σ
  /-- The time. -/
  now : Nat

variable {σ : Type}

namespace Instruction

/-- What an instruction comes to on node `index`: itself, or what stands inside it for that node, or
nothing. -/
def leaf? (index : UInt32) : Instruction → Option Instruction
  | .onlyOn node body => if node = index then body.leaf? index else none
  | other => some other

/-- Links to the listed nodes up to the first failure. -/
def connectAll (host : Host σ) (s : σ) : List UInt32 → σ × Option SyncError
  | [] => (s, none)
  | node :: rest =>
    match host.connect s node with
    | (s, some cause) => (s, some cause)
    | (s, none) => connectAll host s rest

/-- Follows an instruction that is for this node.  A group that the node does not hold is not
published, and that is no failure. -/
def executeLeaf (host : Host σ) (start : Nat) (p : Progress σ) :
    Instruction → Progress σ × Option RunError
  | .addParts parts topic group =>
    match host.add p.state ⟨topic⟩ (.ofUInt64 group) ⟨parts⟩ with
    | (s, .ok _) => ({ p with state := s }, none)
    | (s, .error cause) => ({ p with state := s }, some (.sync cause))
  | .publishParts topic group nodes =>
    match host.publish p.state ⟨topic⟩ (.ofUInt64 group) ((nodes.getD []).map .forNode) with
    | (s, none) | (s, some (.unknownGroup _ _)) => ({ p with state := s }, none)
    | (s, some cause) => ({ p with state := s }, some (.sync cause))
  | .connect nodes =>
    match connectAll host p.state nodes with
    | (s, failure) => ({ p with state := s }, failure.map .sync)
  | .waitUntil seconds =>
    match deadline? start seconds with
    | none => (p, some .clockRange)
    | some deadline =>
      if deadline ≤ p.now then (p, none)
      else ({ state := host.idle p.state, now := deadline }, none)
  | .onlyOn _ _ | .initRouter _ | .subscribe _ _ | .publishFull _ _ _ | .delayValidation _ _ =>
    (p, none)

/-- Follows an instruction on node `index`. -/
def execute (host : Host σ) (index : UInt32) (start : Nat) (p : Progress σ)
    (instruction : Instruction) : Progress σ × Option RunError :=
  match instruction.leaf? index with
  | none => (p, none)
  | some leaf => executeLeaf host start p leaf

end Instruction

/-- Follows instructions on node `index` up to the first failure. -/
def Script.runList (host : Host σ) (index : UInt32) (start : Nat) :
    List Instruction → Progress σ → Progress σ × Option RunError
  | [], p => (p, none)
  | instruction :: rest, p =>
    match instruction.execute host index start p with
    | (p, some failure) => (p, some failure)
    | (p, none) => runList host index start rest p

/-- Follows a script on node `index`, from now on. -/
def Script.run (host : Host σ) (index : UInt32) (script : Script) (p : Progress σ) :
    Progress σ × Option RunError :=
  Script.runList host index p.now script.instructions p

end PartExchange
