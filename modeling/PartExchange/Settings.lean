/-
**Settings and identifiers in JSON.**

Settings of coordinators and nodes are records all of whose fields may be absent; an absent field
has its default.  A set of parts is written as its byte, an identifier as the array of its bytes,
and a topic as its name.

Main definitions:

* `NodeConfig`: the settings of a node;
* `CoordinatorConfig.ofText`, `NodeConfig.ofText`: settings read from a text;
* `PartSet.ofText`, `GroupId.ofText`, `PeerId.ofText`, `Topic.ofText`: the other values;
* `CoordinatorConfig.toJson`, `NodeConfig.toJson`: settings as values.
-/

import PartExchange.Coordinator.Config
import PartExchange.Json.Record
import PartExchange.Peer
import PartExchange.PartSet
import PartExchange.GroupId

set_option relaxedAutoImplicit false
set_option autoImplicit false

namespace PartExchange

open Json (Fault Field Record Reader)

/-- The settings of a node. -/
structure NodeConfig where
  /-- The number of the node in its experiment. -/
  index : UInt32 := 0
  /-- The settings of its coordinator. -/
  coordinator : CoordinatorConfig := {}
  deriving DecidableEq, Inhabited

/-! ### Reading settings -/

/-- A size that may be written as `null`, for none. -/
def readOptionalSize : Reader (Option Nat) :=
  Json.readSimple fun
    | .null => .ok none
    | found => (Json.size found).map some

/-- The fields of a coordinator's settings. -/
def CoordinatorConfig.record : Record CoordinatorConfig where
  expected := "struct CoordinatorConfig"
  fields := [
    .simple "incoming_capacity" Json.size fun c n => { c with incomingCapacity := n },
    .simple "add_capacity" Json.size fun c n => { c with addCapacity := n },
    .simple "publish_capacity" Json.size fun c n => { c with publishCapacity := n },
    .simple "query_capacity" Json.size fun c n => { c with queryCapacity := n },
    .simple "event_capacity" Json.size fun c n => { c with eventCapacity := n },
    { name := "max_groups_per_topic"
      assign := fun _ c input =>
        (readOptionalSize input).map fun (n, rest) => ({ c with maxGroupsPerTopic := n }, rest) }]

/-- The fields of a node's settings. -/
def NodeConfig.record : Record NodeConfig where
  expected := "struct NodeConfig"
  fields := [
    .simple "index" Json.word32 fun c n => { c with index := n },
    { name := "coordinator"
      assign := fun levels c input =>
        (CoordinatorConfig.record.readLenient {} levels input).map fun (coordinator, rest) =>
          ({ c with coordinator }, rest) }]

/-- Reads a coordinator's settings. -/
def CoordinatorConfig.ofText (text : String) : Except Fault CoordinatorConfig :=
  Json.readWhole (CoordinatorConfig.record.readLenient {}) text

/-- Reads a node's settings. -/
def NodeConfig.ofText (text : String) : Except Fault NodeConfig :=
  Json.readWhole (NodeConfig.record.readLenient {}) text

/-! ### Reading other values -/

/-- Reads a set of parts from its byte. -/
def PartSet.ofText (text : String) : Except Fault PartSet :=
  (Json.readWhole (fun _ => Json.readSimple Json.byte) text).map PartSet.mk

/-- Reads a group from the array of its bytes. -/
def GroupId.ofText (text : String) : Except Fault GroupId := do
  let bytes ←
    Json.readWhole (fun _ => Json.readTuple (Json.readSimple Json.byte) groupIdLength) text
  .ok ((GroupId.ofBytes? bytes).getD default)

/-- Reads a peer from the array of its bytes. -/
def PeerId.ofText (text : String) : Except Fault PeerId := do
  let bytes ← Json.readWhole (fun _ => Json.readTuple (Json.readSimple Json.byte) peerIdLength) text
  .ok ((PeerId.ofBytes? bytes).getD default)

/-- Reads a topic from its name. -/
def Topic.ofText (text : String) : Except Fault Topic :=
  (Json.readWhole (fun _ => Json.readSimple Json.string) text).map Topic.mk

/-! ### Writing -/

/-- A byte string as the array of its bytes. -/
def Bytes.toJson (bytes : Bytes) : Json :=
  .array (bytes.map fun (byte : UInt8) => .ofNat byte.toNat)

/-- A coordinator's settings as a value. -/
def CoordinatorConfig.toJson (config : CoordinatorConfig) : Json :=
  .object [
    ("incoming_capacity", .ofNat config.incomingCapacity),
    ("add_capacity", .ofNat config.addCapacity),
    ("publish_capacity", .ofNat config.publishCapacity),
    ("query_capacity", .ofNat config.queryCapacity),
    ("event_capacity", .ofNat config.eventCapacity),
    ("max_groups_per_topic", (config.maxGroupsPerTopic.map Json.ofNat).getD .null)]

/-- A node's settings as a value. -/
def NodeConfig.toJson (config : NodeConfig) : Json :=
  .object [
    ("index", .ofNat config.index.toNat),
    ("coordinator", config.coordinator.toJson)]

end PartExchange
