/-
**Settings of a coordinator.**

Main definitions:

* `CoordinatorConfig`: the sizes of the queues, of the event buffer and of the store;
* `CoordinatorConfig.eventBuffer`: how many events a slow reader can be behind.
-/

set_option relaxedAutoImplicit false
set_option autoImplicit false

namespace PartExchange

/-- The settings of a coordinator. -/
structure CoordinatorConfig where
  /-- Places for calls from peers. -/
  incomingCapacity : Nat := 64
  /-- Places for requests to add a message. -/
  addCapacity : Nat := 1
  /-- Places for requests to publish a group. -/
  publishCapacity : Nat := 1
  /-- Places for requests to look a group up. -/
  queryCapacity : Nat := 16
  /-- Events kept for readers that are behind. -/
  eventCapacity : Nat := 256
  /-- How many groups a topic may hold; without a limit, any number. -/
  maxGroupsPerTopic : Option Nat := none
  deriving DecidableEq, Repr, Inhabited

/-- The number of events kept: a power of two, at least one and not below the setting. -/
def CoordinatorConfig.eventBuffer (config : CoordinatorConfig) : Nat :=
  (max config.eventCapacity 1).nextPowerOfTwo

end PartExchange
