/-
**The store of a participant.**

A store keeps messages by topic and group, in the order in which the groups first arrived.  With a
limit, a topic that outgrows it loses its oldest group; a limit of zero counts as one, so the group
that just arrived always survives.

Main definitions:

* `Store`: the limit and the messages, oldest first;
* `Store.get?`: the message of a group;
* `Store.put`: the store after a message, and the group it pushed out;
* `Store.insertIfAbsent`: the store after a message whose group may be held already.
-/

import PartExchange.Peer
import PartExchange.Message

set_option relaxedAutoImplicit false
set_option autoImplicit false

namespace PartExchange

/-- Messages by topic and group. -/
structure Store where
  /-- How many groups a topic may hold; without a limit, any number. -/
  limit : Option Nat
  /-- The messages with their topics, in the order in which their groups arrived. -/
  entries : List (Topic × Message)
  deriving DecidableEq

namespace Store

/-- An empty store.  A limit below one is raised to one. -/
def new (limit : Option Nat) : Store := ⟨limit.map (max 1), []⟩

/-- Whether an entry is the message of this group on this topic. -/
def holds (topic : Topic) (group : GroupId) (entry : Topic × Message) : Bool :=
  entry.1 = topic && entry.2.group = group

/-- The message of a group on a topic. -/
def get? (store : Store) (topic : Topic) (group : GroupId) : Option Message :=
  (store.entries.find? (holds topic group)).map Prod.snd

/-- Whether a group is held on a topic. -/
def contains (store : Store) (topic : Topic) (group : GroupId) : Bool :=
  (store.get? topic group).isSome

/-- The messages of one topic, oldest first. -/
def messages (store : Store) (topic : Topic) : List Message :=
  store.entries.filterMap fun entry => if entry.1 = topic then some entry.2 else none

/-- The number of groups held on a topic. -/
def groupCount (store : Store) (topic : Topic) : Nat := (store.messages topic).length

/-- The number of groups held on all topics. -/
def size (store : Store) : Nat := store.entries.length

/-- Whether nothing is held. -/
def isEmpty (store : Store) : Bool := store.entries.isEmpty

/-- Whether a topic holds more groups than the limit allows. -/
def overfull (store : Store) (topic : Topic) : Bool :=
  store.limit.any (· < store.groupCount topic)

/-- Gives up the oldest group of a topic. -/
def dropOldest (store : Store) (topic : Topic) : Store :=
  { store with entries := store.entries.eraseP (·.1 = topic) }

/-- Stores a message under a topic and names the group that had to leave.

A group that is held keeps its place and gets the new message.  A new group joins at the end, and
then the topic gives up its oldest group if it has become too large. -/
def put (store : Store) (topic : Topic) (m : Message) : Store × Option GroupId :=
  if store.contains topic m.group then
    ({ store with
        entries := store.entries.map fun entry =>
          if holds topic m.group entry then (topic, m) else entry }, none)
  else
    let grown := { store with entries := store.entries ++ [(topic, m)] }
    if grown.overfull topic then
      (grown.dropOldest topic, (grown.messages topic).head?.map Message.group)
    else (grown, none)

/-- Stores a message unless its group is held already, and says whether it did. -/
def insertIfAbsent (store : Store) (topic : Topic) (m : Message) : Store × Bool :=
  if store.contains topic m.group then (store, false) else ((store.put topic m).1, true)

@[simp] theorem get?_new (limit : Option Nat) (topic : Topic) (group : GroupId) :
    (new limit).get? topic group = none := rfl

end Store

end PartExchange
