/-
**What peers tell each other.**

One remote call concerns one group of one topic.  It announces what its sender holds, carries some
of the parts, or both.  The announcement is normally one byte; anything else is kept as received and
announces nothing.

Main definitions:
* `Rpc`: a call as it travels;
* `Delivery`: a call as it is handed to the receiver, with its sender and where to answer;
* `Rpc.announced?`: the set of parts that a call announces.

Main results:
* `Rpc.announced?_announce`: an announcement announces the set it was made from.
-/

import PartExchange.Message
import PartExchange.Peer

set_option relaxedAutoImplicit false
set_option autoImplicit false

namespace PartExchange

/-- A call from one peer to another about one group. -/
structure Rpc where
  /-- The topic the group belongs to. -/
  topic : Topic
  /-- The group. -/
  group : GroupId
  /-- What the sender holds, normally one byte. -/
  metadata : Option Bytes
  /-- A buffer with some of the parts. -/
  fragment : Option Bytes
  deriving DecidableEq

/-- A call as it is handed to the receiver. -/
structure Delivery where
  /-- Who sent it. -/
  sender : PeerId
  /-- The call. -/
  rpc : Rpc
  /-- Where to send an announcement in answer; everywhere on the topic if empty. -/
  replyTo : List PeerId := []
  deriving DecidableEq

namespace Rpc

/-- The call that announces a set and carries nothing. -/
def announce (topic : Topic) (group : GroupId) (held : PartSet) : Rpc :=
  { topic, group, metadata := some held.metadata, fragment := none }

/-- The set that a call announces, if it announces one. -/
def announced? (rpc : Rpc) : Option PartSet := rpc.metadata.bind PartSet.ofMetadata?

@[simp] theorem announced?_announce (topic : Topic) (group : GroupId) (held : PartSet) :
    (announce topic group held).announced? = some held := rfl

/-- The buffer of a call, unless it is absent or has no bytes at all. -/
def payload? (rpc : Rpc) : Option Bytes := rpc.fragment.filter (!·.isEmpty)

end Rpc

/-! ### Reproducible calls -/

/-- The buffer that carries the parts `held` of a group, with reproducible content. -/
def sampleFragment (group : GroupId) (held : PartSet) : Option Bytes :=
  ((Message.filled group held).payloadFor .empty).wire

/-- The call of node `sender` that announces the parts `held` and carries them. -/
def sampleDelivery (sender : UInt32) (topic : Topic) (group : GroupId) (held : PartSet) :
    Delivery :=
  { sender := .forNode sender
    rpc := { Rpc.announce topic group held with fragment := sampleFragment group held } }

end PartExchange
