/-
**What can go wrong between participants.**

Every request to a coordinator and every publication ends in an answer or in one of these causes.
The wording is kept in one place, apart from the causes.

Main definitions:

* `TransportFault`: the refusals of a transport;
* `SyncError`: the refusals of a coordinator or a transport;
* `SyncError.message`: their wording.
-/

import PartExchange.Peer
import PartExchange.Fragment

set_option relaxedAutoImplicit false
set_option autoImplicit false

namespace PartExchange

/-- The refusals of a transport that concern no particular peer. -/
inductive TransportFault where
  | rejected
  | inboundTaken
  deriving DecidableEq, Repr

/-- The wording of a transport's refusal. -/
def TransportFault.message : TransportFault → String
  | .rejected => "publish rejected"
  | .inboundTaken => "inbound already attached"

/-- The refusals of a coordinator or a transport. -/
inductive SyncError where
  | closed
  | unknownGroup (topic : Topic) (group : GroupId)
  | transport (fault : TransportFault)
  | peerNotConnected (peer : PeerId)
  | part (refusal : PartError)
  deriving DecidableEq

/-- The wording of a refusal. -/
def SyncError.message : SyncError → String
  | .closed => "coordinator closed"
  | .unknownGroup topic group => "unknown group " ++ group.display ++ " on topic " ++ topic.name
  | .transport fault => "transport error: " ++ fault.message
  | .peerNotConnected peer => "peer not connected: " ++ peer.display
  | .part refusal => "partial message error: " ++ refusal.message

end PartExchange
