/-
**Peers and topics.**

A peer is known by 32 bytes.  In an experiment the peers are numbered, and every participant derives
the same 32 bytes from the same number, so a script can name its destinations by number.

Main definitions:
* `PeerId`: the 32 bytes of a peer;
* `PeerId.forNode`: the peer of a numbered node;
* `PeerId.compare`, `PeerId.sort`: the dictionary order of the bytes;
* `Topic`: the name of a topic.

Main results:
* `PeerId.ofBytes?_bytes`: the bytes of a peer give that peer back.
-/

import PartExchange.Blake3
import PartExchange.Hex

set_option relaxedAutoImplicit false
set_option autoImplicit false

namespace PartExchange

/-- The size of a peer's name in bytes. -/
def peerIdLength : Nat := 32

/-- The identity of a peer. -/
@[ext]
structure PeerId where
  /-- The 32 bytes. -/
  bytes : Bytes
  /-- An identity is never shorter or longer. -/
  length_bytes : bytes.length = peerIdLength
  deriving DecidableEq

namespace PeerId

/-- The ASCII text that is hashed before the number of a node: `partial-gossip-peer:`. -/
def nodeLabel : Bytes :=
  [0x70, 0x61, 0x72, 0x74, 0x69, 0x61, 0x6c, 0x2d, 0x67, 0x6f, 0x73, 0x73, 0x69, 0x70, 0x2d,
    0x70, 0x65, 0x65, 0x72, 0x3a]

/-- The peer of node `index`: the hash of the label and the index, four bytes of it. -/
def forNode (index : UInt32) : PeerId where
  bytes := Blake3.hashBlock (nodeLabel ++ Bytes.ofUInt32 index) (by simp [nodeLabel])
  length_bytes := Blake3.length_hashBlock _ _

instance : Inhabited PeerId := ⟨⟨List.replicate peerIdLength 0, by simp⟩⟩

/-- The peer with these bytes, if there are 32 of them. -/
def ofBytes? (bytes : Bytes) : Option PeerId :=
  if h : bytes.length = peerIdLength then some ⟨bytes, h⟩ else none

@[simp] theorem ofBytes?_bytes (peer : PeerId) : ofBytes? peer.bytes = some peer := by
  simp [ofBytes?, peer.length_bytes]

/-- The dictionary order of the bytes. -/
def compare (p q : PeerId) : Ordering := Bytes.compare p.bytes q.bytes

/-- The listed peers in ascending order. -/
def sort (peers : List PeerId) : List PeerId :=
  peers.mergeSort fun p q => (compare p q).isLE

/-- The 64 hexadecimal digits. -/
def toHex (peer : PeerId) : String := Hex.encode peer.bytes

/-- The first sixteen hexadecimal digits. -/
def display (peer : PeerId) : String := Hex.encode (peer.bytes.take 8)

/-- The first sixteen hexadecimal digits with the type's name around them. -/
def debug (peer : PeerId) : String := "PeerId(" ++ peer.display ++ ")"

end PeerId

/-- The name of a topic. -/
@[ext]
structure Topic where
  /-- Any text. -/
  name : String
  deriving DecidableEq, Repr, Inhabited

end PartExchange
