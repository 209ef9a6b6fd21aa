/-
**Reference vectors.**

A reference vector pins down the fragment that a holder of some parts sends to a holder of others:
which parts it carries, how long it is, and how it begins and ends.  Whoever implements the format
must arrive at the same bytes.

Main definitions:

* `ReferenceVector`: a vector;
* `ReferenceVector.payload`: what is sent;
* `ReferenceVector.verify`: compares the two, with `ReferenceVector.Mismatch` for the first
  difference;
* `referenceVectors`: the vectors that come with the format.
-/

import PartExchange.Message

set_option relaxedAutoImplicit false
set_option autoImplicit false

namespace PartExchange

/-- What is known of a fragment. -/
structure ReferenceVector where
  /-- What it shows. -/
  name : String
  /-- The group. -/
  group : UInt64
  /-- The parts that the sender holds. -/
  held : PartSet
  /-- The parts that the receiver holds. -/
  peer : PartSet
  /-- The parts that are sent. -/
  included : PartSet
  /-- The size of the fragment in bytes; zero if nothing is sent. -/
  wireLength : Nat
  /-- Its first nine bytes in hexadecimal. -/
  head : String
  /-- Its last sixteen bytes in hexadecimal. -/
  tail : String
  deriving DecidableEq

namespace ReferenceVector

/-- How a fragment can differ from a vector. -/
inductive Mismatch where
  | included (found expected : PartSet)
  | length (found expected : Nat)
  | head (found expected : String)
  | tail (found expected : String)
  deriving DecidableEq

/-- The wording of a difference, after the name of the vector. -/
def Mismatch.message (name : String) : Mismatch → String
  | .included found expected =>
    name ++ ": included " ++ found.display ++ " != " ++ expected.display
  | .length found expected => name ++ ": length " ++ toString found ++ " != " ++ toString expected
  | .head found expected => name ++ ": head " ++ found ++ " != " ++ expected
  | .tail found expected => name ++ ": tail " ++ found ++ " != " ++ expected

/-- What the sender sends to the receiver. -/
def payload (v : ReferenceVector) : Payload :=
  (Message.filled (.ofUInt64 v.group) v.held).payloadFor v.peer

/-- Compares what is sent with the vector.  The first difference is reported: in the parts, the
size, the beginning, the end. -/
def verify (v : ReferenceVector) : Except Mismatch Payload :=
  let payload := v.payload
  let wire := payload.wire.getD []
  let head := Hex.encode (wire.take 9)
  let tail := Hex.encode (wire.drop (wire.length - 16))
  if payload.included ≠ v.included then .error (.included payload.included v.included)
  else if wire.length ≠ v.wireLength then .error (.length wire.length v.wireLength)
  else if wire.isEmpty then .ok payload
  else if head ≠ v.head then .error (.head head v.head)
  else if tail ≠ v.tail then .error (.tail tail v.tail)
  else .ok payload

end ReferenceVector

/-- The vectors that come with the format. -/
def referenceVectors : List ReferenceVector := [
  { name := "group 42, parts 0 and 1, empty peer"
    group := 42, held := ⟨0x03⟩, peer := ⟨0x00⟩, included := ⟨0x03⟩, wireLength := 2057
    head := "03000000000000002a", tail := "0000000000000129000000000000002a" },
  { name := "group 42, full message, peer holds low half"
    group := 42, held := ⟨0xff⟩, peer := ⟨0x0f⟩, included := ⟨0xf0⟩, wireLength := 4105
    head := "f0000000000000022a", tail := "0000000000000429000000000000002a" },
  { name := "max group id wraps the counter"
    group := 0xffffffffffffffff, held := ⟨0x01⟩, peer := ⟨0x00⟩, included := ⟨0x01⟩
    wireLength := 1033
    head := "01ffffffffffffffff", tail := "000000000000007effffffffffffffff" },
  { name := "peer already holds everything"
    group := 42, held := ⟨0x0f⟩, peer := ⟨0xff⟩, included := ⟨0x00⟩, wireLength := 0
    head := "", tail := "" }]

end PartExchange
