import PartExchange.Bytes
import PartExchange.Hex
import PartExchange.PartSet
import PartExchange.GroupId
import PartExchange.Fragment
import PartExchange.Message
import PartExchange.Blake3
import PartExchange.Peer
import PartExchange.Rpc
import PartExchange.Store
import PartExchange.SyncError
import PartExchange.Queue
import PartExchange.Coordinator.Config
import PartExchange.Coordinator.Request
import PartExchange.Coordinator.Reaction
import PartExchange.Coordinator.Basic
import PartExchange.Network.Basic
import PartExchange.Network.Flight
import PartExchange.Exchange.Basic
import PartExchange.Exchange.Schedule
import PartExchange.Exchange.Interruption
import PartExchange.Decimal.Shortest
import PartExchange.Text.Shapeless
import PartExchange.Text.Quoted
import PartExchange.Json.Value
import PartExchange.Json.Fault
import PartExchange.Json.Reader
import PartExchange.Json.Record
import PartExchange.Settings
import PartExchange.Script.Instruction
import PartExchange.Script.Basic
import PartExchange.Script.Runner
import PartExchange.Experiment.Topology
import PartExchange.Experiment.Scatter
import PartExchange.Experiment.Vector
import PartExchange.Experiment.Node
import PartExchange.Proofs.PartSet
import PartExchange.Proofs.Fragment
import PartExchange.Proofs.Message
import PartExchange.Proofs.Rpc
import PartExchange.Proofs.Store
import PartExchange.Proofs.Reaction
import PartExchange.Proofs.Coordinator
import PartExchange.Proofs.Network
import PartExchange.Proofs.Steps
import PartExchange.Proofs.Run
import PartExchange.Proofs.Wiring
import PartExchange.Proofs.Effects
import PartExchange.Proofs.Handling
import PartExchange.Proofs.ViewSoundness
import PartExchange.Proofs.Convergence
import PartExchange.Proofs.Contents
import PartExchange.Proofs.Provenance
import PartExchange.Proofs.Measure
import PartExchange.Proofs.Termination
import PartExchange.Proofs.Grammar
import PartExchange.Proofs.RoundTrip
import PartExchange.Proofs.Merging
import PartExchange.Proofs.Payload
import PartExchange.Proofs.Reconciliation
import PartExchange.Proofs.Eviction
import PartExchange.Proofs.Answers
import PartExchange.Proofs.Knowledge
import PartExchange.Proofs.Recovery
import PartExchange.Proofs.BoundedFifo
import PartExchange.Proofs.IndexedStore
import PartExchange.Proofs.Events
import PartExchange.Proofs.Accounts
import PartExchange.Proofs.Flight
import PartExchange.Proofs.Interleaving
import PartExchange.Proofs.Interruption
import PartExchange.Proofs.Inflow
import PartExchange.Proofs.Pipeline
import PartExchange.Proofs.Turns
import PartExchange.Proofs.Outbound
import PartExchange.Proofs.Refusals
import PartExchange.Proofs.CallOrder
import PartExchange.Proofs.Changes
import PartExchange.Proofs.Precedence
import PartExchange.Proofs.Announcing
import PartExchange.Proofs.Replays
import PartExchange.Proofs.Publishing
import PartExchange.Proofs.Projection
import PartExchange.Proofs.Digits
import PartExchange.Proofs.Samples
import PartExchange.Proofs.Announcements
import PartExchange.Proofs.ReferenceVectors
import PartExchange.Proofs.Fields
import PartExchange.Proofs.MemberOrder
import PartExchange.Proofs.Spelling
import PartExchange.Proofs.Faults
import PartExchange.Proofs.Decoding
import PartExchange.Proofs.Waits
import PartExchange.Proofs.PeerOrder
import PartExchange.Proofs.Topologies
import PartExchange.Proofs.Dealing
import PartExchange.Proofs.Hexadecimal
import PartExchange.Proofs.NumberOrder
