import Archflow.Json.Model
import Archflow.Json.Reader
import Archflow.Json.Report
import Archflow.Model.Declaration
import Archflow.Proofs.Atomicity
import Archflow.Proofs.Cascade
import Archflow.Proofs.Delivery
import Archflow.Proofs.Typing
import Archflow.Protocol.PortTable
import Archflow.Session
import Archflow.Proofs.Standstill
import Archflow.Proofs.Freeze
import Archflow.Proofs.Idle
import Archflow.Proofs.Response
import Archflow.Proofs.Cutoff
import Archflow.Proofs.Episode
import Archflow.Proofs.Contract
import Archflow.Proofs.Ports
import Archflow.Proofs.Replay
import Archflow.Proofs.Propagation
import Archflow.Proofs.Standalone
import Archflow.Proofs.Frame
import Archflow.Proofs.Delegation
import Archflow.Proofs.Rejection
import Archflow.Proofs.Construction
import Archflow.Proofs.Initial
import Archflow.Proofs.Mirror
import Archflow.Proofs.RoundTrip
import Archflow.Proofs.Scoping
import Archflow.Proofs.EmptyScope
import Archflow.Proofs.Acyclic
import Archflow.Proofs.Preorder
import Archflow.Proofs.ShortCircuit
import Archflow.Proofs.Parentheses
import Archflow.Proofs.Comparison
import Archflow.Proofs.Spelling
import Archflow.Proofs.Grounding
import Archflow.Proofs.Unrolling
import Archflow.Proofs.Allocation
import Archflow.Proofs.Arithmetic
import Archflow.Proofs.Transparency
import Archflow.Proofs.LooseEquality
import Archflow.Proofs.Payload
import Archflow.Proofs.Wiring
import Archflow.Proofs.QualifiedName
