import ValueMesh.Engine.Operation
import ValueMesh.Fleet
import ValueMesh.Guarded
import ValueMesh.Network
import ValueMesh.Node.Operation
import ValueMesh.Proofs.Codec
import ValueMesh.Proofs.Schedule
import ValueMesh.Proofs.SerialWindow
import ValueMesh.Proofs.Hearing
import ValueMesh.Proofs.Resolution
import ValueMesh.Proofs.Steps
import ValueMesh.Proofs.Reachable
import ValueMesh.Proofs.Planning
import ValueMesh.Proofs.Windows
import ValueMesh.Proofs.Telling
import ValueMesh.Proofs.Mirror
import ValueMesh.Proofs.Relaying
import ValueMesh.Proofs.NoRollback
import ValueMesh.Proofs.Rivals
import ValueMesh.Proofs.Isolation
import ValueMesh.Proofs.Air
import ValueMesh.Proofs.Gossip
import ValueMesh.Proofs.Exchange
import ValueMesh.Proofs.Pacing
import ValueMesh.Proofs.Divergence
import ValueMesh.Proofs.Provenance
import ValueMesh.Proofs.Versions
import ValueMesh.Proofs.Driving
import ValueMesh.Proofs.Ownership
import ValueMesh.Proofs.Collecting
import ValueMesh.Timetable.Operation
import ValueMesh.Proofs.Turns
import ValueMesh.Proofs.Asking
import ValueMesh.Proofs.Neighbours
import ValueMesh.Proofs.Backoff
import ValueMesh.Proofs.Spacing
import ValueMesh.Proofs.Polling
import ValueMesh.Session.Operation
import ValueMesh.Proofs.Lending
import ValueMesh.Machine.Engine
import ValueMesh.Machine.Node
import ValueMesh.Proofs.Room
import ValueMesh.Proofs.InPlace
import ValueMesh.Proofs.Running
import ValueMesh.Proofs.Refusals
import ValueMesh.Proofs.Counting
import ValueMesh.Proofs.Registration
import ValueMesh.Notice.Operation
import ValueMesh.Proofs.Fates
import ValueMesh.Proofs.Judging
import ValueMesh.Proofs.Repeats
import ValueMesh.Proofs.Rounds
import ValueMesh.Proofs.Waking
import ValueMesh.Machine.Attributes
import ValueMesh.Proofs.Placement
import ValueMesh.Machine.Numeral
import ValueMesh.Proofs.Spelling
import ValueMesh.Proofs.Batching
import ValueMesh.Proofs.Networks
import ValueMesh.Proofs.Fleets
import ValueMesh.Proofs.Digests
