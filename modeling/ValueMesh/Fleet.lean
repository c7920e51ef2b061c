import ValueMesh.Links
import ValueMesh.Node.Interrupt
/-!
# Nodes on one air

Each node has a clock of its own.  In a window every node opens its radio, then what the radios sent reaches all nodes
that hear the sender, then every node takes in what it received and closes.
-/
namespace ValueMesh

structure Fleet [Jitter] where
  nodes : List Node
  links : Links
  deriving DecidableEq, Repr

namespace Fleet

variable [Jitter]

def openWindow (n : Node) : Node := ((n.raise .tick).raise .started).interrupt

def closeWindow (step : Nat) (n : Node) : Node :=
  let closed := ((n.raise .radio).raise .ended).interrupt
  { closed with clock := closed.clock.advance step }

/-- A frame of `sender` arrives at everyone who hears it. -/
def broadcast (links : Links) (nodes : List Node) (sent : Nat × List UInt8) : List Node :=
  nodes.mapIdx fun i n => if links.carry sent.1 i then { n with radio := n.radio.inject sent.2 } else n

/-- One window: the frames that were sent, with their senders, and the nodes after it. -/
def window (f : Fleet) (step : Nat) : List (Nat × List UInt8) × Fleet :=
  let opened := f.nodes.map openWindow
  let frames := opened.zipIdx.flatMap fun (n, i) => n.radio.sent.map (i, ·)
  let aired := frames.foldl (broadcast f.links) (opened.map fun n => { n with radio := n.radio.clearSent })
  (frames, { f with nodes := aired.map (closeWindow step) })

/-- So many windows, with the frames of each. -/
def windows (step : Nat) : Nat → Fleet → List (List (Nat × List UInt8)) × Fleet
  | 0, f => ([], f)
  | k + 1, f =>
    let (frames, f') := f.window step
    let (later, f'') := windows step k f'
    (frames :: later, f'')

end Fleet
end ValueMesh
