import ValueMesh.Clock
import ValueMesh.Engine
import ValueMesh.Links
/-!
# Engines on one air

All engines read one clock.  In a round every engine opens a window and sends what is due, then every frame reaches
all engines that hear its sender, then all windows close.
-/
namespace ValueMesh

structure Network [Jitter] where
  engines : List Engine
  links : Links
  clock : Clock
  deriving DecidableEq, Repr

namespace Network

variable [Jitter]

/-- An engine asks for a window and is granted it at once; the result is the frame it sends in it. -/
def openWindow (now : Nat) (e : Engine) : Option (List UInt8) × Engine :=
  match (e.signal .tick now).2.signal .started now with
  | (.openWindow _ _ frame, e') => (frame, e')
  | (_, e') => (none, e')

/-- A frame of `sender` reaches everyone who hears it. -/
def broadcast (links : Links) (now : Nat) (engines : List Engine) (sent : Nat × List UInt8) : List Engine :=
  engines.mapIdx fun i e => if links.carry sent.1 i then (e.receive sent.2 now).2 else e

/-- One round: the frames that were sent, with their senders, and the network after `step` microseconds. -/
def round (net : Network) (step : Nat) : List (Nat × List UInt8) × Network :=
  let opened := net.engines.map (openWindow net.clock.now)
  let frames := opened.zipIdx.filterMap fun (p, i) => p.1.map (i, ·)
  let heard := frames.foldl (broadcast net.links net.clock.now) (opened.map (·.2))
  (frames, { net with
    engines := heard.map fun e => (e.signal .ended (net.clock.now + step / 2)).2
    clock := net.clock.advance step })

/-- So many rounds, with the frames of each. -/
def rounds (step : Nat) : Nat → Network → List (List (Nat × List UInt8)) × Network
  | 0, net => ([], net)
  | n + 1, net =>
    let (frames, net') := net.round step
    let (later, net'') := rounds step n net'
    (frames :: later, net'')

end Network
end ValueMesh
