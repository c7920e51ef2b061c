import ValueMesh.Machine.Engine
import ValueMesh.Node
/-!
# Bringing up a node on the machine

The host stack registers the attributes of the mesh before the engine is started.  Nothing takes the registration back:
were the engine to refuse then, it would stay.
-/
namespace ValueMesh
namespace Machine

open Call (state change check ask refuse)

variable [Jitter]

section Parts

variable {α : Type} {n : Node} {r : Except Fault α}

def onEngine (x : Call Engine α) : Call Node α := x.on (·.engine) fun n engine => { n with engine }

def onHost (x : Call Device.Host α) : Call Node α := x.on (·.host) fun n host => { n with host }

theorem onEngine_eq {x : Call Engine α} {engine : Engine} (h : x n.engine = .ok (r, engine)) :
    onEngine x n = .ok (r, { n with engine }) := Call.on_eq h _

theorem onHost_eq {x : Call Device.Host α} {host : Device.Host} (h : x n.host = .ok (r, host)) :
    onHost x n = .ok (r, { n with host }) := Call.on_eq h _

end Parts

/-- Registers the attributes of a mesh; whatever the host stack says against it, the caller is told the same. -/
def register (handleCount : UInt16) : Call Device.Host Attributes := do
  let host ← state
  if host.enabled then
    if host.capacity < handleCount then refuse .dependencyNotReady
    else
      let registrations ← check (add 4 host.registrations 1)
      change fun host => { host with registrations }
      return ⟨Device.Host.firstAttribute, Device.Host.stride, handleCount⟩
  else refuse .dependencyNotReady

def bringUp (cfg : Settings) : Call Node Unit := do
  let n ← state
  if n.engine.isUp then refuse .invalidState
  else
    ask cfg.check
    if n.host.enabled then
      let attributes ← onHost (register cfg.handleCount)
      onEngine (start cfg n.host.address true)
      change fun n => { n with attributes := some attributes }
    else refuse .dependencyNotReady

end Machine
end ValueMesh
