/-!
# What goes wrong at a device

None of these reaches the application: the node counts the window as lost and goes on.
-/
namespace ValueMesh
namespace Device

inductive RadioFault
  /-- Outside a window. -/
  | notOwned
  | invalidChannel
  | frameTooLong
  deriving DecidableEq, Repr

inductive ArbiterFault
  | busy
  | invalidLength
  | notEnabled
  deriving DecidableEq, Repr

inductive HostFault
  | notEnabled
  /-- The attribute table is full. -/
  | noResources
  deriving DecidableEq, Repr

inductive Fault
  | radio (f : RadioFault)
  | arbiter (f : ArbiterFault)
  | host (f : HostFault)
  deriving DecidableEq, Repr

def Fault.message : Fault → String
  | radio .notOwned => "Radio error: NotOwned"
  | radio .invalidChannel => "Radio error: InvalidChannel"
  | radio .frameTooLong => "Radio error: FrameTooLong"
  | arbiter .busy => "Arbiter error: Busy"
  | arbiter .invalidLength => "Arbiter error: InvalidLength"
  | arbiter .notEnabled => "Arbiter error: NotEnabled"
  | host .notEnabled => "Host stack error: NotEnabled"
  | host .noResources => "Host stack error: NoResources"

end Device
end ValueMesh
