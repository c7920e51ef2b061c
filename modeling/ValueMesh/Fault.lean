/-!
# What a caller of the mesh may be told

Every refused call has one of five causes.  Only these reach the application; what goes wrong at the devices below
stays there (`Device.Fault`).
-/
namespace ValueMesh

inductive Fault
  /-- Settings outside their ranges. -/
  | invalidParam
  /-- Before the node is up, or bringing it up twice. -/
  | invalidState
  /-- A handle the node does not have. -/
  | invalidAddr
  /-- More bytes than a value may hold. -/
  | invalidLength
  /-- The host stack is not ready to carry the mesh. -/
  | dependencyNotReady
  deriving DecidableEq, Repr

def Fault.message : Fault → String
  | invalidParam => "invalid mesh parameter"
  | invalidState => "mesh in invalid state for operation"
  | invalidAddr => "value handle out of range"
  | invalidLength => "value length exceeds maximum"
  | dependencyNotReady => "host wireless stack not enabled"

end ValueMesh
