import ValueMesh.Device.Fault
import ValueMesh.Frame
/-!
# A radio in memory

The radio keeps what was sent through it and what arrived for it, in order.  It sends and listens only while it is
tuned.
-/
namespace ValueMesh
namespace Device

/-- What has happened since the flags were last taken. -/
structure RadioFlags where
  txDone : Bool
  rxReady : Bool
  crcError : Bool
  deriving DecidableEq, Repr

namespace RadioFlags

def quiet : RadioFlags := ⟨false, false, false⟩

def bits (s : RadioFlags) : Nat := s.txDone.toNat + 2 * s.rxReady.toNat + 4 * s.crcError.toNat

end RadioFlags

structure Tuning where
  mesh : UInt32
  channel : UInt8
  deriving DecidableEq, Repr

structure Radio where
  tuning : Option Tuning
  listening : Bool
  /-- The frames sent, oldest first. -/
  sent : List (List UInt8)
  /-- The frames received and not read yet, oldest first. -/
  received : List (List UInt8)
  flags : RadioFlags
  deriving DecidableEq, Repr

namespace Radio

def idle : Radio := ⟨none, false, [], [], RadioFlags.quiet⟩

def tune (r : Radio) (t : Tuning) : Except RadioFault Radio :=
  if 39 < t.channel then .error .invalidChannel else .ok { r with tuning := some t }

def transmit (r : Radio) (frame : List UInt8) : Except RadioFault Radio :=
  if r.tuning.isNone then .error .notOwned
  else if maxFrameBytes < frame.length then .error .frameTooLong
  else .ok { r with sent := r.sent ++ [frame], flags := { r.flags with txDone := true } }

def listen (r : Radio) : Except RadioFault Radio :=
  if r.tuning.isNone then .error .notOwned else .ok { r with listening := true }

def disable (r : Radio) : Radio := { r with tuning := none, listening := false }

/-- Takes the oldest frame received, as far as `size` bytes hold it. -/
def nextFrame (r : Radio) (size : Nat) : Option (List UInt8 × Radio) :=
  match r.received with
  | [] => none
  | frame :: rest => some (frame.take size, { r with received := rest })

/-- Takes the flags; frames still to be read show in them again. -/
def pollFlags (r : Radio) : RadioFlags × Radio :=
  ({ r.flags with rxReady := r.flags.rxReady || !r.received.isEmpty }, { r with flags := RadioFlags.quiet })

/-! ## From the air -/

def inject (r : Radio) (frame : List UInt8) : Radio :=
  { r with received := r.received ++ [frame], flags := { r.flags with rxReady := true } }

/-- A frame was spoiled on its way. -/
def spoil (r : Radio) : Radio := { r with flags := { r.flags with crcError := true } }

def clearSent (r : Radio) : Radio := { r with sent := [] }

end Radio
end Device
end ValueMesh
