import ValueMesh.Device.Fault
import ValueMesh.Session
/-!
# An arbiter in memory

The arbiter shares the radio out.  It notes the windows asked for, as long as it is enabled and does not refuse, and
hands out its signals in the order they were put in.
-/
namespace ValueMesh
namespace Device

structure Arbiter where
  /-- The signals not taken yet, oldest first. -/
  signals : List Signal
  /-- The lengths of the windows asked for, oldest first. -/
  requests : List Nat
  refusing : Bool
  enabled : Bool
  deriving DecidableEq, Repr

namespace Arbiter

/-- The longest window there is, in microseconds. -/
def maxWindow : Nat := 100000

def idle : Arbiter := ⟨[], [], false, true⟩

def push (a : Arbiter) (s : Signal) : Arbiter := { a with signals := a.signals ++ [s] }

def poll (a : Arbiter) : Option (Signal × Arbiter) :=
  match a.signals with
  | [] => none
  | s :: rest => some (s, { a with signals := rest })

def request (a : Arbiter) (length : Nat) : Except ArbiterFault Arbiter :=
  if !a.enabled then .error .notEnabled
  else if length = 0 ∨ maxWindow < length then .error .invalidLength
  else if a.refusing then .error .busy
  else .ok { a with requests := a.requests ++ [length] }

end Arbiter
end Device
end ValueMesh
