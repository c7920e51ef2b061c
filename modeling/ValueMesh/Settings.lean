import ValueMesh.Fault
import ValueMesh.Handle
/-!
# Settings of a mesh

All nodes of one mesh run under the same four settings.  `check` lets through exactly the settings in range
(`check_eq_ok_iff`).
-/
namespace ValueMesh

structure Settings where
  /-- Opens every frame of this mesh, and of no other within earshot. -/
  accessAddress : UInt32
  channel : UInt8
  /-- How many handles there are, the reserved handle 0 included. -/
  handleCount : UInt16
  /-- The shortest time between two transmissions of a value, in milliseconds. -/
  interval : Nat
  deriving DecidableEq, Repr

namespace Settings

/-- The access address of everyday advertising traffic. -/
def advertisingAddress : UInt32 := 0x8E89BED6

def maxHandles : Nat := 155

/-- The longest interval between two transmissions of a value, in milliseconds. -/
def maxInterval : Nat := 60000

def InRange (s : Settings) : Prop :=
  1 ≤ s.channel ∧ s.channel ≤ 39 ∧ s.handleCount.toNat ≤ maxHandles ∧ 5 ≤ s.interval ∧ s.interval ≤ maxInterval

instance (s : Settings) : Decidable s.InRange := inferInstanceAs (Decidable (_ ∧ _))

def check (s : Settings) : Except Fault Unit := if s.InRange then .ok () else .error .invalidParam

def covers (s : Settings) (h : Handle) : Bool := h.within s.handleCount.toNat

def intervalMicros (s : Settings) : Nat := s.interval * 1000

theorem check_eq_ok_iff {s : Settings} : s.check = .ok () ↔ s.InRange := by
  unfold check; split <;> simp [*]

theorem check_eq_error_iff {s : Settings} {f : Fault} : s.check = .error f ↔ ¬ s.InRange ∧ f = .invalidParam := by
  unfold check; split <;> simp [*, eq_comm]

end Settings
end ValueMesh
