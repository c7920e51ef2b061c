import ValueMesh.Address
import ValueMesh.Attributes
import ValueMesh.Device.Fault
import ValueMesh.Settings
/-!
# A host stack in memory

The host stack has the address of the device and a table of attributes with room for so many values.
-/
namespace ValueMesh
namespace Device

structure Host where
  enabled : Bool
  address : Address
  /-- How many times the attributes of a mesh were registered. -/
  registrations : Nat
  /-- The largest handle count the attribute table has room for. -/
  capacity : UInt16
  deriving DecidableEq, Repr

namespace Host

def firstAttribute : UInt16 := 0x10

def stride : UInt16 := 2

def defaultAddress : Address := ⟨0xC0, 0xFF, 0xEE, 0x00, 0x00, 0x01⟩

def ofAddress (a : Address) : Host := ⟨true, a, 0, UInt16.ofNat Settings.maxHandles⟩

def register (h : Host) (handleCount : UInt16) : Except HostFault (Attributes × Host) :=
  if !h.enabled then .error .notEnabled
  else if h.capacity < handleCount then .error .noResources
  else .ok (⟨firstAttribute, stride, handleCount⟩, { h with registrations := h.registrations + 1 })

end Host
end Device
end ValueMesh
