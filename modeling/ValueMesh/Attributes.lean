import ValueMesh.Handle
/-!
# Values as attributes of the host

The host stack shows every value as an attribute to devices nearby.  Value `h` lies `h` strides behind the first
attribute of the mesh; `locate` goes from attributes to values and `attr?` back.
-/
namespace ValueMesh

structure Attributes where
  first : UInt16
  /-- How many attributes each value takes up. -/
  stride : UInt16
  handleCount : UInt16
  deriving DecidableEq, Repr

/-- What an attribute is to the mesh. -/
inductive Placement
  | outside
  /-- Among the attributes of the mesh, and the value of none. -/
  | unmapped
  | value (h : Handle)
  deriving DecidableEq, Repr

namespace Attributes

/-- How many attributes the mesh takes up. -/
def span (t : Attributes) : Nat := t.stride.toNat * t.handleCount.toNat

def locate (t : Attributes) (attr : UInt16) : Placement :=
  if attr.toNat < t.first.toNat ∨ t.first.toNat + t.span ≤ attr.toNat then .outside
  else
    let offset := attr.toNat - t.first.toNat
    if offset % t.stride.toNat ≠ 0 ∨ offset / t.stride.toNat = 0 then .unmapped
    else .value (UInt16.ofNat (offset / t.stride.toNat))

/-- The attribute of a value, if there is one of that number. -/
def attr? (t : Attributes) (h : Handle) : Option UInt16 :=
  let n := t.first.toNat + h.toNat * t.stride.toNat
  if h.within t.handleCount.toNat ∧ n < 0x10000 then some (UInt16.ofNat n) else none

end Attributes
end ValueMesh
