import ValueMesh.Attributes
import ValueMesh.Machine
/-!
# Attributes on the machine

Attributes and handles are words of two bytes, and the room that the attributes of a mesh take up is one of four.  A
call may ask beforehand whether a number leaves its word, and then do something else than stop.
-/
namespace ValueMesh
namespace Machine

/-- A quotient; there is no word for one by zero. -/
def quotient (a b : Nat) : Checked Nat := if b = 0 then .error .overflow else .ok (a / b)

def remainder (a b : Nat) : Checked Nat := if b = 0 then .error .overflow else .ok (a % b)

/-- What an attribute is to the mesh. -/
def locate (t : Attributes) (attr : UInt16) : Checked Placement := do
  let span ← mul 4 t.stride.toNat t.handleCount.toNat
  match (sub attr.toNat t.first.toNat).toOption with
  | none => return .outside
  | some offset =>
    if span ≤ offset then return .outside
    else
      let beside ← remainder offset t.stride.toNat
      if beside ≠ 0 then return .unmapped
      else
        let n ← quotient offset t.stride.toNat
        if n = 0 then return .unmapped else return .value (UInt16.ofNat (← narrow 2 n))

/-- The attribute of a value, if its number does not leave its word on the way. -/
def attr? (t : Attributes) (h : Handle) : Option UInt16 :=
  if h.within t.handleCount.toNat then do
    let offset ← (mul 2 h.toNat t.stride.toNat).toOption
    let n ← (add 2 offset t.first.toNat).toOption
    return UInt16.ofNat n
  else none

end Machine
end ValueMesh
