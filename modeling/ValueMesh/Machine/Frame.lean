import ValueMesh.Frame
import ValueMesh.Machine
/-!
# Frames on the machine

A frame is written into a buffer piece by piece, and read byte by byte from wherever a field lies.
-/
namespace ValueMesh
namespace Machine

def encode (a : Advertisement) (mesh : UInt32) : Checked (Except FrameError (List UInt8)) :=
  if maxValueBytes < a.copy.data.length then .ok (.error .payloadTooLong)
  else if a.kind = .request ∧ a.copy.data ≠ [] then .ok (.error .unexpectedPayload)
  else do
    let head ← sub 16 6
    let follows ← add 4 head a.copy.data.length
    let length ← narrow 1 follows
    let buffer ← [toLE 4 mesh.toNat, [a.kind.toByte], [UInt8.ofNat length], a.copy.origin.toList,
      toLE 2 a.copy.handle.toNat, toLE 2 a.copy.version.toNat, a.copy.data].foldlM (append maxFrameBytes) []
    return .ok buffer

/-- Six bytes as an address; any other number of them does not fill one. -/
def addressOf : List UInt8 → Checked Address
  | [b0, b1, b2, b3, b4, b5] => .ok ⟨b0, b1, b2, b3, b4, b5⟩
  | _ => .error .bounds

/-- The number at some places of a frame. -/
def numberAt (frame : List UInt8) (places : List Nat) : Checked Nat := do
  return ofLE (← places.mapM (byteAt frame))

def decode (frame : List UInt8) (mesh : UInt32) : Checked (Except FrameError Advertisement) :=
  if frame.length < 16 then .ok (.error .tooShort)
  else do
    let address ← numberAt frame [0, 1, 2, 3]
    if address ≠ mesh.toNat then return .error .accessAddressMismatch
    else
      let k ← byteAt frame 4
      match FrameKind.ofByte? k with
      | none => return .error (.unknownKind k)
      | some kind =>
        let length ← byteAt frame 5
        let follows ← sub frame.length 6
        if length.toNat ≠ follows then return .error .lengthMismatch
        else
          let data ← slice frame 16 frame.length
          if maxValueBytes < data.length then return .error .payloadTooLong
          else if kind = .request ∧ data ≠ [] then return .error .unexpectedPayload
          else
            let origin ← addressOf (← slice frame 6 12)
            let handle ← numberAt frame [12, 13]
            if handle = 0 then return .error .reservedHandle
            else
              let version ← numberAt frame [14, 15]
              return .ok ⟨kind, UInt16.ofNat handle, UInt16.ofNat version, origin, data⟩

end Machine
end ValueMesh
