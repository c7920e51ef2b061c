import ValueMesh.Address
import ValueMesh.Handle
import ValueMesh.LittleEndian
import ValueMesh.Serial
/-!
# Advertisements and their frames

A node tells its neighbours about a value by sending one frame.  All numbers are little endian:

| bytes | field |
|---|---|
| 0–3 | access address of the mesh |
| 4 | kind: 1 carries a value, 2 asks for one |
| 5 | how many bytes follow |
| 6–11 | address of the node that wrote the value |
| 12–13 | handle |
| 14–15 | version |
| 16– | the value, at most 28 bytes; a request has none |

`decode` refuses whatever `encode` would not have written for the same mesh, and a handle 0 besides.
-/
namespace ValueMesh

/-- The most bytes a value may hold. -/
def maxValueBytes : Nat := 28

/-- The most bytes a frame may hold. -/
def maxFrameBytes : Nat := 16 + maxValueBytes

/-- One version of the value of one handle, as its writer published it. -/
structure Copy where
  handle : Handle
  version : Version
  origin : Address
  data : List UInt8
  deriving DecidableEq, Repr

inductive FrameKind
  | value
  | request
  deriving DecidableEq, Repr

/-- What a frame says.  A request names a handle and its sender; its version means nothing. -/
structure Advertisement where
  kind : FrameKind
  copy : Copy
  deriving DecidableEq, Repr

/-- Why a frame cannot be written or is dropped on arrival. -/
inductive FrameError
  | tooShort
  | accessAddressMismatch
  | unknownKind (kind : UInt8)
  | lengthMismatch
  | payloadTooLong
  | reservedHandle
  | unexpectedPayload
  deriving DecidableEq, Repr

namespace FrameKind

def toByte : FrameKind → UInt8
  | value => 1
  | request => 2

def ofByte? (b : UInt8) : Option FrameKind :=
  if b = 1 then some value else if b = 2 then some request else none

theorem ofByte?_eq_some_iff {b : UInt8} {k : FrameKind} : ofByte? b = some k ↔ b = k.toByte := by
  unfold ofByte?
  split
  · cases k <;> simp_all [toByte]
  · split <;> cases k <;> simp_all [toByte]

end FrameKind

namespace Advertisement

def value (c : Copy) : Advertisement := ⟨.value, c⟩

def request (h : Handle) (sender : Address) : Advertisement := ⟨.request, ⟨h, 0, sender, []⟩⟩

def encode (a : Advertisement) (mesh : UInt32) : Except FrameError (List UInt8) :=
  if maxValueBytes < a.copy.data.length then .error .payloadTooLong
  else if a.kind = .request ∧ a.copy.data ≠ [] then .error .unexpectedPayload
  else .ok (toLE 4 mesh.toNat ++ [a.kind.toByte, UInt8.ofNat (10 + a.copy.data.length)] ++ a.copy.origin.toList ++
    toLE 2 a.copy.handle.toNat ++ toLE 2 a.copy.version.toNat ++ a.copy.data)

def decode (frame : List UInt8) (mesh : UInt32) : Except FrameError Advertisement :=
  match frame with
  | m0 :: m1 :: m2 :: m3 :: k :: len :: a0 :: a1 :: a2 :: a3 :: a4 :: a5 :: h0 :: h1 :: v0 :: v1 :: data =>
    if ofLE [m0, m1, m2, m3] ≠ mesh.toNat then .error .accessAddressMismatch
    else match FrameKind.ofByte? k with
      | none => .error (.unknownKind k)
      | some kind =>
        if len.toNat ≠ 10 + data.length then .error .lengthMismatch
        else if maxValueBytes < data.length then .error .payloadTooLong
        else if kind = .request ∧ data ≠ [] then .error .unexpectedPayload
        else if h0 = 0 ∧ h1 = 0 then .error .reservedHandle
        else .ok ⟨kind, UInt16.ofNat (ofLE [h0, h1]), UInt16.ofNat (ofLE [v0, v1]), ⟨a0, a1, a2, a3, a4, a5⟩, data⟩
  | _ => .error .tooShort

theorem length_of_encode {a : Advertisement} {mesh : UInt32} {frame : List UInt8} (h : a.encode mesh = .ok frame) :
    frame.length = 16 + a.copy.data.length ∧ frame.length ≤ maxFrameBytes := by
  unfold encode at h
  split at h
  · simp at h
  · split at h
    · simp at h
    · injection h with h
      subst h
      simp [Address.toList, maxFrameBytes, maxValueBytes] at *
      omega

end Advertisement
end ValueMesh
