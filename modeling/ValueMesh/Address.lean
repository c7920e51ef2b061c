/-!
# Node addresses

Six bytes, stored least significant first and written most significant first, as in `C6:05:04:03:02:01`.
-/
namespace ValueMesh

structure Address where
  b0 : UInt8
  b1 : UInt8
  b2 : UInt8
  b3 : UInt8
  b4 : UInt8
  b5 : UInt8
  deriving DecidableEq, Repr

namespace Address

/-- The origin of a value that nobody has written yet. -/
def unset : Address := ⟨0, 0, 0, 0, 0, 0⟩

def toList (a : Address) : List UInt8 := [a.b0, a.b1, a.b2, a.b3, a.b4, a.b5]

theorem toList_inj {a b : Address} : a.toList = b.toList ↔ a = b := by
  cases a; cases b; simp [toList]

/-! ## Text -/

def hexDigit (n : Nat) : Char :=
  if n < 10 then Char.ofNat (48 + n) else Char.ofNat (55 + n)

def hexByte (b : UInt8) : List Char := [hexDigit (b.toNat / 16), hexDigit (b.toNat % 16)]

/-- Two capital hex digits a byte, the last stored byte first, colons between. -/
def text (a : Address) : String :=
  String.ofList (List.intercalate [':'] (a.toList.reverse.map hexByte))

end Address

end ValueMesh
