/-!
# Written numbers

A numeral is decimal, or hexadecimal after `0x` or `0X`, and underscores may stand anywhere in it.  It needs one digit
at least and stands for a number of 32 bits at most; any other text is none.  The digits are counted in a word of 32
bits with a sign, which comes round to zero after all its values.
-/
namespace ValueMesh
namespace Numeral

/-- The value of an ASCII digit of the radix. -/
def digit? (radix : Nat) (b : UInt8) : Option Nat :=
  if 0x30 ≤ b ∧ b ≤ 0x39 then some (b.toNat - 0x30)
  else if radix = 16 ∧ 0x61 ≤ b ∧ b ≤ 0x66 then some (b.toNat - 0x61 + 10)
  else if radix = 16 ∧ 0x41 ≤ b ∧ b ≤ 0x46 then some (b.toNat - 0x41 + 10)
  else none

/-- Reads on with the number so far, and the count of its digits. -/
def readDigits (radix : Nat) : Nat → Int32 → List UInt8 → Option UInt32
  | n, digits, [] => if digits = 0 then none else some (UInt32.ofNat n)
  | n, digits, b :: bs =>
    if b = 0x5F then readDigits radix n digits bs
    else match digit? radix b with
      | none => none
      | some d => if 0x100000000 ≤ n * radix + d then none else readDigits radix (n * radix + d) (digits + 1) bs

/-- The radix of a numeral, and its text without the mark of the radix. -/
def split (text : List UInt8) : Nat × List UInt8 :=
  match text with
  | z :: x :: rest => if z = 0x30 ∧ (x = 0x78 ∨ x = 0x58) ∧ rest ≠ [] then (16, rest) else (10, text)
  | _ => (10, text)

def read (text : List UInt8) : Option UInt32 := readDigits (split text).1 0 0 (split text).2

def ofString (s : String) : Option UInt32 := read s.toUTF8.data.toList

theorem digit?_lt {radix : Nat} {b : UInt8} {d : Nat} (h : digit? radix b = some d) (hr : 10 ≤ radix) : d < radix := by
  unfold digit? at h
  have h39 : (0x39 : UInt8).toNat = 0x39 := rfl
  have h66 : (0x66 : UInt8).toNat = 0x66 := rfl
  have h46 : (0x46 : UInt8).toNat = 0x46 := rfl
  simp only [UInt8.le_iff_toNat_le] at h
  split at h
  · simp at h; omega
  · split at h
    · simp at h; omega
    · split at h
      · simp at h; omega
      · simp at h

end Numeral
end ValueMesh
