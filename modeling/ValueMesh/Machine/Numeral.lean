import ValueMesh.Machine
import ValueMesh.Numeral
/-!
# Numerals on the machine

The number read so far is a word of eight bytes, and the digits are counted beside it, in a word of four bytes with a
sign; `room` is what such a word has room for, so that readings with other counters can be spoken of.  A numeral is
read from the front, and given up as soon as its number is too large for four bytes.
-/
namespace ValueMesh
namespace Machine

/-- The value of an ASCII digit of the radix. -/
def digit? (radix : Nat) (b : UInt8) : Checked (Option Nat) :=
  if 0x30 ≤ b ∧ b ≤ 0x39 then do
    return some (← sub b.toNat 0x30)
  else if radix = 16 ∧ 0x61 ≤ b ∧ b ≤ 0x66 then do
    return some (← add 1 (← sub b.toNat 0x61) 10)
  else if radix = 16 ∧ 0x41 ≤ b ∧ b ≤ 0x46 then do
    return some (← add 1 (← sub b.toNat 0x41) 10)
  else return none

/-- One more, of what there is room to count. -/
def oneMore (room n : Nat) : Checked Nat := if n + 1 < room then .ok (n + 1) else .error .overflow

/-- Reads on with the number so far, and how many digits there were in it. -/
def readDigits (room radix : Nat) : Nat → Nat → List UInt8 → Checked (Option UInt32)
  | n, digits, [] => if digits = 0 then return none else do return some (UInt32.ofNat (← narrow 4 n))
  | n, digits, b :: bs =>
    if b = 0x5F then readDigits room radix n digits bs
    else do
      match ← digit? radix b with
      | none => return none
      | some d =>
        let n ← add 8 (← mul 8 n radix) d
        if 0xFFFFFFFF < n then return none
        else
          let digits ← oneMore room digits
          readDigits room radix n digits bs

/-- The radix of a numeral, and its text without the mark of the radix. -/
def splitNumeral (text : List UInt8) : Checked (Nat × List UInt8) :=
  if 2 < text.length then do
    if (← byteAt text 0) ≠ 0x30 then return (10, text)
    else
      let x ← byteAt text 1
      if x = 0x78 ∨ x = 0x58 then return (16, ← slice text 2 text.length) else return (10, text)
  else return (10, text)

/-- The number that a text stands for, with room to count so many digits. -/
def readNumeralWithin (room : Nat) (text : List UInt8) : Checked (Option UInt32) := do
  let (radix, body) ← splitNumeral text
  readDigits room radix 0 0 body

/-- What a word of four bytes with a sign has room for. -/
def digitRoom : Nat := 0x80000000

def readNumeral (text : List UInt8) : Checked (Option UInt32) := readNumeralWithin digitRoom text

end Machine
end ValueMesh
