/-!
# Jitter

Two nodes that heard the same frame must not answer at the same moment, so each adds a random wait of its own.  Nothing
in this library relies on where the waits come from, but for one thing: a wait up to `m` is at most `m`.  So a source of
waits is a parameter (`Jitter`), and what is shown of timetables and nodes is shown for all of them.

Nodes in the field have a xoshiro256++ generator, seeded through a 64-bit congruential sequence with permuted output
(`Generator.jitter`).  Its draws are brought into a range by the widening product of a draw and the size of the range:
the high half is the result, and draws whose low half falls into the last, incomplete stretch are thrown away.
-/
namespace ValueMesh

/-- A source of random waits: how it is seeded, and a wait from 0 to `m` with what is left of the source. -/
class Jitter where
  Source : Type
  ofSeed : UInt64 → Source
  draw : Source → Nat → Nat × Source
  draw_le (g : Source) (m : Nat) : (draw g m).1 ≤ m
  [decEq : DecidableEq Source]
  [repr : Repr Source]

instance [Jitter] : DecidableEq Jitter.Source := Jitter.decEq

instance [Jitter] : Repr Jitter.Source := Jitter.repr

structure Generator where
  s0 : UInt64
  s1 : UInt64
  s2 : UInt64
  s3 : UInt64
  deriving DecidableEq, Repr

namespace Generator

/-! ## Seeding -/

def rotateRight32 (x n : UInt32) : UInt32 := (x >>> n) ||| (x <<< (32 - n))

def rotateLeft64 (x n : UInt64) : UInt64 := (x <<< n) ||| (x >>> (64 - n))

def advance (x : UInt64) : UInt64 := x * 6364136223846793005 + 11634580027462260723

def permute (x : UInt64) : UInt32 := rotateRight32 (((x >>> 18) ^^^ x) >>> 27).toUInt32 (x >>> 59).toUInt32

/-- The seed sequence from `x` on: each word is made of two steps, the first one low. -/
def seedWords : Nat → UInt64 → List UInt64
  | 0, _ => []
  | n + 1, x =>
    let lo := advance x
    let hi := advance lo
    ((permute lo).toUInt64 ||| ((permute hi).toUInt64 <<< 32)) :: seedWords n hi

def ofSeed (seed : UInt64) : Generator :=
  match seedWords 4 seed with
  | [a, b, c, d] => ⟨a, b, c, d⟩
  | _ => ⟨0, 0, 0, 0⟩

/-! ## Drawing -/

def next (g : Generator) : UInt64 × Generator :=
  let s2 := g.s2 ^^^ g.s0
  let s3 := g.s3 ^^^ g.s1
  (rotateLeft64 (g.s0 + g.s3) 23 + g.s0,
    ⟨g.s0 ^^^ s3, g.s1 ^^^ s2, s2 ^^^ (g.s1 <<< 17), rotateLeft64 s3 45⟩)

/-- How many values a draw may have. -/
def wordCount : Nat := 0x10000000000000000

/-- The largest low half for which a draw counts, for a range of `size` numbers. -/
def zone (size : Nat) : Nat := (size <<< (63 - size.log2)) - 1

/-- How many draws are thrown away at most.  More than half of all draws count, and nothing but `draw_le`
is relied on. -/
def patience : Nat := 256

def drawBelow (size : Nat) : Nat → Generator → Nat × Generator
  | 0, g => (0, g)
  | n + 1, g =>
    let (v, g') := g.next
    let product := v.toNat * size
    if product % wordCount ≤ zone size then (product / wordCount, g') else drawBelow size n g'

/-- A number from 0 to `m`.  For `m = 0` nothing is drawn. -/
def below (g : Generator) (m : Nat) : Nat × Generator := if m = 0 then (0, g) else drawBelow (m + 1) patience g

theorem drawBelow_lt {size : Nat} (h : 0 < size) : ∀ (n : Nat) (g : Generator), (drawBelow size n g).1 < size
  | 0, _ => h
  | n + 1, g => by
    unfold drawBelow
    simp only
    split
    · rw [Nat.div_lt_iff_lt_mul (by decide), Nat.mul_comm]
      exact Nat.mul_lt_mul_of_pos_left (g.next.1.toNat_lt) h
    · exact drawBelow_lt h n _

theorem below_le (g : Generator) (m : Nat) : (g.below m).1 ≤ m := by
  unfold below
  split
  · exact Nat.zero_le m
  · exact Nat.le_of_lt_succ (drawBelow_lt (Nat.succ_pos m) _ _)

instance jitter : Jitter where
  Source := Generator
  ofSeed := ofSeed
  draw := below
  draw_le := below_le

end Generator
end ValueMesh
