/-!
# The clock of a node

Time is counted in microseconds since the node was switched on.
-/
namespace ValueMesh

structure Clock where
  now : Nat
  deriving DecidableEq, Repr

namespace Clock

def millis (c : Clock) : Nat := c.now / 1000

def advance (c : Clock) (micros : Nat) : Clock := ⟨c.now + micros⟩

/-- So many whole advertising intervals of `interval` milliseconds. -/
def skipIntervals (c : Clock) (interval count : Nat) : Clock := c.advance (interval * 1000 * count)

/-- The time since `reference`, and zero if that is still to come. -/
def since (c : Clock) (reference : Nat) : Nat := c.now - reference

def hasPassed (c : Clock) (reference period : Nat) : Bool := decide (period ≤ c.since reference)

theorem hasPassed_iff {c : Clock} {reference period : Nat} :
    c.hasPassed reference period = true ↔ period = 0 ∨ reference + period ≤ c.now := by
  rw [hasPassed, decide_eq_true_iff, since]; omega

end Clock
end ValueMesh
