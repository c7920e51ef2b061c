/-!
# Saturating counters

A diagnostic counter stops at the largest 32-bit number instead of starting over.  `bump_min` reads a counter as its
true count cut off at the limit, so a tally that starts at zero and is bumped `n` times holds `min n limit`.
-/
namespace ValueMesh
namespace Tally

def limit : Nat := 0xFFFFFFFF

/-- One more, unless the counter is full. -/
def bump (n : Nat) : Nat := min (n + 1) limit

theorem bump_min (n : Nat) : bump (min n limit) = min (n + 1) limit := by
  unfold bump; omega

/-- What one counter is ahead of another by stays when both are bumped. -/
theorem bump_min_add (n k : Nat) : bump (min (n + k) limit) = min (bump n + k) limit := by
  unfold bump; omega

theorem bump_le_limit (n : Nat) : bump n ≤ limit := Nat.min_le_right _ _

end Tally
end ValueMesh
