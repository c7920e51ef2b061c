import ValueMesh.Frame
/-!
# What a node holds for one handle

A replica is the newest version of a value that reached the node, and the marks of rival copies it was told about: the
same version with other bytes.  A node never picks between rivals by itself.  It keeps its own copy, reports each
rival once, and waits for someone to write a newer version; `judge` says which of the six things a copy heard on the
air can be to a replica.  At most three marks are remembered, and the oldest makes room for the next.
-/
namespace ValueMesh

/-! ## Marks -/

namespace Digest

/-- One step of 32-bit FNV-1a. -/
def absorb (d : UInt32) (b : UInt8) : UInt32 := (d ^^^ b.toUInt32) * 0x01000193

def ofBytes (data : List UInt8) : UInt32 := data.foldl absorb 0x811C9DC5

theorem ofBytes_append (p s : List UInt8) : ofBytes (p ++ s) = s.foldl absorb (ofBytes p) := List.foldl_append

end Digest

/-- By what a rival copy is known again.  Relays pass on the writer's address, so a copy has one mark on every way. -/
structure Mark where
  version : Version
  origin : Address
  digest : UInt32
  deriving DecidableEq, Repr

namespace Mark

def of (version : Version) (origin : Address) (data : List UInt8) : Mark := ⟨version, origin, Digest.ofBytes data⟩

def ofCopy (c : Copy) : Mark := of c.version c.origin c.data

end Mark

def maxMarks : Nat := 3

/-! ## Replicas -/

structure Replica where
  /-- Whether any version was written or heard yet. -/
  allocated : Bool
  data : List UInt8
  version : Version
  origin : Address
  /-- When the replica last changed or a new rival was reported, in microseconds. -/
  lastActivity : Nat
  /-- The rivals reported against this version, oldest first. -/
  marks : List Mark
  deriving DecidableEq, Repr

/-- What a copy is to a replica. -/
inductive Verdict
  /-- The first version to reach the node. -/
  | acceptNew
  | acceptUpdate
  /-- A rival not reported before. -/
  | conflict
  | knownConflict
  | stale
  | duplicate
  deriving DecidableEq, Repr

namespace Verdict

/-- Whether hearing the copy leaves the replica as it is. -/
def ignored : Verdict → Bool
  | knownConflict | stale | duplicate => true
  | acceptNew | acceptUpdate | conflict => false

/-- Whether the copy takes the place of the replica. -/
def accepts : Verdict → Bool
  | acceptNew | acceptUpdate => true
  | conflict | knownConflict | stale | duplicate => false

/-- Whether the value is to be sent soon: what is new, what is disputed, and what a neighbour holds in an older
version. -/
def rearms : Verdict → Bool
  | acceptNew | acceptUpdate | conflict | stale => true
  | knownConflict | duplicate => false

end Verdict

namespace Replica

def blank : Replica := ⟨false, [], 0, Address.unset, 0, []⟩

/-- The replica after a local write: the next version, from `origin`. -/
def write (r : Replica) (data : List UInt8) (origin : Address) (now : Nat) : Replica :=
  ⟨true, data, r.version + 1, origin, now, []⟩

def ofCopy (c : Copy) (now : Nat) : Replica := ⟨true, c.data, c.version, c.origin, now, []⟩

def toCopy (r : Replica) (h : Handle) : Copy := ⟨h, r.version, r.origin, r.data⟩

def knows (r : Replica) (m : Mark) : Bool := r.marks.contains m

/-- The marks with `m` behind them; a full list first drops its oldest. -/
def remembered (ms : List Mark) (m : Mark) : List Mark :=
  if ms.length < maxMarks then ms ++ [m] else ms.drop 1 ++ [m]

/-- A mark not known yet is remembered and counts as activity. -/
def remember (r : Replica) (m : Mark) (now : Nat) : Replica :=
  if r.knows m then r else { r with marks := remembered r.marks m, lastActivity := now }

def judge (r : Replica) (c : Copy) : Verdict :=
  if !r.allocated then .acceptNew
  else if Version.newer c.version r.version then .acceptUpdate
  else if c.version ≠ r.version then .stale
  else if c.data = r.data then .duplicate
  else if r.knows (Mark.ofCopy c) then .knownConflict
  else .conflict

theorem ofCopy_toCopy (c : Copy) (now : Nat) : (ofCopy c now).toCopy c.handle = c := rfl

theorem length_remembered_le {ms : List Mark} (m : Mark) (h : ms.length ≤ maxMarks) :
    (remembered ms m).length ≤ maxMarks := by
  have h0 : 0 < maxMarks := by decide
  unfold remembered
  split <;> rw [List.length_append, List.length_singleton]
  · assumption
  · rw [List.length_drop]; omega

theorem toCopy_remember (r : Replica) (m : Mark) (now : Nat) (h : Handle) :
    (r.remember m now).toCopy h = r.toCopy h := by
  unfold remember; split <;> rfl

theorem judge_ofCopy (c : Copy) (now : Nat) : (ofCopy c now).judge c = .duplicate := by
  simp [judge, ofCopy, Version.newer_irrefl]

theorem judge_eq_conflict_iff {r : Replica} {c : Copy} : r.judge c = .conflict ↔
    r.allocated = true ∧ c.version = r.version ∧ c.data ≠ r.data ∧ r.knows (Mark.ofCopy c) = false := by
  unfold judge
  cases ha : r.allocated
  · simp
  · by_cases hv : c.version = r.version
    · by_cases hd : c.data = r.data <;> cases hk : r.knows (Mark.ofCopy c) <;> simp [hv, hd, Version.newer_irrefl]
    · cases Version.newer c.version r.version <;> simp [hv]

end Replica
end ValueMesh
