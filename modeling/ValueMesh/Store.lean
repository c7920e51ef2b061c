import ValueMesh.HandleTable
import ValueMesh.Notice
import ValueMesh.Replica
import ValueMesh.Settings
/-!
# The replicas of a node

A store answers for the usable handles and refuses all others; what is refused changes nothing.  `hear` is the heart
of the mesh: it judges a copy from the air, takes it over if it is newer, remembers it if it is a new rival, and says
what the application is to be told.
-/
namespace ValueMesh

structure Store where
  replicas : HandleTable Replica
  /-- How often a rival copy was heard, known ones included. -/
  conflicts : Nat
  deriving DecidableEq, Repr

/-- What became of a copy that was taken over. -/
inductive Adoption
  | newlyAllocated
  | updated
  | alreadyCurrent
  deriving DecidableEq, Repr

namespace Store

def fresh : Store := ⟨HandleTable.empty, 0⟩

/-- Empties the store and gives it `count` slots, as far as a mesh may have them. -/
def configure (s : Store) (count : Nat) : Store :=
  { s with replicas := HandleTable.fill (min count Settings.maxHandles) Replica.blank }

def handleCount (s : Store) : Nat := s.replicas.size

def covers (s : Store) (h : Handle) : Bool := h.within s.handleCount

def put (s : Store) (h : Handle) (r : Replica) : Store := { s with replicas := s.replicas.set h r }

def replica (s : Store) (h : Handle) : Except Fault Replica :=
  match s.replicas.get? h with
  | some r => .ok r
  | none => .error .invalidAddr

def read (s : Store) (h : Handle) : Except Fault (List UInt8) := (s.replica h).map (·.data)

/-- The replica a value of these bytes may be put in place of. -/
def writable (s : Store) (h : Handle) (data : List UInt8) : Except Fault Replica := do
  let r ← s.replica h
  if maxValueBytes < data.length then .error .invalidLength else .ok r

def write (s : Store) (h : Handle) (data : List UInt8) (origin : Address) (now : Nat) :
    Except Fault (Version × Store) := do
  let r ← s.writable h data
  let r' := r.write data origin now
  return (r'.version, s.put h r')

/-- Takes a copy over, whatever its version; a replica that holds the very version and bytes stays as it is. -/
def adopt (s : Store) (c : Copy) (now : Nat) : Except Fault (Adoption × Store) := do
  let r ← s.writable c.handle c.data
  if !r.allocated then return (.newlyAllocated, s.put c.handle (Replica.ofCopy c now))
  else if r.version = c.version ∧ r.data = c.data then return (.alreadyCurrent, s)
  else return (.updated, s.put c.handle (Replica.ofCopy c now))

/-- Remembers a rival, and tells whether it was a new one. -/
def remember (s : Store) (h : Handle) (m : Mark) (now : Nat) : Except Fault (Bool × Store) := do
  let r ← s.replica h
  return (!r.knows m, s.put h (r.remember m now))

def judge (s : Store) (c : Copy) : Except Fault Verdict := (s.replica c.handle).map (·.judge c)

/-! ## Hearing a copy -/

/-- What the application is told of a verdict. -/
def announcement (c : Copy) : Verdict → Option Notice
  | .acceptNew => some ⟨.newVal, c.handle, c.data, c.origin⟩
  | .acceptUpdate => some ⟨.updateVal, c.handle, c.data, c.origin⟩
  | .conflict => some ⟨.conflictingVal, c.handle, c.data, c.origin⟩
  | .knownConflict | .stale | .duplicate => none

/-- What a verdict does to the store.  Bytes that no value can hold are never taken over, yet a rival made of them is
remembered by its mark. -/
def follow (s : Store) (c : Copy) (r : Replica) (now : Nat) : Verdict → Store
  | .acceptNew | .acceptUpdate =>
    if maxValueBytes < c.data.length then s else s.put c.handle (Replica.ofCopy c now)
  | .conflict => { s.put c.handle (r.remember (Mark.ofCopy c) now) with conflicts := Tally.bump s.conflicts }
  | .knownConflict => { s with conflicts := Tally.bump s.conflicts }
  | .stale | .duplicate => s

/-- The verdict on a copy, what it tells the application, and the store afterwards.  The call is refused for a handle
the store does not have, and for an announcement whose bytes no value can hold. -/
def hear (s : Store) (c : Copy) (now : Nat) : Except Fault (Verdict × Option Notice) × Store :=
  match s.replicas.get? c.handle with
  | none => (.error .invalidAddr, s)
  | some r =>
    let v := r.judge c
    (if maxValueBytes < c.data.length ∧ v.ignored = false then .error .invalidLength
      else .ok (v, announcement c v), s.follow c r now v)

/-! ## Views -/

/-- The replicas that hold a version, ascending by handle. -/
def allocated (s : Store) : List (Handle × Replica) := s.replicas.entries.filter (·.2.allocated)

theorem replica_eq_ok_iff {s : Store} {h : Handle} {r : Replica} :
    s.replica h = .ok r ↔ s.replicas.get? h = some r := by
  unfold replica; split <;> simp [*]

theorem replica_eq_error_iff {s : Store} {h : Handle} {f : Fault} :
    s.replica h = .error f ↔ s.covers h = false ∧ f = .invalidAddr := by
  unfold covers handleCount
  rw [← HandleTable.get?_eq_none_iff]
  unfold replica; split <;> simp [*, eq_comm]

@[simp] theorem handleCount_put (s : Store) (h : Handle) (r : Replica) : (s.put h r).handleCount = s.handleCount :=
  HandleTable.size_set ..

theorem get?_put (s : Store) (h k : Handle) (r : Replica) : (s.put h r).replicas.get? k =
    if k = h then (s.replicas.get? h).map (fun _ => r) else s.replicas.get? k :=
  HandleTable.get?_set ..

end Store
end ValueMesh
