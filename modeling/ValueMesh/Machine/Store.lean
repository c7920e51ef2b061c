import ValueMesh.Machine
import ValueMesh.Store
/-!
# Replicas and notices on the machine

A replica is changed where it lies.  Bytes are copied into the room there is for a value, which is refused if they are
too many, and a mark or a notice goes behind the others in a buffer from which the oldest was taken if it was full.
-/
namespace ValueMesh
namespace Machine

/-- Bytes in the room for a value. -/
def copyIn (data : List UInt8) : Except Fault (List UInt8) :=
  if maxValueBytes < data.length then .error .invalidLength else .ok data

/-! ## Replicas -/

open Call (state change check ask refuse)

/-- Empties the store and numbers its slots, those not in use too. -/
def configureStore (count : Nat) : Call Store Unit := do
  let most ← check (narrow 2 Settings.maxHandles)
  let _ ← check ((List.range Settings.maxHandles).mapM (narrow 2))
  change fun s => { s with replicas := HandleTable.fill (min count most) Replica.blank }

def replica (h : Handle) : Call Store Replica := do
  let s ← state
  if s.covers h then check (slot s.replicas h) else refuse .invalidAddr

def putReplica (h : Handle) (r : Replica) : Call Store Unit := do
  let s ← state
  let replicas ← check (setSlot s.replicas h r)
  change fun s => { s with replicas }

def writeReplica (h : Handle) (data : List UInt8) (origin : Address) (now : Nat) : Call Store Version := do
  let s ← state
  if s.covers h then
    let data ← ask (copyIn data)
    let r ← check (slot s.replicas h)
    putReplica h (r.write data origin now)
    return (r.write data origin now).version
  else refuse .invalidAddr

def adopt (c : Copy) (now : Nat) : Call Store Adoption := do
  let s ← state
  if s.covers c.handle then
    let data ← ask (copyIn c.data)
    let r ← check (slot s.replicas c.handle)
    if !r.allocated then
      putReplica c.handle (Replica.ofCopy { c with data } now)
      return .newlyAllocated
    else if r.version = c.version ∧ r.data = data then return .alreadyCurrent
    else
      putReplica c.handle (Replica.ofCopy { c with data } now)
      return .updated
  else refuse .invalidAddr

/-- The marks with `m` behind them; a full list first loses its oldest. -/
def keepMark (ms : List Mark) (m : Mark) : Checked (List Mark) := do
  let others ← if ms.length = maxMarks then removeFirst ms else .ok ms
  append maxMarks others [m]

def remember (h : Handle) (m : Mark) (now : Nat) : Call Store Bool := do
  let s ← state
  if s.covers h then
    let r ← check (slot s.replicas h)
    if r.knows m then return false
    else
      let marks ← check (keepMark r.marks m)
      putReplica h { r with marks, lastActivity := now }
      return true
  else refuse .invalidAddr

/-- By what the application is told of a copy that was taken over. -/
def noticeKind : Adoption → NoticeKind
  | .newlyAllocated => .newVal
  | .updated | .alreadyCurrent => .updateVal

def hear (c : Copy) (now : Nat) : Call Store (Verdict × Option Notice) := do
  let r ← replica c.handle
  match r.judge c with
  | .acceptNew | .acceptUpdate =>
    let adoption ← adopt c now
    let data ← ask (copyIn c.data)
    return (r.judge c, some ⟨noticeKind adoption, c.handle, data, c.origin⟩)
  | .conflict =>
    change fun s => { s with conflicts := Tally.bump s.conflicts }
    let _ ← remember c.handle (Mark.ofCopy c) now
    let data ← ask (copyIn c.data)
    return (.conflict, some ⟨.conflictingVal, c.handle, data, c.origin⟩)
  | .knownConflict =>
    change fun s => { s with conflicts := Tally.bump s.conflicts }
    return (.knownConflict, none)
  | .stale => return (.stale, none)
  | .duplicate => return (.duplicate, none)

/-! ## Notices -/

/-- Puts a notice behind the others, and tells whether the oldest was lost for it. -/
def push (n : Notice) : Call Inbox Bool := do
  let q ← state
  if q.pending.length = Inbox.capacity then
    let pending ← check (append Inbox.capacity (q.pending.drop 1) [n])
    change fun q => ⟨pending, Tally.bump q.lost⟩
    return true
  else
    let pending ← check (append Inbox.capacity q.pending [n])
    change fun q => { q with pending }
    return false

/-- Takes out the oldest notice. -/
def pop : Call Inbox (Option Notice) := do
  let q ← state
  match q.pending with
  | [] => return none
  | n :: rest =>
    change fun q => { q with pending := rest }
    return some n

end Machine
end ValueMesh
