import ValueMesh.Machine
import ValueMesh.Timetable.Operation
/-!
# The timetable on the machine

Times are words of eight bytes, intervals words of four, and steps of the turn words of two.  Which slot is served is
found by going through the handles in use, one slot after the other.
-/
namespace ValueMesh
namespace Machine

open Call (state change check refuse)

variable [Jitter]

def configureTimetable (cfg : Settings) (seed : UInt64) : Call Timetable Unit := do
  let most ← check (narrow 2 Settings.maxHandles)
  change fun _ => ⟨HandleTable.fill (min cfg.handleCount.toNat most) Slot.blank, cfg.interval, 0,
    some (Jitter.ofSeed seed)⟩

def putSlot (h : Handle) (s : Slot) : Call Timetable Unit := do
  let t ← state
  let slots ← check (setSlot t.slots h s)
  change fun t => { t with slots }

/-- A random wait of at most `m`. -/
def jitter (m : Nat) : Call Timetable Nat := do
  let t ← state
  change fun t => { t with generator := (t.jitter m).2 }
  return (t.jitter m).1

/-! ## Planning -/

def arm (h : Handle) (now : Nat) : Call Timetable Unit := do
  let t ← state
  if h.within t.slots.size then
    let micros ← check (mul 8 t.interval 1000)
    let delay ← jitter (micros / 2)
    let due ← check (add 8 now delay)
    let s ← check (slot t.slots h)
    putSlot h { s with timer := .armed due t.interval }
  else return

def requestValue (h : Handle) : Call Timetable Unit := do
  let t ← state
  if h.within t.slots.size then
    let s ← check (slot t.slots h)
    putSlot h { s with requested := true }
  else refuse .invalidAddr

/-! ## Choosing -/

/-- How many steps the turn takes from the handle served last to `h`. -/
def distance (t : Timetable) (h : Handle) : Checked Nat :=
  if t.lastServed.toNat < h.toNat then sub h.toNat t.lastServed.toNat
  else do
    let wrapped ← add 2 h.toNat t.slots.size
    sub wrapped t.lastServed.toNat

/-- The handles in use with their slots, ascending. -/
def entries (t : Timetable) : Checked (List (Handle × Slot)) :=
  t.slots.handles.mapM fun h => do
    let s ← slot t.slots h
    return (h, s)

/-- The first of some handles whose turn comes next. -/
def nearest (t : Timetable) (hs : List Handle) : Checked (Option Handle) := do
  let keyed ← hs.mapM fun h => do
    let d ← distance t h
    return (d, h)
  return (least? (fun a b => decide (a.1 < b.1)) keyed).map (·.2)

/-- The first of some handles that is due the longest, and of several of these the one whose turn comes next.  No two
handles are at one distance, so the order ends there. -/
def soonest (t : Timetable) (ready : List (Nat × Handle)) : Checked (Option Handle) := do
  let keyed ← ready.mapM fun p => do
    let d ← distance t p.2
    return (d, p)
  return (least? (fun a b => decide (a.2.1 < b.2.1 ∨ a.2.1 = b.2.1 ∧ a.1 < b.1)) keyed).map (·.2.2)

def asked (all : List (Handle × Slot)) : List Handle := (all.filter (·.2.requested)).map (·.1)

def due (all : List (Handle × Slot)) (now : Nat) : List (Nat × Handle) :=
  all.filterMap fun (h, s) =>
    match s.timer with
    | .armed due _ => if due ≤ now then some (due, h) else none
    | _ => none

/-- What to send in a window that opens now. -/
def next (now : Nat) : Call Timetable (Option Item) := do
  change fun t => t.promote now
  let t ← state
  let all ← check (entries t)
  let first ← check (nearest t (asked all))
  match first with
  | some h => return some (.request h)
  | none =>
    let chosen ← check (soonest t (due all now))
    return chosen.map .value

/-! ## Sending -/

/-- The longest interval backing off may reach, in a word of four bytes. -/
def longest (t : Timetable) : Nat := min (satMul 4 t.interval Timetable.maxStretch) Settings.maxInterval

def complete (item : Item) (now lastActivity : Nat) : Call Timetable Unit := do
  let t ← state
  match item with
  | .request h =>
    if h.within t.slots.size then
      let s ← check (slot t.slots h)
      putSlot h { s with requested := false }
      change fun t => { t with lastServed := h }
    else return
  | .value h =>
    if h.within t.slots.size then
      let s ← check (slot t.slots h)
      match s.timer.interval? with
      | none => return
      | some previous =>
        let stable ← check (mul 8 Timetable.stableIntervals t.interval)
        let stableMicros ← check (mul 8 stable 1000)
        let interval :=
          if stableMicros ≤ now - lastActivity then min (satMul 4 previous 2) (longest t) else t.interval
        let micros ← check (mul 8 interval 1000)
        let delay ← jitter (micros / 4)
        let rest ← check (add 8 now micros)
        let due ← check (add 8 rest delay)
        putSlot h { s with timer := .sent now due interval }
        change fun t => { t with lastServed := h }
    else return

def serve (now lastActivity : Nat) : Call Timetable (Option Item) := do
  let chosen ← next now
  match chosen with
  | none => return none
  | some item =>
    complete item now lastActivity
    return some item

/-! ## Everything that can be done to a timetable -/

def callTimetable (op : Timetable.Operation) : Call Timetable Timetable.Answer :=
  match op with
  | .arm h now => do
    arm h now
    return .done
  | .request h => do
    requestValue h
    return .done
  | .next now => do
    let chosen ← next now
    return .chosen chosen
  | .complete item now lastActivity => do
    complete item now lastActivity
    return .done
  | .serve now lastActivity => do
    let chosen ← serve now lastActivity
    return .chosen chosen

def answerTimetable : Except Fault Timetable.Answer → Timetable.Answer
  | .ok a => a
  | .error f => .refused f

def performTimetable (op : Timetable.Operation) (t : Timetable) : Checked (Timetable.Answer × Timetable) :=
  (callTimetable op t).map fun (r, t') => (answerTimetable r, t')

/-- What the callers were answered in a history, and the timetable after it. -/
def runTimetable (t : Timetable) : List Timetable.Operation → Checked (List Timetable.Answer × Timetable)
  | [] => .ok ([], t)
  | op :: rest => do
    let (a, t') ← performTimetable op t
    let (as, last) ← runTimetable t' rest
    return (a :: as, last)

/-! ## Views -/

/-- The slot of a handle, if it is in use. -/
def slot? (t : Timetable) (h : Handle) : Checked (Option Slot) :=
  if h.within t.slots.size then (slot t.slots h).map some else .ok none

end Machine
end ValueMesh
