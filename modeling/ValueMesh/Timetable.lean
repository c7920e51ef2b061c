import ValueMesh.HandleTable
import ValueMesh.Jitter
import ValueMesh.Least
import ValueMesh.Settings
/-!
# When each value goes on the air

A value that changed is armed: it is due within half an interval.  Once sent, it waits at least one interval before it
is due again, and a value whose replica has not changed for eight intervals waits twice as long as the time before, up
to a limit.  A request for a value waits for the next window and goes before all values.

At most one item is sent in a window.  Among the requests, and among the values that have been due for the same time,
the turn goes round: first the handles above the one served last, then the ones from 1 on.
-/
namespace ValueMesh

/-- What a handle's value waits for.  Times are in microseconds, intervals in milliseconds. -/
inductive Timer
  | idle
  | armed (due interval : Nat)
  | sent (sentAt due interval : Nat)
  deriving DecidableEq, Repr

structure Slot where
  timer : Timer
  /-- Whether a request for the value waits to be sent. -/
  requested : Bool
  deriving DecidableEq, Repr

/-- What a window is used for. -/
inductive Item
  | value (h : Handle)
  | request (h : Handle)
  deriving DecidableEq, Repr

structure Timetable [Jitter] where
  slots : HandleTable Slot
  /-- The shortest interval between two transmissions of a value. -/
  interval : Nat
  /-- The handle served last, or 0. -/
  lastServed : Handle
  generator : Option Jitter.Source
  deriving DecidableEq, Repr

namespace Timer

def due? : Timer → Option Nat
  | idle => none
  | armed due _ | sent _ due _ => some due

def interval? : Timer → Option Nat
  | idle => none
  | armed _ interval | sent _ _ interval => some interval

/-- A value whose wait after a transmission is over is armed again; its due time stays. -/
def promote (now : Nat) : Timer → Timer
  | sent sentAt due interval => if due ≤ now then armed due interval else sent sentAt due interval
  | timer => timer

theorem due?_promote (now : Nat) : ∀ t : Timer, (t.promote now).due? = t.due?
  | idle => rfl
  | armed .. => rfl
  | sent .. => by simp only [promote]; split <;> rfl

theorem interval?_promote (now : Nat) : ∀ t : Timer, (t.promote now).interval? = t.interval?
  | idle => rfl
  | armed .. => rfl
  | sent .. => by simp only [promote]; split <;> rfl

end Timer

namespace Slot

def blank : Slot := ⟨.idle, false⟩

def promote (now : Nat) (s : Slot) : Slot := { s with timer := s.timer.promote now }

end Slot

namespace Timetable

variable [Jitter]

/-- How many intervals a replica has to be left alone before its value is sent less often. -/
def stableIntervals : Nat := 8

def maxStretch : Nat := 32

def fresh : Timetable := ⟨HandleTable.empty, 0, 0, none⟩

/-- Nothing is armed or requested, and waits are drawn from `seed`. -/
def configure (s : Settings) (seed : UInt64) : Timetable :=
  ⟨HandleTable.fill (min s.handleCount.toNat Settings.maxHandles) Slot.blank, s.interval, 0,
    some (Jitter.ofSeed seed)⟩

def timer? (t : Timetable) (h : Handle) : Option Timer := (t.slots.get? h).map (·.timer)

def requested (t : Timetable) (h : Handle) : Bool := ((t.slots.get? h).map (·.requested)).getD false

def maxInterval (t : Timetable) : Nat := min (t.interval * maxStretch) Settings.maxInterval

/-- A random wait of at most `m`, and what is left of the generator. -/
def jitter (t : Timetable) (m : Nat) : Nat × Option Jitter.Source :=
  match t.generator with
  | none => (0, none)
  | some g => ((Jitter.draw g m).1, some (Jitter.draw g m).2)

def put (t : Timetable) (h : Handle) (s : Slot) : Timetable := { t with slots := t.slots.set h s }

/-! ## Planning -/

/-- Makes the value of `h` due within half an interval. -/
def arm (t : Timetable) (h : Handle) (now : Nat) : Timetable :=
  match t.slots.get? h with
  | none => t
  | some s =>
    let (delay, g) := t.jitter (t.interval * 500)
    { t.put h { s with timer := .armed (now + delay) t.interval } with generator := g }

def request (t : Timetable) (h : Handle) : Except Fault Timetable :=
  match t.slots.get? h with
  | none => .error .invalidAddr
  | some s => .ok (t.put h { s with requested := true })

/-! ## Choosing -/

/-- How many steps the turn takes from the handle served last to `h`. -/
def distance (t : Timetable) (h : Handle) : Nat :=
  if t.lastServed.toNat < h.toNat then h.toNat - t.lastServed.toNat
  else h.toNat + t.slots.size - t.lastServed.toNat

def pending (t : Timetable) : List Handle := (t.slots.entries.filter (·.2.requested)).map (·.1)

def ready (t : Timetable) (now : Nat) : List (Nat × Handle) :=
  t.slots.entries.filterMap fun (h, s) =>
    match s.timer with
    | .armed due _ => if due ≤ now then some (due, h) else none
    | _ => none

def sooner (t : Timetable) (a b : Nat × Handle) : Bool :=
  decide (a.1 < b.1 ∨ a.1 = b.1 ∧ t.distance a.2 < t.distance b.2)

def choice (t : Timetable) (now : Nat) : Option Item :=
  match least? (fun a b => decide (t.distance a < t.distance b)) t.pending with
  | some h => some (.request h)
  | none => (least? t.sooner (t.ready now)).map fun p => .value p.2

def promote (t : Timetable) (now : Nat) : Timetable := { t with slots := t.slots.map (Slot.promote now) }

/-- What to send in a window that opens now.  The item stays due until it is marked as sent. -/
def next (t : Timetable) (now : Nat) : Option Item × Timetable := ((t.promote now).choice now, t.promote now)

/-! ## Sending -/

/-- The interval after a transmission at `now` of a replica that last changed at `lastActivity`. -/
def backoff (t : Timetable) (previous now lastActivity : Nat) : Nat :=
  if stableIntervals * t.interval * 1000 ≤ now - lastActivity then min (previous * 2) t.maxInterval else t.interval

def complete (t : Timetable) (item : Item) (now lastActivity : Nat) : Timetable :=
  match item with
  | .request h =>
    match t.slots.get? h with
    | none => t
    | some s => { t.put h { s with requested := false } with lastServed := h }
  | .value h =>
    match t.slots.get? h with
    | none => t
    | some s =>
      match s.timer.interval? with
      | none => t
      | some previous =>
        let interval := t.backoff previous now lastActivity
        let (delay, g) := t.jitter (interval * 250)
        { t.put h { s with timer := .sent now (now + interval * 1000 + delay) interval } with
          lastServed := h
          generator := g }

def serve (t : Timetable) (now lastActivity : Nat) : Option Item × Timetable :=
  match t.next now with
  | (none, t') => (none, t')
  | (some item, t') => (some item, t'.complete item now lastActivity)

/-! ## Views -/

def earliestDue (t : Timetable) : Option Nat := (t.slots.entries.filterMap (·.2.timer.due?)).min?

def busy (t : Timetable) : List (Handle × Slot) := t.slots.entries.filter fun p => p.2 != Slot.blank

theorem jitter_le (t : Timetable) (m : Nat) : (t.jitter m).1 ≤ m := by
  unfold jitter
  split
  · exact Nat.zero_le m
  · exact Jitter.draw_le _ m

theorem arm_of_not_within {t : Timetable} {h : Handle} (now : Nat) (hw : h.within t.slots.size = false) :
    t.arm h now = t := by
  rw [arm, HandleTable.get?_eq_none_iff.2 hw]

theorem request_eq_error_iff {t : Timetable} {h : Handle} {f : Fault} :
    t.request h = .error f ↔ h.within t.slots.size = false ∧ f = .invalidAddr := by
  rw [← HandleTable.get?_eq_none_iff]
  unfold request; split <;> simp [*, eq_comm]

end Timetable
end ValueMesh
