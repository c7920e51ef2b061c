import ValueMesh.Timetable
/-!
# Everything that can be done to a timetable

A history of a timetable is a list of operations, each at any time.  `perform` makes one of them and `run` makes them
one after the other; `served` tells what the windows were used for that were served on the way.
-/
namespace ValueMesh
namespace Timetable

inductive Operation
  | arm (h : Handle) (now : Nat)
  | request (h : Handle)
  | next (now : Nat)
  | complete (item : Item) (now lastActivity : Nat)
  /-- A window opens: what is chosen is sent and marked so at once. -/
  | serve (now lastActivity : Nat)
  deriving DecidableEq, Repr

/-- When an operation sets timers, if it may; asking for a value and finding out what is due may be done at any time. -/
def Operation.time? : Operation → Option Nat
  | .arm _ now | .complete _ now _ | .serve now _ => some now
  | .request _ | .next _ => none

variable [Jitter]

/-- The timetable after an operation; a request that is refused leaves it as it was. -/
def perform (t : Timetable) : Operation → Timetable
  | .arm h now => t.arm h now
  | .request h =>
    match t.request h with
    | .error _ => t
    | .ok t' => t'
  | .next now => (t.next now).2
  | .complete item now lastActivity => t.complete item now lastActivity
  | .serve now lastActivity => (t.serve now lastActivity).2

/-- What the caller of an operation is answered. -/
inductive Answer
  | done
  | refused (f : Fault)
  | chosen (item : Option Item)
  deriving DecidableEq, Repr

def answer (t : Timetable) : Operation → Answer
  | .arm .. | .complete .. => .done
  | .request h =>
    match t.request h with
    | .error f => .refused f
    | .ok _ => .done
  | .next now => .chosen (t.next now).1
  | .serve now lastActivity => .chosen (t.serve now lastActivity).1

/-- The timetable after a history. -/
def run (t : Timetable) : List Operation → Timetable
  | [] => t
  | op :: rest => (t.perform op).run rest

theorem run_append (t : Timetable) (a b : List Operation) : t.run (a ++ b) = (t.run a).run b := by
  induction a generalizing t with
  | nil => rfl
  | cons op rest ih => exact ih _

/-- What the callers are answered in a history, in order. -/
def answers (t : Timetable) : List Operation → List Answer
  | [] => []
  | op :: rest => t.answer op :: (t.perform op).answers rest

/-- What an operation uses a window for, if it serves one; nothing may be due in it. -/
def window? (t : Timetable) : Operation → Option (Option Item)
  | .serve now lastActivity => some (t.serve now lastActivity).1
  | .arm .. | .request _ | .next _ | .complete .. => none

/-- What the windows of a history are used for, in order. -/
def served (t : Timetable) : List Operation → List (Option Item)
  | [] => []
  | op :: rest => (t.window? op).toList ++ (t.perform op).served rest

end Timetable
end ValueMesh
