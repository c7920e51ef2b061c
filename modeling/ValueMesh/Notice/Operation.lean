import ValueMesh.Notice
/-!
# Everything that can be done to an inbox

A history of an inbox is a list of operations.  `perform` makes one of them and gives its answer, `run` makes them one
after the other and `answers` gives all their answers.
-/
namespace ValueMesh
namespace Inbox

inductive Operation
  | push (n : Notice)
  | pop
  | clear
  deriving DecidableEq, Repr

inductive Answer
  /-- Whether the oldest notice was lost. -/
  | pushed (evicts : Bool)
  | popped (n? : Option Notice)
  | cleared
  deriving DecidableEq, Repr

/-- The notice an operation brings. -/
def Operation.arrival? : Operation → Option Notice
  | push n => some n
  | pop | clear => none

/-- What a push told. -/
def Answer.evicts? : Answer → Option Bool
  | pushed evicts => some evicts
  | popped _ | cleared => none

/-- The notice an answer gives. -/
def Answer.notice? : Answer → Option Notice
  | popped n? => n?
  | pushed _ | cleared => none

/-- The answer of an operation, and the inbox after it. -/
def perform (q : Inbox) : Operation → Answer × Inbox
  | .push n => let (evicts, q') := q.push n; (.pushed evicts, q')
  | .pop =>
    match q.pop with
    | none => (.popped none, q)
    | some (n, q') => (.popped (some n), q')
  | .clear => (.cleared, q.clear)

/-- The inbox after a history. -/
def run (q : Inbox) : List Operation → Inbox
  | [] => q
  | op :: rest => (q.perform op).2.run rest

/-- What the operations of a history answer, in order. -/
def answers (q : Inbox) : List Operation → List Answer
  | [] => []
  | op :: rest => (q.perform op).1 :: (q.perform op).2.answers rest

/-- The notices a history brings, in order. -/
def arrivals (history : List Operation) : List Notice := history.filterMap Operation.arrival?

end Inbox
end ValueMesh
