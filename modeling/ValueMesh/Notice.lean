import ValueMesh.Frame
import ValueMesh.Tally
/-!
# Notices to the application, and the inbox they wait in

An inbox holds at most sixteen notices in the order they came.  Into a full one a notice still goes, and the oldest is
lost for it and counted (`push_of_room`, `push_of_full`).
-/
namespace ValueMesh

inductive NoticeKind
  /-- The first version of a value arrived. -/
  | newVal
  /-- A newer version arrived, or was written here. -/
  | updateVal
  /-- A rival of the version held here was heard. -/
  | conflictingVal
  deriving DecidableEq, Repr

structure Notice where
  kind : NoticeKind
  handle : Handle
  data : List UInt8
  origin : Address
  deriving DecidableEq, Repr

structure Inbox where
  /-- Oldest first. -/
  pending : List Notice
  /-- How many notices were lost to a full inbox. -/
  lost : Nat
  deriving DecidableEq, Repr

namespace Inbox

def capacity : Nat := 16

def empty : Inbox := ⟨[], 0⟩

/-- Puts a notice behind the others, and tells whether the oldest was lost for it. -/
def push (q : Inbox) (n : Notice) : Bool × Inbox :=
  if q.pending.length < capacity then (false, { q with pending := q.pending ++ [n] })
  else (true, ⟨q.pending.drop 1 ++ [n], Tally.bump q.lost⟩)

/-- Takes out the oldest notice. -/
def pop (q : Inbox) : Option (Notice × Inbox) :=
  match q.pending with
  | [] => none
  | n :: rest => some (n, { q with pending := rest })

/-- Drops what is pending; the count of lost notices stays. -/
def clear (q : Inbox) : Inbox := { q with pending := [] }

theorem push_of_room {q : Inbox} (n : Notice) (h : q.pending.length < capacity) :
    q.push n = (false, ⟨q.pending ++ [n], q.lost⟩) := by simp [push, h]

theorem push_of_full {q : Inbox} (n : Notice) (h : capacity ≤ q.pending.length) :
    q.push n = (true, ⟨q.pending.drop 1 ++ [n], Tally.bump q.lost⟩) := by
  simp [push, Nat.not_lt.2 h]

theorem length_push_le (q : Inbox) (n : Notice) : (q.push n).2.pending.length ≤ q.pending.length + 1 := by
  unfold push; split <;> simp

theorem length_push_le_capacity {q : Inbox} (n : Notice) (h : q.pending.length ≤ capacity) :
    (q.push n).2.pending.length ≤ capacity := by
  unfold push
  split
  · rw [List.length_append, List.length_singleton]; omega
  · rw [List.length_append, List.length_drop, List.length_singleton]
    have : 0 < capacity := by decide
    omega

theorem pending_of_pop {q q' : Inbox} {n : Notice} (h : q.pop = some (n, q')) : q.pending = n :: q'.pending := by
  unfold pop at h
  split at h
  · simp at h
  · simp only [Option.some.injEq, Prod.mk.injEq] at h
    obtain ⟨rfl, rfl⟩ := h
    assumption

end Inbox
end ValueMesh
