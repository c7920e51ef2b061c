/-!
# State that two contexts share

The interrupt and the application reach the state of a node through a guard that lends it out: to any number of
readers, or to one writer and no one else.  A body runs while the state is lent to it and sees the guard as it is then,
so an access inside an access either fits the loan or clashes.  A clash ends the whole access and leaves the state as
it was before.
-/
namespace ValueMesh

inductive Loan
  | free
  /-- Readers have it. -/
  | read
  /-- A writer has it. -/
  | write
  deriving DecidableEq, Repr

/-- An access that does not fit the loan. -/
inductive Clash
  | alreadyLent
  deriving DecidableEq, Repr

structure Guarded (α : Type) where
  value : α
  loan : Loan
  deriving DecidableEq, Repr

namespace Guarded

variable {α β : Type}

def of (a : α) : Guarded α := ⟨a, .free⟩

def view (g : Guarded α) (body : Guarded α → α → Except Clash β) : Except Clash β :=
  match g.loan with
  | .write => .error .alreadyLent
  | .free | .read => body { g with loan := .read } g.value

/-- Runs a body that gives a result and the new state. -/
def update (g : Guarded α) (body : Guarded α → α → Except Clash (β × α)) : Except Clash (β × Guarded α) :=
  match g.loan with
  | .read | .write => .error .alreadyLent
  | .free => (body { g with loan := .write } g.value).map fun (b, a) => (b, { g with value := a })

theorem view_view (g : Guarded α) (h : g.loan ≠ .write) (body : α → Except Clash β) :
    (g.view fun g' _ => g'.view fun _ a => body a) = body g.value := by
  cases hl : g.loan <;> simp_all [view]

theorem update_in_view (g : Guarded α) (body : Guarded α → α → Except Clash (β × α)) :
    (g.view fun g' _ => g'.update body) = .error .alreadyLent := by
  cases hl : g.loan <;> simp [view, update, hl]

theorem view_in_update (g : Guarded α) (body : Guarded α → α → Except Clash (β × α)) :
    (g.update fun g' _ => g'.view body) = .error .alreadyLent := by
  cases hl : g.loan <;> simp [view, update, hl, Except.map]

end Guarded
end ValueMesh
