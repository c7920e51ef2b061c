import ValueMesh.HandleTable
import ValueMesh.Fault
import ValueMesh.LittleEndian
import ValueMesh.Settings
/-!
# The machine a node runs on

A machine has words of so many bytes, tables with so many slots and buffers that hold so much.  A number that leaves
its word, a slot or a byte that is not there and a buffer that has no room left stop it.  And it changes its state in
place: a call that is refused half way leaves whatever it changed until then.  A `Call` has all three endings, so that
nothing of this can be overlooked; what is not stopped is read off by `bind_of_ok` and `bind_of_refused`, step by step.
-/
namespace ValueMesh
namespace Machine

/-- Why the machine stops in the middle of a call. -/
inductive Stop
  /-- A sum, a difference or a product leaves its word. -/
  | overflow
  /-- A number is cut down to a word it does not fit. -/
  | truncation
  /-- A slot or a byte that is not there. -/
  | bounds
  /-- A buffer has no room for what is put into it. -/
  | full
  deriving DecidableEq, Repr

abbrev Checked := Except Stop

/-! ## Words of `w` bytes -/

def add (w a b : Nat) : Checked Nat := if a + b < byteRoom w then .ok (a + b) else .error .overflow

def sub (a b : Nat) : Checked Nat := if b ≤ a then .ok (a - b) else .error .overflow

def mul (w a b : Nat) : Checked Nat := if a * b < byteRoom w then .ok (a * b) else .error .overflow

/-- The product, or the largest number of its word; this stops nothing. -/
def satMul (w a b : Nat) : Nat := min (a * b) (byteRoom w - 1)

/-- The same number in a narrower word. -/
def narrow (w n : Nat) : Checked Nat := if n < byteRoom w then .ok n else .error .truncation

/-! ## Tables and buffers -/

/-- A slot of a table.  The machine has `Settings.maxHandles` of them, and of those only the ones in use are there. -/
def slot {α : Type} (t : HandleTable α) (h : Handle) : Checked α :=
  match t.slots[h.toNat]? with
  | some a => if h.toNat < Settings.maxHandles then .ok a else .error .bounds
  | none => .error .bounds

def setSlot {α : Type} (t : HandleTable α) (h : Handle) (a : α) : Checked (HandleTable α) :=
  (slot t h).map fun _ => t.set h a

def byteAt (bytes : List UInt8) (i : Nat) : Checked UInt8 :=
  match bytes[i]? with
  | some b => .ok b
  | none => .error .bounds

/-- The bytes from `first` up to `last`, that one not included. -/
def slice (bytes : List UInt8) (first last : Nat) : Checked (List UInt8) :=
  if first ≤ last ∧ last ≤ bytes.length then .ok ((bytes.take last).drop first) else .error .bounds

/-- Bytes written over the front of others. -/
def overwrite (bytes front : List UInt8) : Checked (List UInt8) :=
  if front.length ≤ bytes.length then .ok (front ++ bytes.drop front.length) else .error .bounds

/-- More of the same into a buffer that holds `capacity`. -/
def append {α : Type} (capacity : Nat) (buffer more : List α) : Checked (List α) :=
  if buffer.length + more.length ≤ capacity then .ok (buffer ++ more) else .error .full

def removeFirst {α : Type} : List α → Checked (List α)
  | [] => .error .bounds
  | _ :: rest => .ok rest

/-! ## Calls -/

/-- A call on a state.  It stops the machine, or it returns or is refused, with the state as it is then. -/
def Call (σ α : Type) : Type := σ → Checked (Except Fault α × σ)

namespace Call

variable {σ τ α β : Type}

instance : Monad (Call σ) where
  pure a := fun s => .ok (.ok a, s)
  bind x f := fun s =>
    match x s with
    | .error stop => .error stop
    | .ok (.error f, s') => .ok (.error f, s')
    | .ok (.ok a, s') => f a s'

def refuse (f : Fault) : Call σ α := fun s => .ok (.error f, s)

/-- The state as it is now. -/
def state : Call σ σ := fun s => .ok (.ok s, s)

def change (f : σ → σ) : Call σ Unit := fun s => .ok (.ok (), f s)

/-- What may stop the machine and changes nothing. -/
def check (x : Checked α) : Call σ α := fun s => x.map fun a => (.ok a, s)

/-- What may be refused and changes nothing. -/
def ask (x : Except Fault α) : Call σ α := fun s => .ok (x, s)

/-- The call with its refusal as a result. -/
def attempt (x : Call σ α) : Call σ (Except Fault α) := fun s => (x s).map fun (r, s') => (.ok r, s')

/-- A call on a part of the state. -/
def on (part : σ → τ) (put : σ → τ → σ) (x : Call τ α) : Call σ α := fun s =>
  (x (part s)).map fun (r, t) => (r, put s t)

theorem bind_of_ok {x : Call σ α} {s s' : σ} {a : α} (h : x s = .ok (.ok a, s')) (f : α → Call σ β) :
    (x >>= f) s = f a s' := by
  show (match x s with | .error stop => _ | .ok (.error f, s') => _ | .ok (.ok a, s') => f a s') = _
  rw [h]

theorem bind_of_refused {x : Call σ α} {s s' : σ} {e : Fault} (h : x s = .ok (.error e, s')) (f : α → Call σ β) :
    (x >>= f) s = .ok (.error e, s') := by
  show (match x s with | .error stop => _ | .ok (.error f, s') => _ | .ok (.ok a, s') => f a s') = _
  rw [h]

theorem bind_of_stop {x : Call σ α} {s : σ} {stop : Stop} (h : x s = .error stop) (f : α → Call σ β) :
    (x >>= f) s = .error stop := by
  show (match x s with | .error stop => _ | .ok (.error f, s') => _ | .ok (.ok a, s') => f a s') = _
  rw [h]

@[simp] theorem state_bind (f : σ → Call σ β) (s : σ) : (state >>= f) s = f s s := rfl

@[simp] theorem change_bind (g : σ → σ) (f : Unit → Call σ β) (s : σ) : (change g >>= f) s = f () (g s) := rfl

theorem check_bind {x : Checked α} {a : α} (h : x = .ok a) (f : α → Call σ β) (s : σ) :
    (check x >>= f) s = f a s :=
  bind_of_ok (by rw [check, h]; rfl) f

theorem check_bind_of_stop {x : Checked α} {stop : Stop} (h : x = .error stop) (f : α → Call σ β) (s : σ) :
    (check x >>= f) s = .error stop := by
  rw [h]
  rfl

theorem ask_bind {x : Except Fault α} {a : α} (h : x = .ok a) (f : α → Call σ β) (s : σ) : (ask x >>= f) s = f a s :=
  bind_of_ok (congrArg (fun r => Except.ok (r, s)) h) f

theorem ask_bind_of_refused {x : Except Fault α} {e : Fault} (h : x = .error e) (f : α → Call σ β) (s : σ) :
    (ask x >>= f) s = .ok (.error e, s) :=
  bind_of_refused (congrArg (fun r => Except.ok (r, s)) h) f

theorem attempt_bind {x : Call σ α} {s s' : σ} {r : Except Fault α} (h : x s = .ok (r, s'))
    (f : Except Fault α → Call σ β) : (attempt x >>= f) s = f r s' :=
  bind_of_ok (by rw [attempt, h]; rfl) f

theorem on_eq {x : Call τ α} {part : σ → τ} {s : σ} {r : Except Fault α} {t : τ} (h : x (part s) = .ok (r, t))
    (put : σ → τ → σ) : x.on part put s = .ok (r, put s t) := by
  rw [on, h]
  rfl

theorem on_of_stop {x : Call τ α} {part : σ → τ} {s : σ} {stop : Stop} (h : x (part s) = .error stop)
    (put : σ → τ → σ) : x.on part put s = .error stop := by
  rw [on, h]
  rfl

end Call
end Machine
end ValueMesh
