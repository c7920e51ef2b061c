import ValueMesh.Settings
import ValueMesh.Tally
/-!
# Owning the radio

The radio is lent out in windows.  A tick asks for one, the arbiter grants or denies it, and a granted window lasts
until the arbiter ends it.  The session only keeps track and says what is to be done next; a window that is denied or
cut short is no fault, since the next tick asks again.
-/
namespace ValueMesh

/-- What the arbiter of the radio reports. -/
inductive Signal
  | tick
  /-- The window asked for begins. -/
  | started
  /-- The window is refused, or taken back before it was used. -/
  | denied
  /-- The radio sent or received something. -/
  | radio
  | ended
  deriving DecidableEq, Repr

inductive Phase
  | idle
  | requested
  /-- The radio is ours since then. -/
  | opened (since : Nat)
  deriving DecidableEq, Repr

/-- What a signal calls for. -/
inductive WindowStep
  | none
  /-- Ask for a window of so many microseconds. -/
  | requestWindow (length : Nat)
  /-- Set the radio up, send one item at most, then listen. -/
  | openWindow
  /-- Take what the radio received and listen on. -/
  | continueWindow
  | closeWindow
  deriving DecidableEq, Repr

structure Session where
  /-- The settings and the phase, once there are settings. -/
  active : Option (Settings × Phase)
  /-- How many windows were denied or taken back before they began. -/
  denied : Nat
  /-- How many windows were granted. -/
  granted : Nat
  deriving DecidableEq, Repr

namespace Session

/-- The length of every window asked for, in microseconds. -/
def windowLength : Nat := 10000

def fresh : Session := ⟨none, 0, 0⟩

def settings (s : Session) : Except Fault Settings :=
  match s.active with
  | some (cfg, _) => .ok cfg
  | none => .error .invalidState

def phase? (s : Session) : Option Phase := s.active.map (·.2)

def inWindow (s : Session) : Bool :=
  match s.phase? with
  | some (.opened _) => true
  | _ => false

/-- Takes on settings, which happens once. -/
def configure (s : Session) (cfg : Settings) : Except Fault Session := do
  if s.active.isSome then throw .invalidState
  cfg.check
  return { s with active := some (cfg, .idle) }

def signal (s : Session) (sig : Signal) (now : Nat) : WindowStep × Session :=
  match s.active with
  | none => (.none, s)
  | some (cfg, phase) =>
    match phase, sig with
    | .idle, .tick => (.requestWindow windowLength, { s with active := some (cfg, .requested) })
    | .requested, .started =>
      (.openWindow, { s with active := some (cfg, .opened now), granted := Tally.bump s.granted })
    | .requested, .denied | .requested, .ended =>
      (.none, { s with active := some (cfg, .idle), denied := Tally.bump s.denied })
    | .opened _, .radio => (.continueWindow, s)
    | .opened _, .ended | .opened _, .denied => (.closeWindow, { s with active := some (cfg, .idle) })
    | _, _ => (.none, s)

/-- The arbiter would not even take the request. -/
def windowRefused (s : Session) : Session :=
  match s.active with
  | some (cfg, .requested) => { s with active := some (cfg, .idle), denied := Tally.bump s.denied }
  | _ => s

theorem configure_of_active {s : Session} (cfg : Settings) (h : s.active.isSome = true) :
    s.configure cfg = .error .invalidState := by
  simp [configure, h, throw, throwThe, MonadExceptOf.throw, bind, Except.bind]

/-- Settings once taken on stay. -/
theorem settings_signal (s : Session) (sig : Signal) (now : Nat) : (s.signal sig now).2.settings = s.settings := by
  unfold signal
  split
  · rfl
  · rename_i cfg phase ha
    split <;> simp [settings, ha]

theorem settings_windowRefused (s : Session) : s.windowRefused.settings = s.settings := by
  unfold windowRefused
  split
  · rename_i ha; simp [settings, ha]
  · rfl

end Session
end ValueMesh
