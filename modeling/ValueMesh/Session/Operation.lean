import ValueMesh.Session
/-!
# Everything that can be done to a session

A history of a session is a list of operations, taking on settings included.  `perform` makes one of them and `run`
makes them one after the other; `steps` tells what the signals on the way called for, `denials` how many of the windows
that were asked for were denied.
-/
namespace ValueMesh

namespace WindowStep

def isRequest : WindowStep → Bool
  | requestWindow _ => true
  | none | openWindow | continueWindow | closeWindow => false

/-- A window begins or ends. -/
def isBorder : WindowStep → Bool
  | openWindow | closeWindow => true
  | none | requestWindow _ | continueWindow => false

end WindowStep

namespace Session

inductive Operation
  | configure (cfg : Settings)
  | signal (sig : Signal) (now : Nat)
  | windowRefused
  deriving DecidableEq, Repr

/-- The session after an operation; settings that are not taken on leave it as it was. -/
def perform (s : Session) : Operation → Session
  | .configure cfg =>
    match s.configure cfg with
    | .error _ => s
    | .ok s' => s'
  | .signal sig now => (s.signal sig now).2
  | .windowRefused => s.windowRefused

/-- What an operation calls for, if it is a signal. -/
def step? (s : Session) : Operation → Option WindowStep
  | .signal sig now => some (s.signal sig now).1
  | .configure _ | .windowRefused => none

/-- Whether an operation makes the session ask for a window. -/
def asks (s : Session) (op : Operation) : Bool := (s.step? op).any WindowStep.isRequest

/-- Whether an operation denies the window that is awaited. -/
def denies (s : Session) : Operation → Bool
  | .signal .denied _ | .signal .ended _ | .windowRefused => s.phase? = some .requested
  | .configure _ | .signal .tick _ | .signal .started _ | .signal .radio _ => false

/-- The session after a history. -/
def run (s : Session) : List Operation → Session
  | [] => s
  | op :: rest => (s.perform op).run rest

/-- What the signals of a history call for, in order. -/
def steps (s : Session) : List Operation → List WindowStep
  | [] => []
  | op :: rest => (s.step? op).toList ++ (s.perform op).steps rest

/-- How many windows are denied in a history. -/
def denials (s : Session) : List Operation → Nat
  | [] => 0
  | op :: rest => (s.denies op).toNat + (s.perform op).denials rest

end Session
end ValueMesh
