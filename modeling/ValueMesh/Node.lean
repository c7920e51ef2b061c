import ValueMesh.Clock
import ValueMesh.Device.Arbiter
import ValueMesh.Device.Host
import ValueMesh.Device.Radio
import ValueMesh.Engine
import ValueMesh.Parameters
/-!
# A node with its devices

A node is an engine with a radio, an arbiter, a host stack and a clock, and an application that listens.  It comes up
once: the host stack registers the attributes of the mesh and gives the address, and both are kept or neither
(`start`).  The application may answer a notice by writing a value while it is told of it (`poll`).
-/
namespace ValueMesh

/-! ## The application -/

/-- An application that copies what it hears of one handle to another, so many times at most. -/
structure Echo where
  source : Handle
  target : Handle
  limit : Nat
  deriving DecidableEq, Repr

/-- What came of an echo. -/
inductive Reply
  | written (version : Version)
  | refused (f : Fault)
  deriving DecidableEq, Repr

structure Listener where
  echo : Option Echo
  /-- How many echoes were made. -/
  echoes : Nat
  /-- What the application was told, and what came of its echo if it made one. -/
  told : List (Notice × Option Reply)
  deriving DecidableEq, Repr

namespace Listener

def ofEcho (echo : Option Echo) : Listener := ⟨echo, 0, []⟩

/-- How many echoes may still be made. -/
def credit (l : Listener) : Nat :=
  match l.echo with
  | none => 0
  | some e => e.limit - l.echoes

/-- The handle a notice is echoed to, if it is. -/
def echoTarget (l : Listener) (n : Notice) : Option Handle :=
  match l.echo with
  | none => none
  | some e => if n.handle = e.source ∧ l.echoes < e.limit then some e.target else none

def hear (l : Listener) (n : Notice) : Listener := { l with told := l.told ++ [(n, none)] }

def hearEcho (l : Listener) (n : Notice) (reply : Reply) : Listener :=
  { l with echoes := l.echoes + 1, told := l.told ++ [(n, some reply)] }

theorem credit_hearEcho {l : Listener} {n : Notice} {h : Handle} (he : l.echoTarget n = some h)
    (reply : Reply) : (l.hearEcho n reply).credit + 1 = l.credit := by
  unfold echoTarget at he
  unfold credit hearEcho
  split at he
  · simp at he
  · split at he
    · rename_i e hl hc
      simp only [hl]
      omega
    · simp at he

end Listener

/-! ## The node -/

/-- Which calls of the radio fail on their way. -/
structure Outage where
  tune : Bool
  transmit : Bool
  listen : Bool
  deriving DecidableEq, Repr

/-- What the host stack reports. -/
inductive HostReport
  | connected (connection : UInt16)
  | disconnected (connection : UInt16)
  /-- A device nearby wrote an attribute. -/
  | attributeWrite (attr : UInt16) (data : List UInt8)
  | other (id : UInt16)
  deriving DecidableEq, Repr

structure Node [Jitter] where
  engine : Engine
  /-- The attributes of the mesh, once they are registered. -/
  attributes : Option Attributes
  radio : Device.Radio
  outage : Outage
  arbiter : Device.Arbiter
  host : Device.Host
  clock : Clock
  listener : Listener
  deriving DecidableEq, Repr

namespace Node

variable [Jitter]

def create (address : Address) (now : Nat) (echo : Option Echo) : Node :=
  ⟨Engine.fresh, none, Device.Radio.idle, ⟨false, false, false⟩, Device.Arbiter.idle, Device.Host.ofAddress address,
    ⟨now⟩, Listener.ofEcho echo⟩

/-- Brings the node up. -/
def start (n : Node) (cfg : Settings) : Except Fault Node := do
  if n.engine.isUp then throw .invalidState
  cfg.check
  if !n.host.enabled then throw .dependencyNotReady
  let (attributes, host) ← (n.host.register cfg.handleCount).mapError fun _ => .dependencyNotReady
  let engine ← n.engine.start cfg host.address true
  return { n with engine, host, attributes := some attributes }

/-- Brings the node up with the settings of its image. -/
def startImage (n : Node) : Except Fault Node := do
  let cfg ← Parameters.image.settings
  n.start cfg

def write (n : Node) (h : Handle) (data : List UInt8) : Except Fault (Version × Node) :=
  (n.engine.write h data n.clock.now).map fun ((version, _), engine) => (version, { n with engine })

def request (n : Node) (h : Handle) : Except Fault Node :=
  (n.engine.request h).map fun engine => { n with engine }

def takeNotice (n : Node) : Option (Notice × Node) :=
  n.engine.takeNotice.map fun (notice, engine) => (notice, { n with engine })

/-- What the host stack reports; writing the attribute of a value writes the value. -/
def hostReport (n : Node) (event : HostReport) : Except Fault Node :=
  match n.attributes, event with
  | none, _ => .error .invalidState
  | some table, .attributeWrite attr data =>
    match table.locate attr with
    | .outside => .ok n
    | .unmapped => .error .invalidAddr
    | .value h => (n.write h data).map (·.2)
  | some _, _ => .ok n

/-! ## Telling the application -/

/-- Tells the application of one notice. -/
def tell (n : Node) (notice : Notice) : Node :=
  match n.listener.echoTarget notice with
  | none => { n with listener := n.listener.hear notice }
  | some target =>
    match n.write target notice.data with
    | .error f => { n with listener := n.listener.hearEcho notice (.refused f) }
    | .ok (version, n') => { n' with listener := n.listener.hearEcho notice (.written version) }

/-- How many notices may still come: those pending, and one for each echo. -/
def backlog (n : Node) : Nat := n.engine.inbox.pending.length + n.listener.credit

theorem backlog_tell_le (n : Node) (notice : Notice) : (n.tell notice).backlog ≤ n.backlog := by
  unfold tell
  split
  · exact Nat.le_refl _
  · rename_i target ht
    have hc := Listener.credit_hearEcho ht
    split
    · rename_i f _
      have := hc (.refused f)
      simp only [backlog]
      omega
    · rename_i version n' hw
      have := hc (.written version)
      simp only [write, Except.map] at hw
      split at hw
      · simp at hw
      · rename_i p hp
        simp only [Except.ok.injEq, Prod.mk.injEq] at hw
        have hl := Engine.length_pending_write_le hp
        rw [← hw.2]
        simp only [backlog]
        omega

theorem backlog_of_takeNotice {n n' : Node} {notice : Notice} (h : n.takeNotice = some (notice, n')) :
    n'.backlog < n.backlog := by
  unfold takeNotice Engine.takeNotice at h
  cases hp : n.engine.inbox.pop with
  | none => simp [hp] at h
  | some p =>
    simp only [hp, Option.map_some, Option.some.injEq, Prod.mk.injEq] at h
    have hl := Inbox.pending_of_pop hp
    rw [← h.2]
    simp only [backlog, hl, List.length_cons]
    omega

/-- Tells the application of everything pending, and of what comes of its echoes; the result is how many notices that
were. -/
def poll (n : Node) : Nat × Node :=
  match _h : n.takeNotice with
  | none => (0, n)
  | some (notice, n') =>
    let (count, last) := (n'.tell notice).poll
    (count + 1, last)
termination_by n.backlog
decreasing_by exact Nat.lt_of_le_of_lt (backlog_tell_le n' notice) (backlog_of_takeNotice _h)

end Node
end ValueMesh
