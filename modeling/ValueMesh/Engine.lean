import ValueMesh.Session
import ValueMesh.Store
import ValueMesh.Timetable
/-!
# One node of the mesh, without its devices

An engine joins the replicas, the timetable, the session and the inbox of a node.  Every call takes the time it is
made at and returns the engine as it is afterwards; a call that is refused returns no engine, so nothing can have
changed.  The engine touches no device: it returns the frame to send or the radio task to carry out.
-/
namespace ValueMesh

/-- What is to be done with the radio. -/
inductive RadioTask
  | none
  /-- Ask the arbiter for a window of so many microseconds. -/
  | requestWindow (length : Nat)
  /-- Tune in, send the frame if there is one, and listen. -/
  | openWindow (mesh : UInt32) (channel : UInt8) (frame : Option (List UInt8))
  | listen
  | close
  deriving DecidableEq, Repr

/-- What became of a received frame. -/
inductive Reception
  /-- No window is open, so the frame is not ours. -/
  | notListening
  | dropped (cause : FrameError)
  /-- A good frame about a handle the node does not have. -/
  | outOfRange (h : Handle)
  /-- A copy was judged; `evicted` tells whether a notice was lost to a full inbox. -/
  | resolved (h : Handle) (verdict : Verdict) (evicted : Bool)
  | requestServed (h : Handle)
  /-- The value asked for never reached the node. -/
  | requestIgnored (h : Handle)
  deriving DecidableEq, Repr

structure Stats where
  conflicts : Nat
  noticesLost : Nat
  malformed : Nat
  denied : Nat
  transmitted : Nat
  accepted : Nat
  deriving DecidableEq, Repr

structure Engine [Jitter] where
  session : Session
  store : Store
  inbox : Inbox
  timetable : Timetable
  address : Address
  /-- Frames that could not be read, or were about handles the node does not have. -/
  malformed : Nat
  transmitted : Nat
  accepted : Nat
  deriving DecidableEq, Repr

namespace Engine

variable [Jitter]

def fresh : Engine := ⟨Session.fresh, Store.fresh, Inbox.empty, Timetable.fresh, Address.unset, 0, 0, 0⟩

def isUp (e : Engine) : Bool := e.session.active.isSome

def settings (e : Engine) : Except Fault Settings := e.session.settings

/-- Nodes draw their waits from different seeds, taken from their addresses. -/
def seedOf (a : Address) : UInt64 := UInt64.ofNat (ofLE a.toList) ^^^ 0x9E3779B97F4A7C15

/-- Brings the node up.  It is refused a second time, under settings out of range, and before the host is ready. -/
def start (e : Engine) (cfg : Settings) (address : Address) (hostReady : Bool) : Except Fault Engine := do
  if e.isUp then throw .invalidState
  cfg.check
  if !hostReady then throw .dependencyNotReady
  let session ← e.session.configure cfg
  return { e with
    session
    store := e.store.configure cfg.handleCount.toNat
    timetable := Timetable.configure cfg (seedOf address)
    address }

/-! ## Calls of the application -/

/-- Writes a value here: the next version of it, a notice of it, and a transmission soon.  The result is the version,
and whether an older notice was lost. -/
def write (e : Engine) (h : Handle) (data : List UInt8) (now : Nat) : Except Fault ((Version × Bool) × Engine) := do
  let _ ← e.settings
  let (version, store) ← e.store.write h data e.address now
  let (evicted, inbox) := e.inbox.push ⟨.updateVal, h, data, e.address⟩
  return ((version, evicted), { e with store, inbox, timetable := e.timetable.arm h now })

/-- The bytes held for a handle; there are none while no version reached the node. -/
def read (e : Engine) (h : Handle) : Except Fault (List UInt8) := do
  let _ ← e.settings
  e.store.read h

def stamp (e : Engine) (h : Handle) : Except Fault (Version × Address) := do
  let _ ← e.settings
  let r ← e.store.replica h
  return (r.version, r.origin)

def request (e : Engine) (h : Handle) : Except Fault Engine := do
  let _ ← e.settings
  let timetable ← e.timetable.request h
  return { e with timetable }

def takeNotice (e : Engine) : Option (Notice × Engine) :=
  (e.inbox.pop).map fun (n, inbox) => (n, { e with inbox })

/-! ## Windows -/

/-- The advertisement for an item, and the last activity its next wait is measured from. -/
def advertisement (e : Engine) (item : Item) (now : Nat) : Option (Advertisement × Nat) :=
  match item with
  | .request h => some (Advertisement.request h e.address, now)
  | .value h => (e.store.replicas.get? h).map fun r => (Advertisement.value (r.toCopy h), r.lastActivity)

/-- The frame for a window that opens now, if anything is due. -/
def takeFrame (e : Engine) (mesh : UInt32) (now : Nat) : Option (List UInt8) × Engine :=
  let (item, timetable) := e.timetable.next now
  match item.bind fun i => (e.advertisement i now).map (i, ·) with
  | none => (none, { e with timetable })
  | some (i, adv, lastActivity) =>
    let e' := { e with timetable := timetable.complete i now lastActivity }
    match adv.encode mesh with
    | .error _ => (none, e')
    | .ok frame => (some frame, { e' with transmitted := Tally.bump e.transmitted })

def signal (e : Engine) (sig : Signal) (now : Nat) : RadioTask × Engine :=
  let (step, session) := e.session.signal sig now
  let e' := { e with session }
  match step with
  | .none => (.none, e')
  | .requestWindow length => (.requestWindow length, e')
  | .continueWindow => (.listen, e')
  | .closeWindow => (.close, e')
  | .openWindow =>
    match session.settings with
    | .error _ => (.none, e')
    | .ok cfg =>
      let (frame, e'') := e'.takeFrame cfg.accessAddress now
      (.openWindow cfg.accessAddress cfg.channel frame, e'')

def windowRefused (e : Engine) : Engine := { e with session := e.session.windowRefused }

/-! ## Receiving -/

def malformedFrame (e : Engine) : Engine := { e with malformed := Tally.bump e.malformed }

def deliver (e : Engine) : Option Notice → Bool × Engine
  | none => (false, e)
  | some n =>
    let (evicted, inbox) := e.inbox.push n
    (evicted, { e with inbox })

/-- Someone asks for a value: a node that holds it sends it soon. -/
def answerRequest (e : Engine) (h : Handle) (now : Nat) : Reception × Engine :=
  match e.store.replicas.get? h with
  | some r =>
    if r.allocated then (.requestServed h, { e with timetable := e.timetable.arm h now }) else (.requestIgnored h, e)
  | none => (.requestIgnored h, e)

def hearCopy (e : Engine) (c : Copy) (now : Nat) : Reception × Engine :=
  let (heard, store) := e.store.hear c now
  let e' := { e with store }
  match heard with
  | .error _ => (.outOfRange c.handle, e'.malformedFrame)
  | .ok (verdict, notice) =>
    let (evicted, e'') := deliver { e' with
      accepted := if verdict.accepts then Tally.bump e.accepted else e.accepted
      timetable := if verdict.rearms then e.timetable.arm c.handle now else e.timetable } notice
    (.resolved c.handle verdict evicted, e'')

def receive (e : Engine) (frame : List UInt8) (now : Nat) : Reception × Engine :=
  match e.session.inWindow, e.settings with
  | true, .ok cfg =>
    match Advertisement.decode frame cfg.accessAddress with
    | .error cause => (.dropped cause, e.malformedFrame)
    | .ok adv =>
      if !cfg.covers adv.copy.handle then (.outOfRange adv.copy.handle, e.malformedFrame)
      else match adv.kind with
        | .request => e.answerRequest adv.copy.handle now
        | .value => e.hearCopy adv.copy now
  | _, _ => (.notListening, e)

/-! ## Views -/

def stats (e : Engine) : Stats :=
  ⟨e.store.conflicts, e.inbox.lost, e.malformed, e.session.denied, e.transmitted, e.accepted⟩

/-- The replicas that were ever written or taken over, as far as that can be told from version and bytes. -/
def holdings (e : Engine) : List (Handle × Replica) :=
  e.store.replicas.entries.filter fun p => p.2.version != 0 || !p.2.data.isEmpty

theorem receive_of_closed {e : Engine} (frame : List UInt8) (now : Nat) (h : e.session.inWindow = false) :
    e.receive frame now = (.notListening, e) := by
  simp [receive, h]

theorem length_pending_write_le {e e' : Engine} {h : Handle} {data : List UInt8} {now : Nat} {v : Version × Bool}
    (hw : e.write h data now = .ok (v, e')) : e'.inbox.pending.length ≤ e.inbox.pending.length + 1 := by
  unfold write at hw
  simp only [bind, Except.bind, pure, Except.pure] at hw
  split at hw
  · simp at hw
  · split at hw
    · simp at hw
    · simp only [Except.ok.injEq, Prod.mk.injEq] at hw
      rw [← hw.2]
      exact Inbox.length_push_le _ _

end Engine
end ValueMesh
