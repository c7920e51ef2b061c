import ValueMesh.Engine.Operation
import ValueMesh.Machine.Frame
import ValueMesh.Machine.Store
import ValueMesh.Machine.Timetable
/-!
# An engine on the machine

The calls of an engine, made on its parts one after the other as they lie in memory.  Here nothing is taken back: a
call that is refused after its first part was changed leaves that part changed.  `perform` and `run` are as for an
engine, except that the machine may stop.
-/
namespace ValueMesh
namespace Machine

open Call (state change check ask refuse attempt)
open Engine (Operation Answer)

variable [Jitter]

section Parts

variable {α : Type} {e : Engine} {r : Except Fault α}

def onSession (x : Call Session α) : Call Engine α := x.on (·.session) fun e session => { e with session }

def onStore (x : Call Store α) : Call Engine α := x.on (·.store) fun e store => { e with store }

def onInbox (x : Call Inbox α) : Call Engine α := x.on (·.inbox) fun e inbox => { e with inbox }

def onTimetable (x : Call Timetable α) : Call Engine α := x.on (·.timetable) fun e timetable => { e with timetable }

theorem onSession_eq {x : Call Session α} {session : Session} (h : x e.session = .ok (r, session)) :
    onSession x e = .ok (r, { e with session }) := Call.on_eq h _

theorem onStore_eq {x : Call Store α} {store : Store} (h : x e.store = .ok (r, store)) :
    onStore x e = .ok (r, { e with store }) := Call.on_eq h _

theorem onInbox_eq {x : Call Inbox α} {inbox : Inbox} (h : x e.inbox = .ok (r, inbox)) :
    onInbox x e = .ok (r, { e with inbox }) := Call.on_eq h _

theorem onTimetable_eq {x : Call Timetable α} {timetable : Timetable} (h : x e.timetable = .ok (r, timetable)) :
    onTimetable x e = .ok (r, { e with timetable }) := Call.on_eq h _

theorem onTimetable_of_stop {x : Call Timetable α} {stop : Stop} (h : x e.timetable = .error stop) :
    onTimetable x e = .error stop := Call.on_of_stop h _

end Parts

/-! ## Coming up -/

def configureSession (cfg : Settings) : Call Session Unit := do
  let s ← state
  if s.active.isSome then refuse .invalidState
  else
    ask cfg.check
    change fun s => { s with active := some (cfg, .idle) }

/-- The address in the lowest bytes of a word of eight. -/
def seedOf (a : Address) : Checked UInt64 := do
  let bytes ← overwrite (List.replicate 8 0) a.toList
  return UInt64.ofNat (ofLE bytes) ^^^ 0x9E3779B97F4A7C15

def start (cfg : Settings) (address : Address) (hostReady : Bool) : Call Engine Unit := do
  let e ← state
  if e.isUp then refuse .invalidState
  else
    ask cfg.check
    if hostReady then
      onSession (configureSession cfg)
      onStore (configureStore cfg.handleCount.toNat)
      let seed ← check (seedOf address)
      onTimetable (configureTimetable cfg seed)
      change fun e => { e with address }
    else refuse .dependencyNotReady

/-! ## Calls of the application -/

def write (h : Handle) (data : List UInt8) (now : Nat) : Call Engine (Version × Bool) := do
  let e ← state
  let _ ← ask e.settings
  let version ← onStore (writeReplica h data e.address now)
  onTimetable (arm h now)
  let snapshot ← ask (copyIn data)
  let evicted ← onInbox (push ⟨.updateVal, h, snapshot, e.address⟩)
  return (version, evicted)

def read (h : Handle) : Call Engine (List UInt8) := do
  let e ← state
  let _ ← ask e.settings
  let r ← onStore (replica h)
  return r.data

def stamp (h : Handle) : Call Engine (Version × Address) := do
  let e ← state
  let _ ← ask e.settings
  let r ← onStore (replica h)
  return (r.version, r.origin)

def request (h : Handle) : Call Engine Unit := do
  let e ← state
  let _ ← ask e.settings
  onTimetable (requestValue h)

/-! ## Windows -/

/-- Sends an item; a frame that could not be written is not sent, and the item is done all the same. -/
def send (item : Item) (adv : Advertisement) (mesh : UInt32) (now lastActivity : Nat) :
    Call Engine (Option (List UInt8)) := do
  let encoded ← check (encode adv mesh)
  onTimetable (complete item now lastActivity)
  match encoded with
  | .error _ => return none
  | .ok frame =>
    change fun e => { e with transmitted := Tally.bump e.transmitted }
    return some frame

def takeFrame (mesh : UInt32) (now : Nat) : Call Engine (Option (List UInt8)) := do
  let item ← onTimetable (next now)
  let e ← state
  match item with
  | none => return none
  | some (.request h) => send (.request h) (Advertisement.request h e.address) mesh now now
  | some (.value h) =>
    let found ← attempt (onStore (replica h))
    match found with
    | .error _ => return none
    | .ok r => send (.value h) (Advertisement.value (r.toCopy h)) mesh now r.lastActivity

def signal (sig : Signal) (now : Nat) : Call Engine RadioTask := do
  let before ← state
  change fun e => { e with session := (e.session.signal sig now).2 }
  match (before.session.signal sig now).1 with
  | .none => return .none
  | .requestWindow length => return .requestWindow length
  | .continueWindow => return .listen
  | .closeWindow => return .close
  | .openWindow =>
    let e ← state
    match e.settings with
    | .error _ => return .none
    | .ok cfg =>
      let frame ← takeFrame cfg.accessAddress now
      return .openWindow cfg.accessAddress cfg.channel frame

/-! ## Receiving -/

def answerRequest (h : Handle) (now : Nat) : Call Engine Reception := do
  let found ← attempt (onStore (replica h))
  match found with
  | .ok r =>
    if r.allocated then
      onTimetable (arm h now)
      return .requestServed h
    else return .requestIgnored h
  | .error _ => return .requestIgnored h

def countAccepted (v : Verdict) : Call Engine Unit :=
  if v.accepts then change fun e => { e with accepted := Tally.bump e.accepted } else return

def rearm (v : Verdict) (h : Handle) (now : Nat) : Call Engine Unit :=
  if v.rearms then onTimetable (arm h now) else return

def deliver : Option Notice → Call Engine Bool
  | none => return false
  | some n => onInbox (push n)

def hearCopy (c : Copy) (now : Nat) : Call Engine Reception := do
  let heard ← attempt (onStore (hear c now))
  match heard with
  | .error _ =>
    change Engine.malformedFrame
    return .outOfRange c.handle
  | .ok (verdict, notice) =>
    countAccepted verdict
    rearm verdict c.handle now
    let evicted ← deliver notice
    return .resolved c.handle verdict evicted

def receive (frame : List UInt8) (now : Nat) : Call Engine Reception := do
  let e ← state
  match e.session.inWindow, e.settings with
  | true, .ok cfg =>
    let decoded ← check (decode frame cfg.accessAddress)
    match decoded with
    | .error cause =>
      change Engine.malformedFrame
      return .dropped cause
    | .ok adv =>
      if cfg.covers adv.copy.handle then
        match adv.kind with
        | .request => answerRequest adv.copy.handle now
        | .value => hearCopy adv.copy now
      else
        change Engine.malformedFrame
        return .outOfRange adv.copy.handle
  | _, _ => return .notListening

/-! ## Everything that can be done to an engine -/

def call (op : Operation) (now : Nat) : Call Engine Answer :=
  match op with
  | .start cfg address hostReady => do
    start cfg address hostReady
    return .done
  | .write h data => do
    let (version, evicted) ← write h data now
    return .written version evicted
  | .read h => do
    let data ← read h
    return .bytes data
  | .stamp h => do
    let (version, origin) ← stamp h
    return .stamp version origin
  | .request h => do
    request h
    return .done
  | .takeNotice => do
    let n ← onInbox pop
    return .notice n
  | .signal sig => do
    let task ← signal sig now
    return .task task
  | .windowRefused => do
    change Engine.windowRefused
    return .done
  | .receive frame => do
    let r ← receive frame now
    return .received r

/-- What the caller is answered. -/
def answer : Except Fault Answer → Answer
  | .ok a => a
  | .error f => .refused f

def perform (op : Operation) (now : Nat) (e : Engine) : Checked (Answer × Engine) :=
  (call op now e).map fun (r, e') => (answer r, e')

/-- What the callers were answered in a history, and the engine after it. -/
def run (e : Engine) : List (Operation × Nat) → Checked (List Answer × Engine)
  | [] => .ok ([], e)
  | (op, now) :: rest => do
    let (a, e') ← perform op now e
    let (as, last) ← run e' rest
    return (a :: as, last)

end Machine
end ValueMesh
