import ValueMesh.Node
/-!
# The radio interrupt of a node

An interrupt takes a bounded number of signals from the arbiter, and for each it steps the engine and carries out what
that calls for.  What the radio received is taken in before a window closes and whenever the radio reports something.
A device that fails costs the window and nothing else.
-/
namespace ValueMesh
namespace Node

variable [Jitter]

/-- How many signals one interrupt takes at most; the rest wait for the next. -/
def maxSignals : Nat := 8

/-- How many frames are taken in at a time. -/
def maxFrames : Nat := 8

/-- Reads so many frames at most, and has the engine take them in. -/
def readSome : Nat → Node → Node
  | 0, n => n
  | k + 1, n =>
    match n.radio.nextFrame maxFrameBytes with
    | none => n
    | some (frame, radio) => readSome k { n with radio, engine := (n.engine.receive frame n.clock.now).2 }

/-- Takes in what the radio received, if it reports anything. -/
def takeReceived (n : Node) : Node :=
  let (flags, radio) := n.radio.pollFlags
  if flags.rxReady then readSome maxFrames { n with radio } else { n with radio }

def tune (n : Node) (t : Device.Tuning) : Except Device.RadioFault Node :=
  if n.outage.tune then .error .notOwned else (n.radio.tune t).map fun radio => { n with radio }

def transmit (n : Node) (frame : List UInt8) : Except Device.RadioFault Node :=
  if n.outage.transmit then .error .notOwned else (n.radio.transmit frame).map fun radio => { n with radio }

def listen (n : Node) : Except Device.RadioFault Node :=
  if n.outage.listen then .error .notOwned else n.radio.listen.map fun radio => { n with radio }

/-- The node after a call of a device, which may fail. -/
def orSame (n : Node) : Except Device.RadioFault Node → Node
  | .ok n' => n'
  | .error _ => n

/-- Carries out what the engine calls for. -/
def carryOut (n : Node) : RadioTask → Node
  | .none => n
  | .requestWindow length =>
    match n.arbiter.request length with
    | .ok arbiter => { n with arbiter }
    | .error _ => { n with engine := n.engine.windowRefused }
  | .openWindow mesh channel frame =>
    match n.tune ⟨mesh, channel⟩ with
    | .error _ => n
    | .ok tuned =>
      let sent := match frame with
        | none => tuned
        | some bytes => tuned.orSame (tuned.transmit bytes)
      sent.orSame sent.listen
  | .listen =>
    let collected := n.takeReceived
    collected.orSame collected.listen
  | .close => { n with radio := n.radio.disable }

/-- Whether frames are taken in ahead of a signal. -/
def closes : Signal → Bool
  | .ended | .denied => true
  | .tick | .started | .radio => false

def handleSignal (n : Node) (sig : Signal) : Node :=
  let n' := if closes sig then n.takeReceived else n
  let (task, engine) := n'.engine.signal sig n'.clock.now
  { n' with engine }.carryOut task

def handleSignals : Nat → Node → Node
  | 0, n => n
  | k + 1, n =>
    match n.arbiter.poll with
    | none => n
    | some (sig, arbiter) => handleSignals k ({ n with arbiter }.handleSignal sig)

def interrupt (n : Node) : Node := handleSignals maxSignals n

/-- The arbiter reports something; it is taken by the next interrupt. -/
def raise (n : Node) (sig : Signal) : Node := { n with arbiter := n.arbiter.push sig }

end Node
end ValueMesh
