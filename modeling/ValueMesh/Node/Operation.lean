import ValueMesh.Node.Interrupt
/-!
# Everything that can happen to a node

The calls of the application and the host, the interrupt, and what goes on around the devices.  `perform` lets one of
them happen and gives what the caller is answered; what is refused leaves the node as it was (`perform_of_refused`).
-/
namespace ValueMesh
namespace Node

inductive Operation
  | start (cfg : Settings)
  | startImage
  | write (h : Handle) (data : List UInt8)
  | read (h : Handle)
  | request (h : Handle)
  /-- Tell the application of everything pending. -/
  | poll
  | takeNotice
  | hostReport (event : HostReport)
  | interrupt
  | raise (sig : Signal)
  | inject (frame : List UInt8)
  | spoil
  | pollFlags
  | clearSent
  | enableHost (on : Bool)
  | limitHost (capacity : UInt16)
  | refuseWindows (on : Bool)
  | enableArbiter (on : Bool)
  | failTune (on : Bool)
  | failTransmit (on : Bool)
  | failListen (on : Bool)
  | advanceClock (micros : Nat)
  | setClock (now : Nat)
  deriving DecidableEq, Repr

inductive Answer
  | done
  | refused (f : Fault)
  | written (version : Version)
  | bytes (data : List UInt8)
  /-- How many notices were delivered, and what the application was told since it was asked last. -/
  | polled (delivered : Nat) (told : List (Notice × Option Reply))
  | notice (n : Option Notice)
  | flags (s : Device.RadioFlags)
  deriving DecidableEq, Repr

variable [Jitter]

/-- The node after a call that is refused or answered with `done`. -/
def settle (n : Node) : Except Fault Node → Answer × Node
  | .ok n' => (.done, n')
  | .error f => (.refused f, n)

def perform (n : Node) : Operation → Answer × Node
  | .start cfg => n.settle (n.start cfg)
  | .startImage => n.settle n.startImage
  | .write h data =>
    match n.write h data with
    | .error f => (.refused f, n)
    | .ok (version, n') => (.written version, n')
  | .read h =>
    match n.engine.read h with
    | .error f => (.refused f, n)
    | .ok data => (.bytes data, n)
  | .request h => n.settle (n.request h)
  | .poll =>
    let (delivered, n') := n.poll
    (.polled delivered n'.listener.told, { n' with listener := { n'.listener with told := [] } })
  | .takeNotice =>
    match n.takeNotice with
    | none => (.notice none, n)
    | some (notice, n') => (.notice (some notice), n')
  | .hostReport event => n.settle (n.hostReport event)
  | .interrupt => (.done, n.interrupt)
  | .raise sig => (.done, n.raise sig)
  | .inject frame => (.done, { n with radio := n.radio.inject frame })
  | .spoil => (.done, { n with radio := n.radio.spoil })
  | .pollFlags => let (flags, radio) := n.radio.pollFlags; (.flags flags, { n with radio })
  | .clearSent => (.done, { n with radio := n.radio.clearSent })
  | .enableHost on => (.done, { n with host := { n.host with enabled := on } })
  | .limitHost capacity => (.done, { n with host := { n.host with capacity } })
  | .refuseWindows on => (.done, { n with arbiter := { n.arbiter with refusing := on } })
  | .enableArbiter on => (.done, { n with arbiter := { n.arbiter with enabled := on } })
  | .failTune on => (.done, { n with outage := { n.outage with tune := on } })
  | .failTransmit on => (.done, { n with outage := { n.outage with transmit := on } })
  | .failListen on => (.done, { n with outage := { n.outage with listen := on } })
  | .advanceClock micros => (.done, { n with clock := n.clock.advance micros })
  | .setClock now => (.done, { n with clock := ⟨now⟩ })

/-- The node after a history. -/
def run (n : Node) : List Operation → Node
  | [] => n
  | op :: rest => run (n.perform op).2 rest

theorem run_append (n : Node) (a b : List Operation) : n.run (a ++ b) = (n.run a).run b := by
  induction a generalizing n with
  | nil => rfl
  | cons x rest ih => exact ih _

theorem settle_of_refused {n : Node} {r : Except Fault Node} {f : Fault} (h : (n.settle r).1 = .refused f) :
    (n.settle r).2 = n := by
  cases r with
  | error _ => rfl
  | ok _ => nomatch h

theorem perform_of_refused {n : Node} {op : Operation} {f : Fault} (h : (n.perform op).1 = .refused f) :
    (n.perform op).2 = n := by
  cases op with
  | start | startImage | request | hostReport => exact settle_of_refused h
  | write | read => simp only [perform] at h ⊢; split <;> simp_all
  | takeNotice => simp only [perform] at h; split at h <;> nomatch h
  | _ => nomatch h

end Node
end ValueMesh
