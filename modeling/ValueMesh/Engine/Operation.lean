import ValueMesh.Engine
/-!
# Everything that can be done to an engine

A history of an engine is a list of operations, each with the time it was made at.  `perform` makes one of them and
gives what the caller is answered; `run` makes them one after the other.  An operation that is refused leaves the
engine as it was (`perform_of_refused`).
-/
namespace ValueMesh
namespace Engine

inductive Operation
  | start (cfg : Settings) (address : Address) (hostReady : Bool)
  | write (h : Handle) (data : List UInt8)
  | read (h : Handle)
  | stamp (h : Handle)
  | request (h : Handle)
  | takeNotice
  | signal (sig : Signal)
  | windowRefused
  | receive (frame : List UInt8)
  deriving DecidableEq, Repr

/-- What the caller of an operation is answered. -/
inductive Answer
  | done
  | refused (f : Fault)
  /-- The version written, and whether a notice was lost to a full inbox. -/
  | written (version : Version) (evicted : Bool)
  | bytes (data : List UInt8)
  | stamp (version : Version) (origin : Address)
  | notice (n : Option Notice)
  | task (t : RadioTask)
  | received (r : Reception)
  deriving DecidableEq, Repr

variable [Jitter]

def perform (e : Engine) (op : Operation) (now : Nat) : Answer × Engine :=
  match op with
  | .start cfg address hostReady =>
    match e.start cfg address hostReady with
    | .error f => (.refused f, e)
    | .ok e' => (.done, e')
  | .write h data =>
    match e.write h data now with
    | .error f => (.refused f, e)
    | .ok ((version, evicted), e') => (.written version evicted, e')
  | .read h =>
    match e.read h with
    | .error f => (.refused f, e)
    | .ok data => (.bytes data, e)
  | .stamp h =>
    match e.stamp h with
    | .error f => (.refused f, e)
    | .ok (version, origin) => (.stamp version origin, e)
  | .request h =>
    match e.request h with
    | .error f => (.refused f, e)
    | .ok e' => (.done, e')
  | .takeNotice =>
    match e.takeNotice with
    | none => (.notice none, e)
    | some (n, e') => (.notice (some n), e')
  | .signal sig => let (task, e') := e.signal sig now; (.task task, e')
  | .windowRefused => (.done, e.windowRefused)
  | .receive frame => let (r, e') := e.receive frame now; (.received r, e')

/-- The engine after a history. -/
def run (e : Engine) : List (Operation × Nat) → Engine
  | [] => e
  | (op, now) :: rest => run (e.perform op now).2 rest

/-- What the callers were answered, in order. -/
def answers (e : Engine) : List (Operation × Nat) → List Answer
  | [] => []
  | (op, now) :: rest => (e.perform op now).1 :: answers (e.perform op now).2 rest

theorem run_append (e : Engine) (a b : List (Operation × Nat)) : e.run (a ++ b) = (e.run a).run b := by
  induction a generalizing e with
  | nil => rfl
  | cons x rest ih => exact ih _

theorem perform_of_refused {e : Engine} {op : Operation} {now : Nat} {f : Fault}
    (h : (e.perform op now).1 = .refused f) : (e.perform op now).2 = e := by
  cases op with
  | signal sig => nomatch h
  | windowRefused => nomatch h
  | receive frame => nomatch h
  | _ => simp only [perform] at h ⊢; split <;> simp_all

end Engine
end ValueMesh
