import ValueMesh.Node.Operation
import ValueMesh.Proofs.Reachable
/-!
# What a node has its engine do

A node does nothing to its engine but call it.  What happens at a node comes as a list of moments: the calls from
around it, and the signals its interrupts take (`moments`, `course_run`).  Each has the engine do so much (`history`),
and the engine of a node is always what that history makes of it (`engine_run`).  So what is proved of engines holds of
the engines of nodes, and what is done with the devices can be read beside it.

The application of a node echoes what it is told.  One that does anything else then is one that takes its notices
itself, and makes its calls in between.
-/
namespace ValueMesh

/-- Whether an operation is a call of the application; the others come from the radio and its arbiter. -/
def Engine.Operation.ofApplication : Engine.Operation → Bool
  | .start .. | .write .. | .read _ | .stamp _ | .request _ | .takeNotice => true
  | .signal _ | .windowRefused | .receive _ => false

namespace Node

variable [Jitter] {n : Node}

/-! ## Calls -/

theorem write_of_ok {n' : Node} {h : Handle} {data : List UInt8} {version : Version}
    (hw : n.write h data = .ok (version, n')) :
    n' = { n with engine := (n.engine.perform (.write h data) n.clock.now).2 } := by
  unfold write at hw
  cases he : n.engine.write h data n.clock.now with
  | error f => rw [he] at hw; cases hw
  | ok p =>
    obtain ⟨⟨v, evicted⟩, e⟩ := p
    rw [he] at hw
    cases hw
    rw [Engine.perform_write_of_ok he]

theorem write_of_error {h : Handle} {data : List UInt8} {f : Fault} (hw : n.write h data = .error f) :
    (n.engine.perform (.write h data) n.clock.now).2 = n.engine := by
  unfold write at hw
  cases he : n.engine.write h data n.clock.now with
  | error f => simp only [Engine.perform, he]
  | ok p => rw [he] at hw; cases hw

theorem takeNotice_of_some {n' : Node} {notice : Notice} (ht : n.takeNotice = some (notice, n')) :
    n' = { n with engine := (n.engine.perform .takeNotice n.clock.now).2 } := by
  obtain ⟨⟨notice', e⟩, he, hn⟩ := Option.map_eq_some_iff.1 ht
  cases hn
  simp only [Engine.perform, he]

theorem takeNotice_of_none (ht : n.takeNotice = none) :
    (n.engine.perform .takeNotice n.clock.now).2 = n.engine := by
  simp only [Engine.perform, Option.map_eq_none_iff.1 ht]

def echoing (n : Node) (notice : Notice) : List (Engine.Operation × Nat) :=
  (n.listener.echoTarget notice).toList.map fun target => (.write target notice.data, n.clock.now)

theorem tell_eq (n : Node) (notice : Notice) :
    ∃ listener, n.tell notice = { n with engine := n.engine.run (n.echoing notice), listener } := by
  unfold tell echoing
  cases n.listener.echoTarget notice with
  | none => exact ⟨_, rfl⟩
  | some target =>
    simp only [Option.toList_some, List.map_cons, List.map_nil, Engine.run]
    split
    · rename_i f hw
      rw [write_of_error hw]
      exact ⟨_, rfl⟩
    · rename_i version n' hw
      rw [write_of_ok hw]
      exact ⟨_, rfl⟩

def polling (n : Node) : List (Engine.Operation × Nat) :=
  (.takeNotice, n.clock.now) ::
    match _h : n.takeNotice with
    | none => []
    | some (notice, n') => n'.echoing notice ++ (n'.tell notice).polling
termination_by n.backlog
decreasing_by exact Nat.lt_of_le_of_lt (backlog_tell_le n' notice) (backlog_of_takeNotice _h)

theorem poll_of_none (ht : n.takeNotice = none) : n.poll = (0, n) := by
  rw [poll]
  split
  · rfl
  · rename_i hs
    cases ht.symm.trans hs

theorem poll_of_some {n' : Node} {notice : Notice} (ht : n.takeNotice = some (notice, n')) :
    n.poll = ((n'.tell notice).poll.1 + 1, (n'.tell notice).poll.2) := by
  rw [poll]
  split
  · rename_i hs
    cases ht.symm.trans hs
  · rename_i hs
    cases ht.symm.trans hs
    rfl

theorem polling_of_none (ht : n.takeNotice = none) : n.polling = [(.takeNotice, n.clock.now)] := by
  rw [polling]
  split
  · rfl
  · rename_i hs
    cases ht.symm.trans hs

theorem polling_of_some {n' : Node} {notice : Notice} (ht : n.takeNotice = some (notice, n')) :
    n.polling = (.takeNotice, n.clock.now) :: (n'.echoing notice ++ (n'.tell notice).polling) := by
  rw [polling]
  split
  · rename_i hs
    cases ht.symm.trans hs
  · rename_i hs
    cases ht.symm.trans hs
    rfl

theorem poll_eq (n : Node) : ∃ listener, n.poll.2 = { n with engine := n.engine.run n.polling, listener } := by
  induction n using poll.induct with
  | case1 n ht =>
    rw [poll_of_none ht, polling_of_none ht, Engine.run, takeNotice_of_none ht]
    exact ⟨_, rfl⟩
  | case2 n notice n' ht _ _ _ ih =>
    obtain ⟨_, told⟩ := tell_eq n' notice
    obtain ⟨_, last⟩ := ih
    rw [poll_of_some ht, polling_of_some ht, Engine.run, Engine.run_append]
    rw [last, told, takeNotice_of_some ht]
    exact ⟨_, rfl⟩

theorem start_of_ok {n' : Node} {cfg : Settings} (hs : n.start cfg = .ok n') : ∃ attributes host,
    n' = { n with
      engine := (n.engine.perform (.start cfg n.host.address true) n.clock.now).2
      attributes
      host } := by
  unfold start at hs
  cases up : n.engine.isUp with
  | true => simp only [up, if_true] at hs; cases hs
  | false =>
    simp only [up, Bool.false_eq_true, if_false] at hs
    obtain ⟨_, -, hs⟩ := bind_eq_ok_iff.1 hs
    cases on : n.host.enabled with
    | false => simp only [on] at hs; cases hs
    | true =>
      simp only [on, Bool.not_true, Bool.false_eq_true, if_false] at hs
      obtain ⟨⟨attributes, host⟩, hr, hs⟩ := bind_eq_ok_iff.1 hs
      obtain ⟨engine, he, hs⟩ := bind_eq_ok_iff.1 hs
      cases hs
      have same : host.address = n.host.address := by
        unfold Device.Host.register at hr
        simp only [on, Bool.not_true, Bool.false_eq_true, if_false] at hr
        split at hr <;> cases hr
        rfl
      simp only [Engine.perform, ← same, he]
      exact ⟨_, _, rfl⟩

def starting (n : Node) (cfg : Settings) : List (Engine.Operation × Nat) :=
  match n.start cfg with
  | .error _ => []
  | .ok _ => [(.start cfg n.host.address true, n.clock.now)]

theorem start_eq (n : Node) (cfg : Settings) : ∃ attributes host,
    (n.settle (n.start cfg)).2 = { n with engine := n.engine.run (n.starting cfg), attributes, host } := by
  unfold starting
  cases hs : n.start cfg with
  | error f => exact ⟨_, _, rfl⟩
  | ok n' => exact start_of_ok hs

def reporting (n : Node) (event : HostReport) : List (Engine.Operation × Nat) :=
  match n.attributes, event with
  | some table, .attributeWrite attr data =>
    match table.locate attr with
    | .value h => [(.write h data, n.clock.now)]
    | .outside | .unmapped => []
  | _, _ => []

theorem hostReport_eq (n : Node) (event : HostReport) : ∃ attributes,
    (n.settle (n.hostReport event)).2 = { n with engine := n.engine.run (n.reporting event), attributes } := by
  unfold hostReport reporting
  cases n.attributes with
  | none => exact ⟨_, rfl⟩
  | some table =>
    cases event with
    | connected | disconnected | other => exact ⟨_, rfl⟩
    | attributeWrite attr data =>
      simp only
      cases table.locate attr with
      | outside | unmapped => exact ⟨_, rfl⟩
      | value h =>
        simp only [Engine.run]
        cases hw : n.write h data with
        | error f => rw [write_of_error hw]; exact ⟨_, rfl⟩
        | ok p => exact ⟨_, write_of_ok hw⟩

def calling (n : Node) : Operation → List (Engine.Operation × Nat)
  | .start cfg => n.starting cfg
  | .startImage =>
    match Parameters.image.settings with
    | .error _ => []
    | .ok cfg => n.starting cfg
  | .write h data => [(.write h data, n.clock.now)]
  | .read h => [(.read h, n.clock.now)]
  | .request h => [(.request h, n.clock.now)]
  | .poll => n.polling
  | .takeNotice => [(.takeNotice, n.clock.now)]
  | .hostReport event => n.reporting event
  | .interrupt | .raise _ | .inject _ | .spoil | .pollFlags | .clearSent | .enableHost _ | .limitHost _
  | .refuseWindows _ | .enableArbiter _ | .failTune _ | .failTransmit _ | .failListen _ | .advanceClock _
  | .setClock _ => []

theorem ofApplication_of_mem_echoing {notice : Notice} {x : Engine.Operation × Nat} (hx : x ∈ n.echoing notice) :
    x.1.ofApplication = true := by
  obtain ⟨target, -, rfl⟩ := List.mem_map.1 hx
  rfl

theorem ofApplication_of_mem_polling {x : Engine.Operation × Nat} (hx : x ∈ n.polling) : x.1.ofApplication = true := by
  induction n using poll.induct with
  | case1 n ht =>
    rw [polling_of_none ht] at hx
    rw [List.mem_singleton.1 hx]
    rfl
  | case2 n notice n' ht _ _ _ ih =>
    rw [polling_of_some ht, List.mem_cons, List.mem_append] at hx
    rcases hx with rfl | hecho | hlater
    · rfl
    · exact ofApplication_of_mem_echoing hecho
    · exact ih hlater

/-- In a call the engine does what the application asks of it, and nothing else. -/
theorem ofApplication_of_mem_calling {op : Operation} {x : Engine.Operation × Nat} (hx : x ∈ n.calling op) :
    x.1.ofApplication = true := by
  have starts : ∀ cfg, x ∈ n.starting cfg → x.1.ofApplication = true := by
    intro cfg hc
    unfold starting at hc
    split at hc
    · cases hc
    · rw [List.mem_singleton.1 hc]
      rfl
  cases op with
  | start cfg => exact starts cfg hx
  | startImage =>
    simp only [calling] at hx
    split at hx
    · cases hx
    · exact starts _ hx
  | write | read | request | takeNotice =>
    rw [List.mem_singleton.1 hx]
    rfl
  | poll => exact ofApplication_of_mem_polling hx
  | hostReport event =>
    simp only [calling, reporting] at hx
    split at hx
    · split at hx
      · rw [List.mem_singleton.1 hx]
        rfl
      · cases hx
      · cases hx
    · cases hx
  | _ => cases hx

def radioAfter (r : Device.Radio) : Operation → Device.Radio
  | .inject frame => r.inject frame
  | .spoil => r.spoil
  | .pollFlags => r.pollFlags.2
  | .clearSent => r.clearSent
  | _ => r

def outageAfter (o : Outage) : Operation → Outage
  | .failTune on => { o with tune := on }
  | .failTransmit on => { o with transmit := on }
  | .failListen on => { o with listen := on }
  | _ => o

/-- **A call has the engine do its part, and leaves the radio to what goes on around it.** -/
theorem call_eq (n : Node) {op : Operation} (between : op ≠ .interrupt) :
    ∃ attributes arbiter host clock listener, (n.perform op).2 = ⟨n.engine.run (n.calling op), attributes,
      radioAfter n.radio op, outageAfter n.outage op, arbiter, host, clock, listener⟩ := by
  cases op with
  | interrupt => exact absurd rfl between
  | start cfg =>
    obtain ⟨_, _, started⟩ := start_eq n cfg
    exact ⟨_, _, _, _, _, started⟩
  | startImage =>
    simp only [perform, startImage, calling]
    cases Parameters.image.settings with
    | error f => exact ⟨_, _, _, _, _, rfl⟩
    | ok cfg =>
      obtain ⟨_, _, started⟩ := start_eq n cfg
      exact ⟨_, _, _, _, _, started⟩
  | write h data =>
    simp only [perform, calling, Engine.run]
    split
    · rename_i hw
      rw [write_of_error hw]
      exact ⟨_, _, _, _, _, rfl⟩
    · rename_i hw
      rw [write_of_ok hw]
      exact ⟨_, _, _, _, _, rfl⟩
  | read h =>
    simp only [calling, Engine.run, Engine.perform_read_snd, perform]
    split <;> exact ⟨_, _, _, _, _, rfl⟩
  | request h =>
    simp only [perform, calling, Engine.run, Engine.perform, request]
    cases n.engine.request h <;> exact ⟨_, _, _, _, _, rfl⟩
  | poll =>
    obtain ⟨_, last⟩ := poll_eq n
    simp only [perform, calling, last]
    exact ⟨_, _, _, _, _, rfl⟩
  | takeNotice =>
    simp only [perform, calling, Engine.run]
    split
    · rename_i ht
      rw [takeNotice_of_none ht]
      exact ⟨_, _, _, _, _, rfl⟩
    · rename_i ht
      rw [takeNotice_of_some ht]
      exact ⟨_, _, _, _, _, rfl⟩
  | hostReport event =>
    obtain ⟨_, reported⟩ := hostReport_eq n event
    exact ⟨_, _, _, _, _, reported⟩
  | _ => exact ⟨_, _, _, _, _, rfl⟩

/-! ## Signals -/

def collecting (n : Node) : List (Engine.Operation × Nat) :=
  (n.radio.received.take maxFrames).map fun frame => (.receive (frame.take maxFrameBytes), n.clock.now)

theorem readSome_eq (k : Nat) (n : Node) : readSome k n = { n with
    radio := { n.radio with received := n.radio.received.drop k }
    engine := n.engine.run
      ((n.radio.received.take k).map fun frame => (.receive (frame.take maxFrameBytes), n.clock.now)) } := by
  induction k generalizing n with
  | zero => rfl
  | succ k ih =>
    unfold readSome Device.Radio.nextFrame
    cases hr : n.radio.received with
    | nil =>
      have same : ({ n.radio with received := [] } : Device.Radio) = n.radio := by rw [← hr]
      simp only [List.drop_nil, List.take_nil, List.map_nil, Engine.run, same]
    | cons frame rest =>
      simp only [ih]
      rfl

theorem takeReceived_eq (n : Node) : n.takeReceived = { n with
    radio := { n.radio with received := n.radio.received.drop maxFrames, flags := .quiet }
    engine := n.engine.run n.collecting } := by
  unfold takeReceived Device.Radio.pollFlags
  simp only [readSome_eq]
  split
  · rfl
  · rename_i hflags
    -- Nothing is flagged, so nothing waits.
    have hnone : n.radio.received = [] := by
      simp only [Bool.or_eq_true, not_or, Bool.not_eq_true', Bool.not_eq_false, List.isEmpty_iff] at hflags
      exact hflags.2
    simp only [collecting, hnone, List.take_nil, List.drop_nil, List.map_nil, Engine.run]

/-- The node when its engine is told of a signal: what the radio received is taken in ahead of a closing one. -/
def ahead (n : Node) (sig : Signal) : Node := if closes sig then n.takeReceived else n

theorem ahead_eq (n : Node) (sig : Signal) : ∃ received flags, n.ahead sig = { n with
    radio := { n.radio with received, flags }
    engine := n.engine.run (if closes sig then n.collecting else []) } := by
  unfold ahead
  split
  · exact ⟨_, _, n.takeReceived_eq⟩
  · exact ⟨_, _, rfl⟩

def task (n : Node) (sig : Signal) : RadioTask := ((n.ahead sig).engine.signal sig (n.ahead sig).clock.now).1

/-- The node once its engine was told of a signal, with the task still to be carried out. -/
def signalled (n : Node) (sig : Signal) : Node :=
  { n.ahead sig with engine := ((n.ahead sig).engine.signal sig (n.ahead sig).clock.now).2 }

theorem handleSignal_eq (n : Node) (sig : Signal) : n.handleSignal sig = (n.signalled sig).carryOut (n.task sig) := rfl

def upkeep (n : Node) : RadioTask → List (Engine.Operation × Nat)
  | .listen => n.collecting
  | .requestWindow length =>
    match n.arbiter.request length with
    | .ok _ => []
    | .error _ => [(.windowRefused, n.clock.now)]
  | .none | .openWindow .. | .close => []

/-- Only how the radio is set up and what it sent may differ. -/
def SetsUp (n n' : Node) : Prop :=
  ∃ tuning listening sent flags, n' = { n with radio := ⟨tuning, listening, sent, n.radio.received, flags⟩ }

theorem SetsUp.refl (n : Node) : n.SetsUp n := ⟨_, _, _, _, rfl⟩

theorem SetsUp.trans {n₁ n₂ n₃ : Node} (first : n₁.SetsUp n₂) (second : n₂.SetsUp n₃) : n₁.SetsUp n₃ := by
  obtain ⟨_, _, _, _, rfl⟩ := first
  obtain ⟨_, _, _, _, rfl⟩ := second
  exact ⟨_, _, _, _, rfl⟩

theorem setsUp_tune (n : Node) (t : Device.Tuning) : n.SetsUp (n.orSame (n.tune t)) := by
  unfold tune Device.Radio.tune
  split
  · exact .refl n
  · split
    · exact .refl n
    · exact ⟨_, _, _, _, rfl⟩

theorem setsUp_transmit (n : Node) (frame : List UInt8) : n.SetsUp (n.orSame (n.transmit frame)) := by
  unfold transmit Device.Radio.transmit
  split
  · exact .refl n
  · split
    · exact .refl n
    · split
      · exact .refl n
      · exact ⟨_, _, _, _, rfl⟩

theorem setsUp_listen (n : Node) : n.SetsUp (n.orSame n.listen) := by
  unfold listen Device.Radio.listen
  split
  · exact .refl n
  · split
    · exact .refl n
    · exact ⟨_, _, _, _, rfl⟩

theorem setsUp_openWindow (n : Node) (mesh : UInt32) (channel : UInt8) (frame : Option (List UInt8)) :
    n.SetsUp (n.carryOut (.openWindow mesh channel frame)) := by
  have tuned := n.setsUp_tune ⟨mesh, channel⟩
  simp only [carryOut]
  cases ht : n.tune ⟨mesh, channel⟩ with
  | error f => exact .refl n
  | ok n' =>
    rw [ht] at tuned
    cases frame with
    | none => exact tuned.trans n'.setsUp_listen
    | some bytes => exact (tuned.trans (n'.setsUp_transmit bytes)).trans (setsUp_listen _)

def prepared (n : Node) : RadioTask → Node
  | .listen => n.takeReceived
  | .requestWindow length =>
    match n.arbiter.request length with
    | .ok arbiter => { n with arbiter }
    | .error _ => { n with engine := n.engine.windowRefused }
  | .close => { n with radio := n.radio.disable }
  | .none | .openWindow .. => n

theorem setsUp_carryOut (n : Node) (task : RadioTask) : (n.prepared task).SetsUp (n.carryOut task) := by
  cases task with
  | none => exact .refl n
  | requestWindow length => exact .refl _
  | openWindow mesh channel frame => exact n.setsUp_openWindow mesh channel frame
  | listen => exact n.takeReceived.setsUp_listen
  | close => exact .refl _

theorem engine_carryOut (n : Node) (task : RadioTask) : (n.carryOut task).engine = n.engine.run (n.upkeep task) := by
  obtain ⟨_, _, _, _, carried⟩ := n.setsUp_carryOut task
  rw [carried]
  cases task with
  | none | openWindow | close => rfl
  | listen => exact congrArg Node.engine n.takeReceived_eq
  | requestWindow length =>
    simp only [prepared, upkeep]
    cases n.arbiter.request length <;> rfl

def handling (n : Node) (sig : Signal) : List (Engine.Operation × Nat) :=
  (if closes sig then n.collecting else []) ++
    (.signal sig, n.clock.now) :: (n.signalled sig).upkeep (n.task sig)

theorem engine_handleSignal (n : Node) (sig : Signal) :
    (n.handleSignal sig).engine = n.engine.run (n.handling sig) := by
  obtain ⟨_, _, before⟩ := n.ahead_eq sig
  have told : (n.signalled sig).engine = ((n.ahead sig).engine.perform (.signal sig) (n.ahead sig).clock.now).2 := rfl
  rw [handleSignal_eq, engine_carryOut, told, before, handling, Engine.run_append, Engine.run]

/-! ## Moments -/

/-- One thing that happens at a node, with the node as it is then. -/
inductive Moment
  /-- A call, or something from around the node. -/
  | call (n : Node) (op : Operation)
  /-- An interrupt takes a signal. -/
  | signal (n : Node) (sig : Signal)

def signals : Nat → Node → List Moment
  | 0, _ => []
  | k + 1, n =>
    match n.arbiter.poll with
    | none => []
    | some (sig, arbiter) => .signal { n with arbiter } sig :: signals k ({ n with arbiter }.handleSignal sig)

def momentsOf (n : Node) : Operation → List Moment
  | .interrupt => signals maxSignals n
  | op => [.call n op]

def moments (n : Node) : List Operation → List Moment
  | [] => []
  | op :: rest => n.momentsOf op ++ moments (n.perform op).2 rest

theorem signal_of_mem_signals {k : Nat} {moment : Moment} (hm : moment ∈ signals k n) :
    ∃ n' sig, moment = .signal n' sig := by
  induction k generalizing n with
  | zero => cases hm
  | succ k ih =>
    unfold signals at hm
    split at hm
    · cases hm
    · rcases List.mem_cons.1 hm with rfl | hm
      · exact ⟨_, _, rfl⟩
      · exact ih hm

theorem moment_cases {ops : List Operation} {moment : Moment} (hm : moment ∈ n.moments ops) :
    (∃ n' op, op ∈ ops ∧ moment = .call n' op) ∨ ∃ n' sig, moment = .signal n' sig := by
  induction ops generalizing n with
  | nil => cases hm
  | cons op rest ih =>
    rcases List.mem_append.1 hm with hop | hrest
    · cases op with
      | interrupt => exact Or.inr (signal_of_mem_signals hop)
      | _ => exact Or.inl ⟨n, _, List.mem_cons_self, List.mem_singleton.1 hop⟩
    · exact (ih hrest).imp_left fun ⟨n', op', ho, hs⟩ => ⟨n', op', List.mem_cons_of_mem _ ho, hs⟩

inductive Course : Node → List Moment → Node → Prop
  | done (n : Node) : Course n [] n
  | call {n n' : Node} {op : Operation} {rest : List Moment} (between : op ≠ .interrupt)
      (later : Course (n.perform op).2 rest n') : Course n (.call n op :: rest) n'
  | signal {n n' : Node} {sig : Signal} {arbiter : Device.Arbiter} {rest : List Moment}
      (raised : n.arbiter.poll = some (sig, arbiter))
      (later : Course ({ n with arbiter }.handleSignal sig) rest n') :
      Course n (.signal { n with arbiter } sig :: rest) n'

theorem Course.append {n₁ n₂ n₃ : Node} {a b : List Moment} (first : Course n₁ a n₂) (second : Course n₂ b n₃) :
    Course n₁ (a ++ b) n₃ := by
  induction first with
  | done => exact second
  | call between _ ih => exact .call between (ih second)
  | signal raised _ ih => exact .signal raised (ih second)

theorem course_signals (k : Nat) (n : Node) : Course n (signals k n) (handleSignals k n) := by
  induction k generalizing n with
  | zero => exact .done n
  | succ k ih =>
    unfold signals handleSignals
    cases hp : n.arbiter.poll with
    | none => exact .done n
    | some p => exact .signal hp (ih _)

theorem course_perform (n : Node) (op : Operation) : Course n (n.momentsOf op) (n.perform op).2 := by
  cases op with
  | interrupt => exact course_signals maxSignals n
  | _ => exact .call nofun (.done _)

/-- **What happens at a node leads from the node before to the node after.** -/
theorem course_run (n : Node) (ops : List Operation) : Course n (n.moments ops) (n.run ops) := by
  induction ops generalizing n with
  | nil => exact .done n
  | cons op rest ih => exact (course_perform n op).append (ih _)

def Moment.history : Moment → List (Engine.Operation × Nat)
  | .call n op => n.calling op
  | .signal n sig => n.handling sig

def history (n : Node) (ops : List Operation) : List (Engine.Operation × Nat) :=
  (n.moments ops).flatMap Moment.history

theorem Course.engine {n' : Node} {moments : List Moment} (course : Course n moments n') :
    n'.engine = n.engine.run (moments.flatMap Moment.history) := by
  induction course with
  | done => rfl
  | call between later ih =>
    obtain ⟨_, _, _, _, _, called⟩ := call_eq _ between
    rw [ih, called, List.flatMap_cons, Engine.run_append]
    rfl
  | signal raised later ih =>
    rw [ih, engine_handleSignal, List.flatMap_cons, Engine.run_append]
    rfl

/-- **A node does nothing to its engine but call it.** -/
theorem engine_run (n : Node) (ops : List Operation) : (n.run ops).engine = n.engine.run (n.history ops) :=
  (course_run n ops).engine

end Node
end ValueMesh
