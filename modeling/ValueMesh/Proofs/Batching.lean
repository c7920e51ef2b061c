import ValueMesh.Proofs.Driving
import ValueMesh.Proofs.Running
/-!
# Signals in batches

An interrupt takes eight signals at most and leaves the rest to the next.  Handling one neither looks at those that
wait behind it nor touches them (`handleSignal_waiting`), so it is all the same whether they are there already.  What an
interrupt comes to is that the first eight are handled one after the other (`handleSignals_waiting`), and what
interrupts come to until none waits is that all are, in order, as if each had come alone (`batches_do_not_matter`).
-/
namespace ValueMesh

theorem Device.Arbiter.request_signals (a : Arbiter) (sigs : List Signal) (length : Nat) :
    Arbiter.request { a with signals := sigs } length =
      (a.request length).map fun a' => { a' with signals := sigs } := by
  unfold request
  simp only
  split
  · rfl
  split
  · rfl
  split
  · rfl
  · rfl

namespace Node

section

variable [Jitter] {n : Node} {sigs : List Signal}

/-! ## Signals that wait -/

def waiting (n : Node) (sigs : List Signal) : Node := { n with arbiter := { n.arbiter with signals := sigs } }

theorem waiting_of_quiet (quiet : n.arbiter.signals = []) : n.waiting [] = n := by
  rw [waiting, ← quiet]

/-- A call of the radio goes the same way, whatever signals wait. -/
theorem radioCall_waiting (n : Node) (sigs : List Signal) (fails : Bool)
    (call : Except Device.RadioFault Device.Radio) :
    (if fails then .error .notOwned else call.map fun radio => { n.waiting sigs with radio }) =
      (if fails then .error .notOwned else call.map fun radio => { n with radio }).map (·.waiting sigs) := by
  cases fails with
  | true => rfl
  | false => cases call <;> rfl

theorem tune_waiting (n : Node) (sigs : List Signal) (t : Device.Tuning) :
    (n.waiting sigs).tune t = (n.tune t).map (·.waiting sigs) := n.radioCall_waiting ..

theorem transmit_waiting (n : Node) (sigs : List Signal) (frame : List UInt8) :
    (n.waiting sigs).transmit frame = (n.transmit frame).map (·.waiting sigs) := n.radioCall_waiting ..

theorem listen_waiting (n : Node) (sigs : List Signal) :
    (n.waiting sigs).listen = n.listen.map (·.waiting sigs) := n.radioCall_waiting ..

theorem orSame_waiting (n : Node) (sigs : List Signal) (call : Except Device.RadioFault Node) :
    (n.waiting sigs).orSame (call.map (·.waiting sigs)) = (n.orSame call).waiting sigs := by
  cases call <;> rfl

theorem startListening_waiting (n : Node) (sigs : List Signal) :
    (n.waiting sigs).orSame (n.waiting sigs).listen = (n.orSame n.listen).waiting sigs := by
  rw [listen_waiting, orSame_waiting]

theorem takeReceived_waiting (n : Node) (sigs : List Signal) :
    (n.waiting sigs).takeReceived = n.takeReceived.waiting sigs := by
  rw [takeReceived_eq, takeReceived_eq]
  rfl

theorem carryOut_waiting (n : Node) (sigs : List Signal) (task : RadioTask) :
    (n.waiting sigs).carryOut task = (n.carryOut task).waiting sigs := by
  cases task with
  | none | close => rfl
  | requestWindow length =>
    simp only [carryOut]
    rw [waiting, Device.Arbiter.request_signals]
    cases n.arbiter.request length <;> rfl
  | openWindow mesh channel frame =>
    simp only [carryOut, tune_waiting]
    cases n.tune ⟨mesh, channel⟩ with
    | error f => rfl
    | ok tuned =>
      cases frame with
      | none => exact tuned.startListening_waiting sigs
      | some bytes =>
        simp only [Except.map]
        rw [transmit_waiting, orSame_waiting, startListening_waiting]
  | listen =>
    simp only [carryOut]
    rw [takeReceived_waiting, startListening_waiting]

/-- **Handling a signal neither looks at the signals that wait nor touches them.** -/
theorem handleSignal_waiting (n : Node) (sigs : List Signal) (sig : Signal) :
    (n.waiting sigs).handleSignal sig = (n.handleSignal sig).waiting sigs := by
  have ahead : (n.waiting sigs).ahead sig = (n.ahead sig).waiting sigs := by
    unfold ahead
    split
    · exact n.takeReceived_waiting sigs
    · rfl
  have task : (n.waiting sigs).task sig = n.task sig := by
    rw [Node.task, ahead]
    rfl
  have signalled : (n.waiting sigs).signalled sig = (n.signalled sig).waiting sigs := by
    rw [Node.signalled, ahead]
    rfl
  rw [handleSignal_eq, task, signalled, carryOut_waiting, ← handleSignal_eq]

/-! ## Interrupts -/

/-- **An interrupt handles the signals it takes, one after the other.** -/
theorem handleSignals_waiting (k : Nat) (n : Node) (sigs : List Signal) :
    handleSignals k (n.waiting sigs) = ((sigs.take k).foldl handleSignal n).waiting (sigs.drop k) := by
  induction k generalizing n sigs with
  | zero => rfl
  | succ k ih =>
    cases sigs with
    | nil => rfl
    | cons sig rest =>
      show handleSignals k ((n.waiting rest).handleSignal sig) = _
      rw [handleSignal_waiting, ih]
      rfl

theorem run_raise (n : Node) (sigs : List Signal) :
    n.run (sigs.map .raise) = n.waiting (n.arbiter.signals ++ sigs) := by
  induction sigs generalizing n with
  | nil =>
    rw [List.append_nil]
    rfl
  | cons sig rest ih =>
    show (n.raise sig).run (rest.map .raise) = _
    rw [ih, List.append_cons]
    rfl

theorem run_interrupts (k : Nat) (n : Node) (sigs : List Signal) :
    (n.waiting sigs).run (List.replicate k .interrupt) =
      ((sigs.take (8 * k)).foldl handleSignal n).waiting (sigs.drop (8 * k)) := by
  induction k generalizing n sigs with
  | zero => rfl
  | succ k ih =>
    rw [List.replicate_succ, Nat.mul_succ, Nat.add_comm, List.take_add, List.foldl_append, ← List.drop_drop, ← ih]
    show (handleSignals 8 (n.waiting sigs)).run _ = _
    rw [handleSignals_waiting]

def oneByOne (sigs : List Signal) : List Operation := sigs.flatMap fun sig => [.raise sig, .interrupt]

theorem run_oneByOne (n : Node) (sigs : List Signal) :
    (n.waiting []).run (oneByOne sigs) = (sigs.foldl handleSignal n).waiting [] := by
  induction sigs generalizing n with
  | nil => rfl
  | cons sig rest ih =>
    show (handleSignals 8 (n.waiting [sig])).run (oneByOne rest) = _
    rw [handleSignals_waiting]
    exact ih (n.handleSignal sig)

/-! ## Which signals are taken -/

def Moment.signal? : Moment → Option Signal
  | .call .. => none
  | .signal _ sig => some sig

def handled (n : Node) (ops : List Operation) : List Signal := (n.moments ops).filterMap Moment.signal?

theorem moments_append (n : Node) (a b : List Operation) : n.moments (a ++ b) = n.moments a ++ (n.run a).moments b := by
  induction a generalizing n with
  | nil => rfl
  | cons op rest ih =>
    rw [List.cons_append, moments, moments, ih, List.append_assoc]
    rfl

theorem handled_append (n : Node) (a b : List Operation) : n.handled (a ++ b) = n.handled a ++ (n.run a).handled b := by
  rw [handled, moments_append, List.filterMap_append]
  rfl

theorem signals_waiting (k : Nat) (n : Node) (sigs : List Signal) :
    (signals k (n.waiting sigs)).filterMap Moment.signal? = sigs.take k := by
  induction k generalizing n sigs with
  | zero => rfl
  | succ k ih =>
    cases sigs with
    | nil => rfl
    | cons sig rest =>
      show sig :: (signals k ((n.waiting rest).handleSignal sig)).filterMap Moment.signal? = _
      rw [handleSignal_waiting, ih]
      rfl

theorem handled_interrupt (n : Node) : n.handled [.interrupt] = n.arbiter.signals.take 8 := by
  rw [← signals_waiting 8 n n.arbiter.signals]
  exact congrArg (List.filterMap _) (List.append_nil _)

theorem handled_raise (n : Node) (sigs : List Signal) : n.handled (sigs.map .raise) = [] := by
  induction sigs generalizing n with
  | nil => rfl
  | cons sig rest ih => exact ih (n.raise sig)

theorem handled_interrupts (k : Nat) (n : Node) (sigs : List Signal) :
    (n.waiting sigs).handled (List.replicate k .interrupt) = sigs.take (8 * k) := by
  induction k generalizing n sigs with
  | zero => rfl
  | succ k ih =>
    rw [List.replicate_succ, ← List.singleton_append, handled_append, handled_interrupt, Nat.mul_succ, Nat.add_comm,
      List.take_add]
    show _ ++ (handleSignals 8 (n.waiting sigs)).handled _ = _
    rw [handleSignals_waiting, ih]
    rfl

theorem handled_oneByOne (n : Node) (sigs : List Signal) : (n.waiting []).handled (oneByOne sigs) = sigs := by
  induction sigs generalizing n with
  | nil => rfl
  | cons sig rest ih =>
    show (n.waiting []).handled ([.raise sig, .interrupt] ++ oneByOne rest) = _
    rw [handled_append]
    show (n.waiting [sig]).handled [.interrupt] ++ (handleSignals 8 (n.waiting [sig])).handled (oneByOne rest) = _
    rw [handled_interrupt, handleSignals_waiting]
    exact congrArg (sig :: ·) (ih (n.handleSignal sig))

/-- **Batches do not matter.**  Take a node in any state in which no signal waits, up or not, with whatever frames
received and devices failing, and let any signals be raised before an interrupt comes.  Each interrupt then handles the
first eight of those that are left, so none waits just from the interrupt on that takes the last; every signal is
handled once and in order; and the node is afterwards, with its engine, its radio and the windows it asked for, as if
each signal had come with an interrupt of its own.  The clock stands still in all this.  The machine follows an engine
that came about in some history either way, unless the clock is past `Machine.latest`. -/
theorem batches_do_not_matter (quiet : n.arbiter.signals = []) (sigs : List Signal) :
    let after (calls : Nat) := n.run (sigs.map .raise ++ List.replicate calls .interrupt)
    let calls := (sigs.length + 7) / 8
    (∀ k, (after k).arbiter.signals = sigs.drop (8 * k) ∧
      (after k).handled [.interrupt] = (sigs.drop (8 * k)).take 8 ∧
      ((after k).handled [.interrupt]).length = min 8 (after k).arbiter.signals.length) ∧
    (∀ k, (after k).arbiter.signals = [] ↔ calls ≤ k) ∧
    n.handled (sigs.map .raise ++ List.replicate calls .interrupt) = sigs ∧ n.handled (oneByOne sigs) = sigs ∧
    after calls = n.run (oneByOne sigs) ∧
    (n.engine.Reachable → n.engine.Followed (n.history (sigs.map .raise ++ List.replicate calls .interrupt)) ∧
      n.engine.Followed (n.history (oneByOne sigs))) := by
  intro after calls
  have raised : n.run (sigs.map .raise) = n.waiting sigs := by
    rw [run_raise, quiet]
    rfl
  have reached : ∀ k, after k = ((sigs.take (8 * k)).foldl handleSignal n).waiting (sigs.drop (8 * k)) := by
    intro k
    show n.run (_ ++ _) = _
    rw [run_append, raised, run_interrupts]
  have left : ∀ k, (after k).arbiter.signals = sigs.drop (8 * k) := by
    intro k
    rw [reached]
    rfl
  have enough : sigs.length ≤ 8 * calls := by omega
  refine ⟨fun k => ⟨left k, ?_, ?_⟩, fun k => ?_, ?_, ?_, ?_, fun hr => ⟨hr.followed _, hr.followed _⟩⟩
  · rw [handled_interrupt, left]
  · rw [handled_interrupt, List.length_take]
  · rw [left, List.drop_eq_nil_iff]
    omega
  · rw [handled_append, handled_raise, raised, handled_interrupts, List.take_of_length_le enough]
    rfl
  · rw [← waiting_of_quiet quiet]
    exact handled_oneByOne n sigs
  · rw [reached, List.take_of_length_le enough, List.drop_of_length_le enough, ← run_oneByOne, waiting_of_quiet quiet]

end

/-- Seventeen signals are raised at a node with a value to send and a frame received: two interrupts leave the last of
them, and after the third the node is as if they had come one by one.  Five windows were asked for, and two opened. -/
theorem batches_of_seventeen_signals_do_not_matter :
    let n := (create ⟨0x11, 0, 0, 0, 0, 0⟩ 0 none).run
      [.start ⟨0x8E89BED6, 38, 10, 100⟩, .write 3 [7], .inject [1, 2, 3], .advanceClock 60000]
    let sigs : List Signal := [.tick, .started, .radio, .tick, .ended, .tick, .denied, .ended, .radio, .tick, .started,
      .started, .denied, .tick, .radio, .denied, .tick]
    n.arbiter.signals = [] ∧
    (n.run (sigs.map .raise ++ List.replicate 2 .interrupt)).arbiter.signals = [.tick] ∧
    n.run (sigs.map .raise ++ List.replicate 3 .interrupt) = n.run (oneByOne sigs) ∧
    (n.run (oneByOne sigs)).arbiter.requests.length = 5 ∧ (n.run (oneByOne sigs)).engine.session.granted = 2 := by
  intro n sigs
  have quiet : n.arbiter.signals = [] := by decide +kernel
  have last : sigs.drop (8 * 2) = [.tick] := rfl
  have three : (sigs.length + 7) / 8 = 3 := by decide
  refine ⟨quiet, ?_, ?_, by decide +kernel, by decide +kernel⟩
  · clear_value n sigs
    obtain ⟨left, -⟩ := batches_do_not_matter quiet sigs
    exact (left 2).1.trans last
  · clear_value n sigs
    obtain ⟨-, -, -, -, same, -⟩ := batches_do_not_matter quiet sigs
    rw [three] at same
    exact same

end Node
end ValueMesh
