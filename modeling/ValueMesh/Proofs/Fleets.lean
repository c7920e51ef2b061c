import ValueMesh.Fleet
import ValueMesh.Proofs.Collecting
import ValueMesh.Proofs.Networks
/-!
# The windows of a fleet

A radio makes no frames: what it sends the engine handed out (`mem_sent_run`), and what it gives the engine it received,
as far as the buffer holds it (`comes_run`).  So what nodes do whose radios receive only what is in flight is a course
of their engines (`OnAir.operate`), and a window of a fleet is one (`windows_are_courses`).
-/
namespace ValueMesh

theorem Engine.mem_handed_of_receive [Jitter] {e : Engine} {history : List (Engine.Operation × Nat)}
    {x : Engine.Operation × Nat} {frame : List UInt8} (hx : x ∈ history) (received : x.1 = .receive frame) :
    ∃ h ∈ e.handed history, h.frame = frame := by
  induction history generalizing e with
  | nil => cases hx
  | cons y rest ih =>
    rw [handed, along, List.flatMap_cons]
    rcases List.mem_cons.1 hx with rfl | hx
    · refine ⟨⟨e, frame, x.2⟩, List.mem_append_left _ ?_, rfl⟩
      rw [received]
      exact List.mem_singleton_self _
    · obtain ⟨h, hh, same⟩ := ih hx
      exact ⟨h, List.mem_append_right _ hh, same⟩

theorem Air.receive_of_received? {op : Engine.Operation} {frame : List UInt8} (received : received? op = some frame) :
    op = .receive frame := by
  cases op with
  | receive frame => cases received; rfl
  | _ => cases received

/-! ## Nodes -/

namespace Node

variable [Jitter] {n n' : Node} {frame : List UInt8}

theorem sent_tune (n : Node) (t : Device.Tuning) : (n.orSame (n.tune t)).radio.sent = n.radio.sent := by
  unfold tune Device.Radio.tune
  split
  · rfl
  · split <;> rfl

theorem sent_listen (n : Node) : (n.orSame n.listen).radio.sent = n.radio.sent := by
  unfold listen Device.Radio.listen
  split
  · rfl
  · split <;> rfl

theorem mem_sent_transmit {bytes : List UInt8} (sent : frame ∈ (n.orSame (n.transmit bytes)).radio.sent) :
    frame ∈ n.radio.sent ∨ frame.length ≤ maxFrameBytes ∧ frame = bytes := by
  unfold transmit Device.Radio.transmit at sent
  split at sent
  · exact Or.inl sent
  · split at sent
    · exact Or.inl sent
    · split at sent
      · exact Or.inl sent
      · rename_i fits
        refine (List.mem_append.1 sent).imp_right fun now => ?_
        cases List.mem_singleton.1 now
        exact ⟨Nat.not_lt.1 fits, rfl⟩

/-- A radio sends what the engine hands out, if anything. -/
theorem mem_sent_carryOut {task : RadioTask} (sent : frame ∈ (n.carryOut task).radio.sent) :
    frame ∈ n.radio.sent ∨ frame.length ≤ maxFrameBytes ∧ Air.frame? (.task task) = some frame := by
  cases task with
  | none | close => exact Or.inl sent
  | requestWindow length =>
    refine Or.inl ?_
    simp only [carryOut] at sent
    split at sent <;> exact sent
  | listen =>
    refine Or.inl ?_
    rw [carryOut, sent_listen, takeReceived_eq] at sent
    exact sent
  | openWindow mesh channel out =>
    have tuned := n.sent_tune ⟨mesh, channel⟩
    simp only [carryOut] at sent
    cases ht : n.tune ⟨mesh, channel⟩ with
    | error f => rw [ht] at sent; exact Or.inl sent
    | ok n' =>
      rw [ht] at sent tuned
      replace tuned : n'.radio.sent = n.radio.sent := tuned
      cases out with
      | none =>
        rw [sent_listen, tuned] at sent
        exact Or.inl sent
      | some bytes =>
        rw [sent_listen] at sent
        rcases mem_sent_transmit sent with before | ⟨fits, rfl⟩
        · exact Or.inl (tuned ▸ before)
        · exact Or.inr ⟨fits, rfl⟩

theorem mem_sent_handleSignal {sig : Signal} (sent : frame ∈ (n.handleSignal sig).radio.sent) :
    frame ∈ n.radio.sent ∨ frame.length ≤ maxFrameBytes ∧ frame ∈ n.engine.handsOut (n.handling sig) := by
  obtain ⟨_, _, before⟩ := n.ahead_eq sig
  rw [handleSignal_eq] at sent
  rcases mem_sent_carryOut sent with kept | ⟨fits, out⟩
  · rw [signalled, before] at kept
    exact Or.inl kept
  · rw [task, before] at out
    refine Or.inr ⟨fits, ?_⟩
    rw [handling, Engine.handsOut_append, Engine.handsOut_cons]
    refine List.mem_append_right _ (List.mem_append_left _ (Option.mem_toList.2 ?_))
    exact out

theorem Course.mem_sent {moments : List Moment} (course : Course n moments n') (sent : frame ∈ n'.radio.sent) :
    frame ∈ n.radio.sent ∨
      frame.length ≤ maxFrameBytes ∧ frame ∈ n.engine.handsOut (moments.flatMap Moment.history) := by
  induction course with
  | done => exact Or.inl sent
  | call between later ih =>
    rename_i n n' op rest
    obtain ⟨_, _, _, _, _, called⟩ := call_eq n between
    rw [List.flatMap_cons, Engine.handsOut_append]
    rcases ih sent with before | ⟨fits, out⟩
    · rw [called] at before
      refine Or.inl ?_
      cases op with
      | clearSent => cases before
      | _ => exact before
    · rw [called] at out
      exact Or.inr ⟨fits, List.mem_append_right _ out⟩
  | signal raised later ih =>
    rename_i n n' sig arbiter rest
    rw [List.flatMap_cons, Engine.handsOut_append]
    rcases ih sent with before | ⟨fits, out⟩
    · exact (mem_sent_handleSignal before).imp_right fun ⟨fits, out⟩ => ⟨fits, List.mem_append_left _ out⟩
    · rw [engine_handleSignal] at out
      exact Or.inr ⟨fits, List.mem_append_right _ out⟩

/-- **A radio makes no frame to send**: what it sent under some operations it had sent before, or the engine handed it
out. -/
theorem mem_sent_run {ops : List Operation} (sent : frame ∈ (n.run ops).radio.sent) : frame ∈ n.radio.sent ∨
    frame.length ≤ maxFrameBytes ∧ frame ∈ n.engine.handsOut (n.history ops) :=
  (course_run n ops).mem_sent sent

def Comes (n : Node) (ops : List Operation) (frame : List UInt8) : Prop :=
  frame ∈ n.radio.received ∨ .inject frame ∈ ops

theorem inject_of_mem_arrivals {ops : List Operation} {came : Arrival} (hc : came ∈ n.arrivals ops) :
    .inject came.frame ∈ ops := by
  obtain ⟨moment, hm, hc⟩ := List.mem_flatMap.1 hc
  rcases moment_cases hm with ⟨n', op, hop, rfl⟩ | ⟨n', sig, rfl⟩
  · cases op with
    | inject => cases List.mem_singleton.1 hc; exact hop
    | _ => cases hc
  · cases hc

/-- **A radio makes no frame it received**: what it gives the engine under some operations, as far as the buffer holds
it, and what waits after them waited before or came. -/
theorem comes_run (n : Node) (ops : List Operation) :
    (∀ frame ∈ (n.run ops).radio.received, n.Comes ops frame) ∧
    ∀ h ∈ n.handed ops, ∃ frame, n.Comes ops frame ∧ h.frame = frame.take maxFrameBytes := by
  have waits : n.Collected False [] (n.radio.received.map fun frame => ⟨frame, false⟩) [] :=
    ⟨by rw [List.map_map]; exact (List.map_id _).symm, .nil, False.elim⟩
  obtain ⟨read, waiting, split, after⟩ := (course_run n ops).collected False.elim waits
  have comes : ∀ came ∈ read ++ waiting, n.Comes ops came.frame := by
    intro came hc
    rw [← split, List.nil_append, List.mem_append] at hc
    rcases hc with waited | arrived
    · obtain ⟨frame, hf, rfl⟩ := List.mem_map.1 waited
      exact Or.inl hf
    · exact Or.inr (inject_of_mem_arrivals arrived)
  refine ⟨fun frame hf => ?_, fun h hh => ?_⟩
  · rw [after.received] at hf
    obtain ⟨came, hc, rfl⟩ := List.mem_map.1 hf
    exact comes came (List.mem_append_right _ hc)
  · rw [List.nil_append] at after
    obtain ⟨i, hi, rfl⟩ := List.getElem_of_mem hh
    have hi' : i < read.length := after.given.length_eq.symm ▸ hi
    exact ⟨_, comes _ (List.mem_append_left _ (List.getElem_mem hi')), (after.given.get hi' hi).1⟩

theorem receive_of_mem_history {ops : List Operation} {x : Engine.Operation × Nat} (hx : x ∈ n.history ops)
    (received : x.1 = .receive frame) : ∃ came, n.Comes ops came ∧ frame = came.take maxFrameBytes := by
  obtain ⟨h, hh, rfl⟩ := Engine.mem_handed_of_receive (e := n.engine) hx received
  exact (n.comes_run ops).2 h hh

/-- Without a call, the engine does what the radio and its arbiter have it do. -/
theorem ofApplication_of_mem_history {ops : List Operation} (uncalled : ∀ op ∈ ops, ∀ n : Node, n.calling op = [])
    {x : Engine.Operation × Nat} (hx : x ∈ n.history ops) : x.1.ofApplication = false := by
  have ofCollecting : ∀ n : Node, x ∈ n.collecting → x.1.ofApplication = false := by
    intro n hc
    obtain ⟨-, -, rfl⟩ := List.mem_map.1 hc
    rfl
  obtain ⟨moment, hm, hx⟩ := List.mem_flatMap.1 hx
  rcases moment_cases hm with ⟨n', op, hop, rfl⟩ | ⟨n', sig, rfl⟩
  · rw [Moment.history, uncalled op hop] at hx
    cases hx
  · rw [Moment.history, handling, List.mem_append, List.mem_cons] at hx
    rcases hx with ahead | rfl | kept
    · split at ahead
      · exact ofCollecting n' ahead
      · cases ahead
    · rfl
    · rcases op_of_mem_upkeep kept with refused | ⟨-, frame, received⟩
      · rw [refused]
        rfl
      · rw [received]
        rfl

end Node

/-! ## Fleets -/

namespace Fleet

open Air (Legal)

variable [Jitter] {f : Fleet} {a : Air}

/-- The engines are on the air, and what the radios hold is in flight. -/
structure OnAir (f : Fleet) (a : Air) : Prop where
  nodes : a.nodes = f.nodes.map (·.engine)
  received : ∀ n ∈ f.nodes, ∀ frame ∈ n.radio.received, frame.take maxFrameBytes ∈ a.frames
  sent : ∀ n ∈ f.nodes, ∀ frame ∈ n.radio.sent, frame.length ≤ maxFrameBytes ∧ frame ∈ a.frames

def operate (f : Fleet) (ops : Nat → List Node.Operation) : Fleet :=
  { f with nodes := f.nodes.mapIdx fun i n => n.run (ops i) }

def operating (f : Fleet) (ops : Nat → List Node.Operation) : List Air.Event :=
  Air.inTurn 0 (f.nodes.mapIdx fun i n => n.history (ops i))

theorem exists_of_mem_operate {ops : Nat → List Node.Operation} {n' : Node} (hn : n' ∈ (f.operate ops).nodes) :
    ∃ (i : Nat) (n : Node), f.nodes[i]? = some n ∧ n' = n.run (ops i) := by
  obtain ⟨i, hi, rfl⟩ := List.mem_mapIdx.1 hn
  exact ⟨i, _, List.getElem?_eq_getElem hi, rfl⟩

theorem nodes_operating (same : a.nodes = f.nodes.map (·.engine)) (ops : Nat → List Node.Operation) :
    (a.run (f.operating ops)).nodes = (f.operate ops).nodes.map (·.engine) := by
  rw [operating, Air.nodes_run_inTurn (by rw [same, List.length_map, List.length_mapIdx]), same]
  refine List.ext_getElem? fun i => ?_
  simp only [Fleet.operate, List.getElem?_zipWith, List.getElem?_map, List.getElem?_mapIdx]
  cases f.nodes[i]? with
  | none => rfl
  | some n => exact congrArg some (n.engine_run (ops i)).symm

theorem OnAir.inFlight_of_comes {ops : Nat → List Node.Operation} {i : Nat} {n : Node} {frame : List UInt8}
    (on : f.OnAir a) (inFlight : ∀ i frame, .inject frame ∈ ops i → frame.take maxFrameBytes ∈ a.frames)
    (hn : f.nodes[i]? = some n) (comes : n.Comes (ops i) frame) : frame.take maxFrameBytes ∈ a.frames := by
  rcases comes with waits | injected
  · exact on.received n (List.mem_of_getElem? hn) frame waits
  · exact inFlight i frame injected

/-- **What nodes do is a course**, as long as their radios receive only what is in flight. -/
theorem OnAir.operate {ops : Nat → List Node.Operation} {permitted : Engine.Operation → Prop} (on : f.OnAir a)
    (permits : ∀ i, ∀ n : Node, ∀ x ∈ n.history (ops i), permitted x.1)
    (inFlight : ∀ i frame, .inject frame ∈ ops i → frame.take maxFrameBytes ∈ a.frames) :
    Legal permitted a (f.operating ops) ∧ (f.operate ops).OnAir (a.run (f.operating ops)) := by
  have stays : ∀ {frame}, frame ∈ a.frames → frame ∈ (a.run (f.operating ops)).frames :=
    fun hf => Air.mem_frames_run.2 (Or.inl hf)
  refine ⟨Air.legal_inTurn fun history hp x hx => ?_, nodes_operating on.nodes ops, ?_, ?_⟩
  · obtain ⟨i, hi, rfl⟩ := List.mem_mapIdx.1 hp
    refine ⟨permits i _ x hx, fun frame hf => ?_⟩
    obtain ⟨came, comes, rfl⟩ := Node.receive_of_mem_history hx (Air.receive_of_received? hf)
    exact on.inFlight_of_comes inFlight (List.getElem?_eq_getElem hi) comes
  · intro n' hn frame hf
    obtain ⟨i, n, hi, rfl⟩ := exists_of_mem_operate hn
    exact stays (on.inFlight_of_comes inFlight hi ((n.comes_run (ops i)).1 frame hf))
  · intro n' hn frame hf
    obtain ⟨i, n, hi, rfl⟩ := exists_of_mem_operate hn
    rcases Node.mem_sent_run hf with before | ⟨fits, out⟩
    · obtain ⟨fits, hf⟩ := on.sent n (List.mem_of_getElem? hi) frame before
      exact ⟨fits, stays hf⟩
    · refine ⟨fits, Air.mem_frames_inTurn.2 (Or.inr ⟨i, n.engine, _, ?_, ?_, out⟩)⟩
      · rw [on.nodes, List.getElem?_map, hi]
        rfl
      · rw [List.getElem?_mapIdx, hi]
        rfl

theorem OnAir.operate_uncalled {ops : Nat → List Node.Operation} (on : f.OnAir a)
    (uncalled : ∀ i, ∀ op ∈ ops i, ∀ n : Node, n.calling op = [])
    (inFlight : ∀ i frame, .inject frame ∈ ops i → frame.take maxFrameBytes ∈ a.frames) :
    Legal (fun op => op.ofApplication = false) a (f.operating ops) ∧
    (f.operate ops).OnAir (a.run (f.operating ops)) :=
  on.operate (fun i _ _ hx => Node.ofApplication_of_mem_history (uncalled i) hx) inFlight

def opening : List Node.Operation := [.raise .tick, .raise .started, .interrupt]

def hearing (links : Links) (frames : List (Nat × List UInt8)) (i : Nat) : List Node.Operation :=
  (frames.filter fun sent => links.carry sent.1 i).map fun sent => .inject sent.2

def closing (links : Links) (step : Nat) (frames : List (Nat × List UInt8)) (i : Nat) : List Node.Operation :=
  .clearSent :: hearing links frames i ++ [.raise .radio, .raise .ended, .interrupt, .advanceClock step]

theorem foldl_broadcast (links : Links) (frames : List (Nat × List UInt8)) (nodes : List Node) :
    frames.foldl (broadcast links) nodes = nodes.mapIdx fun i n => n.run (hearing links frames i) := by
  induction frames generalizing nodes with
  | nil => exact (List.mapIdx_eq_iff.2 fun i => (Option.map_id' ▸ rfl)).symm
  | cons sent rest ih =>
    rw [List.foldl_cons, ih, broadcast, List.mapIdx_mapIdx]
    congr 1
    funext i n
    simp only [Function.comp_apply]
    unfold hearing
    rw [List.filter_cons]
    split <;> rfl

theorem window_eq (f : Fleet) (step : Nat) : (f.window step).2 =
    (f.operate fun _ => opening).operate (closing f.links step (f.window step).1) := by
  show Fleet.mk (List.map _ (List.foldl _ _ (f.window step).1)) f.links = _
  rw [foldl_broadcast]
  unfold Fleet.operate
  congr 1
  refine List.ext_getElem? fun i => ?_
  simp only [List.getElem?_map, List.getElem?_mapIdx]
  cases f.nodes[i]? with
  | none => rfl
  | some n =>
    simp only [Option.map_some, closing, List.cons_append, Node.run, Node.run_append]
    rfl

theorem mem_sent_window {step : Nat} {sent : Nat × List UInt8} (hs : sent ∈ (f.window step).1) :
    ∃ n ∈ (f.operate fun _ => opening).nodes, sent.2 ∈ n.radio.sent := by
  obtain ⟨⟨n, i⟩, hn, hs⟩ := List.mem_flatMap.1 hs
  obtain ⟨frame, hf, rfl⟩ := List.mem_map.1 hs
  refine ⟨n, ?_, hf⟩
  obtain ⟨n₀, h₀, rfl⟩ := List.mem_map.1 (List.mem_of_getElem? (List.mem_zipIdx_iff_getElem?.1 hn))
  obtain ⟨i, hi, rfl⟩ := List.getElem_of_mem h₀
  exact List.mem_mapIdx.2 ⟨i, hi, rfl⟩

theorem op_of_mem_opening {op : Node.Operation} (hop : op ∈ opening) :
    (∀ n : Node, n.calling op = []) ∧ ∀ frame, op ≠ .inject frame := by
  simp only [opening, List.mem_cons, List.not_mem_nil, or_false] at hop
  rcases hop with rfl | rfl | rfl <;> exact ⟨fun _ => rfl, nofun⟩

theorem op_of_mem_closing {links : Links} {step i : Nat} {frames : List (Nat × List UInt8)} {op : Node.Operation}
    (hop : op ∈ closing links step frames i) :
    (∀ n : Node, n.calling op = []) ∧ ∀ frame, op = .inject frame → ∃ sent ∈ frames, frame = sent.2 := by
  rcases List.mem_append.1 hop with hop | hop
  · rcases List.mem_cons.1 hop with rfl | hop
    · exact ⟨fun _ => rfl, nofun⟩
    · obtain ⟨sent, hs, rfl⟩ := List.mem_map.1 hop
      refine ⟨fun _ => rfl, fun frame hf => ⟨sent, (List.mem_filter.1 hs).1, ?_⟩⟩
      cases hf
      rfl
  · simp only [List.mem_cons, List.not_mem_nil, or_false] at hop
    rcases hop with rfl | rfl | rfl | rfl <;> exact ⟨fun _ => rfl, nofun⟩

def course (f : Fleet) (step : Nat) : List Air.Event :=
  f.operating (fun _ => opening) ++
    (f.operate fun _ => opening).operating (closing f.links step (f.window step).1)

theorem window_is_course (on : f.OnAir a) (step : Nat) :
    Legal (fun op => op.ofApplication = false) a (f.course step) ∧
    (f.window step).2.OnAir (a.run (f.course step)) ∧
    ∀ sent ∈ (f.window step).1, sent.2 ∈ (a.run (f.course step)).frames := by
  let opened := a.run (f.operating fun _ => opening)
  obtain ⟨opens, on'⟩ : _ ∧ (f.operate fun _ => opening).OnAir opened := on.operate_uncalled
    (fun _ _ hop => (op_of_mem_opening hop).1) fun _ _ hop => absurd rfl ((op_of_mem_opening hop).2 _)
  have flies : ∀ sent ∈ (f.window step).1, sent.2.length ≤ maxFrameBytes ∧ sent.2 ∈ opened.frames := by
    intro sent hs
    obtain ⟨n, hn, hf⟩ := mem_sent_window hs
    exact on'.sent n hn sent.2 hf
  have inFlight : ∀ i frame, .inject frame ∈ closing f.links step (f.window step).1 i →
      frame.take maxFrameBytes ∈ opened.frames := by
    intro i frame hop
    obtain ⟨sent, hs, rfl⟩ := (op_of_mem_closing hop).2 frame rfl
    obtain ⟨fits, hf⟩ := flies sent hs
    rw [List.take_of_length_le fits]
    exact hf
  obtain ⟨closes, on''⟩ := on'.operate_uncalled (fun _ _ hop => (op_of_mem_closing hop).1) inFlight
  refine ⟨Air.legal_append.2 ⟨opens, closes⟩, ?_, fun sent hs => ?_⟩
  · rw [course, Air.run_append, window_eq]
    exact on''
  · rw [course, Air.run_append]
    exact Air.mem_frames_run.2 (Or.inl (flies sent hs).2)

def courses (step : Nat) : Nat → Fleet → List Air.Event
  | 0, _ => []
  | k + 1, f => f.course step ++ courses step k (f.window step).2

/-- **The windows of a fleet are a course**, which leads its engines where the windows do; what is sent in them and
what waits in the radios after them is in flight. -/
theorem windows_are_courses (on : f.OnAir a) (step k : Nat) :
    Legal (fun op => op.ofApplication = false) a (courses step k f) ∧
    (f.windows step k).2.OnAir (a.run (courses step k f)) ∧
    ∀ sent ∈ (f.windows step k).1.flatten, sent.2 ∈ (a.run (courses step k f)).frames := by
  induction k generalizing a f with
  | zero => exact ⟨trivial, on, nofun⟩
  | succ k ih =>
    obtain ⟨legal, on', frames⟩ := window_is_course on step
    obtain ⟨legal', on'', frames'⟩ := ih on'
    rw [courses, Air.run_append]
    refine ⟨Air.legal_append.2 ⟨legal, legal'⟩, on'', fun sent hs => ?_⟩
    rw [windows, List.flatten_cons, List.mem_append] at hs
    rcases hs with hs | hs
    · exact Air.mem_frames_run.2 (Or.inl (frames sent hs))
    · exact frames' sent hs

/-- Nodes that were just switched on are on the air, with nothing in flight. -/
theorem onAir_of_idle (idle : ∀ n ∈ f.nodes, n.radio = .idle) : f.OnAir ⟨f.nodes.map (·.engine), []⟩ := by
  refine ⟨rfl, fun n hn frame hf => ?_, fun n hn frame hf => ?_⟩
  · rw [idle n hn] at hf
    cases hf
  · rw [idle n hn] at hf
    cases hf

/-- **In the windows of a fleet no node goes back**, where the radios are idle at first. -/
theorem no_node_goes_back {cfg : Settings} {h : Handle} {b V : Version} {D : List UInt8}
    (idle : ∀ n ∈ f.nodes, n.radio = .idle) (ready : ∀ n ∈ f.nodes, n.engine.Reachable ∧ n.engine.settings = .ok cfg)
    (window : ∀ n ∈ f.nodes, ∀ c, n.engine.store.copy? h = some c → c.Compatible b V D) (step k i : Nat) {n : Node}
    {c : Copy} (hn : f.nodes[i]? = some n) (hc : n.engine.store.copy? h = some c) :
    ∃ n' c', (f.windows step k).2.nodes[i]? = some n' ∧ n'.engine.store.copy? h = some c' ∧ c'.Compatible b V D ∧
      Version.ahead b c.version ≤ Version.ahead b c'.version := by
  obtain ⟨legal, on, -⟩ := windows_are_courses (onAir_of_idle idle) step k
  have gathered : Air.Gathered ⟨f.nodes.map (·.engine), []⟩ cfg h b V D :=
    Air.gathered_of_held (List.forall_mem_map.2 ready) (List.forall_mem_map.2 window)
  obtain ⟨c', hc', forward⟩ :=
    gathered.forward_uncalled legal (Air.copyAt?_eq_some_iff.2 ⟨n.engine, by rw [List.getElem?_map, hn]; rfl, hc⟩)
  obtain ⟨e', he', hc'⟩ := Air.copyAt?_eq_some_iff.1 hc'
  rw [on.nodes, List.getElem?_map] at he'
  obtain ⟨n', hn', rfl⟩ := Option.map_eq_some_iff.1 he'
  exact ⟨n', c', hn', hc', forward⟩

end Fleet
end ValueMesh
