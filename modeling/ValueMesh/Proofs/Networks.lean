import ValueMesh.Network
import ValueMesh.Proofs.Driving
import ValueMesh.Proofs.Gossip
/-!
# The rounds of a network

A node hears nothing of what the others do but the frames, so a course leaves each node where its own part of the
course leads (`getElem?_run`), and leaves in flight what the nodes hand out (`mem_frames_run`).  A round of a network
is such a course: first all nodes open, one after the other, then all are given what they hear and close
(`rounds_are_courses`).  So what is proved of any course on one air is proved of the rounds of a network.
-/
namespace ValueMesh

def Engine.handsOut [Jitter] (e : Engine) (history : List (Engine.Operation × Nat)) : List (List UInt8) :=
  (e.answers history).filterMap Air.frame?

theorem Engine.handsOut_nil [Jitter] (e : Engine) : e.handsOut [] = [] := rfl

theorem Engine.handsOut_cons [Jitter] (e : Engine) (op : Engine.Operation) (now : Nat)
    (rest : List (Engine.Operation × Nat)) : e.handsOut ((op, now) :: rest) =
      (Air.frame? (e.perform op now).1).toList ++ (e.perform op now).2.handsOut rest := by
  rw [handsOut, answers, List.filterMap_cons]
  split <;> rename_i sent <;> rw [sent] <;> rfl

theorem Engine.handsOut_append [Jitter] (e : Engine) (first later : List (Engine.Operation × Nat)) :
    e.handsOut (first ++ later) = e.handsOut first ++ (e.run first).handsOut later := by
  induction first generalizing e with
  | nil => rfl
  | cons x rest ih => rw [List.cons_append, handsOut_cons, handsOut_cons, ih, List.append_assoc]; rfl

namespace Air

open Engine (Operation)

variable [Jitter] {a : Air} {frame : List UInt8}

/-! ## What is handed out -/

theorem frame?_of_not_started {e : Engine} {op : Operation} {now : Nat} (other : op ≠ .signal .started) :
    frame? (e.perform op now).1 = none := by
  cases sent : frame? (e.perform op now).1 with
  | none => rfl
  | some frame =>
    obtain ⟨sig, mesh, channel, rfl, opens⟩ := signal_of_frame? sent
    have lends := e.lends_signal sig now
    generalize (e.signal sig now).2 = e' at lends
    generalize (e.signal sig now).1 = task at lends opens
    cases lends with
    | opens => exact absurd rfl other
    | rest | ask | goesOn | closes => cases opens

theorem handsOut_of_not_started {e : Engine} {history : List (Operation × Nat)}
    (silent : ∀ x ∈ history, x.1 ≠ .signal .started) : e.handsOut history = [] := by
  induction history generalizing e with
  | nil => rfl
  | cons x rest ih =>
    obtain ⟨first, later⟩ := List.forall_mem_cons.1 silent
    rw [Engine.handsOut_cons, frame?_of_not_started first, ih later]
    rfl

/-! ## The parts of a course -/

def part (i : Nat) (events : List Event) : List (Operation × Nat) :=
  events.filterMap fun x => if x.node = i then some (x.op, x.now) else none

omit [Jitter] in
theorem part_append (i : Nat) (first later : List Event) : part i (first ++ later) = part i first ++ part i later :=
  List.filterMap_append

omit [Jitter] in
theorem part_cons (i : Nat) (x : Event) (rest : List Event) :
    part i (x :: rest) = if x.node = i then (x.op, x.now) :: part i rest else part i rest := by
  unfold part
  rw [List.filterMap_cons]
  split <;> rename_i hx <;> split at hx <;> cases hx
  · rw [if_neg ‹_›]
  · rw [if_pos ‹_›]

/-- **A course leaves each node where its part of it leads.** -/
theorem getElem?_run (a : Air) (events : List Event) (i : Nat) :
    (a.run events).nodes[i]? = (a.nodes[i]?).map (·.run (part i events)) := by
  induction events generalizing a with
  | nil => exact Option.map_id'.symm ▸ rfl
  | cons x rest ih =>
    rw [run, ih, getElem?_step, Option.map_map, part_cons]
    congr 1
    funext e
    simp only [Function.comp_apply]
    split <;> rfl

/-- **What is in flight after a course was before, or a node handed it out.** -/
theorem mem_frames_run {events : List Event} : frame ∈ (a.run events).frames ↔
    frame ∈ a.frames ∨ ∃ (i : Nat) (e : Engine), a.nodes[i]? = some e ∧ frame ∈ e.handsOut (part i events) := by
  induction events generalizing a with
  | nil => exact (or_iff_left fun ⟨_, _, _, sent⟩ => absurd sent List.not_mem_nil).symm
  | cons x rest ih =>
    rw [run, ih, mem_frames_step, sent?, Option.bind_eq_some_iff, or_comm (b := frame ∈ a.frames), or_assoc]
    refine or_congr_right ⟨?_, ?_⟩
    · rintro (⟨e, he, sent⟩ | ⟨i, e', he', later⟩)
      · refine ⟨x.node, e, he, ?_⟩
        rw [part_cons, if_pos rfl, Engine.handsOut_cons, sent]
        exact List.mem_cons_self
      · rw [getElem?_step] at he'
        obtain ⟨e, he, rfl⟩ := Option.map_eq_some_iff.1 he'
        refine ⟨i, e, he, ?_⟩
        rw [part_cons]
        split at later
        · rw [if_pos ‹_›, Engine.handsOut_cons]
          exact List.mem_append_right _ later
        · rw [if_neg ‹_›]
          exact later
    · rintro ⟨i, e, he, sent⟩
      rw [part_cons] at sent
      split at sent
      · rename_i same
        subst same
        rw [Engine.handsOut_cons, List.mem_append, Option.mem_toList] at sent
        rcases sent with now | later
        · exact Or.inl ⟨e, he, now⟩
        · refine Or.inr ⟨x.node, _, ?_, later⟩
          rw [getElem?_step, he, Option.map_some, if_pos rfl]
      · rename_i other
        refine Or.inr ⟨i, e, ?_, sent⟩
        rw [getElem?_step, he, Option.map_some, if_neg other]

/-- Frames stay in flight, so a course is legal if all it receives is in flight from the start. -/
theorem legal_of_inFlight {permitted : Operation → Prop} {events : List Event}
    (legal : ∀ x ∈ events, permitted x.op ∧ ∀ frame ∈ received? x.op, frame ∈ a.frames) : Legal permitted a events := by
  induction events generalizing a with
  | nil => trivial
  | cons x rest ih =>
    obtain ⟨first, later⟩ := List.forall_mem_cons.1 legal
    refine ⟨first.1, first.2, ih fun y hy => ⟨(later y hy).1, fun frame hf => ?_⟩⟩
    exact mem_frames_step.2 (Or.inr ((later y hy).2 frame hf))

theorem Legal.mono {permitted permitted' : Operation → Prop} {events : List Event} (legal : Legal permitted a events)
    (more : ∀ op, permitted op → permitted' op) : Legal permitted' a events := by
  induction events generalizing a with
  | nil => trivial
  | cons x rest ih => exact ⟨more _ legal.1, legal.2.1, ih legal.2.2⟩

omit [Jitter] in
theorem spares_of_uncalled {op : Operation} (uncalled : op.ofApplication = false) (h : Handle) : Spares h op := by
  cases op with
  | write => cases uncalled
  | _ => trivial

/-- Nodes are gathered by what they hold, if nothing is in flight. -/
theorem gathered_of_held {engines : List Engine} {cfg : Settings} {h : Handle} {b V : Version} {D : List UInt8}
    (ready : ∀ e ∈ engines, e.Reachable ∧ e.settings = .ok cfg)
    (window : ∀ e ∈ engines, ∀ c, e.store.copy? h = some c → c.Compatible b V D) :
    Gathered ⟨engines, []⟩ cfg h b V D := by
  refine ⟨ready, fun c hc => ?_⟩
  obtain ⟨i, hi⟩ := (mem_copies_iff.1 hc).resolve_right fun ⟨_, hf, _⟩ => List.not_mem_nil hf
  obtain ⟨e, he, held⟩ := copyAt?_eq_some_iff.1 hi
  exact window e (List.mem_of_getElem? he) c held

theorem Gathered.forward_uncalled {cfg : Settings} {h : Handle} {b V : Version} {D : List UInt8} {events : List Event}
    {i : Nat} {c : Copy} (hg : a.Gathered cfg h b V D) (legal : Legal (fun op => op.ofApplication = false) a events)
    (hc : a.copyAt? i h = some c) : ∃ c', (a.run events).copyAt? i h = some c' ∧ c'.Compatible b V D ∧
      Version.ahead b c.version ≤ Version.ahead b c'.version := by
  have spares : Legal (Spares h) a events := legal.mono fun _ uncalled => spares_of_uncalled uncalled h
  obtain ⟨c', hc', hle⟩ := hg.forward spares hc
  exact ⟨c', hc', (hg.run spares).held hc', hle⟩

/-! ## One node after the other -/

/-- The nodes from `k` on do their parts, one after the other. -/
def inTurn (k : Nat) : List (List (Operation × Nat)) → List Event
  | [] => []
  | history :: later => history.map (fun x => ⟨k, x.1, x.2⟩) ++ inTurn (k + 1) later

omit [Jitter] in
theorem mem_of_mem_inTurn {x : Event} {k : Nat} {parts : List (List (Operation × Nat))} (hx : x ∈ inTurn k parts) :
    ∃ history ∈ parts, (x.op, x.now) ∈ history := by
  induction parts generalizing k with
  | nil => cases hx
  | cons history later ih =>
    rcases List.mem_append.1 hx with hx | hx
    · obtain ⟨y, hy, rfl⟩ := List.mem_map.1 hx
      exact ⟨history, List.mem_cons_self, hy⟩
    · obtain ⟨history', hp, hx⟩ := ih hx
      exact ⟨history', List.mem_cons_of_mem _ hp, hx⟩

omit [Jitter] in
theorem part_map (i k : Nat) (history : List (Operation × Nat)) :
    part i (history.map fun x => ⟨k, x.1, x.2⟩) = if k = i then history else [] := by
  induction history with
  | nil => split <;> rfl
  | cons x rest ih =>
    rw [List.map_cons, part_cons, ih]
    split <;> rfl

omit [Jitter] in
theorem part_inTurn (i k : Nat) (parts : List (List (Operation × Nat))) :
    part i (inTurn k parts) = if k ≤ i then (parts[i - k]?).getD [] else [] := by
  induction parts generalizing k with
  | nil => rw [List.getElem?_nil]; split <;> rfl
  | cons history later ih =>
    rw [inTurn, part_append, part_map, ih]
    rcases Nat.lt_trichotomy k i with hlt | rfl | hgt
    · obtain ⟨j, rfl⟩ := Nat.exists_eq_add_of_lt hlt
      rw [if_neg (Nat.ne_of_lt hlt), if_pos (Nat.succ_le_of_lt hlt), if_pos (Nat.le_of_lt hlt), List.nil_append,
        show k + j + 1 - k = j + 1 by omega, show k + j + 1 - (k + 1) = j by omega, List.getElem?_cons_succ]
    · rw [if_pos rfl, if_neg (Nat.not_succ_le_self k), if_pos (Nat.le_refl k), Nat.sub_self, List.append_nil]
      rfl
    · rw [if_neg (Nat.ne_of_gt hgt), if_neg (by omega), if_neg (by omega)]
      rfl

theorem legal_inTurn {permitted : Operation → Prop} {parts : List (List (Operation × Nat))}
    (legal : ∀ history ∈ parts, ∀ x ∈ history, permitted x.1 ∧ ∀ frame ∈ received? x.1, frame ∈ a.frames) :
    Legal permitted a (inTurn 0 parts) := by
  refine legal_of_inFlight fun x hx => ?_
  obtain ⟨history, hp, hx⟩ := mem_of_mem_inTurn hx
  exact legal history hp _ hx

/-- **When all do their parts in turn, each is led by its own.** -/
theorem nodes_run_inTurn {parts : List (List (Operation × Nat))} (all : parts.length = a.nodes.length) :
    (a.run (inTurn 0 parts)).nodes = List.zipWith Engine.run a.nodes parts := by
  refine List.ext_getElem? fun i => ?_
  rw [getElem?_run, part_inTurn, if_pos (Nat.zero_le i), Nat.sub_zero, List.getElem?_zipWith]
  cases he : a.nodes[i]? with
  | none => rfl
  | some e =>
    have hi : i < parts.length := all ▸ (List.getElem?_eq_some_iff.1 he).1
    rw [List.getElem?_eq_getElem hi]
    rfl

theorem mem_frames_inTurn {parts : List (List (Operation × Nat))} : frame ∈ (a.run (inTurn 0 parts)).frames ↔
    frame ∈ a.frames ∨ ∃ (i : Nat) (e : Engine) (history : List (Operation × Nat)), a.nodes[i]? = some e ∧
      parts[i]? = some history ∧ frame ∈ e.handsOut history := by
  rw [mem_frames_run]
  refine or_congr_right ⟨?_, ?_⟩
  · rintro ⟨i, e, he, sent⟩
    rw [part_inTurn, if_pos (Nat.zero_le i), Nat.sub_zero] at sent
    cases hp : parts[i]? with
    | none => rw [hp] at sent; cases sent
    | some history =>
      rw [hp] at sent
      exact ⟨i, e, history, he, hp, sent⟩
  · rintro ⟨i, e, history, he, hp, sent⟩
    refine ⟨i, e, he, ?_⟩
    rw [part_inTurn, if_pos (Nat.zero_le i), Nat.sub_zero, hp]
    exact sent

end Air

/-! ## Networks -/

namespace Network

open Air (Legal)
open Engine (Operation)

variable [Jitter] {a : Air}

theorem openWindow_eq (now : Nat) (e : Engine) : openWindow now e =
    (Air.frame? (.task ((e.signal .tick now).2.signal .started now).1),
      ((e.signal .tick now).2.signal .started now).2) := by
  unfold openWindow
  cases (e.signal .tick now).2.signal .started now with
  | mk task e' => cases task <;> rfl

def opening (now : Nat) : List (Operation × Nat) := [(.signal .tick, now), (.signal .started, now)]

def hearing (links : Links) (now : Nat) (frames : List (Nat × List UInt8)) (i : Nat) : List (Operation × Nat) :=
  (frames.filter fun sent => links.carry sent.1 i).map fun sent => (.receive sent.2, now)

theorem handsOut_opening (e : Engine) (now : Nat) : e.handsOut (opening now) = (openWindow now e).1.toList := by
  have quiet : Air.frame? (e.perform (.signal .tick) now).1 = none := Air.frame?_of_not_started nofun
  rw [openWindow_eq, opening, Engine.handsOut_cons, quiet, Option.toList_none, List.nil_append, Engine.handsOut_cons,
    Engine.handsOut_nil, List.append_nil]
  simp only [Engine.perform]

theorem foldl_broadcast (links : Links) (now : Nat) (frames : List (Nat × List UInt8)) (engines : List Engine) :
    frames.foldl (broadcast links now) engines = engines.mapIdx fun i e => e.run (hearing links now frames i) := by
  induction frames generalizing engines with
  | nil => exact (List.mapIdx_eq_iff.2 fun i => (Option.map_id' ▸ rfl)).symm
  | cons sent rest ih =>
    rw [List.foldl_cons, ih, broadcast, List.mapIdx_mapIdx]
    congr 1
    funext i e
    simp only [Function.comp_apply]
    unfold hearing
    rw [List.filter_cons]
    split <;> rfl

def closing (net : Network) (step i : Nat) : List (Operation × Nat) :=
  hearing net.links net.clock.now (net.round step).1 i ++ [(.signal .ended, net.clock.now + step / 2)]

theorem op_of_mem_closing {net : Network} {step i : Nat} {x : Operation × Nat} (hx : x ∈ net.closing step i) :
    x.1 = .signal .ended ∨ ∃ sent ∈ (net.round step).1, x.1 = .receive sent.2 := by
  rcases List.mem_append.1 hx with hx | hx
  · obtain ⟨sent, hs, rfl⟩ := List.mem_map.1 hx
    exact Or.inr ⟨sent, (List.mem_filter.1 hs).1, rfl⟩
  · rw [List.mem_singleton.1 hx]
    exact Or.inl rfl

theorem handsOut_closing (net : Network) (step i : Nat) (e : Engine) : e.handsOut (net.closing step i) = [] := by
  refine Air.handsOut_of_not_started fun x hx => ?_
  rcases op_of_mem_closing hx with ended | ⟨sent, -, received⟩
  · rw [ended]
    exact nofun
  · rw [received]
    exact nofun

/-- The course of a round: all nodes open their windows, then all are given what was sent and close them. -/
def course (net : Network) (step : Nat) : List Air.Event :=
  Air.inTurn 0 (net.engines.map fun _ => opening net.clock.now) ++
    Air.inTurn 0 (net.engines.mapIdx fun i _ => net.closing step i)

theorem mem_round {net : Network} {step i : Nat} {frame : List UInt8} : (i, frame) ∈ (net.round step).1 ↔
    ∃ e : Engine, net.engines[i]? = some e ∧ frame ∈ e.handsOut (opening net.clock.now) := by
  unfold round
  simp only [List.mem_filterMap, Prod.exists, List.mk_mem_zipIdx_iff_getElem?, List.getElem?_map,
    Option.map_eq_some_iff, Prod.mk.injEq, handsOut_opening, Option.mem_toList]
  constructor
  · rintro ⟨sent, e', j, ⟨e, he, hopen⟩, frame', hf, rfl, rfl⟩
    exact ⟨e, he, hopen ▸ hf⟩
  · rintro ⟨e, he, hf⟩
    exact ⟨_, _, i, ⟨e, he, rfl⟩, frame, hf, rfl, rfl⟩

/-- Once all windows are open, what was sent in them is in flight. -/
theorem mem_frames_opening {net : Network} {step : Nat} {frame : List UInt8} (same : a.nodes = net.engines) :
    frame ∈ (a.run (Air.inTurn 0 (net.engines.map fun _ => opening net.clock.now))).frames ↔
      frame ∈ a.frames ∨ ∃ i, (i, frame) ∈ (net.round step).1 := by
  rw [Air.mem_frames_inTurn, same]
  refine or_congr_right (exists_congr fun i => ?_)
  rw [mem_round]
  refine exists_congr fun e => ?_
  constructor
  · rintro ⟨history, he, hp, sent⟩
    rw [List.getElem?_map, he] at hp
    cases hp
    exact ⟨he, sent⟩
  · rintro ⟨he, sent⟩
    refine ⟨_, he, ?_, sent⟩
    rw [List.getElem?_map, he]
    rfl

theorem engines_round (net : Network) (step : Nat) : (net.round step).2.engines =
    List.zipWith Engine.run (List.zipWith Engine.run net.engines (net.engines.map fun _ => opening net.clock.now))
      (net.engines.mapIdx fun i _ => net.closing step i) := by
  show List.map _ (List.foldl _ _ (net.round step).1) = _
  rw [foldl_broadcast]
  refine List.ext_getElem? fun i => ?_
  simp only [List.getElem?_map, List.getElem?_mapIdx, List.getElem?_zipWith]
  cases net.engines[i]? with
  | none => rfl
  | some e =>
    simp only [Option.map_some, closing, opening, Engine.run_append, Engine.run, Engine.perform, openWindow_eq]

theorem round_is_course {net : Network} (same : a.nodes = net.engines) (step : Nat) :
    Legal (fun op => op.ofApplication = false) a (net.course step) ∧
    (a.run (net.course step)).nodes = (net.round step).2.engines ∧
    ∀ frame, frame ∈ (a.run (net.course step)).frames ↔ frame ∈ a.frames ∨ ∃ i, (i, frame) ∈ (net.round step).1 := by
  let opened := a.run (Air.inTurn 0 (net.engines.map fun _ => opening net.clock.now))
  have nodes : opened.nodes =
      List.zipWith Engine.run net.engines (net.engines.map fun _ => opening net.clock.now) := by
    rw [Air.nodes_run_inTurn (by rw [List.length_map, same]), same]
  refine ⟨Air.legal_append.2 ⟨?_, ?_⟩, ?_, fun frame => ?_⟩
  · refine Air.legal_inTurn fun history hp x hx => ?_
    obtain ⟨-, -, rfl⟩ := List.mem_map.1 hp
    simp only [opening, List.mem_cons, List.not_mem_nil, or_false] at hx
    rcases hx with rfl | rfl <;> exact ⟨rfl, nofun⟩
  · refine Air.legal_inTurn fun history hp x hx => ?_
    obtain ⟨i, -, rfl⟩ := List.mem_mapIdx.1 hp
    rcases op_of_mem_closing hx with ended | ⟨sent, hs, received⟩
    · rw [ended]
      exact ⟨rfl, nofun⟩
    · rw [received]
      refine ⟨rfl, fun frame hf => ?_⟩
      cases hf
      exact (mem_frames_opening same).2 (Or.inr ⟨sent.1, hs⟩)
  · rw [course, Air.run_append, Air.nodes_run_inTurn, nodes, engines_round]
    rw [nodes, List.length_zipWith, List.length_map, List.length_mapIdx, Nat.min_self]
  · rw [course, Air.run_append, Air.mem_frames_inTurn, mem_frames_opening same]
    refine or_iff_left ?_
    rintro ⟨i, e, history, -, hp, sent⟩
    rw [List.getElem?_mapIdx] at hp
    obtain ⟨-, -, rfl⟩ := Option.map_eq_some_iff.1 hp
    rw [handsOut_closing] at sent
    cases sent

def courses (step : Nat) : Nat → Network → List Air.Event
  | 0, _ => []
  | n + 1, net => net.course step ++ courses step n (net.round step).2

/-- **The rounds of a network are a course**, which leads its engines where the rounds do and leaves in flight what was
sent in them. -/
theorem rounds_are_courses {net : Network} (same : a.nodes = net.engines) (step n : Nat) :
    Legal (fun op => op.ofApplication = false) a (courses step n net) ∧
    (a.run (courses step n net)).nodes = (net.rounds step n).2.engines ∧
    ∀ frame, frame ∈ (a.run (courses step n net)).frames ↔
      frame ∈ a.frames ∨ ∃ i, ∃ sent ∈ (net.rounds step n).1, (i, frame) ∈ sent := by
  induction n generalizing a net with
  | zero => exact ⟨trivial, same, fun frame => (or_iff_left fun ⟨_, _, hs, _⟩ => nomatch hs).symm⟩
  | succ n ih =>
    obtain ⟨legal, nodes, frames⟩ := round_is_course same step
    obtain ⟨legal', nodes', frames'⟩ := ih nodes
    refine ⟨Air.legal_append.2 ⟨legal, legal'⟩, ?_, fun frame => ?_⟩
    · rw [courses, Air.run_append, nodes']
      rfl
    · rw [courses, Air.run_append, frames', frames, or_assoc, ← exists_or]
      refine or_congr_right (exists_congr fun i => ?_)
      simp only [rounds, List.mem_cons, or_and_right, exists_or, exists_eq_left]

/-- **In the rounds of a network no node goes back.**  Let the nodes run under `cfg`, and their versions of the value of
`h` lie in the window from `b` on, `V` be the newest of them and `D` the bytes of all copies of it.  After any number
of rounds, a node that held a copy holds one that is not further back. -/
theorem no_node_goes_back {net : Network} {cfg : Settings} {h : Handle} {b V : Version} {D : List UInt8}
    (ready : ∀ e ∈ net.engines, e.Reachable ∧ e.settings = .ok cfg)
    (window : ∀ e ∈ net.engines, ∀ c, e.store.copy? h = some c → c.Compatible b V D) (step n i : Nat) {e : Engine}
    {c : Copy} (he : net.engines[i]? = some e) (hc : e.store.copy? h = some c) :
    ∃ e' c', (net.rounds step n).2.engines[i]? = some e' ∧ e'.store.copy? h = some c' ∧ c'.Compatible b V D ∧
      Version.ahead b c.version ≤ Version.ahead b c'.version := by
  obtain ⟨legal, nodes, -⟩ := rounds_are_courses (show (Air.mk net.engines []).nodes = net.engines from rfl) step n
  obtain ⟨c', hc', forward⟩ :=
    (Air.gathered_of_held ready window).forward_uncalled legal (Air.copyAt?_eq_some_iff.2 ⟨e, he, hc⟩)
  obtain ⟨e', he', hc'⟩ := Air.copyAt?_eq_some_iff.1 hc'
  exact ⟨e', c', nodes ▸ he', hc', forward⟩

end Network
end ValueMesh
