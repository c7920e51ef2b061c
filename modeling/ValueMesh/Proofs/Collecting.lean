import Mathlib.Data.List.Forall2
import ValueMesh.Proofs.Ownership
import ValueMesh.Proofs.Telling
/-!
# From the radio to the engine

The frames that the radio receives wait there until an interrupt takes them in, eight at a time at most: ahead of a
signal that closes a window, whether one is open or not, and when the radio reports something in a window.  They are
taken in order and each once, as far as the buffer holds them.  The engine only listens in a window, though.  A frame
that came in a window is heard in one as long as no window is closed with more frames waiting than are taken in ahead
of that (`frames_of_windows_are_heard`); the ninth is left for the next signal, and that may find no window open
(`ninth_frame_of_a_window_is_lost`).

A frame that fits the buffer is to a node what it is to its engine, and so is almost any other
(`frame_is_received_as_far_as_the_buffer_holds_it`).  But one that goes on after a good frame is read as if it ended
there (`frame_with_a_byte_too_many_is_taken_for_a_good_one`).
-/
namespace ValueMesh
namespace Engine

variable [Jitter] {e : Engine}

/-! ## Frames given to an engine -/

structure Handover where
  engine : Engine
  frame : List UInt8
  now : Nat

def Handover.reception (h : Handover) : Reception := (h.engine.receive h.frame h.now).1

def handover? (e : Engine) (op : Operation) (now : Nat) : Option Handover :=
  match op with
  | .receive frame => some ⟨e, frame, now⟩
  | _ => none

def handed (e : Engine) (history : List (Operation × Nat)) : List Handover :=
  (e.along handover? history).flatMap (·.toList)

theorem handed_append (e : Engine) (a b : List (Operation × Nat)) :
    e.handed (a ++ b) = e.handed a ++ (e.run a).handed b := by
  rw [handed, along_append, List.flatMap_append]
  rfl

theorem handed_of_no_receive {history : List (Operation × Nat)}
    (silent : ∀ x ∈ history, ∀ frame, x.1 ≠ .receive frame) : e.handed history = [] := by
  induction history generalizing e with
  | nil => rfl
  | cons x rest ih =>
    obtain ⟨first, later⟩ := List.forall_mem_cons.1 silent
    have hx : e.handover? x.1 x.2 = none := by
      unfold handover?
      split
      · rename_i frame hop
        exact absurd hop (first frame)
      · rfl
    rw [handed, along, List.flatMap_cons, hx]
    exact ih later

theorem reception_ne_notListening {frame : List UInt8} (isOpen : e.session.inWindow = true) (now : Nat) :
    (e.receive frame now).1 ≠ .notListening := by
  have outcome := e.receives frame now
  generalize e.receive frame now = p at outcome
  cases outcome with
  | closed closed => rw [isOpen] at closed; cases closed
  | heard hears =>
    unfold hearCopy
    simp only
    split <;> exact nofun
  | unreadable | outOfRange | ignored | served => exact nofun

theorem signal_radio_of_inWindow (isOpen : e.session.inWindow = true) (now : Nat) :
    e.signal .radio now = (.listen, e) := by
  obtain ⟨⟨active, denied, granted⟩, store, inbox, timetable, address, malformed, transmitted, accepted⟩ := e
  match active, isOpen with
  | some (_, .opened _), _ => rfl

theorem signal_eq_listen_iff (e : Engine) (sig : Signal) (now : Nat) :
    (e.signal sig now).1 = .listen ↔ sig = .radio ∧ e.session.inWindow = true := by
  constructor
  · intro listens
    have lends := lends_signal e sig now
    rw [listens] at lends
    generalize (e.signal sig now).2 = e' at lends
    cases lends with
    | goesOn lent =>
      rw [← Session.isSome_lent?, lent]
      exact ⟨rfl, rfl⟩
  · rintro ⟨rfl, isOpen⟩
    rw [signal_radio_of_inWindow isOpen]

end Engine

namespace Node

open Engine (Handover)

section

variable [Jitter] {n n' : Node}

/-! ## What a signal takes in -/

theorem inWindow_ahead (n : Node) (sig : Signal) :
    (n.ahead sig).engine.session.inWindow = n.engine.session.inWindow := by
  unfold ahead
  split
  · exact n.sameWindow_takeReceived.inWindow
  · rfl

theorem task_eq_listen_iff (n : Node) (sig : Signal) :
    n.task sig = .listen ↔ sig = .radio ∧ n.engine.session.inWindow = true := by
  rw [task, Engine.signal_eq_listen_iff, inWindow_ahead]

def collects (n : Node) (sig : Signal) : Bool := closes sig || (sig == .radio && n.engine.session.inWindow)

theorem op_of_mem_upkeep {task : RadioTask} {x : Engine.Operation × Nat} (hx : x ∈ n.upkeep task) :
    x.1 = .windowRefused ∨ task = .listen ∧ ∃ frame, x.1 = .receive frame := by
  cases task with
  | none | openWindow | close => cases hx
  | listen =>
    obtain ⟨frame, -, rfl⟩ := List.mem_map.1 hx
    exact Or.inr ⟨rfl, _, rfl⟩
  | requestWindow length =>
    simp only [upkeep] at hx
    split at hx
    · cases hx
    · rw [List.mem_singleton.1 hx]
      exact Or.inl rfl

theorem received_carryOut (n : Node) (task : RadioTask) : (n.carryOut task).radio.received =
    if task = .listen then n.radio.received.drop maxFrames else n.radio.received := by
  obtain ⟨_, _, _, _, carried⟩ := n.setsUp_carryOut task
  rw [carried]
  cases task with
  | none | openWindow | close => rfl
  | listen => exact congrArg (·.radio.received) n.takeReceived_eq
  | requestWindow length =>
    simp only [prepared]
    cases n.arbiter.request length <;> rfl

theorem signalled_radio_of_inWindow (isOpen : n.engine.session.inWindow = true) : n.signalled .radio = n := by
  show { n with engine := (n.engine.signal .radio n.clock.now).2 } = n
  rw [Engine.signal_radio_of_inWindow isOpen]

/-- **A signal that takes frames in gives the engine those that are collected, and any other none.** -/
theorem handed_handling (n : Node) (sig : Signal) :
    n.engine.handed (n.handling sig) = (if n.collects sig then n.engine.handed n.collecting else []) ∧
    (n.handleSignal sig).radio.received =
      if n.collects sig then n.radio.received.drop maxFrames else n.radio.received := by
  have silent : n.task sig ≠ .listen → ∀ e : Engine,
      e.handed ((.signal sig, n.clock.now) :: (n.signalled sig).upkeep (n.task sig)) = [] := by
    refine fun other e => Engine.handed_of_no_receive (List.forall_mem_cons.2 ⟨fun _ => nofun, fun x hx frame => ?_⟩)
    rcases op_of_mem_upkeep hx with refused | ⟨listens, -⟩
    · rw [refused]
      exact nofun
    · exact absurd listens other
  rw [handleSignal_eq, received_carryOut, handling]
  by_cases listens : n.task sig = .listen
  · obtain ⟨rfl, isOpen⟩ := (n.task_eq_listen_iff sig).1 listens
    have collected : n.collects .radio = true := by rw [collects, isOpen]; rfl
    rw [if_pos collected, if_pos collected, if_pos listens, listens, signalled_radio_of_inWindow isOpen]
    refine ⟨?_, rfl⟩
    show Engine.handed (n.engine.signal .radio n.clock.now).2 n.collecting = _
    rw [Engine.signal_radio_of_inWindow isOpen]
  · rw [if_neg listens, Engine.handed_append, silent listens, List.append_nil]
    cases closing : closes sig with
    | true =>
      have collected : n.collects sig = true := by rw [collects, closing]; rfl
      rw [if_pos collected, if_pos collected]
      refine ⟨rfl, ?_⟩
      show (n.ahead sig).radio.received = _
      rw [ahead, if_pos closing, takeReceived_eq]
    | false =>
      have other : n.collects sig = false := by
        rw [collects, closing, Bool.false_or, ← Bool.not_eq_true, Bool.and_eq_true, beq_iff_eq]
        exact fun h => listens ((n.task_eq_listen_iff sig).2 h)
      rw [other]
      refine ⟨rfl, ?_⟩
      show (n.ahead sig).radio.received = _
      rw [ahead, closing]
      rfl

/-- A window stays open until a signal closes it. -/
theorem inWindow_handleSignal {sig : Signal} (isOpen : n.engine.session.inWindow = true)
    (stays : closes sig = false) : (n.handleSignal sig).engine.session.inWindow = true := by
  have told : (n.signalled sig).engine.session.inWindow = true := by
    rw [← inWindow_ahead n sig] at isOpen
    have lends := Engine.lends_signal (n.ahead sig).engine sig (n.ahead sig).clock.now
    show ((n.ahead sig).engine.signal sig (n.ahead sig).clock.now).2.session.inWindow = true
    generalize ((n.ahead sig).engine.signal sig (n.ahead sig).clock.now).1 = task at lends
    generalize ((n.ahead sig).engine.signal sig (n.ahead sig).clock.now).2 = e at lends
    rw [← Session.isSome_lent?] at isOpen ⊢
    cases lends with
    | rest lent | ask lent => rw [lent]; exact isOpen
    | opens => rfl
    | goesOn => exact isOpen
    | closes closing =>
      rcases closing with rfl | rfl
      · cases stays
      · cases stays
  have quiet : ∀ x ∈ (n.signalled sig).upkeep (n.task sig), ∀ sig', x.1 ≠ .signal sig' := by
    intro x hx sig'
    rcases op_of_mem_upkeep hx with refused | ⟨-, frame, received⟩
    · rw [refused]
      exact nofun
    · rw [received]
      exact nofun
  rw [handleSignal_eq, engine_carryOut, (Engine.sameWindow_run _ quiet).inWindow]
  exact told

/-! ## Over a run -/

structure Arrival where
  frame : List UInt8
  inWindow : Bool

def Moment.arrivals : Moment → List Arrival
  | .call n (.inject frame) => [⟨frame, n.engine.session.inWindow⟩]
  | _ => []

/-- Whether a moment closes no window with more frames waiting than are taken in ahead of that. -/
def Moment.roomy : Moment → Bool
  | .call .. => true
  | .signal n sig => !(closes sig && n.engine.session.inWindow) || decide (n.radio.received.length ≤ maxFrames)

/-- How a frame that arrived is given to the engine: as far as the buffer holds it, and in a window if it came in one,
as long as there was room. -/
def Gives (roomy : Prop) (a : Arrival) (h : Handover) : Prop :=
  h.frame = a.frame.take maxFrameBytes ∧ (roomy → a.inWindow = true → h.engine.session.inWindow = true)

structure Collected (n : Node) (roomy : Prop) (read waiting : List Arrival) (handed : List Handover) : Prop where
  received : n.radio.received = waiting.map (·.frame)
  given : List.Forall₂ (Gives roomy) read handed
  /-- What came in a window waits in it. -/
  inTime : roomy → ∀ a ∈ waiting, a.inWindow = true → n.engine.session.inWindow = true

theorem given_collecting {roomy : Prop} {e : Engine} (now : Nat) {arrivals : List Arrival}
    (inTime : roomy → ∀ a ∈ arrivals, a.inWindow = true → e.session.inWindow = true) :
    List.Forall₂ (Gives roomy) arrivals
      (e.handed (arrivals.map fun a => (.receive (a.frame.take maxFrameBytes), now))) := by
  induction arrivals generalizing e with
  | nil => exact .nil
  | cons a rest ih =>
    refine .cons ⟨rfl, fun roomy => inTime roomy a List.mem_cons_self⟩ (ih fun roomy b hb came => ?_)
    have same := Engine.sameWindow_receive e (a.frame.take maxFrameBytes) now
    exact same.inWindow.trans <| inTime roomy b (List.mem_cons_of_mem a hb) came

theorem Collected.call {roomy : Prop} {read waiting : List Arrival} {handed : List Handover} {op : Operation}
    (collected : n.Collected roomy read waiting handed) (between : op ≠ .interrupt) :
    (n.perform op).2.Collected roomy read (waiting ++ (Moment.call n op).arrivals) handed := by
  obtain ⟨_, _, _, _, _, called⟩ := call_eq n between
  have window : Engine.SameWindow n.engine (n.engine.run (n.calling op)) := sameWindow_calling n op
  rw [called]
  refine ⟨?_, collected.given, fun roomy a ha came => ?_⟩
  · rw [List.map_append, ← collected.received]
    cases op with
    | inject frame => rfl
    | _ => exact (List.append_nil _).symm
  · refine window.inWindow.trans ?_
    rcases List.mem_append.1 ha with hw | hnew
    · exact collected.inTime roomy a hw came
    · cases op with
      | inject frame =>
        cases List.mem_singleton.1 hnew
        exact came
      | _ => cases hnew

theorem Collected.handleSignal {roomy : Prop} {read waiting : List Arrival} {handed : List Handover} {sig : Signal}
    (collected : n.Collected roomy read waiting handed) (room : roomy → (Moment.signal n sig).roomy = true) :
    ∃ taken left, waiting = taken ++ left ∧
      (n.handleSignal sig).Collected roomy (read ++ taken) left (handed ++ n.engine.handed (n.handling sig)) := by
  obtain ⟨given, received⟩ := handed_handling n sig
  cases reads : n.collects sig with
  | false =>
    rw [reads] at given received
    have stays : closes sig = false := (Bool.or_eq_false_iff.1 reads).1
    refine ⟨[], waiting, rfl, received.trans collected.received, ?_, fun roomy a ha came => ?_⟩
    · rw [given, List.append_nil]
      exact (List.append_nil handed).symm ▸ collected.given
    · exact inWindow_handleSignal (collected.inTime roomy a ha came) stays
  | true =>
    rw [reads] at given received
    refine ⟨waiting.take maxFrames, waiting.drop maxFrames, (List.take_append_drop ..).symm, ?_, ?_, ?_⟩
    · rw [received, collected.received, List.map_drop]
      rfl
    · have frames : n.collecting =
          (waiting.take maxFrames).map fun a => (.receive (a.frame.take maxFrameBytes), n.clock.now) := by
        rw [collecting, collected.received, ← List.map_take, List.map_map]
        rfl
      rw [given, if_pos rfl, frames]
      exact List.rel_append collected.given
        (given_collecting _ fun roomy a ha => collected.inTime roomy a (List.mem_of_mem_take ha))
    · intro holds a ha came
      have isOpen := collected.inTime holds a (List.mem_of_mem_drop ha) came
      cases closing : closes sig with
      | false => exact inWindow_handleSignal isOpen closing
      | true =>
        -- Everything that waited was taken in.
        have few := room holds
        rw [Moment.roomy, closing, isOpen] at few
        have none : waiting.drop maxFrames = [] := by
          rw [List.drop_eq_nil_iff, ← List.length_map (f := Arrival.frame), ← collected.received]
          simpa using few
        rw [none] at ha
        cases ha

theorem Course.collected {roomy : Prop} {moments : List Moment} {read waiting : List Arrival} {handed : List Handover}
    (course : Course n moments n') (room : roomy → ∀ moment ∈ moments, moment.roomy = true)
    (collected : n.Collected roomy read waiting handed) :
    ∃ read' waiting', read ++ waiting ++ moments.flatMap Moment.arrivals = read' ++ waiting' ∧
      n'.Collected roomy read' waiting' (handed ++ n.engine.handed (moments.flatMap Moment.history)) := by
  induction course generalizing read waiting handed with
  | done =>
    refine ⟨read, waiting, List.append_nil _, ?_⟩
    exact (List.append_nil handed).symm ▸ collected
  | call between _ ih =>
    rename_i n _ op rest _
    obtain ⟨read', waiting', split, after⟩ :=
      ih (fun holds => (List.forall_mem_cons.1 (room holds)).2) (collected.call between)
    refine ⟨read', waiting', ?_, ?_⟩
    · rw [← split, List.flatMap_cons]
      simp only [List.append_assoc]
    · obtain ⟨_, _, _, _, _, called⟩ := call_eq n between
      have silent : n.engine.handed (n.calling op) = [] :=
        Engine.handed_of_no_receive fun x hx frame hf => by cases hf ▸ ofApplication_of_mem_calling hx
      rw [called] at after
      rw [List.flatMap_cons, Engine.handed_append, show (Moment.call n op).history = n.calling op from rfl, silent]
      exact after
  | signal raised _ ih =>
    rename_i n _ sig arbiter rest _
    have first : Collected { n with arbiter } roomy read waiting handed :=
      ⟨collected.received, collected.given, collected.inTime⟩
    obtain ⟨taken, left, rfl, handled⟩ := first.handleSignal fun holds => (List.forall_mem_cons.1 (room holds)).1
    obtain ⟨read', waiting', split, after⟩ := ih (fun holds => (List.forall_mem_cons.1 (room holds)).2) handled
    refine ⟨read', waiting', ?_, ?_⟩
    · rw [← split, List.flatMap_cons]
      simp only [List.append_assoc]
      rfl
    · rw [engine_handleSignal, List.append_assoc] at after
      rw [List.flatMap_cons, Engine.handed_append]
      exact after

def handed (n : Node) (ops : List Operation) : List Handover := n.engine.handed (n.history ops)

def arrivals (n : Node) (ops : List Operation) : List Arrival := (n.moments ops).flatMap Moment.arrivals

/-- **A frame that came in a window waits or is heard in a window, as long as there is room.**  Whatever is done with a
node and in whatever order its signals come, the frames that its radio receives are given to the engine in the order
they came, each once and as far as the buffer holds it, and those that are not yet wait for that.  If no window is
closed with more frames waiting than are taken in ahead of it, those that came in a window are given to the engine
while one is open, and so are not thrown away.  The machine follows the engine, as long as no time is past
`Machine.latest`. -/
theorem frames_of_windows_are_heard (address : Address) (now : Nat) (echo : Option Echo) (ops : List Operation) :
    let start := create address now echo
    ∃ read waiting, start.arrivals ops = read ++ waiting ∧ (start.run ops).radio.received = waiting.map (·.frame) ∧
      start.engine.Followed (start.history ops) ∧
      List.Forall₂ (fun a h => h.frame = a.frame.take maxFrameBytes ∧
          ((∀ moment ∈ start.moments ops, moment.roomy = true) → a.inWindow = true →
            h.engine.session.inWindow = true ∧ h.reception ≠ .notListening))
        read (start.handed ops) := by
  intro start
  have fresh : start.Collected (∀ moment ∈ start.moments ops, moment.roomy = true) [] [] [] :=
    ⟨rfl, .nil, fun _ a ha => by cases ha⟩
  obtain ⟨read, waiting, split, collected⟩ := (course_run start ops).collected id fresh
  refine ⟨read, waiting, split, collected.received, Engine.reachable_fresh.followed _,
    collected.given.imp fun a h gives => ⟨gives.1, ?_⟩⟩
  intro roomy came
  have isOpen := gives.2 roomy came
  exact ⟨isOpen, Engine.reception_ne_notListening isOpen _⟩

end

/-- Nine frames come in a window.  A report of the radio takes in eight of them, and the end of the window the ninth. -/
theorem nine_frames_of_a_window_are_heard :
    let frame (h : UInt8) : List UInt8 := [0xD6, 0xBE, 0x89, 0x8E, 1, 11, 0x22, 0, 0, 0, 0, 0, h, 0, 1, 0, h]
    let ops : List Operation := [.start ⟨0x8E89BED6, 38, 12, 100⟩, .raise .tick, .raise .started, .interrupt] ++
      ([1, 2, 3, 4, 5, 6, 7, 8, 9].map fun h => .inject (frame h)) ++
      [.raise .radio, .raise .ended, .raise .ended, .interrupt]
    ∃ read waiting, (create ⟨0x11, 0, 0, 0, 0, 0⟩ 0 none).arrivals ops = read ++ waiting ∧ read.length = 9 ∧
      (∀ a ∈ read, a.inWindow = true) ∧
      List.Forall₂ (fun a h => a.inWindow = true → h.reception ≠ .notListening) read
        ((create ⟨0x11, 0, 0, 0, 0, 0⟩ 0 none).handed ops) := by
  intro frame ops
  have roomy : ∀ moment ∈ (create ⟨0x11, 0, 0, 0, 0, 0⟩ 0 none).moments ops, moment.roomy = true := by decide +kernel
  have came : ∀ a ∈ (create ⟨0x11, 0, 0, 0, 0, 0⟩ 0 none).arrivals ops, a.inWindow = true := by decide +kernel
  have many : ((create ⟨0x11, 0, 0, 0, 0, 0⟩ 0 none).handed ops).length = 9 := by decide +kernel
  obtain ⟨read, waiting, split, -, -, given⟩ := frames_of_windows_are_heard ⟨0x11, 0, 0, 0, 0, 0⟩ 0 none ops
  refine ⟨read, waiting, split, given.length_eq.trans many, fun a ha => ?_, ?_⟩
  · exact came a (split ▸ List.mem_append_left waiting ha)
  · exact given.imp fun a h gives inWindow => (gives.2 roomy inWindow).2

/-- Nine frames come in a window, which is closed at once: eight of them are heard.  The next window is denied, and the
ninth frame is thrown away with that. -/
theorem ninth_frame_of_a_window_is_lost :
    let frame (h : UInt8) : List UInt8 := [0xD6, 0xBE, 0x89, 0x8E, 1, 11, 0x22, 0, 0, 0, 0, 0, h, 0, 1, 0, h]
    let ops : List Operation := [.start ⟨0x8E89BED6, 38, 12, 100⟩, .raise .tick, .raise .started, .interrupt] ++
      ([1, 2, 3, 4, 5, 6, 7, 8, 9].map fun h => .inject (frame h)) ++
      [.raise .ended, .interrupt, .raise .tick, .raise .denied, .interrupt]
    ((create ⟨0x11, 0, 0, 0, 0, 0⟩ 0 none).arrivals ops).map (·.inWindow) = List.replicate 9 true ∧
      ((create ⟨0x11, 0, 0, 0, 0, 0⟩ 0 none).handed ops).map (·.reception) =
        ([1, 2, 3, 4, 5, 6, 7, 8].map fun h => .resolved h .acceptNew false) ++ [.notListening] := by
  decide +kernel

end Node

/-! ## One frame -/

namespace Engine

variable [Jitter] {e : Engine} {frame : List UInt8}

/-- A frame that fills the buffer carries a copy or is malformed, for requests are short. -/
theorem receive_of_full (isOpen : e.session.inWindow = true) (full : frame.length = maxFrameBytes)
    (unheard : ∀ c, ¬ e.Hears frame c) (now : Nat) : (e.receive frame now).2 = e.malformedFrame := by
  have short : ∀ mesh adv, Advertisement.decode frame mesh = .ok adv → adv.kind ≠ .request := by
    intro mesh adv decodes asks
    have written := (Advertisement.encode_of_decode decodes).2
    have long := (Advertisement.length_of_encode written).1
    have empty := (Advertisement.encode_eq_ok_iff.1 written).2.1 asks
    rw [full, empty] at long
    cases long
  have outcome := e.receives frame now
  generalize e.receive frame now = p at outcome
  cases outcome with
  | closed closed => rw [isOpen] at closed; cases closed
  | unreadable | outOfRange => rfl
  | ignored _ decodes asks | served _ decodes asks => exact absurd asks (short _ _ decodes)
  | heard hears => exact absurd hears (unheard _)

/-- What does not fit the buffer may be cut off, if no copy is heard in the rest. -/
theorem receive_take (isOpen : e.session.inWindow = true)
    (fits : frame.length ≤ maxFrameBytes ∨ ∀ c, ¬ e.Hears (frame.take maxFrameBytes) c) (now : Nat) :
    (e.receive (frame.take maxFrameBytes) now).2 = (e.receive frame now).2 := by
  by_cases long : maxFrameBytes < frame.length
  · obtain ⟨cfg, up⟩ := Session.settings_of_inWindow isOpen
    have full : (frame.take maxFrameBytes).length = maxFrameBytes := List.length_take_of_le (Nat.le_of_lt long)
    rw [receive_of_full isOpen full (fits.resolve_left (Nat.not_le.2 long))]
    cases hd : Advertisement.decode frame cfg.accessAddress with
    | error cause => rw [receive_of_unreadable isOpen up hd]
    | ok adv => exact absurd (Advertisement.length_frame_le_of_decode hd) (Nat.not_le.2 long)
  · rw [List.take_of_length_le (Nat.not_lt.1 long)]

end Engine

namespace Node

section

variable [Jitter] {n : Node} {frame : List UInt8}

theorem handleSignals_of_idle (idle : n.arbiter.signals = []) (k : Nat) : handleSignals k n = n := by
  cases k with
  | zero => rfl
  | succ k => simp only [handleSignals, Device.Arbiter.poll, idle]

theorem handleSignal_radio_of_inWindow (isOpen : n.engine.session.inWindow = true) :
    n.handleSignal .radio = n.carryOut .listen := by
  rw [handleSignal_eq, signalled_radio_of_inWindow isOpen, (n.task_eq_listen_iff .radio).2 ⟨rfl, isOpen⟩]

theorem engine_of_injected (isOpen : n.engine.session.inWindow = true) (quiet : n.radio.received = [])
    (idle : n.arbiter.signals = []) : (n.run [.inject frame, .raise .radio, .interrupt]).engine =
      (n.engine.receive (frame.take maxFrameBytes) n.clock.now).2 := by
  let reached : Node := { n with radio := n.radio.inject frame }
  have taken : (reached.raise .radio).arbiter.poll = some (.radio, n.arbiter) := by
    obtain ⟨_, _, _, _, ⟨signals, requests, refusing, enabled⟩, _, _, _⟩ := n
    cases idle
    rfl
  have handled : n.run [.inject frame, .raise .radio, .interrupt] = handleSignals 7 (reached.carryOut .listen) := by
    show handleSignals (7 + 1) (reached.raise .radio) = _
    rw [handleSignals, taken, ← handleSignal_radio_of_inWindow (n := reached) isOpen]
    rfl
  have idle' : (reached.carryOut .listen).arbiter.signals = [] := by
    obtain ⟨_, _, _, _, carried⟩ := reached.setsUp_carryOut .listen
    rw [carried]
    show reached.takeReceived.arbiter.signals = []
    rw [takeReceived_eq]
    exact idle
  have collected : reached.collecting = [(.receive (frame.take maxFrameBytes), n.clock.now)] := by
    show ((n.radio.received ++ [frame]).take maxFrames).map _ = _
    rw [quiet]
    rfl
  rw [handled, handleSignals_of_idle idle', engine_carryOut]
  show reached.engine.run reached.collecting = _
  rw [collected]
  rfl

/-- **A frame is received as far as the buffer holds it.**  Where a window is open and nothing else waits, a frame that
comes and is reported is given to the engine at once, without what goes beyond the buffer.  If all of it is held, or no
copy is heard in what is, the engine is afterwards as if it had received the frame itself; and one that cannot be read
only counts as malformed.  The machine follows an engine that came about in some history, unless the clock is past
`Machine.latest`. -/
theorem frame_is_received_as_far_as_the_buffer_holds_it (isOpen : n.engine.session.inWindow = true)
    (quiet : n.radio.received = []) (idle : n.arbiter.signals = []) (frame : List UInt8) :
    let after := (n.run [.inject frame, .raise .radio, .interrupt]).engine
    after = (n.engine.receive (frame.take maxFrameBytes) n.clock.now).2 ∧
    (frame.length ≤ maxFrameBytes ∨ (∀ c, ¬ n.engine.Hears (frame.take maxFrameBytes) c) →
      after = (n.engine.receive frame n.clock.now).2 ∧
      ∀ cfg cause, n.engine.settings = .ok cfg → Advertisement.decode frame cfg.accessAddress = .error cause →
        after = n.engine.malformedFrame) ∧
    (n.engine.Reachable → n.engine.Followed (n.history [.inject frame, .raise .radio, .interrupt])) := by
  intro after
  have received : after = (n.engine.receive (frame.take maxFrameBytes) n.clock.now).2 :=
    engine_of_injected isOpen quiet idle
  refine ⟨received, fun fits => ?_, fun hr => hr.followed _⟩
  have same := received.trans (Engine.receive_take isOpen fits n.clock.now)
  refine ⟨same, fun cfg cause up unreadable => ?_⟩
  rw [same, Engine.receive_of_unreadable isOpen up unreadable]

end

/-- The longest frame there is fills the buffer, and is received. -/
theorem longest_frame_is_received :
    let ops : List Operation := [.start ⟨0x8E89BED6, 38, 12, 100⟩, .raise .tick, .raise .started, .interrupt]
    let frame : List UInt8 :=
      [0xD6, 0xBE, 0x89, 0x8E, 1, 38, 0x22, 0, 0, 0, 0, 0, 3, 0, 1, 0] ++ List.replicate 28 7
    ∃ n, n = (create ⟨0x11, 0, 0, 0, 0, 0⟩ 0 none).run ops ∧
      (n.engine.receive frame n.clock.now).1 = .resolved 3 .acceptNew false ∧
      (n.run [.inject frame, .raise .radio, .interrupt]).engine = (n.engine.receive frame n.clock.now).2 := by
  intro ops frame
  have isOpen : ((create ⟨0x11, 0, 0, 0, 0, 0⟩ 0 none).run ops).engine.session.inWindow = true := by decide +kernel
  have quiet : ((create ⟨0x11, 0, 0, 0, 0, 0⟩ 0 none).run ops).radio.received = [] := by decide +kernel
  have idle : ((create ⟨0x11, 0, 0, 0, 0, 0⟩ 0 none).run ops).arbiter.signals = [] := by decide +kernel
  obtain ⟨-, received, -⟩ := frame_is_received_as_far_as_the_buffer_holds_it isOpen quiet idle frame
  exact ⟨_, rfl, by decide +kernel, (received (Or.inl (by decide))).1⟩

/-- A frame with a byte too many is one that no engine reads, but a node takes it for the frame that it begins with. -/
theorem frame_with_a_byte_too_many_is_taken_for_a_good_one :
    let ops : List Operation := [.start ⟨0x8E89BED6, 38, 12, 100⟩, .raise .tick, .raise .started, .interrupt]
    let frame : List UInt8 :=
      [0xD6, 0xBE, 0x89, 0x8E, 1, 38, 0x22, 0, 0, 0, 0, 0, 3, 0, 1, 0] ++ List.replicate 28 7 ++ [0]
    ∃ n, n = (create ⟨0x11, 0, 0, 0, 0, 0⟩ 0 none).run ops ∧ n.engine.session.inWindow = true ∧
      n.radio.received = [] ∧ n.arbiter.signals = [] ∧
      (n.engine.receive frame n.clock.now).1 = .dropped .lengthMismatch ∧
      (n.run [.inject frame, .raise .radio, .interrupt]).engine ≠ (n.engine.receive frame n.clock.now).2 ∧
      (n.run [.inject frame, .raise .radio, .interrupt]).engine.store ≠ n.engine.store := by
  intro ops frame
  refine ⟨_, rfl, ?_, ?_, ?_, ?_, ?_, ?_⟩
  · decide +kernel
  · decide +kernel
  · decide +kernel
  · decide +kernel
  · decide +kernel
  · decide +kernel

end Node
end ValueMesh
