import ValueMesh.Proofs.Driving
import ValueMesh.Proofs.Windows
/-!
# The radio is used in windows only

The session of a node says whether the radio is ours, the radio says whether it is tuned, and the two hear of each
other only through the tasks that the node carries out.  They never come apart: whatever signals come, in whatever
order, the radio is tuned and listens just while a window is open, every call of it is answered with success, and what
was sent is what the engine handed out, one frame at most for each window (`radio_is_used_in_windows_only`).
-/
namespace ValueMesh

def Settings.tuning (s : Settings) : Device.Tuning := ⟨s.accessAddress, s.channel⟩

namespace Session

theorem isSome_lent? (s : Session) : s.lent?.isSome = s.inWindow := by
  obtain ⟨active, denied, granted⟩ := s
  match active with
  | none | some (_, .idle) | some (_, .requested) | some (_, .opened _) => rfl

theorem lent?_of_down {s : Session} (down : s.active.isSome = false) : s.lent? = none := by
  obtain ⟨active, denied, granted⟩ := s
  match active, down with
  | none, _ => rfl

theorem settings_of_lent? {s : Session} {cfg : Settings} (lent : s.lent? = some cfg) : s.settings = .ok cfg := by
  obtain ⟨active, denied, granted⟩ := s
  match active, lent with
  | some (_, .opened _), rfl => rfl

theorem lent?_windowRefused (s : Session) : s.windowRefused.lent? = s.lent? ∧ s.windowRefused.granted = s.granted := by
  obtain ⟨active, denied, granted⟩ := s
  match active with
  | none | some (_, .idle) | some (_, .requested) | some (_, .opened _) => exact ⟨rfl, rfl⟩

end Session

namespace Engine

variable [Jitter] {e e' : Engine}

/-! ## Who has the radio -/

structure SameWindow (e e' : Engine) : Prop where
  lent : e'.session.lent? = e.session.lent?
  granted : e'.session.granted = e.session.granted
  transmitted : e'.transmitted = e.transmitted

theorem SameWindow.refl (e : Engine) : SameWindow e e := ⟨rfl, rfl, rfl⟩

theorem SameWindow.trans {e₁ e₂ e₃ : Engine} (first : SameWindow e₁ e₂) (second : SameWindow e₂ e₃) :
    SameWindow e₁ e₃ :=
  ⟨second.lent.trans first.lent, second.granted.trans first.granted, second.transmitted.trans first.transmitted⟩

theorem SameWindow.inWindow (same : SameWindow e e') : e'.session.inWindow = e.session.inWindow := by
  rw [← Session.isSome_lent?, same.lent, Session.isSome_lent?]

theorem sameWindow_receive (e : Engine) (frame : List UInt8) (now : Nat) : SameWindow e (e.receive frame now).2 := by
  by_cases hears : ∃ c, e.Hears frame c
  · obtain ⟨c, hc⟩ := hears
    rw [receive_of_hears now hc]
    exact ⟨congrArg Session.lent? (session_hearCopy ..), congrArg Session.granted (session_hearCopy ..),
      transmitted_hearCopy ..⟩
  · obtain ⟨t, m, hs, -⟩ := receive_of_not_hears now (not_exists.1 hears)
    rw [hs]
    exact ⟨rfl, rfl, rfl⟩

theorem sameWindow_windowRefused (e : Engine) : SameWindow e e.windowRefused :=
  ⟨(Session.lent?_windowRefused _).1, (Session.lent?_windowRefused _).2, rfl⟩

/-- **Only a signal opens or closes a window, or uses one.** -/
theorem sameWindow_perform (e : Engine) (op : Operation) (now : Nat) (quiet : ∀ sig, op ≠ .signal sig) :
    SameWindow e (e.perform op now).2 := by
  cases op with
  | signal sig => exact absurd rfl (quiet sig)
  | start cfg a hostReady =>
    simp only [perform]
    split
    · exact .refl e
    · rename_i hs
      obtain ⟨down, -, rfl⟩ := start_of_ok hs
      exact ⟨(Session.lent?_of_down down).symm, rfl, rfl⟩
  | write h data =>
    simp only [perform]
    split
    · exact .refl e
    · rename_i hw
      obtain ⟨-, r, -, -, -, rfl⟩ := write_of_ok hw
      exact ⟨rfl, rfl, rfl⟩
  | read h => rw [perform_read_snd]; exact .refl e
  | stamp h => rw [perform_stamp_snd]; exact .refl e
  | request h =>
    rcases perform_request_snd e h now with hsame | ⟨t, -, hs⟩
    · rw [hsame]
      exact .refl e
    · rw [hs]
      exact ⟨rfl, rfl, rfl⟩
  | takeNotice =>
    rcases perform_takeNotice_snd e now with hsame | ⟨n, inbox, -, hs⟩
    · rw [hsame]
      exact .refl e
    · rw [hs]
      exact ⟨rfl, rfl, rfl⟩
  | windowRefused => exact sameWindow_windowRefused e
  | receive frame => exact sameWindow_receive e frame now

theorem sameWindow_run {history : List (Operation × Nat)} (e : Engine)
    (quiet : ∀ x ∈ history, ∀ sig, x.1 ≠ .signal sig) : SameWindow e (e.run history) := by
  induction history generalizing e with
  | nil => exact .refl e
  | cons x rest ih =>
    obtain ⟨first, later⟩ := List.forall_mem_cons.1 quiet
    exact (sameWindow_perform e x.1 x.2 first).trans (ih _ later)

end Engine

namespace Node

open Engine (SameWindow)

section

variable [Jitter] {n n' : Node} {windows : List (Option (List UInt8))}

/-! ## Calls of the radio -/

/-- What the calls of the radio are answered that carrying out a task makes, in order. -/
def radioCalls (n : Node) : RadioTask → List (Except Device.RadioFault Node)
  | .none | .requestWindow _ | .close => []
  | .listen => [n.takeReceived.listen]
  | .openWindow mesh channel frame =>
    n.tune ⟨mesh, channel⟩ ::
      match n.tune ⟨mesh, channel⟩ with
      | .error _ => []
      | .ok tuned =>
        let sends := frame.toList.map tuned.transmit
        sends ++ [(sends.foldl orSame tuned).listen]

/-- A task is carried out by its calls, and those that fail leave the node as it is. -/
theorem carryOut_eq (n : Node) (task : RadioTask) :
    n.carryOut task = (n.radioCalls task).foldl orSame (n.prepared task) := by
  cases task with
  | none | requestWindow | listen | close => rfl
  | openWindow mesh channel frame =>
    simp only [carryOut, radioCalls, prepared, List.foldl_cons]
    cases n.tune ⟨mesh, channel⟩ with
    | error f => rfl
    | ok tuned => cases frame <;> rfl

structure Works (n : Node) : Prop where
  tune : n.outage.tune = false
  transmit : n.outage.transmit = false
  listen : n.outage.listen = false

theorem Works.of_same (works : n.Works) (same : n'.outage = n.outage) : n'.Works := by
  constructor <;> rw [same]
  · exact works.tune
  · exact works.transmit
  · exact works.listen

def withRadio (n : Node) (radio : Device.Radio) : Node := { n with radio }

theorem Works.withRadio (works : n.Works) (radio : Device.Radio) : (n.withRadio radio).Works :=
  ⟨works.tune, works.transmit, works.listen⟩

theorem tune_of_works {t : Device.Tuning} (works : n.Works) (inRange : t.channel ≤ 39) :
    n.tune t = .ok (n.withRadio { n.radio with tuning := some t }) := by
  unfold tune Device.Radio.tune
  rw [works.tune, if_neg (UInt8.not_lt.2 inRange)]
  rfl

theorem transmit_of_works {frame : List UInt8} (works : n.Works) (tuned : n.radio.tuning.isSome = true)
    (fits : frame.length ≤ maxFrameBytes) : n.transmit frame = .ok (n.withRadio { n.radio with
      sent := n.radio.sent ++ [frame]
      flags := { n.radio.flags with txDone := true } }) := by
  unfold transmit Device.Radio.transmit
  rw [works.transmit, ← Option.not_isSome, tuned, if_neg (Nat.not_lt.2 fits)]
  rfl

theorem listen_of_works (works : n.Works) (tuned : n.radio.tuning.isSome = true) :
    n.listen = .ok (n.withRadio { n.radio with listening := true }) := by
  unfold listen Device.Radio.listen
  rw [works.listen, ← Option.not_isSome, tuned]
  rfl

/-- **A window that opens tunes the radio, sends what is to be sent, and listens.** -/
theorem openWindow_of_works {mesh : UInt32} {channel : UInt8} {frame : Option (List UInt8)} (works : n.Works)
    (inRange : channel ≤ 39) (fits : ∀ bytes ∈ frame, bytes.length ≤ maxFrameBytes) :
    (∀ call ∈ n.radioCalls (.openWindow mesh channel frame), ∃ n', call = .ok n') ∧
    ∃ flags, n.carryOut (.openWindow mesh channel frame) =
      n.withRadio ⟨some ⟨mesh, channel⟩, true, n.radio.sent ++ frame.toList, n.radio.received, flags⟩ := by
  obtain ⟨tuned, tunes, htuned⟩ : ∃ tuned, n.tune ⟨mesh, channel⟩ = .ok tuned ∧
      tuned = n.withRadio { n.radio with tuning := some ⟨mesh, channel⟩ } := ⟨_, tune_of_works works inRange, rfl⟩
  have works' : tuned.Works := htuned ▸ works.withRadio _
  rw [carryOut_eq]
  cases frame with
  | none =>
    have listens := listen_of_works works' (htuned ▸ rfl)
    have calls : n.radioCalls (.openWindow mesh channel none) = [.ok tuned, tuned.listen] := by
      simp only [radioCalls, tunes, Option.toList_none, List.map_nil, List.foldl_nil, List.nil_append]
    rw [calls, listens]
    refine ⟨by simp, tuned.radio.flags, ?_⟩
    subst htuned
    simp only [List.foldl_cons, List.foldl_nil, orSame, Option.toList_none, List.append_nil]
    rfl
  | some bytes =>
    obtain ⟨sent, sends, hsent⟩ : ∃ sent, tuned.transmit bytes = .ok sent ∧ sent = tuned.withRadio _ :=
      ⟨_, transmit_of_works works' (htuned ▸ rfl) (fits bytes rfl), rfl⟩
    have listens := listen_of_works (n := sent) (hsent ▸ works'.withRadio _) (by rw [hsent, htuned]; rfl)
    have calls : n.radioCalls (.openWindow mesh channel (some bytes)) = [.ok tuned, .ok sent, sent.listen] := by
      simp only [radioCalls, tunes, Option.toList_some, List.map_cons, List.map_nil, List.foldl_cons, List.foldl_nil,
        sends, orSame, List.cons_append, List.nil_append]
    rw [calls, listens]
    refine ⟨by simp, sent.radio.flags, ?_⟩
    subst hsent htuned
    rfl

/-- Asking for a window leaves the radio alone, and tells the engine if the arbiter refuses. -/
theorem carryOut_requestWindow (n : Node) (length : Nat) :
    (∃ arbiter, n.carryOut (.requestWindow length) = { n with arbiter }) ∨
    n.carryOut (.requestWindow length) = { n with engine := n.engine.windowRefused } := by
  simp only [carryOut]
  cases n.arbiter.request length with
  | ok arbiter => exact Or.inl ⟨arbiter, rfl⟩
  | error f => exact Or.inr rfl

/-! ## Owning it -/

def opening? : RadioTask → Option (Option (List UInt8))
  | .openWindow _ _ frame => some frame
  | .none | .requestWindow _ | .listen | .close => none

/-- The radio is set up as the session has it, and `windows` were opened, each with the frame that was sent in it. -/
structure Owned (n : Node) (windows : List (Option (List UInt8))) : Prop where
  reachable : n.engine.Reachable
  works : n.Works
  tuning : n.radio.tuning = n.engine.session.lent?.map Settings.tuning
  listening : n.radio.listening = n.engine.session.lent?.isSome
  sent : n.radio.sent = windows.filterMap id
  transmitted : n.engine.transmitted = min n.radio.sent.length Tally.limit
  granted : n.engine.session.granted = min windows.length Tally.limit

structure SameOwner (n n' : Node) : Prop where
  reachable : n'.engine.Reachable
  window : SameWindow n.engine n'.engine
  tuning : n'.radio.tuning = n.radio.tuning
  listening : n'.radio.listening = n.radio.listening
  sent : n'.radio.sent = n.radio.sent
  works : n'.Works

theorem Owned.of_same (owned : n.Owned windows) (same : n.SameOwner n') : n'.Owned windows where
  reachable := same.reachable
  works := same.works
  tuning := by rw [same.tuning, same.window.lent, owned.tuning]
  listening := by rw [same.listening, same.window.lent, owned.listening]
  sent := by rw [same.sent, owned.sent]
  transmitted := by rw [same.window.transmitted, same.sent, owned.transmitted]
  granted := by rw [same.window.granted, owned.granted]

theorem sameWindow_calling (n : Node) (op : Operation) : SameWindow n.engine (n.engine.run (n.calling op)) :=
  Engine.sameWindow_run _ fun x hx sig hs => by cases hs ▸ ofApplication_of_mem_calling hx

theorem sameWindow_takeReceived (n : Node) : SameWindow n.engine n.takeReceived.engine := by
  rw [takeReceived_eq]
  refine Engine.sameWindow_run _ fun x hx sig => ?_
  obtain ⟨frame, -, rfl⟩ := List.mem_map.1 hx
  exact nofun

theorem Owned.takeReceived (owned : n.Owned windows) : n.takeReceived.Owned windows := by
  have window := n.sameWindow_takeReceived
  refine owned.of_same ?_
  rw [takeReceived_eq] at window ⊢
  exact ⟨owned.reachable.run _, window, rfl, rfl, rfl, owned.works.of_same rfl⟩

theorem Owned.ahead (owned : n.Owned windows) (sig : Signal) : (n.ahead sig).Owned windows := by
  unfold Node.ahead
  split
  · exact owned.takeReceived
  · exact owned

/-- Whether an operation neither breaks the radio nor forgets what was sent. -/
def Operation.ordinary : Operation → Bool
  | .failTune _ | .failTransmit _ | .failListen _ | .clearSent => false
  | _ => true

theorem Owned.call {op : Operation} (owned : n.Owned windows) (between : op ≠ .interrupt)
    (ordinary : op.ordinary = true) : (n.perform op).2.Owned windows := by
  obtain ⟨_, _, _, _, _, called⟩ := call_eq n between
  have window := sameWindow_calling n op
  refine owned.of_same ?_
  rw [called]
  cases op with
  | failTune | failTransmit | failListen | clearSent => cases ordinary
  | _ => exact ⟨owned.reachable.run _, window, rfl, rfl, rfl, (owned.works.of_same rfl)⟩

theorem Owned.opens {cfg : Settings} {now : Nat} {e : Engine} (owned : n.Owned windows)
    (up : n.engine.settings = .ok cfg) (reachable : e.Reachable)
    (tells : e = { (n.engine.takeFrame cfg.accessAddress now).2 with
      session := ⟨some (cfg, .opened now), n.engine.session.denied, Tally.bump n.engine.session.granted⟩ }) :
    let frame := (n.engine.takeFrame cfg.accessAddress now).1
    let task := RadioTask.openWindow cfg.accessAddress cfg.channel frame
    ({ n with engine := e }.carryOut task).Owned (windows ++ [frame]) ∧
    ∀ call ∈ { n with engine := e }.radioCalls task, ∃ n', call = .ok n' := by
  intro frame task
  have fits : ∀ bytes ∈ frame, bytes.length ≤ maxFrameBytes := by
    intro bytes hb
    obtain ⟨-, adv, -, -, -, written⟩ := Engine.frame_of_takeFrame hb
    exact (Advertisement.length_of_encode written).2
  have counted := (Engine.sends_takeFrame owned.reachable up now).counted
  obtain ⟨succeed, flags, carried⟩ := openWindow_of_works (n := { n with engine := e })
    (owned.works.of_same rfl) (owned.reachable.sound.inRange up).2.1 fits
  refine ⟨?_, succeed⟩
  rw [carried]
  subst tells
  have sent : n.radio.sent ++ frame.toList = (windows ++ [frame]).filterMap id := by
    rw [List.filterMap_append, ← owned.sent]
    cases frame <;> rfl
  refine ⟨reachable, (owned.works.of_same rfl), rfl, rfl, sent, ?_, ?_⟩
  · show (n.engine.takeFrame cfg.accessAddress now).2.transmitted = min (n.radio.sent ++ frame.toList).length _
    rw [counted, owned.transmitted, List.length_append]
    show (if frame.isSome then _ else _) = _
    cases frame with
    | none => rfl
    | some bytes => exact Tally.bump_min _
  · show Tally.bump n.engine.session.granted = _
    rw [owned.granted, List.length_append]
    exact Tally.bump_min _

theorem Owned.carryOut {sig : Signal} {task : RadioTask} {now : Nat} {e : Engine} (owned : n.Owned windows)
    (lends : n.engine.Lends now sig task e) (reachable : e.Reachable) :
    ({ n with engine := e }.carryOut task).Owned (windows ++ (opening? task).toList) ∧
    ∀ call ∈ { n with engine := e }.radioCalls task, ∃ n', call = .ok n' := by
  have told : ∀ session, { n.engine with session }.Reachable → session.lent? = n.engine.session.lent? →
      session.granted = n.engine.session.granted → Owned { n with engine := { n.engine with session } } windows := by
    intro session reached lent granted
    exact owned.of_same ⟨reached, ⟨lent, granted, rfl⟩, rfl, rfl, rfl, owned.works.of_same rfl⟩
  have unopened : ∀ {n' : Node}, n'.Owned windows → n'.Owned (windows ++ []) :=
    fun owned => (List.append_nil windows).symm ▸ owned
  cases lends with
  | rest lent granted => exact ⟨unopened (told _ reachable lent granted), List.forall_mem_nil _⟩
  | ask lent granted =>
    rename_i session length
    have asked := told session reachable lent granted
    refine ⟨unopened ?_, List.forall_mem_nil _⟩
    rcases carryOut_requestWindow { n with engine := { n.engine with session } } length with ⟨_, hs⟩ | hs <;> rw [hs]
    · exact asked.of_same ⟨asked.reachable, .refl _, rfl, rfl, rfl, asked.works.of_same rfl⟩
    · have refused := Engine.sameWindow_windowRefused { n.engine with session }
      exact asked.of_same ⟨asked.reachable.perform .windowRefused now, refused, rfl, rfl, rfl, asked.works.of_same rfl⟩
  | opens up idle => exact owned.opens up reachable rfl
  | goesOn lent =>
    rename_i cfg
    have collected := owned.takeReceived
    have still : n.takeReceived.engine.session.lent? = some cfg := n.sameWindow_takeReceived.lent.trans lent
    have tuned : n.takeReceived.radio.tuning.isSome = true := by rw [collected.tuning, still]; rfl
    have listening : n.takeReceived.radio.listening = true := by rw [collected.listening, still]; rfl
    have listens := listen_of_works collected.works tuned
    refine ⟨unopened ?_, List.forall_mem_singleton.2 ⟨_, listens⟩⟩
    rw [carryOut_eq]
    show Owned (n.takeReceived.orSame n.takeReceived.listen) windows
    rw [listens]
    exact collected.of_same ⟨collected.reachable, .refl _, rfl, listening.symm, rfl, collected.works.of_same rfl⟩
  | closes closing lent =>
    have closed : Owned { n with engine := _, radio := n.radio.disable } windows :=
      ⟨reachable, owned.works.of_same rfl, rfl, rfl, owned.sent, owned.transmitted, owned.granted⟩
    exact ⟨unopened closed, List.forall_mem_nil _⟩

def opens (n : Node) (sig : Signal) : List (Option (List UInt8)) := (opening? (n.task sig)).toList

/-- **A signal leaves the radio set up as the session has it**, and every call it makes of the radio succeeds. -/
theorem Owned.handleSignal (owned : n.Owned windows) (sig : Signal) :
    (n.handleSignal sig).Owned (windows ++ n.opens sig) ∧
    ∀ call ∈ (n.signalled sig).radioCalls (n.task sig), ∃ n', call = .ok n' := by
  have before := owned.ahead sig
  exact before.carryOut (Engine.lends_signal ..) (before.reachable.perform (.signal sig) _)

/-! ## Over a run -/

def Moment.opens : Moment → List (Option (List UInt8))
  | .call .. => []
  | .signal n sig => n.opens sig

def Moment.radioCalls : Moment → List (Except Device.RadioFault Node)
  | .call .. => []
  | .signal n sig => (n.signalled sig).radioCalls (n.task sig)

def Moment.ordinary : Moment → Bool
  | .call _ op => op.ordinary
  | .signal .. => true

theorem ordinary_of_mem_moments {ops : List Operation} (ordinary : ∀ op ∈ ops, op.ordinary = true) {moment : Moment}
    (hm : moment ∈ n.moments ops) : moment.ordinary = true := by
  rcases moment_cases hm with ⟨n', op, hop, rfl⟩ | ⟨n', sig, rfl⟩
  · exact ordinary op hop
  · rfl

theorem Course.owned {moments : List Moment} (course : Course n moments n')
    (ordinary : ∀ moment ∈ moments, moment.ordinary = true) (owned : n.Owned windows) :
    n'.Owned (windows ++ moments.flatMap Moment.opens) ∧
    ∀ moment ∈ moments, ∀ call ∈ moment.radioCalls, ∃ n', call = .ok n' := by
  induction course generalizing windows with
  | done =>
    rw [List.flatMap_nil, List.append_nil]
    exact ⟨owned, List.forall_mem_nil _⟩
  | call between _ ih =>
    obtain ⟨first, later⟩ := List.forall_mem_cons.1 ordinary
    obtain ⟨after, succeed⟩ := ih later (owned.call between first)
    exact ⟨after, List.forall_mem_cons.2 ⟨List.forall_mem_nil _, succeed⟩⟩
  | signal raised _ ih =>
    rename_i n _ sig arbiter _ _
    have taken : Owned { n with arbiter } windows :=
      owned.of_same ⟨owned.reachable, .refl _, rfl, rfl, rfl, owned.works.of_same rfl⟩
    obtain ⟨handled, succeeds⟩ := taken.handleSignal sig
    obtain ⟨after, succeed⟩ := ih (List.forall_mem_cons.1 ordinary).2 handled
    rw [List.append_assoc] at after
    exact ⟨after, List.forall_mem_cons.2 ⟨succeeds, succeed⟩⟩

theorem owned_create (address : Address) (now : Nat) (echo : Option Echo) : (create address now echo).Owned [] where
  reachable := Engine.reachable_fresh
  works := ⟨rfl, rfl, rfl⟩
  tuning := rfl
  listening := rfl
  sent := rfl
  transmitted := rfl
  granted := rfl

/-- **The radio is used in windows only.**  Whatever the application, the host stack and the arbiter do with a node,
and whatever is received, the radio is tuned just while a window is open, and listens just then, tuned as the settings
have it; no call that is made of it is refused; and what it sent are the frames the engine handed out, in order, at
most one for each window.  The node counts the frames and the windows, as far as its counters go.  The machine follows
the engine, as long as no time is past `Machine.latest`. -/
theorem radio_is_used_in_windows_only (address : Address) (now : Nat) (echo : Option Echo) {ops : List Operation}
    (ordinary : ∀ op ∈ ops, op.ordinary = true) :
    let start := create address now echo
    let n := start.run ops
    let windows := (start.moments ops).flatMap Moment.opens
    (n.radio.tuning.isSome = n.engine.session.inWindow ∧ n.radio.listening = n.engine.session.inWindow ∧
      ∀ t, n.radio.tuning = some t → ∃ cfg, n.engine.settings = .ok cfg ∧ t = ⟨cfg.accessAddress, cfg.channel⟩) ∧
    (∀ moment ∈ start.moments ops, ∀ call ∈ moment.radioCalls, ∃ n', call = .ok n') ∧
    n.radio.sent = windows.filterMap id ∧ n.radio.sent.length ≤ windows.length ∧
    n.engine.transmitted = min n.radio.sent.length Tally.limit ∧
    n.engine.session.granted = min windows.length Tally.limit ∧ start.engine.Followed (start.history ops) := by
  intro start n windows
  obtain ⟨owned, succeed⟩ := (course_run start ops).owned (fun _ hm => ordinary_of_mem_moments ordinary hm)
    (owned_create address now echo)
  rw [List.nil_append] at owned
  refine ⟨⟨?_, ?_, fun t ht => ?_⟩, succeed, owned.sent, ?_, owned.transmitted, owned.granted,
    Engine.reachable_fresh.followed _⟩
  · rw [owned.tuning, Option.isSome_map, Session.isSome_lent?]
  · rw [owned.listening, Session.isSome_lent?]
  · rw [owned.tuning] at ht
    obtain ⟨cfg, lent, rfl⟩ := Option.map_eq_some_iff.1 ht
    exact ⟨cfg, Session.settings_of_lent? lent, rfl⟩
  · rw [owned.sent]
    exact List.length_filterMap_le ..

end

/-- A value is written and a window opens, after a request that the arbiter refused; signals come that nobody waits
for, frames that cannot be read, and more signals at once than an interrupt takes. -/
theorem radio_is_used_in_windows_under_stray_signals :
    let ops : List Operation := [.start ⟨0x8E89BED6, 38, 10, 100⟩, .write 3 [7], .refuseWindows true] ++
      [.started, .radio, .tick, .ended].map .raise ++ [.interrupt, .refuseWindows false, .advanceClock 100000,
        .inject [1, 2, 3], .spoil] ++
      [.tick, .denied, .denied, .tick, .started, .started, .radio, .tick, .ended, .tick].map .raise ++ [.interrupt]
    ∃ n, n = (create ⟨0x11, 0, 0, 0, 0, 0⟩ 0 none).run ops ∧ n.radio.tuning = some ⟨0x8E89BED6, 38⟩ ∧
      n.radio.listening = true ∧ n.radio.sent.length = 1 ∧ n.engine.transmitted = 1 := by
  intro ops
  have ordinary : ∀ op ∈ ops, op.ordinary = true := by decide +kernel
  have isOpen : ((create ⟨0x11, 0, 0, 0, 0, 0⟩ 0 none).run ops).engine.session.inWindow = true := by decide +kernel
  have sent : ((create ⟨0x11, 0, 0, 0, 0, 0⟩ 0 none).run ops).radio.sent.length = 1 := by decide +kernel
  obtain ⟨⟨-, listens, -⟩, -, -, -, transmitted, -⟩ :=
    radio_is_used_in_windows_only ⟨0x11, 0, 0, 0, 0, 0⟩ 0 none ordinary
  refine ⟨_, rfl, by decide +kernel, listens.trans isOpen, sent, ?_⟩
  rw [transmitted, sent]
  decide

end Node
end ValueMesh
