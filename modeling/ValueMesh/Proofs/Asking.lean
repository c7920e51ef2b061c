import ValueMesh.Proofs.Provenance
/-!
# Asking for a value

A request for a value waits from the call that makes it until a frame that makes it known is sent, and nothing else
starts or ends its wait (`requested_perform`); such a frame is sent only for a request that waits, and under the
address of its own node (`request_of_frame`).  So among fresh nodes that exchange their frames a request waits just if
it was made since it was last sent, and is sent no more often than it is made (`requests_are_sent_as_made`).  Hearing
that someone else asks for a value makes no node ask for it.
-/
namespace ValueMesh

namespace Advertisement

def asked? (mesh : UInt32) (frame : List UInt8) : Option Handle :=
  match decode frame mesh with
  | .ok ⟨.request, c⟩ => some c.handle
  | _ => none

theorem asked?_of_request {mesh : UInt32} {frame : List UInt8} {h : Handle} {origin : Address}
    (hd : decode frame mesh = .ok (.request h origin)) : asked? mesh frame = some h := by
  rw [asked?, hd]
  rfl

theorem asked?_of_value {mesh : UInt32} {frame : List UInt8} {c : Copy} (hd : decode frame mesh = .ok (.value c)) :
    asked? mesh frame = none := by
  rw [asked?, hd]
  rfl

theorem exists_of_asked? {mesh : UInt32} {frame : List UInt8} {h : Handle} (ha : asked? mesh frame = some h) :
    ∃ adv, decode frame mesh = .ok adv ∧ adv.kind = .request ∧ adv.copy.handle = h := by
  unfold asked? at ha
  split at ha
  · rename_i c hd
    exact ⟨_, hd, rfl, Option.some.inj ha⟩
  · cases ha

end Advertisement

inductive Asking
  /-- The application asks for the value, and is not refused. -/
  | made
  /-- The node sends a frame that asks for the value. -/
  | sent
  deriving DecidableEq, Repr

namespace Asking

def waits (before : Bool) : Option Asking → Bool
  | none => before
  | some made => true
  | some sent => false

/-- The request waits just if the last thing done about it was to make it, and each time it was sent it was made
before. -/
structure Accounts (log : List Asking) (waiting : Bool) : Prop where
  last : waiting = true ↔ log.getLast? = some .made
  count : log.count .sent + waiting.toNat ≤ log.count .made

theorem Accounts.append {log : List Asking} {waiting : Bool} (ha : Accounts log waiting) {x : Option Asking}
    (sent : x = some .sent → waiting = true) : Accounts (log ++ x.toList) (waits waiting x) := by
  have hcount := ha.count
  cases x with
  | none =>
    rw [Option.toList_none, List.append_nil]
    exact ha
  | some x =>
    rw [Option.toList_some]
    refine ⟨by cases x <;> simp [waits], ?_⟩
    rw [List.count_append, List.count_append]
    cases x with
    | made =>
      show log.count .sent + 0 + 1 ≤ log.count .made + 1
      omega
    | sent =>
      rw [sent rfl] at hcount
      exact hcount

end Asking

namespace Engine

variable [Jitter] {e : Engine} {cfg : Settings} {op : Operation} {now : Nat}

def asking? (e : Engine) (mesh : UInt32) (h : Handle) (op : Operation) (now : Nat) : Option Asking :=
  if op = .request h ∧ (e.perform op now).1 = .done then some .made
  else if (Air.frame? (e.perform op now).1).bind (Advertisement.asked? mesh) = some h then some .sent
  else none

/-- A node that is not up yet has no request waiting. -/
theorem Reachable.requested_of_down (he : e.Reachable) (down : e.isUp = false) (h : Handle) :
    e.timetable.requested h = false := by
  have empty : e.store.handleCount = 0 := by
    refine he.of_step (P := fun e => e.isUp = false → e.store.handleCount = 0) (fun _ => rfl) ?_ down
    intro e e' op now hempty hstep hdown
    cases hup : e.isUp with
    | true =>
      rw [hstep.isUp hup] at hdown
      cases hdown
    | false =>
      rcases hstep.of_down hup with ⟨cfg, a, up, -⟩ | ⟨-, hstore⟩
      · rw [isUp_of_settings up] at hdown
        cases hdown
      · rw [hstore]
        exact hempty hup
  rw [← Bool.not_eq_true, Timetable.requested_eq_true_iff]
  rintro ⟨s, hs, -⟩
  have hw := (Handle.within_iff_pos.1 (HandleTable.within_of_get? hs)).2
  rw [he.sound.slots, empty] at hw
  exact absurd hw (Nat.not_lt_zero _)

theorem requested_takeFrame (he : e.Reachable) (up : e.settings = .ok cfg) (h : Handle) (now : Nat) :
    (e.takeFrame cfg.accessAddress now).2.timetable.requested h =
      if (e.takeFrame cfg.accessAddress now).1.bind (Advertisement.asked? cfg.accessAddress) = some h then false
      else e.timetable.requested h := by
  cases hn : (e.timetable.next now).1 with
  | none =>
    rw [takeFrame_of_none _ hn, Option.bind_none, if_neg (Option.some_ne_none h).symm]
    exact Timetable.requested_promote ..
  | some item =>
    obtain ⟨-, adv, lastActivity, hadv, hsaid, hframe⟩ := advertisement_of_next he up hn
    obtain ⟨frame, henc, hdec⟩ := hframe cfg.accessAddress
    have hasked : Advertisement.asked? cfg.accessAddress frame = some h ↔ item = .request h := by
      rcases hsaid with ⟨hitem, -, rfl⟩ | ⟨hitem, r, -, -, rfl⟩
      · rw [Advertisement.asked?_of_request hdec, hitem, Option.some.injEq, Item.request.injEq]
        rfl
      · rw [Advertisement.asked?_of_value hdec, hitem]
        exact ⟨nofun, nofun⟩
    rw [takeFrame_of_some hn hadv henc, Option.bind_some]
    simp only [hasked, Timetable.requested_complete]
    rw [show (e.timetable.next now).2.requested h = e.timetable.requested h from Timetable.requested_promote ..]

/-- What is no request and no signal neither makes a request nor sends it. -/
theorem requested_perform_of_other (he : e.Reachable) (hr : ∀ k, op ≠ .request k) (hs : ∀ sig, op ≠ .signal sig)
    (h : Handle) (now : Nat) : (e.perform op now).2.timetable.requested h = e.timetable.requested h := by
  cases op with
  | request k => exact absurd rfl (hr k)
  | signal sig => exact absurd rfl (hs sig)
  | start cfg a hostReady =>
    simp only [perform]
    split
    · rfl
    · rename_i hstart
      obtain ⟨down, -, rfl⟩ := start_of_ok hstart
      exact (Timetable.requested_configure ..).trans (he.requested_of_down down h).symm
  | write k data =>
    simp only [perform]
    split
    · rfl
    · rename_i hw
      obtain ⟨-, r, -, -, -, rfl⟩ := write_of_ok hw
      exact Timetable.requested_arm ..
  | read k => rw [perform_read_snd]
  | stamp k => rw [perform_stamp_snd]
  | takeNotice =>
    rcases perform_takeNotice_snd e now with hsame | ⟨n, inbox, -, hs⟩
    · rw [hsame]
    · rw [hs]
  | windowRefused => rfl
  | receive frame =>
    show (e.receive frame now).2.timetable.requested h = _
    rcases timetable_receive_cases e frame now with ht | ⟨k, ht⟩
    · rw [ht]
    · rw [ht, Timetable.requested_arm]

/-- **A request waits from when it is made until it is sent.** -/
theorem requested_perform (he : e.Reachable) (under : ∀ cfg', e.settings = .ok cfg' → cfg' = cfg) (op : Operation)
    (h : Handle) (now : Nat) : (e.perform op now).2.timetable.requested h =
      Asking.waits (e.timetable.requested h) (e.asking? cfg.accessAddress h op now) := by
  by_cases hs : ∃ sig, op = .signal sig
  · obtain ⟨sig, rfl⟩ := hs
    have unmade : ¬ (Operation.signal sig = .request h ∧ (e.perform (.signal sig) now).1 = .done) := by
      rintro ⟨hop, -⟩
      cases hop
    rw [asking?, if_neg unmade]
    show (e.signal sig now).2.timetable.requested h =
      Asking.waits _ (if (Air.frame? (.task (e.signal sig now).1)).bind _ = some h then _ else _)
    rcases Air.signal_cases e sig now with ⟨cfg', up, hf, ht⟩ | ⟨hf, ht⟩
    · cases under cfg' up
      rw [ht, hf, requested_takeFrame he up]
      split <;> rfl
    · rw [ht, hf, Option.bind_none, if_neg (Option.some_ne_none h).symm]
      rfl
  · have hs : ∀ sig, op ≠ .signal sig := not_exists.1 hs
    rw [asking?, Air.frame?_of_not_signal hs, Option.bind_none, if_neg (Option.some_ne_none h).symm]
    by_cases hr : ∃ k, op = .request k
    · obtain ⟨k, rfl⟩ := hr
      cases hok : e.request k with
      | error f =>
        have refused : e.perform (.request k) now = (.refused f, e) := by simp only [perform, hok]
        rw [refused, if_neg (by simp)]
        rfl
      | ok e' =>
        obtain ⟨t, ht, rfl⟩ := request_of_ok hok
        simp only [perform, hok, Operation.request.injEq, and_true]
        rw [Timetable.requested_request ht]
        simp only [eq_comm (a := h)]
        split <;> rfl
    · have hr : ∀ k, op ≠ .request k := not_exists.1 hr
      rw [requested_perform_of_other he hr hs, if_neg fun hc => hr h hc.1]
      rfl

/-- **A frame that asks for a value is of a request that waits, and names its own node.** -/
theorem request_of_frame (he : e.Reachable) (under : ∀ cfg', e.settings = .ok cfg' → cfg' = cfg) {frame : List UInt8}
    {adv : Advertisement} (sent : Air.frame? (e.perform op now).1 = some frame)
    (decodes : Advertisement.decode frame cfg.accessAddress = .ok adv) (asks : adv.kind = .request) :
    adv = .request adv.copy.handle e.address ∧ e.timetable.requested adv.copy.handle = true ∧ e.settings = .ok cfg := by
  obtain ⟨sig, mesh, channel, -, ht⟩ := Air.signal_of_frame? sent
  obtain ⟨cfg', up, -, -, htx, -⟩ := signal_of_open ht
  cases under cfg' up
  obtain ⟨h, -, said, -⟩ := (sends_takeFrame he up now).conveys frame htx.symm
  rcases said with ⟨hd, hr, -⟩ | ⟨r, -, -, hd, -⟩
  · cases decodes.symm.trans hd
    exact ⟨rfl, hr, up⟩
  · cases decodes.symm.trans hd
    cases asks

theorem requested_of_sent (he : e.Reachable) (under : ∀ cfg', e.settings = .ok cfg' → cfg' = cfg) {h : Handle}
    (sent : e.asking? cfg.accessAddress h op now = some .sent) : e.timetable.requested h = true := by
  unfold asking? at sent
  split at sent
  · cases sent
  · split at sent
    · rename_i hf
      obtain ⟨frame, hframe, hasked⟩ := Option.bind_eq_some_iff.1 hf
      obtain ⟨adv, hd, asks, rfl⟩ := Advertisement.exists_of_asked? hasked
      exact (request_of_frame he under hframe hd asks).2.1
    · cases sent

end Engine

namespace Air

open Engine (Operation)

section

variable [Jitter] {a : Air} {cfg : Settings} {addresses : List Address} {events : List Event} {x : Event} {i : Nat}
  {h : Handle}

def requestedAt (a : Air) (i : Nat) (h : Handle) : Bool := (a.nodes[i]?).any (·.timetable.requested h)

def askingAt? (a : Air) (mesh : UInt32) (i : Nat) (h : Handle) (x : Event) : Option Asking :=
  if x.node = i then (a.nodes[i]?).bind fun e => e.asking? mesh h x.op x.now else none

def askings (a : Air) (mesh : UInt32) (i : Nat) (h : Handle) : List Event → List Asking
  | [] => []
  | x :: rest => (a.askingAt? mesh i h x).toList ++ (a.step x).askings mesh i h rest

/-! ## One event -/

theorem requestedAt_step (ha : a.Under cfg) (x : Event) (i : Nat) (h : Handle) : (a.step x).requestedAt i h =
    Asking.waits (a.requestedAt i h) (a.askingAt? cfg.accessAddress i h x) := by
  unfold requestedAt askingAt?
  rw [getElem?_step]
  cases hi : a.nodes[i]? with
  | none => split <;> rfl
  | some e =>
    obtain ⟨hr, under⟩ := ha e (List.mem_of_getElem? hi)
    simp only [Option.map_some, Option.any_some, Option.bind_some]
    split
    · exact Engine.requested_perform hr under x.op h x.now
    · rfl

theorem requestedAt_of_sent (ha : a.Under cfg) (sent : a.askingAt? cfg.accessAddress i h x = some .sent) :
    a.requestedAt i h = true := by
  unfold askingAt? at sent
  split at sent
  · obtain ⟨e, he, sent⟩ := Option.bind_eq_some_iff.1 sent
    obtain ⟨hr, under⟩ := ha e (List.mem_of_getElem? he)
    rw [requestedAt, he]
    exact Engine.requested_of_sent hr under sent
  · cases sent

theorem sent?_receive {frame : List UInt8} (hop : x.op = .receive frame) : a.sent? x = none := by
  rw [sent?, hop]
  cases a.nodes[x.node]? <;> rfl

theorem Enrolled.request_of_sent? (ha : a.Enrolled cfg addresses) {frame : List UInt8} {adv : Advertisement}
    (sent : a.sent? x = some frame) (decodes : Advertisement.decode frame cfg.accessAddress = .ok adv)
    (asks : adv.kind = .request) : a.requestedAt x.node adv.copy.handle = true ∧
    ∃ origin, addresses[x.node]? = some origin ∧ adv = .request adv.copy.handle origin := by
  obtain ⟨e, he, hf⟩ := Option.bind_eq_some_iff.1 sent
  obtain ⟨hr, hid⟩ := ha x.node e he
  obtain ⟨hadv, waiting, up⟩ := Engine.request_of_frame hr (fun cfg' up => (hid cfg' up).1) hf decodes asks
  refine ⟨?_, e.address, (hid cfg up).2, hadv⟩
  rw [requestedAt, he]
  exact waiting

/-! ## Whole courses -/

theorem Enrolled.run (ha : a.Enrolled cfg addresses) (joins : ∀ x ∈ events, Joins cfg addresses x) :
    (a.run events).Enrolled cfg addresses := by
  induction events generalizing a with
  | nil => exact ha
  | cons x rest ih =>
    exact ih (ha.step (joins x List.mem_cons_self)) fun y hy => joins y (List.mem_cons_of_mem _ hy)

theorem accounts_run (ha : a.Enrolled cfg addresses) (joins : ∀ x ∈ events, Joins cfg addresses x) {log : List Asking}
    (accounts : Asking.Accounts log (a.requestedAt i h)) :
    Asking.Accounts (log ++ a.askings cfg.accessAddress i h events) ((a.run events).requestedAt i h) := by
  induction events generalizing a log with
  | nil => rwa [askings, List.append_nil]
  | cons x rest ih =>
    have hx := accounts.append (requestedAt_of_sent (x := x) ha.under)
    rw [← requestedAt_step ha.under] at hx
    rw [askings, ← List.append_assoc]
    exact ih (ha.step (joins x List.mem_cons_self)) (fun y hy => joins y (List.mem_cons_of_mem _ hy)) hx

theorem accounts_ofAddresses (addresses : List Address) (i : Nat) (h : Handle) :
    Asking.Accounts [] ((ofAddresses addresses).requestedAt i h) := by
  have hnot : (ofAddresses addresses).requestedAt i h = false := by
    rw [requestedAt, ofAddresses, List.getElem?_map]
    cases addresses[i]? with
    | none => rfl
    | some address => exact Engine.reachable_fresh.requested_of_down rfl h
  rw [hnot]
  exact ⟨by simp, Nat.le_refl 0⟩

/-- **Requests are sent as they are made.**  Whatever fresh nodes at any addresses do together under settings `cfg`: the
request of a node for a value waits just if the last thing done about it was to make it, and it was sent at most as
often as it was made.  In each single event, nothing is sent on receiving a frame; a frame that asks for a value is of a
request of its sender that waits, and names the sender and nothing else; and a request that waits goes on waiting unless
the event is that its node sends it.  Up to `Machine.latest` the machine follows them. -/
theorem requests_are_sent_as_made (course : Course cfg addresses events) :
    (∀ i h, (((ofAddresses addresses).run events).requestedAt i h = true ↔
        ((ofAddresses addresses).askings cfg.accessAddress i h events).getLast? = some .made) ∧
      ((ofAddresses addresses).askings cfg.accessAddress i h events).count .sent ≤
        ((ofAddresses addresses).askings cfg.accessAddress i h events).count .made) ∧
    (∀ pre x post, events = pre ++ x :: post →
      (∀ frame, x.op = .receive frame → ((ofAddresses addresses).run pre).sent? x = none) ∧
      (∀ frame adv, ((ofAddresses addresses).run pre).sent? x = some frame →
        Advertisement.decode frame cfg.accessAddress = .ok adv → adv.kind = .request →
        ((ofAddresses addresses).run pre).requestedAt x.node adv.copy.handle = true ∧
        ∃ origin, addresses[x.node]? = some origin ∧ adv = .request adv.copy.handle origin) ∧
      ∀ i h, ((ofAddresses addresses).run pre).requestedAt i h = true →
        ((ofAddresses addresses).run pre).askingAt? cfg.accessAddress i h x ≠ some .sent →
        ((ofAddresses addresses).run (pre ++ [x])).requestedAt i h = true) ∧
    (ofAddresses addresses).Followed events := by
  have start := enrolled_ofAddresses cfg addresses
  refine ⟨fun i h => ?_, ?_, followed_ofAddresses _ _⟩
  · have accounts := accounts_run start course.joins (accounts_ofAddresses addresses i h)
    rw [List.nil_append] at accounts
    exact ⟨accounts.last, Nat.le_trans (Nat.le_add_right ..) accounts.count⟩
  · rintro pre x post rfl
    have enrolled := start.run fun y hy => course.joins y (List.mem_append_left _ hy)
    refine ⟨fun frame hop => sent?_receive hop, fun frame adv sent decodes asks =>
      enrolled.request_of_sent? sent decodes asks, fun i h waiting kept => ?_⟩
    rw [run_append]
    show ((((ofAddresses addresses).run pre).step x).requestedAt i h) = true
    rw [requestedAt_step enrolled.under, waiting]
    cases hx : ((ofAddresses addresses).run pre).askingAt? cfg.accessAddress i h x with
    | none => rfl
    | some asking =>
      cases asking with
      | made => rfl
      | sent => exact absurd hx kept

end

/-- Node 0 asks for a value twice before its first window, which is taken back, and once more when it has sent the
request in the second one.  Node 1 holds the value and hears the request twice. -/
theorem request_made_again_waits :
    let cfg : Settings := ⟨0x8E89BED6, 38, 10, 100⟩
    let addresses : List Address := [⟨0x11, 0, 0, 0, 0, 0⟩, ⟨0x12, 0, 0, 0, 0, 0⟩]
    let frame : List UInt8 := [0xD6, 0xBE, 0x89, 0x8E, 2, 10, 0x11, 0, 0, 0, 0, 0, 3, 0, 0, 0]
    let events : List Event := [⟨0, .start cfg ⟨0x11, 0, 0, 0, 0, 0⟩ true, 0⟩,
      ⟨1, .start cfg ⟨0x12, 0, 0, 0, 0, 0⟩ true, 0⟩, ⟨1, .write 3 [7], 1⟩, ⟨0, .request 3, 1⟩, ⟨0, .request 3, 2⟩,
      ⟨0, .signal .tick, 3⟩, ⟨0, .signal .denied, 4⟩, ⟨0, .signal .tick, 5⟩, ⟨0, .signal .started, 6⟩,
      ⟨1, .signal .tick, 5⟩, ⟨1, .signal .started, 6⟩, ⟨1, .receive frame, 7⟩, ⟨0, .request 3, 7⟩,
      ⟨1, .receive frame, 8⟩]
    let a := ofAddresses addresses
    Course cfg addresses events ∧ (a.run events).frames = [frame] ∧
    a.askings cfg.accessAddress 0 3 events = [.made, .made, .sent, .made] ∧
    a.askings cfg.accessAddress 1 3 events = [] ∧
    (a.run events).requestedAt 0 3 = true ∧ ¬ (a.run events).requestedAt 1 3 = true := by
  intro cfg addresses frame events a
  have course : Course cfg addresses events := ⟨by decide +kernel, by decide +kernel⟩
  have frames : (a.run events).frames = [frame] := by decide +kernel
  have asked : a.askings cfg.accessAddress 0 3 events = [.made, .made, .sent, .made] := by decide +kernel
  have unasked : a.askings cfg.accessAddress 1 3 events = [] := by decide +kernel
  obtain ⟨waits, -⟩ := requests_are_sent_as_made course
  refine ⟨course, frames, asked, unasked, ?_, ?_⟩
  · rw [(waits 0 3).1, asked]
    rfl
  · rw [(waits 1 3).1, unasked]
    nofun

end Air
end ValueMesh
