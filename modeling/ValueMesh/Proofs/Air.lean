import ValueMesh.Proofs.Running
/-!
# Any number of nodes on one air

Whatever nodes may do that exchange frames: any operation at any of them, at any time and in any order.  A frame that
is handed out is in flight from then on, and a node receives only frames in flight; receiving one leaves it in flight.
So a frame may be heard never, late, by several nodes, and more than once by the same one.

A value reaches a node only on such a frame: a step makes no copy that was not held or in flight before, unless it
writes it (`mem_copies_step`, `mem_copies_of_step`).
-/
namespace ValueMesh

structure Air [Jitter] where
  nodes : List Engine
  /-- The frames in flight. -/
  frames : List (List UInt8)

namespace Air

open Engine (Operation Answer Reachable Step)

variable [Jitter]

structure Event where
  node : Nat
  op : Operation
  now : Nat

def frame? : Answer → Option (List UInt8)
  | .task (.openWindow _ _ frame) => frame
  | _ => none

def sent? (a : Air) (x : Event) : Option (List UInt8) :=
  (a.nodes[x.node]?).bind fun e => frame? (e.perform x.op x.now).1

def step (a : Air) (x : Event) : Air :=
  ⟨a.nodes.modify x.node fun e => (e.perform x.op x.now).2, (a.sent? x).toList ++ a.frames⟩

def run (a : Air) : List Event → Air
  | [] => a
  | x :: rest => (a.step x).run rest

def received? : Operation → Option (List UInt8)
  | .receive frame => some frame
  | _ => none

def Legal (permitted : Operation → Prop) : Air → List Event → Prop
  | _, [] => True
  | a, x :: rest => permitted x.op ∧ (∀ frame ∈ received? x.op, frame ∈ a.frames) ∧ Legal permitted (a.step x) rest

instance (permitted : Operation → Prop) [DecidablePred permitted] :
    ∀ (a : Air) (events : List Event), Decidable (Legal permitted a events)
  | _, [] => inferInstanceAs (Decidable True)
  | a, x :: rest =>
    have := instDecidableLegalOfDecidablePredOperation permitted (a.step x) rest
    inferInstanceAs (Decidable (_ ∧ _ ∧ _))

def Spares (h : Handle) : Operation → Prop
  | .write k _ => k ≠ h
  | _ => True

instance (h : Handle) : DecidablePred (Spares h)
  | .write k _ => inferInstanceAs (Decidable (k ≠ h))
  | .start .. | .read _ | .stamp _ | .request _ | .takeNotice | .signal _ | .windowRefused | .receive _ =>
    inferInstanceAs (Decidable True)

/-- The machine follows each event of a course whose time is not past `Machine.latest`: it does not stop, and answer and
node are the same. -/
def Followed (a : Air) (events : List Event) : Prop :=
  ∀ pre x post, events = pre ++ x :: post → x.now ≤ Machine.latest → ∀ e, (a.run pre).nodes[x.node]? = some e →
    Machine.perform x.op x.now e = .ok (e.perform x.op x.now)

/-- All nodes came about in some history and run under the settings `cfg`. -/
def Ready (a : Air) (cfg : Settings) : Prop := ∀ e ∈ a.nodes, e.Reachable ∧ e.settings = .ok cfg

def Under (a : Air) (cfg : Settings) : Prop :=
  ∀ e ∈ a.nodes, e.Reachable ∧ ∀ cfg', e.settings = .ok cfg' → cfg' = cfg

def copyIn? (mesh : UInt32) (h : Handle) (frame : List UInt8) : Option Copy :=
  match Advertisement.decode frame mesh with
  | .ok ⟨.value, c⟩ => if c.handle = h then some c else none
  | _ => none

def copies (a : Air) (mesh : UInt32) (h : Handle) : List Copy :=
  a.nodes.filterMap (·.store.copy? h) ++ a.frames.filterMap (copyIn? mesh h)

def copyAt? (a : Air) (i : Nat) (h : Handle) : Option Copy := (a.nodes[i]?).bind (·.store.copy? h)

def versionAt (a : Air) (i : Nat) (h : Handle) : Version := ((a.copyAt? i h).map (·.version)).getD 0

/-- A write that was answered with a version. -/
structure Write where
  node : Nat
  handle : Handle
  version : Version
  data : List UInt8
  deriving DecidableEq, Repr

def Write.copy (w : Write) (origin : Address) : Copy := ⟨w.handle, w.version, origin, w.data⟩

def answer? (a : Air) (x : Event) : Option Answer := (a.nodes[x.node]?).map fun e => (e.perform x.op x.now).1

def written? (a : Air) (x : Event) : Option Write :=
  match x.op, a.answer? x with
  | .write h data, some (.written version _) => some ⟨x.node, h, version, data⟩
  | _, _ => none

omit [Jitter] in
theorem Spares.ne_write {h : Handle} {op : Operation} (hs : Spares h op) (data : List UInt8) : op ≠ .write h data := by
  rintro rfl
  exact hs rfl

theorem run_append (a : Air) (pre post : List Event) : a.run (pre ++ post) = (a.run pre).run post := by
  induction pre generalizing a with
  | nil => rfl
  | cons x rest ih => exact ih _

theorem legal_append {permitted : Operation → Prop} {a : Air} {pre post : List Event} :
    Legal permitted a (pre ++ post) ↔ Legal permitted a pre ∧ Legal permitted (a.run pre) post := by
  induction pre generalizing a with
  | nil => exact ⟨fun h => ⟨trivial, h⟩, And.right⟩
  | cons x rest ih =>
    simp only [List.cons_append, Legal, run, ih]
    exact ⟨fun ⟨h1, h2, h3, h4⟩ => ⟨⟨h1, h2, h3⟩, h4⟩, fun ⟨⟨h1, h2, h3⟩, h4⟩ => ⟨h1, h2, h3, h4⟩⟩

omit [Jitter] in
theorem copyIn?_eq_some_iff {mesh : UInt32} {h : Handle} {frame : List UInt8} {c : Copy} :
    copyIn? mesh h frame = some c ↔ Advertisement.decode frame mesh = .ok (.value c) ∧ c.handle = h := by
  unfold copyIn?
  split
  · rename_i d hd
    rw [hd]
    simp only [Advertisement.value, Except.ok.injEq, Advertisement.mk.injEq, true_and, Option.ite_none_right_eq_some,
      Option.some.injEq]
    constructor
    · rintro ⟨hh, rfl⟩
      exact ⟨rfl, hh⟩
    · rintro ⟨rfl, hh⟩
      exact ⟨hh, rfl⟩
  · rename_i hne
    constructor
    · intro hc
      cases hc
    · rintro ⟨hd, -⟩
      exact absurd hd (hne c)

omit [Jitter] in
theorem copyIn?_of_decode_value {mesh : UInt32} {h : Handle} {frame : List UInt8} {c : Copy}
    (hd : Advertisement.decode frame mesh = .ok (.value c)) :
    copyIn? mesh h frame = if c.handle = h then some c else none := by
  rw [copyIn?, hd]
  rfl

omit [Jitter] in
theorem copyIn?_of_decode_request {mesh : UInt32} {h k : Handle} {frame : List UInt8} {origin : Address}
    (hd : Advertisement.decode frame mesh = .ok (.request k origin)) : copyIn? mesh h frame = none := by
  rw [copyIn?, hd]
  rfl

theorem copyAt?_eq_some_iff {a : Air} {i : Nat} {h : Handle} {c : Copy} :
    a.copyAt? i h = some c ↔ ∃ e, a.nodes[i]? = some e ∧ e.store.copy? h = some c := by
  unfold copyAt?
  exact Option.bind_eq_some_iff

theorem mem_copies_iff {a : Air} {mesh : UInt32} {h : Handle} {c : Copy} : c ∈ a.copies mesh h ↔
    (∃ i, a.copyAt? i h = some c) ∨ ∃ frame ∈ a.frames, copyIn? mesh h frame = some c := by
  unfold copies
  rw [List.mem_append, List.mem_filterMap, List.mem_filterMap]
  refine or_congr_left ?_
  constructor
  · rintro ⟨e, he, hc⟩
    obtain ⟨i, hi⟩ := List.mem_iff_getElem?.1 he
    exact ⟨i, copyAt?_eq_some_iff.2 ⟨e, hi, hc⟩⟩
  · rintro ⟨i, hi⟩
    obtain ⟨e, he, hc⟩ := copyAt?_eq_some_iff.1 hi
    exact ⟨e, List.mem_of_getElem? he, hc⟩

theorem mem_copies_of_held {a : Air} {i : Nat} {h : Handle} {c : Copy} (mesh : UInt32) (hc : a.copyAt? i h = some c) :
    c ∈ a.copies mesh h :=
  mem_copies_iff.2 (Or.inl ⟨i, hc⟩)

theorem mem_copies_of_inFlight {a : Air} {mesh : UInt32} {h : Handle} {frame : List UInt8} {c : Copy}
    (hf : frame ∈ a.frames) (hc : copyIn? mesh h frame = some c) : c ∈ a.copies mesh h :=
  mem_copies_iff.2 (Or.inr ⟨frame, hf, hc⟩)

omit [Jitter] in
theorem copyIn?_of_decode {mesh : UInt32} {frame : List UInt8} {c : Copy}
    (hd : Advertisement.decode frame mesh = .ok (.value c)) : copyIn? mesh c.handle frame = some c :=
  copyIn?_eq_some_iff.2 ⟨hd, rfl⟩

theorem handle_of_mem_copies {a : Air} {mesh : UInt32} {h : Handle} {c : Copy} (hc : c ∈ a.copies mesh h) :
    c.handle = h := by
  rcases mem_copies_iff.1 hc with ⟨i, hi⟩ | ⟨frame, -, hf⟩
  · obtain ⟨e, -, hheld⟩ := copyAt?_eq_some_iff.1 hi
    obtain ⟨r, -, -, rfl⟩ := Store.copy?_eq_some_iff.1 hheld
    rfl
  · exact (copyIn?_eq_some_iff.1 hf).2

/-! ## One step -/

theorem getElem?_step (a : Air) (x : Event) (i : Nat) : (a.step x).nodes[i]? =
    (a.nodes[i]?).map fun e => if x.node = i then (e.perform x.op x.now).2 else e := by
  unfold step
  rw [List.getElem?_modify]
  split <;> cases a.nodes[i]? <;> rfl

theorem mem_frames_step {a : Air} {x : Event} {frame : List UInt8} :
    frame ∈ (a.step x).frames ↔ a.sent? x = some frame ∨ frame ∈ a.frames := by
  unfold step
  rw [List.mem_append, Option.mem_toList]

theorem signal_of_frame? {e : Engine} {op : Operation} {now : Nat} {frame : List UInt8}
    (hf : frame? (e.perform op now).1 = some frame) :
    ∃ sig mesh channel, op = .signal sig ∧ (e.signal sig now).1 = .openWindow mesh channel (some frame) := by
  cases op with
  | signal sig =>
    change frame? (.task (e.signal sig now).1) = some frame at hf
    cases ht : (e.signal sig now).1 with
    | openWindow mesh channel sent =>
      rw [ht] at hf
      exact ⟨sig, mesh, channel, rfl, ht.trans (congrArg _ hf)⟩
    | none | requestWindow | listen | close => rw [ht] at hf; cases hf
  | windowRefused | receive => cases hf
  | start | write | read | stamp | request | takeNotice =>
    simp only [Engine.perform] at hf
    split at hf <;> cases hf

theorem frame?_of_not_signal {e : Engine} {op : Operation} {now : Nat} (hop : ∀ sig, op ≠ .signal sig) :
    frame? (e.perform op now).1 = none := by
  cases hf : frame? (e.perform op now).1 with
  | none => rfl
  | some frame =>
    obtain ⟨sig, -, -, hsig, -⟩ := signal_of_frame? hf
    exact absurd hsig (hop sig)

/-- **A signal leaves the timetable alone and hands out no frame, or it opens a window and both are of that window.** -/
theorem signal_cases (e : Engine) (sig : Signal) (now : Nat) :
    (∃ cfg, e.settings = .ok cfg ∧ frame? (.task (e.signal sig now).1) = (e.takeFrame cfg.accessAddress now).1 ∧
      (e.signal sig now).2.timetable = (e.takeFrame cfg.accessAddress now).2.timetable) ∨
    frame? (.task (e.signal sig now).1) = none ∧ (e.signal sig now).2.timetable = e.timetable := by
  have lends := Engine.lends_signal e sig now
  generalize (e.signal sig now).1 = task at lends
  generalize (e.signal sig now).2 = e' at lends
  cases lends with
  | opens up => exact Or.inl ⟨_, up, rfl, rfl⟩
  | rest | ask | goesOn | closes => exact Or.inr ⟨rfl, rfl⟩

variable {a : Air} {cfg : Settings} {h : Handle} {x : Event}

theorem Ready.step (ha : a.Ready cfg) (x : Event) : (a.step x).Ready cfg := by
  intro e he
  obtain ⟨i, hi⟩ := List.mem_iff_getElem?.1 he
  rw [getElem?_step] at hi
  obtain ⟨e₀, h₀, rfl⟩ := Option.map_eq_some_iff.1 hi
  obtain ⟨hr, up⟩ := ha e₀ (List.mem_of_getElem? h₀)
  split
  · exact ⟨hr.perform .., (Engine.step_perform ..).settings up⟩
  · exact ⟨hr, up⟩

theorem reachable_step (ha : ∀ e ∈ a.nodes, e.Reachable) (x : Event) : ∀ e ∈ (a.step x).nodes, e.Reachable := by
  intro e he
  obtain ⟨i, hi⟩ := List.mem_iff_getElem?.1 he
  rw [getElem?_step] at hi
  obtain ⟨e₀, h₀, rfl⟩ := Option.map_eq_some_iff.1 hi
  have hr := ha e₀ (List.mem_of_getElem? h₀)
  split
  · exact hr.perform ..
  · exact hr

theorem reachable_run (ha : ∀ e ∈ a.nodes, e.Reachable) (events : List Event) :
    ∀ e ∈ (a.run events).nodes, e.Reachable := by
  induction events generalizing a with
  | nil => exact ha
  | cons x rest ih => exact ih (reachable_step ha x)

/-- **The machine follows nodes that come about wherever they go.** -/
theorem followed_of_reachable (ha : ∀ e ∈ a.nodes, e.Reachable) (events : List Event) : a.Followed events :=
  fun pre x _ _ early e he => Machine.perform_eq (reachable_run ha pre e (List.mem_of_getElem? he)) early x.op

theorem Ready.followed (ha : a.Ready cfg) (events : List Event) : a.Followed events :=
  followed_of_reachable (fun e he => (ha e he).1) events

theorem Ready.under (ha : a.Ready cfg) : a.Under cfg := by
  intro e he
  obtain ⟨hr, up⟩ := ha e he
  refine ⟨hr, fun cfg' up' => ?_⟩
  cases up.symm.trans up'
  rfl

theorem written?_eq_some_iff {w : Write} : a.written? x = some w ↔ w.node = x.node ∧
    x.op = .write w.handle w.data ∧ ∃ e evicted, a.nodes[w.node]? = some e ∧
      (e.perform (.write w.handle w.data) x.now).1 = .written w.version evicted := by
  unfold written?
  constructor
  · intro hw
    split at hw
    · rename_i h data version evicted hop ha
      obtain ⟨e, he, ha⟩ := Option.map_eq_some_iff.1 ha
      cases hw
      exact ⟨rfl, hop, e, evicted, he, hop ▸ ha⟩
    · cases hw
  · rintro ⟨hnode, hop, e, evicted, he, ha⟩
    rw [answer?, hop, ← hnode, he, Option.map_some, ha]

/-- **A write is answered with the version after the one the node has.** -/
theorem version_of_written? (ha : a.Under cfg) {w : Write} (hw : a.written? x = some w) :
    w.version = a.versionAt w.node w.handle + 1 := by
  obtain ⟨-, -, e, evicted, he, answered⟩ := written?_eq_some_iff.1 hw
  obtain ⟨e', hwrite⟩ := Engine.write_of_written answered
  obtain ⟨-, r, held, -, hv, -⟩ := Engine.write_of_ok hwrite
  rw [(Prod.mk.inj hv).1, versionAt, copyAt?, he, Option.bind_some, Store.copy?_of_get? held, Replica.copy?]
  cases hal : r.allocated with
  | true => rfl
  | false => rw [(ha e (List.mem_of_getElem? he)).1.version_of_blank held hal]; rfl

theorem copyAt?_of_written? {w : Write} {e : Engine} (hw : a.written? x = some w) (he : a.nodes[w.node]? = some e) :
    (a.step x).copyAt? w.node w.handle = some (w.copy e.address) := by
  obtain ⟨hnode, hop, e₀, evicted, h₀, answered⟩ := written?_eq_some_iff.1 hw
  cases he.symm.trans h₀
  obtain ⟨e', hwrite⟩ := Engine.write_of_written answered
  obtain ⟨-, r, held, -, hv, rfl⟩ := Engine.write_of_ok hwrite
  rw [copyAt?, getElem?_step, he, Option.map_some, if_pos hnode.symm, Option.bind_some, hop,
    Engine.perform_write_of_ok hwrite]
  show (e.store.put w.handle (r.write w.data e.address x.now)).copy? w.handle = _
  rw [Store.copy?_of_get? (Store.get?_put_self _ held), Write.copy, (Prod.mk.inj hv).1]
  rfl

theorem versionAt_of_copyAt? {i : Nat} {c : Copy} (hc : a.copyAt? i h = some c) : a.versionAt i h = c.version := by
  rw [versionAt, hc]
  rfl

theorem versionAt_of_none {i : Nat} (hc : a.copyAt? i h = none) : a.versionAt i h = 0 := by
  rw [versionAt, hc]
  rfl

/-- **What a step leaves of the copy a node holds**: the copy itself, or the one the step writes, or what stays when
the copy meets the one that the node received. -/
theorem copyAt?_step_cases (ha : a.Under cfg) (x : Event) (i : Nat) (h : Handle) :
    (a.step x).copyAt? i h = a.copyAt? i h ∨
    (∃ w e, a.written? x = some w ∧ w.node = i ∧ w.handle = h ∧ a.nodes[i]? = some e ∧
      (a.step x).copyAt? i h = some (w.copy e.address)) ∨
    ∃ frame c, x.op = .receive frame ∧ copyIn? cfg.accessAddress h frame = some c ∧
      (a.step x).copyAt? i h = some (c.upon (a.copyAt? i h)) := by
  unfold copyAt?
  rw [getElem?_step]
  cases hi : a.nodes[i]? with
  | none => exact Or.inl rfl
  | some e =>
    simp only [Option.map_some, Option.bind_some]
    split
    · rename_i hnode
      obtain ⟨hr, up⟩ := ha e (List.mem_of_getElem? hi)
      rcases hr.copy_cases x.op x.now h with
        hsame | ⟨data, r, evicted, hop, -, answered, hafter⟩ | ⟨frame, c, hop, ⟨-, cfg', up', -, hd⟩, hc, hupon⟩
      · exact Or.inl hsame
      · have hw : a.written? x = some ⟨i, h, r.version + 1, data⟩ :=
          written?_eq_some_iff.2 ⟨hnode.symm, hop, e, evicted, hi, hop ▸ answered⟩
        exact Or.inr (Or.inl ⟨_, e, hw, rfl, rfl, rfl, hafter⟩)
      · cases up cfg' up'
        exact Or.inr (Or.inr ⟨frame, c, hop, copyIn?_eq_some_iff.2 ⟨hd, hc⟩, hupon⟩)
    · exact Or.inl rfl

theorem copyAt?_step (ha : a.Under cfg) (spares : Spares h x.op) (i : Nat) :
    (a.step x).copyAt? i h = a.copyAt? i h ∨ ∃ frame c, x.op = .receive frame ∧
      copyIn? cfg.accessAddress h frame = some c ∧ (a.step x).copyAt? i h = some (c.upon (a.copyAt? i h)) := by
  rcases copyAt?_step_cases ha x i h with hsame | ⟨w, e, hw, -, rfl, -⟩ | hheard
  · exact Or.inl hsame
  · exact absurd (written?_eq_some_iff.1 hw).2.1 (spares.ne_write w.data)
  · exact Or.inr hheard

/-- **A frame that is sent carries the copy its sender holds.** -/
theorem copyAt?_of_sent? (ha : a.Under cfg) {frame : List UInt8} {c : Copy} (sent : a.sent? x = some frame)
    (carries : copyIn? cfg.accessAddress h frame = some c) : a.copyAt? x.node h = some c := by
  obtain ⟨e, he, hf⟩ := Option.bind_eq_some_iff.1 sent
  obtain ⟨hr, up⟩ := ha e (List.mem_of_getElem? he)
  obtain ⟨sig, mesh, channel, -, ht⟩ := signal_of_frame? hf
  obtain ⟨⟨cfg', up', rfl⟩, -⟩ := Engine.frame_of_signal ht
  cases up cfg' up'
  obtain ⟨hd, rfl⟩ := copyIn?_eq_some_iff.1 carries
  exact copyAt?_eq_some_iff.2 ⟨e, he, Engine.copy?_of_frame hr.sound ht hd⟩

/-- **No copy comes about but by a write.** -/
theorem mem_copies_step (ha : a.Under cfg) (inFlight : ∀ frame ∈ received? x.op, frame ∈ a.frames) {c : Copy}
    (hc : c ∈ (a.step x).copies cfg.accessAddress h) : c ∈ a.copies cfg.accessAddress h ∨
    ∃ w e, a.written? x = some w ∧ w.handle = h ∧ a.nodes[w.node]? = some e ∧ c = w.copy e.address := by
  rcases mem_copies_iff.1 hc with ⟨i, hi⟩ | ⟨frame, hf, hc⟩
  · rcases copyAt?_step_cases ha x i h with
      hsame | ⟨w, e, hw, rfl, hh, he, hafter⟩ | ⟨frame, d, hop, hd, hupon⟩
    · exact Or.inl (mem_copies_of_held _ (hsame ▸ hi))
    · exact Or.inr ⟨w, e, hw, hh, he, Option.some.inj (hi.symm.trans hafter)⟩
    · cases hupon.symm.trans hi
      rcases Copy.upon_eq_or d (a.copyAt? i h) with hh | hh
      · rw [hh]
        exact Or.inl (mem_copies_of_inFlight (inFlight frame (hop ▸ rfl)) hd)
      · exact Or.inl (mem_copies_of_held _ hh)
  · rcases mem_frames_step.1 hf with hs | hf
    · exact Or.inl (mem_copies_of_held _ (copyAt?_of_sent? ha hs hc))
    · exact Or.inl (mem_copies_of_inFlight hf hc)

theorem mem_copies_of_step (ha : a.Under cfg) (spares : Spares h x.op)
    (inFlight : ∀ frame ∈ received? x.op, frame ∈ a.frames) {c : Copy}
    (hc : c ∈ (a.step x).copies cfg.accessAddress h) : c ∈ a.copies cfg.accessAddress h := by
  rcases mem_copies_step ha inFlight hc with hc | ⟨w, e, hw, rfl, -⟩
  · exact hc
  · exact absurd (written?_eq_some_iff.1 hw).2.1 (spares.ne_write w.data)

end Air
end ValueMesh
