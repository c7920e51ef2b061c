import ValueMesh.Proofs.Running
/-!
# One value is nothing to another

What an operation makes of the replica of a value depends on that replica, on the session and on the address of the
node, and on nothing else (`get?_perform`); session and address are the same whatever is done to other values.  So
operations that are about other values may be left out of a history, any of them, and what is held of the value and
answered about it stays the same (`other_values_do_not_matter`).  Only whether a notice was lost to a full inbox may
differ, for all values share the inbox.
-/
namespace ValueMesh

namespace Advertisement

def isAbout (mesh : UInt32) (h : Handle) (frame : List UInt8) : Bool :=
  match decode frame mesh with
  | .ok a => a.copy.handle == h
  | .error _ => false

theorem isAbout_iff {mesh : UInt32} {h : Handle} {frame : List UInt8} :
    isAbout mesh h frame = true ↔ ∃ a, decode frame mesh = .ok a ∧ a.copy.handle = h := by
  unfold isAbout
  split
  · rename_i a ha
    rw [beq_iff_eq, ha]
    exact ⟨fun hh => ⟨a, rfl, hh⟩, fun ⟨b, hb, hh⟩ => by cases hb; exact hh⟩
  · rename_i f hf
    rw [hf]
    exact ⟨nofun, fun ⟨b, hb, _⟩ => nomatch hb⟩

end Advertisement

namespace Engine

open Advertisement (isAbout)

section

variable [Jitter] {e : Engine} {cfg : Settings} {h : Handle} {op : Operation} {now : Nat}

/-- Operations about other values than that of `h`, taking a notice among them, and frames that cannot be read. -/
def Foreign (mesh : UInt32) (h : Handle) : Operation → Prop
  | .write k _ | .read k | .stamp k | .request k => k ≠ h
  | .takeNotice => True
  | .receive frame => isAbout mesh h frame = false
  | .start .. | .signal _ | .windowRefused => False

def Concerns (mesh : UInt32) (h : Handle) : Operation → Prop
  | .write k _ | .read k | .stamp k | .request k => k = h
  | .receive frame => isAbout mesh h frame = true
  | .takeNotice | .start .. | .signal _ | .windowRefused => False

instance (mesh : UInt32) (h : Handle) : DecidablePred (Foreign mesh h)
  | .write k _ | .read k | .stamp k | .request k => inferInstanceAs (Decidable (k ≠ h))
  | .takeNotice => inferInstanceAs (Decidable True)
  | .receive frame => inferInstanceAs (Decidable (isAbout mesh h frame = false))
  | .start .. | .signal _ | .windowRefused => inferInstanceAs (Decidable False)

/-- An answer without whether a notice was lost to a full inbox. -/
def Answer.plain : Answer → Answer
  | .written version _ => .written version false
  | .received (.resolved h verdict _) => .received (.resolved h verdict false)
  | answer => answer

theorem isAbout_of_hears {frame : List UInt8} {c : Copy} (up : e.settings = .ok cfg) (hears : e.Hears frame c) :
    isAbout cfg.accessAddress c.handle frame = true := by
  obtain ⟨-, cfg', up', -, hd⟩ := hears
  cases up.symm.trans up'
  exact Advertisement.isAbout_iff.2 ⟨_, hd, rfl⟩

/-! ## One replica -/

def touch (e : Engine) (h : Handle) (op : Operation) (now : Nat) (r : Replica) : Replica :=
  match op with
  | .write k data => if k = h ∧ data.length ≤ maxValueBytes then r.write data e.address now else r
  | .receive frame =>
    match e.heard? frame with
    | some c => if c.handle = h then r.hear c now else r
    | none => r
  | _ => r

theorem map_touch_of_same (same : ∀ r, e.touch h op now r = r) (held : Option Replica) :
    held.map (e.touch h op now) = held := by
  rw [show e.touch h op now = id from funext same]
  exact Option.map_id_apply

theorem touch_write_of_not {k : Handle} {data : List UInt8} (hn : ¬ (k = h ∧ data.length ≤ maxValueBytes))
    (r : Replica) : e.touch h (.write k data) now r = r := if_neg hn

theorem get?_perform_write (up : e.settings = .ok cfg) (k : Handle) (data : List UInt8) :
    (e.perform (.write k data) now).2.store.replicas.get? h =
      (e.store.replicas.get? h).map (e.touch h (.write k data) now) := by
  rw [perform_write up]
  cases hr : e.store.replicas.get? k with
  | none =>
    by_cases hk : k = h
    · subst hk
      simp only [hr, Option.map_none]
    · rw [map_touch_of_same (touch_write_of_not fun hc => hk hc.1)]
  | some r =>
    simp only
    by_cases hl : maxValueBytes < data.length
    · rw [if_pos hl, map_touch_of_same (touch_write_of_not fun hc => Nat.not_le.2 hl hc.2)]
    · rw [if_neg hl]
      by_cases hk : k = h
      · subst hk
        rw [Store.get?_put_self _ hr, hr, Option.map_some, touch, if_pos ⟨rfl, Nat.not_lt.1 hl⟩]
      · rw [Store.get?_put_of_ne _ (Ne.symm hk), map_touch_of_same (touch_write_of_not fun hc => hk hc.1)]

theorem touch_of_hears {frame : List UInt8} {c : Copy} (hears : e.Hears frame c) (r : Replica) :
    e.touch h (.receive frame) now r = if c.handle = h then r.hear c now else r := by
  simp only [touch, heard?_eq_some_iff.2 hears]

theorem touch_of_not_hears {frame : List UInt8} (hears : ∀ c, ¬ e.Hears frame c) (r : Replica) :
    e.touch h (.receive frame) now r = r := by
  simp only [touch, heard?_of_not_hears hears]

theorem get?_perform_receive (frame : List UInt8) :
    (e.perform (.receive frame) now).2.store.replicas.get? h =
      (e.store.replicas.get? h).map (e.touch h (.receive frame) now) := by
  show (e.receive frame now).2.store.replicas.get? h = _
  by_cases hh : ∃ c, e.Hears frame c
  · obtain ⟨c, hears⟩ := hh
    rw [store_receive now hears]
    by_cases hk : c.handle = h
    · subst hk
      cases hr : e.store.replicas.get? c.handle with
      | none => rw [Store.hear, hr]; exact hr
      | some r =>
        rw [Option.map_some, touch_of_hears hears, if_pos rfl]
        exact Store.get?_hear now hr (length_le_of_hears hears)
    · rw [map_touch_of_same fun r => (touch_of_hears hears r).trans (if_neg hk)]
      exact Store.get?_hear_of_ne now (Ne.symm hk)
  · rw [store_receive_of_not_hears now (not_exists.1 hh), map_touch_of_same (touch_of_not_hears (not_exists.1 hh))]

/-- **What an operation makes of a replica** depends on the replica, the session and the address. -/
theorem get?_perform (up : e.settings = .ok cfg) (h : Handle) (op : Operation) (now : Nat) :
    (e.perform op now).2.store.replicas.get? h = (e.store.replicas.get? h).map (e.touch h op now) := by
  cases op with
  | write k data => exact get?_perform_write up k data
  | receive frame => exact get?_perform_receive frame
  | start cfg' a hostReady =>
    rw [perform_start_of_isUp (isUp_of_settings up), map_touch_of_same fun r => rfl]
  | read | stamp | request | takeNotice | signal | windowRefused =>
    rw [store_perform_of_other (by nofun) (by nofun) (by nofun), map_touch_of_same fun r => rfl]

/-! ## Session and address -/

def sessionAfter (s : Session) : Operation → Nat → Session
  | .signal sig, now => (s.signal sig now).2
  | .windowRefused, _ => s.windowRefused
  | _, _ => s

theorem session_perform (up : e.settings = .ok cfg) (op : Operation) (now : Nat) :
    (e.perform op now).2.session = sessionAfter e.session op now := by
  cases op with
  | signal sig =>
    obtain ⟨t, n, hs, -⟩ := signal_snd e sig now
    show (e.signal sig now).2.session = _
    rw [hs]
    rfl
  | windowRefused => rfl
  | write k data =>
    rw [perform_write up]
    cases e.store.replicas.get? k with
    | none => rfl
    | some r =>
      simp only
      split <;> rfl
  | receive frame =>
    show (e.receive frame now).2.session = e.session
    by_cases hh : ∃ c, e.Hears frame c
    · obtain ⟨c, hears⟩ := hh
      rw [receive_of_hears now hears, session_hearCopy]
    · obtain ⟨t, n, hs, -⟩ := receive_of_not_hears now (not_exists.1 hh)
      rw [hs]
  | start cfg' a hostReady =>
    rw [perform_start_of_isUp (isUp_of_settings up)]
    rfl
  | read h => rw [perform_read_snd]; rfl
  | stamp h => rw [perform_stamp_snd]; rfl
  | request h =>
    rcases perform_request_snd e h now with hsame | ⟨t, -, hs⟩
    · rw [hsame]
      rfl
    · rw [hs]
      rfl
  | takeNotice =>
    rcases perform_takeNotice_snd e now with hsame | ⟨n, inbox, -, hs⟩
    · rw [hsame]
      rfl
    · rw [hs]
      rfl

/-! ## Two nodes that hold the same of one value -/

structure Alike (h : Handle) (e e' : Engine) : Prop where
  session : e.session = e'.session
  address : e.address = e'.address
  replica : e.store.replicas.get? h = e'.store.replicas.get? h
  slots : e.timetable.slots.size = e'.timetable.slots.size

theorem Alike.refl (h : Handle) (e : Engine) : Alike h e e := ⟨rfl, rfl, rfl, rfl⟩

variable {e' : Engine}

theorem Alike.trans {e'' : Engine} (ha : Alike h e e') (hb : Alike h e' e'') : Alike h e e'' :=
  ⟨ha.session.trans hb.session, ha.address.trans hb.address, ha.replica.trans hb.replica, ha.slots.trans hb.slots⟩

theorem Alike.settings (ha : Alike h e e') : e.settings = e'.settings := by
  rw [Engine.settings, Engine.settings, ha.session]

theorem Alike.heard? (ha : Alike h e e') (frame : List UInt8) : e.heard? frame = e'.heard? frame := by
  rw [Engine.heard?, Engine.heard?, ha.settings, ha.session]

theorem Alike.touch (ha : Alike h e e') (op : Operation) (now : Nat) (r : Replica) :
    e.touch h op now r = e'.touch h op now r := by
  cases op with
  | write k data => simp only [Engine.touch, ha.address]
  | receive frame => simp only [Engine.touch, ha.heard?]
  | start | read | stamp | request | takeNotice | signal | windowRefused => rfl

theorem size_perform (up : e.settings = .ok cfg) (op : Operation) (now : Nat) :
    (e.perform op now).2.timetable.slots.size = e.timetable.slots.size :=
  (move_perform (isUp_of_settings up) op now).size

/-- **The same operation leaves them alike.** -/
theorem Alike.perform (ha : Alike h e e') (up : e.settings = .ok cfg) (op : Operation) (now : Nat) :
    Alike h (e.perform op now).2 (e'.perform op now).2 := by
  have up' : e'.settings = .ok cfg := ha.settings.symm.trans up
  refine ⟨?_, ?_, ?_, ?_⟩
  · rw [session_perform up, session_perform up', ha.session]
  · rw [address_perform up, address_perform up', ha.address]
  · rw [get?_perform up, get?_perform up', ha.replica, show e.touch h op now = e'.touch h op now from
      funext (ha.touch op now)]
  · rw [size_perform up, size_perform up', ha.slots]

theorem touch_of_foreign (up : e.settings = .ok cfg) (foreign : Foreign cfg.accessAddress h op) (r : Replica) :
    e.touch h op now r = r := by
  cases op with
  | write k data => exact touch_write_of_not (fun hc => foreign hc.1) r
  | receive frame =>
    by_cases hh : ∃ c, e.Hears frame c
    · obtain ⟨c, hears⟩ := hh
      rw [touch_of_hears hears, if_neg]
      rintro rfl
      rw [Foreign, isAbout_of_hears up hears] at foreign
      cases foreign
    · exact touch_of_not_hears (not_exists.1 hh) r
  | read | stamp | request | takeNotice => rfl
  | start | signal | windowRefused => cases foreign

/-- **A foreign operation leaves a node alike to what it was.** -/
theorem alike_perform_of_foreign (up : e.settings = .ok cfg) (foreign : Foreign cfg.accessAddress h op) (now : Nat) :
    Alike h (e.perform op now).2 e where
  session := by
    rw [session_perform up]
    cases op with
    | write | read | stamp | request | takeNotice | receive => rfl
    | start | signal | windowRefused => cases foreign
  address := address_perform up op now
  replica := by rw [get?_perform up, map_touch_of_same (touch_of_foreign up foreign)]
  slots := size_perform up op now

/-! ## Answers -/

theorem answerRequest_fst (ha : Alike h e e') (now : Nat) :
    (e.answerRequest h now).1 = (e'.answerRequest h now).1 := by
  unfold answerRequest
  rw [ha.replica]
  split
  · split <;> rfl
  · rfl

theorem plain_hearCopy (e : Engine) (c : Copy) (now : Nat) : (Answer.received (e.hearCopy c now).1).plain =
    match e.store.replicas.get? c.handle with
    | none => .received (.outOfRange c.handle)
    | some r =>
      if maxValueBytes < c.data.length ∧ (r.judge c).ignored = false then .received (.outOfRange c.handle)
      else .received (.resolved c.handle (r.judge c) false) := by
  unfold hearCopy Store.hear
  cases e.store.replicas.get? c.handle with
  | none => rfl
  | some r =>
    simp only
    by_cases hl : maxValueBytes < c.data.length ∧ (r.judge c).ignored = false
    · simp only [if_pos hl]
      rfl
    · simp only [if_neg hl]
      rfl

theorem plain_receive {frame : List UInt8} (ha : Alike h e e') (up : e.settings = .ok cfg)
    (about : isAbout cfg.accessAddress h frame = true) (now : Nat) :
    (Answer.received (e.receive frame now).1).plain = (Answer.received (e'.receive frame now).1).plain := by
  obtain ⟨adv, hd, rfl⟩ := Advertisement.isAbout_iff.1 about
  have up' : e'.settings = .ok cfg := ha.settings.symm.trans up
  unfold receive
  rw [up, up', ha.session]
  cases e'.session.inWindow with
  | false => rfl
  | true =>
    simp only [hd]
    split
    · rfl
    · split
      · rw [answerRequest_fst ha]
      · rw [plain_hearCopy, plain_hearCopy, ha.replica]

theorem perform_request_fst (up : e.settings = .ok cfg) (k : Handle) (now : Nat) :
    (e.perform (.request k) now).1 =
      if k.within e.timetable.slots.size then .done else .refused .invalidAddr := by
  rw [← HandleTable.isSome_get?]
  simp only [perform, request, up, bind, Except.bind, Timetable.request]
  cases e.timetable.slots.get? k <;> rfl

/-- **What is asked about a value is answered alike**, but for whether a notice was lost. -/
theorem Alike.plain_perform (ha : Alike h e e') (up : e.settings = .ok cfg) (about : Concerns cfg.accessAddress h op)
    (now : Nat) : (e.perform op now).1.plain = (e'.perform op now).1.plain := by
  have up' : e'.settings = .ok cfg := ha.settings.symm.trans up
  cases op with
  | write k data =>
    cases about
    rw [perform_write up, perform_write up', ha.replica]
    cases e'.store.replicas.get? h with
    | none => rfl
    | some r =>
      simp only
      split <;> rfl
  | read k =>
    cases about
    have hread : e.read h = e'.read h := by
      rw [read, read, up, up', Store.read, Store.read, Store.replica, Store.replica, ha.replica]
    simp only [Engine.perform, hread]
    cases e'.read h <;> rfl
  | stamp k =>
    cases about
    have hstamp : e.stamp h = e'.stamp h := by
      rw [stamp, stamp, up, up', Store.replica, Store.replica, ha.replica]
    simp only [Engine.perform, hstamp]
    cases e'.stamp h <;> rfl
  | request k =>
    cases about
    rw [perform_request_fst up, perform_request_fst up', ha.slots]
  | receive frame => exact plain_receive ha up about now
  | takeNotice | start | signal | windowRefused => cases about

/-! ## Whole histories -/

abbrev Marked := List ((Operation × Nat) × Bool)

def whole (marked : Marked) : List (Operation × Nat) := marked.map (·.1)

def rest (marked : Marked) : List (Operation × Nat) := (marked.filter (!·.2)).map (·.1)

theorem alike_run {marked : Marked} (ha : Alike h e e') (up : e.settings = .ok cfg)
    (foreign : ∀ x ∈ marked, x.2 = true → Foreign cfg.accessAddress h x.1.1) :
    Alike h (e.run (whole marked)) (e'.run (rest marked)) := by
  induction marked generalizing e e' with
  | nil => exact ha
  | cons x later ih =>
    obtain ⟨⟨op, now⟩, out⟩ := x
    have hlater : ∀ x ∈ later, x.2 = true → Foreign cfg.accessAddress h x.1.1 := fun x hx =>
      foreign x (List.mem_cons_of_mem _ hx)
    have up₁ := settings_perform up op now
    cases out with
    | false => exact ih (ha.perform up op now) up₁ hlater
    | true =>
      have hop : Foreign cfg.accessAddress h op := foreign _ List.mem_cons_self rfl
      exact ih ((alike_perform_of_foreign up hop now).trans ha) up₁ hlater

/-- **Other values do not matter.**  Leave out of a history of a node that is up any operations about other values than
that of `h`: after each operation that stays, the replica of the value is the same in all its parts as without leaving
anything out, and if the operation is about the value it is answered the same, up to whether a notice was lost.  If the
node came about in some history, the machine follows both ways up to `Machine.latest`. -/
theorem other_values_do_not_matter (up : e.settings = .ok cfg) (h : Handle) {marked : Marked}
    (foreign : ∀ x ∈ marked, x.2 = true → Foreign cfg.accessAddress h x.1.1) :
    (∀ pre op now post, marked = pre ++ ((op, now), false) :: post →
      (e.run (whole (pre ++ [((op, now), false)]))).store.replicas.get? h =
        (e.run (rest (pre ++ [((op, now), false)]))).store.replicas.get? h ∧
      (Concerns cfg.accessAddress h op →
        ((e.run (whole pre)).perform op now).1.plain = ((e.run (rest pre)).perform op now).1.plain)) ∧
    (e.Reachable → e.Followed (whole marked) ∧ e.Followed (rest marked)) := by
  refine ⟨?_, fun he => ⟨he.followed _, he.followed _⟩⟩
  rintro pre op now post rfl
  have hpre : ∀ x ∈ pre, x.2 = true → Foreign cfg.accessAddress h x.1.1 := fun x hx =>
    foreign x (List.mem_append_left _ hx)
  have hupto : ∀ x ∈ pre ++ [((op, now), false)], x.2 = true → Foreign cfg.accessAddress h x.1.1 := fun x hx =>
    foreign x (by
      rcases List.mem_append.1 hx with hx | hx
      · exact List.mem_append_left _ hx
      · exact List.mem_append_right _ (List.mem_singleton.1 hx ▸ List.mem_cons_self))
  exact ⟨(alike_run (.refl h e) up hupto).replica, fun about =>
    (alike_run (.refl h e) up hpre).plain_perform (settings_run up _) about now⟩

end

/-- A copy of a value is heard between two writes of it, and a rival of the second write after them.  Without the write
of another value, the notice taken, the frame that cannot be read and the copy of a third value in between, the rival
is answered the same. -/
theorem other_values_do_not_matter_to_a_rival :
    let cfg : Settings := ⟨0x8E89BED6, 38, 10, 100⟩
    let frame (h version b : UInt8) : List UInt8 :=
      [0xD6, 0xBE, 0x89, 0x8E, 1, 11, 0x22, 0, 0, 0, 0, 0, h, 0, version, 0, b]
    let e := fresh.run [(.start cfg ⟨0x11, 0, 0, 0, 0, 0⟩ true, 0), (.signal .tick, 1), (.signal .started, 2)]
    let pre : Marked := [((.write 3 [7], 3), false), ((.write 5 [7], 4), true), ((.receive (frame 3 2 8), 5), false),
      ((.takeNotice, 6), true), ((.receive [1, 2], 7), true), ((.receive (frame 4 1 8), 8), true),
      ((.write 3 [9], 9), false)]
    ((e.run (rest pre)).perform (.receive (frame 3 3 1)) 10).1 = .received (.resolved 3 .conflict false) ∧
    ((e.run (whole pre)).perform (.receive (frame 3 3 1)) 10).1.plain = .received (.resolved 3 .conflict false) := by
  intro cfg frame e pre
  have up : e.settings = .ok cfg := by decide +kernel
  have foreign : ∀ x ∈ pre ++ [((.receive (frame 3 3 1), 10), false)], x.2 = true →
      Foreign cfg.accessAddress 3 x.1.1 := by decide +kernel
  have about : Concerns cfg.accessAddress 3 (.receive (frame 3 3 1)) := by
    show isAbout cfg.accessAddress 3 (frame 3 3 1) = true
    decide +kernel
  have alone : ((e.run (rest pre)).perform (.receive (frame 3 3 1)) 10).1 =
      .received (.resolved 3 .conflict false) := by decide +kernel
  refine ⟨alone, ?_⟩
  rw [((other_values_do_not_matter up 3 foreign).1 pre _ 10 [] rfl).2 about, alone]
  rfl

end Engine
end ValueMesh
