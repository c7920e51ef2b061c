import ValueMesh.Proofs.Isolation
import ValueMesh.Proofs.Judging
import ValueMesh.Proofs.Relaying
/-!
# A frame heard again

Several neighbours pass on one frame.  What a replica made of it the first time settles how it is judged ever after:
taken over, it is the copy held; a rival, it is known; older, it stays older (`judge_hear`).  So as long as nothing else
is done to the value, a frame that comes again changes nothing that is held (`repeats_are_harmless`).
-/
namespace ValueMesh

def Verdict.again : Verdict → Verdict
  | acceptNew | acceptUpdate | duplicate => duplicate
  | conflict | knownConflict => knownConflict
  | stale => stale

theorem Verdict.ignored_again (v : Verdict) : v.again.ignored = true := by
  cases v <;> rfl

namespace Replica

variable {r : Replica} {c : Copy}

theorem knows_remember (r : Replica) (m : Mark) (now : Nat) : (r.remember m now).knows m = true := by
  cases hk : r.knows m with
  | true => rw [remember, if_pos hk, hk]
  | false =>
    -- The newest mark is never the one that is forgotten.
    rw [remember_of_new hk, knows_iff]
    show m ∈ remembered r.marks m
    unfold remembered
    split <;> simp

/-- **Once heard, a copy is judged as heard before.** -/
theorem judge_hear (r : Replica) (c : Copy) (now : Nat) : (r.hear c now).judge c = (r.judge c).again := by
  unfold hear
  cases hj : r.judge c with
  | acceptNew | acceptUpdate => exact judge_ofCopy c now
  | conflict =>
    obtain ⟨allocated, version, rival, -⟩ := judge_eq_conflict_iff.1 hj
    have kept := toCopy_remember r (Mark.ofCopy c) now c.handle
    rw [judge_of_rival ((allocated_remember ..).trans allocated) (version.trans (congrArg Copy.version kept).symm)
      (by rwa [show (r.remember (Mark.ofCopy c) now).data = r.data from congrArg Copy.data kept]), knows_remember]
    rfl
  | knownConflict | stale | duplicate => exact hj

theorem hear_of_ignored (now : Nat) (ignored : (r.judge c).ignored = true) : r.hear c now = r := by
  unfold hear
  cases hj : r.judge c with
  | acceptNew | acceptUpdate | conflict =>
    rw [hj] at ignored
    cases ignored
  | knownConflict | stale | duplicate => rfl

end Replica

namespace Engine

open Advertisement (isAbout)

section

variable [Jitter] {e : Engine} {cfg : Settings} {h : Handle} {op : Operation} {now : Nat} {frame : List UInt8}
  {c : Copy}

/-- Operations that do nothing to the value of `h` but hear `frame` again. -/
def Elsewhere (mesh : UInt32) (h : Handle) (frame : List UInt8) : Operation → Prop
  | .write k _ => k ≠ h
  | .receive other => other = frame ∨ isAbout mesh h other = false
  | .start .. | .read _ | .stamp _ | .request _ | .takeNotice | .signal _ | .windowRefused => True

instance (mesh : UInt32) (h : Handle) (frame : List UInt8) : DecidablePred (Elsewhere mesh h frame)
  | .write k _ => inferInstanceAs (Decidable (k ≠ h))
  | .receive other => inferInstanceAs (Decidable (other = frame ∨ isAbout mesh h other = false))
  | .start .. | .read _ | .stamp _ | .request _ | .takeNotice | .signal _ | .windowRefused =>
    inferInstanceAs (Decidable True)

/-- What a frame carries depends on the settings alone, once the window is open. -/
theorem Hears.of_settings {e' : Engine} (hears : e'.Hears frame c) (up : e.settings = .ok cfg)
    (up' : e'.settings = .ok cfg) (isOpen : e.session.inWindow = true) : e.Hears frame c := by
  obtain ⟨-, cfg', settings, covered, decoded⟩ := hears
  cases up'.symm.trans settings
  exact ⟨isOpen, cfg, up, covered, decoded⟩

/-! ## The replica in between -/

theorem touch_of_elsewhere {r : Replica} (up : e.settings = .ok cfg)
    (decoded : Advertisement.decode frame cfg.accessAddress = .ok (.value c)) (ignored : (r.judge c).ignored = true)
    (elsewhere : Elsewhere cfg.accessAddress c.handle frame op) : e.touch c.handle op now r = r := by
  cases op with
  | write k data => exact touch_write_of_not (fun own => elsewhere own.1) r
  | receive other =>
    by_cases hh : ∃ d, e.Hears other d
    · obtain ⟨d, hears⟩ := hh
      rw [touch_of_hears hears]
      by_cases own : d.handle = c.handle
      · rw [if_pos own]
        obtain rfl | foreign := elsewhere
        · obtain ⟨-, cfg', up', -, decoded'⟩ := hears
          cases up.symm.trans up'
          cases decoded.symm.trans decoded'
          exact Replica.hear_of_ignored now ignored
        · rw [← own, isAbout_of_hears up hears] at foreign
          cases foreign
      · exact if_neg own
    · exact touch_of_not_hears (not_exists.1 hh) r
  | start | read | stamp | request | takeNotice | signal | windowRefused => rfl

/-- **A replica that ignores a frame stays as it is** while nothing else is done to the value. -/
theorem get?_run_of_elsewhere {r : Replica} (up : e.settings = .ok cfg) (held : e.store.replicas.get? c.handle = some r)
    (decoded : Advertisement.decode frame cfg.accessAddress = .ok (.value c)) (ignored : (r.judge c).ignored = true)
    (later : List (Operation × Nat)) (elsewhere : ∀ x ∈ later, Elsewhere cfg.accessAddress c.handle frame x.1) :
    (e.run later).store.replicas.get? c.handle = some r := by
  induction later generalizing e with
  | nil => exact held
  | cons x later ih =>
    refine ih (settings_perform up x.1 x.2) ?_ fun y hy => elsewhere y (List.mem_cons_of_mem _ hy)
    rw [get?_perform up, held, Option.map_some,
      touch_of_elsewhere up decoded ignored (elsewhere x List.mem_cons_self)]

/-! ## The repeat -/

/-- A frame that is ignored changes no replica and puts nothing into the inbox. -/
theorem receive_of_ignored {r : Replica} (hears : e.Hears frame c) (held : e.store.replicas.get? c.handle = some r)
    (ignored : (r.judge c).ignored = true) (now : Nat) :
    (e.receive frame now).2.store.replicas = e.store.replicas ∧ (e.receive frame now).2.inbox = e.inbox ∧
    (e.receive frame now).1 = .resolved c.handle (r.judge c) false := by
  have silent : Store.announcement c (r.judge c) = none := by
    rw [← Option.not_isSome_iff_eq_none, Store.isSome_announcement, ignored]
    simp
  rw [receive_of_hears now hears, hearCopy_of_get? now held (length_le_of_hears hears), Store.hear_of_held held, silent]
  exact ⟨Store.replicas_follow_of_ignored e.store c r now ignored, rfl, rfl⟩

theorem receive_of_unheard (hears : ∀ c, ¬ e.Hears frame c) (now : Nat) :
    (e.receive frame now).2.store.replicas = e.store.replicas ∧ (e.receive frame now).2.inbox = e.inbox ∧
    ∀ h verdict evicted, (e.receive frame now).1 ≠ .resolved h verdict evicted := by
  refine ⟨congrArg Store.replicas (store_receive_of_not_hears now hears), ?_, ?_⟩
  · rw [inbox_receive_eq_put, told?_of_not_hears hears]
    rfl
  · intro h verdict evicted heard
    obtain ⟨c, hc⟩ := hears_of_resolved heard
    exact hears c hc

/-- After a copy was heard, its replica judges it as heard before, whatever else is done meanwhile. -/
theorem judge_run_of_elsewhere {r : Replica} (up : e.settings = .ok cfg) (hears : e.Hears frame c)
    (held : e.store.replicas.get? c.handle = some r) (t₁ : Nat) {later : List (Operation × Nat)}
    (elsewhere : ∀ x ∈ later, Elsewhere cfg.accessAddress c.handle frame x.1) :
    ∃ r', ((e.receive frame t₁).2.run later).store.replicas.get? c.handle = some r' ∧
    r'.judge c = (r.judge c).again := by
  have up₁ : (e.receive frame t₁).2.settings = .ok cfg := settings_perform up (.receive frame) t₁
  have held₁ : (e.receive frame t₁).2.store.replicas.get? c.handle = some (r.hear c t₁) := by
    rw [store_receive t₁ hears]
    exact Store.get?_hear t₁ held (length_le_of_hears hears)
  have judged : (r.hear c t₁).judge c = (r.judge c).again := r.judge_hear c t₁
  have ignored : ((r.hear c t₁).judge c).ignored = true := by rw [judged, Verdict.ignored_again]
  obtain ⟨-, cfg', settings, -, decoded⟩ := hears
  cases up.symm.trans settings
  exact ⟨r.hear c t₁, get?_run_of_elsewhere up₁ held₁ decoded ignored later elsewhere, judged⟩

/-- A copy that was heard is ignored when it comes again. -/
theorem receive_again {r : Replica} (up : e.settings = .ok cfg) (hears : e.Hears frame c)
    (held : e.store.replicas.get? c.handle = some r) (t₁ t₂ : Nat) {later : List (Operation × Nat)}
    (elsewhere : ∀ x ∈ later, Elsewhere cfg.accessAddress c.handle frame x.1) {e' : Engine}
    (reached : (e.receive frame t₁).2.run later = e') (isOpen : e'.session.inWindow = true) :
    (e'.receive frame t₂).2.store.replicas = e'.store.replicas ∧ (e'.receive frame t₂).2.inbox = e'.inbox ∧
    (e'.receive frame t₂).1 = .resolved c.handle (r.judge c).again false := by
  obtain ⟨r', held', judged⟩ := judge_run_of_elsewhere up hears held t₁ elsewhere
  have up' := settings_run (settings_perform up (.receive frame) t₁) later
  have hears' : e'.Hears frame c := hears.of_settings (reached ▸ up') up isOpen
  rw [reached] at held'
  rw [← judged]
  exact receive_of_ignored hears' held' (by rw [judged, Verdict.ignored_again]) t₂

/-- **Repeats are harmless.**  A node in an open window hears a frame, any bytes at any time, and then any operations
are made that do nothing else to the value the frame is about: other values are written and heard, values are asked for,
notices are taken, windows pass, and the frame itself may come again and again.  When it comes once more, at any time,
no replica changes in any of its parts and nothing is put into the inbox.  What is answered is never that a copy was
taken over or that a new rival was found.  A copy of a handle of the mesh is given a verdict the first time, and then in
an open window the second answer is what that verdict is after a repeat.  Up to `Machine.latest` the machine follows it
all. -/
theorem repeats_are_harmless (he : e.Reachable) (up : e.settings = .ok cfg) (isOpen : e.session.inWindow = true)
    (frame : List UInt8) (t₁ t₂ : Nat) {later : List (Operation × Nat)}
    (elsewhere : ∀ h, isAbout cfg.accessAddress h frame = true →
      ∀ x ∈ later, Elsewhere cfg.accessAddress h frame x.1) :
    let first := e.receive frame t₁
    let e' := first.2.run later
    let second := e'.receive frame t₂
    second.2.store.replicas = e'.store.replicas ∧ second.2.inbox = e'.inbox ∧
    (∀ h verdict evicted, second.1 = .resolved h verdict evicted →
      verdict ≠ .acceptNew ∧ verdict ≠ .acceptUpdate ∧ verdict ≠ .conflict ∧ evicted = false) ∧
    (∀ c, e.Hears frame c → ∃ verdict evicted, first.1 = .resolved c.handle verdict evicted ∧
      (e'.session.inWindow = true → second.1 = .resolved c.handle verdict.again false)) ∧
    e.Followed ((.receive frame, t₁) :: (later ++ [(.receive frame, t₂)])) := by
  intro first e' second
  have up' : e'.settings = .ok cfg := settings_run (settings_perform up (.receive frame) t₁) later
  have again : ∀ c, e.Hears frame c → ∃ r, e.store.replicas.get? c.handle = some r ∧
      (e'.session.inWindow = true → second.2.store.replicas = e'.store.replicas ∧ second.2.inbox = e'.inbox ∧
        second.1 = .resolved c.handle (r.judge c).again false) := by
    intro c hears
    obtain ⟨r, held⟩ := he.get?_of_hears hears
    exact ⟨r, held, receive_again up hears held t₁ t₂ (elsewhere c.handle (isAbout_of_hears up hears)) rfl⟩
  have answered : ∀ c, e.Hears frame c → ∃ verdict evicted, first.1 = .resolved c.handle verdict evicted ∧
      (e'.session.inWindow = true → second.1 = .resolved c.handle verdict.again false) := by
    intro c hears
    obtain ⟨r, held, repeated⟩ := again c hears
    have heard := (receive_of_hears t₁ hears).trans (hearCopy_of_get? t₁ held (length_le_of_hears hears))
    exact ⟨r.judge c, _, congrArg Prod.fst heard, fun isOpen' => (repeated isOpen').2.2⟩
  by_cases heard : ∃ c, e'.Hears frame c
  · obtain ⟨c, hears'⟩ := heard
    obtain ⟨r, -, repeated⟩ := again c (hears'.of_settings up up' isOpen)
    obtain ⟨replicas, inbox, answer⟩ := repeated hears'.1
    refine ⟨replicas, inbox, ?_, answered, he.followed _⟩
    intro h verdict evicted resolved
    cases answer.symm.trans resolved
    cases r.judge c <;> simp [Verdict.again]
  · obtain ⟨replicas, inbox, unresolved⟩ := receive_of_unheard (not_exists.1 heard) t₂
    exact ⟨replicas, inbox, fun h verdict evicted resolved => absurd resolved (unresolved h verdict evicted), answered,
      he.followed _⟩

end

/-- A node remembers three rivals of the value it wrote, and hears a fourth.  Another value is written, a notice is
taken, a third value is heard, and then the fourth rival comes twice more: it is known. -/
theorem repeats_of_a_fourth_rival_are_harmless :
    let cfg : Settings := ⟨0x8E89BED6, 38, 10, 100⟩
    let frame (h b : UInt8) : List UInt8 := [0xD6, 0xBE, 0x89, 0x8E, 1, 11, 0x22, 0, 0, 0, 0, 0, h, 0, 1, 0, b]
    let e := fresh.run [(.start cfg ⟨0x11, 0, 0, 0, 0, 0⟩ true, 0), (.write 3 [7], 1), (.signal .tick, 2),
      (.signal .started, 3), (.receive (frame 3 1), 4), (.receive (frame 3 2), 5), (.receive (frame 3 3), 6)]
    let later : List (Operation × Nat) :=
      [(.write 5 [9], 8), (.takeNotice, 9), (.receive (frame 4 1), 10), (.receive (frame 3 4), 11)]
    let first := e.receive (frame 3 4) 7
    let e' := first.2.run later
    let second := e'.receive (frame 3 4) 12
    e.Reachable ∧ e.settings = .ok cfg ∧ e.session.inWindow = true ∧
    (∀ x ∈ later, Elsewhere cfg.accessAddress 3 (frame 3 4) x.1) ∧ first.1 = .resolved 3 .conflict false ∧
    e'.session.inWindow = true ∧ second.1 = .resolved 3 .knownConflict false ∧
    second.2.store.replicas = e'.store.replicas ∧ second.2.inbox = e'.inbox := by
  intro cfg frame e later first e' second
  have he : e.Reachable := ⟨_, rfl⟩
  have up : e.settings = .ok cfg := by decide +kernel
  have isOpen : e.session.inWindow = true := by decide +kernel
  have elsewhere : ∀ x ∈ later, Elsewhere cfg.accessAddress 3 (frame 3 4) x.1 := by decide +kernel
  have about : ∀ h, isAbout cfg.accessAddress h (frame 3 4) = true → 3 = h := by
    intro h about
    obtain ⟨adv, decoded, rfl⟩ := Advertisement.isAbout_iff.1 about
    obtain ⟨adv', decoded', handle⟩ :=
      Advertisement.isAbout_iff.1 (show isAbout cfg.accessAddress 3 (frame 3 4) = true by decide +kernel)
    cases decoded.symm.trans decoded'
    exact handle.symm
  have answer : first.1 = .resolved 3 .conflict false := by decide +kernel
  have isOpen' : e'.session.inWindow = true := by decide +kernel
  have hears : e.Hears (frame 3 4) ⟨3, 1, ⟨0x22, 0, 0, 0, 0, 0⟩, [4]⟩ := heard?_eq_some_iff.1 (by decide +kernel)
  -- What `e` was made of must not be computed again.
  clear_value e
  obtain ⟨replicas, inbox, -, again, -⟩ :=
    repeats_are_harmless he up isOpen (frame 3 4) 7 12 fun h ha => about h ha ▸ elsewhere
  obtain ⟨verdict, evicted, answer', repeated⟩ := again _ hears
  cases answer.symm.trans answer'
  exact ⟨he, up, isOpen, elsewhere, answer, isOpen', repeated isOpen', replicas, inbox⟩

end Engine
end ValueMesh
