import ValueMesh.Proofs.Air
import ValueMesh.Proofs.Isolation
import ValueMesh.Proofs.Windows
/-!
# How often a value is sent

The interval recorded for a value is set when the value is armed or sent, and it never exceeds the longest interval of
the timetable (`Reachable.paced`).  An operation that is uneventful for a value leaves its replica alone, tells nothing
of it and does not arm it (`calm_of_uneventful`).  If nothing else happens to a replica for eight intervals, the interval
of its value is doubled by each transmission from then on (`interval?_perform`).
-/
namespace ValueMesh
namespace Timetable

variable [Jitter] {t t' : Timetable} {h k : Handle} {now : Nat}

def interval? (t : Timetable) (h : Handle) : Option Nat := (t.timer? h).bind (·.interval?)

/-! ## Single timers -/

theorem timer?_of_slot {s : Slot} (hs : t.slots.get? h = some s) : t.timer? h = some s.timer := by
  rw [timer?, hs]
  rfl

theorem timer?_arm_self {s : Slot} (now : Nat) (hs : t.slots.get? h = some s) :
    ∃ due, (t.arm h now).timer? h = some (.armed due t.interval) :=
  ⟨_, by rw [timer?_arm, timer?_of_slot hs]; rfl⟩

theorem timer?_complete_request (t : Timetable) (k : Handle) (now lastActivity : Nat) (h : Handle) :
    (t.complete (.request k) now lastActivity).timer? h = t.timer? h := by
  unfold complete
  simp only
  split
  · rfl
  · rename_i s hs
    exact timer?_put_of_same (s := { s with requested := false }) hs rfl h

theorem timer?_complete_of_ne {item : Item} (now lastActivity : Nat) (hk : k ≠ item.handle) :
    (t.complete item now lastActivity).timer? k = t.timer? k := by
  rw [timer?, get?_complete_of_ne now lastActivity hk, timer?]

theorem timer?_complete_value {previous : Nat} (now lastActivity : Nat) (hp : t.interval? h = some previous) :
    ∃ due, (t.complete (.value h) now lastActivity).timer? h =
      some (.sent now due (t.backoff previous now lastActivity)) := by
  obtain ⟨timer, ht, hp⟩ := Option.bind_eq_some_iff.1 hp
  obtain ⟨s, hs, rfl⟩ := Option.map_eq_some_iff.1 ht
  obtain ⟨due, hdone⟩ := get?_complete_value now lastActivity hs hp
  exact ⟨due, timer?_of_slot hdone⟩

theorem complete_value_of_idle (now lastActivity : Nat) (hp : t.interval? h = none) :
    t.complete (.value h) now lastActivity = t := by
  unfold complete
  simp only
  split
  · rfl
  · rename_i s hs
    rw [interval?, timer?_of_slot hs] at hp
    have hidle : s.timer.interval? = none := hp
    rw [hidle]

theorem interval?_promote (t : Timetable) (now : Nat) (h : Handle) : (t.promote now).interval? h = t.interval? h := by
  rw [interval?, timer?_promote, interval?]
  cases t.timer? h with
  | none => rfl
  | some timer => exact timer.interval?_promote now

theorem isSome_interval? (t : Timetable) (h : Handle) : (t.interval? h).isSome = (t.due? h).isSome := by
  rw [interval?, due?_eq_bind]
  cases t.timer? h with
  | none => rfl
  | some timer => exact timer.isSome_interval?

/-- What may become of the timer of the value of `h` if the value is not armed: it stays, its wait is found to be over,
or the value is sent.  The flag says whether it is. -/
inductive Unarmed (t : Timetable) (h : Handle) (now lastActivity : Nat) : Bool → Option Timer → Prop
  | stays : Unarmed t h now lastActivity false (t.timer? h)
  | elapsed : Unarmed t h now lastActivity false ((t.promote now).timer? h)
  | sent {previous : Nat} (due : Nat) (recorded : t.interval? h = some previous) :
      Unarmed t h now lastActivity true (some (.sent now due (t.backoff previous now lastActivity)))

theorem Unarmed.interval? {lastActivity previous : Nat} {sent : Bool} {timer : Option Timer}
    (hu : t.Unarmed h now lastActivity sent timer) (recorded : t.interval? h = some previous) :
    timer.bind (·.interval?) = some (if sent then t.backoff previous now lastActivity else previous) := by
  cases hu with
  | stays => exact recorded
  | elapsed => exact (interval?_promote t now h).trans recorded
  | sent due recorded' =>
    cases recorded.symm.trans recorded'
    rfl

/-! ## Recorded intervals -/

/-- **A move leaves the interval recorded for a value, or sets it to the shortest one, or backs off from it.** -/
theorem Move.interval?_cases (hm : Move t now t') (h : Handle) :
    t'.interval? h = t.interval? h ∨ t'.interval? h = some t.interval ∨
    ∃ previous lastActivity, t.interval? h = some previous ∧
      t'.interval? h = some (t.backoff previous now lastActivity) := by
  cases hm with
  | keep => exact Or.inl rfl
  | arm k =>
    by_cases hk : h = k
    · subst hk
      cases hs : t.slots.get? h with
      | none => exact Or.inl (by rw [Timetable.arm, hs])
      | some s =>
        obtain ⟨due, ht⟩ := timer?_arm_self now hs
        exact Or.inr (Or.inl (by rw [interval?, ht]; rfl))
    · exact Or.inl (by rw [interval?, timer?_arm_of_ne now hk, interval?])
  | request asked => exact Or.inl (by rw [interval?, timer?_request asked, interval?])
  | poll => exact Or.inl (interval?_promote t now h)
  | serve chosen lastActivity =>
    rename_i item
    rw [← interval?_promote t now h]
    cases item with
    | request k => exact Or.inl (by rw [interval?, timer?_complete_request]; rfl)
    | value k =>
      by_cases hk : h = k
      · subst hk
        cases hp : (t.promote now).interval? h with
        | none => exact Or.inl ((congrArg (·.interval? h) (complete_value_of_idle now lastActivity hp)).trans hp)
        | some previous =>
          obtain ⟨due, ht⟩ := timer?_complete_value now lastActivity hp
          exact Or.inr (Or.inr ⟨previous, lastActivity, rfl, congrArg (·.bind (·.interval?)) ht⟩)
      · exact Or.inl (congrArg (·.bind (·.interval?)) (timer?_complete_of_ne now lastActivity hk))

def Paced (t : Timetable) : Prop := ∀ h, ∀ p ∈ t.interval? h, p ≤ t.maxInterval

/-- A replica left alone for eight intervals has its value sent half as often with each transmission. -/
theorem backoff_of_stable {lastActivity : Nat} (previous : Nat)
    (stable : lastActivity + stableIntervals * t.interval * 1000 ≤ now) :
    t.backoff previous now lastActivity = min (previous * 2) t.maxInterval :=
  if_pos (by omega)

theorem paced_configure (cfg : Settings) (seed : UInt64) : (configure cfg seed).Paced := by
  intro h p hp
  rw [interval?, timer?, configure, HandleTable.get?_fill] at hp
  split at hp <;> cases hp

theorem Move.paced (hm : Move t now t') (short : t.interval ≤ Settings.maxInterval) (hp : t.Paced) : t'.Paced := by
  intro h p hmem
  have hmax : t'.maxInterval = t.maxInterval := by rw [maxInterval, hm.interval, maxInterval]
  rw [hmax]
  rcases hm.interval?_cases h with hsame | hbase | ⟨previous, lastActivity, -, hback⟩
  · exact hp h p (hsame ▸ hmem)
  · cases hbase.symm.trans hmem
    exact interval_le_maxInterval short
  · cases hback.symm.trans hmem
    exact backoff_le_maxInterval short ..

end Timetable

def Settings.longestInterval (cfg : Settings) : Nat := min (cfg.interval * Timetable.maxStretch) Settings.maxInterval

namespace Engine

variable [Jitter] {e : Engine} {cfg : Settings} {h : Handle} {r : Replica} {op : Operation} {now : Nat}

/-- **Once a node is up, its shortest interval is that of its settings, and no interval is longer than the longest.** -/
theorem Reachable.paced (he : e.Reachable) (up : e.settings = .ok cfg) :
    e.timetable.interval = cfg.interval ∧ e.timetable.Paced := by
  refine ⟨he.interval up, ?_⟩
  refine he.of_perform (P := fun e => ∀ cfg, e.settings = .ok cfg → e.timetable.Paced) nofun
    (fun {e} op now he hp cfg up => ?_) cfg up
  cases hup : e.isUp with
  | true =>
    obtain ⟨cfg₀, up₀⟩ := exists_settings_of_isUp hup
    cases up.symm.trans (settings_perform up₀ op now)
    have short : e.timetable.interval ≤ Settings.maxInterval := he.interval up₀ ▸ (he.sound.inRange up₀).2.2.2.2
    exact (move_perform hup op now).paced short (hp cfg up₀)
  | false =>
    rcases (step_perform e op now).of_down hup with ⟨cfg', a, up', -, ht⟩ | ⟨hsettings, -⟩
    · cases up.symm.trans up'
      rw [ht]
      exact Timetable.paced_configure cfg _
    · rw [isUp_of_settings (hsettings.symm.trans up)] at hup
      cases hup

/-! ## What is nothing to a value -/

/-- Operations that are nothing to the value of `h` on a node that holds `r` of it: those about other values, signals,
and copies that `r` is not changed by. -/
def Uneventful (mesh : UInt32) (h : Handle) (r : Replica) : Operation → Prop
  | .write k _ | .request k => k ≠ h
  | .receive frame => ∀ adv, Advertisement.decode frame mesh = .ok adv → adv.copy.handle = h →
      adv.kind = .value ∧ (r.judge adv.copy = .duplicate ∨ r.judge adv.copy = .knownConflict)
  | .start .. | .read _ | .stamp _ | .takeNotice | .signal _ | .windowRefused => True

theorem Uneventful.judge {frame : List UInt8} {c : Copy} (un : Uneventful cfg.accessAddress h r (.receive frame))
    (up : e.settings = .ok cfg) (hears : e.Hears frame c) (about : c.handle = h) :
    r.judge c = .duplicate ∨ r.judge c = .knownConflict := by
  obtain ⟨-, cfg', up', -, hd⟩ := hears
  cases up.symm.trans up'
  exact (un _ hd about).2

theorem get?_perform_of_uneventful (up : e.settings = .ok cfg) (held : e.store.replicas.get? h = some r)
    (un : Uneventful cfg.accessAddress h r op) (now : Nat) :
    (e.perform op now).2.store.replicas.get? h = some r := by
  rw [get?_perform up, held, Option.map_some]
  refine congrArg some ?_
  cases op with
  | write k data => exact touch_write_of_not (fun hk => un hk.1) r
  | receive frame =>
    by_cases hh : ∃ c, e.Hears frame c
    · obtain ⟨c, hears⟩ := hh
      rw [touch_of_hears hears]
      split
      · rename_i about
        rw [Replica.hear]
        rcases un.judge up hears about with hj | hj <;> rw [hj]
      · rfl
    · exact touch_of_not_hears (not_exists.1 hh) r
  | start | read | stamp | request | takeNotice | signal | windowRefused => rfl

theorem told?_of_uneventful (up : e.settings = .ok cfg) (held : e.store.replicas.get? h = some r)
    (un : Uneventful cfg.accessAddress h r op) : ∀ n ∈ e.told? op now, n.handle ≠ h := by
  rintro n hn about
  cases op with
  | write k data =>
    obtain ⟨-, rfl⟩ := write_of_told? hn
    exact un about
  | receive frame =>
    obtain ⟨c, r', hears, hr', ha⟩ := hears_of_told? hn
    have hc : c.handle = n.handle := by
      cases hj : r'.judge c <;> rw [hj] at ha <;> cases ha <;> rfl
    rw [hc.trans about, held] at hr'
    cases hr'
    rcases un.judge up hears (hc.trans about) with hj | hj <;> rw [hj] at ha <;> cases ha
  | start | read | stamp | request | takeNotice | signal | windowRefused => cases hn

/-! ## Timers -/

/-- **A frame arms a value** only by asking for it, or by a copy of it that calls for a transmission. -/
theorem timetable_receive (up : e.settings = .ok cfg) (frame : List UInt8) (now : Nat) :
    (e.receive frame now).2.timetable = e.timetable ∨
    ∃ adv, Advertisement.decode frame cfg.accessAddress = .ok adv ∧
      (adv.kind = .value → ∃ r, e.store.replicas.get? adv.copy.handle = some r ∧ (r.judge adv.copy).rearms = true) ∧
      (e.receive frame now).2.timetable = e.timetable.arm adv.copy.handle now := by
  have outcome := e.receives frame now
  generalize e.receive frame now = p at outcome
  cases outcome with
  | closed | unreadable | outOfRange | ignored => exact Or.inl rfl
  | served up' decodes asks =>
    cases up.symm.trans up'
    exact Or.inr ⟨_, decodes, fun carries => (nomatch asks.symm.trans carries), rfl⟩
  | heard hears =>
    rename_i c
    cases hr : e.store.replicas.get? c.handle with
    | none =>
      unfold hearCopy Store.hear
      rw [hr]
      exact Or.inl rfl
    | some r =>
      rw [hearCopy_of_get? now hr (length_le_of_hears hears)]
      obtain ⟨-, cfg', up', -, hd⟩ := hears
      cases up.symm.trans up'
      cases hj : (r.judge c).rearms with
      | false => exact Or.inl (by simp only [Bool.false_eq_true, if_false])
      | true => exact Or.inr ⟨_, hd, fun _ => ⟨r, hr, hj⟩, by simp only [if_true]; rfl⟩

def sends? (e : Engine) (mesh : UInt32) (h : Handle) (op : Operation) (now : Nat) : Option Copy :=
  (Air.frame? (e.perform op now).1).bind (Air.copyIn? mesh h)

theorem sends?_of_not_signal (hop : ∀ sig, op ≠ .signal sig) (mesh : UInt32) : e.sends? mesh h op now = none := by
  rw [sends?, Air.frame?_of_not_signal hop]
  rfl

/-- **The window used for a value** records the interval it backs off to; any other one only finds waits to be over. -/
theorem unarmed_takeFrame (he : e.Reachable) (up : e.settings = .ok cfg) (held : e.store.replicas.get? h = some r)
    (now : Nat) : e.timetable.Unarmed h now r.lastActivity
      ((e.takeFrame cfg.accessAddress now).1.bind (Air.copyIn? cfg.accessAddress h)).isSome
      ((e.takeFrame cfg.accessAddress now).2.timetable.timer? h) := by
  cases hn : (e.timetable.next now).1 with
  | none =>
    rw [takeFrame_of_none _ hn]
    exact .elapsed
  | some item =>
    obtain ⟨-, adv, lastActivity, hadv, hsaid, hframe⟩ := advertisement_of_next he up hn
    obtain ⟨frame, henc, hdec⟩ := hframe cfg.accessAddress
    rw [takeFrame_of_some hn hadv henc, Option.bind_some]
    cases item with
    | request k =>
      cases hadv
      rw [Air.copyIn?_of_decode_request hdec, Timetable.timer?_complete_request]
      exact .elapsed
    | value k =>
      obtain ⟨r', hr', hp⟩ := Option.map_eq_some_iff.1 hadv
      cases hp
      rw [Air.copyIn?_of_decode_value hdec]
      have about : (r'.toCopy k).handle = k := rfl
      by_cases hk : k = h
      · subst hk
        cases held.symm.trans hr'
        have hwait : (e.timetable.interval? k).isSome = true :=
          (Timetable.isSome_interval? ..).trans (Timetable.isSome_due?_of_next (size_le_of_up he up) hn)
        obtain ⟨previous, hp⟩ := Option.isSome_iff_exists.1 hwait
        obtain ⟨due, ht⟩ := Timetable.timer?_complete_value (t := (e.timetable.next now).2) now r.lastActivity
          ((Timetable.interval?_promote ..).trans hp)
        rw [if_pos about, ht]
        exact .sent due hp
      · have hne : h ≠ (Item.value k).handle := Ne.symm hk
        rw [if_neg (about ▸ hk), Timetable.timer?_complete_of_ne now r'.lastActivity hne]
        exact .elapsed

/-- What is nothing to a value and is no signal leaves its timer as it is. -/
theorem timer?_perform_of_uneventful (up : e.settings = .ok cfg) (held : e.store.replicas.get? h = some r)
    (un : Uneventful cfg.accessAddress h r op) (hop : ∀ sig, op ≠ .signal sig) (now : Nat) :
    (e.perform op now).2.timetable.timer? h = e.timetable.timer? h := by
  cases op with
  | signal sig => exact absurd rfl (hop sig)
  | windowRefused => rfl
  | start cfg' a hostReady => rw [perform_start_of_isUp (isUp_of_settings up)]
  | write k data =>
    rw [perform_write up]
    split
    · rfl
    · split
      · rfl
      · exact Timetable.timer?_arm_of_ne now (Ne.symm un)
  | receive frame =>
    show (e.receive frame now).2.timetable.timer? h = _
    rcases timetable_receive up frame now with ht | ⟨adv, hd, hrearms, ht⟩
    · rw [ht]
    · -- A frame about the value carries a copy that does not arm it.
      have hne : adv.copy.handle ≠ h := by
        intro about
        obtain ⟨hk, hj⟩ := un adv hd about
        obtain ⟨r', hr', harms⟩ := hrearms hk
        rw [about, held] at hr'
        cases hr'
        rcases hj with hj | hj <;> rw [hj] at harms <;> cases harms
      rw [ht, Timetable.timer?_arm_of_ne now (Ne.symm hne)]
  | request k =>
    rcases perform_request_snd e k now with hsame | ⟨t, ht, hs⟩
    · rw [hsame]
    · rw [hs]
      exact Timetable.timer?_request ht h
  | takeNotice =>
    rcases perform_takeNotice_snd e now with hsame | ⟨n, inbox, -, hs⟩
    · rw [hsame]
    · rw [hs]
  | read k => rw [perform_read_snd]
  | stamp k => rw [perform_stamp_snd]

/-- **What is nothing to a value does not arm it.** -/
theorem unarmed_perform (he : e.Reachable) (up : e.settings = .ok cfg) (held : e.store.replicas.get? h = some r)
    (un : Uneventful cfg.accessAddress h r op) (now : Nat) :
    e.timetable.Unarmed h now r.lastActivity (e.sends? cfg.accessAddress h op now).isSome
      ((e.perform op now).2.timetable.timer? h) := by
  by_cases hop : ∃ sig, op = .signal sig
  · obtain ⟨sig, rfl⟩ := hop
    show e.timetable.Unarmed h now r.lastActivity
      ((Air.frame? (.task (e.signal sig now).1)).bind (Air.copyIn? cfg.accessAddress h)).isSome
      ((e.signal sig now).2.timetable.timer? h)
    rcases Air.signal_cases e sig now with ⟨cfg', up', hf, ht⟩ | ⟨hf, ht⟩
    · cases up.symm.trans up'
      rw [hf, ht]
      exact unarmed_takeFrame he up held now
    · rw [hf, ht]
      exact .stays
  · have hne : ∀ sig, op ≠ .signal sig := not_exists.1 hop
    rw [sends?_of_not_signal hne, timer?_perform_of_uneventful up held un hne]
    exact .stays

structure Calm (e : Engine) (cfg : Settings) (h : Handle) (r : Replica) (op : Operation) (now : Nat) : Prop where
  /-- The replica stays in all its parts. -/
  kept : (e.perform op now).2.store.replicas.get? h = some r
  /-- No notice of the value is put into the inbox. -/
  silent : (∃ n : Option Notice, (∀ m ∈ n, m.handle ≠ h) ∧ (e.perform op now).2.inbox = e.inbox.put n) ∨
    ∃ n, e.inbox.pop = some (n, (e.perform op now).2.inbox)
  /-- Only a transmission sets the timer anew. -/
  unarmed : e.timetable.Unarmed h now r.lastActivity (e.sends? cfg.accessAddress h op now).isSome
    ((e.perform op now).2.timetable.timer? h)

theorem calm_of_uneventful (he : e.Reachable) (up : e.settings = .ok cfg) (held : e.store.replicas.get? h = some r)
    (un : Uneventful cfg.accessAddress h r op) (now : Nat) : e.Calm cfg h r op now where
  kept := get?_perform_of_uneventful up held un now
  silent := by
    by_cases hop : op = .takeNotice
    · subst hop
      rcases perform_takeNotice_snd e now with hsame | ⟨n, inbox, hp, hs⟩
      · exact Or.inl ⟨none, nofun, by rw [hsame]; rfl⟩
      · exact Or.inr ⟨n, by rw [hs]; exact hp⟩
    · exact Or.inl ⟨_, told?_of_uneventful up held un, inbox_perform hop⟩
  unarmed := unarmed_perform he up held un now

/-! ## Backing off -/

theorem Reachable.maxInterval (he : e.Reachable) (up : e.settings = .ok cfg) :
    e.timetable.maxInterval = cfg.longestInterval := by
  rw [Timetable.maxInterval, (he.paced up).1, Settings.longestInterval]

/-- A value of which a copy is held has an interval. -/
theorem Reachable.exists_interval? (he : e.Reachable) (up : e.settings = .ok cfg)
    (held : e.store.replicas.get? h = some r) (allocated : r.allocated = true) :
    ∃ p, e.timetable.interval? h = some p ∧ p ≤ cfg.longestInterval := by
  have hsome : (e.timetable.interval? h).isSome = true := by
    rw [Timetable.isSome_interval?, he.sound.waits h, Store.copy?_of_get? held, Replica.isSome_copy?, allocated]
  obtain ⟨p, hp⟩ := Option.isSome_iff_exists.1 hsome
  exact ⟨p, hp, he.maxInterval up ▸ (he.paced up).2 h p hp⟩

/-- **Once a replica was left alone for long**, each transmission doubles the interval recorded for its value, up to the
longest one, and nothing else changes it. -/
theorem interval?_perform (he : e.Reachable) (up : e.settings = .ok cfg) (held : e.store.replicas.get? h = some r)
    (un : Uneventful cfg.accessAddress h r op)
    (stable : r.lastActivity + Timetable.stableIntervals * cfg.intervalMicros ≤ now) {p : Nat}
    (recorded : e.timetable.interval? h = some p) : (e.perform op now).2.timetable.interval? h =
      some (if (e.sends? cfg.accessAddress h op now).isSome then min (p * 2) cfg.longestInterval else p) := by
  have hback : e.timetable.backoff p now r.lastActivity = min (p * 2) cfg.longestInterval := by
    rw [← he.maxInterval up]
    refine Timetable.backoff_of_stable p ?_
    rw [(he.paced up).1, Nat.mul_assoc]
    exact stable
  rw [← hback]
  exact (unarmed_perform he up held un now).interval? recorded

end Engine
end ValueMesh
