import ValueMesh.Proofs.Steps
/-!
# Engines a history leads to

Every engine that comes about in any history is sound (`Reachable.sound`): settings, store and timetable agree on the
handles there are, and the values that wait for a window are just those of which a copy is held.  So what a node sends
under a handle is what it holds for it (`copy?_of_frame`).
-/
namespace ValueMesh
namespace Engine

variable [Jitter]

def Reachable (e : Engine) : Prop := ∃ history : List (Operation × Nat), fresh.run history = e

theorem reachable_fresh : fresh.Reachable := ⟨[], rfl⟩

theorem Reachable.perform {e : Engine} (h : e.Reachable) (op : Operation) (now : Nat) :
    (e.perform op now).2.Reachable := by
  obtain ⟨history, rfl⟩ := h
  exact ⟨history ++ [(op, now)], run_append ..⟩

theorem Reachable.run {e : Engine} (h : e.Reachable) (history : List (Operation × Nat)) :
    (e.run history).Reachable := by
  obtain ⟨before, rfl⟩ := h
  exact ⟨before ++ history, run_append ..⟩

/-- What holds of a fresh engine and survives every step holds of all engines that come about. -/
theorem Reachable.of_step {P : Engine → Prop} (base : P fresh)
    (step : ∀ {e e' : Engine} {op : Operation} {now : Nat}, P e → Step e now op e' → P e') {e : Engine}
    (h : e.Reachable) : P e := by
  obtain ⟨history, rfl⟩ := h
  suffices ∀ (history : List (Operation × Nat)) (e : Engine), P e → P (e.run history) from this history fresh base
  intro history
  induction history with
  | nil => exact fun e he => he
  | cons x rest ih => exact fun e he => ih _ (step he (step_perform e x.1 x.2))

/-- As `Reachable.of_step`, for what is known of calls and not of steps. -/
theorem Reachable.of_perform {P : Engine → Prop} (base : P fresh)
    (call : ∀ {e : Engine} (op : Operation) (now : Nat), e.Reachable → P e → P (e.perform op now).2) {e : Engine}
    (h : e.Reachable) : P e := by
  obtain ⟨history, rfl⟩ := h
  suffices ∀ (history : List (Operation × Nat)) (e : Engine), e.Reachable → P e → P (e.run history) from
    this history fresh reachable_fresh base
  intro history
  induction history with
  | nil => exact fun e _ hp => hp
  | cons x rest ih => exact fun e he hp => ih _ (he.perform x.1 x.2) (call x.1 x.2 he hp)

variable {e e' : Engine} {op : Operation} {now : Nat}

theorem Step.turn_back {h : Handle} {r' : Replica} (hs : Step e now op e') (up : e.isUp = true)
    (held : e'.store.replicas.get? h = some r') : ∃ r, e.store.replicas.get? h = some r ∧ Turn e h r now op r' := by
  have hc : e.store.covers h = true := by
    rw [Store.covers, ← hs.handleCount up]
    exact HandleTable.within_of_get? held
  obtain ⟨r, hr⟩ := Store.covers_iff_exists_get?.1 hc
  obtain ⟨r₁, hr₁, ht⟩ := hs.turn up hr
  cases hr₁.symm.trans held
  exact ⟨r, hr, ht⟩

/-! ## Soundness -/

structure Sound (e : Engine) : Prop where
  inRange : ∀ {cfg : Settings}, e.settings = .ok cfg → cfg.InRange
  handles : ∀ {cfg : Settings}, e.settings = .ok cfg → e.store.handleCount = cfg.handleCount.toNat
  slots : e.timetable.slots.size = e.store.handleCount
  /-- The values that wait for a window are those of which a copy is held. -/
  waits : ∀ h, (e.timetable.due? h).isSome = (e.store.copy? h).isSome

theorem Sound.covers {cfg : Settings} {h : Handle} (hs : e.Sound) (up : e.settings = .ok cfg) :
    e.store.covers h = cfg.covers h := by
  rw [Store.covers, hs.handles up, Settings.covers]

theorem sound_fresh : fresh.Sound where
  inRange := nofun
  handles := nofun
  slots := rfl
  waits h := by
    show (Option.bind (HandleTable.get? ⟨[]⟩ h) _).isSome = (Option.bind (HandleTable.get? ⟨[]⟩ h) _).isSome
    unfold HandleTable.get?
    split <;> rfl

theorem sound_start {e : Engine} {cfg : Settings} (a : Address) (inRange : cfg.InRange) :
    Sound { e with
      session := { e.session with active := some (cfg, .idle) }
      store := e.store.configure cfg.handleCount.toNat
      timetable := Timetable.configure cfg (seedOf a)
      address := a } := by
  have hmax : min cfg.handleCount.toNat Settings.maxHandles = cfg.handleCount.toNat :=
    Nat.min_eq_left inRange.2.2.1
  refine ⟨fun hc => ?_, fun hc => ?_, ?_, fun h => ?_⟩
  · cases hc
    exact inRange
  · cases hc
    exact (HandleTable.size_fill ..).trans hmax
  · exact (HandleTable.size_fill ..).trans (HandleTable.size_fill ..).symm
  · show ((Timetable.configure cfg (seedOf a)).due? h).isSome = ((e.store.configure _).copy? h).isSome
    rw [Timetable.due?_configure, Store.copy?_configure]
    rfl

theorem Sound.write {h : Handle} {data : List UInt8} {r : Replica} (hs : e.Sound)
    (held : e.store.replicas.get? h = some r) (inbox : Inbox) :
    Sound { e with
      store := e.store.put h (r.write data e.address now)
      inbox
      timetable := e.timetable.arm h now } := by
  have hput := Store.get?_put_self (r.write data e.address now) held
  refine ⟨hs.inRange, fun hc => (Store.handleCount_put ..).trans (hs.handles hc), ?_, fun k => ?_⟩
  · exact (Timetable.size_arm ..).trans (hs.slots.trans (Store.handleCount_put ..).symm)
  · show ((e.timetable.arm h now).due? k).isSome = ((e.store.put h _).copy? k).isSome
    by_cases hk : k = h
    · subst hk
      have hw : k.within e.timetable.slots.size = true := hs.slots ▸ HandleTable.within_of_get? held
      rw [Timetable.isSome_due?_arm now hw, Store.copy?_of_get? hput]
      rfl
    · rw [Timetable.due?_arm_of_ne now hk, Store.copy?, Store.get?_put_of_ne _ hk, ← Store.copy?]
      exact hs.waits k

theorem Sound.hear {frame : List UInt8} {c : Copy} (hs : e.Sound) (hears : e.Hears frame c) :
    (e.hearCopy c now).2.Sound := by
  have hl := length_le_of_hears hears
  obtain ⟨-, cfg, hcfg, hc, -⟩ := hears
  have hcov : e.store.covers c.handle = true := (hs.covers hcfg).trans hc
  obtain ⟨r, hr⟩ := Store.covers_iff_exists_get?.1 hcov
  have hw : c.handle.within e.timetable.slots.size = true := hs.slots ▸ hcov
  have hsize : ∀ b : Bool, (if b then e.timetable.arm c.handle now else e.timetable).slots.size =
      e.timetable.slots.size := by
    intro b
    cases b with
    | false => rfl
    | true => exact Timetable.size_arm ..
  rw [hearCopy_of_get? now hr hl]
  refine ⟨hs.inRange, fun hc => (Store.handleCount_hear ..).trans (hs.handles hc), ?_, fun k => ?_⟩
  · exact (hsize _).trans (hs.slots.trans (Store.handleCount_hear ..).symm)
  · show ((if (r.judge c).rearms then e.timetable.arm c.handle now else e.timetable).due? k).isSome =
      ((e.store.hear c now).2.copy? k).isSome
    by_cases hk : k = c.handle
    · subst hk
      rw [Store.copy?_hear now hcov hl, Option.isSome_some]
      cases hre : (r.judge c).rearms with
      | true => exact Timetable.isSome_due?_arm now hw
      | false =>
        -- What does not have the value sent soon left a copy that was held before, so the value waits already.
        have hna := Verdict.not_accepts_of_not_rearms hre
        rw [Replica.accepts_judge, Bool.or_eq_false_iff, Bool.not_eq_false'] at hna
        exact (hs.waits c.handle).trans (Store.isSome_copy?_of_allocated hr hna.1)
    · rw [Store.copy?_hear_of_ne now hk, ← hs.waits k]
      split
      · rw [Timetable.due?_arm_of_ne now hk]
      · rfl

theorem Sound.quiet {session : Session} {inbox : Inbox} {t : Timetable} {malformed transmitted : Nat} (hs : e.Sound)
    (settings : session.settings = e.settings) (waits : Timetable.SameWaits e.timetable t) :
    Sound { e with session, inbox, timetable := t, malformed, transmitted } :=
  ⟨fun hc => hs.inRange (settings ▸ hc), fun hc => hs.handles (settings ▸ hc), waits.size.trans hs.slots,
    fun h => (waits.waits h).trans (hs.waits h)⟩

/-- **One step keeps an engine sound.** -/
theorem Step.sound (hstep : Step e now op e') (hs : e.Sound) : e'.Sound := by
  cases hstep with
  | start down inRange => exact sound_start _ inRange
  | write up held hl => exact hs.write held _
  | hear hears => exact hs.hear hears
  | quiet settings waits =>
    rcases waits with hw | ⟨k, r, hr, ha, rfl⟩
    · exact hs.quiet settings hw
    · have hd : (e.timetable.due? k).isSome = true := (hs.waits k).trans (Store.isSome_copy?_of_allocated hr ha)
      exact hs.quiet settings (Timetable.sameWaits_arm now hd)

theorem Reachable.sound (h : e.Reachable) : e.Sound := h.of_step sound_fresh fun hs hstep => hstep.sound hs

theorem Reachable.get?_of_hears {frame : List UInt8} {c : Copy} (he : e.Reachable) (hears : e.Hears frame c) :
    ∃ r, e.store.replicas.get? c.handle = some r := by
  obtain ⟨-, cfg, up, hc, -⟩ := hears
  exact Store.covers_iff_exists_get?.1 ((he.sound.covers up).trans hc)

/-! ## Before a node is up -/

theorem exists_settings_of_isUp (up : e.isUp = true) : ∃ cfg, e.settings = .ok cfg := by
  obtain ⟨p, hp⟩ := Option.isSome_iff_exists.1 up
  exact ⟨p.1, Session.settings_eq_ok_iff.2 (by rw [hp]; rfl)⟩

theorem Step.isUp (hs : Step e now op e') (up : e.isUp = true) : e'.isUp = true := by
  obtain ⟨cfg, hcfg⟩ := exists_settings_of_isUp up
  exact isUp_of_settings (hs.settings hcfg)

theorem perform_start_of_done {cfg : Settings} {a : Address} {hostReady : Bool}
    (done : (e.perform (.start cfg a hostReady) now).1 = .done) :
    (e.perform (.start cfg a hostReady) now).2.settings = .ok cfg ∧
      (e.perform (.start cfg a hostReady) now).2.address = a := by
  simp only [Engine.perform] at done ⊢
  cases hs : e.start cfg a hostReady with
  | error f => rw [hs] at done; cases done
  | ok e' =>
    obtain ⟨-, -, rfl⟩ := start_of_ok hs
    exact ⟨rfl, rfl⟩

/-- **A node that is not up yet is as it was made**, whatever was done to it. -/
theorem Reachable.eq_fresh (he : e.Reachable) (down : e.isUp = false) : e = fresh := by
  refine he.of_perform (P := fun e => e.isUp = false → e = fresh) (fun _ => rfl) (fun {e} op now _ hp hdown => ?_) down
  have hbefore : e.isUp = false := by
    cases hup : e.isUp with
    | false => rfl
    | true =>
      rw [(step_perform e op now).isUp hup] at hdown
      cases hdown
  cases hp hbefore
  cases op with
  | start cfg a hostReady =>
    cases hs : fresh.start cfg a hostReady with
    | error f => simp only [Engine.perform, hs]
    | ok e' =>
      obtain ⟨-, -, rfl⟩ := start_of_ok hs
      simp only [Engine.perform, hs] at hdown
      cases hdown
  | write | read | stamp | request | takeNotice | signal | windowRefused | receive => rfl

/-- **A node that is not up yet holds nothing.** -/
theorem Reachable.copy?_of_down (he : e.Reachable) (down : e.isUp = false) (h : Handle) : e.store.copy? h = none := by
  refine he.of_step (P := fun e => e.isUp = false → e.store.copy? h = none) ?_ ?_ down
  · intro _
    show Option.bind (HandleTable.get? ⟨[]⟩ h) _ = none
    unfold HandleTable.get?
    split <;> rfl
  · intro e e' op now hnone hstep hdown
    cases hup : e.isUp with
    | true =>
      rw [hstep.isUp hup] at hdown
      cases hdown
    | false =>
      rcases hstep.of_down hup with ⟨cfg, a, up, -⟩ | ⟨-, hstore⟩
      · rw [isUp_of_settings up] at hdown
        cases hdown
      · rw [hstore]
        exact hnone hup

theorem Reachable.copy?_perform_of_down (he : e.Reachable) (down : e.isUp = false) (op : Operation) (now : Nat)
    (h : Handle) : (e.perform op now).2.store.copy? h = none := by
  rcases (step_perform e op now).of_down down with ⟨cfg, a, -, hstore, -⟩ | ⟨-, hstore⟩
  · rw [hstore]
    exact Store.copy?_configure ..
  · rw [hstore]
    exact he.copy?_of_down down h

theorem Reachable.isUp_of_copy? {h : Handle} {c : Copy} (he : e.Reachable) (hc : e.store.copy? h = some c) :
    e.isUp = true := by
  cases hup : e.isUp with
  | true => rfl
  | false =>
    rw [he.copy?_of_down hup h] at hc
    cases hc

/-! ## Engines that are up -/

variable {cfg : Settings}

/-- A write is refused for a handle the node does not have and for bytes no value can hold, and for nothing else. -/
theorem perform_write (up : e.settings = .ok cfg) (k : Handle) (data : List UInt8) (now : Nat) :
    e.perform (.write k data) now =
      match e.store.replicas.get? k with
      | none => (.refused .invalidAddr, e)
      | some r =>
        if maxValueBytes < data.length then (.refused .invalidLength, e)
        else (.written (r.version + 1) (e.inbox.push ⟨.updateVal, k, data, e.address⟩).1, { e with
          store := e.store.put k (r.write data e.address now)
          inbox := (e.inbox.push ⟨.updateVal, k, data, e.address⟩).2
          timetable := e.timetable.arm k now }) := by
  cases hr : e.store.replicas.get? k with
  | none =>
    simp only [perform, write, up, bind, Except.bind, Store.write, Store.writable, Store.replica, hr]
  | some r =>
    by_cases hl : maxValueBytes < data.length
    · simp only [perform, write, up, bind, Except.bind, Store.write, Store.writable, Store.replica, hr, if_pos hl]
    · simp only [perform, write, up, bind, Except.bind, Store.write, Store.writable, Store.replica, hr, if_neg hl, pure,
        Except.pure]
      rfl

theorem address_perform (up : e.settings = .ok cfg) (op : Operation) (now : Nat) :
    (e.perform op now).2.address = e.address := by
  rcases (step_perform e op now).identity with ⟨-, ha⟩ | ⟨cfg', a, hostReady, rfl, -⟩
  · exact ha
  · rw [perform_start_of_isUp (isUp_of_settings up)]

theorem settings_perform (up : e.settings = .ok cfg) (op : Operation) (now : Nat) :
    (e.perform op now).2.settings = .ok cfg := (step_perform e op now).settings up

theorem settings_run (up : e.settings = .ok cfg) (history : List (Operation × Nat)) :
    (e.run history).settings = .ok cfg := by
  induction history generalizing e with
  | nil => exact up
  | cons x rest ih => exact ih (settings_perform up x.1 x.2)

/-! ## Replicas -/

/-- What holds of a blank replica and survives every turn holds of all replicas that come about. -/
theorem Reachable.replica {P : Handle → Replica → Prop} (blank : ∀ h, P h Replica.blank)
    (turn : ∀ {e : Engine} {h : Handle} {r r' : Replica} {op : Operation} {now : Nat}, P h r → Turn e h r now op r' →
      P h r') {h : Handle} {r : Replica} (he : e.Reachable) (held : e.store.replicas.get? h = some r) : P h r := by
  refine he.of_step (P := fun e => ∀ h r, e.store.replicas.get? h = some r → P h r) ?_ ?_ h r held
  · intro h r hr
    have hcov : fresh.store.covers h = true := HandleTable.within_of_get? hr
    rw [Store.covers, Handle.within_iff_pos] at hcov
    exact absurd hcov.2 (Nat.not_lt_zero _)
  · intro e e' op now hall hstep h r' hr'
    cases hup : e.isUp with
    | true =>
      obtain ⟨r, hr, ht⟩ := hstep.turn_back hup hr'
      exact turn (hall h r hr) ht
    | false =>
      rcases hstep.of_down hup with ⟨cfg, a, -, hstore, -⟩ | ⟨-, hstore⟩
      · rw [hstore, Store.configure, HandleTable.get?_fill] at hr'
        split at hr'
        · cases hr'; exact blank h
        · cases hr'
      · exact hall h r' (hstore ▸ hr')

theorem Reachable.length_le {h : Handle} {r : Replica} (he : e.Reachable)
    (held : e.store.replicas.get? h = some r) : r.data.length ≤ maxValueBytes := by
  refine he.replica (P := fun _ r => r.data.length ≤ maxValueBytes) (fun _ => Nat.zero_le _) ?_ held
  intro e h r r' op now hr ht
  cases ht with
  | keep => exact hr
  | write hl => exact hl
  | hear hears about =>
    rename_i frame c
    unfold Replica.hear
    split
    · exact length_le_of_hears hears
    · exact length_le_of_hears hears
    · unfold Replica.remember
      split <;> exact hr
    · exact hr
    · exact hr
    · exact hr

theorem Turn.orderly {h : Handle} {r r' : Replica} (ht : Turn e h r now op r') (hr : r.Orderly) : r'.Orderly := by
  cases ht with
  | keep => exact hr
  | write => exact Replica.orderly_of_no_marks rfl
  | hear => exact hr.hear _ _

theorem Reachable.orderly {h : Handle} {r : Replica} (he : e.Reachable) (held : e.store.replicas.get? h = some r) :
    r.Orderly :=
  he.replica (P := fun _ r => r.Orderly) (fun _ => Replica.orderly_of_no_marks rfl) (fun hr ht => ht.orderly hr) held

/-- A replica that no version reached has version 0. -/
theorem Reachable.version_of_blank {h : Handle} {r : Replica} (he : e.Reachable)
    (held : e.store.replicas.get? h = some r) (blank : r.allocated = false) : r.version = 0 := by
  refine he.replica (P := fun _ r => r.allocated = false → r.version = 0) (fun _ _ => rfl) ?_ held blank
  intro e h r r' op now hr ht ha
  cases ht with
  | keep => exact hr ha
  | write => cases ha
  | hear hears about =>
    rename_i frame c
    have hsome := Replica.copy?_hear r c now
    rw [Replica.copy?, ha] at hsome
    cases hsome

/-- **What becomes of the copy a node holds of a value**: it stays, or it is written and the version answered, or it
meets one that is heard. -/
theorem Reachable.copy_cases (he : e.Reachable) (op : Operation) (now : Nat) (h : Handle) :
    (e.perform op now).2.store.copy? h = e.store.copy? h ∨
    (∃ data r evicted, op = .write h data ∧ e.store.replicas.get? h = some r ∧
      (e.perform op now).1 = .written (r.version + 1) evicted ∧
      (e.perform op now).2.store.copy? h = some ⟨h, r.version + 1, e.address, data⟩) ∨
    ∃ frame c, op = .receive frame ∧ e.Hears frame c ∧ c.handle = h ∧
      (e.perform op now).2.store.copy? h = some (c.upon (e.store.copy? h)) := by
  cases hup : e.isUp with
  | false => exact Or.inl ((he.copy?_perform_of_down hup op now h).trans (he.copy?_of_down hup h).symm)
  | true =>
    rcases (step_perform e op now).copy_cases hup h with same | ⟨data, r, rfl, held, hafter⟩ | heard
    · exact Or.inl same
    · cases hw : e.write h data now with
      | error f => exact Or.inl (by simp only [Engine.perform, hw])
      | ok p =>
        obtain ⟨⟨version, evicted⟩, e'⟩ := p
        obtain ⟨-, r', held', -, hv, -⟩ := write_of_ok hw
        cases held.symm.trans held'
        cases hv
        exact Or.inr (Or.inl ⟨data, r, _, rfl, held, congrArg Prod.fst (perform_write_of_ok hw), hafter⟩)
    · exact Or.inr (Or.inr heard)

/-! ## Frames sent -/

/-- **What a node sends of a value is the copy it holds.** -/
theorem copy?_of_frame {sig : Signal} {mesh : UInt32} {channel : UInt8} {frame : List UInt8} {c : Copy} (hs : e.Sound)
    (sent : (e.signal sig now).1 = .openWindow mesh channel (some frame))
    (carries : Advertisement.decode frame mesh = .ok (.value c)) : e.store.copy? c.handle = some c := by
  obtain ⟨⟨cfg, hcfg, rfl⟩, item, adv, lastActivity, hn, ha, henc⟩ := frame_of_signal sent
  have hsize : e.timetable.slots.size ≤ 0x10000 := by
    have hlt : cfg.handleCount.toNat < 0x10000 := cfg.handleCount.toNat_lt
    rw [hs.slots, hs.handles hcfg]
    exact Nat.le_of_lt hlt
  have hdec : ∀ h, adv.copy.handle = h → h.within e.timetable.slots.size = true → adv = .value c := by
    intro h hadv hw
    have hne : adv.copy.handle ≠ 0 := hadv ▸ (Handle.within_iff.1 hw).1
    have := Advertisement.decode_of_encode hne henc
    rw [carries] at this
    cases this
    rfl
  cases item with
  | request h =>
    cases ha
    obtain ⟨s, hg, -⟩ := Timetable.requested_of_next hsize hn
    have := hdec h rfl (HandleTable.within_of_get? hg)
    cases this
  | value h =>
    obtain ⟨r, hr, hadv⟩ := Option.map_eq_some_iff.1 ha
    cases hadv
    have hd := Timetable.isSome_due?_of_next hsize hn
    have hc := hdec h rfl (hs.slots ▸ HandleTable.within_of_get? hr)
    cases hc
    rw [hs.waits h, Store.copy?_of_get? hr, Replica.copy?] at hd
    show e.store.copy? h = _
    rw [Store.copy?_of_get? hr, Replica.copy?]
    cases hal : r.allocated with
    | true => rfl
    | false => rw [hal] at hd; cases hd

end Engine
end ValueMesh
