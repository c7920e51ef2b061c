import ValueMesh.Machine.Engine
import ValueMesh.Proofs.Operating
import ValueMesh.Proofs.Telling
/-!
# Engines that run on the machine

Every engine that comes about fits the machine (`Reachable.fits`): its tables, its marks and its notices have room, its
shortest interval is one that settings may have, and the handle served last is one it has.  So the machine makes all its
calls without stopping, and what becomes of an engine that is changed in place is what the calls return.
-/
namespace ValueMesh
namespace Engine

variable [Jitter] {e : Engine} {cfg : Settings}

theorem settings_of_down (down : e.isUp = false) : e.settings = .error .invalidState := by
  rw [settings, Session.settings, Option.not_isSome_iff_eq_none.1 (Bool.eq_false_iff.1 down)]

theorem perform_write_of_down (down : e.settings = .error .invalidState) (h : Handle) (data : List UInt8) (now : Nat) :
    e.perform (.write h data) now = (.refused .invalidState, e) := by
  simp only [perform, write, down]
  rfl

theorem start_of_outOfRange (down : e.isUp = false) (beyond : ¬ cfg.InRange) (a : Address) (hostReady : Bool) :
    e.start cfg a hostReady = .error .invalidParam := by
  have unchecked := Settings.check_eq_error_iff.2 ⟨beyond, rfl⟩
  simp only [start, down, unchecked]
  rfl

theorem start_of_hostDown (down : e.isUp = false) (inRange : cfg.InRange) (a : Address) :
    e.start cfg a false = .error .dependencyNotReady := by
  have checked := Settings.check_eq_ok_iff.2 inRange
  simp only [start, down, checked]
  rfl

theorem start_of_down (down : e.isUp = false) (inRange : cfg.InRange) (a : Address) : e.start cfg a true = .ok { e with
    session := { e.session with active := some (cfg, .idle) }
    store := e.store.configure cfg.handleCount.toNat
    timetable := Timetable.configure cfg (seedOf a)
    address := a } := by
  have checked := Settings.check_eq_ok_iff.2 inRange
  have idle : e.session.active.isSome = false := down
  simp only [start, Session.configure, down, idle, checked]
  rfl

structure Fits (e : Engine) : Prop where
  replicas : e.store.handleCount ≤ Settings.maxHandles
  slots : e.timetable.slots.size = e.store.handleCount
  marks : ∀ {h : Handle} {r : Replica}, e.store.replicas.get? h = some r → r.marks.length ≤ maxMarks
  pending : e.inbox.pending.length ≤ Inbox.capacity
  interval : e.timetable.interval ≤ Settings.maxInterval
  turn : e.timetable.TurnValid

theorem Fits.small (fits : e.Fits) : e.timetable.slots.size ≤ Settings.maxHandles := fits.slots ▸ fits.replicas

theorem Fits.timetable (fits : e.Fits) : e.timetable.Fits := ⟨fits.small, fits.interval, fits.turn⟩

theorem Fits.exists_slot {h : Handle} {r : Replica} (fits : e.Fits) (held : e.store.replicas.get? h = some r) :
    ∃ s, e.timetable.slots.get? h = some s :=
  Option.isSome_iff_exists.1 <| (HandleTable.isSome_get? ..).trans <| fits.slots ▸ HandleTable.within_of_get? held

omit [Jitter] in
theorem length_pending_put_le {q : Inbox} (n : Option Notice) (fits : q.pending.length ≤ Inbox.capacity) :
    (q.put n).pending.length ≤ Inbox.capacity := by
  cases n with
  | none => exact fits
  | some n => exact Inbox.length_push_le_capacity n fits

theorem Reachable.pending_le (he : e.Reachable) : e.inbox.pending.length ≤ Inbox.capacity := by
  refine he.of_perform (P := fun e => e.inbox.pending.length ≤ Inbox.capacity) (Nat.zero_le _)
    fun {e} op now _ fits => ?_
  by_cases takes : op = .takeNotice
  · subst takes
    rcases perform_takeNotice_snd e now with same | ⟨n, inbox, popped, after⟩
    · rw [same]
      exact fits
    · have hp := Inbox.pending_of_pop popped
      rw [hp, List.length_cons] at fits
      rw [after]
      exact Nat.le_of_succ_le fits
  · rw [inbox_perform takes]
    exact length_pending_put_le _ fits

/-- **Every engine that comes about fits the machine.** -/
theorem Reachable.fits (he : e.Reachable) : e.Fits := by
  cases hup : e.isUp with
  | false =>
    rw [he.eq_fresh hup]
    refine ⟨Nat.zero_le _, rfl, fun {h r} held => ?_, Nat.zero_le _, Nat.zero_le _, Or.inl rfl⟩
    exact absurd (Handle.within_iff.1 (HandleTable.within_of_get? held)).2 (Nat.not_lt_zero _)
  | true =>
    obtain ⟨cfg, up⟩ := exists_settings_of_isUp hup
    have inRange := he.sound.inRange up
    refine ⟨?_, he.sound.slots, fun held => (he.orderly held).few, he.pending_le, ?_, he.turn⟩
    · rw [he.sound.handles up]
      exact inRange.2.2.1
    · rw [he.interval up]
      exact inRange.2.2.2.2

end Engine

namespace Machine

open Call (state_bind change_bind bind_of_ok bind_of_refused bind_of_stop check_bind ask_bind ask_bind_of_refused
  attempt_bind)
open Engine (Operation Answer)

section

variable [Jitter] {e : Engine} {cfg : Settings} {op : Operation} {h : Handle} {data : List UInt8} {now : Nat}

section Answers

variable {α : Type} {x : Call Engine α} {g : α → Answer}

theorem perform_of_ok {a : α} {e' : Engine} (calls : call op now = x >>= fun a => pure (g a))
    (made : x e = .ok (.ok a, e')) : perform op now e = .ok (g a, e') := by
  rw [perform, calls, bind_of_ok made]
  rfl

theorem perform_of_refused {f : Fault} (calls : call op now = x >>= fun a => pure (g a))
    (made : x e = .ok (.error f, e)) : perform op now e = .ok (.refused f, e) := by
  rw [perform, calls, bind_of_refused made]
  rfl

theorem perform_of_stop {stop : Stop} (calls : call op now = x >>= fun a => pure (g a))
    (stops : x e = .error stop) : perform op now e = .error stop := by
  rw [perform, calls, bind_of_stop stops]
  rfl

end Answers

/-! ## Coming up -/

omit [Jitter] in
theorem configureStore_eq (count : Nat) (s : Store) : configureStore count s = .ok (.ok (), s.configure count) := by
  have hword : byteRoom 2 = 65536 := rfl
  have hmax : Settings.maxHandles = 155 := rfl
  have numbered : ∀ i ∈ List.range Settings.maxHandles, narrow 2 i = .ok (id i) := fun i hi => by
    have hlt := List.mem_range.1 hi
    exact narrow_eq (by omega)
  rw [configureStore, check_bind (narrow_eq (by omega)), check_bind (mapM_eq numbered)]
  rfl

omit [Jitter] in
theorem seedOf_eq (a : Address) : seedOf a = .ok (Engine.seedOf a) := rfl

theorem configureTimetable_eq (cfg : Settings) (seed : UInt64) (t : Timetable) :
    configureTimetable cfg seed t = .ok (.ok (), Timetable.configure cfg seed) := by
  have hword : byteRoom 2 = 65536 := rfl
  have hmax : Settings.maxHandles = 155 := rfl
  rw [configureTimetable, check_bind (narrow_eq (by omega))]
  rfl

theorem start_of_down (down : e.isUp = false) (inRange : cfg.InRange) (a : Address) : start cfg a true e = .ok (.ok (),
    { e with
      session := { e.session with active := some (cfg, .idle) }
      store := e.store.configure cfg.handleCount.toNat
      timetable := Timetable.configure cfg (Engine.seedOf a)
      address := a }) := by
  have checked := Settings.check_eq_ok_iff.2 inRange
  have session : configureSession cfg e.session = .ok (.ok (), { e.session with active := some (cfg, .idle) }) := by
    rw [configureSession, state_bind, show e.session.active.isSome = false from down, if_neg Bool.false_ne_true,
      ask_bind checked]
    rfl
  rw [start, state_bind, down, if_neg Bool.false_ne_true, ask_bind checked, if_pos rfl,
    bind_of_ok (onSession_eq session), bind_of_ok (onStore_eq (configureStore_eq ..)), check_bind (seedOf_eq a),
    bind_of_ok (onTimetable_eq (configureTimetable_eq ..))]
  rfl

theorem perform_start (cfg : Settings) (a : Address) (hostReady : Bool) (now : Nat) (e : Engine) :
    perform (.start cfg a hostReady) now e = .ok (e.perform (.start cfg a hostReady) now) := by
  have calls : call (.start cfg a hostReady) now = start cfg a hostReady >>= fun _ => pure .done := rfl
  cases hup : e.isUp with
  | true =>
    rw [Engine.perform_start_of_isUp hup]
    refine perform_of_refused calls ?_
    rw [start, state_bind, hup]
    rfl
  | false =>
    by_cases inRange : cfg.InRange
    · cases hostReady with
      | false =>
        simp only [Engine.perform, Engine.start_of_hostDown hup inRange]
        refine perform_of_refused calls ?_
        rw [start, state_bind, hup, if_neg Bool.false_ne_true, ask_bind (Settings.check_eq_ok_iff.2 inRange)]
        rfl
      | true =>
        simp only [Engine.perform, Engine.start_of_down hup inRange]
        exact perform_of_ok calls (start_of_down hup inRange a)
    · simp only [Engine.perform, Engine.start_of_outOfRange hup inRange]
      refine perform_of_refused calls ?_
      rw [start, state_bind, hup, if_neg Bool.false_ne_true,
        ask_bind_of_refused (Settings.check_eq_error_iff.2 ⟨inRange, rfl⟩)]

/-! ## Calls of the application -/

theorem write_of_down (down : e.settings = .error .invalidState) (h : Handle) (data : List UInt8) (now : Nat) :
    write h data now e = .ok (.error .invalidState, e) := by
  rw [write, state_bind, ask_bind_of_refused down]

theorem write_of_beyond (up : e.settings = .ok cfg) (beyond : e.store.covers h = false) (data : List UInt8)
    (now : Nat) : write h data now e = .ok (.error .invalidAddr, e) := by
  rw [write, state_bind, ask_bind up, bind_of_refused (onStore_eq (writeReplica_of_beyond beyond ..))]

theorem write_of_long (up : e.settings = .ok cfg) (covered : e.store.covers h = true)
    (long : maxValueBytes < data.length) (now : Nat) : write h data now e = .ok (.error .invalidLength, e) := by
  rw [write, state_bind, ask_bind up, bind_of_refused (onStore_eq (writeReplica_of_long covered long ..))]

/-- A write that is not refused is made, unless the value would be due at a time that leaves its word. -/
theorem write_of_held {r : Replica} (fits : e.Fits) (up : e.settings = .ok cfg)
    (held : e.store.replicas.get? h = some r) (short : data.length ≤ maxValueBytes) (now : Nat) :
    write h data now e = if now + (e.timetable.jitter (e.timetable.interval * 500)).1 < byteRoom 8
      then .ok (.ok (r.version + 1, (e.inbox.push ⟨.updateVal, h, data, e.address⟩).1), { e with
        store := e.store.put h (r.write data e.address now)
        inbox := (e.inbox.push ⟨.updateVal, h, data, e.address⟩).2
        timetable := e.timetable.arm h now })
      else .error .overflow := by
  obtain ⟨s, hs⟩ := fits.exists_slot held
  have armed := arm_of_held hs fits.small fits.interval now
  rw [write, state_bind, ask_bind up, bind_of_ok (onStore_eq (writeReplica_of_held held fits.replicas short ..))]
  generalize e.store.put h (r.write data e.address now) = store
  by_cases fitting : now + (e.timetable.jitter (e.timetable.interval * 500)).1 < byteRoom 8
  · rw [if_pos fitting] at armed
    rw [if_pos fitting, bind_of_ok (onTimetable_eq (e := { e with store }) armed), ask_bind (copyIn_of_le short)]
    generalize e.timetable.arm h now = timetable
    rw [bind_of_ok (onInbox_eq (e := { e with store, timetable }) (push_eq fits.pending _))]
    rfl
  · rw [if_neg fitting] at armed
    rw [if_neg fitting]
    exact bind_of_stop (onTimetable_of_stop (e := { e with store }) armed) _

/-- What becomes of a write, whenever it is made: only one that is not refused may stop the machine, by a due time that
leaves its word. -/
theorem perform_write_cases (fits : e.Fits) (h : Handle) (data : List UInt8) (now : Nat) :
    perform (.write h data) now e = .ok (e.perform (.write h data) now) ∨
    byteRoom 8 ≤ now + (e.timetable.jitter (e.timetable.interval * 500)).1 ∧
      perform (.write h data) now e = .error .overflow ∧
      ∃ version evicted, (e.perform (.write h data) now).1 = .written version evicted := by
  have calls : call (.write h data) now = write h data now >>= fun p => pure (.written p.1 p.2) := rfl
  cases hup : e.isUp with
  | false =>
    have down := Engine.settings_of_down hup
    left
    rw [perform_of_refused calls (write_of_down down ..), Engine.perform_write_of_down down]
  | true =>
    obtain ⟨cfg, up⟩ := Engine.exists_settings_of_isUp hup
    rw [Engine.perform_write up]
    cases held : e.store.replicas.get? h with
    | none =>
      have beyond : e.store.covers h = false := HandleTable.get?_eq_none_iff.1 held
      exact Or.inl (perform_of_refused calls (write_of_beyond up beyond ..))
    | some r =>
      by_cases long : maxValueBytes < data.length
      · have covered : e.store.covers h = true := HandleTable.within_of_get? held
        simp only [if_pos long]
        exact Or.inl (perform_of_refused calls (write_of_long up covered long now))
      · have made := write_of_held fits up held (Nat.not_lt.1 long) now
        simp only [if_neg long]
        split at made
        · left
          rw [perform_of_ok calls made]
        · rename_i late
          exact Or.inr ⟨Nat.not_lt.1 late, perform_of_stop calls made, _, _, rfl⟩

theorem perform_write (fits : e.Fits) (early : now ≤ latest) (h : Handle) (data : List UInt8) :
    perform (.write h data) now e = .ok (e.perform (.write h data) now) := by
  rcases perform_write_cases fits h data now with made | ⟨late, -⟩
  · exact made
  · exact absurd (due_lt_of_early fits.interval early) (Nat.not_lt.2 late)

/-- Reading a replica gives what the store answers. -/
theorem onStore_replica_eq (fits : e.Fits) (h : Handle) : onStore (replica h) e = .ok (e.store.replica h, e) :=
  onStore_eq (replica_eq fits.replicas h)

theorem perform_read (fits : e.Fits) (h : Handle) (now : Nat) :
    perform (.read h) now e = .ok (e.perform (.read h) now) := by
  have calls : call (.read h) now = read h >>= fun data => pure (.bytes data) := rfl
  have found := onStore_replica_eq fits h
  cases hset : e.settings with
  | error f =>
    rw [perform_of_refused calls (f := f) (by rw [read, state_bind, ask_bind_of_refused hset])]
    simp only [Engine.perform, Engine.read, hset]
    rfl
  | ok cfg =>
    simp only [Engine.perform, Engine.read, Store.read, hset]
    cases hr : e.store.replica h with
    | error f =>
      rw [hr] at found
      exact perform_of_refused calls (by rw [read, state_bind, ask_bind hset, bind_of_refused found])
    | ok r =>
      rw [hr] at found
      exact perform_of_ok calls (a := r.data) (by rw [read, state_bind, ask_bind hset, bind_of_ok found]; rfl)

theorem perform_stamp (fits : e.Fits) (h : Handle) (now : Nat) :
    perform (.stamp h) now e = .ok (e.perform (.stamp h) now) := by
  have calls : call (.stamp h) now = stamp h >>= fun p => pure (.stamp p.1 p.2) := rfl
  have found := onStore_replica_eq fits h
  cases hset : e.settings with
  | error f =>
    rw [perform_of_refused calls (f := f) (by rw [stamp, state_bind, ask_bind_of_refused hset])]
    simp only [Engine.perform, Engine.stamp, hset]
    rfl
  | ok cfg =>
    simp only [Engine.perform, Engine.stamp, hset]
    cases hr : e.store.replica h with
    | error f =>
      rw [hr] at found
      exact perform_of_refused calls (by rw [stamp, state_bind, ask_bind hset, bind_of_refused found])
    | ok r =>
      rw [hr] at found
      exact perform_of_ok calls (a := (r.version, r.origin))
        (by rw [stamp, state_bind, ask_bind hset, bind_of_ok found]; rfl)

theorem perform_request (fits : e.Fits) (h : Handle) (now : Nat) :
    perform (.request h) now e = .ok (e.perform (.request h) now) := by
  have calls : call (.request h) now = request h >>= fun _ => pure .done := rfl
  cases hset : e.settings with
  | error f =>
    rw [perform_of_refused calls (f := f) (by rw [request, state_bind, ask_bind_of_refused hset])]
    simp only [Engine.perform, Engine.request, hset]
    rfl
  | ok cfg =>
    simp only [Engine.perform, Engine.request, hset, Timetable.request]
    cases held : e.timetable.slots.get? h with
    | none =>
      have beyond := onTimetable_eq (requestValue_of_beyond (HandleTable.get?_eq_none_iff.1 held))
      exact perform_of_refused calls (by rw [request, state_bind, ask_bind hset, beyond])
    | some s =>
      have asked := onTimetable_eq (requestValue_of_held held fits.small)
      exact perform_of_ok calls (by rw [request, state_bind, ask_bind hset, asked])

theorem perform_takeNotice (now : Nat) (e : Engine) :
    perform .takeNotice now e = .ok (e.perform .takeNotice now) := by
  have calls : call .takeNotice now = onInbox pop >>= fun n => pure (.notice n) := rfl
  simp only [Engine.perform, Engine.takeNotice, Inbox.pop]
  cases hp : e.inbox.pending with
  | nil =>
    have empty : pop e.inbox = .ok (.ok none, e.inbox) := by
      rw [pop, state_bind, hp]
      rfl
    exact perform_of_ok calls (onInbox_eq empty)
  | cons n rest =>
    have first : pop e.inbox = .ok (.ok (some n), { e.inbox with pending := rest }) := by
      rw [pop, state_bind, hp]
      rfl
    exact perform_of_ok calls (onInbox_eq first)

/-! ## Windows -/

theorem send_eq {item : Item} {adv : Advertisement} {lastActivity : Nat} {t : Timetable}
    (completed : complete item now lastActivity e.timetable = .ok (.ok (), t)) (mesh : UInt32) :
    send item adv mesh now lastActivity e = .ok (match adv.encode mesh with
      | .error _ => (.ok none, { e with timetable := t })
      | .ok frame => (.ok (some frame), { e with timetable := t, transmitted := Tally.bump e.transmitted })) := by
  rw [send, check_bind (encode_eq adv mesh), bind_of_ok (onTimetable_eq completed)]
  cases adv.encode mesh <;> rfl

theorem takeFrame_eq (fits : e.Fits) (early : now ≤ latest) (mesh : UInt32) :
    takeFrame mesh now e = .ok (.ok (e.takeFrame mesh now).1, (e.takeFrame mesh now).2) := by
  have chosen := onTimetable_eq (e := e) (next_eq fits.small fits.turn now)
  have small : (e.timetable.next now).2.slots.size ≤ Settings.maxHandles := by
    rw [Timetable.size_next]
    exact fits.small
  have completed := fun item lastActivity => complete_eq small fits.interval early item lastActivity
  rw [takeFrame, bind_of_ok chosen, state_bind, Engine.takeFrame]
  generalize e.timetable.next now = p at completed
  obtain ⟨item, t⟩ := p
  match item with
  | none => rfl
  | some (.request h) =>
    refine (send_eq (e := { e with timetable := t }) (completed ..) mesh).trans ?_
    simp only [Option.bind_some, Engine.advertisement, Option.map_some]
    cases (Advertisement.request h e.address).encode mesh <;> rfl
  | some (.value h) =>
    have found := onStore_eq (e := { e with timetable := t }) (replica_eq fits.replicas h)
    refine (attempt_bind found _).trans ?_
    simp only [Option.bind_some, Engine.advertisement, Store.replica]
    cases e.store.replicas.get? h with
    | none => rfl
    | some r =>
      refine (send_eq (e := { e with timetable := t }) (completed ..) mesh).trans ?_
      simp only [Option.map_some]
      cases (Advertisement.value (r.toCopy h)).encode mesh <;> rfl

theorem perform_signal (fits : e.Fits) (early : now ≤ latest) (sig : Signal) :
    perform (.signal sig) now e = .ok (e.perform (.signal sig) now) := by
  have calls : call (.signal sig) now = signal sig now >>= fun task => pure (.task task) := rfl
  have made : signal sig now e = .ok (.ok (e.signal sig now).1, (e.signal sig now).2) := by
    rw [signal, state_bind, change_bind, Engine.signal]
    generalize e.session.signal sig now = p
    obtain ⟨step, session⟩ := p
    cases step with
    | none | requestWindow | continueWindow | closeWindow => rfl
    | openWindow =>
      simp only
      rw [state_bind]
      simp only [Engine.settings]
      cases session.settings with
      | error f => rfl
      | ok cfg =>
        have fits' : Engine.Fits { e with session } :=
          ⟨fits.replicas, fits.slots, fits.marks, fits.pending, fits.interval, fits.turn⟩
        exact bind_of_ok (takeFrame_eq fits' early cfg.accessAddress) _
  exact perform_of_ok calls made

/-! ## Receiving -/

theorem countAccepted_eq (v : Verdict) (e : Engine) : countAccepted v e =
    .ok (.ok (), { e with accepted := if v.accepts then Tally.bump e.accepted else e.accepted }) := by
  unfold countAccepted
  split <;> rfl

theorem rearm_eq (armed : arm h now e.timetable = .ok (.ok (), e.timetable.arm h now)) (v : Verdict) :
    rearm v h now e =
      .ok (.ok (), { e with timetable := if v.rearms then e.timetable.arm h now else e.timetable }) := by
  unfold rearm
  split
  · exact onTimetable_eq armed
  · rfl

theorem deliver_eq (fits : e.inbox.pending.length ≤ Inbox.capacity) (n : Option Notice) :
    deliver n e = .ok (.ok (e.deliver n).1, (e.deliver n).2) := by
  cases n with
  | none => rfl
  | some n => exact onInbox_eq (push_eq fits n)

theorem answerRequest_eq (fits : e.Fits) (early : now ≤ latest) (h : Handle) :
    answerRequest h now e = .ok (.ok (e.answerRequest h now).1, (e.answerRequest h now).2) := by
  rw [answerRequest, attempt_bind (onStore_replica_eq fits h), Engine.answerRequest, Store.replica]
  cases held : e.store.replicas.get? h with
  | none => rfl
  | some r =>
    simp only
    split
    · exact bind_of_ok (onTimetable_eq (arm_of_early fits.timetable early h)) _
    · rfl

theorem hearCopy_eq {c : Copy} {r : Replica} (fits : e.Fits) (early : now ≤ latest)
    (held : e.store.replicas.get? c.handle = some r) (short : c.data.length ≤ maxValueBytes) :
    hearCopy c now e = .ok (.ok (e.hearCopy c now).1, (e.hearCopy c now).2) := by
  have heard := onStore_eq (hear_eq held fits.replicas short (fits.marks held) now)
  have armed := arm_of_early fits.timetable early c.handle
  rw [hearCopy, attempt_bind heard, Engine.hearCopy_of_get? now held short]
  generalize (e.store.hear c now).2 = store
  simp only
  rw [bind_of_ok (countAccepted_eq ..)]
  generalize (if (r.judge c).accepts then Tally.bump e.accepted else e.accepted) = accepted
  rw [bind_of_ok (rearm_eq (e := { e with store, accepted }) armed _)]
  generalize (if (r.judge c).rearms then e.timetable.arm c.handle now else e.timetable) = timetable
  rw [bind_of_ok (deliver_eq (e := { e with store, accepted, timetable }) fits.pending _)]
  cases Store.announcement c (r.judge c) <;> rfl

theorem perform_receive (he : e.Reachable) (early : now ≤ latest) (frame : List UInt8) :
    perform (.receive frame) now e = .ok (e.perform (.receive frame) now) := by
  have calls : call (.receive frame) now = receive frame now >>= fun r => pure (.received r) := rfl
  have fits := he.fits
  have made : receive frame now e = .ok (.ok (e.receive frame now).1, (e.receive frame now).2) := by
    rw [receive, state_bind, Engine.receive]
    cases isOpen : e.session.inWindow with
    | false => rfl
    | true =>
      obtain ⟨cfg, up⟩ := Session.settings_of_inWindow isOpen
      have up : e.settings = .ok cfg := up
      simp only [up]
      rw [check_bind (decode_eq frame cfg.accessAddress)]
      cases decodes : Advertisement.decode frame cfg.accessAddress with
      | error cause => rfl
      | ok adv =>
        simp only
        cases covered : cfg.covers adv.copy.handle with
        | false => rfl
        | true =>
          rw [if_pos rfl, Bool.not_true, if_neg Bool.false_ne_true]
          cases carries : adv.kind with
          | request => exact answerRequest_eq fits early adv.copy.handle
          | value =>
            have hears : e.Hears frame adv.copy := by
              refine ⟨isOpen, cfg, up, covered, ?_⟩
              rw [decodes, Advertisement.value, ← carries]
            obtain ⟨r, held⟩ := he.get?_of_hears hears
            exact hearCopy_eq fits early held (Engine.length_le_of_hears hears)
  exact perform_of_ok calls made

/-! ## Whole histories -/

/-- **Before `latest` nothing stops the machine**, and it makes of an engine what the calls of an engine return. -/
theorem perform_eq (he : e.Reachable) (early : now ≤ latest) (op : Operation) :
    perform op now e = .ok (e.perform op now) := by
  cases op with
  | start cfg a hostReady => exact perform_start cfg a hostReady now e
  | write h data => exact perform_write he.fits early h data
  | read h => exact perform_read he.fits h now
  | stamp h => exact perform_stamp he.fits h now
  | request h => exact perform_request he.fits h now
  | takeNotice => exact perform_takeNotice now e
  | signal sig => exact perform_signal he.fits early sig
  | windowRefused => rfl
  | receive frame => exact perform_receive he early frame

theorem run_eq {history : List (Operation × Nat)} (he : e.Reachable) (early : ∀ x ∈ history, x.2 ≤ latest) :
    run e history = .ok (e.answers history, e.run history) := by
  induction history generalizing e with
  | nil => rfl
  | cons x rest ih =>
    obtain ⟨op, now⟩ := x
    have first : perform op now e = .ok (e.perform op now) := perform_eq he (early (op, now) List.mem_cons_self) op
    have others := ih (he.perform op now) fun y hy => early y (List.mem_cons_of_mem _ hy)
    simp only [run, first, others, ok_bind]
    rfl

theorem slot?_eq (fits : e.Fits) (h : Handle) : slot? e.timetable h = .ok (e.timetable.slots.get? h) := by
  cases held : e.timetable.slots.get? h with
  | none =>
    rw [slot?, HandleTable.get?_eq_none_iff.1 held]
    rfl
  | some s =>
    rw [slot?, HandleTable.within_of_get? held, if_pos rfl, slot_eq held fits.small]
    rfl

/-- **Nothing that is done to an engine before `latest` stops the machine.**  Whatever settings, handles, bytes and
signals it is given, no sum, difference or product leaves its word, no number is cut down, no slot and no byte is
missing and no buffer is full; the callers are answered as ever, and the engine is the same. -/
theorem nothing_stops_the_machine {history : List (Operation × Nat)} (early : ∀ x ∈ history, x.2 ≤ latest) :
    run Engine.fresh history = .ok (Engine.fresh.answers history, Engine.fresh.run history) ∧
    ∀ h, slot? (Engine.fresh.run history).timetable h = .ok ((Engine.fresh.run history).timetable.slots.get? h) := by
  have reached : (Engine.fresh.run history).Reachable := ⟨history, rfl⟩
  exact ⟨run_eq Engine.reachable_fresh early, slot?_eq reached.fits⟩

end

/-- Under the longest interval and with all handles there can be, a value that was left alone is sent at the last
moment, and another one is written then. -/
theorem nothing_stops_the_machine_at_the_last_moment :
    let history : List (Operation × Nat) :=
      [(.start ⟨0x8E89BED6, 39, 155, 60000⟩ ⟨0x11, 0, 0, 0, 0, 0⟩ true, 0), (.write 154 [7], 1),
        (.signal .tick, latest), (.signal .started, latest), (.write 153 (List.replicate 28 255), latest)]
    (∀ x ∈ history, x.2 ≤ latest) ∧
    (Engine.fresh.run history).timetable.lastServed = 154 ∧
    run Engine.fresh history = .ok (Engine.fresh.answers history, Engine.fresh.run history) := by
  intro history
  have early : ∀ x ∈ history, x.2 ≤ latest := by decide
  exact ⟨early, by decide +kernel, (nothing_stops_the_machine early).1⟩

/-- Later the time at which a value is due may leave its word. -/
example : (run Engine.fresh [(.start ⟨0x8E89BED6, 38, 10, 100⟩ ⟨0x11, 0, 0, 0, 0, 0⟩ true, 0),
    (.write 3 [7], 18446744073709551615)]).toOption = none := by decide +kernel

end Machine

namespace Engine

variable [Jitter]

/-- The machine follows a history of the engine, if none of its times is past `Machine.latest`: it does not stop, and
answers and engine are the same. -/
def Followed (e : Engine) (history : List (Operation × Nat)) : Prop :=
  (∀ x ∈ history, x.2 ≤ Machine.latest) → Machine.run e history = .ok (e.answers history, e.run history)

/-- **The machine follows every engine that comes about.** -/
theorem Reachable.followed {e : Engine} (he : e.Reachable) (history : List (Operation × Nat)) : e.Followed history :=
  Machine.run_eq he

end Engine

end ValueMesh
