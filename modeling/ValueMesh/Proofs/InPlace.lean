import ValueMesh.Machine.Store
import ValueMesh.Machine.Timetable
import ValueMesh.Proofs.Planning
import ValueMesh.Proofs.Room
/-!
# Calls that change their state in place

What each call on the machine comes to, for a store, an inbox and a timetable that fit it: it does what the call of the
same name returns, and where that is refused it left nothing changed.  Only a due time can leave its word
(`arm_of_held`), and does not before `latest`.
-/
namespace ValueMesh

theorem least?_map {α β : Type} (before : β → β → Bool) (f : α → β) : ∀ l : List α,
    least? before (l.map f) = (least? (fun a b => before (f a) (f b)) l).map f
  | [] => rfl
  | a :: as => by
    rw [List.map_cons, least?, least?, least?_map before f as]
    cases least? (fun a b => before (f a) (f b)) as with
    | none => rfl
    | some b =>
      simp only [Option.map_some]
      split <;> rfl

namespace Replica

theorem allocated_of_judge {r : Replica} {c : Copy} (hj : r.judge c ≠ .acceptNew) : r.allocated = true :=
  eq_true_of_ne_false fun blank => hj (judge_eq_acceptNew_iff.2 blank)

theorem newer_of_acceptUpdate {r : Replica} {c : Copy} (hj : r.judge c = .acceptUpdate) :
    Version.newer c.version r.version = true := by
  have allocated := allocated_of_judge (show r.judge c ≠ .acceptNew by rw [hj]; nofun)
  have accepted := accepts_judge r c
  rw [hj, allocated, Bool.not_true, Bool.false_or] at accepted
  exact accepted.symm

end Replica

namespace Machine

open Call (state_bind change_bind bind_of_ok check_bind check_bind_of_stop ask_bind ask_bind_of_refused)

theorem copyIn_of_le {data : List UInt8} (short : data.length ≤ maxValueBytes) : copyIn data = .ok data :=
  if_neg (Nat.not_lt.2 short)

theorem copyIn_of_lt {data : List UInt8} (long : maxValueBytes < data.length) : copyIn data = .error .invalidLength :=
  if_pos long

/-! ## Replicas -/

section Replicas

variable {s : Store} {h : Handle} {r : Replica} {data : List UInt8} {c : Copy}

theorem replica_eq (small : s.handleCount ≤ Settings.maxHandles) (h : Handle) : replica h s = .ok (s.replica h, s) := by
  cases hr : s.replicas.get? h with
  | none =>
    have hc : s.covers h = false := HandleTable.get?_eq_none_iff.1 hr
    rw [replica, state_bind, hc, Store.replica_eq_error_iff.2 ⟨hc, rfl⟩]
    rfl
  | some r =>
    have hc : s.covers h = true := HandleTable.within_of_get? hr
    rw [replica, state_bind, hc, Store.replica_eq_ok_iff.2 hr, if_pos rfl, Call.check, slot_eq hr small]
    rfl

theorem putReplica_eq (held : s.replicas.get? h = some r) (small : s.handleCount ≤ Settings.maxHandles) (r' : Replica) :
    putReplica h r' s = .ok (.ok (), s.put h r') := by
  rw [putReplica, state_bind, check_bind (setSlot_eq held small r')]
  rfl

theorem writeReplica_of_beyond (beyond : s.covers h = false) (data : List UInt8) (origin : Address) (now : Nat) :
    writeReplica h data origin now s = .ok (.error .invalidAddr, s) := by
  rw [writeReplica, state_bind, beyond]
  rfl

theorem writeReplica_of_long (covered : s.covers h = true) (long : maxValueBytes < data.length) (origin : Address)
    (now : Nat) : writeReplica h data origin now s = .ok (.error .invalidLength, s) := by
  rw [writeReplica, state_bind, covered, if_pos rfl, ask_bind_of_refused (copyIn_of_lt long)]

theorem writeReplica_of_held (held : s.replicas.get? h = some r) (small : s.handleCount ≤ Settings.maxHandles)
    (short : data.length ≤ maxValueBytes) (origin : Address) (now : Nat) :
    writeReplica h data origin now s = .ok (.ok (r.version + 1), s.put h (r.write data origin now)) := by
  have covered : s.covers h = true := HandleTable.within_of_get? held
  rw [writeReplica, state_bind, covered, if_pos rfl, ask_bind (copyIn_of_le short), check_bind (slot_eq held small),
    bind_of_ok (putReplica_eq held small _)]
  rfl

theorem keepMark_eq {ms : List Mark} (few : ms.length ≤ maxMarks) (m : Mark) :
    keepMark ms m = .ok (Replica.remembered ms m) := by
  have hmax : maxMarks = 3 := rfl
  unfold keepMark Replica.remembered
  by_cases full : ms.length = maxMarks
  · rw [if_pos full, if_neg (by omega)]
    match ms, full with
    | m₀ :: rest, full =>
      exact append_eq (by rw [List.length_cons] at full; rw [List.length_singleton]; omega)
  · rw [if_neg full, if_pos (by omega)]
    exact append_eq (by rw [List.length_singleton]; omega)

theorem remember_of_new {m : Mark} (held : s.replicas.get? h = some r) (small : s.handleCount ≤ Settings.maxHandles)
    (few : r.marks.length ≤ maxMarks) (new : r.knows m = false) (now : Nat) :
    remember h m now s = .ok (.ok true, s.put h (r.remember m now)) := by
  have covered : s.covers h = true := HandleTable.within_of_get? held
  rw [remember, state_bind, covered, if_pos rfl, check_bind (slot_eq held small), new, if_neg Bool.false_ne_true,
    check_bind (keepMark_eq few m), bind_of_ok (putReplica_eq held small _), Replica.remember, new]
  rfl

theorem adopt_of_blank (held : s.replicas.get? c.handle = some r) (small : s.handleCount ≤ Settings.maxHandles)
    (short : c.data.length ≤ maxValueBytes) (blank : r.allocated = false) (now : Nat) :
    adopt c now s = .ok (.ok .newlyAllocated, s.put c.handle (Replica.ofCopy c now)) := by
  have covered : s.covers c.handle = true := HandleTable.within_of_get? held
  rw [adopt, state_bind, covered, if_pos rfl, ask_bind (copyIn_of_le short), check_bind (slot_eq held small), blank,
    Bool.not_false, if_pos rfl, bind_of_ok (putReplica_eq held small _)]
  rfl

theorem adopt_of_other (held : s.replicas.get? c.handle = some r) (small : s.handleCount ≤ Settings.maxHandles)
    (short : c.data.length ≤ maxValueBytes) (allocated : r.allocated = true) (other : r.version ≠ c.version)
    (now : Nat) : adopt c now s = .ok (.ok .updated, s.put c.handle (Replica.ofCopy c now)) := by
  have covered : s.covers c.handle = true := HandleTable.within_of_get? held
  rw [adopt, state_bind, covered, if_pos rfl, ask_bind (copyIn_of_le short), check_bind (slot_eq held small), allocated,
    Bool.not_true, if_neg Bool.false_ne_true, if_neg fun same => other same.1, bind_of_ok (putReplica_eq held small _)]
  rfl

theorem hear_eq (held : s.replicas.get? c.handle = some r) (small : s.handleCount ≤ Settings.maxHandles)
    (short : c.data.length ≤ maxValueBytes) (few : r.marks.length ≤ maxMarks) (now : Nat) :
    hear c now s = .ok (.ok (r.judge c, Store.announcement c (r.judge c)), (s.hear c now).2) := by
  have found : replica c.handle s = .ok (.ok r, s) := by
    rw [replica_eq small, Store.replica_eq_ok_iff.2 held]
  rw [hear, bind_of_ok found, Store.hear_of_get? now held short]
  cases hj : r.judge c with
  | acceptNew =>
    have adopted := adopt_of_blank held small short (Replica.judge_eq_acceptNew_iff.1 hj) now
    simp only [bind_of_ok adopted, ask_bind (copyIn_of_le short), Store.follow, if_neg (Nat.not_lt.2 short)]
    rfl
  | acceptUpdate =>
    have allocated := Replica.allocated_of_judge (show r.judge c ≠ .acceptNew by rw [hj]; decide)
    have other := (Version.ne_of_newer (Replica.newer_of_acceptUpdate hj)).symm
    have adopted := adopt_of_other held small short allocated other now
    simp only [bind_of_ok adopted, ask_bind (copyIn_of_le short), Store.follow, if_neg (Nat.not_lt.2 short)]
    rfl
  | conflict =>
    have new := (Replica.judge_eq_conflict_iff.1 hj).2.2.2
    have remembered := remember_of_new (s := { s with conflicts := Tally.bump s.conflicts }) held small few new now
    simp only [change_bind, bind_of_ok remembered, ask_bind (copyIn_of_le short)]
    rfl
  | knownConflict => rfl
  | stale => rfl
  | duplicate => rfl

end Replicas

/-! ## Notices -/

theorem push_eq {q : Inbox} (fits : q.pending.length ≤ Inbox.capacity) (n : Notice) :
    push n q = .ok (.ok (q.push n).1, (q.push n).2) := by
  have hcapacity : Inbox.capacity = 16 := rfl
  have hone : [n].length = 1 := rfl
  rw [push, state_bind]
  by_cases full : q.pending.length = Inbox.capacity
  · have room : (q.pending.drop 1).length + [n].length ≤ Inbox.capacity := by
      rw [List.length_drop]
      omega
    rw [if_pos full, Inbox.push_of_full n (Nat.le_of_eq full.symm), check_bind (append_eq room)]
    rfl
  · rw [if_neg full, Inbox.push_of_room n (by omega), check_bind (append_eq (by omega))]
    rfl

/-! ## The timetable -/

section Timetables

variable [Jitter] {t : Timetable} {h : Handle} {s : Slot} {now lastActivity : Nat}

theorem putSlot_eq (held : t.slots.get? h = some s) (small : t.slots.size ≤ Settings.maxHandles) (s' : Slot) :
    putSlot h s' t = .ok (.ok (), t.put h s') := by
  rw [putSlot, state_bind, check_bind (setSlot_eq held small s')]
  rfl

theorem jitter_eq (t : Timetable) (m : Nat) :
    jitter m t = .ok (.ok (t.jitter m).1, { t with generator := (t.jitter m).2 }) := rfl

/-- The latest time at which no sum of times leaves its word. -/
def latest : Nat := byteRoom 8 - 1 - 75000000

theorem arm_of_held (held : t.slots.get? h = some s) (small : t.slots.size ≤ Settings.maxHandles)
    (short : t.interval ≤ Settings.maxInterval) (now : Nat) : arm h now t =
      if now + (t.jitter (t.interval * 500)).1 < byteRoom 8 then .ok (.ok (), t.arm h now) else .error .overflow := by
  have within : h.within t.slots.size = true := HandleTable.within_of_get? held
  have hword : byteRoom 8 = 18446744073709551616 := rfl
  have hmax : Settings.maxInterval = 60000 := rfl
  have half : t.interval * 1000 / 2 = t.interval * 500 := by omega
  rw [arm, state_bind, within, if_pos rfl, check_bind (mul_eq (by omega)), half, bind_of_ok (jitter_eq ..)]
  by_cases fits : now + (t.jitter (t.interval * 500)).1 < byteRoom 8
  · rw [if_pos fits, check_bind (add_eq fits), check_bind (slot_eq held small), Timetable.arm, held]
    exact putSlot_eq (t := { t with generator := (t.jitter (t.interval * 500)).2 }) held small _
  · rw [if_neg fits]
    exact check_bind_of_stop (if_neg fits) ..

theorem arm_of_beyond (beyond : h.within t.slots.size = false) (now : Nat) :
    arm h now t = .ok (.ok (), t.arm h now) := by
  rw [arm, state_bind, beyond, Timetable.arm, HandleTable.get?_eq_none_iff.2 beyond]
  rfl

/-- Before `latest` no due time leaves its word. -/
theorem due_lt_of_early (short : t.interval ≤ Settings.maxInterval) (early : now ≤ latest) :
    now + (t.jitter (t.interval * 500)).1 < byteRoom 8 := by
  have wait := t.jitter_le (t.interval * 500)
  have hword : byteRoom 8 = 18446744073709551616 := rfl
  have hmax : Settings.maxInterval = 60000 := rfl
  have hlatest : latest = 18446744073634551615 := rfl
  omega

theorem requestValue_of_beyond (beyond : h.within t.slots.size = false) :
    requestValue h t = .ok (.error .invalidAddr, t) := by
  rw [requestValue, state_bind, beyond]
  rfl

theorem requestValue_of_held (held : t.slots.get? h = some s) (small : t.slots.size ≤ Settings.maxHandles) :
    requestValue h t = .ok (.ok (), t.put h { s with requested := true }) := by
  have within : h.within t.slots.size = true := HandleTable.within_of_get? held
  rw [requestValue, state_bind, within, if_pos rfl, check_bind (slot_eq held small)]
  exact putSlot_eq held small _

theorem entries_eq (small : t.slots.size ≤ Settings.maxHandles) : entries t = .ok t.slots.entries := by
  have hsize : t.slots.size ≤ 0x10000 := Nat.le_trans small (by decide)
  have found : ∀ p ∈ t.slots.entries, (do let s ← slot t.slots p.1; return (p.1, s)) = Except.ok p := by
    rintro ⟨h, s⟩ hp
    rw [slot_eq ((HandleTable.mem_entries_iff hsize).1 hp) small]
    rfl
  rw [entries, ← HandleTable.map_fst_entries, List.mapM_map]
  exact (mapM_eq found).trans (congrArg Except.ok (List.map_id _))

theorem distance_eq (small : t.slots.size ≤ Settings.maxHandles) (turn : t.TurnValid)
    (within : h.within t.slots.size = true) : distance t h = .ok (t.distance h) := by
  have hlt := (Handle.within_iff.1 within).2
  have hlast := Timetable.lastServed_le turn
  have hword : byteRoom 2 = 65536 := rfl
  have hmax : Settings.maxHandles = 155 := rfl
  unfold distance Timetable.distance
  split
  · exact sub_eq (by omega)
  · rw [add_eq (by omega), ok_bind]
    exact sub_eq (by omega)

theorem nearest_eq (small : t.slots.size ≤ Settings.maxHandles) (turn : t.TurnValid) (hs : List Handle)
    (within : ∀ h ∈ hs, h.within t.slots.size = true) :
    nearest t hs = .ok (least? (fun a b => decide (t.distance a < t.distance b)) hs) := by
  have far : ∀ h ∈ hs, (do let d ← distance t h; return (d, h)) = Except.ok (t.distance h, h) := fun h hh => by
    rw [distance_eq small turn (within h hh)]
    rfl
  rw [nearest, mapM_eq far, ok_bind, least?_map, Option.map_map]
  exact congrArg Except.ok (congrFun Option.map_id _)

theorem soonest_eq (small : t.slots.size ≤ Settings.maxHandles) (turn : t.TurnValid) (ready : List (Nat × Handle))
    (within : ∀ p ∈ ready, p.2.within t.slots.size = true) :
    soonest t ready = .ok ((least? t.sooner ready).map (·.2)) := by
  have far : ∀ p ∈ ready, (do let d ← distance t p.2; return (d, p)) = Except.ok (t.distance p.2, p) := fun p hp => by
    rw [distance_eq small turn (within p hp)]
    rfl
  rw [soonest, mapM_eq far, ok_bind, least?_map, Option.map_map]
  rfl

theorem next_eq (small : t.slots.size ≤ Settings.maxHandles) (turn : t.TurnValid) (now : Nat) :
    next now t = .ok (.ok (t.next now).1, (t.next now).2) := by
  have small' : (t.promote now).slots.size ≤ Settings.maxHandles := (Timetable.size_next t now).symm ▸ small
  have hsize : (t.promote now).slots.size ≤ 0x10000 := Nat.le_trans small' (by decide)
  have turn' : (t.promote now).TurnValid := Timetable.turnValid_next now turn
  have hasked := nearest_eq small' turn' (asked (t.promote now).slots.entries) fun h hh => by
    obtain ⟨p, hp, rfl⟩ := List.mem_map.1 hh
    exact HandleTable.within_of_get? ((HandleTable.mem_entries_iff hsize).1 (List.mem_filter.1 hp).1)
  have hdue := soonest_eq small' turn' (due (t.promote now).slots.entries now) fun p hp => by
    obtain ⟨s, hs, -⟩ := Timetable.mem_entries_of_ready hp
    exact HandleTable.within_of_get? ((HandleTable.mem_entries_iff hsize).1 hs)
  rw [next, change_bind, state_bind, check_bind (entries_eq small'), check_bind hasked, Timetable.next,
    Timetable.choice]
  have pending : (t.promote now).pending = asked (t.promote now).slots.entries := rfl
  rw [pending]
  cases least? _ (asked (t.promote now).slots.entries) with
  | some h => rfl
  | none =>
    refine (check_bind hdue ..).trans ?_
    rw [Option.map_map]
    rfl

theorem longest_eq (t : Timetable) : longest t = t.maxInterval := by
  have hword : byteRoom 4 = 4294967296 := rfl
  have hmax : Settings.maxInterval = 60000 := rfl
  unfold longest satMul Timetable.maxInterval
  omega

theorem backoff_eq (t : Timetable) (previous now lastActivity : Nat) :
    (if Timetable.stableIntervals * t.interval * 1000 ≤ now - lastActivity then min (satMul 4 previous 2) (longest t)
      else t.interval) = t.backoff previous now lastActivity := by
  have hword : byteRoom 4 = 4294967296 := rfl
  have hmax : Settings.maxInterval = 60000 := rfl
  have cap : t.maxInterval ≤ Settings.maxInterval := Nat.min_le_right ..
  have double : min (satMul 4 previous 2) t.maxInterval = min (previous * 2) t.maxInterval := by
    unfold satMul
    omega
  rw [longest_eq, double, Timetable.backoff]

theorem complete_of_beyond {item : Item} (beyond : item.handle.within t.slots.size = false) (now lastActivity : Nat) :
    complete item now lastActivity t = .ok (.ok (), t.complete item now lastActivity) := by
  have none := HandleTable.get?_eq_none_iff.2 beyond
  cases item with
  | request h | value h =>
    rw [Item.handle] at beyond none
    rw [complete, state_bind, Timetable.complete, none]
    simp only [beyond]
    rfl

theorem complete_request_eq (held : t.slots.get? h = some s) (small : t.slots.size ≤ Settings.maxHandles)
    (now lastActivity : Nat) :
    complete (.request h) now lastActivity t = .ok (.ok (), t.complete (.request h) now lastActivity) := by
  have within : h.within t.slots.size = true := HandleTable.within_of_get? held
  rw [complete, state_bind, Timetable.complete, held]
  simp only [within, if_true]
  rw [check_bind (slot_eq held small), bind_of_ok (putSlot_eq held small _)]
  rfl

theorem complete_value_eq (held : t.slots.get? h = some s) (small : t.slots.size ≤ Settings.maxHandles)
    (short : t.interval ≤ Settings.maxInterval) (early : now ≤ latest) (lastActivity : Nat) :
    complete (.value h) now lastActivity t = .ok (.ok (), t.complete (.value h) now lastActivity) := by
  have within : h.within t.slots.size = true := HandleTable.within_of_get? held
  have hword : byteRoom 8 = 18446744073709551616 := rfl
  have hmax : Settings.maxInterval = 60000 := rfl
  have hstable : Timetable.stableIntervals * t.interval = 8 * t.interval := rfl
  have hlatest : latest = 18446744073634551615 := rfl
  rw [complete, state_bind, Timetable.complete, held]
  simp only [within, if_true]
  rw [check_bind (slot_eq held small)]
  cases s.timer.interval? with
  | none => rfl
  | some previous =>
    have long := Nat.le_trans (Timetable.backoff_le_maxInterval short previous now lastActivity) (Nat.min_le_right ..)
    have quarter : t.backoff previous now lastActivity * 1000 / 4 = t.backoff previous now lastActivity * 250 := by
      omega
    have delay := t.jitter_le (t.backoff previous now lastActivity * 250)
    simp only
    rw [check_bind (mul_eq (by omega)), check_bind (mul_eq (by omega)), backoff_eq, check_bind (mul_eq (by omega)),
      quarter, bind_of_ok (jitter_eq ..), check_bind (add_eq (by omega)), check_bind (add_eq (by omega))]
    rw [bind_of_ok (putSlot_eq (t := { t with generator := (t.jitter _).2 }) held small _)]
    rfl

theorem complete_eq (small : t.slots.size ≤ Settings.maxHandles) (short : t.interval ≤ Settings.maxInterval)
    (early : now ≤ latest) (item : Item) (lastActivity : Nat) :
    complete item now lastActivity t = .ok (.ok (), t.complete item now lastActivity) := by
  cases held : t.slots.get? item.handle with
  | none => exact complete_of_beyond (HandleTable.get?_eq_none_iff.1 held) now lastActivity
  | some s =>
    cases item with
    | request h => exact complete_request_eq held small now lastActivity
    | value h => exact complete_value_eq held small short early lastActivity

end Timetables

end Machine
end ValueMesh
