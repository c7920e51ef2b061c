import ValueMesh.Timetable
/-!
# Which values wait for a window

A value waits for a window from the moment it is first armed, and from then on it always has a due time: sending it,
asking for it and choosing what to send only move that time.  What is chosen to be sent is a value that waits.
-/
namespace ValueMesh
namespace Timetable

variable [Jitter]

/-- When the value of `h` is due, if it waits for a window at all. -/
def due? (t : Timetable) (h : Handle) : Option Nat := (t.slots.get? h).bind (·.timer.due?)

theorem due?_eq_bind (t : Timetable) (h : Handle) : t.due? h = (t.timer? h).bind (·.due?) := by
  rw [due?, timer?]
  cases t.slots.get? h <;> rfl

theorem timer?_put (t : Timetable) (h k : Handle) (s : Slot) :
    (t.put h s).timer? k = if k = h then (t.slots.get? h).map fun _ => s.timer else t.timer? k := by
  unfold timer? put
  rw [HandleTable.get?_set]
  split
  · cases t.slots.get? h <;> rfl
  · rfl

theorem timer?_put_of_same {t : Timetable} {h : Handle} {s s₀ : Slot} (hs : t.slots.get? h = some s₀)
    (same : s.timer = s₀.timer) (k : Handle) : (t.put h s).timer? k = t.timer? k := by
  rw [timer?_put]
  split
  · rename_i hk
    rw [hk, timer?, hs, same]
    rfl
  · rfl

theorem due?_put (t : Timetable) (h k : Handle) (s : Slot) :
    (t.put h s).due? k = if k = h then (t.slots.get? h).bind fun _ => s.timer.due? else t.due? k := by
  rw [due?_eq_bind, timer?_put, due?_eq_bind]
  split
  · cases t.slots.get? h <;> rfl
  · rfl

/-- A slot put in the place of another starts no wait and ends none if both wait or neither does. -/
theorem isSome_due?_put {t : Timetable} {h : Handle} {s s₀ : Slot} (hs : t.slots.get? h = some s₀)
    (hd : s.timer.due?.isSome = s₀.timer.due?.isSome) (k : Handle) :
    ((t.put h s).due? k).isSome = (t.due? k).isSome := by
  rw [due?_put]
  split
  · rename_i hk
    rw [hk, due?, hs]
    exact hd
  · rfl

theorem due?_configure (cfg : Settings) (seed : UInt64) (h : Handle) : (configure cfg seed).due? h = none := by
  unfold due? configure
  rw [HandleTable.get?_fill]
  split <;> rfl

/-! ## Arming -/

theorem size_arm (t : Timetable) (h : Handle) (now : Nat) : (t.arm h now).slots.size = t.slots.size := by
  unfold arm
  split
  · rfl
  · exact HandleTable.size_set ..

theorem isSome_due?_arm {t : Timetable} {h : Handle} (now : Nat) (hw : h.within t.slots.size = true) :
    ((t.arm h now).due? h).isSome = true := by
  obtain ⟨s, hs⟩ := Option.isSome_iff_exists.1 ((HandleTable.isSome_get? t.slots h).trans hw)
  have hd : (t.arm h now).due? h = (t.put h ⟨.armed (now + (t.jitter (t.interval * 500)).1) t.interval,
      s.requested⟩).due? h := by
    unfold arm; rw [hs]; rfl
  rw [hd, due?_put, if_pos rfl, hs]
  rfl

theorem timer?_arm (t : Timetable) (h : Handle) (now : Nat) : (t.arm h now).timer? h =
    (t.timer? h).map fun _ => .armed (now + (t.jitter (t.interval * 500)).1) t.interval := by
  unfold arm
  split
  · rename_i hs
    rw [timer?, hs]
    rfl
  · rename_i s hs
    refine (timer?_put t h h _).trans ?_
    rw [if_pos rfl, timer?, hs]
    rfl

theorem timer?_arm_of_ne {t : Timetable} {h k : Handle} (now : Nat) (hk : k ≠ h) :
    (t.arm h now).timer? k = t.timer? k := by
  unfold arm
  split
  · rfl
  · exact (timer?_put t h k _).trans (if_neg hk)

theorem due?_arm_of_ne {t : Timetable} {h k : Handle} (now : Nat) (hk : k ≠ h) :
    (t.arm h now).due? k = t.due? k := by
  rw [due?_eq_bind, timer?_arm_of_ne now hk, due?_eq_bind]

/-! ## Asking for a value -/

theorem size_request {t t' : Timetable} {h : Handle} (hr : t.request h = .ok t') : t'.slots.size = t.slots.size := by
  unfold request at hr
  split at hr
  · cases hr
  · cases hr
    exact HandleTable.size_set ..

theorem timer?_request {t t' : Timetable} {k : Handle} (asked : t.request k = .ok t') (h : Handle) :
    t'.timer? h = t.timer? h := by
  unfold request at asked
  split at asked
  · cases asked
  · rename_i s hs
    cases asked
    exact timer?_put_of_same (s := { s with requested := true }) hs rfl h

theorem isSome_due?_request {t t' : Timetable} {h : Handle} (hr : t.request h = .ok t') (k : Handle) :
    (t'.due? k).isSome = (t.due? k).isSome := by
  rw [due?_eq_bind, timer?_request hr, due?_eq_bind]

/-! ## Choosing and sending -/

theorem size_next (t : Timetable) (now : Nat) : (t.next now).2.slots.size = t.slots.size := HandleTable.size_map ..

theorem timer?_promote (t : Timetable) (now : Nat) (h : Handle) :
    (t.promote now).timer? h = (t.timer? h).map (Timer.promote now) := by
  unfold timer? promote
  rw [HandleTable.get?_map]
  cases t.slots.get? h <;> rfl

theorem due?_next (t : Timetable) (now : Nat) (k : Handle) : (t.next now).2.due? k = t.due? k := by
  rw [due?_eq_bind, next, timer?_promote, due?_eq_bind]
  cases t.timer? k with
  | none => rfl
  | some timer => exact timer.due?_promote now

theorem mem_entries_of_ready {t : Timetable} {now : Nat} {p : Nat × Handle} (hp : p ∈ t.ready now) :
    ∃ s, (p.2, s) ∈ t.slots.entries ∧ s.timer.due? = some p.1 := by
  unfold ready at hp
  obtain ⟨⟨h, s⟩, he, hs⟩ := List.mem_filterMap.1 hp
  simp only at hs
  split at hs
  · rename_i due interval ht
    split at hs
    · cases hs
      exact ⟨s, he, by rw [ht]; rfl⟩
    · cases hs
  · cases hs

/-- **A value chosen to be sent waits for a window.** -/
theorem isSome_due?_of_next {t : Timetable} {now : Nat} {h : Handle} (ht : t.slots.size ≤ 0x10000)
    (hn : (t.next now).1 = some (.value h)) : (t.due? h).isSome = true := by
  rw [← due?_next t now]
  unfold next choice at hn
  simp only at hn
  split at hn
  · cases hn
  · obtain ⟨⟨due, k⟩, hp, hk⟩ := Option.map_eq_some_iff.1 hn
    cases hk
    obtain ⟨s, he, hs⟩ := mem_entries_of_ready (mem_of_least? hp)
    have hsize : (t.promote now).slots.size ≤ 0x10000 := (size_next t now).symm ▸ ht
    have hg := (HandleTable.mem_entries_iff hsize).1 he
    show ((t.promote now).due? k).isSome = true
    rw [due?, hg, Option.bind_some, hs]
    rfl

/-- **A request chosen to be sent was asked for.** -/
theorem requested_of_next {t : Timetable} {now : Nat} {h : Handle} (ht : t.slots.size ≤ 0x10000)
    (hn : (t.next now).1 = some (.request h)) : ∃ s, t.slots.get? h = some s ∧ s.requested = true := by
  unfold next choice at hn
  simp only at hn
  split at hn
  · rename_i k hk
    cases hn
    obtain ⟨⟨k, s⟩, hp, rfl⟩ := List.mem_map.1 (mem_of_least? hk)
    obtain ⟨he, hs⟩ := List.mem_filter.1 hp
    have hsize : (t.promote now).slots.size ≤ 0x10000 := (size_next t now).symm ▸ ht
    have hg := (HandleTable.mem_entries_iff hsize).1 he
    rw [promote, HandleTable.get?_map] at hg
    obtain ⟨s₀, hs₀, rfl⟩ := Option.map_eq_some_iff.1 hg
    exact ⟨s₀, hs₀, hs⟩
  · obtain ⟨p, -, hp⟩ := Option.map_eq_some_iff.1 hn
    cases hp

theorem size_complete (t : Timetable) (item : Item) (now lastActivity : Nat) :
    (t.complete item now lastActivity).slots.size = t.slots.size := by
  unfold complete
  split
  · split
    · rfl
    · exact HandleTable.size_set ..
  · split
    · rfl
    · split
      · rfl
      · exact HandleTable.size_set ..

theorem isSome_due?_complete (t : Timetable) (item : Item) (now lastActivity : Nat) (k : Handle) :
    ((t.complete item now lastActivity).due? k).isSome = (t.due? k).isSome := by
  unfold complete
  split
  · split
    · rfl
    · rename_i s hs
      exact isSome_due?_put (s := { s with requested := false }) hs rfl k
  · split
    · rfl
    · rename_i s hs
      split
      · rfl
      · rename_i previous hi
        refine isSome_due?_put hs ?_ k
        cases ht : s.timer with
        | idle => rw [ht] at hi; cases hi
        | armed due interval => rfl
        | sent sentAt due interval => rfl

/-! ## Requests that wait -/

theorem requested_eq_true_iff {t : Timetable} {h : Handle} :
    t.requested h = true ↔ ∃ s, t.slots.get? h = some s ∧ s.requested = true := by
  unfold requested
  cases t.slots.get? h <;> simp

theorem requested_put (t : Timetable) (h k : Handle) (s : Slot) : (t.put h s).requested k =
    if k = h then ((t.slots.get? h).map fun _ => s.requested).getD false else t.requested k := by
  unfold requested put
  rw [HandleTable.get?_set]
  split
  · cases t.slots.get? h <;> rfl
  · rfl

theorem requested_put_of_same {t : Timetable} {h : Handle} {s s₀ : Slot} (hs : t.slots.get? h = some s₀)
    (same : s.requested = s₀.requested) (k : Handle) : (t.put h s).requested k = t.requested k := by
  rw [requested_put]
  split
  · rename_i hk
    rw [hk, requested, hs, same]
    rfl
  · rfl

theorem requested_configure (cfg : Settings) (seed : UInt64) (h : Handle) :
    (configure cfg seed).requested h = false := by
  unfold requested configure
  rw [HandleTable.get?_fill]
  split <;> rfl

theorem requested_arm (t : Timetable) (h : Handle) (now : Nat) (k : Handle) :
    (t.arm h now).requested k = t.requested k := by
  unfold arm
  split
  · rfl
  · rename_i s hs
    exact requested_put_of_same (s := ⟨.armed (now + (t.jitter (t.interval * 500)).1) t.interval, s.requested⟩) hs rfl k

theorem requested_request {t t' : Timetable} {k : Handle} (asked : t.request k = .ok t') (h : Handle) :
    t'.requested h = if h = k then true else t.requested h := by
  unfold request at asked
  split at asked
  · cases asked
  · rename_i s hs
    cases asked
    rw [requested_put, hs]
    rfl

theorem requested_promote (t : Timetable) (now : Nat) (h : Handle) :
    (t.promote now).requested h = t.requested h := by
  unfold requested promote
  rw [HandleTable.get?_map]
  cases t.slots.get? h <;> rfl

/-- **A request waits until it is sent**, whatever else is sent before it. -/
theorem requested_complete (t : Timetable) (item : Item) (now lastActivity : Nat) (h : Handle) :
    (t.complete item now lastActivity).requested h = if item = .request h then false else t.requested h := by
  cases item with
  | request k =>
    have hiff : Item.request k = .request h ↔ h = k := by rw [Item.request.injEq, eq_comm]
    simp only [hiff, complete]
    split
    · rename_i hs
      split
      · rename_i hk
        rw [hk, requested, hs]
        rfl
      · rfl
    · rename_i s hs
      refine (requested_put t k h { s with requested := false }).trans ?_
      rw [hs]
      rfl
  | value k =>
    rw [if_neg (by nofun), complete]
    split
    · rfl
    · rename_i s hs
      split
      · rfl
      · rename_i previous hp
        exact requested_put_of_same (s := ⟨.sent now _ (t.backoff previous now lastActivity), s.requested⟩) hs rfl h

/-! ## The same values wait -/

structure SameWaits (t t' : Timetable) : Prop where
  size : t'.slots.size = t.slots.size
  waits : ∀ k, (t'.due? k).isSome = (t.due? k).isSome

theorem SameWaits.refl (t : Timetable) : SameWaits t t := ⟨rfl, fun _ => rfl⟩

theorem sameWaits_next (t : Timetable) (now : Nat) : SameWaits t (t.next now).2 :=
  ⟨size_next t now, fun k => congrArg Option.isSome (due?_next t now k)⟩

theorem sameWaits_request {t t' : Timetable} {h : Handle} (hr : t.request h = .ok t') : SameWaits t t' :=
  ⟨size_request hr, isSome_due?_request hr⟩

theorem SameWaits.complete {t t' : Timetable} (h : SameWaits t t') (item : Item) (now lastActivity : Nat) :
    SameWaits t (t'.complete item now lastActivity) :=
  ⟨(size_complete ..).trans h.size, fun k => (isSome_due?_complete ..).trans (h.waits k)⟩

theorem sameWaits_arm {t : Timetable} {h : Handle} (now : Nat) (hd : (t.due? h).isSome = true) :
    SameWaits t (t.arm h now) := by
  refine ⟨size_arm t h now, fun k => ?_⟩
  by_cases hk : k = h
  · subst hk
    obtain ⟨due, hdue⟩ := Option.isSome_iff_exists.1 hd
    obtain ⟨s, hs, -⟩ := Option.bind_eq_some_iff.1 hdue
    rw [hd, isSome_due?_arm now (HandleTable.within_of_get? hs)]
  · rw [due?_arm_of_ne now hk]

end Timetable
end ValueMesh
