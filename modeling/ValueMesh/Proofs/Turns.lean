import ValueMesh.Proofs.Windows
/-!
# How long an item waits for its window

Windows are used for requests as long as any wait, in turn, and then for the values in the order of their due times.
With each request that is sent the turn comes nearer to any other one that waits (`ahead_lt_of_served`), and a value
that is sent or armed is not due again before one that was due already (`Overdue.serve`).  So both a request and a
value that is due are sent in one of as many windows as there are usable handles, whatever else is asked for or armed in
between (`waiting_request_is_served`, `due_value_is_served`).
-/
namespace ValueMesh

namespace Timetable

section

variable [Jitter] {t t' : Timetable} {cfg : Settings} {h k : Handle} {item : Item} {ops : List Operation}
  {now due lastActivity n : Nat}

/-! ## What is chosen -/

theorem distance_promote (t : Timetable) (now : Nat) (h : Handle) : (t.promote now).distance h = t.distance h := by
  unfold distance
  rw [show (t.promote now).slots.size = t.slots.size from size_next t now]
  rfl

/-- **A request that waits keeps the window from all but a request that is not farther in the turn.** -/
theorem next_of_requested (small : t.slots.size ≤ 0x10000) (now : Nat) (asked : t.requested h = true) :
    ∃ k, (t.next now).1 = some (.request k) ∧ t.requested k = true ∧ t.distance k ≤ t.distance h := by
  have small' : (t.promote now).slots.size ≤ 0x10000 := (size_next t now).symm ▸ small
  have hmem : h ∈ (t.promote now).pending := (mem_pending_iff small').2 ((requested_promote t now h).trans asked)
  unfold next choice
  split
  · rename_i k hk
    refine ⟨k, rfl, ?_, ?_⟩
    · rw [← requested_promote t now k]
      exact (mem_pending_iff small').1 (mem_of_least? hk)
    · have hfirst : decide ((t.promote now).distance h < (t.promote now).distance k) = false :=
        not_before_least? (by simp) (by simp; omega) (by simp; omega) hk h hmem
      simpa [distance_promote] using hfirst
  · rename_i hnone
    rw [least?_eq_none_iff.1 hnone] at hmem
    cases hmem

/-- **A value that is due keeps the window from all but a value that is due as long**, if no request waits. -/
theorem next_of_due (small : t.slots.size ≤ 0x10000) (unasked : ∀ k, t.requested k = false)
    (waits : t.due? h = some due) (past : due ≤ now) :
    ∃ k d, (t.next now).1 = some (.value k) ∧ t.due? k = some d ∧
      (d < due ∨ d = due ∧ t.distance k ≤ t.distance h) := by
  have hmem : (due, h) ∈ (t.promote now).ready now := (mem_ready_promote_iff small).2 ⟨waits, past⟩
  have small' : (t.promote now).slots.size ≤ 0x10000 := (size_next t now).symm ▸ small
  have hnil : (t.promote now).pending = [] :=
    (pending_eq_nil_iff small').2 fun k => (requested_promote t now k).trans (unasked k)
  unfold next choice
  rw [hnil]
  cases hl : least? (t.promote now).sooner ((t.promote now).ready now) with
  | none =>
    rw [least?_eq_none_iff.1 hl] at hmem
    cases hmem
  | some p =>
    obtain ⟨d, k⟩ := p
    refine ⟨k, d, rfl, ((mem_ready_promote_iff small).1 (mem_of_least? hl)).1, ?_⟩
    have hfirst := not_before_least? (by simp [sooner]) (by simp [sooner]; omega) (by simp [sooner]; omega) hl _ hmem
    simp only [sooner, distance_promote, decide_eq_false_iff_not] at hfirst
    omega

/-! ## What an operation leaves of a due time -/

theorem now_le_of_due?_arm (hd : (t.arm k now).due? k = some due) : now ≤ due := by
  unfold arm at hd
  split at hd
  · rename_i hs
    rw [due?, hs] at hd
    cases hd
  · rename_i s hs
    have hput : (t.put k ⟨.armed (now + (t.jitter (t.interval * 500)).1) t.interval, s.requested⟩).due? k =
      some due := hd
    rw [due?_put, if_pos rfl, hs] at hput
    cases hput
    exact Nat.le_add_right ..

theorem now_le_of_due?_complete (hd : (t.complete (.value k) now lastActivity).due? k = some due) : now ≤ due := by
  cases hs : t.slots.get? k with
  | none =>
    simp only [complete, hs] at hd
    rw [due?, hs] at hd
    cases hd
  | some s =>
    cases hp : s.timer.interval? with
    | none =>
      simp only [complete, hs, hp] at hd
      have hwait : s.timer.due? = none := by
        rw [← Option.isNone_iff_eq_none, ← Option.not_isSome, ← Timer.isSome_interval?, hp]
        rfl
      rw [due?, hs, Option.bind_some, hwait] at hd
      cases hd
    | some previous =>
      simp only [complete, hs, hp] at hd
      have hput : (t.put k ⟨.sent now (now + t.backoff previous now lastActivity * 1000 +
          (t.jitter (t.backoff previous now lastActivity * 250)).1) (t.backoff previous now lastActivity),
          s.requested⟩).due? k = some due := hd
      rw [due?_put, if_pos rfl, hs] at hput
      cases hput
      rw [Nat.add_assoc]
      exact Nat.le_add_right ..

theorem due?_complete_of_ne (item : Item) (now lastActivity : Nat) (hk : k ≠ item.handle) :
    (t.complete item now lastActivity).due? k = t.due? k := by
  rw [due?, get?_complete_of_ne now lastActivity hk, due?]

/-! ## Counting down -/

/-- `W n` says of a timetable that at most `n` windows are used for something else, each as `Q` says, before one is
used for `item`: a window is used for `item` or brings `n` down, and all else that is allowed leaves it. -/
structure Countdown (item : Item) (Allowed : Operation → Prop) (Q : Option Item → Prop) (W : Nat → Timetable → Prop) :
    Prop where
  pass : ∀ {n : Nat} {t : Timetable} {op : Operation}, W n t → Allowed op → t.window? op = none → W n (t.perform op)
  serve : ∀ {n : Nat} {t : Timetable} {now lastActivity : Nat}, W n t → Allowed (.serve now lastActivity) →
    (t.serve now lastActivity).1 = some item ∨
      Q (t.serve now lastActivity).1 ∧ ∃ m < n, W m (t.serve now lastActivity).2

theorem served_serve (t : Timetable) (now lastActivity : Nat) (rest : List Operation) :
    t.served (.serve now lastActivity :: rest) =
      (t.serve now lastActivity).1 :: (t.serve now lastActivity).2.served rest := rfl

/-- **A countdown comes to its end.** -/
theorem Countdown.served {Allowed : Operation → Prop} {Q : Option Item → Prop} {W : Nat → Timetable → Prop}
    (hc : Countdown item Allowed Q W) : ∀ {ops : List Operation} {n : Nat} {t : Timetable}, W n t →
      (∀ op ∈ ops, Allowed op) → (n < (t.served ops).length → some item ∈ (t.served ops).take (n + 1)) ∧
        ∀ x ∈ (t.served ops).takeWhile (· != some item), Q x
  | [], _, _, _, _ => ⟨fun h => absurd h (Nat.not_lt_zero _), nofun⟩
  | op :: rest, n, t, hw, allowed => by
    have hop := allowed op List.mem_cons_self
    have hrest : ∀ op ∈ rest, Allowed op := fun op h => allowed op (List.mem_cons_of_mem _ h)
    cases hwin : t.window? op with
    | none =>
      rw [Timetable.served, hwin]
      exact hc.served (hc.pass hw hop hwin) hrest
    | some x =>
      cases op with
      | serve now lastActivity =>
        rw [served_serve]
        rcases hc.serve hw hop with hitem | ⟨hq, m, hm, hw'⟩
        · rw [hitem, List.takeWhile_cons, if_neg (by simp)]
          exact ⟨fun _ => List.mem_cons_self, nofun⟩
        · obtain ⟨hserved, huntil⟩ := hc.served hw' hrest
          refine ⟨fun hlen => ?_, fun x hx => ?_⟩
          · have hmem := hserved (Nat.lt_of_lt_of_le hm (Nat.le_of_lt_succ hlen))
            exact List.mem_cons_of_mem _ (List.take_subset_take_left _ hm hmem)
          · rw [List.takeWhile_cons] at hx
            split at hx
            · rcases List.mem_cons.1 hx with rfl | hx
              · exact hq
              · exact huntil x hx
            · cases hx
      | arm | request | next | complete => cases hwin

/-! ## Values -/

def After (due : Nat) (h : Handle) : Operation → Prop
  | .serve now _ => due < now
  | .arm k now => k ≠ h ∧ due < now
  | .request _ | .next _ | .complete .. => False

instance (due : Nat) (h : Handle) : DecidablePred (After due h)
  | .serve now _ => inferInstanceAs (Decidable (due < now))
  | .arm k now => inferInstanceAs (Decidable (k ≠ h ∧ due < now))
  | .request _ | .next _ | .complete .. => inferInstanceAs (Decidable False)

/-- No request waits, the value of `h` has been due since `due`, and no values but those of `rivals` have been due as
long. -/
structure Overdue (t : Timetable) (h : Handle) (due : Nat) (rivals : List Handle) : Prop where
  small : t.slots.size ≤ 0x10000
  unasked : ∀ k, t.requested k = false
  waits : t.due? h = some due
  ahead : ∀ k, k ≠ h → ∀ d ≤ due, t.due? k = some d → k ∈ rivals

theorem Overdue.arm {rivals : List Handle} (ho : t.Overdue h due rivals) (hk : k ≠ h) (after : due < now) :
    (t.arm k now).Overdue h due rivals where
  small := (size_arm t k now).symm ▸ ho.small
  unasked j := (requested_arm t k now j).trans (ho.unasked j)
  waits := (due?_arm_of_ne now (Ne.symm hk)).trans ho.waits
  ahead j hj d hd hdue := by
    by_cases hjk : j = k
    · subst hjk
      exact absurd (now_le_of_due?_arm hdue) (by omega)
    · rw [due?_arm_of_ne now hjk] at hdue
      exact ho.ahead j hj d hd hdue

/-- **A window goes to the value, or to a rival that then is no rival any more.** -/
theorem Overdue.serve {rivals : List Handle} (ho : t.Overdue h due rivals) (after : due < now) (lastActivity : Nat) :
    ∃ k, (t.serve now lastActivity).1 = some (.value k) ∧
      (k = h ∨ k ∈ rivals ∧ (t.serve now lastActivity).2.Overdue h due (rivals.erase k)) := by
  obtain ⟨k, d, chosen, hdue, hsooner⟩ := next_of_due ho.small ho.unasked ho.waits (Nat.le_of_lt after)
  have hd : d ≤ due := by omega
  rw [serve_of_next lastActivity chosen]
  refine ⟨k, rfl, ?_⟩
  by_cases hk : k = h
  · exact Or.inl hk
  · refine Or.inr ⟨ho.ahead k hk d hd hdue, ?_, fun j => ?_, ?_, fun j hj d' hd' hdue' => ?_⟩
    · rw [size_complete, size_next]
      exact ho.small
    · rw [requested_complete, if_neg (by nofun)]
      exact (requested_promote t now j).trans (ho.unasked j)
    · rw [due?_complete_of_ne (.value k) now lastActivity (Ne.symm hk), due?_next]
      exact ho.waits
    · by_cases hjk : j = k
      · subst hjk
        exact absurd (now_le_of_due?_complete hdue') (by omega)
      · rw [due?_complete_of_ne (.value k) now lastActivity hjk, due?_next] at hdue'
        exact (List.mem_erase_of_ne hjk).2 (ho.ahead j hj d' hd' hdue')

theorem countdown_overdue (h : Handle) (due : Nat) : Countdown (.value h) (After due h)
    (fun x => ∃ k, x = some (.value k))
    (fun n t => ∃ rivals : List Handle, rivals.length = n ∧ t.Overdue h due rivals) where
  pass {n t op} := by
    rintro ⟨rivals, hlen, ho⟩ after hwin
    cases op with
    | arm k now => exact ⟨rivals, hlen, ho.arm after.1 after.2⟩
    | serve => cases hwin
    | request | next | complete => cases after
  serve {n t now lastActivity} := by
    rintro ⟨rivals, rfl, ho⟩ after
    obtain ⟨k, chosen, rfl | ⟨hk, ho'⟩⟩ := ho.serve after lastActivity
    · exact Or.inl chosen
    · refine Or.inr ⟨⟨k, chosen⟩, _, ?_, rivals.erase k, rfl, ho'⟩
      rw [List.length_erase_of_mem hk]
      exact Nat.sub_lt (List.length_pos_of_mem hk) Nat.one_pos

/-- **A value that is due is served in its turn.**  Take a timetable that comes about under settings in range, with no
request waiting and the value of `h` due since `due`.  Then whatever windows are served after that time, and whichever
other values are armed in between: if there are as many windows as usable handles, one of the first so many is used for
the value, and until then each is used for some value.  Up to `Machine.latest` the machine serves the same. -/
theorem due_value_is_served (reached : t.Reachable cfg) (inRange : cfg.InRange) (unasked : ∀ k, t.requested k = false)
    (waits : t.due? h = some due) (after : ∀ op ∈ ops, After due h op) :
    (cfg.handleCount.toNat - 1 ≤ (t.served ops).length →
      some (.value h) ∈ (t.served ops).take (cfg.handleCount.toNat - 1)) ∧
    (∀ x ∈ (t.served ops).takeWhile (· != some (.value h)), ∃ k, x = some (.value k)) ∧ t.Followed ops := by
  have hsize : t.slots.size = cfg.handleCount.toNat := reached.size.trans (Nat.min_eq_left inRange.2.2.1)
  have within : ∀ {k d}, t.due? k = some d → k.within t.slots.size = true := by
    intro k d hd
    obtain ⟨s, hs, -⟩ := Option.bind_eq_some_iff.1 hd
    exact HandleTable.within_of_get? hs
  have hmem : h ∈ t.slots.handles := HandleTable.mem_handles_of_within (within waits)
  have hlen : (t.slots.handles.erase h).length + 1 = cfg.handleCount.toNat - 1 := by
    have hpos := List.length_pos_of_mem hmem
    rw [HandleTable.length_handles, hsize] at hpos
    rw [List.length_erase_of_mem hmem, HandleTable.length_handles, hsize]
    omega
  have overdue : t.Overdue h due (t.slots.handles.erase h) :=
    ⟨reached.size_le, unasked, waits, fun k hk d _ hd =>
      (List.mem_erase_of_ne hk).2 (HandleTable.mem_handles_of_within (within hd))⟩
  rw [← hlen]
  obtain ⟨hserved, huntil⟩ := (countdown_overdue h due).served ⟨_, rfl, overdue⟩ after
  exact ⟨hserved, huntil, (reached.fits inRange.2.2.2.2).followed ops⟩

end

/-- Three values are due, and each of the two that go first is armed again as soon as it was sent: the third window is
for the last one all the same. -/
theorem last_of_three_due_values_is_served :
    let cfg : Settings := ⟨0x8E89BED6, 38, 4, 100⟩
    let t := (configure cfg 7).run [.arm 1 0, .arm 2 10, .arm 3 20]
    let ops : List Operation := [.serve 60000 0, .arm 2 60001, .serve 60002 0, .arm 3 60003, .serve 120000 0]
    t.due? 1 = some 48454 ∧ (∀ op ∈ ops, After 48454 1 op) ∧
    t.served ops = [some (.value 2), some (.value 3), some (.value 1)] ∧
    some (.value 1) ∈ (t.served ops).take 3 := by
  intro cfg t ops
  have reached : t.Reachable cfg := ⟨7, _, rfl⟩
  have unasked : ∀ k, t.requested k = false := (pending_eq_nil_iff reached.size_le).1 (by decide +kernel)
  have waits : t.due? 1 = some 48454 := by decide +kernel
  have after : ∀ op ∈ ops, After 48454 1 op := by decide
  have windows : t.served ops = [some (.value 2), some (.value 3), some (.value 1)] := by decide +kernel
  refine ⟨waits, after, windows, (due_value_is_served reached (by decide) unasked waits after).1 ?_⟩
  rw [windows]
  decide

/-! ## Requests -/

section

variable [Jitter] {t t' : Timetable} {cfg : Settings} {h k : Handle} {ops : List Operation}

/-- How many handles the turn comes to before it is at `h`. -/
def ahead (t : Timetable) (h : Handle) : Nat :=
  if t.lastServed.toNat < h.toNat then h.toNat - t.lastServed.toNat - 1
  else h.toNat + t.slots.size - t.lastServed.toNat - 2

theorem ahead_congr (size : t'.slots.size = t.slots.size) (turn : t'.lastServed = t.lastServed) (h : Handle) :
    t'.ahead h = t.ahead h := by
  rw [ahead, ahead, size, turn]

theorem ahead_lt (hv : t.TurnValid) (hw : h.within t.slots.size = true) : t.ahead h + 1 < t.slots.size := by
  obtain ⟨hpos, hlt⟩ := Handle.within_iff_pos.1 hw
  have hlast := lastServed_le hv
  unfold ahead
  split <;> omega

/-- **With each handle that is served the turn comes nearer to those behind it.** -/
theorem ahead_lt_of_served (hv : t.TurnValid) (hh : h.within t.slots.size = true) (hk : k.within t.slots.size = true)
    (hne : k ≠ h) (near : t.distance k ≤ t.distance h) (size : t'.slots.size = t.slots.size)
    (turn : t'.lastServed = k) : t'.ahead h < t.ahead h := by
  obtain ⟨hpos, hlt⟩ := Handle.within_iff_pos.1 hh
  obtain ⟨kpos, klt⟩ := Handle.within_iff_pos.1 hk
  have hlast := lastServed_le hv
  have hne' : k.toNat ≠ h.toNat := fun he => hne (UInt16.toNat_inj.1 he)
  unfold ahead
  rw [size, turn]
  unfold distance at near
  split at near <;> split at near <;> split <;> omega

theorem lastServed_arm (t : Timetable) (h : Handle) (now : Nat) : (t.arm h now).lastServed = t.lastServed := by
  unfold arm
  split <;> rfl

theorem lastServed_request (asked : t.request k = .ok t') : t'.lastServed = t.lastServed := by
  unfold request at asked
  split at asked
  · cases asked
  · cases asked
    rfl

theorem lastServed_complete_request (now lastActivity : Nat) (hw : h.within t.slots.size = true) :
    (t.complete (.request h) now lastActivity).lastServed = h := by
  obtain ⟨s, hs⟩ := Option.isSome_iff_exists.1 ((HandleTable.isSome_get? t.slots h).trans hw)
  simp only [complete, hs]

theorem within_of_requested (asked : t.requested h = true) : h.within t.slots.size = true := by
  obtain ⟨s, hs, -⟩ := requested_eq_true_iff.1 asked
  exact HandleTable.within_of_get? hs

/-- A request for the value of `h` waits, and the turn comes to `n` handles before it. -/
structure Queued (t : Timetable) (h : Handle) (n : Nat) : Prop where
  small : t.slots.size ≤ 0x10000
  turn : t.TurnValid
  asked : t.requested h = true
  ahead : t.ahead h = n

theorem Queued.arm (hq : t.Queued h n) (k : Handle) (now : Nat) : (t.arm k now).Queued h n where
  small := (size_arm t k now).symm ▸ hq.small
  turn := turnValid_arm k now hq.turn
  asked := (requested_arm t k now h).trans hq.asked
  ahead := (ahead_congr (size_arm t k now) (lastServed_arm t k now) h).trans hq.ahead

theorem Queued.request (hq : t.Queued h n) (asked : t.request k = .ok t') : t'.Queued h n where
  small := (size_request asked).symm ▸ hq.small
  turn := turnValid_request asked hq.turn
  asked := by
    rw [requested_request asked, hq.asked]
    split <;> rfl
  ahead := (ahead_congr (size_request asked) (lastServed_request asked) h).trans hq.ahead

/-- **A window goes to the request, or to one that the turn comes to before it.** -/
theorem Queued.serve (hq : t.Queued h n) (now lastActivity : Nat) :
    ∃ k, (t.serve now lastActivity).1 = some (.request k) ∧
      (k = h ∨ ∃ m < n, (t.serve now lastActivity).2.Queued h m) := by
  obtain ⟨k, chosen, asked, near⟩ := next_of_requested hq.small now hq.asked
  rw [serve_of_next lastActivity chosen]
  refine ⟨k, rfl, ?_⟩
  by_cases hk : k = h
  · exact Or.inl hk
  · have hw := within_of_requested asked
    have hw' : k.within (t.next now).2.slots.size = true := (size_next t now).symm ▸ hw
    have size : ((t.next now).2.complete (.request k) now lastActivity).slots.size = t.slots.size :=
      (size_complete ..).trans (size_next t now)
    have nearer := ahead_lt_of_served hq.turn (within_of_requested hq.asked) hw hk near size
      (lastServed_complete_request now lastActivity hw')
    refine Or.inr ⟨_, hq.ahead ▸ nearer, size.symm ▸ hq.small, ?_, ?_, rfl⟩
    · exact turnValid_complete _ now lastActivity (turnValid_next now hq.turn)
    · have hne : Item.request k ≠ .request h := fun he => hk (Item.request.inj he)
      rw [requested_complete, if_neg hne]
      exact (requested_promote t now h).trans hq.asked

def Ordinary : Operation → Prop
  | .serve .. | .arm .. | .request _ => True
  | .next _ | .complete .. => False

instance : DecidablePred Ordinary
  | .serve .. | .arm .. | .request _ => inferInstanceAs (Decidable True)
  | .next _ | .complete .. => inferInstanceAs (Decidable False)

theorem countdown_queued (h : Handle) :
    Countdown (.request h) Ordinary (fun x => ∃ k, x = some (.request k)) (fun n t => t.Queued h n) where
  pass {n t op} hq ordinary hwin := by
    cases op with
    | arm k now => exact hq.arm k now
    | request k =>
      simp only [perform]
      split
      · exact hq
      · rename_i asked
        exact hq.request asked
    | serve => cases hwin
    | next | complete => cases ordinary
  serve {n t now lastActivity} hq _ := by
    obtain ⟨k, chosen, rfl | nearer⟩ := hq.serve now lastActivity
    · exact Or.inl chosen
    · exact Or.inr ⟨⟨k, chosen⟩, nearer⟩

/-- **A request that waits is served in its turn.**  Take a timetable that comes about under any settings, with a
request for the value of `h` waiting.  Then whatever windows are served, values armed and requests made, at any times:
if there are as many windows as usable handles, one of the first so many is used for the request, and until then each is
used for some request.  Up to `Machine.latest` the machine serves the same, if the interval is one that settings may
have. -/
theorem waiting_request_is_served (reached : t.Reachable cfg) (asked : t.requested h = true)
    (ordinary : ∀ op ∈ ops, Ordinary op) :
    (t.slots.size - 1 ≤ (t.served ops).length → some (.request h) ∈ (t.served ops).take (t.slots.size - 1)) ∧
    (∀ x ∈ (t.served ops).takeWhile (· != some (.request h)), ∃ k, x = some (.request k)) ∧
    (cfg.interval ≤ Settings.maxInterval → t.Followed ops) := by
  have queued : t.Queued h (t.ahead h) := ⟨reached.size_le, reached.turnValid, asked, rfl⟩
  have few : t.ahead h + 1 ≤ t.slots.size - 1 :=
    Nat.le_sub_one_of_lt (ahead_lt reached.turnValid (within_of_requested asked))
  obtain ⟨hserved, huntil⟩ := (countdown_queued h).served queued ordinary
  refine ⟨fun enough => ?_, huntil, fun short => (reached.fits short).followed ops⟩
  exact List.take_subset_take_left _ few (hserved (Nat.lt_of_lt_of_le few enough))

end

/-- All three values are asked for, and asked for again after each window; the turn is at value 2, whose request goes
last. -/
theorem last_of_three_waiting_requests_is_served :
    let cfg : Settings := ⟨0x8E89BED6, 38, 4, 100⟩
    let t := (configure cfg 7).run [.request 2, .serve 5 0, .request 2, .request 1, .request 3]
    let ops : List Operation := [.serve 10 0, .request 3, .arm 2 11, .serve 12 0, .request 1, .request 3, .serve 13 0]
    t.requested 2 = true ∧ t.served ops = [some (.request 3), some (.request 1), some (.request 2)] ∧
    some (.request 2) ∈ (t.served ops).take 3 := by
  intro cfg t ops
  have reached : t.Reachable cfg := ⟨7, _, rfl⟩
  have asked : t.requested 2 = true := by decide +kernel
  have windows : t.served ops = [some (.request 3), some (.request 1), some (.request 2)] := by decide +kernel
  have three : t.slots.size - 1 = 3 := by decide +kernel
  obtain ⟨served, -⟩ := waiting_request_is_served reached asked (show ∀ op ∈ ops, Ordinary op by decide)
  rw [three, windows] at served
  exact ⟨asked, windows, windows ▸ served (by decide)⟩

end Timetable
end ValueMesh
