import ValueMesh.Proofs.Polling
import ValueMesh.Proofs.Rounds
/-!
# When to wake

Whoever keeps a timetable may sleep until the earliest due time.  That time is read off the timers as they are, and
what is chosen for a window is found only after the waits that are over were found to be so; but both go by the same due
times (`earliestDue_eq_some_iff`).  So before the earliest due time there is nothing to send but requests, from then on
there is a value that has been due since just then, and asking early or late moves nothing
(`earliest_due_time_is_when_to_wake`).
-/
namespace ValueMesh
namespace Timetable

section

variable [Jitter] {t : Timetable} {h : Handle} {now due : Nat}

/-! ## The earliest due time -/

theorem mem_dues_iff (small : t.slots.size ≤ 0x10000) :
    due ∈ t.slots.entries.filterMap (·.2.timer.due?) ↔ ∃ h, t.due? h = some due := by
  rw [List.mem_filterMap]
  constructor
  · rintro ⟨⟨h, s⟩, held, waits⟩
    rw [HandleTable.mem_entries_iff small] at held
    exact ⟨h, by rw [due?, held]; exact waits⟩
  · rintro ⟨h, waits⟩
    obtain ⟨s, held, waits⟩ := Option.bind_eq_some_iff.1 waits
    exact ⟨(h, s), (HandleTable.mem_entries_iff small).2 held, waits⟩

/-- **The earliest due time is one that a value waits for, and none waits for an earlier one.** -/
theorem earliestDue_eq_some_iff (small : t.slots.size ≤ 0x10000) :
    t.earliestDue = some due ↔ (∃ h, t.due? h = some due) ∧ ∀ h d, t.due? h = some d → due ≤ d := by
  rw [earliestDue, List.min?_eq_some_iff, mem_dues_iff small]
  apply and_congr_right'
  constructor
  · intro least h d waits
    exact least d ((mem_dues_iff small).2 ⟨h, waits⟩)
  · intro least d waits
    obtain ⟨h, waits⟩ := (mem_dues_iff small).1 waits
    exact least h d waits

theorem exists_earliestDue (small : t.slots.size ≤ 0x10000) (waits : t.due? h = some due) :
    ∃ earliest, t.earliestDue = some earliest ∧ earliest ≤ due := by
  have hmem : due ∈ t.slots.entries.filterMap (·.2.timer.due?) := (mem_dues_iff small).2 ⟨h, waits⟩
  cases he : t.earliestDue with
  | none =>
    rw [earliestDue, List.min?_eq_none_iff] at he
    rw [he] at hmem
    cases hmem
  | some earliest => exact ⟨earliest, rfl, ((earliestDue_eq_some_iff small).1 he).2 h due waits⟩

/-- No value is due just if the earliest due time is still to come. -/
theorem forall_lt_due_iff (small : t.slots.size ≤ 0x10000) :
    (∀ h d, t.due? h = some d → now < d) ↔ ∀ earliest, t.earliestDue = some earliest → now < earliest := by
  constructor
  · intro early earliest he
    obtain ⟨⟨h, waits⟩, -⟩ := (earliestDue_eq_some_iff small).1 he
    exact early h earliest waits
  · intro early h d waits
    obtain ⟨earliest, he, hle⟩ := exists_earliestDue small waits
    exact Nat.lt_of_lt_of_le (early earliest he) hle

theorem earliestDue_next (t : Timetable) (now : Nat) : (t.next now).2.earliestDue = t.earliestDue :=
  ((Polled.refl t).poll now).earliestDue

/-! ## What is chosen -/

/-- **A value that is chosen has been due since the earliest due time.** -/
theorem earliestDue_of_next (turn : t.TurnValid) (small : t.slots.size ≤ 0x10000)
    (chosen : (t.next now).1 = some (.value h)) :
    ∃ earliest, t.earliestDue = some earliest ∧ earliest ≤ now ∧ t.due? h = some earliest := by
  obtain ⟨-, earliest, past, least, first⟩ := (next_eq_value_iff turn small).1 chosen
  have waits : t.due? h = some earliest := by simpa using List.find?_some first
  exact ⟨earliest, (earliestDue_eq_some_iff small).2 ⟨⟨h, waits⟩, least⟩, past, waits⟩

theorem not_requested_of_unasked (unasked : ∀ h, h.within t.slots.size = true → t.requested h = false) (h : Handle) :
    t.requested h = false := by
  cases asked : t.requested h with
  | false => rfl
  | true => exact asked.symm.trans (unasked h (within_of_requested asked))

theorem exists_next_of_due (small : t.slots.size ≤ 0x10000) (unasked : ∀ h, t.requested h = false)
    (waits : t.due? h = some due) (past : due ≤ now) : ∃ k, (t.next now).1 = some (.value k) := by
  obtain ⟨k, d, chosen, -⟩ := next_of_due small unasked waits past
  exact ⟨k, chosen⟩

/-- **The earliest due time is when to wake.**  Take any timetable there is, under any settings and seeds and after any
operations, and any time.  Nothing is chosen for a window then just if no request waits and the earliest due time, if
there is one, is still to come; a value that is chosen is due since the earliest due time, which is past; and choosing
leaves the earliest due time what it is.  So as long as no request waits, there is nothing to wake for before that time,
and always a value to send from then on.  The machine chooses the same at any time. -/
theorem earliest_due_time_is_when_to_wake (arises : t.Arises) (now : Nat) :
    ((t.next now).1 = none ↔ (∀ h, h.within t.slots.size = true → t.requested h = false) ∧
      ∀ earliest, t.earliestDue = some earliest → now < earliest) ∧
    (∀ h, (t.next now).1 = some (.value h) →
      ∃ earliest, t.earliestDue = some earliest ∧ earliest ≤ now ∧ t.due? h = some earliest) ∧
    (t.next now).2.earliestDue = t.earliestDue ∧
    (∀ earliest, t.earliestDue = some earliest → (∀ h, h.within t.slots.size = true → t.requested h = false) →
      ∀ time, (time < earliest → (t.next time).1 = none) ∧
        (earliest ≤ time → ∃ h, (t.next time).1 = some (.value h))) ∧
    Machine.next now t = .ok (.ok (t.next now).1, (t.next now).2) := by
  have turn := arises.turn
  have small := arises.size_le
  have idle : ∀ time, (t.next time).1 = none ↔ (∀ h, h.within t.slots.size = true → t.requested h = false) ∧
      ∀ earliest, t.earliestDue = some earliest → time < earliest := by
    intro time
    rw [next_eq_none_iff time small, forall_lt_due_iff small]
    exact and_congr_left' ⟨fun unasked h _ => unasked h, not_requested_of_unasked⟩
  refine ⟨idle now, fun h => earliestDue_of_next turn small, earliestDue_next t now, ?_,
    Machine.next_eq arises.small turn now⟩
  intro earliest he unasked time
  constructor
  · intro early
    refine (idle time).2 ⟨unasked, fun e he' => ?_⟩
    cases he.symm.trans he'
    exact early
  · intro past
    obtain ⟨⟨h, waits⟩, -⟩ := (earliestDue_eq_some_iff small).1 he
    exact exists_next_of_due small (not_requested_of_unasked unasked) waits past

end

/-- Two values are armed, and a third that was sent is due again before them: there is nothing to wake for until then,
and from then on it is that value which is chosen. -/
theorem value_sent_before_is_what_to_wake_for :
    let t := (configure ⟨0x8E89BED6, 38, 4, 100⟩ 7).run [.arm 2 10, .serve 60000 59000, .arm 1 150000, .arm 3 160000]
    t.Arises ∧ t.timer? 2 = some (.sent 60000 167849 100) ∧ t.earliestDue = some 167849 ∧
    (t.next 167848).1 = none ∧ (t.next 167849).1 = some (.value 2) ∧ (t.next 167849).2.earliestDue = some 167849 := by
  intro t
  have arises : t.Arises := (Arises.configure _ 7).run _
  have earliest : t.earliestDue = some 167849 := by decide +kernel
  have unasked : ∀ h, t.requested h = false := (pending_eq_nil_iff arises.size_le).1 (by decide +kernel)
  obtain ⟨-, -, kept, wakes, -⟩ := earliest_due_time_is_when_to_wake arises 167849
  have early := (wakes 167849 earliest (fun h _ => unasked h) 167848).1 (by decide)
  exact ⟨arises, by decide +kernel, earliest, early, by decide +kernel, kept.trans earliest⟩

end Timetable
end ValueMesh
