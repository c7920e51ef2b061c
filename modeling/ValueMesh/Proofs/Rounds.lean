import ValueMesh.Proofs.Spacing
/-!
# The turn goes round

What is chosen for a window is found by its distance from the handle served last, a number that is counted past the
last handle and on from the first.  A round that starts behind that handle lists the handles by this distance
(`pairwise_round`), so the choice is nothing but the first one met in the round (`next_is_first_in_the_round`).
-/
namespace ValueMesh

/-- In a list of growing keys the first element of a kind is the one of the least key. -/
theorem find?_eq_some_iff_least {α : Type} {key : α → Nat} {p : α → Bool} {a : α} : ∀ {l : List α},
    l.Pairwise (key · < key ·) → (l.find? p = some a ↔ a ∈ l ∧ p a = true ∧ ∀ b ∈ l, p b = true → key a ≤ key b)
  | [], _ => by simp
  | x :: l, growing => by
    rw [List.pairwise_cons] at growing
    by_cases hx : p x = true
    · rw [List.find?_cons_of_pos hx]
      constructor
      · intro h
        cases h
        refine ⟨List.mem_cons_self, hx, fun b hb _ => ?_⟩
        obtain rfl | hb := List.mem_cons.1 hb
        · exact Nat.le_refl _
        · exact Nat.le_of_lt (growing.1 b hb)
      · rintro ⟨ha, -, least⟩
        obtain rfl | ha := List.mem_cons.1 ha
        · rfl
        · exact absurd (growing.1 a ha) (Nat.not_lt.2 (least x List.mem_cons_self hx))
    · rw [List.find?_cons_of_neg hx, find?_eq_some_iff_least growing.2]
      constructor
      · rintro ⟨ha, hp, least⟩
        refine ⟨List.mem_cons_of_mem _ ha, hp, fun b hb hpb => ?_⟩
        obtain rfl | hb := List.mem_cons.1 hb
        · exact absurd hpb hx
        · exact least b hb hpb
      · rintro ⟨ha, hp, least⟩
        obtain rfl | ha := List.mem_cons.1 ha
        · exact absurd hp hx
        · exact ⟨ha, hp, fun b hb => least b (List.mem_cons_of_mem _ hb)⟩

namespace Timetable

section

variable [Jitter] {t : Timetable} {h k : Handle} {now due : Nat}

/-! ## Rounds -/

/-- The usable handles as the turn comes to them: those above the handle served last, then those from 1 up to it. -/
def round (t : Timetable) : List Handle :=
  (List.range' (t.lastServed.toNat + 1) (t.slots.size - 1 - t.lastServed.toNat) ++
    List.range' 1 t.lastServed.toNat).map UInt16.ofNat

theorem mem_round_iff (turn : t.TurnValid) (small : t.slots.size ≤ 0x10000) :
    h ∈ t.round ↔ h.within t.slots.size = true := by
  have hlast := lastServed_le turn
  rw [Handle.within_iff_pos, round, List.mem_map]
  constructor
  · rintro ⟨n, hn, rfl⟩
    have hn : 0 < n ∧ n < t.slots.size := by
      obtain hn | hn := List.mem_append.1 hn
      · rw [List.mem_range'_1] at hn
        omega
      · rw [List.mem_range'_1] at hn
        omega
    rwa [UInt16.toNat_ofNat', Nat.mod_eq_of_lt (by omega)]
  · rintro ⟨hpos, hlt⟩
    refine ⟨h.toNat, List.mem_append.2 ?_, UInt16.ofNat_toNat⟩
    by_cases hl : t.lastServed.toNat < h.toNat
    · exact Or.inl (List.mem_range'_1.2 (by omega))
    · exact Or.inr (List.mem_range'_1.2 (by omega))

theorem distance_ofNat (t : Timetable) {n : Nat} (hn : n < 0x10000) : t.distance (UInt16.ofNat n) =
    if t.lastServed.toNat < n then n - t.lastServed.toNat else n + t.slots.size - t.lastServed.toNat := by
  rw [distance, UInt16.toNat_ofNat', Nat.mod_eq_of_lt hn]

/-- **A round lists the handles by their distance.** -/
theorem pairwise_round (turn : t.TurnValid) (small : t.slots.size ≤ 0x10000) :
    t.round.Pairwise (t.distance · < t.distance ·) := by
  have hlast := lastServed_le turn
  rw [round, List.pairwise_map, List.pairwise_append]
  refine ⟨?_, ?_, ?_⟩
  · refine (List.pairwise_lt_range' ..).imp_of_mem ?_
    intro a b ha hb hab
    rw [List.mem_range'_1] at ha hb
    rw [distance_ofNat t (by omega), distance_ofNat t (by omega), if_pos (by omega), if_pos (by omega)]
    omega
  · refine (List.pairwise_lt_range' ..).imp_of_mem ?_
    intro a b ha hb hab
    rw [List.mem_range'_1] at ha hb
    rw [distance_ofNat t (by omega), distance_ofNat t (by omega), if_neg (by omega), if_neg (by omega)]
    omega
  · intro a ha b hb
    rw [List.mem_range'_1] at ha hb
    rw [distance_ofNat t (by omega), distance_ofNat t (by omega), if_pos (by omega), if_neg (by omega)]
    omega

theorem distance_inj (turn : t.TurnValid) (hh : h.within t.slots.size = true) (hk : k.within t.slots.size = true)
    (same : t.distance h = t.distance k) : h = k := by
  obtain ⟨hpos, hlt⟩ := Handle.within_iff_pos.1 hh
  obtain ⟨kpos, klt⟩ := Handle.within_iff_pos.1 hk
  have hlast := lastServed_le turn
  apply UInt16.toNat_inj.1
  unfold distance at same
  split at same <;> split at same <;> omega

theorem find?_round_eq_some_iff (turn : t.TurnValid) (small : t.slots.size ≤ 0x10000) {p : Handle → Bool}
    (inRange : ∀ k, p k = true → k.within t.slots.size = true) :
    t.round.find? p = some h ↔ p h = true ∧ ∀ k, p k = true → t.distance h ≤ t.distance k := by
  rw [find?_eq_some_iff_least (pairwise_round turn small)]
  simp only [mem_round_iff turn small]
  constructor
  · rintro ⟨-, hp, least⟩
    exact ⟨hp, fun k hk => least k (inRange k hk) hk⟩
  · rintro ⟨hp, least⟩
    exact ⟨inRange h hp, hp, fun k _ => least k⟩

theorem find?_round_eq_none_iff (turn : t.TurnValid) (small : t.slots.size ≤ 0x10000) {p : Handle → Bool}
    (inRange : ∀ k, p k = true → k.within t.slots.size = true) :
    t.round.find? p = none ↔ ∀ k, p k = false := by
  rw [List.find?_eq_none]
  constructor
  · intro none k
    cases hk : p k with
    | false => rfl
    | true => exact absurd hk (none k ((mem_round_iff turn small).2 (inRange k hk)))
  · intro none k _
    rw [none k]
    exact Bool.false_ne_true

/-! ## What is chosen -/

theorem within_of_due? (waits : t.due? h = some due) : h.within t.slots.size = true := by
  obtain ⟨s, held, -⟩ := Option.bind_eq_some_iff.1 waits
  exact HandleTable.within_of_get? held

theorem next_eq_request_iff (turn : t.TurnValid) (small : t.slots.size ≤ 0x10000) :
    (t.next now).1 = some (.request h) ↔ t.round.find? t.requested = some h := by
  rw [find?_round_eq_some_iff turn small fun k => within_of_requested]
  constructor
  · intro chosen
    obtain ⟨s, held, asked⟩ := requested_of_next small chosen
    refine ⟨requested_eq_true_iff.2 ⟨s, held, asked⟩, fun k hk => ?_⟩
    obtain ⟨k', chosen', -, near⟩ := next_of_requested small now hk
    cases chosen.symm.trans chosen'
    exact near
  · rintro ⟨asked, least⟩
    obtain ⟨k, chosen, asked', near⟩ := next_of_requested small now asked
    have same : t.distance k = t.distance h := Nat.le_antisymm near (least k asked')
    rw [chosen, distance_inj turn (within_of_requested asked') (within_of_requested asked) same]

theorem next_eq_value_iff (turn : t.TurnValid) (small : t.slots.size ≤ 0x10000) :
    (t.next now).1 = some (.value h) ↔ t.round.find? t.requested = none ∧
      ∃ due, due ≤ now ∧ (∀ k d, t.due? k = some d → due ≤ d) ∧
        t.round.find? (fun k => decide (t.due? k = some due)) = some h := by
  rw [find?_round_eq_none_iff turn small fun k => within_of_requested]
  have first (due : Nat) := find?_round_eq_some_iff (h := h) turn small (p := fun k => decide (t.due? k = some due))
    fun k hk => within_of_due? (of_decide_eq_true hk)
  simp only [decide_eq_true_eq] at first
  constructor
  · intro chosen
    have unasked : ∀ k, t.requested k = false := fun k => by
      cases hk : t.requested k with
      | false => rfl
      | true =>
        obtain ⟨k', chosen', -⟩ := next_of_requested small now hk
        cases chosen.symm.trans chosen'
    obtain ⟨due, waits, past⟩ := due_of_next small chosen
    -- Any other value that is due gives way to `h`, so it is due later, or as long and farther in the turn.
    have gives : ∀ k d, t.due? k = some d → d ≤ now → due < d ∨ due = d ∧ t.distance h ≤ t.distance k := by
      intro k d hk hd
      obtain ⟨k', d', chosen', waits', near⟩ := next_of_due small unasked hk hd
      cases chosen.symm.trans chosen'
      cases waits.symm.trans waits'
      exact near
    refine ⟨unasked, due, past, fun k d hk => ?_, (first due).2 ⟨waits, fun k hk => ?_⟩⟩
    · by_cases hd : d ≤ now
      · have := gives k d hk hd
        omega
      · omega
    · have := gives k due hk past
      omega
  · rintro ⟨unasked, due, past, least, found⟩
    obtain ⟨waits, near⟩ := (first due).1 found
    obtain ⟨k, d, chosen, waits', before⟩ := next_of_due small unasked waits past
    have hd := least k d waits'
    obtain rfl : d = due := by omega
    have same : t.distance k = t.distance h := by
      have := near k waits'
      omega
    rw [chosen, distance_inj turn (within_of_due? waits') (within_of_due? waits) same]

/-- **The first in the round is next.**  Take any timetable there is, under any settings and seeds and after any
operations, and any time.  What is chosen for a window then is the request met first in a round from behind the handle
served last, if any waits; otherwise it is a value, the first in the round of those that wait for the least due time of
all, if that is not past the time; and nothing is chosen just if no request waits and no value is due.  The turn is
always at a usable handle or at none, so the distances in it are counted without leaving their words, they differ from
handle to handle, and the machine chooses the same. -/
theorem next_is_first_in_the_round (arises : t.Arises) (now : Nat) :
    (∀ h, (t.next now).1 = some (.request h) ↔ t.round.find? t.requested = some h) ∧
    (∀ h, (t.next now).1 = some (.value h) ↔ t.round.find? t.requested = none ∧
      ∃ due, due ≤ now ∧ (∀ k d, t.due? k = some d → due ≤ d) ∧
        t.round.find? (fun k => decide (t.due? k = some due)) = some h) ∧
    ((t.next now).1 = none ↔ (∀ h, t.requested h = false) ∧ ∀ h due, t.due? h = some due → now < due) ∧
    (t.lastServed = 0 ∨ t.lastServed.within t.slots.size = true) ∧
    (∀ h, h.within t.slots.size = true → Machine.distance t h = .ok (t.distance h)) ∧
    (∀ h k, h.within t.slots.size = true → k.within t.slots.size = true → t.distance h = t.distance k → h = k) ∧
    Machine.next now t = .ok (.ok (t.next now).1, (t.next now).2) := by
  have turn := arises.turn
  have small := arises.size_le
  refine ⟨?_, ?_, next_eq_none_iff now small, turn, ?_, ?_, Machine.next_eq arises.small turn now⟩
  · exact fun h => next_eq_request_iff turn small
  · exact fun h => next_eq_value_iff turn small
  · exact fun h => Machine.distance_eq arises.small turn
  · exact fun h k => distance_inj turn

end

/-- The turn is at value 2, and three values wait: the first and the third have been due for the same time, and of
these the third is met first. -/
theorem third_of_four_values_is_next :
    let t := (configure ⟨0x8E89BED6, 38, 5, 0⟩ 7).run
      [.request 2, .serve 1 0, .arm 1 10, .arm 3 10, .arm 4 12]
    t.Arises ∧ t.round = [3, 4, 1, 2] ∧ t.due? 1 = some 10 ∧ (t.next 20).1 = some (.value 3) ∧
    t.round.find? t.requested = none ∧
    ∃ due, due ≤ 20 ∧ (∀ k d, t.due? k = some d → due ≤ d) ∧
      t.round.find? (fun k => decide (t.due? k = some due)) = some 3 := by
  intro t
  have arises : t.Arises := (Arises.configure _ 7).run _
  have chosen : (t.next 20).1 = some (.value 3) := by decide +kernel
  obtain ⟨unasked, first⟩ := ((next_is_first_in_the_round arises 20).2.1 3).1 chosen
  exact ⟨arises, by decide +kernel, by decide +kernel, chosen, unasked, first⟩

end Timetable
end ValueMesh
