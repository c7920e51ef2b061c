import Mathlib.Data.List.Chain
import ValueMesh.Proofs.Backoff
/-!
# How often a value can be sent

A window is used for a value only once the value is due (`due_of_next`), and a value that is sent is not due again
before the interval recorded for it is over, unless it is armed.  So of all that sets its timer anew no two
transmissions follow each other within the shortest interval (`isChain_resets`), and in any stretch of time a value is
sent at most once, once more for each time it is armed, and once more for each shortest interval that passes
(`transmissions_are_spaced`).
-/
namespace ValueMesh

namespace Reset

variable {d T₀ T₁ : Nat} {log : List Reset} {x : Reset}

def time : Reset → Nat
  | armed now | sent now _ => now

def isSent : Reset → Bool
  | armed _ => false
  | sent .. => true

def isArmed (r : Reset) : Bool := !r.isSent

def between (T₀ T₁ : Nat) (log : List Reset) : List Reset :=
  log.filter fun r => decide (T₀ ≤ r.time ∧ r.time ≤ T₁)

def Apart (d : Nat) (x y : Reset) : Prop := x.isSent = true → y.isSent = true → x.time + d ≤ y.time

theorem between_cons_of_mem (hfrom : T₀ ≤ x.time) (hto : x.time ≤ T₁) :
    between T₀ T₁ (x :: log) = x :: between T₀ T₁ log :=
  List.filter_cons_of_pos (decide_eq_true ⟨hfrom, hto⟩)

theorem between_cons_of_before (before : x.time < T₀) : between T₀ T₁ (x :: log) = between T₀ T₁ log :=
  List.filter_cons_of_neg fun hx => absurd (of_decide_eq_true hx).1 (Nat.not_le.2 before)

theorem between_of_after (ordered : ((x :: log).map time).Pairwise (· ≤ ·)) (after : T₁ < x.time) :
    between T₀ T₁ (x :: log) = [] := by
  refine List.filter_eq_nil_iff.2 fun r hr hin => ?_
  have hle : x.time ≤ r.time := by
    rcases List.mem_cons.1 hr with rfl | hr
    · exact Nat.le_refl _
    · exact (List.pairwise_cons.1 ordered).1 _ (List.mem_map_of_mem hr)
  have hto := (of_decide_eq_true hin).2
  omega

/-- Each transmission after `x` is paid for, by an arming or by the time that has passed since the one before. -/
theorem sent_le_of_cons (T₀ T₁ : Nat) : ∀ {log : List Reset} {x : Reset}, (x :: log).IsChain (Apart d) →
    ((x :: log).map time).Pairwise (· ≤ ·) → T₀ ≤ x.time →
    d * (between T₀ T₁ (x :: log)).countP isSent ≤
      d * (x.isSent.toNat + (between T₀ T₁ (x :: log)).countP isArmed) + (T₁ - x.time)
  | [], x, _, ordered, hfrom => by
    by_cases after : T₁ < x.time
    · rw [between_of_after ordered after]
      exact Nat.zero_le _
    · rw [between_cons_of_mem hfrom (Nat.not_lt.1 after)]
      cases x <;> simp [between, isSent, isArmed]
  | y :: rest, x, apart, ordered, hfrom => by
    by_cases after : T₁ < x.time
    · rw [between_of_after ordered after]
      exact Nat.zero_le _
    obtain ⟨hxy, apart'⟩ := List.isChain_cons_cons.1 apart
    obtain ⟨hle, ordered'⟩ := List.pairwise_cons.1 ordered
    have hlater : x.time ≤ y.time := hle _ List.mem_cons_self
    have ih := sent_le_of_cons T₀ T₁ apart' ordered' (Nat.le_trans hfrom hlater)
    have hnone : T₁ < y.time → (between T₀ T₁ (y :: rest)).countP isSent = 0 := fun hy => by
      rw [between_of_after ordered' hy]
      rfl
    rw [between_cons_of_mem hfrom (Nat.not_lt.1 after)]
    generalize between T₀ T₁ (y :: rest) = later at ih hnone ⊢
    rw [Nat.mul_add] at ih
    cases hx : x.isSent with
    | false =>
      have hcredit : d * y.isSent.toNat ≤ d * 1 := Nat.mul_le_mul_left d (Bool.toNat_le _)
      simp only [List.countP_cons, isArmed, hx, Bool.not_false, Bool.false_eq_true, if_true, if_false, Nat.mul_add]
      omega
    | true =>
      simp only [List.countP_cons, isArmed, hx, Bool.not_true, Bool.false_eq_true, Bool.toNat_true, if_true, if_false,
        Nat.mul_add]
      by_cases hafter : T₁ < y.time
      · rw [hnone hafter]
        omega
      · cases hy : y.isSent with
        | true =>
          have hgap : x.time + d ≤ y.time := hxy hx hy
          rw [hy, Bool.toNat_true] at ih
          omega
        | false =>
          rw [hy, Bool.toNat_false] at ih
          omega

theorem sent_le_of_apart (T₀ T₁ : Nat) : ∀ {log : List Reset}, log.IsChain (Apart d) →
    (log.map time).Pairwise (· ≤ ·) →
    d * (between T₀ T₁ log).countP isSent ≤ d * (1 + (between T₀ T₁ log).countP isArmed) + (T₁ - T₀)
  | [], _, _ => Nat.zero_le _
  | x :: rest, apart, ordered => by
    by_cases before : x.time < T₀
    · rw [between_cons_of_before before]
      exact sent_le_of_apart T₀ T₁ apart.tail (List.pairwise_cons.1 ordered).2
    · have hpaid := sent_le_of_cons T₀ T₁ apart ordered (Nat.not_lt.1 before)
      have hone : d * (x.isSent.toNat + (between T₀ T₁ (x :: rest)).countP isArmed) ≤
          d * (1 + (between T₀ T₁ (x :: rest)).countP isArmed) :=
        Nat.mul_le_mul_left d (Nat.add_le_add_right (Bool.toNat_le _) _)
      omega

/-- **Spaced transmissions are few**: one, and one more for each arming and for each time `d` that passes. -/
theorem countP_isSent_le (T₀ T₁ : Nat) (pos : 0 < d) (apart : log.IsChain (Apart d))
    (ordered : (log.map time).Pairwise (· ≤ ·)) :
    (between T₀ T₁ log).countP isSent ≤ 1 + (between T₀ T₁ log).countP isArmed + (T₁ - T₀) / d := by
  have hpaid := sent_le_of_apart T₀ T₁ apart ordered
  rw [← Nat.sub_le_iff_le_add', Nat.le_div_iff_mul_le pos, Nat.sub_mul, Nat.mul_comm _ d, Nat.mul_comm _ d]
  exact Nat.sub_le_iff_le_add'.2 hpaid

end Reset

namespace Timetable

section

variable [Jitter] {t : Timetable} {cfg : Settings} {h : Handle} {op : Operation} {ops : List Operation} {r x : Reset}
  {now lastActivity d : Nat}

/-! ## Due times between transmissions -/

/-- **A window is used for a value only once the value is due.** -/
theorem due_of_next (small : t.slots.size ≤ 0x10000) (chosen : (t.next now).1 = some (.value h)) :
    ∃ due, t.due? h = some due ∧ due ≤ now := by
  unfold next choice at chosen
  simp only at chosen
  split at chosen
  · cases chosen
  · obtain ⟨⟨due, k⟩, hp, hk⟩ := Option.map_eq_some_iff.1 chosen
    cases hk
    exact ⟨due, (mem_ready_promote_iff small).1 (mem_of_least? hp)⟩

theorem Reachable.due_of_serve (reached : t.Reachable cfg)
    (chosen : (t.serve now lastActivity).1 = some (.value h)) : ∃ due, t.due? h = some due ∧ due ≤ now :=
  due_of_next reached.size_le (serve_fst .. ▸ chosen)

theorem due?_run_of_no_resets : ∀ {ops : List Operation} {t : Timetable}, t.resets h ops = [] →
    (t.run ops).due? h = t.due? h
  | [], _, _ => rfl
  | op :: rest, t, unset => by
    obtain ⟨hop, hrest⟩ := List.append_eq_nil_iff.1 unset
    exact (due?_run_of_no_resets hrest).trans (due?_perform_of_unset (Option.toList_eq_nil_iff.1 hop))

/-- **The interval after a transmission is over before the value is due again.** -/
theorem Reachable.timer?_of_sent (reached : t.Reachable cfg) (short : cfg.interval ≤ Settings.maxInterval)
    (sent : t.reset? h op = some (.sent now lastActivity)) (waits : (t.due? h).isSome = true) :
    ∃ due p, (t.perform op).timer? h = some (.sent now due p) ∧ cfg.interval ≤ p ∧ now + 1000 * p ≤ due := by
  obtain ⟨log, logged⟩ := reached.logged h
  obtain ⟨previous, hp⟩ := Option.isSome_iff_exists.1 ((isSome_interval? t h).trans waits)
  obtain ⟨due, ht, early, -⟩ := (sets_of_reset? sent).timer?_of_sent hp
  rw [logged.interval? short hp, backoff_eq_intervalAfter logged.interval short] at ht early
  exact ⟨due, _, ht, Settings.interval_le_intervalAfter short _, early⟩

/-- The value of `h` is not due within `d` of its last transmission, if that is what set its timer last. -/
def Rested (t : Timetable) (h : Handle) (d : Nat) : Reset → Prop
  | .armed _ => True
  | .sent now _ => ∃ due, t.due? h = some due ∧ now + d ≤ due

theorem Rested.perform_of_unset (rested : t.Rested h d x) (unset : t.reset? h op = none) :
    (t.perform op).Rested h d x := by
  cases x with
  | armed now => trivial
  | sent now lastActivity =>
    obtain ⟨due, hd, hle⟩ := rested
    exact ⟨due, (due?_perform_of_unset unset).trans hd, hle⟩

/-- A transmission in a window comes when the value is due. -/
theorem Reachable.due_of_reset? (reached : t.Reachable cfg) (planned : ∀ item now la, op ≠ .complete item now la)
    (sent : t.reset? h op = some (.sent now lastActivity)) : ∃ due, t.due? h = some due ∧ due ≤ now := by
  cases op with
  | complete item now' la => exact absurd rfl (planned item now' la)
  | serve now' la =>
    rw [reset?] at sent
    split at sent
    · rename_i chosen
      cases sent
      exact reached.due_of_serve chosen
    · cases sent
  | arm k now' =>
    rw [reset?] at sent
    split at sent <;> cases sent
  | request | next => cases sent

/-- **Nothing sets a timer by two transmissions within the shortest interval.** -/
theorem isChain_resets (short : cfg.interval ≤ Settings.maxInterval) : ∀ {ops : List Operation} {t : Timetable}
    {x : Reset}, t.Reachable cfg → (∀ item now la, .complete item now la ∉ ops) →
    t.Rested h (1000 * cfg.interval) x → (x :: t.resets h ops).IsChain (Reset.Apart (1000 * cfg.interval))
  | [], _, x, _, _, _ => .singleton x
  | op :: rest, t, x, reached, planned, rested => by
    have hop : ∀ item now la, op ≠ .complete item now la := fun item now la he =>
      planned item now la (he ▸ List.mem_cons_self)
    have hrest : ∀ item now la, .complete item now la ∉ rest := fun item now la hm =>
      planned item now la (List.mem_cons_of_mem _ hm)
    rw [resets]
    cases hr : t.reset? h op with
    | none => exact isChain_resets short (reached.perform op) hrest (rested.perform_of_unset hr)
    | some r =>
      cases r with
      | armed now =>
        exact .cons_cons (fun _ hr => absurd hr Bool.false_ne_true)
          (isChain_resets short (reached.perform op) hrest trivial)
      | sent now lastActivity =>
        obtain ⟨due, hdue, hle⟩ := reached.due_of_reset? hop hr
        obtain ⟨due', p, ht, hp, hearly⟩ := reached.timer?_of_sent short hr (by rw [hdue]; rfl)
        refine .cons_cons (fun hx _ => ?_) (isChain_resets short (reached.perform op) hrest ⟨due', ?_, by omega⟩)
        · cases x with
          | armed => cases hx
          | sent last la =>
            obtain ⟨due₀, hdue₀, hlast⟩ := rested
            cases hdue.symm.trans hdue₀
            exact Nat.le_trans hlast hle
        · rw [due?_eq_bind, ht]
          rfl

/-! ## On a clock that never goes back -/

theorem time?_of_reset? (set : t.reset? h op = some r) : op.time? = some r.time := by
  cases op with
  | arm | complete | serve =>
    rw [reset?] at set
    split at set
    · cases set
      rfl
    · cases set
  | request | next => cases set

theorem sublist_times (h : Handle) : ∀ (ops : List Operation) (t : Timetable),
    ((t.resets h ops).map Reset.time).Sublist (ops.filterMap Operation.time?)
  | [], _ => .refl _
  | op :: rest, t => by
    have ih := sublist_times h rest (t.perform op)
    rw [resets, List.filterMap_cons]
    cases hr : t.reset? h op with
    | none =>
      rw [Option.toList_none, List.nil_append]
      split
      · exact ih
      · exact ih.cons _
    | some r =>
      rw [time?_of_reset? hr]
      exact ih.cons_cons _

/-- **Transmissions are spaced.**  Take a timetable that comes about under settings in range.  A window is used for the
value of `h` only once the value is due.  If two windows are used for it and nothing sets its timer anew between them,
the interval recorded by the first is over by the time of the second.  And on a clock that never goes back, as long as
values are marked as sent for the windows used for them only, the value is sent in any stretch of time once at most, and
once more for each time it is armed there and for each shortest interval that passes.  Up to `Machine.latest` the
machine does the same. -/
theorem transmissions_are_spaced (reached : t.Reachable cfg) (inRange : cfg.InRange) (h : Handle) :
    (∀ now lastActivity, (t.serve now lastActivity).1 = some (.value h) → ∃ due, t.due? h = some due ∧ due ≤ now) ∧
    (∀ now lastActivity ops now' lastActivity', (t.serve now lastActivity).1 = some (.value h) →
      (t.serve now lastActivity).2.resets h ops = [] →
      (((t.serve now lastActivity).2.run ops).serve now' lastActivity').1 = some (.value h) →
      ∃ p, (t.serve now lastActivity).2.interval? h = some p ∧ cfg.interval ≤ p ∧ now + 1000 * p ≤ now') ∧
    (∀ ops, (∀ item now lastActivity, .complete item now lastActivity ∉ ops) →
      (ops.filterMap Operation.time?).Pairwise (· ≤ ·) → ∀ T₀ T₁,
      (Reset.between T₀ T₁ (t.resets h ops)).countP Reset.isSent ≤
        1 + (Reset.between T₀ T₁ (t.resets h ops)).countP Reset.isArmed + (T₁ - T₀) / (1000 * cfg.interval)) ∧
    ∀ ops, t.Followed ops := by
  have short : cfg.interval ≤ Settings.maxInterval := inRange.2.2.2.2
  refine ⟨fun now la => reached.due_of_serve, fun now la ops now' la' first quiet second => ?_,
    fun ops planned clock T₀ T₁ => ?_, (reached.fits short).followed⟩
  · obtain ⟨due₀, hdue₀, -⟩ := reached.due_of_serve first
    have sent : t.reset? h (.serve now la) = some (.sent now la) := if_pos first
    obtain ⟨due, p, ht, hp, hearly⟩ := reached.timer?_of_sent short sent (by rw [hdue₀]; rfl)
    have reached' : ((t.serve now la).2.run ops).Reachable cfg := (reached.perform (.serve now la)).run ops
    obtain ⟨due', hdue', hpast⟩ := reached'.due_of_serve second
    have hkept : (t.serve now la).2.due? h = some due := by
      rw [due?_eq_bind]
      exact congrArg (·.bind (·.due?)) ht
    rw [due?_run_of_no_resets quiet, hkept] at hdue'
    cases hdue'
    exact ⟨p, congrArg (·.bind (·.interval?)) ht, hp, Nat.le_trans hearly hpast⟩
  · have pos : 0 < 1000 * cfg.interval := by
      have := inRange.2.2.2.1
      omega
    -- An arming before all of them sets no limit to the first transmission.
    have apart := (isChain_resets (x := .armed 0) (h := h) short reached planned trivial).tail
    exact Reset.countP_isSent_le T₀ T₁ pos apart (clock.sublist (sublist_times h ops t))

end

/-- Two values share the windows.  One of them is armed again between its transmissions: it is sent three times within
two intervals, as often as that may be.  The other one waits for its interval to be over. -/
theorem transmissions_of_two_values_are_spaced :
    let cfg : Settings := ⟨0x8E89BED6, 38, 10, 100⟩
    let t := (configure cfg 7).run [.arm 3 0, .arm 4 0]
    let quiet : List Operation := [.next 5, .serve 61000 50000, .request 5, .serve 62000 0, .serve 63000 0, .arm 3 70000,
      .serve 130000 100000]
    let ops := .serve 60000 50000 :: quiet ++ [.serve 200000 100000, .serve 260000 200000]
    t.served ops = [some (.value 4), some (.value 3), some (.request 5), none, some (.value 3), some (.value 4),
      some (.value 3)] ∧
    (∃ due, t.due? 4 = some due ∧ due ≤ 60000) ∧
    (∃ p, (t.serve 60000 50000).2.interval? 4 = some p ∧ 100 ≤ p ∧ 60000 + 1000 * p ≤ 200000) ∧
    (Reset.between 61000 260000 (t.resets 3 ops)).countP Reset.isSent = 3 ∧
    (Reset.between 61000 260000 (t.resets 3 ops)).countP Reset.isSent ≤
      1 + (Reset.between 61000 260000 (t.resets 3 ops)).countP Reset.isArmed + (260000 - 61000) / (1000 * 100) := by
  intro cfg t quiet ops
  have reached : t.Reachable cfg := ⟨7, _, rfl⟩
  have first : (t.serve 60000 50000).1 = some (.value 4) := by decide +kernel
  have unset : (t.serve 60000 50000).2.resets 4 quiet = [] := by decide +kernel
  have second : (((t.serve 60000 50000).2.run quiet).serve 200000 100000).1 = some (.value 4) := by decide +kernel
  have planned : ∀ item now lastActivity, Operation.complete item now lastActivity ∉ ops := by
    intro item now lastActivity hmem
    simp [ops, quiet] at hmem
  obtain ⟨waits, gap, -⟩ := transmissions_are_spaced reached (by decide) 4
  obtain ⟨-, -, few, -⟩ := transmissions_are_spaced reached (by decide) 3
  exact ⟨by decide +kernel, waits _ _ first, gap _ _ _ _ _ first unset second, by decide +kernel,
    few ops planned (by decide) 61000 260000⟩

end Timetable
end ValueMesh
