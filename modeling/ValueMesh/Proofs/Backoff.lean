import Mathlib.Algebra.Group.Nat.Defs
import ValueMesh.Proofs.Pacing
import ValueMesh.Proofs.Turns
/-!
# Backing off

Only two things set the timer of a value anew: the value is armed, or it is marked as sent
(`timer?_perform_of_unset`).  So the interval recorded for it can be read off the list of them: the shortest interval,
doubled once for each transmission in a row, up to the last of them, that found the replica left alone for eight
intervals, and never beyond the longest one (`Logged.interval?`).  The waits that are drawn move due times, within
their bounds, and nothing else (`intervals_back_off`).
-/
namespace ValueMesh

inductive Reset
  | armed (now : Nat)
  | sent (now lastActivity : Nat)
  deriving DecidableEq, Repr

namespace Reset

variable {quiet : Nat} {log : List Reset}

/-- Whether the value is sent when its replica has been left alone for `quiet` microseconds. -/
def stable (quiet : Nat) : Reset → Bool
  | armed _ => false
  | sent now lastActivity => decide (quiet ≤ now - lastActivity)

theorem not_stable_armed (now : Nat) : ¬ (armed now).stable quiet = true := Bool.false_ne_true

def streak (quiet : Nat) (log : List Reset) : Nat := (log.reverse.takeWhile (stable quiet)).length

theorem streak_append_of_stable {r : Reset} (hr : r.stable quiet = true) :
    streak quiet (log ++ [r]) = streak quiet log + 1 := by
  rw [streak, List.reverse_append, List.reverse_singleton, List.singleton_append, List.takeWhile_cons_of_pos hr]
  rfl

theorem streak_append_of_not_stable {r : Reset} (hr : ¬ r.stable quiet = true) : streak quiet (log ++ [r]) = 0 := by
  rw [streak, List.reverse_append, List.reverse_singleton, List.singleton_append, List.takeWhile_cons_of_neg hr]
  rfl

end Reset

namespace Settings

variable {cfg : Settings} {log : List Reset} {r : Reset}

/-- The interval of a value after the resets of `log`: the shortest one, doubled for each stable transmission at the
end, up to 32 times as long and to a minute. -/
def intervalAfter (cfg : Settings) (log : List Reset) : Nat :=
  min (cfg.interval * 2 ^ Reset.streak (8000 * cfg.interval) log) (min (32 * cfg.interval) 60000)

theorem intervalAfter_eq (cfg : Settings) (log : List Reset) : cfg.intervalAfter log =
    min (cfg.interval * 2 ^ Reset.streak (8000 * cfg.interval) log) cfg.longestInterval := by
  rw [intervalAfter, Nat.mul_comm 32]
  rfl

theorem interval_le_longestInterval (short : cfg.interval ≤ maxInterval) : cfg.interval ≤ cfg.longestInterval :=
  Nat.le_min.2 ⟨Nat.le_mul_of_pos_right _ (by decide), short⟩

theorem interval_le_intervalAfter (short : cfg.interval ≤ maxInterval) (log : List Reset) :
    cfg.interval ≤ cfg.intervalAfter log := by
  rw [intervalAfter_eq]
  exact Nat.le_min.2 ⟨Nat.le_mul_of_pos_right _ (Nat.two_pow_pos _), interval_le_longestInterval short⟩

theorem intervalAfter_append_of_stable (hr : r.stable (8000 * cfg.interval) = true) :
    cfg.intervalAfter (log ++ [r]) = min (cfg.intervalAfter log * 2) cfg.longestInterval := by
  rw [intervalAfter_eq, Reset.streak_append_of_stable hr, Nat.pow_succ, ← Nat.mul_assoc, intervalAfter_eq]
  omega

theorem intervalAfter_append_of_not_stable (short : cfg.interval ≤ maxInterval)
    (hr : ¬ r.stable (8000 * cfg.interval) = true) : cfg.intervalAfter (log ++ [r]) = cfg.interval := by
  rw [intervalAfter_eq, Reset.streak_append_of_not_stable hr, Nat.pow_zero, Nat.mul_one]
  exact Nat.min_eq_left (interval_le_longestInterval short)

end Settings

namespace Timetable

section

variable [Jitter] {t : Timetable} {cfg : Settings} {h : Handle} {item : Item} {op : Operation} {log : List Reset}
  {r : Reset} {now lastActivity previous : Nat}

/-! ## Timers set anew -/

def reset? (t : Timetable) (h : Handle) : Operation → Option Reset
  | .arm k now => if k = h then some (.armed now) else none
  | .complete item now lastActivity => if item = .value h then some (.sent now lastActivity) else none
  | .serve now lastActivity =>
    if (t.serve now lastActivity).1 = some (.value h) then some (.sent now lastActivity) else none
  | .request _ | .next _ => none

def resets (t : Timetable) (h : Handle) : List Operation → List Reset
  | [] => []
  | op :: rest => (t.reset? h op).toList ++ (t.perform op).resets h rest

theorem timer?_complete_of_ne_value (now lastActivity : Nat) (other : item ≠ .value h) :
    (t.complete item now lastActivity).timer? h = t.timer? h := by
  cases item with
  | request k => exact timer?_complete_request t k now lastActivity h
  | value k => exact timer?_complete_of_ne now lastActivity fun hk => other (congrArg Item.value hk.symm)

/-- **A timer that is not set anew stays**, but that its wait may be found to be over. -/
theorem timer?_perform_of_unset (unset : t.reset? h op = none) :
    (t.perform op).timer? h = t.timer? h ∨ ∃ now, (t.perform op).timer? h = (t.promote now).timer? h := by
  cases op with
  | arm k now =>
    have hne : h ≠ k := fun hk => by simp [reset?, hk] at unset
    exact Or.inl (timer?_arm_of_ne now hne)
  | request k =>
    simp only [perform]
    split
    · exact Or.inl rfl
    · rename_i asked
      exact Or.inl (timer?_request asked h)
  | next now => exact Or.inr ⟨now, rfl⟩
  | complete item now lastActivity =>
    have other : item ≠ .value h := fun hi => by simp [reset?, hi] at unset
    exact Or.inl (timer?_complete_of_ne_value now lastActivity other)
  | serve now lastActivity =>
    refine Or.inr ⟨now, ?_⟩
    show (t.serve now lastActivity).2.timer? h = _
    cases hn : (t.next now).1 with
    | none =>
      rw [serve_of_none lastActivity hn]
      rfl
    | some item =>
      rw [reset?, serve_of_next lastActivity hn] at unset
      have other : item ≠ .value h := fun hi => by simp [hi] at unset
      rw [serve_of_next lastActivity hn]
      exact timer?_complete_of_ne_value now lastActivity other

theorem interval?_perform_of_unset (unset : t.reset? h op = none) :
    (t.perform op).interval? h = t.interval? h := by
  rcases timer?_perform_of_unset unset with ht | ⟨now, ht⟩
  · rw [interval?, ht, interval?]
  · rw [interval?, ht]
    exact interval?_promote t now h

theorem due?_perform_of_unset (unset : t.reset? h op = none) : (t.perform op).due? h = t.due? h := by
  rcases timer?_perform_of_unset unset with ht | ⟨now, ht⟩
  · rw [due?_eq_bind, ht, due?_eq_bind]
  · rw [due?_eq_bind, ht, ← due?_eq_bind]
    exact due?_next t now h

inductive Sets (t : Timetable) (h : Handle) : Reset → Timetable → Prop
  | arm (now : Nat) : Sets t h (.armed now) (t.arm h now)
  | complete (now lastActivity : Nat) : Sets t h (.sent now lastActivity) (t.complete (.value h) now lastActivity)
  | serve {now : Nat} (chosen : (t.next now).1 = some (.value h)) (lastActivity : Nat) :
      Sets t h (.sent now lastActivity) ((t.next now).2.complete (.value h) now lastActivity)

theorem sets_of_reset? (set : t.reset? h op = some r) : t.Sets h r (t.perform op) := by
  cases op with
  | arm k now =>
    rw [reset?] at set
    split at set
    · rename_i hk
      cases set
      subst hk
      exact .arm now
    · cases set
  | complete item now lastActivity =>
    rw [reset?] at set
    split at set
    · rename_i hi
      cases set
      subst hi
      exact .complete now lastActivity
    · cases set
  | serve now lastActivity =>
    show t.Sets h r (t.serve now lastActivity).2
    rw [reset?] at set
    cases hn : (t.next now).1 with
    | none =>
      rw [serve_of_none lastActivity hn] at set
      cases set
    | some item =>
      rw [serve_of_next lastActivity hn] at set ⊢
      split at set
      · rename_i hi
        cases set
        cases hi
        exact .serve hn lastActivity
      · cases set
  | request | next => cases set

/-! ## Intervals -/

/-- The value is due half an interval after it is armed, at the latest. -/
theorem timer?_arm_of_within (now : Nat) (hw : h.within t.slots.size = true) :
    ∃ due, (t.arm h now).timer? h = some (.armed due t.interval) ∧ now ≤ due ∧ due ≤ now + 500 * t.interval := by
  obtain ⟨s, hs⟩ := Option.isSome_iff_exists.1 ((HandleTable.isSome_get? t.slots h).trans hw)
  have hjitter := t.jitter_le (t.interval * 500)
  refine ⟨now + (t.jitter (t.interval * 500)).1, ?_, by omega, by omega⟩
  rw [timer?_arm, timer?_of_slot hs]
  rfl

/-- The value is due again one interval after it is sent, and a quarter of one more at the latest. -/
theorem timer?_complete_of_recorded (now lastActivity : Nat) (recorded : t.interval? h = some previous) :
    ∃ due, (t.complete (.value h) now lastActivity).timer? h =
        some (.sent now due (t.backoff previous now lastActivity)) ∧
      now + 1000 * t.backoff previous now lastActivity ≤ due ∧
      due ≤ now + 1250 * t.backoff previous now lastActivity := by
  obtain ⟨timer, ht, hp⟩ := Option.bind_eq_some_iff.1 recorded
  obtain ⟨s, hs, rfl⟩ := Option.map_eq_some_iff.1 ht
  have hjitter := t.jitter_le (t.backoff previous now lastActivity * 250)
  exact ⟨_, timer?_of_slot (get?_complete_of_recorded now lastActivity hs hp), by omega, by omega⟩

theorem Sets.interval?_of_armed {t' : Timetable} (hs : t.Sets h (.armed now) t') {p : Nat}
    (recorded : t'.interval? h = some p) : p = t.interval := by
  cases hs
  rw [interval?, timer?_arm] at recorded
  cases ht : t.timer? h with
  | none =>
    rw [ht] at recorded
    cases recorded
  | some timer =>
    rw [ht] at recorded
    cases recorded
    rfl

theorem Sets.timer?_of_sent {t' : Timetable} (hs : t.Sets h (.sent now lastActivity) t')
    (recorded : t.interval? h = some previous) :
    ∃ due, t'.timer? h = some (.sent now due (t.backoff previous now lastActivity)) ∧
      now + 1000 * t.backoff previous now lastActivity ≤ due ∧
      due ≤ now + 1250 * t.backoff previous now lastActivity := by
  cases hs with
  | complete => exact timer?_complete_of_recorded now lastActivity recorded
  | serve => exact timer?_complete_of_recorded now lastActivity ((interval?_promote t now h).trans recorded)

theorem Sets.interval?_of_idle {t' : Timetable} (hs : t.Sets h (.sent now lastActivity) t')
    (idle : t.interval? h = none) : t'.interval? h = none := by
  cases hs with
  | complete =>
    rw [complete_value_of_idle now lastActivity idle]
    exact idle
  | serve =>
    have idle' : (t.next now).2.interval? h = none := (interval?_promote t now h).trans idle
    rw [complete_value_of_idle now lastActivity idle']
    exact idle'

/-! ## The closed form -/

/-- `t` comes about under `cfg`, and `log` is what set the timer of the value of `h` anew on the way.  The generator may
be found in any state at any time, so whatever can be drawn is. -/
inductive Logged (cfg : Settings) (h : Handle) : List Reset → Timetable → Prop
  | configured (seed : UInt64) : Logged cfg h [] (configure cfg seed)
  | performed {log : List Reset} {t : Timetable} (op : Operation) :
      Logged cfg h log t → Logged cfg h (log ++ (t.reset? h op).toList) (t.perform op)
  | redrawn {log : List Reset} {t : Timetable} (g : Option Jitter.Source) :
      Logged cfg h log t → Logged cfg h log { t with generator := g }

theorem Logged.run (logged : Logged cfg h log t) (history : List Operation) :
    Logged cfg h (log ++ t.resets h history) (t.run history) := by
  induction history generalizing log t with
  | nil =>
    rw [resets, List.append_nil]
    exact logged
  | cons op rest ih =>
    rw [resets, ← List.append_assoc]
    exact ih (logged.performed op)

theorem Reachable.logged (reached : t.Reachable cfg) (h : Handle) : ∃ log, Logged cfg h log t := by
  obtain ⟨seed, history, rfl⟩ := reached
  exact ⟨_, (Logged.configured seed).run history⟩

theorem Logged.interval (logged : Logged cfg h log t) : t.interval = cfg.interval := by
  induction logged with
  | configured => rfl
  | performed op _ ih => exact (interval_perform _ op).trans ih
  | redrawn _ _ ih => exact ih

theorem Logged.size (logged : Logged cfg h log t) :
    t.slots.size = min cfg.handleCount.toNat Settings.maxHandles := by
  induction logged with
  | configured => exact HandleTable.size_fill ..
  | performed op _ ih => exact (size_perform _ op).trans ih
  | redrawn _ _ ih => exact ih

theorem Logged.turn (logged : Logged cfg h log t) : t.TurnValid := by
  induction logged with
  | configured => exact Or.inl rfl
  | performed op _ ih => exact turnValid_perform op ih
  | redrawn _ _ ih => exact ih

theorem Logged.fits (logged : Logged cfg h log t) (short : cfg.interval ≤ Settings.maxInterval) : t.Fits :=
  ⟨logged.size ▸ Nat.min_le_right .., logged.interval.symm ▸ short, logged.turn⟩

theorem backoff_eq_intervalAfter (base : t.interval = cfg.interval) (short : cfg.interval ≤ Settings.maxInterval) :
    t.backoff (cfg.intervalAfter log) now lastActivity = cfg.intervalAfter (log ++ [.sent now lastActivity]) := by
  have hlimit : t.maxInterval = cfg.longestInterval := by rw [maxInterval, base, Settings.longestInterval]
  have hquiet : stableIntervals * t.interval * 1000 = 8000 * cfg.interval := by rw [base, stableIntervals]; omega
  have hstable : (Reset.sent now lastActivity).stable (8000 * cfg.interval) = true ↔
      8000 * cfg.interval ≤ now - lastActivity := decide_eq_true_iff
  unfold backoff
  rw [hquiet, hlimit, base]
  split
  · rename_i hq
    exact (Settings.intervalAfter_append_of_stable (hstable.2 hq)).symm
  · rename_i hq
    exact (Settings.intervalAfter_append_of_not_stable short (mt hstable.1 hq)).symm

/-- **The interval of a value is that after its resets**, once it was armed. -/
theorem Logged.interval? (logged : Logged cfg h log t) (short : cfg.interval ≤ Settings.maxInterval) {p : Nat}
    (recorded : t.interval? h = some p) : p = cfg.intervalAfter log := by
  induction logged generalizing p with
  | configured seed =>
    rw [Timetable.interval?, timer?, configure, HandleTable.get?_fill] at recorded
    split at recorded <;> cases recorded
  | @performed log t op logged ih =>
    cases hr : t.reset? h op with
    | none =>
      rw [interval?_perform_of_unset hr] at recorded
      rw [Option.toList_none, List.append_nil]
      exact ih recorded
    | some r =>
      have hs := sets_of_reset? hr
      rw [Option.toList_some]
      cases r with
      | armed now =>
        rw [hs.interval?_of_armed recorded, logged.interval]
        exact (Settings.intervalAfter_append_of_not_stable short (Reset.not_stable_armed now)).symm
      | sent now lastActivity =>
        cases hp : t.interval? h with
        | none =>
          rw [hs.interval?_of_idle hp] at recorded
          cases recorded
        | some previous =>
          obtain ⟨due, ht, -⟩ := hs.timer?_of_sent hp
          rw [Timetable.interval?, ht, ih hp] at recorded
          cases recorded
          exact backoff_eq_intervalAfter logged.interval short
  | redrawn g _ ih => exact ih recorded

/-- **Intervals back off.**  Take a timetable that comes about under settings in range, whatever waits are drawn, and
let `log` be what set the timer of the value of `h` anew on the way.  If the value was ever armed, its interval is the
shortest one, doubled for each stable transmission at the end of `log`, up to 32 times as long and to a minute; and once
it is sent again, at any time, it is due one interval later, or up to a quarter of one after that.  Once it is armed, it
is due within half of the shortest interval.  Up to `Machine.latest` the machine does the same. -/
theorem intervals_back_off (logged : Logged cfg h log t) (inRange : cfg.InRange) :
    (∀ timer, t.timer? h = some timer → timer ≠ .idle →
      timer.interval? = some (cfg.intervalAfter log) ∧
      ∀ now lastActivity, ∃ due, (t.complete (.value h) now lastActivity).timer? h =
          some (.sent now due (cfg.intervalAfter (log ++ [.sent now lastActivity]))) ∧
        1000 * cfg.intervalAfter (log ++ [.sent now lastActivity]) ≤ due - now ∧
        due - now ≤ 1250 * cfg.intervalAfter (log ++ [.sent now lastActivity])) ∧
    (cfg.covers h = true → ∀ now, ∃ due, (t.arm h now).timer? h = some (.armed due cfg.interval) ∧
      now ≤ due ∧ due ≤ now + 500 * cfg.interval) ∧
    ∀ ops, t.Followed ops := by
  have short : cfg.interval ≤ Settings.maxInterval := inRange.2.2.2.2
  refine ⟨fun timer ht started => ?_, fun hc now => ?_, (logged.fits short).followed⟩
  · have hsome : timer.interval?.isSome = true := by
      rw [timer.isSome_interval?]
      exact Timer.isSome_due?_iff.2 started
    obtain ⟨p, hp⟩ := Option.isSome_iff_exists.1 hsome
    have recorded : t.interval? h = some p := by rw [interval?, ht, Option.bind_some, hp]
    have hform : p = cfg.intervalAfter log := logged.interval? short recorded
    refine ⟨hform ▸ hp, fun now lastActivity => ?_⟩
    obtain ⟨due, hsent, hearly, hlate⟩ := timer?_complete_of_recorded now lastActivity recorded
    rw [hform, backoff_eq_intervalAfter logged.interval short] at hsent hearly hlate
    exact ⟨due, hsent, by omega, by omega⟩
  · have hw : h.within t.slots.size = true := by
      rw [logged.size, Nat.min_eq_left inRange.2.2.1]
      exact hc
    rw [← logged.interval]
    exact timer?_arm_of_within now hw

end

/-- Two windows find the replica left alone for long, and the next one finds it changed. -/
theorem interval_of_a_quiet_value_doubles_twice :
    let cfg : Settings := ⟨0x8E89BED6, 38, 10, 100⟩
    let t := (configure cfg 7).run [.arm 3 0, .serve 1000000 0, .next 1100000, .serve 1300000 0]
    let log : List Reset := [.armed 0, .sent 1000000 0, .sent 1300000 0]
    Logged cfg 3 log t ∧ t.timer? 3 = some (.sent 1300000 1744377 400) ∧ cfg.intervalAfter log = 400 ∧
    ∃ due, (t.complete (.value 3) 1800000 1750000).timer? 3 = some (.sent 1800000 due 100) ∧
      100000 ≤ due - 1800000 ∧ due - 1800000 ≤ 125000 := by
  intro cfg t log
  have logged : Logged cfg 3 log t := by
    have start : Logged cfg 3 [] (configure cfg 7) := .configured 7
    have hlog : [] ++ (configure cfg 7).resets 3
        [.arm 3 0, .serve 1000000 0, .next 1100000, .serve 1300000 0] = log := by decide +kernel
    exact hlog ▸ start.run _
  have timer : t.timer? 3 = some (.sent 1300000 1744377 400) := by decide +kernel
  obtain ⟨waits, -⟩ := intervals_back_off logged (by decide)
  obtain ⟨interval, later⟩ := waits _ timer (by decide)
  have back : cfg.intervalAfter (log ++ [.sent 1800000 1750000]) = 100 := by decide +kernel
  obtain ⟨due, sent, early, late⟩ := later 1800000 1750000
  rw [back] at sent early late
  exact ⟨logged, timer, (Option.some.inj interval).symm, due, sent, early, late⟩

end Timetable
end ValueMesh
