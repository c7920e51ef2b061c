import ValueMesh.Proofs.InPlace
/-!
# Timetables that come about, and run on the machine

What every operation leaves of a timetable holds of all those that come about: they have a slot for each usable handle,
and the turn is at one of them or at none.  Such a timetable fits the machine if its shortest interval is one that
settings may have, and up to `Machine.latest` the machine then makes of it what its operations return (`Fits.followed`).
-/
namespace ValueMesh
namespace Timetable

variable [Jitter] {t t' : Timetable} {cfg : Settings} {h : Handle} {item : Item} {op : Operation} {now : Nat}

/-! ## Timetables that come about -/

def Reachable (t : Timetable) (cfg : Settings) : Prop := ∃ seed history, (configure cfg seed).run history = t

theorem serve_of_next (lastActivity : Nat) (chosen : (t.next now).1 = some item) :
    t.serve now lastActivity = (some item, (t.next now).2.complete item now lastActivity) := by
  unfold serve
  split
  · rename_i hn
    rw [hn] at chosen
    cases chosen
  · rename_i hn
    rw [hn] at chosen
    cases chosen
    rw [hn]

theorem serve_of_none (lastActivity : Nat) (hn : (t.next now).1 = none) :
    t.serve now lastActivity = (none, (t.next now).2) := by
  unfold serve
  split
  · rename_i hs
    rw [hs]
  · rename_i hs
    rw [hs] at hn
    cases hn

theorem serve_fst (t : Timetable) (now lastActivity : Nat) : (t.serve now lastActivity).1 = (t.next now).1 := by
  cases hn : (t.next now).1 with
  | none => rw [serve_of_none lastActivity hn]
  | some item => rw [serve_of_next lastActivity hn]

/-- Every operation is a move, but that an item may be marked as sent without a window for it. -/
theorem perform_cases (t : Timetable) (op : Operation) : (∃ now, Move t now (t.perform op)) ∨
    ∃ item now lastActivity, t.perform op = t.complete item now lastActivity := by
  cases op with
  | arm h now => exact Or.inl ⟨now, .arm h⟩
  | request h =>
    refine Or.inl ⟨0, ?_⟩
    simp only [perform]
    split
    · exact .keep
    · rename_i asked
      exact .request asked
  | next now => exact Or.inl ⟨now, .poll⟩
  | complete item now lastActivity => exact Or.inr ⟨item, now, lastActivity, rfl⟩
  | serve now lastActivity =>
    refine Or.inl ⟨now, ?_⟩
    show Move t now (t.serve now lastActivity).2
    cases hn : (t.next now).1 with
    | none =>
      rw [serve_of_none lastActivity hn]
      exact .poll
    | some item =>
      rw [serve_of_next lastActivity hn]
      exact .serve hn lastActivity

theorem size_perform (t : Timetable) (op : Operation) : (t.perform op).slots.size = t.slots.size := by
  rcases perform_cases t op with ⟨now, moved⟩ | ⟨item, now, lastActivity, hc⟩
  · exact moved.size
  · rw [hc]
    exact size_complete ..

theorem turnValid_perform (op : Operation) (hv : t.TurnValid) : (t.perform op).TurnValid := by
  rcases perform_cases t op with ⟨now, moved⟩ | ⟨item, now, lastActivity, hc⟩
  · exact moved.turnValid hv
  · rw [hc]
    exact turnValid_complete item now lastActivity hv

/-- What every operation preserves a history preserves. -/
theorem run_of_perform {P : Timetable → Prop} (step : ∀ {t : Timetable} (op : Operation), P t → P (t.perform op))
    (history : List Operation) (hp : P t) : P (t.run history) := by
  induction history generalizing t with
  | nil => exact hp
  | cons op rest ih => exact ih (step op hp)

theorem Reachable.size (reached : t.Reachable cfg) : t.slots.size = min cfg.handleCount.toNat Settings.maxHandles := by
  obtain ⟨seed, history, rfl⟩ := reached
  exact run_of_perform (P := fun t => t.slots.size = min cfg.handleCount.toNat Settings.maxHandles)
    (fun op hs => (size_perform _ op).trans hs) history (HandleTable.size_fill ..)

theorem Reachable.run (reached : t.Reachable cfg) (ops : List Operation) : (t.run ops).Reachable cfg := by
  obtain ⟨seed, history, rfl⟩ := reached
  exact ⟨seed, history ++ ops, run_append ..⟩

theorem Reachable.perform (reached : t.Reachable cfg) (op : Operation) : (t.perform op).Reachable cfg :=
  reached.run [op]

/-- The timetables there are: a fresh one, one under settings, and what the operations make of them. -/
inductive Arises : Timetable → Prop
  | fresh : Arises fresh
  | configure (cfg : Settings) (seed : UInt64) : Arises (configure cfg seed)
  | perform {t : Timetable} (arises : Arises t) (op : Operation) : Arises (t.perform op)

theorem Arises.small (arises : t.Arises) : t.slots.size ≤ Settings.maxHandles := by
  induction arises with
  | fresh => exact Nat.zero_le _
  | configure cfg seed =>
    show (HandleTable.fill _ _).size ≤ _
    rw [HandleTable.size_fill]
    exact Nat.min_le_right ..
  | perform _ op small => exact (size_perform _ op).symm ▸ small

theorem Arises.turn (arises : t.Arises) : t.TurnValid := by
  induction arises with
  | fresh | configure => exact Or.inl rfl
  | perform _ op turn => exact turnValid_perform op turn

theorem Arises.size_le (arises : t.Arises) : t.slots.size ≤ 0x10000 := Nat.le_trans arises.small (by decide)

theorem Arises.run : ∀ {t : Timetable}, t.Arises → ∀ history : List Operation, (t.run history).Arises
  | _, arises, [] => arises
  | _, arises, op :: rest => (arises.perform op).run rest

theorem Reachable.arises (reached : t.Reachable cfg) : t.Arises := by
  obtain ⟨seed, history, rfl⟩ := reached
  exact (Arises.configure cfg seed).run history

theorem Reachable.size_le (reached : t.Reachable cfg) : t.slots.size ≤ 0x10000 := reached.arises.size_le

theorem Reachable.turnValid (reached : t.Reachable cfg) : t.TurnValid := reached.arises.turn

/-! ## On the machine -/

structure Fits (t : Timetable) : Prop where
  small : t.slots.size ≤ Settings.maxHandles
  short : t.interval ≤ Settings.maxInterval
  turn : t.TurnValid

theorem interval_perform (t : Timetable) (op : Operation) : (t.perform op).interval = t.interval := by
  rcases perform_cases t op with ⟨now, moved⟩ | ⟨item, now, lastActivity, hc⟩
  · exact moved.interval
  · rw [hc]
    exact interval_complete ..

theorem Fits.perform (fits : t.Fits) (op : Operation) : (t.perform op).Fits where
  small := (size_perform t op).symm ▸ fits.small
  short := (interval_perform t op).symm ▸ fits.short
  turn := turnValid_perform op fits.turn

theorem Fits.next (fits : t.Fits) (now : Nat) : (t.next now).2.Fits := fits.perform (.next now)

theorem Reachable.interval (reached : t.Reachable cfg) : t.interval = cfg.interval := by
  obtain ⟨seed, history, rfl⟩ := reached
  exact run_of_perform (P := fun t => t.interval = cfg.interval) (fun op same => (interval_perform _ op).trans same)
    history rfl

theorem Reachable.fits (reached : t.Reachable cfg) (short : cfg.interval ≤ Settings.maxInterval) : t.Fits :=
  ⟨reached.arises.small, reached.interval.symm ▸ short, reached.turnValid⟩

end Timetable

namespace Machine

open Call (bind_of_ok bind_of_refused)
open Timetable (Operation Answer)

variable [Jitter] {t : Timetable} {op : Operation} {now : Nat}

theorem arm_of_early (fits : t.Fits) (early : now ≤ latest) (h : Handle) : arm h now t = .ok (.ok (), t.arm h now) := by
  cases held : t.slots.get? h with
  | none => exact arm_of_beyond (HandleTable.get?_eq_none_iff.1 held) now
  | some s => rw [arm_of_held held fits.small fits.short, if_pos (due_lt_of_early fits.short early)]

theorem serve_eq (fits : t.Fits) (early : now ≤ latest) (lastActivity : Nat) :
    serve now lastActivity t = .ok (.ok (t.serve now lastActivity).1, (t.serve now lastActivity).2) := by
  rw [serve, bind_of_ok (next_eq fits.small fits.turn now)]
  cases chosen : (t.next now).1 with
  | none =>
    rw [Timetable.serve_of_none lastActivity chosen]
    rfl
  | some item =>
    rw [Timetable.serve_of_next lastActivity chosen]
    exact bind_of_ok (complete_eq (fits.next now).small (fits.next now).short early item lastActivity) _

theorem performTimetable_eq (fits : t.Fits) (early : ∀ now ∈ op.time?, now ≤ latest) :
    performTimetable op t = .ok (t.answer op, t.perform op) := by
  cases op with
  | arm h now =>
    have armed := arm_of_early fits (early now rfl) h
    rw [performTimetable, callTimetable, bind_of_ok armed]
    rfl
  | request h =>
    rw [performTimetable, callTimetable, Timetable.answer, Timetable.perform, Timetable.request]
    cases held : t.slots.get? h with
    | none =>
      rw [bind_of_refused (requestValue_of_beyond (HandleTable.get?_eq_none_iff.1 held))]
      rfl
    | some s =>
      rw [bind_of_ok (requestValue_of_held held fits.small)]
      rfl
  | next now =>
    rw [performTimetable, callTimetable, bind_of_ok (next_eq fits.small fits.turn now)]
    rfl
  | complete item now lastActivity =>
    have completed := complete_eq fits.small fits.short (early now rfl) item lastActivity
    rw [performTimetable, callTimetable, bind_of_ok completed]
    rfl
  | serve now lastActivity =>
    rw [performTimetable, callTimetable, bind_of_ok (serve_eq fits (early now rfl) lastActivity)]
    rfl

end Machine

namespace Timetable

variable [Jitter] {t : Timetable} {cfg : Settings}

/-- The machine follows a history of the timetable, if none of its times is past `Machine.latest`: it does not stop, and
answers and timetable are the same. -/
def Followed (t : Timetable) (ops : List Operation) : Prop :=
  (∀ op ∈ ops, ∀ now ∈ op.time?, now ≤ Machine.latest) →
    Machine.runTimetable t ops = .ok (t.answers ops, t.run ops)

/-- **The machine follows every timetable that fits it.** -/
theorem Fits.followed : ∀ {t : Timetable}, t.Fits → ∀ ops : List Operation, t.Followed ops
  | _, _, [], _ => rfl
  | t, fits, op :: rest, early => by
    have first := Machine.performTimetable_eq fits (early op List.mem_cons_self)
    have others := (fits.perform op).followed rest fun y hy => early y (List.mem_cons_of_mem _ hy)
    simp only [Machine.runTimetable, first, others, Machine.ok_bind]
    rfl

end Timetable
end ValueMesh
