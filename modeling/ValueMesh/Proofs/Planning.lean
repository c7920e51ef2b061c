import ValueMesh.Proofs.Reachable
/-!
# What the calls of an engine do to its timetable

Once a node is up, every call leaves its timetable alone or makes one of four moves on it (`timetable_perform`).  What
every move preserves therefore holds of the timetable of any engine that comes about; the turn, for one, is always at
a handle of the table or at none (`Reachable.turn`).
-/
namespace ValueMesh
def Item.handle : Item → Handle
  | .value h | .request h => h

namespace Timetable

variable [Jitter]

inductive Move (t : Timetable) (now : Nat) : Timetable → Prop
  | keep : Move t now t
  | arm (h : Handle) : Move t now (t.arm h now)
  | request {h : Handle} {t' : Timetable} (asked : t.request h = .ok t') : Move t now t'
  /-- Nothing is sent. -/
  | poll : Move t now (t.next now).2
  | serve {item : Item} (chosen : (t.next now).1 = some item) (lastActivity : Nat) :
      Move t now ((t.next now).2.complete item now lastActivity)

def TurnValid (t : Timetable) : Prop := t.lastServed = 0 ∨ t.lastServed.within t.slots.size = true

theorem lastServed_le {t : Timetable} (hv : t.TurnValid) : t.lastServed.toNat ≤ t.slots.size - 1 := by
  rcases hv with h0 | hw
  · rw [h0]
    exact Nat.zero_le _
  · have hlt := (Handle.within_iff_pos.1 hw).2
    omega

theorem turnValid_arm {t : Timetable} (h : Handle) (now : Nat) (hv : t.TurnValid) : (t.arm h now).TurnValid := by
  unfold TurnValid
  rw [size_arm]
  unfold arm
  split <;> exact hv

theorem turnValid_request {t t' : Timetable} {h : Handle} (hr : t.request h = .ok t') (hv : t.TurnValid) :
    t'.TurnValid := by
  unfold TurnValid
  rw [size_request hr]
  unfold request at hr
  split at hr
  · cases hr
  · cases hr
    exact hv

theorem turnValid_next {t : Timetable} (now : Nat) (hv : t.TurnValid) : (t.next now).2.TurnValid := by
  unfold TurnValid
  rw [size_next]
  exact hv

theorem turnValid_complete {t : Timetable} (item : Item) (now lastActivity : Nat) (hv : t.TurnValid) :
    (t.complete item now lastActivity).TurnValid := by
  unfold TurnValid
  rw [size_complete]
  unfold complete
  split
  · split
    · exact hv
    · rename_i s hs
      exact Or.inr (HandleTable.within_of_get? hs)
  · split
    · exact hv
    · rename_i s hs
      split
      · exact hv
      · exact Or.inr (HandleTable.within_of_get? hs)

theorem Move.turnValid {t t' : Timetable} {now : Nat} (hm : Move t now t') (hv : t.TurnValid) : t'.TurnValid := by
  cases hm with
  | keep => exact hv
  | arm h => exact turnValid_arm h now hv
  | request asked => exact turnValid_request asked hv
  | poll => exact turnValid_next now hv
  | serve chosen lastActivity => exact turnValid_complete _ now lastActivity (turnValid_next now hv)

theorem Move.size {t t' : Timetable} {now : Nat} (hm : Move t now t') : t'.slots.size = t.slots.size := by
  cases hm with
  | keep => rfl
  | arm h => exact size_arm t h now
  | request asked => exact size_request asked
  | poll => exact size_next t now
  | serve chosen lastActivity => exact (size_complete ..).trans (size_next t now)

/-! ## Intervals -/

variable {t t' : Timetable} {k : Handle} {now : Nat}

theorem interval_arm (t : Timetable) (h : Handle) (now : Nat) : (t.arm h now).interval = t.interval := by
  unfold arm
  split <;> rfl

theorem interval_request (asked : t.request k = .ok t') : t'.interval = t.interval := by
  unfold request at asked
  split at asked
  · cases asked
  · cases asked
    rfl

theorem interval_complete (t : Timetable) (item : Item) (now lastActivity : Nat) :
    (t.complete item now lastActivity).interval = t.interval := by
  unfold complete
  split
  · split <;> rfl
  · split
    · rfl
    · split <;> rfl

theorem Move.interval (hm : Move t now t') : t'.interval = t.interval := by
  cases hm with
  | keep | poll => rfl
  | arm k => exact interval_arm t k now
  | request asked => exact interval_request asked
  | serve chosen lastActivity => exact interval_complete ..

theorem interval_le_maxInterval (short : t.interval ≤ Settings.maxInterval) : t.interval ≤ t.maxInterval :=
  Nat.le_min.2 ⟨Nat.le_mul_of_pos_right _ (by decide), short⟩

theorem backoff_le_maxInterval (short : t.interval ≤ Settings.maxInterval) (previous now lastActivity : Nat) :
    t.backoff previous now lastActivity ≤ t.maxInterval := by
  unfold backoff
  split
  · exact Nat.min_le_right ..
  · exact interval_le_maxInterval short

end Timetable

namespace Engine

open Timetable (Move)

variable [Jitter]

theorem move_takeFrame (e : Engine) (mesh : UInt32) (now : Nat) :
    Move e.timetable now (e.takeFrame mesh now).2.timetable := by
  unfold takeFrame
  simp only
  split
  · exact .poll
  · rename_i item adv lastActivity hi
    obtain ⟨i, hn, hi⟩ := Option.bind_eq_some_iff.1 hi
    obtain ⟨p, -, hp⟩ := Option.map_eq_some_iff.1 hi
    cases hp
    split
    · exact .serve hn lastActivity
    · exact .serve hn lastActivity

theorem move_signal (e : Engine) (sig : Signal) (now : Nat) :
    Move e.timetable now (e.signal sig now).2.timetable := by
  have lends := lends_signal e sig now
  generalize (e.signal sig now).1 = task at lends
  generalize (e.signal sig now).2 = e' at lends
  cases lends with
  | rest | ask | goesOn | closes => exact .keep
  | opens => exact move_takeFrame e _ now

theorem timetable_deliver (e : Engine) (n : Option Notice) : (e.deliver n).2.timetable = e.timetable := by
  cases n <;> rfl

/-- **A frame that is received arms at most one value.** -/
theorem timetable_receive_cases (e : Engine) (frame : List UInt8) (now : Nat) :
    (e.receive frame now).2.timetable = e.timetable ∨
    ∃ k, (e.receive frame now).2.timetable = e.timetable.arm k now := by
  by_cases hh : ∃ c, e.Hears frame c
  · obtain ⟨c, hc⟩ := hh
    rw [receive_of_hears now hc]
    unfold hearCopy
    simp only
    split
    · exact Or.inl rfl
    · rename_i verdict notice hv
      rw [timetable_deliver]
      show (if verdict.rearms then e.timetable.arm c.handle now else e.timetable) = _ ∨ _
      split
      · exact Or.inr ⟨c.handle, rfl⟩
      · exact Or.inl rfl
  · obtain ⟨t, n, hs, ht⟩ := receive_of_not_hears now (not_exists.1 hh)
    rw [hs]
    rcases ht with rfl | ⟨k, r, -, -, rfl⟩
    · exact Or.inl rfl
    · exact Or.inr ⟨k, rfl⟩

theorem move_receive (e : Engine) (frame : List UInt8) (now : Nat) :
    Move e.timetable now (e.receive frame now).2.timetable := by
  rcases timetable_receive_cases e frame now with ht | ⟨k, ht⟩
  · rw [ht]
    exact .keep
  · rw [ht]
    exact .arm k

/-- **Every call but bringing the node up makes a move on the timetable.** -/
theorem timetable_perform (e : Engine) (op : Operation) (now : Nat) :
    (∃ cfg a hostReady, op = .start cfg a hostReady ∧
      (e.perform op now).2.timetable = Timetable.configure cfg (seedOf a)) ∨
    Move e.timetable now (e.perform op now).2.timetable := by
  cases op with
  | start cfg a hostReady =>
    simp only [perform]
    split
    · exact Or.inr .keep
    · rename_i hs
      obtain ⟨-, -, rfl⟩ := start_of_ok hs
      exact Or.inl ⟨cfg, a, hostReady, rfl, rfl⟩
  | write h data =>
    simp only [perform]
    split
    · exact Or.inr .keep
    · rename_i hw
      obtain ⟨-, r, -, -, -, rfl⟩ := write_of_ok hw
      exact Or.inr (.arm h)
  | read h => rw [perform_read_snd]; exact Or.inr .keep
  | stamp h => rw [perform_stamp_snd]; exact Or.inr .keep
  | request h =>
    rcases perform_request_snd e h now with hsame | ⟨t, ht, hs⟩
    · rw [hsame]
      exact Or.inr .keep
    · rw [hs]
      exact Or.inr (.request ht)
  | takeNotice =>
    rcases perform_takeNotice_snd e now with hsame | ⟨n, inbox, -, hs⟩
    · rw [hsame]
      exact Or.inr .keep
    · rw [hs]
      exact Or.inr .keep
  | signal sig => exact Or.inr (move_signal e sig now)
  | windowRefused => exact Or.inr .keep
  | receive frame => exact Or.inr (move_receive e frame now)

/-- **Once a node is up, every call makes a move on the timetable.** -/
theorem move_perform {e : Engine} (up : e.isUp = true) (op : Operation) (now : Nat) :
    Move e.timetable now (e.perform op now).2.timetable := by
  rcases timetable_perform e op now with ⟨cfg, a, hostReady, rfl, -⟩ | hm
  · rw [perform_start_of_isUp up]
    exact .keep
  · exact hm

/-- **The turn is always at a handle of the table or at none.** -/
theorem Reachable.turn {e : Engine} (he : e.Reachable) : e.timetable.TurnValid := by
  refine he.of_perform (P := fun e => e.timetable.TurnValid) (Or.inl rfl) fun {e} op now _ hv => ?_
  rcases timetable_perform e op now with ⟨cfg, a, hostReady, -, ht⟩ | hm
  · rw [ht]
    exact Or.inl rfl
  · exact hm.turnValid hv

/-- **The shortest interval of a node that is up is that of its settings.** -/
theorem Reachable.interval {e : Engine} {cfg : Settings} (he : e.Reachable) (up : e.settings = .ok cfg) :
    e.timetable.interval = cfg.interval := by
  refine he.of_perform (P := fun e => ∀ cfg, e.settings = .ok cfg → e.timetable.interval = cfg.interval) nofun
    (fun {e} op now he kept cfg up => ?_) cfg up
  cases hup : e.isUp with
  | true =>
    obtain ⟨cfg₀, up₀⟩ := exists_settings_of_isUp hup
    cases up.symm.trans (settings_perform up₀ op now)
    exact (move_perform hup op now).interval.trans (kept cfg up₀)
  | false =>
    rcases (step_perform e op now).of_down hup with ⟨cfg', a, up', -, ht⟩ | ⟨same, -⟩
    · cases up.symm.trans up'
      rw [ht]
      rfl
    · rw [isUp_of_settings (same.symm.trans up)] at hup
      cases hup

end Engine
end ValueMesh
