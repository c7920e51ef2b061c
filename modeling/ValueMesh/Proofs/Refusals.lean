import ValueMesh.Proofs.Isolation
/-!
# What is refused, and that nothing is changed by it

Whether an operation is refused, and why, is settled by the settings a node was brought up with and by what is asked
(`refusal?`); neither what the node holds nor the time matters.  An engine that is changed in place is the same after a
refusal, though replicas, timetable and inbox are changed one after the other: what may be refused is found out before
the first of them is changed.
-/
namespace ValueMesh
namespace Machine

/-! ## Calls that are never refused -/

namespace Call

variable {σ τ α β : Type}

/-- Whatever the state, the call is not refused; it may stop the machine. -/
def Willing (x : Call σ α) : Prop := ∀ s f s', x s ≠ .ok (.error f, s')

theorem willing_bind {x : Call σ α} {f : α → Call σ β} (hx : x.Willing) (hf : ∀ a, (f a).Willing) :
    (x >>= f).Willing := by
  intro s e s'
  cases hs : x s with
  | error stop =>
    rw [bind_of_stop hs]
    nofun
  | ok p =>
    obtain ⟨r, s₁⟩ := p
    cases r with
    | error e' => exact absurd hs (hx s e' s₁)
    | ok a =>
      rw [bind_of_ok hs]
      exact hf a s₁ e s'

theorem willing_pure (a : α) : (pure a : Call σ α).Willing := nofun

theorem willing_state : (state : Call σ σ).Willing := nofun

theorem willing_change (f : σ → σ) : (change f).Willing := nofun

theorem willing_check (x : Checked α) : (check x : Call σ α).Willing := by
  intro s f s'
  cases x <;> nofun

theorem willing_attempt (x : Call σ α) : x.attempt.Willing := by
  intro s f s'
  rw [attempt]
  cases x s <;> rintro ⟨⟩

theorem willing_on {x : Call τ α} (hx : x.Willing) (part : σ → τ) (put : σ → τ → σ) : (x.on part put).Willing := by
  intro s f s' refused
  rw [on] at refused
  cases hs : x (part s) with
  | error stop =>
    rw [hs] at refused
    cases refused
  | ok p =>
    obtain ⟨r, t⟩ := p
    rw [hs] at refused
    cases refused
    exact hx (part s) f t hs

end Call

open Call

variable [Jitter]

theorem willing_putSlot (h : Handle) (s : Slot) : (putSlot h s).Willing :=
  willing_bind willing_state fun _ => willing_bind (willing_check _) fun _ => willing_change _

theorem willing_jitter (m : Nat) : (jitter m).Willing :=
  willing_bind willing_state fun _ => willing_bind (willing_change _) fun _ => willing_pure _

theorem willing_arm (h : Handle) (now : Nat) : (arm h now).Willing := by
  refine willing_bind willing_state fun t => ?_
  split
  · refine willing_bind (willing_check _) fun micros => willing_bind (willing_jitter _) fun delay => ?_
    exact willing_bind (willing_check _) fun due => willing_bind (willing_check _) fun s => willing_putSlot h _
  · exact willing_pure _

theorem willing_next (now : Nat) : (next now).Willing := by
  refine willing_bind (willing_change _) fun _ => willing_bind willing_state fun t => ?_
  refine willing_bind (willing_check _) fun all => willing_bind (willing_check _) fun first => ?_
  cases first with
  | some h => exact willing_pure _
  | none => exact willing_bind (willing_check _) fun chosen => willing_pure _

theorem willing_complete (item : Item) (now lastActivity : Nat) : (complete item now lastActivity).Willing := by
  refine willing_bind willing_state fun t => ?_
  cases item with
  | request h =>
    dsimp only
    split
    · refine willing_bind (willing_check _) fun s => ?_
      exact willing_bind (willing_putSlot h _) fun _ => willing_change _
    · exact willing_pure _
  | value h =>
    dsimp only
    split
    · refine willing_bind (willing_check _) fun s => ?_
      cases s.timer.interval? with
      | none => exact willing_pure _
      | some previous =>
        refine willing_bind (willing_check _) fun stable => willing_bind (willing_check _) fun stableMicros => ?_
        refine willing_bind (willing_check _) fun micros => willing_bind (willing_jitter _) fun delay => ?_
        refine willing_bind (willing_check _) fun rest => willing_bind (willing_check _) fun due => ?_
        exact willing_bind (willing_putSlot h _) fun _ => willing_change _
    · exact willing_pure _

omit [Jitter] in
theorem willing_push (n : Notice) : (push n).Willing := by
  refine willing_bind willing_state fun q => ?_
  split <;> exact willing_bind (willing_check _) fun pending => willing_bind (willing_change _) fun _ => willing_pure _

theorem willing_send (item : Item) (adv : Advertisement) (mesh : UInt32) (now lastActivity : Nat) :
    (send item adv mesh now lastActivity).Willing := by
  refine willing_bind (willing_check _) fun encoded => ?_
  refine willing_bind (willing_on (willing_complete _ _ _) _ _) fun _ => ?_
  cases encoded with
  | error _ => exact willing_pure _
  | ok frame => exact willing_bind (willing_change _) fun _ => willing_pure _

theorem willing_takeFrame (mesh : UInt32) (now : Nat) : (takeFrame mesh now).Willing := by
  refine willing_bind (willing_on (willing_next now) _ _) fun item => willing_bind willing_state fun e => ?_
  match item with
  | none => exact willing_pure _
  | some (.request h) => exact willing_send _ _ mesh now now
  | some (.value h) =>
    refine willing_bind (willing_attempt _) fun found => ?_
    cases found with
    | error _ => exact willing_pure _
    | ok r => exact willing_send _ _ mesh now r.lastActivity

theorem willing_signal (sig : Signal) (now : Nat) : (signal sig now).Willing := by
  refine willing_bind willing_state fun before => willing_bind (willing_change _) fun _ => ?_
  cases (before.session.signal sig now).1 with
  | none | requestWindow | continueWindow | closeWindow => exact willing_pure _
  | openWindow =>
    refine willing_bind willing_state fun e => ?_
    cases e.settings with
    | error _ => exact willing_pure _
    | ok cfg => exact willing_bind (willing_takeFrame _ _) fun frame => willing_pure _

theorem willing_answerRequest (h : Handle) (now : Nat) : (answerRequest h now).Willing := by
  refine willing_bind (willing_attempt _) fun found => ?_
  cases found with
  | error _ => exact willing_pure _
  | ok r =>
    dsimp only
    split
    · exact willing_bind (willing_on (willing_arm h now) _ _) fun _ => willing_pure _
    · exact willing_pure _

theorem willing_hearCopy (c : Copy) (now : Nat) : (hearCopy c now).Willing := by
  have counts : ∀ v, (countAccepted v).Willing := fun v => by
    unfold countAccepted
    split
    · exact willing_change _
    · exact willing_pure _
  have rearms : ∀ v, (rearm v c.handle now).Willing := fun v => by
    unfold rearm
    split
    · exact willing_on (willing_arm _ _) _ _
    · exact willing_pure _
  have delivers : ∀ n, (deliver n).Willing := fun n => by
    cases n with
    | none => exact willing_pure _
    | some n =>
      show (onInbox (push n)).Willing
      exact willing_on (willing_push n) _ _
  refine willing_bind (willing_attempt _) fun heard => ?_
  cases heard with
  | error _ => exact willing_bind (willing_change _) fun _ => willing_pure _
  | ok p =>
    refine willing_bind (counts _) fun _ => willing_bind (rearms _) fun _ => ?_
    exact willing_bind (delivers _) fun evicted => willing_pure _

theorem willing_receive (frame : List UInt8) (now : Nat) : (receive frame now).Willing := by
  refine willing_bind willing_state fun e => ?_
  split
  · refine willing_bind (willing_check _) fun decoded => ?_
    cases decoded with
    | error _ => exact willing_bind (willing_change _) fun _ => willing_pure _
    | ok adv =>
      dsimp only
      split
      · cases adv.kind with
        | request => exact willing_answerRequest _ _
        | value => exact willing_hearCopy _ _
      · exact willing_bind (willing_change _) fun _ => willing_pure _
  · exact willing_pure _

theorem not_refused {α : Type} {x : Call Engine α} {g : α → Engine.Answer} {op : Engine.Operation} {now : Nat}
    {e e' : Engine} {f : Fault} (calls : call op now = x >>= fun a => pure (g a)) (willing : x.Willing)
    (told : ∀ a, g a ≠ .refused f) : perform op now e ≠ .ok (.refused f, e') := by
  cases made : x e with
  | error stop =>
    rw [perform_of_stop calls made]
    nofun
  | ok p =>
    obtain ⟨r, e₁⟩ := p
    cases r with
    | error f' => exact absurd made (willing e f' e₁)
    | ok a =>
      rw [perform_of_ok calls made]
      exact fun same => told a (congrArg Prod.fst (Except.ok.inj same))

end Machine

namespace Engine

variable [Jitter] {e : Engine} {cfg : Settings} {op : Operation} {h : Handle} {data : List UInt8} {now : Nat}
  {f : Fault}

def Answer.fault? : Answer → Option Fault
  | .refused f => some f
  | _ => none

omit [Jitter] in
theorem Answer.fault?_eq_some_iff {a : Answer} : a.fault? = some f ↔ a = .refused f := by
  cases a <;> simp [fault?]

theorem perform_of_fault? (refused : (e.perform op now).1.fault? = some f) : e.perform op now = (.refused f, e) := by
  have told := Answer.fault?_eq_some_iff.1 refused
  exact Prod.ext told (perform_of_refused told)

/-! ## In place -/

/-- **An engine that is changed in place is refused what its calls refuse, and is the same after it**, at any time. -/
theorem perform_in_place_of_fault? (he : e.Reachable) (refused : (e.perform op now).1.fault? = some f) :
    Machine.perform op now e = .ok (.refused f, e) := by
  rw [← perform_of_fault? refused]
  cases op with
  | start cfg a hostReady => exact Machine.perform_start cfg a hostReady now e
  | write h data =>
    rcases Machine.perform_write_cases he.fits h data now with made | ⟨-, -, version, evicted, written⟩
    · exact made
    · rw [written] at refused
      cases refused
  | read h => exact Machine.perform_read he.fits h now
  | stamp h => exact Machine.perform_stamp he.fits h now
  | request h => exact Machine.perform_request he.fits h now
  | takeNotice => exact Machine.perform_takeNotice now e
  | windowRefused => rfl
  | signal | receive => nomatch refused

theorem not_refused_in_place (he : e.Reachable) (none : (e.perform op now).1.fault? = none) (f : Fault) (e' : Engine) :
    Machine.perform op now e ≠ .ok (.refused f, e') := by
  have other : ∀ made : Machine.perform op now e = .ok (e.perform op now),
      Machine.perform op now e ≠ .ok (.refused f, e') := by
    intro made refused
    have same := congrArg Prod.fst (Except.ok.inj (made.symm.trans refused))
    rw [same] at none
    cases none
  cases op with
  | start cfg a hostReady => exact other (Machine.perform_start cfg a hostReady now e)
  | write h data =>
    rcases Machine.perform_write_cases he.fits h data now with made | ⟨-, stops, -⟩
    · exact other made
    · rw [stops]
      nofun
  | read h => exact other (Machine.perform_read he.fits h now)
  | stamp h => exact other (Machine.perform_stamp he.fits h now)
  | request h => exact other (Machine.perform_request he.fits h now)
  | takeNotice => exact other (Machine.perform_takeNotice now e)
  | windowRefused => exact other rfl
  | signal sig =>
    have calls : Machine.call (.signal sig) now = Machine.signal sig now >>= fun t => pure (.task t) := rfl
    exact Machine.not_refused calls (Machine.willing_signal sig now) nofun
  | receive frame =>
    have calls : Machine.call (.receive frame) now = Machine.receive frame now >>= fun r => pure (.received r) := rfl
    exact Machine.not_refused calls (Machine.willing_receive frame now) nofun

/-! ## Before and after a node is brought up -/

def Answer.brings : Answer → Operation → Option (Settings × Address)
  | .done, .start cfg a _ => some (cfg, a)
  | _, _ => none

/-- The settings and the address a node is brought up with in a history, those of the first start not refused. -/
def brought (e : Engine) : List (Operation × Nat) → Option (Settings × Address)
  | [] => none
  | (op, now) :: rest => ((e.perform op now).1.brings op).or ((e.perform op now).2.brought rest)

theorem settings_of_brings {a : Address} (brings : (e.perform op now).1.brings op = some (cfg, a)) :
    (e.perform op now).2.settings = .ok cfg ∧ (e.perform op now).2.address = a := by
  unfold Answer.brings at brings
  split at brings
  · rename_i done
    cases brings
    exact perform_start_of_done done
  · cases brings

theorem identity_run (up : e.settings = .ok cfg) (history : List (Operation × Nat)) :
    (e.run history).settings = .ok cfg ∧ (e.run history).address = e.address := by
  induction history generalizing e with
  | nil => exact ⟨up, rfl⟩
  | cons x rest ih =>
    obtain ⟨settings, address⟩ := ih (settings_perform up x.1 x.2)
    exact ⟨settings, address.trans (address_perform up x.1 x.2)⟩

theorem not_isUp_perform (down : e.isUp = false) (brings : (e.perform op now).1.brings op = none) :
    (e.perform op now).2.isUp = false := by
  refine Bool.eq_false_iff.2 fun hup => ?_
  obtain ⟨cfg, up⟩ := exists_settings_of_isUp hup
  rcases (step_perform e op now).identity with ⟨same, -⟩ | ⟨cfg', a, hostReady, rfl, -⟩
  · rw [isUp_of_settings (same.symm.trans up)] at down
    cases down
  · cases hs : e.start cfg' a hostReady with
    | error f =>
      simp only [perform, hs] at hup
      rw [hup] at down
      cases down
    | ok e' =>
      simp only [perform, hs] at brings
      cases brings

/-- **A node is as it was made until it is brought up, and then keeps the settings and the address it was brought up
with.** -/
theorem brought_cases (history : List (Operation × Nat)) :
    match fresh.brought history with
    | none => fresh.run history = fresh
    | some (cfg, a) => (fresh.run history).settings = .ok cfg ∧ (fresh.run history).address = a := by
  induction history with
  | nil => rfl
  | cons x rest ih =>
    obtain ⟨op, now⟩ := x
    rw [brought, run]
    cases brings : (fresh.perform op now).1.brings op with
    | some p =>
      obtain ⟨cfg, a⟩ := p
      obtain ⟨up, address⟩ := settings_of_brings brings
      obtain ⟨settings, kept⟩ := identity_run up rest
      exact ⟨settings, kept.trans address⟩
    | none =>
      rw [(reachable_fresh.perform op now).eq_fresh (not_isUp_perform rfl brings)]
      exact ih

/-! ## What is refused -/

/-- What an operation is refused for, on a node that was brought up with `own` or not yet, if it is refused. -/
def refusal? (own : Option (Settings × Address)) : Operation → Option Fault
  | .start cfg _ hostReady =>
    if own.isSome then some .invalidState
    else if ¬ cfg.InRange then some .invalidParam
    else if hostReady then none
    else some .dependencyNotReady
  | .write h data =>
    match own with
    | none => some .invalidState
    | some (cfg, _) =>
      if h = 0 ∨ cfg.handleCount ≤ h then some .invalidAddr
      else if maxValueBytes < data.length then some .invalidLength
      else none
  | .read h | .stamp h | .request h =>
    match own with
    | none => some .invalidState
    | some (cfg, _) => if h = 0 ∨ cfg.handleCount ≤ h then some .invalidAddr else none
  | .takeNotice | .signal _ | .windowRefused | .receive _ => none

/-- What an operation that is not refused is answered.  Only a write, a reading and a stamp ask for a replica, and a
write tells whether it found the inbox full. -/
def success? (e : Engine) (now : Nat) : Operation → Option Answer
  | .start .. | .request _ | .windowRefused => some .done
  | .write h _ => (e.store.replicas.get? h).map fun r =>
    .written (r.version + 1) (decide (Inbox.capacity ≤ e.inbox.pending.length))
  | .read h => (e.store.replicas.get? h).map fun r => .bytes r.data
  | .stamp h => (e.store.replicas.get? h).map fun r => .stamp r.version r.origin
  | .takeNotice => some (.notice e.inbox.pending.head?)
  | .signal sig => some (.task (e.signal sig now).1)
  | .receive frame => some (.received (e.receive frame now).1)

omit [Jitter] in
theorem push_fst (q : Inbox) (n : Notice) : (q.push n).1 = decide (Inbox.capacity ≤ q.pending.length) := by
  by_cases full : Inbox.capacity ≤ q.pending.length
  · rw [Inbox.push_of_full n full, decide_eq_true full]
  · rw [Inbox.push_of_room n (Nat.not_le.1 full), decide_eq_false full]

theorem read_of_ok (answered : e.read h = .ok data) : ∃ r, e.store.replicas.get? h = some r ∧ data = r.data := by
  obtain ⟨cfg, -, found⟩ := bind_eq_ok_iff.1 answered
  cases held : e.store.replica h with
  | error f =>
    rw [Store.read, held] at found
    cases found
  | ok r =>
    rw [Store.read, held] at found
    cases found
    exact ⟨r, Store.replica_eq_ok_iff.1 held, rfl⟩

theorem stamp_of_ok {p : Version × Address} (answered : e.stamp h = .ok p) :
    ∃ r, e.store.replicas.get? h = some r ∧ p = (r.version, r.origin) := by
  obtain ⟨cfg, -, found⟩ := bind_eq_ok_iff.1 answered
  obtain ⟨r, held, told⟩ := bind_eq_ok_iff.1 found
  cases told
  exact ⟨r, Store.replica_eq_ok_iff.1 held, rfl⟩

/-- **What is not refused is answered as a success.** -/
theorem success?_of_fault? (willing : (e.perform op now).1.fault? = none) :
    e.success? now op = some (e.perform op now).1 := by
  cases op with
  | start cfg a hostReady =>
    simp only [perform] at willing ⊢
    cases started : e.start cfg a hostReady with
    | error f =>
      rw [started] at willing
      cases willing
    | ok e' => rfl
  | write h data =>
    cases written : e.write h data now with
    | error f =>
      simp only [perform, written] at willing
      cases willing
    | ok p =>
      obtain ⟨⟨version, evicted⟩, e'⟩ := p
      obtain ⟨-, r, held, -, told, -⟩ := write_of_ok written
      cases told
      rw [perform_write_of_ok written, success?, held, ← push_fst]
      rfl
  | read h =>
    simp only [perform] at willing ⊢
    cases answered : e.read h with
    | error f =>
      rw [answered] at willing
      cases willing
    | ok data =>
      obtain ⟨r, held, rfl⟩ := read_of_ok answered
      rw [success?, held]
      rfl
  | stamp h =>
    simp only [perform] at willing ⊢
    cases answered : e.stamp h with
    | error f =>
      rw [answered] at willing
      cases willing
    | ok p =>
      obtain ⟨r, held, rfl⟩ := stamp_of_ok answered
      rw [success?, held]
      rfl
  | request h =>
    simp only [perform] at willing ⊢
    cases asked : e.request h with
    | error f =>
      rw [asked] at willing
      cases willing
    | ok e' => rfl
  | takeNotice =>
    simp only [perform, takeNotice, Inbox.pop, success?]
    cases e.inbox.pending <;> rfl
  | signal | windowRefused | receive => rfl

theorem fault?_perform_fresh (op : Operation) (now : Nat) : (fresh.perform op now).1.fault? = refusal? none op := by
  cases op with
  | start cfg a hostReady =>
    have down : fresh.isUp = false := rfl
    by_cases inRange : cfg.InRange
    · cases hostReady with
      | false => simp [perform, refusal?, start_of_hostDown down inRange, inRange, Answer.fault?]
      | true => simp [perform, refusal?, start_of_down down inRange, inRange, Answer.fault?]
    · simp [perform, refusal?, start_of_outOfRange down inRange, inRange, Answer.fault?]
  | write | read | stamp | request | takeNotice | signal | windowRefused | receive => rfl

/-- A node that is up has the handles from 1 on that its settings name. -/
theorem Reachable.get?_cases (he : e.Reachable) (up : e.settings = .ok cfg) (h : Handle) :
    (h = 0 ∨ cfg.handleCount ≤ h) ∧ e.store.replicas.get? h = none ∨
    ¬ (h = 0 ∨ cfg.handleCount ≤ h) ∧ ∃ r, e.store.replicas.get? h = some r := by
  have covers : h.within e.store.replicas.size = h.within cfg.handleCount.toNat := he.sound.covers up
  have missing : e.store.replicas.get? h = none ↔ h = 0 ∨ cfg.handleCount ≤ h := by
    rw [HandleTable.get?_eq_none_iff, covers]
    simp [Handle.within, UInt16.le_iff_toNat_le, Classical.or_iff_not_imp_left]
  cases held : e.store.replicas.get? h with
  | none => exact Or.inl ⟨missing.1 held, rfl⟩
  | some r =>
    refine Or.inr ⟨fun beyond => ?_, r, rfl⟩
    rw [missing.2 beyond] at held
    cases held

theorem fault?_perform (he : e.Reachable) (up : e.settings = .ok cfg) (a : Address) (op : Operation) (now : Nat) :
    (e.perform op now).1.fault? = refusal? (some (cfg, a)) op := by
  cases op with
  | start =>
    rw [perform_start_of_isUp (isUp_of_settings up)]
    rfl
  | write h data =>
    rw [perform_write up, refusal?]
    rcases he.get?_cases up h with ⟨beyond, none⟩ | ⟨within, r, held⟩
    · simp only [none, if_pos beyond, Answer.fault?]
    · simp only [held, if_neg within]
      split <;> rfl
  | read h =>
    simp only [perform, read, up, Store.read, Store.replica, refusal?]
    rcases he.get?_cases up h with ⟨beyond, none⟩ | ⟨within, r, held⟩
    · rw [none, if_pos beyond]
      rfl
    · rw [held, if_neg within]
      rfl
  | stamp h =>
    simp only [perform, stamp, up, Store.replica, refusal?]
    rcases he.get?_cases up h with ⟨beyond, none⟩ | ⟨within, r, held⟩
    · rw [none, if_pos beyond]
      rfl
    · rw [held, if_neg within]
      rfl
  | request h =>
    rw [perform_request_fst up, refusal?, he.fits.slots]
    rcases he.get?_cases up h with ⟨beyond, none⟩ | ⟨within, r, held⟩
    · have uncovered : h.within e.store.handleCount = false := HandleTable.get?_eq_none_iff.1 none
      simp only [uncovered, if_pos beyond]
      rfl
    · have covered : h.within e.store.handleCount = true := HandleTable.within_of_get? held
      simp only [covered, if_neg within]
      rfl
  | takeNotice =>
    simp only [perform]
    split <;> rfl
  | signal | windowRefused | receive => rfl

/-- **Refusals are exact and change nothing.**  Whatever was done to an engine, an operation is refused just when and
for what `refusal?` says, by the settings the engine was brought up with; then the engine stays as it is, and so does
one that is changed in place, at whatever time.  Any other operation succeeds and is answered so; in place it is never
refused, and up to `Machine.latest` it does the same.  An engine that was not brought up yet is as it was made, whatever
was tried; one that was keeps its settings and its address for good. -/
theorem refusals_are_exact (history : List (Operation × Nat)) :
    let e := fresh.run history
    let own := fresh.brought history
    (∀ op now,
      match refusal? own op with
      | some f => e.perform op now = (.refused f, e) ∧ Machine.perform op now e = .ok (.refused f, e)
      | none => (∀ f, (e.perform op now).1 ≠ .refused f) ∧ e.success? now op = some (e.perform op now).1 ∧
        (∀ f e', Machine.perform op now e ≠ .ok (.refused f, e')) ∧
        (now ≤ Machine.latest → Machine.perform op now e = .ok (e.perform op now))) ∧
    match own with
    | none => e = fresh
    | some (cfg, a) => ∀ later, (e.run later).settings = .ok cfg ∧ (e.run later).address = a := by
  intro e own
  have reached : e.Reachable := ⟨history, rfl⟩
  have identity : match own with
      | none => e = fresh
      | some (cfg, a) => e.settings = .ok cfg ∧ e.address = a := brought_cases history
  clear_value own
  have told : ∀ op now, (e.perform op now).1.fault? = refusal? own op := by
    cases own with
    | none =>
      rw [show e = fresh from identity]
      exact fault?_perform_fresh
    | some p => exact fault?_perform reached identity.1 p.2
  refine ⟨fun op now => ?_, ?_⟩
  · cases refused : refusal? own op with
    | some f =>
      have fault := (told op now).trans refused
      exact ⟨perform_of_fault? fault, perform_in_place_of_fault? reached fault⟩
    | none =>
      have none := (told op now).trans refused
      refine ⟨fun f told => ?_, success?_of_fault? none, not_refused_in_place reached none,
        fun early => Machine.perform_eq reached early op⟩
      rw [told] at none
      cases none
  · cases own with
    | none => exact identity
    | some p =>
      intro later
      obtain ⟨settings, address⟩ := identity_run identity.1 later
      exact ⟨settings, address.trans identity.2⟩

end Engine
end ValueMesh
