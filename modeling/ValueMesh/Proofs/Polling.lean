import Mathlib.Data.List.Forall2
import ValueMesh.Proofs.Backoff
/-!
# Polling leaves no trace

Finding out what is due changes a timetable: waits that are over are found to be so.  All it changes is whether a value
counts as sent or as armed; due times and intervals stay, and so does what any later operation answers.  So polls may be
put into a history wherever one likes, at times that are early or late (`polling_leaves_no_trace`).
-/
namespace ValueMesh

section Lists

variable {α β γ : Type} {R : α → β → Prop} {l : List α} {l' : List β}

/-- Lists related by `R` are filtered alike by functions that give the same for what is related. -/
theorem filterMap_eq_of_forall₂ {f : α → Option γ} {g : β → Option γ} (hl : List.Forall₂ R l l')
    (hfg : ∀ {a b}, R a b → f a = g b) : l.filterMap f = l'.filterMap g := by
  induction hl with
  | nil => rfl
  | cons hr _ ih => rw [List.filterMap_cons, List.filterMap_cons, hfg hr, ih]

theorem forall₂_set {a : α} {b : β} (hl : List.Forall₂ R l l') (hab : R a b) (i : Nat) :
    List.Forall₂ R (l.set i a) (l'.set i b) := by
  induction hl generalizing i with
  | nil => exact .nil
  | cons hr hrest ih =>
    cases i with
    | zero => exact .cons hab hrest
    | succ i => exact .cons hr (ih i)

theorem forall₂_zip_left (keys : List γ) (hl : List.Forall₂ R l l') :
    List.Forall₂ (fun p q : γ × _ => p.1 = q.1 ∧ R p.2 q.2) (keys.zip l) (keys.zip l') := by
  induction hl generalizing keys with
  | nil => rw [List.zip_nil_right, List.zip_nil_right]; exact .nil
  | cons hr _ ih =>
    cases keys with
    | nil => exact .nil
    | cons key keys => exact .cons ⟨rfl, hr⟩ (ih keys)

end Lists

namespace HandleTable

variable {α : Type} {R : α → α → Prop} {t t' : HandleTable α}

def Alike (R : α → α → Prop) (t t' : HandleTable α) : Prop := List.Forall₂ R t.slots t'.slots

theorem Alike.size (ha : Alike R t t') : t'.size = t.size := (List.Forall₂.length_eq ha).symm

theorem Alike.get? (ha : Alike R t t') (h : Handle) : (t.get? h = none ∧ t'.get? h = none) ∨
    ∃ a b, t.get? h = some a ∧ t'.get? h = some b ∧ R a b := by
  cases hg : t.get? h with
  | none =>
    refine Or.inl ⟨rfl, ?_⟩
    rw [get?_eq_none_iff] at hg ⊢
    rw [ha.size, hg]
  | some a =>
    obtain ⟨b, hb⟩ : ∃ b, t'.get? h = some b := by
      rw [← Option.isSome_iff_exists, isSome_get?, ha.size]
      exact within_of_get? hg
    refine Or.inr ⟨a, b, rfl, hb, ?_⟩
    unfold HandleTable.get? at hg hb
    split at hg
    · cases hg
    · rename_i h0
      rw [if_neg h0] at hb
      obtain ⟨hl, rfl⟩ := List.getElem?_eq_some_iff.1 hg
      obtain ⟨hl', rfl⟩ := List.getElem?_eq_some_iff.1 hb
      exact List.Forall₂.get ha hl hl'

theorem Alike.set (ha : Alike R t t') (h : Handle) {a b : α} (hab : R a b) : Alike R (t.set h a) (t'.set h b) :=
  forall₂_set ha hab h.toNat

theorem Alike.map {R' : α → α → Prop} {f g : α → α} (ha : Alike R t t') (hfg : ∀ {a b}, R a b → R' (f a) (g b)) :
    Alike R' (t.map f) (t'.map g) :=
  List.forall₂_map_left_iff.2 (List.forall₂_map_right_iff.2 (List.Forall₂.imp (fun _ _ => hfg) ha))

theorem Alike.entries (ha : Alike R t t') :
    List.Forall₂ (fun p q : Handle × α => p.1 = q.1 ∧ R p.2 q.2) t.entries t'.entries := by
  have hhandles : t'.handles = t.handles := by rw [handles, handles, ha.size]
  rw [HandleTable.entries, HandleTable.entries, hhandles]
  exact forall₂_zip_left t.handles (List.forall₂_drop 1 ha)

end HandleTable

/-- The wait of the second timer is that of the first, and may have been found to be over. -/
inductive Timer.Polled : Timer → Timer → Prop
  | same (timer : Timer) : Polled timer timer
  | elapsed (sentAt due interval : Nat) : Polled (.sent sentAt due interval) (.armed due interval)

namespace Timer.Polled

variable {a b : Timer}

theorem due? (hp : a.Polled b) : b.due? = a.due? := by cases hp <;> rfl

theorem interval? (hp : a.Polled b) : b.interval? = a.interval? := by cases hp <;> rfl

theorem poll (hp : a.Polled b) (now : Nat) : a.Polled (b.promote now) := by
  cases hp with
  | same =>
    cases a with
    | idle | armed => exact .same _
    | sent sentAt due interval =>
      unfold Timer.promote
      simp only
      split
      · exact .elapsed ..
      · exact .same _
  | elapsed sentAt due interval => exact .elapsed ..

/-- Two timers that are polled at the same time differ at most in a wait that was found to be over too early. -/
theorem promote_cases (hp : a.Polled b) (now : Nat) : b.promote now = a.promote now ∨
    ∃ sentAt due interval, now < due ∧ a.promote now = .sent sentAt due interval ∧
      b.promote now = .armed due interval := by
  cases hp with
  | same => exact Or.inl rfl
  | elapsed sentAt due interval =>
    by_cases past : due ≤ now
    · exact Or.inl (if_pos past).symm
    · exact Or.inr ⟨sentAt, due, interval, Nat.not_le.1 past, if_neg past, rfl⟩

theorem promote (hp : a.Polled b) (now : Nat) : (a.promote now).Polled (b.promote now) := by
  rcases hp.promote_cases now with hs | ⟨sentAt, due, interval, -, ha, hb⟩
  · rw [hs]
    exact .same _
  · rw [ha, hb]
    exact .elapsed ..

end Timer.Polled

structure Slot.Polled (a b : Slot) : Prop where
  timer : a.timer.Polled b.timer
  requested : b.requested = a.requested

namespace Timetable

variable [Jitter]

structure Polled (t t' : Timetable) : Prop where
  slots : HandleTable.Alike Slot.Polled t.slots t'.slots
  interval : t'.interval = t.interval
  lastServed : t'.lastServed = t.lastServed
  generator : t'.generator = t.generator

variable {t t' : Timetable} {h : Handle} {now : Nat}

theorem Polled.refl (t : Timetable) : t.Polled t where
  slots := List.forall₂_same.2 fun _ _ => ⟨.same _, rfl⟩
  interval := rfl
  lastServed := rfl
  generator := rfl

/-! ## What can be told of a timetable -/

theorem Polled.timer? (hp : t.Polled t') (h : Handle) : t'.timer? h = t.timer? h ∨
    ∃ sentAt due interval, t.timer? h = some (.sent sentAt due interval) ∧
      t'.timer? h = some (.armed due interval) := by
  rcases hp.slots.get? h with ⟨hn, hn'⟩ | ⟨a, b, ha, hb, hab⟩
  · exact Or.inl (by rw [Timetable.timer?, hn', Timetable.timer?, hn])
  · rw [timer?_of_slot ha, timer?_of_slot hb]
    have htimer := hab.timer
    generalize a.timer = x at htimer ⊢
    generalize b.timer = y at htimer ⊢
    cases htimer with
    | same => exact Or.inl rfl
    | elapsed sentAt due interval => exact Or.inr ⟨sentAt, due, interval, rfl, rfl⟩

theorem Polled.due? (hp : t.Polled t') (h : Handle) : t'.due? h = t.due? h := by
  rw [due?_eq_bind, due?_eq_bind]
  rcases hp.timer? h with hs | ⟨sentAt, due, interval, ht, ht'⟩
  · rw [hs]
  · rw [ht, ht']
    rfl

theorem Polled.interval? (hp : t.Polled t') (h : Handle) : t'.interval? h = t.interval? h := by
  rw [Timetable.interval?, Timetable.interval?]
  rcases hp.timer? h with hs | ⟨sentAt, due, interval, ht, ht'⟩
  · rw [hs]
  · rw [ht, ht']
    rfl

theorem Polled.requested (hp : t.Polled t') (h : Handle) : t'.requested h = t.requested h := by
  rcases hp.slots.get? h with ⟨hn, hn'⟩ | ⟨a, b, ha, hb, hab⟩
  · rw [Timetable.requested, hn', Timetable.requested, hn]
  · rw [Timetable.requested, hb, Timetable.requested, ha, Option.map_some, Option.map_some, hab.requested]

theorem Polled.earliestDue (hp : t.Polled t') : t'.earliestDue = t.earliestDue :=
  congrArg List.min? (filterMap_eq_of_forall₂ hp.slots.entries fun hpq => hpq.2.timer.due?.symm).symm

/-! ## What is chosen -/

theorem Polled.promote (hp : t.Polled t') (now : Nat) : (t.promote now).Polled (t'.promote now) where
  slots := hp.slots.map fun hs => ⟨hs.timer.promote now, hs.requested⟩
  interval := hp.interval
  lastServed := hp.lastServed
  generator := hp.generator

theorem Polled.poll (hp : t.Polled t') (now : Nat) : t.Polled (t'.promote now) where
  slots := by
    have polled : HandleTable.Alike Slot.Polled (t.slots.map id) (t'.slots.map (Slot.promote now)) :=
      hp.slots.map fun hs => ⟨hs.timer.poll now, hs.requested⟩
    rwa [show t.slots.map id = t.slots from congrArg HandleTable.mk (List.map_id _)] at polled
  interval := hp.interval
  lastServed := hp.lastServed
  generator := hp.generator

theorem Polled.distance (hp : t.Polled t') : t'.distance = t.distance := by
  funext h
  rw [Timetable.distance, Timetable.distance, hp.lastServed, hp.slots.size]

theorem Polled.pending (hp : t.Polled t') : t'.pending = t.pending := by
  have hfilter : List.Forall₂ (fun x y : Handle × Slot => x.1 = y.1 ∧ x.2.Polled y.2)
      (t.slots.entries.filter (·.2.requested)) (t'.slots.entries.filter (·.2.requested)) :=
    List.rel_filter (fun _ _ hxy => iff_of_eq (congrArg (· = true) hxy.2.requested.symm)) hp.slots.entries
  have hmap : List.Forall₂ (· = ·) t.pending t'.pending := List.rel_map (fun _ _ hxy => hxy.1) hfilter
  rw [List.forall₂_eq_eq_eq] at hmap
  exact hmap.symm

theorem Polled.ready (hp : t.Polled t') (now : Nat) : (t'.promote now).ready now = (t.promote now).ready now := by
  have hslots : HandleTable.Alike (fun a b : Slot => b.timer = a.timer ∨ ∃ sentAt due interval, now < due ∧
      a.timer = .sent sentAt due interval ∧ b.timer = .armed due interval)
      (t.promote now).slots (t'.promote now).slots :=
    hp.slots.map fun hs => hs.timer.promote_cases now
  refine (filterMap_eq_of_forall₂ hslots.entries fun {x y} hxy => ?_).symm
  obtain ⟨h, timer, asked⟩ := x
  obtain ⟨k, timer', asked'⟩ := y
  simp only at hxy
  obtain ⟨rfl, rfl | ⟨sentAt, due, interval, early, rfl, rfl⟩⟩ := hxy
  · rfl
  · exact (if_neg (Nat.not_le.2 early)).symm

/-- **What was polled before changes nothing about what is chosen.** -/
theorem Polled.next (hp : t.Polled t') (now : Nat) : (t'.next now).1 = (t.next now).1 := by
  have hp' := hp.promote now
  have hsooner : (t'.promote now).sooner = (t.promote now).sooner := by
    funext a b
    rw [Timetable.sooner, Timetable.sooner, hp'.distance]
  show (t'.promote now).choice now = (t.promote now).choice now
  unfold choice
  rw [hp'.pending, hp'.distance, hsooner, hp.ready now]

/-! ## Two histories side by side -/

theorem Polled.jitter (hp : t.Polled t') (m : Nat) : t'.jitter m = t.jitter m := by
  rw [Timetable.jitter, Timetable.jitter, hp.generator]

theorem Polled.backoff (hp : t.Polled t') (previous now lastActivity : Nat) :
    t'.backoff previous now lastActivity = t.backoff previous now lastActivity := by
  rw [Timetable.backoff, Timetable.backoff, maxInterval, maxInterval, hp.interval]

theorem Polled.arm (hp : t.Polled t') (h : Handle) (now : Nat) : (t.arm h now).Polled (t'.arm h now) := by
  unfold Timetable.arm
  rcases hp.slots.get? h with ⟨hn, hn'⟩ | ⟨a, b, ha, hb, hab⟩
  · rw [hn, hn']
    exact hp
  · rw [ha, hb, hp.interval, hp.jitter]
    exact ⟨hp.slots.set h ⟨.same _, hab.requested⟩, hp.interval, hp.lastServed, rfl⟩

theorem Polled.request (hp : t.Polled t') (h : Handle) :
    (t.request h = .error .invalidAddr ∧ t'.request h = .error .invalidAddr) ∨
    ∃ u u', t.request h = .ok u ∧ t'.request h = .ok u' ∧ u.Polled u' := by
  unfold Timetable.request
  rcases hp.slots.get? h with ⟨hn, hn'⟩ | ⟨a, b, ha, hb, hab⟩
  · rw [hn, hn']
    exact Or.inl ⟨rfl, rfl⟩
  · rw [ha, hb]
    exact Or.inr ⟨_, _, rfl, rfl, hp.slots.set h ⟨hab.timer, rfl⟩, hp.interval, hp.lastServed, hp.generator⟩

theorem Polled.complete (hp : t.Polled t') (item : Item) (now lastActivity : Nat) :
    (t.complete item now lastActivity).Polled (t'.complete item now lastActivity) := by
  cases item with
  | request h =>
    rcases hp.slots.get? h with ⟨hn, hn'⟩ | ⟨a, b, ha, hb, hab⟩
    · simp only [Timetable.complete, hn, hn']
      exact hp
    · simp only [Timetable.complete, ha, hb]
      exact ⟨hp.slots.set h ⟨hab.timer, rfl⟩, hp.interval, rfl, hp.generator⟩
  | value h =>
    rcases hp.slots.get? h with ⟨hn, hn'⟩ | ⟨a, b, ha, hb, hab⟩
    · simp only [Timetable.complete, hn, hn']
      exact hp
    · simp only [Timetable.complete, ha, hb, hab.timer.interval?]
      split
      · exact hp
      · simp only [hp.backoff, hp.jitter]
        exact ⟨hp.slots.set h ⟨.same _, hab.requested⟩, hp.interval, rfl, rfl⟩

theorem Polled.serve (hp : t.Polled t') (now lastActivity : Nat) :
    (t.serve now lastActivity).2.Polled (t'.serve now lastActivity).2 := by
  have hp' : (t.next now).2.Polled (t'.next now).2 := hp.promote now
  cases hn : (t.next now).1 with
  | none =>
    rw [serve_of_none lastActivity hn, serve_of_none lastActivity ((hp.next now).trans hn)]
    exact hp'
  | some item =>
    rw [serve_of_next lastActivity hn, serve_of_next lastActivity ((hp.next now).trans hn)]
    exact hp'.complete item now lastActivity

/-- **No operation answers or does anything else than without the polls.** -/
theorem Polled.perform (hp : t.Polled t') (op : Operation) :
    t'.answer op = t.answer op ∧ (t.perform op).Polled (t'.perform op) := by
  cases op with
  | arm h now => exact ⟨rfl, hp.arm h now⟩
  | request h =>
    simp only [answer, Timetable.perform]
    rcases hp.request h with ⟨he, he'⟩ | ⟨u, u', hu, hu', polled⟩
    · rw [he, he']
      exact ⟨rfl, hp⟩
    · rw [hu, hu']
      exact ⟨rfl, polled⟩
  | next now => exact ⟨congrArg Answer.chosen (hp.next now), hp.promote now⟩
  | complete item now lastActivity => exact ⟨rfl, hp.complete item now lastActivity⟩
  | serve now lastActivity =>
    refine ⟨congrArg Answer.chosen ?_, hp.serve now lastActivity⟩
    rw [serve_fst, serve_fst]
    exact hp.next now

inductive Padded
  /-- A poll put in, at any time. -/
  | poll (now : Nat)
  /-- An operation of the history itself. -/
  | own (op : Operation)
  deriving DecidableEq, Repr

namespace Padded

def operation : Padded → Operation
  | poll now => .next now
  | own op => op

def own? : Padded → Option Operation
  | poll _ => none
  | own op => some op

end Padded

/-- What the callers of a history are answered when polls are put into it; what the polls are answered is left out. -/
def ownAnswers (t : Timetable) : List Padded → List Answer
  | [] => []
  | .poll now :: rest => (t.next now).2.ownAnswers rest
  | .own op :: rest => t.answer op :: (t.perform op).ownAnswers rest

theorem Polled.run : ∀ (steps : List Padded) {t t' : Timetable}, t.Polled t' →
    t'.ownAnswers steps = t.answers (steps.filterMap Padded.own?) ∧
    (t.run (steps.filterMap Padded.own?)).Polled (t'.run (steps.map Padded.operation))
  | [], _, _, hp => ⟨rfl, hp⟩
  | .poll now :: rest, _, _, hp => Polled.run rest (hp.poll now)
  | .own op :: rest, _, _, hp => by
    obtain ⟨answered, hp'⟩ := hp.perform op
    obtain ⟨answers, polled⟩ := Polled.run rest hp'
    exact ⟨congr (congrArg List.cons answered) answers, polled⟩

/-- **Polling leaves no trace.**  Put polls into any history of any timetable, wherever and at whatever times.  Every
operation of the history is answered as without them, so the windows go to the same items, and at its end, as at any
point before, the same requests wait, the same values are due at the same times with the same intervals, and the same
waits will be drawn.  All there is to tell the two apart is whether a value that was sent already counts as armed for
the time it is due.  A timetable that fits the machine is followed by it up to `Machine.latest`, with the polls and
without. -/
theorem polling_leaves_no_trace (t : Timetable) (steps : List Padded) :
    let plain := t.run (steps.filterMap Padded.own?)
    let polled := t.run (steps.map Padded.operation)
    t.ownAnswers steps = t.answers (steps.filterMap Padded.own?) ∧
    polled.earliestDue = plain.earliestDue ∧ polled.generator = plain.generator ∧
    (∀ h, polled.requested h = plain.requested h ∧ polled.due? h = plain.due? h ∧
      polled.interval? h = plain.interval? h ∧
      (polled.timer? h = plain.timer? h ∨ ∃ sentAt due interval, plain.timer? h = some (.sent sentAt due interval) ∧
        polled.timer? h = some (.armed due interval))) ∧
    (t.Fits → t.Followed (steps.filterMap Padded.own?) ∧ t.Followed (steps.map Padded.operation)) := by
  intro plain polled
  obtain ⟨answers, hp⟩ := Polled.run steps (.refl t)
  exact ⟨answers, hp.earliestDue, hp.generator,
    fun h => ⟨hp.requested h, hp.due? h, hp.interval? h, hp.timer? h⟩,
    fun fits => ⟨fits.followed _, fits.followed _⟩⟩

end Timetable
end ValueMesh
