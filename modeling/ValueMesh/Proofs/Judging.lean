import ValueMesh.Proofs.InPlace
import ValueMesh.Proofs.Rivals
/-!
# A copy is treated as it is judged

A copy is judged once, on the store as it lies.  What is then done goes back to the replica and asks it again, what it
holds and whether it knows the mark, and it is here that bytes no value can hold are refused.  Still the two always
agree (`copy_is_treated_as_judged`).
-/
namespace ValueMesh

/-! ## Stores that fit the machine -/

theorem Replica.length_marks_remember_le {r : Replica} (few : r.marks.length ≤ maxMarks) (m : Mark) (now : Nat) :
    (r.remember m now).marks.length ≤ maxMarks := by
  unfold remember
  split
  · exact few
  · exact length_remembered_le m few

namespace Store

/-- What the memory laid out for a store has room for; every store there is fits (`Arises.fits`). -/
structure Fits (s : Store) : Prop where
  small : s.handleCount ≤ Settings.maxHandles
  few : ∀ {h : Handle} {r : Replica}, s.replicas.get? h = some r → r.marks.length ≤ maxMarks

variable {s : Store} {c : Copy} {r : Replica}

theorem fits_fresh : fresh.Fits where
  small := Nat.zero_le _
  few {h _} held := by
    have none : fresh.replicas.get? h = none := by
      rw [HandleTable.get?_eq_none_iff, Bool.eq_false_iff]
      exact fun within => absurd (Handle.within_iff_pos.1 within).2 (Nat.not_lt_zero _)
    rw [none] at held
    cases held

theorem fits_configure (s : Store) (count : Nat) : (s.configure count).Fits where
  small := by
    show (HandleTable.fill _ _).size ≤ _
    rw [HandleTable.size_fill]
    exact Nat.min_le_right ..
  few {h r} held := by
    rw [configure, HandleTable.get?_fill] at held
    split at held
    · cases held
      exact Nat.zero_le _
    · cases held

theorem Fits.put (fits : s.Fits) (h : Handle) (few : r.marks.length ≤ maxMarks) : (s.put h r).Fits where
  small := (handleCount_put s h r).symm ▸ fits.small
  few {k r'} held := by
    rw [get?_put] at held
    split at held
    · obtain ⟨_, -, rfl⟩ := Option.map_eq_some_iff.1 held
      exact few
    · exact fits.few held

theorem Fits.write {s' : Store} {h : Handle} {data : List UInt8} {origin : Address} {now : Nat} {v : Version}
    (fits : s.Fits) (written : s.write h data origin now = .ok (v, s')) : s'.Fits := by
  obtain ⟨r, -, -, -, rfl⟩ := write_of_ok written
  exact fits.put h (Nat.zero_le _)

theorem Fits.adopt {s' : Store} {now : Nat} {a : Adoption} (fits : s.Fits) (adopted : s.adopt c now = .ok (a, s')) :
    s'.Fits := by
  obtain ⟨r, -, adopted⟩ := bind_eq_ok_iff.1 adopted
  split at adopted
  · cases adopted
    exact fits.put c.handle (Nat.zero_le _)
  split at adopted
  · cases adopted
    exact fits
  · cases adopted
    exact fits.put c.handle (Nat.zero_le _)

theorem Fits.remember {s' : Store} {h : Handle} {m : Mark} {now : Nat} {new : Bool} (fits : s.Fits)
    (remembered : s.remember h m now = .ok (new, s')) : s'.Fits := by
  obtain ⟨r, held, remembered⟩ := bind_eq_ok_iff.1 remembered
  cases remembered
  exact fits.put h (Replica.length_marks_remember_le (fits.few (replica_eq_ok_iff.1 held)) m now)

theorem Fits.follow (fits : s.Fits) (held : s.replicas.get? c.handle = some r) (now : Nat) (v : Verdict) :
    (s.follow c r now v).Fits := by
  cases v with
  | acceptNew | acceptUpdate =>
    rw [Store.follow]
    split
    · exact fits
    · exact fits.put c.handle (Nat.zero_le _)
  | conflict =>
    have put := fits.put c.handle (Replica.length_marks_remember_le (fits.few held) (Mark.ofCopy c) now)
    exact ⟨put.small, put.few⟩
  | knownConflict => exact ⟨fits.small, fits.few⟩
  | stale | duplicate => exact fits

theorem Fits.hear (fits : s.Fits) (c : Copy) (now : Nat) : (s.hear c now).2.Fits := by
  cases held : s.replicas.get? c.handle with
  | none =>
    rw [hear_of_beyond held]
    exact fits
  | some r =>
    rw [hear_of_held held]
    exact fits.follow held now (r.judge c)

inductive Arises : Store → Prop
  | fresh : Arises fresh
  | configure {s : Store} (arises : Arises s) (count : Nat) : Arises (s.configure count)
  | write {s s' : Store} {h : Handle} {data : List UInt8} {origin : Address} {now : Nat} {v : Version}
    (arises : Arises s) (written : s.write h data origin now = .ok (v, s')) : Arises s'
  | adopt {s s' : Store} {c : Copy} {now : Nat} {a : Adoption} (arises : Arises s)
    (adopted : s.adopt c now = .ok (a, s')) : Arises s'
  | remember {s s' : Store} {h : Handle} {m : Mark} {now : Nat} {new : Bool} (arises : Arises s)
    (remembered : s.remember h m now = .ok (new, s')) : Arises s'
  | hear {s : Store} (arises : Arises s) (c : Copy) (now : Nat) : Arises (s.hear c now).2

theorem Arises.fits (arises : s.Arises) : s.Fits := by
  induction arises with
  | fresh => exact fits_fresh
  | configure _ count _ => exact fits_configure _ count
  | write _ written fits => exact fits.write written
  | adopt _ adopted fits => exact fits.adopt adopted
  | remember _ remembered fits => exact fits.remember remembered
  | hear _ c now fits => exact fits.hear c now

/-! ## What is done after a verdict -/

theorem judge_of_held (held : s.replicas.get? c.handle = some r) : s.judge c = .ok (r.judge c) := by
  rw [judge, replica_eq_ok_iff.2 held]
  rfl

theorem judge_of_beyond (beyond : s.replicas.get? c.handle = none) : s.judge c = .error .invalidAddr := by
  rw [judge, replica_eq_error_iff.2 ⟨HandleTable.get?_eq_none_iff.1 beyond, rfl⟩]
  rfl

theorem replicas_follow_of_ignored (s : Store) (c : Copy) (r : Replica) (now : Nat) {v : Verdict}
    (ignored : v.ignored = true) : (s.follow c r now v).replicas = s.replicas := by
  cases v with
  | acceptNew | acceptUpdate | conflict => cases ignored
  | knownConflict | stale | duplicate => rfl

theorem follow_of_long (s : Store) (r : Replica) (now : Nat) {v : Verdict} (long : maxValueBytes < c.data.length)
    (accepts : v.accepts = true) : s.follow c r now v = s := by
  cases v with
  | acceptNew | acceptUpdate => exact if_pos long
  | conflict | knownConflict | stale | duplicate => cases accepts

theorem get?_follow_of_accepts (held : s.replicas.get? c.handle = some r) (now : Nat) {v : Verdict}
    (short : c.data.length ≤ maxValueBytes) (accepts : v.accepts = true) :
    (s.follow c r now v).replicas.get? c.handle = some (Replica.ofCopy c now) := by
  cases v with
  | acceptNew | acceptUpdate =>
    rw [follow, if_neg (Nat.not_lt.2 short)]
    exact get?_put_self _ held
  | conflict | knownConflict | stale | duplicate => cases accepts

theorem conflicts_follow (s : Store) (c : Copy) (r : Replica) (now : Nat) (v : Verdict) :
    (s.follow c r now v).conflicts =
      if v = .conflict ∨ v = .knownConflict then Tally.bump s.conflicts else s.conflicts := by
  cases v with
  | acceptNew | acceptUpdate =>
    rw [follow]
    split <;> rfl
  | conflict | knownConflict | stale | duplicate => rfl

theorem isSome_announcement (c : Copy) (v : Verdict) : (announcement c v).isSome = !v.ignored := by
  cases v <;> rfl

theorem announcement_eq_some {c : Copy} {v : Verdict} {n : Notice} (h : announcement c v = some n) :
    n.handle = c.handle ∧ n.data = c.data ∧ n.origin = c.origin ∧ (n.kind = .newVal ↔ v = .acceptNew) ∧
    (n.kind = .updateVal ↔ v = .acceptUpdate) ∧ (n.kind = .conflictingVal ↔ v = .conflict) := by
  cases v with
  | acceptNew | acceptUpdate | conflict =>
    cases h
    simp
  | knownConflict | stale | duplicate => cases h

end Store

/-! ## Bytes no value can hold -/

namespace Machine

open Call (state_bind change_bind bind_of_ok bind_of_refused ask_bind_of_refused)

variable {s : Store} {c : Copy} {r : Replica}

theorem adopt_of_long (covered : s.covers c.handle = true) (long : maxValueBytes < c.data.length) (now : Nat) :
    adopt c now s = .ok (.error .invalidLength, s) := by
  rw [adopt, state_bind, covered, if_pos rfl, ask_bind_of_refused (copyIn_of_lt long)]

theorem hear_of_long (fits : s.Fits) (held : s.replicas.get? c.handle = some r)
    (long : maxValueBytes < c.data.length) (now : Nat) : hear c now s = .ok (s.hear c now) := by
  have found : replica c.handle s = .ok (.ok r, s) := by
    rw [replica_eq fits.small, Store.replica_eq_ok_iff.2 held]
  rw [hear, bind_of_ok found, Store.hear_of_held held]
  cases hj : r.judge c with
  | acceptNew | acceptUpdate =>
    have refused := adopt_of_long (HandleTable.within_of_get? held) long now
    rw [Store.follow_of_long s r now long rfl, if_pos ⟨long, rfl⟩]
    exact bind_of_refused refused _
  | conflict =>
    -- The mark is in before the bytes are refused.
    have new := (Replica.judge_eq_conflict_iff.1 hj).2.2.2
    have remembered := remember_of_new (s := { s with conflicts := Tally.bump s.conflicts }) held fits.small
      (fits.few held) new now
    simp only [change_bind, bind_of_ok remembered, ask_bind_of_refused (copyIn_of_lt long)]
    rw [if_pos ⟨long, rfl⟩]
    rfl
  | knownConflict | stale | duplicate =>
    rw [if_neg fun refused => Bool.noConfusion refused.2]
    rfl

/-- **Judging and doing agree**, for bytes of any length and any handle. -/
theorem hear_of_fits (fits : s.Fits) (c : Copy) (now : Nat) : hear c now s = .ok (s.hear c now) := by
  cases held : s.replicas.get? c.handle with
  | none =>
    have refused : replica c.handle s = .ok (.error .invalidAddr, s) := by
      rw [replica_eq fits.small, Store.replica_eq_error_iff.2 ⟨HandleTable.get?_eq_none_iff.1 held, rfl⟩]
    rw [hear, bind_of_refused refused, Store.hear_of_beyond held]
  | some r =>
    by_cases short : c.data.length ≤ maxValueBytes
    · rw [hear_eq held fits.small short (fits.few held), Store.hear_of_get? now held short]
    · exact hear_of_long fits held (Nat.not_le.1 short) now

end Machine

/-! ## What comes of a verdict -/

namespace Store

variable {s : Store} {c : Copy} {now : Nat}

/-- An answer is the verdict on the copy and what is told of it, and then the bytes can be held or are not wanted. -/
theorem answer_of_hear {v : Verdict} {n? : Option Notice} (answered : (s.hear c now).1 = .ok (v, n?)) :
    ∃ r, s.replicas.get? c.handle = some r ∧ r.judge c = v ∧ announcement c v = n? ∧
    (c.data.length ≤ maxValueBytes ∨ v.ignored = true) := by
  cases held : s.replicas.get? c.handle with
  | none =>
    rw [hear_of_beyond held] at answered
    cases answered
  | some r =>
    rw [hear_of_held held] at answered
    by_cases refused : maxValueBytes < c.data.length ∧ (r.judge c).ignored = false
    · rw [if_pos refused] at answered
      cases answered
    · rw [if_neg refused] at answered
      cases answered
      refine ⟨r, rfl, rfl, rfl, ?_⟩
      by_cases short : c.data.length ≤ maxValueBytes
      · exact Or.inl short
      · exact Or.inr (eq_true_of_ne_false fun wanted => refused ⟨Nat.not_le.1 short, wanted⟩)

theorem refusal_of_hear_iff {f : Fault} : (s.hear c now).1 = .error f ↔
    (s.covers c.handle = false ∧ f = .invalidAddr) ∨
    (maxValueBytes < c.data.length ∧ (∃ v, s.judge c = .ok v ∧ v.ignored = false) ∧ f = .invalidLength) := by
  cases held : s.replicas.get? c.handle with
  | none =>
    have beyond : s.covers c.handle = false := HandleTable.get?_eq_none_iff.1 held
    rw [hear_of_beyond held, judge_of_beyond held]
    constructor
    · intro refused
      cases refused
      exact Or.inl ⟨beyond, rfl⟩
    · rintro (⟨-, rfl⟩ | ⟨-, ⟨v, hv, -⟩, -⟩)
      · rfl
      · cases hv
  | some r =>
    have covered : s.covers c.handle = true := HandleTable.within_of_get? held
    rw [hear_of_held held, judge_of_held held, covered]
    constructor
    · intro answered
      split at answered
      · rename_i refused
        cases answered
        exact Or.inr ⟨refused.1, ⟨_, rfl, refused.2⟩, rfl⟩
      · cases answered
    · rintro (⟨beyond, -⟩ | ⟨long, ⟨v, hv, unignored⟩, rfl⟩)
      · cases beyond
      · cases hv
        exact if_pos ⟨long, unignored⟩

/-- A new rival is remembered, also if its bytes are refused. -/
theorem get?_hear_of_conflict (judged : s.judge c = .ok .conflict) : ∃ r, s.replicas.get? c.handle = some r ∧
    (s.hear c now).2.replicas.get? c.handle =
      some { r with marks := Replica.remembered r.marks (Mark.ofCopy c), lastActivity := now } := by
  cases held : s.replicas.get? c.handle with
  | none =>
    rw [judge_of_beyond held] at judged
    cases judged
  | some r =>
    rw [judge_of_held held] at judged
    have conflict := Except.ok.inj judged
    have new := (Replica.judge_eq_conflict_iff.1 conflict).2.2.2
    refine ⟨r, rfl, ?_⟩
    rw [hear_of_held held, conflict, ← Replica.remember_of_new new now]
    exact get?_put_self (r.remember (Mark.ofCopy c) now) held

theorem conflicts_hear_of_rival (rival : s.judge c = .ok .conflict ∨ s.judge c = .ok .knownConflict) :
    (s.hear c now).2.conflicts = Tally.bump s.conflicts := by
  cases held : s.replicas.get? c.handle with
  | none => obtain h | h := rival <;> rw [judge_of_beyond held] at h <;> cases h
  | some r =>
    rw [judge_of_held held] at rival
    rw [hear_of_held held, conflicts_follow, if_pos (rival.imp Except.ok.inj Except.ok.inj)]

theorem conflicts_hear_of_no_rival (new : s.judge c ≠ .ok .conflict) (known : s.judge c ≠ .ok .knownConflict) :
    (s.hear c now).2.conflicts = s.conflicts := by
  cases held : s.replicas.get? c.handle with
  | none => rw [hear_of_beyond held]
  | some r =>
    rw [judge_of_held held] at new known
    rw [hear_of_held held, conflicts_follow, if_neg]
    rintro (h | h)
    · exact new (congrArg Except.ok h)
    · exact known (congrArg Except.ok h)

/-- A refusal leaves the store as it was, unless the copy is a new rival. -/
theorem hear_of_refused {f : Fault} (refused : (s.hear c now).1 = .error f) (unrivalled : s.judge c ≠ .ok .conflict) :
    (s.hear c now).2 = s := by
  cases held : s.replicas.get? c.handle with
  | none => rw [hear_of_beyond held]
  | some r =>
    obtain ⟨beyond, -⟩ | ⟨long, ⟨v, hv, unignored⟩, -⟩ := refusal_of_hear_iff.1 refused
    · rw [covers_iff_exists_get?.2 ⟨r, held⟩] at beyond
      cases beyond
    · rw [judge_of_held held] at hv unrivalled
      cases hv
      have accepts : (r.judge c).accepts = true := by
        cases hj : r.judge c with
        | acceptNew | acceptUpdate => rfl
        | conflict => exact absurd (congrArg Except.ok hj) unrivalled
        | knownConflict | stale | duplicate =>
          rw [hj] at unignored
          cases unignored
      rw [hear_of_held held]
      exact follow_of_long s r now long accepts

end Store

/-- **A copy is treated as it is judged.**  Let a store that fits the machine hear any copy at any time, for any handle
and with any number of bytes.  The machine does not stop.  If the call returns, its verdict is the one on the store
before it; there is something to tell just when the verdict is not one that leaves the replica as it is, and what is
told has the handle, the bytes and the origin of the copy, and the kind of the verdict.  Then an ignored copy left every
replica as it was, and one that was accepted has taken the place of the replica, with no rivals remembered; a new rival
changed nothing but the marks and the time of the last activity.  No other replica changes.  Rivals are counted, new and
known ones, and nothing else is.  The call is refused just for a handle the store does not have and for bytes no value
can hold that would be taken over or told of, and a refusal leaves the store as it was, unless it is of a rival. -/
theorem copy_is_treated_as_judged {s : Store} (fits : s.Fits) (c : Copy) (now : Nat) :
    let answer := (s.hear c now).1
    let s' := (s.hear c now).2
    Machine.hear c now s = .ok (answer, s') ∧ s'.Fits ∧
    (∀ v n?, answer = .ok (v, n?) →
      s.judge c = .ok v ∧ n?.isSome = !v.ignored ∧
      (∀ n, n? = some n → n.handle = c.handle ∧ n.data = c.data ∧ n.origin = c.origin ∧
        (n.kind = .newVal ↔ v = .acceptNew) ∧ (n.kind = .updateVal ↔ v = .acceptUpdate) ∧
        (n.kind = .conflictingVal ↔ v = .conflict)) ∧
      (v.ignored = true → s'.replicas = s.replicas) ∧
      (v.accepts = true → s'.replicas.get? c.handle = some ⟨true, c.data, c.version, c.origin, now, []⟩)) ∧
    (s.judge c = .ok .conflict → ∃ r, s.replicas.get? c.handle = some r ∧ s'.replicas.get? c.handle =
      some { r with marks := Replica.remembered r.marks (Mark.ofCopy c), lastActivity := now }) ∧
    (∀ k, k ≠ c.handle → s'.replicas.get? k = s.replicas.get? k) ∧ s'.handleCount = s.handleCount ∧
    (s.judge c = .ok .conflict ∨ s.judge c = .ok .knownConflict → s'.conflicts = Tally.bump s.conflicts) ∧
    (s.judge c ≠ .ok .conflict → s.judge c ≠ .ok .knownConflict → s'.conflicts = s.conflicts) ∧
    ∀ f, (answer = .error f ↔ (s.covers c.handle = false ∧ f = .invalidAddr) ∨
        (maxValueBytes < c.data.length ∧ (∃ v, s.judge c = .ok v ∧ v.ignored = false) ∧ f = .invalidLength)) ∧
      (answer = .error f → s.judge c ≠ .ok .conflict → s' = s) := by
  intro answer s'
  refine ⟨Machine.hear_of_fits fits c now, fits.hear c now, ?_, Store.get?_hear_of_conflict,
    fun k => Store.get?_hear_of_ne now, Store.handleCount_hear s c now, Store.conflicts_hear_of_rival,
    Store.conflicts_hear_of_no_rival,
    fun f => ⟨Store.refusal_of_hear_iff, Store.hear_of_refused⟩⟩
  intro v n? answered
  obtain ⟨r, held, rfl, rfl, room⟩ := Store.answer_of_hear answered
  have after : s' = s.follow c r now (r.judge c) := congrArg Prod.snd (Store.hear_of_held held now)
  refine ⟨Store.judge_of_held held, Store.isSome_announcement c _, fun n => Store.announcement_eq_some, ?_, ?_⟩
  · intro ignored
    rw [after]
    exact Store.replicas_follow_of_ignored s c r now ignored
  · intro accepts
    have short : c.data.length ≤ maxValueBytes := room.resolve_right fun ignored => by
      cases hv : r.judge c <;> simp [hv, Verdict.accepts, Verdict.ignored] at accepts ignored
    rw [after]
    exact Store.get?_follow_of_accepts held now short accepts

/-- A rival of twenty-nine bytes is refused, and still it is counted and its mark remembered; a newer version of one
byte is taken over after it. -/
theorem rival_of_twenty_nine_bytes_is_remembered :
    let held : Copy := ⟨3, 1, .unset, [7]⟩
    let rival : Copy := ⟨3, 1, .unset, List.replicate 29 0⟩
    let newer : Copy := ⟨3, 2, .unset, [8]⟩
    let s := ((Store.fresh.configure 10).hear held 5).2
    let s' := (s.hear rival 6).2
    s.Fits ∧ s.judge rival = .ok .conflict ∧ Machine.hear rival 6 s = .ok (.error .invalidLength, s') ∧
    s'.conflicts = 1 ∧ s'.replicas.get? 3 = some ⟨true, [7], 1, .unset, 6, [Mark.ofCopy rival]⟩ ∧ s'.Fits ∧
    Machine.hear newer 7 s' = .ok (.ok (.acceptUpdate, some ⟨.updateVal, 3, [8], .unset⟩), (s'.hear newer 7).2) ∧
    (s'.hear newer 7).2.replicas.get? 3 = some ⟨true, [8], 2, .unset, 7, []⟩ := by
  intro held rival newer s s'
  have fits : s.Fits := ((Store.Arises.fresh.configure 10).hear held 5).fits
  have judged : s.judge rival = .ok .conflict :=
    (Store.judge_of_held (r := ⟨true, [7], 1, .unset, 5, []⟩) (by decide)).trans (congrArg Except.ok (by decide))
  obtain ⟨refuses, fits', -, remembers, -, -, counts, -, refused⟩ := copy_is_treated_as_judged fits rival 6
  obtain ⟨takes, -, answers, -⟩ := copy_is_treated_as_judged fits' newer 7
  have long : (s.hear rival 6).1 = .error .invalidLength :=
    (refused _).1.2 (Or.inr ⟨by decide, ⟨_, judged, rfl⟩, rfl⟩)
  obtain ⟨r, hr, after⟩ := remembers judged
  cases hr
  have judged' : Replica.judge ⟨true, [7], 1, .unset, 6, [Mark.ofCopy rival]⟩ newer = .acceptUpdate := by decide
  have short : (s'.hear newer 7).1 = .ok (.acceptUpdate, some ⟨.updateVal, 3, [8], .unset⟩) := by
    refine (congrArg Prod.fst (Store.hear_of_get? (c := newer) 7 after (by decide))).trans ?_
    exact congrArg (fun v => Except.ok (v, Store.announcement newer v)) judged'
  exact ⟨fits, judged, by rw [refuses, long], counts (Or.inl judged), after, fits', by rw [takes, short],
    (answers _ _ short).2.2.2.2 rfl⟩

end ValueMesh
