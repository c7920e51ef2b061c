import ValueMesh.Proofs.SerialWindow
import ValueMesh.Store
/-!
# What hearing a copy leaves in the store

The copy a store holds of a value is its replica without the bookkeeping: `copy?` answers it once any version was
written or heard.  Hearing a copy of a length that can be held always succeeds, leaves the newer of the two copies
(`copy?_hear`), and touches no other value (`get?_hear_of_ne`).
-/
namespace ValueMesh

/-- The copy that stays when `c` meets what is held: `c` itself if nothing is held or `c` is newer. -/
def Copy.upon (c : Copy) : Option Copy → Copy
  | none => c
  | some d => if Version.newer c.version d.version then c else d

theorem Copy.upon_of_newer {c d : Copy} (h : Version.newer c.version d.version = true) : c.upon (some d) = c := if_pos h

theorem Copy.upon_of_not_newer {c d : Copy} (h : Version.newer c.version d.version = false) : c.upon (some d) = d := by
  rw [upon, h]; rfl

theorem Copy.upon_eq_or (c : Copy) (held : Option Copy) : c.upon held = c ∨ held = some (c.upon held) := by
  cases held with
  | none => exact Or.inl rfl
  | some d =>
    rw [upon]
    split
    · exact Or.inl rfl
    · exact Or.inr rfl

/-! ## Verdicts -/

theorem Verdict.not_accepts_of_not_rearms {v : Verdict} (h : v.rearms = false) : v.accepts = false := by
  cases v with
  | acceptNew | acceptUpdate => cases h
  | conflict | knownConflict | stale | duplicate => rfl

namespace Replica

theorem judge_of_newer {r : Replica} {c : Copy} (hr : r.allocated = true)
    (hn : Version.newer c.version r.version = true) : r.judge c = .acceptUpdate := by
  rw [judge, hr, hn]; rfl

theorem judge_of_older {r : Replica} {c : Copy} (hr : r.allocated = true)
    (hn : Version.newer r.version c.version = true) : r.judge c = .stale := by
  have hne : c.version ≠ r.version := (Version.ne_of_newer hn).symm
  simp [judge, hr, Version.not_newer_of_newer hn, hne]

theorem judge_of_same {r : Replica} {c : Copy} (hr : r.allocated = true) (hv : c.version = r.version)
    (hd : c.data = r.data) : r.judge c = .duplicate := by
  simp [judge, hr, hv, hd, Version.newer_irrefl]

theorem judge_of_rival {r : Replica} {c : Copy} (hr : r.allocated = true) (hv : c.version = r.version)
    (hd : c.data ≠ r.data) :
    r.judge c = if r.knows (Mark.ofCopy c) then .knownConflict else .conflict := by
  simp [judge, hr, hv, hd, Version.newer_irrefl]

theorem judge_eq_acceptNew_iff {r : Replica} {c : Copy} : r.judge c = .acceptNew ↔ r.allocated = false := by
  constructor
  · intro hj
    cases ha : r.allocated with
    | false => rfl
    | true =>
      unfold judge at hj
      simp only [ha, Bool.not_true, Bool.false_eq_true, if_false] at hj
      repeat' split at hj
      all_goals cases hj
  · intro blank
    rw [judge, blank]
    rfl

theorem accepts_judge (r : Replica) (c : Copy) :
    (r.judge c).accepts = (!r.allocated || Version.newer c.version r.version) := by
  unfold judge
  cases r.allocated with
  | false => rfl
  | true =>
    cases Version.newer c.version r.version with
    | true => rfl
    | false =>
      simp only [Bool.not_true, Bool.false_eq_true, if_false, Bool.or_false]
      split
      · rfl
      · split
        · rfl
        · split <;> rfl

def hear (r : Replica) (c : Copy) (now : Nat) : Replica :=
  match r.judge c with
  | .acceptNew | .acceptUpdate => ofCopy c now
  | .conflict => r.remember (Mark.ofCopy c) now
  | .knownConflict | .stale | .duplicate => r

theorem hear_of_accepts {r : Replica} {c : Copy} (now : Nat) (h : (r.judge c).accepts = true) :
    r.hear c now = ofCopy c now := by
  unfold hear
  cases hj : r.judge c with
  | acceptNew | acceptUpdate => rfl
  | conflict | knownConflict | stale | duplicate => rw [hj] at h; cases h

theorem allocated_remember (r : Replica) (m : Mark) (now : Nat) : (r.remember m now).allocated = r.allocated := by
  unfold remember; split <;> rfl

theorem hear_of_not_accepts {r : Replica} {c : Copy} (now : Nat) (h : (r.judge c).accepts = false) (k : Handle) :
    (r.hear c now).allocated = r.allocated ∧ (r.hear c now).toCopy k = r.toCopy k := by
  unfold hear
  cases hj : r.judge c with
  | acceptNew | acceptUpdate => rw [hj] at h; cases h
  | conflict => exact ⟨allocated_remember .., toCopy_remember ..⟩
  | knownConflict | stale | duplicate => exact ⟨rfl, rfl⟩

/-- The copy a replica holds of the value of `h`, once any version was written or heard. -/
def copy? (r : Replica) (h : Handle) : Option Copy := if r.allocated then some (r.toCopy h) else none

theorem copy?_eq_some_iff {r : Replica} {h : Handle} {c : Copy} :
    r.copy? h = some c ↔ r.allocated = true ∧ r.toCopy h = c := by
  unfold copy?
  cases r.allocated <;> simp

/-- **The newer copy stays**, and of two copies of one version the one held. -/
theorem copy?_hear (r : Replica) (c : Copy) (now : Nat) :
    (r.hear c now).copy? c.handle = some (c.upon (r.copy? c.handle)) := by
  have ha := accepts_judge r c
  cases hj : (r.judge c).accepts with
  | true =>
    rw [hj] at ha
    rw [hear_of_accepts now hj]
    show some c = _
    cases hr : r.allocated with
    | false => rw [copy?, hr]; rfl
    | true =>
      rw [hr, Bool.not_true, Bool.false_or] at ha
      simp only [copy?, hr, if_true, Copy.upon, toCopy, ← ha]
  | false =>
    obtain ⟨hr', ht⟩ := hear_of_not_accepts now hj c.handle
    rw [hj] at ha
    obtain ⟨hr, hn⟩ := Bool.or_eq_false_iff.1 ha.symm
    rw [Bool.not_eq_false'] at hr
    rw [copy?, hr', ht, copy?, hr]
    simp only [if_true, Copy.upon, toCopy, hn, Bool.false_eq_true, if_false]

end Replica

/-! ## Marks -/

theorem mem_remembered {ms : List Mark} {m x : Mark} (hx : x ∈ Replica.remembered ms m) : x ∈ ms ∨ x = m := by
  unfold Replica.remembered at hx
  split at hx
  · exact (List.mem_append.1 hx).imp_right List.mem_singleton.1
  · exact (List.mem_append.1 hx).imp List.mem_of_mem_drop List.mem_singleton.1

theorem nodup_append_singleton {ms : List Mark} {m : Mark} (hms : ms.Nodup) (hm : m ∉ ms) : (ms ++ [m]).Nodup := by
  refine List.nodup_append.2 ⟨hms, List.pairwise_singleton .., fun a ha b hb => ?_⟩
  rw [List.mem_singleton.1 hb]
  exact fun hab => hm (hab ▸ ha)

theorem nodup_remembered {ms : List Mark} {m : Mark} (hms : ms.Nodup) (hm : m ∉ ms) :
    (Replica.remembered ms m).Nodup := by
  unfold Replica.remembered
  split
  · exact nodup_append_singleton hms hm
  · exact nodup_append_singleton (hms.sublist (List.drop_sublist 1 ms)) fun h => hm (List.mem_of_mem_drop h)

namespace Replica

structure Orderly (r : Replica) : Prop where
  nodup : r.marks.Nodup
  few : r.marks.length ≤ 3
  version : ∀ m ∈ r.marks, m.version = r.version
  blank : r.allocated = false → r.marks = []

theorem orderly_of_no_marks {r : Replica} (none : r.marks = []) : r.Orderly where
  nodup := none ▸ List.nodup_nil
  few := none ▸ Nat.zero_le 3
  version m hm := by
    rw [none] at hm
    cases hm
  blank _ := none

theorem knows_iff {r : Replica} {m : Mark} : r.knows m = true ↔ m ∈ r.marks := List.contains_iff_mem

theorem remember_of_new {r : Replica} {m : Mark} (hm : r.knows m = false) (now : Nat) :
    r.remember m now = { r with marks := remembered r.marks m, lastActivity := now } := by
  rw [remember, hm]
  rfl

theorem Orderly.remember {r : Replica} {m : Mark} (hr : r.Orderly) (held : r.allocated = true)
    (hm : r.knows m = false) (version : m.version = r.version) (now : Nat) : (r.remember m now).Orderly := by
  have hnew : m ∉ r.marks := by
    rw [← knows_iff, hm]
    exact Bool.false_ne_true
  rw [remember_of_new hm]
  refine ⟨nodup_remembered hr.nodup hnew, length_remembered_le m hr.few, fun x hx => ?_, fun ha => ?_⟩
  · rcases mem_remembered hx with hx | rfl
    · exact hr.version x hx
    · exact version
  · rw [show r.allocated = false from ha] at held
    cases held

theorem Orderly.hear {r : Replica} (hr : r.Orderly) (c : Copy) (now : Nat) : (r.hear c now).Orderly := by
  unfold Replica.hear
  cases hj : r.judge c with
  | acceptNew | acceptUpdate => exact orderly_of_no_marks rfl
  | conflict =>
    obtain ⟨ha, hv, -, hk⟩ := judge_eq_conflict_iff.1 hj
    exact hr.remember ha hk hv now
  | knownConflict | stale | duplicate => exact hr

end Replica

namespace Store

/-! ## The copy held of a value -/

def copy? (s : Store) (h : Handle) : Option Copy := (s.replicas.get? h).bind (·.copy? h)

theorem copy?_of_get? {s : Store} {h : Handle} {r : Replica} (hr : s.replicas.get? h = some r) :
    s.copy? h = r.copy? h := by
  rw [copy?, hr]; rfl

theorem copy?_eq_some_iff {s : Store} {h : Handle} {c : Copy} :
    s.copy? h = some c ↔ ∃ r, s.replicas.get? h = some r ∧ r.allocated = true ∧ r.toCopy h = c := by
  unfold copy?
  rw [Option.bind_eq_some_iff]
  simp only [Replica.copy?_eq_some_iff]

theorem isSome_copy?_of_allocated {s : Store} {h : Handle} {r : Replica} (hr : s.replicas.get? h = some r)
    (ha : r.allocated = true) : (s.copy? h).isSome = true := by
  rw [copy?_of_get? hr, Replica.copy?, if_pos ha]; rfl

theorem covers_iff_exists_get? {s : Store} {h : Handle} : s.covers h = true ↔ ∃ r, s.replicas.get? h = some r := by
  unfold covers handleCount
  rw [← HandleTable.isSome_get?, Option.isSome_iff_exists]

theorem copy?_configure (s : Store) (count : Nat) (h : Handle) : (s.configure count).copy? h = none := by
  rw [copy?, configure, HandleTable.get?_fill]
  split <;> rfl

theorem get?_put_self {s : Store} {h : Handle} {r₀ : Replica} (r : Replica) (hr : s.replicas.get? h = some r₀) :
    (s.put h r).replicas.get? h = some r := by
  rw [get?_put, if_pos rfl, hr]; rfl

theorem get?_put_of_ne {s : Store} {h k : Handle} (r : Replica) (hk : k ≠ h) :
    (s.put h r).replicas.get? k = s.replicas.get? k := by
  rw [get?_put, if_neg hk]

/-! ## Hearing -/

theorem hear_of_beyond {s : Store} {c : Copy} (beyond : s.replicas.get? c.handle = none) (now : Nat) :
    s.hear c now = (.error .invalidAddr, s) := by
  rw [hear, beyond]

theorem hear_of_held {s : Store} {c : Copy} {r : Replica} (held : s.replicas.get? c.handle = some r) (now : Nat) :
    s.hear c now =
      (if maxValueBytes < c.data.length ∧ (r.judge c).ignored = false then .error .invalidLength
        else .ok (r.judge c, announcement c (r.judge c)), s.follow c r now (r.judge c)) := by
  rw [hear, held]

theorem hear_of_get? {s : Store} {c : Copy} {r : Replica} (now : Nat) (hr : s.replicas.get? c.handle = some r)
    (hl : c.data.length ≤ maxValueBytes) :
    s.hear c now = (.ok (r.judge c, announcement c (r.judge c)), s.follow c r now (r.judge c)) := by
  rw [hear_of_held hr, if_neg fun refused => Nat.not_lt.2 hl refused.1]

theorem handleCount_hear (s : Store) (c : Copy) (now : Nat) : (s.hear c now).2.handleCount = s.handleCount := by
  unfold hear
  split
  · rfl
  · rename_i r hr
    show (s.follow c r now (r.judge c)).handleCount = _
    cases r.judge c with
    | acceptNew | acceptUpdate =>
      rw [follow]
      split
      · rfl
      · exact handleCount_put ..
    | conflict => exact handleCount_put s c.handle (r.remember (Mark.ofCopy c) now)
    | knownConflict | stale | duplicate => rfl

theorem get?_hear {s : Store} {c : Copy} {r : Replica} (now : Nat) (hr : s.replicas.get? c.handle = some r)
    (hl : c.data.length ≤ maxValueBytes) : (s.hear c now).2.replicas.get? c.handle = some (r.hear c now) := by
  rw [hear_of_get? now hr hl]
  show (s.follow c r now (r.judge c)).replicas.get? c.handle = _
  unfold Replica.hear
  cases r.judge c with
  | acceptNew | acceptUpdate =>
    rw [follow, if_neg (Nat.not_lt.2 hl)]
    exact get?_put_self _ hr
  | conflict => exact get?_put_self (r.remember (Mark.ofCopy c) now) hr
  | knownConflict | stale | duplicate => exact hr

/-- **A copy touches only the replica it is about.** -/
theorem get?_hear_of_ne {s : Store} {c : Copy} {k : Handle} (now : Nat) (hk : k ≠ c.handle) :
    (s.hear c now).2.replicas.get? k = s.replicas.get? k := by
  unfold hear
  split
  · rfl
  · rename_i r hr
    show (s.follow c r now (r.judge c)).replicas.get? k = _
    cases r.judge c with
    | acceptNew | acceptUpdate =>
      rw [follow]
      split
      · rfl
      · exact get?_put_of_ne _ hk
    | conflict => exact get?_put_of_ne (r.remember (Mark.ofCopy c) now) hk
    | knownConflict | stale | duplicate => rfl

theorem copy?_hear_of_ne {s : Store} {c : Copy} {k : Handle} (now : Nat) (hk : k ≠ c.handle) :
    (s.hear c now).2.copy? k = s.copy? k := by
  rw [copy?, copy?, get?_hear_of_ne now hk]

theorem copy?_hear {s : Store} {c : Copy} (now : Nat) (hc : s.covers c.handle = true)
    (hl : c.data.length ≤ maxValueBytes) : (s.hear c now).2.copy? c.handle = some (c.upon (s.copy? c.handle)) := by
  obtain ⟨r, hr⟩ := covers_iff_exists_get?.1 hc
  rw [copy?_of_get? (get?_hear now hr hl), copy?_of_get? hr, Replica.copy?_hear]

end Store
end ValueMesh
