import ValueMesh.Proofs.Judging
/-!
# Copies a byte apart are told apart

A mark keeps a digest of four bytes in place of the bytes of a rival, so there are rivals it cannot tell apart.  They
are never just a byte apart.  A step of the digest can be taken back, so states that differ still differ after they
absorbed the same bytes, however many (`foldl_absorb_inj`).  A rival that is a byte apart from all that were reported is
reported as well (`copies_a_byte_apart_are_told_apart`).
-/
namespace ValueMesh

/-! ## Digests -/

namespace Digest

theorem mul_prime_inj {x y : UInt32} : x * 0x01000193 = y * 0x01000193 ↔ x = y := by
  -- The prime is odd, so some word is its inverse.
  have back (z : UInt32) : z * 0x01000193 * 0x359C449B = z := by
    rw [UInt32.mul_assoc, show (0x01000193 : UInt32) * 0x359C449B = 1 from rfl, UInt32.mul_one]
  constructor
  · intro h
    rw [← back x, h, back]
  · rintro rfl
    rfl

theorem absorb_left_inj {d d' : UInt32} {b : UInt8} : absorb d b = absorb d' b ↔ d = d' := by
  rw [absorb, absorb, mul_prime_inj, UInt32.xor_left_inj]

theorem absorb_right_inj {d : UInt32} {b b' : UInt8} : absorb d b = absorb d b' ↔ b = b' := by
  rw [absorb, absorb, mul_prime_inj, UInt32.xor_right_inj, UInt8.toUInt32_inj]

/-- **States that differ still differ after they absorbed the same bytes.** -/
theorem foldl_absorb_inj (s : List UInt8) {d d' : UInt32} : s.foldl absorb d = s.foldl absorb d' ↔ d = d' := by
  induction s generalizing d d' with
  | nil => rfl
  | cons b s ih => rw [List.foldl_cons, List.foldl_cons, ih, absorb_left_inj]

theorem ofBytes_append_inj {p p' : List UInt8} (s : List UInt8) :
    ofBytes (p ++ s) = ofBytes (p' ++ s) ↔ ofBytes p = ofBytes p' := by
  rw [ofBytes_append, ofBytes_append, foldl_absorb_inj]

theorem ofBytes_byte_inj (p s : List UInt8) {b b' : UInt8} :
    ofBytes (p ++ [b] ++ s) = ofBytes (p ++ [b'] ++ s) ↔ b = b' := by
  rw [ofBytes_append_inj, ofBytes_append, ofBytes_append]
  exact absorb_right_inj

end Digest

/-! ## Bytes that differ in one position -/

/-- In how many positions two byte strings differ, as far as both of them go. -/
def differences (xs ys : List UInt8) : Nat := (xs.zip ys).countP fun p => p.1 ≠ p.2

structure ByteApart (xs ys : List UInt8) : Prop where
  length : xs.length = ys.length
  once : differences xs ys = 1

section ByteApart

variable {xs ys : List UInt8}

theorem differences_cons_self (x : UInt8) (xs ys : List UInt8) :
    differences (x :: xs) (x :: ys) = differences xs ys := by
  rw [differences, List.zip_cons_cons, List.countP_cons_of_neg (by simp), differences]

theorem differences_cons_of_ne {x y : UInt8} (ne : x ≠ y) (xs ys : List UInt8) :
    differences (x :: xs) (y :: ys) = differences xs ys + 1 := by
  rw [differences, List.zip_cons_cons, List.countP_cons_of_pos (by simpa using ne), differences]

theorem eq_of_no_differences : ∀ {xs ys : List UInt8}, xs.length = ys.length → differences xs ys = 0 → xs = ys
  | [], [], _, _ => rfl
  | x :: xs, y :: ys, length, agree => by
    by_cases hxy : x = y
    · subst hxy
      rw [differences_cons_self] at agree
      rw [eq_of_no_differences (Nat.succ.inj length) agree]
    · rw [differences_cons_of_ne hxy] at agree
      cases agree

theorem differences_self : ∀ xs : List UInt8, differences xs xs = 0
  | [] => rfl
  | x :: xs => by rw [differences_cons_self, differences_self xs]

theorem ByteApart.ne (apart : ByteApart xs ys) : xs ≠ ys := by
  rintro rfl
  have once := apart.once
  rw [differences_self] at once
  cases once

theorem ByteApart.exists_split : ∀ {xs ys : List UInt8}, ByteApart xs ys →
    ∃ p s b b', b ≠ b' ∧ xs = p ++ [b] ++ s ∧ ys = p ++ [b'] ++ s
  | [], _, ⟨_, once⟩ => by cases once
  | _ :: _, [], ⟨length, _⟩ => by cases length
  | x :: xs, y :: ys, ⟨length, once⟩ => by
    by_cases hxy : x = y
    · subst hxy
      rw [differences_cons_self] at once
      obtain ⟨p, s, b, b', ne, rfl, rfl⟩ := ByteApart.exists_split ⟨Nat.succ.inj length, once⟩
      exact ⟨x :: p, s, b, b', ne, rfl, rfl⟩
    · rw [differences_cons_of_ne hxy] at once
      have same : xs = ys := eq_of_no_differences (Nat.succ.inj length) (Nat.succ.inj once)
      exact ⟨[], ys, x, y, hxy, congrArg (x :: ·) same, rfl⟩

theorem Digest.ofBytes_ne_of_byteApart (apart : ByteApart xs ys) : ofBytes xs ≠ ofBytes ys := by
  obtain ⟨p, s, b, b', ne, rfl, rfl⟩ := apart.exists_split
  rwa [ne_eq, ofBytes_byte_inj]

theorem Mark.ofCopy_ne_of_byteApart {c d : Copy} (apart : ByteApart c.data d.data) : ofCopy c ≠ ofCopy d :=
  fun same => Digest.ofBytes_ne_of_byteApart apart (congrArg Mark.digest same)

end ByteApart

/-! ## Copies that are recognised -/

def Replica.Recognises (r : Replica) (c : Copy) : Prop := r.judge c = .duplicate ∨ r.judge c = .knownConflict

def Store.Recognises (s : Store) (c : Copy) : Prop := s.judge c = .ok .duplicate ∨ s.judge c = .ok .knownConflict

instance (r : Replica) (c : Copy) : Decidable (r.Recognises c) :=
  inferInstanceAs (Decidable (r.judge c = .duplicate ∨ r.judge c = .knownConflict))

namespace Replica

variable {r : Replica} {c d : Copy} {now : Nat}

theorem recognises_iff : r.Recognises c ↔
    r.allocated = true ∧ c.version = r.version ∧ (c.data = r.data ∨ r.knows (Mark.ofCopy c) = true) := by
  unfold Recognises judge
  cases ha : r.allocated
  · simp
  · by_cases hv : c.version = r.version
    · by_cases hd : c.data = r.data <;> cases hk : r.knows (Mark.ofCopy c) <;> simp [hv, hd, Version.newer_irrefl]
    · cases Version.newer c.version r.version <;> simp [hv]

theorem not_recognises_ofCopy (apart : ByteApart c.data d.data) : ¬ (ofCopy c now).Recognises d := by
  rw [recognises_iff]
  rintro ⟨-, -, same | known⟩
  · exact apart.ne same.symm
  · cases known

theorem Recognises.of_remember (apart : ByteApart c.data d.data)
    (recognised : (r.remember (Mark.ofCopy c) now).Recognises d) : r.Recognises d := by
  unfold remember at recognised
  split at recognised
  · exact recognised
  · rw [recognises_iff] at recognised ⊢
    refine recognised.imp_right (And.imp_right (Or.imp_right fun known => ?_))
    have other : Mark.ofCopy d ≠ Mark.ofCopy c := (Mark.ofCopy_ne_of_byteApart apart).symm
    exact knows_iff.2 ((mem_remembered (knows_iff.1 known)).resolve_right other)

end Replica

namespace Store

variable {s : Store} {r : Replica} {c d : Copy} {now : Nat}

theorem recognises_iff_of_held (held : s.replicas.get? c.handle = some r) : s.Recognises c ↔ r.Recognises c := by
  rw [Recognises, judge_of_held held, Except.ok.injEq, Except.ok.injEq]
  rfl

/-- What hearing a copy makes of its replica, also where the bytes are refused. -/
theorem get?_hear_cases (held : s.replicas.get? c.handle = some r) (now : Nat) :
    ∃ r', (s.hear c now).2.replicas.get? c.handle = some r' ∧
      (r' = r ∨ r' = Replica.ofCopy c now ∨ r' = r.remember (Mark.ofCopy c) now) := by
  rw [hear_of_held held]
  show ∃ r', (s.follow c r now (r.judge c)).replicas.get? c.handle = some r' ∧ _
  cases r.judge c with
  | acceptNew | acceptUpdate =>
    rw [follow]
    split
    · exact ⟨r, held, Or.inl rfl⟩
    · exact ⟨_, get?_put_self _ held, Or.inr (Or.inl rfl)⟩
  | conflict => exact ⟨_, get?_put_self (r.remember (Mark.ofCopy c) now) held, Or.inr (Or.inr rfl)⟩
  | knownConflict | stale | duplicate => exact ⟨r, held, Or.inl rfl⟩

/-- **Hearing a copy makes none recognised that is a byte apart from it.** -/
theorem Recognises.of_hear (apart : ByteApart c.data d.data) (recognised : (s.hear c now).2.Recognises d) :
    s.Recognises d := by
  by_cases own : d.handle = c.handle
  · cases held : s.replicas.get? c.handle with
    | none => rwa [hear_of_beyond held] at recognised
    | some r =>
      obtain ⟨r', after, hr'⟩ := get?_hear_cases held now
      rw [← own] at held after
      rw [recognises_iff_of_held after] at recognised
      rw [recognises_iff_of_held held]
      obtain rfl | rfl | rfl := hr'
      · exact recognised
      · exact absurd recognised (Replica.not_recognises_ofCopy apart)
      · exact recognised.of_remember apart
  · rwa [Recognises, judge, replica, get?_hear_of_ne now own] at recognised

end Store

/-! ## Rivals that are reported -/

namespace Engine

section

variable [Jitter] {e : Engine} {h : Handle}

def reportedCopy? (h : Handle) (e : Engine) (op : Operation) (now : Nat) : Option Copy :=
  match op, (e.perform op now).1 with
  | .receive frame, .received (.resolved k .conflict _) => if k = h then e.heard? frame else none
  | _, _ => none

theorem reported?_eq_map (h : Handle) (e : Engine) (op : Operation) (now : Nat) :
    reported? h e op now = (reportedCopy? h e op now).map Mark.ofCopy := by
  cases op with
  | receive frame =>
    have answer : (e.perform (.receive frame) now).1 = .received (e.receive frame now).1 := rfl
    unfold reported? reportedCopy?
    rw [answer]
    cases (e.receive frame now).1 with
    | resolved k verdict evicted =>
      cases verdict with
      | conflict => by_cases hk : k = h <;> simp [hk]
      | acceptNew | acceptUpdate | knownConflict | stale | duplicate => rfl
    | notListening | dropped | outOfRange | requestServed | requestIgnored => rfl
  | start | write | read | stamp | request | takeNotice | signal | windowRefused => rfl

theorem sinceChange_map {β γ : Type} {f : Engine → Operation → Nat → Option β}
    {g : Engine → Operation → Nat → Option γ} {φ : β → γ} (map : ∀ e op now, g e op now = (f e op now).map φ)
    (seen : List β) (e : Engine) (history : List (Operation × Nat)) :
    sinceChange h g (seen.map φ) e history = (sinceChange h f seen e history).map φ := by
  induction history generalizing e seen with
  | nil => rfl
  | cons x rest ih =>
    obtain ⟨op, now⟩ := x
    rw [sinceChange, sinceChange, ← ih, map]
    congr 1
    split
    · rw [List.map_append, Option.toList_map]
    · rfl

/-- The marks remembered are those of the copies reported last. -/
theorem marks_run_of_copies (h : Handle) (history : List (Operation × Nat)) :
    (fresh.run history).store.marks h =
      latest ((sinceChange h (reportedCopy? h) [] fresh history).map Mark.ofCopy) := by
  rw [marks_run, ← sinceChange_map (reported?_eq_map h) [] fresh history]
  rfl

/-- A rival is reported if it is a byte apart from all rivals of its origin that were reported since the copy held
changed. -/
theorem receive_of_byteApart {history : List (Operation × Nat)} {frame : List UInt8} {d held : Copy}
    (reached : fresh.run history = e) (hears : e.Hears frame d) (holds : e.store.copy? d.handle = some held)
    (version : d.version = held.version) (rival : d.data ≠ held.data)
    (apart : ∀ c ∈ sinceChange d.handle (reportedCopy? d.handle) [] fresh history,
      c.origin = d.origin → ByteApart c.data d.data) (now : Nat) :
    (e.receive frame now).1 =
      .resolved d.handle .conflict (e.inbox.push ⟨.conflictingVal, d.handle, d.data, d.origin⟩).1 ∧
    (e.receive frame now).2.inbox = (e.inbox.push ⟨.conflictingVal, d.handle, d.data, d.origin⟩).2 := by
  obtain ⟨r, hr, allocated, rfl⟩ := Store.copy?_eq_some_iff.1 holds
  have marks : r.marks = latest ((sinceChange d.handle (reportedCopy? d.handle) [] fresh history).map Mark.ofCopy) := by
    rw [← marks_run_of_copies, reached, Store.marks_of_get? hr]
  have new : Mark.ofCopy d ∉
      latest ((sinceChange d.handle (reportedCopy? d.handle) [] fresh history).map Mark.ofCopy) := by
    intro known
    obtain ⟨c, hc, same⟩ := List.mem_map.1 (List.mem_of_mem_drop known)
    exact Mark.ofCopy_ne_of_byteApart (apart c hc (congrArg Mark.origin same)) same
  rw [(disputed_of_hears hears hr allocated version rival marks now).new new]
  exact ⟨rfl, rfl⟩

/-- **Copies a byte apart are told apart.**  With the same bytes to follow, different states of the digest come to
different digests, and so byte strings of any length have different digests if they differ in exactly one byte.  Copies
of such bytes have different marks, of one version and origin or not; and a store that hears one of them recognises the
other afterwards, as the copy held or as a known rival, only if it did before.  After any history, a node that hears
another copy of the version held, a byte apart from each rival of the same origin that was reported since the copy held
changed, reports it and tells of it.  Up to `Machine.latest` the machine follows the history and hears the same. -/
theorem copies_a_byte_apart_are_told_apart :
    (∀ s : List UInt8, Function.Injective fun d => s.foldl Digest.absorb d) ∧
    (∀ p p' s : List UInt8,
      Digest.ofBytes (p ++ s) = Digest.ofBytes (p' ++ s) ↔ Digest.ofBytes p = Digest.ofBytes p') ∧
    (∀ (p s : List UInt8) (b b' : UInt8), b ≠ b' →
      Digest.ofBytes (p ++ [b] ++ s) ≠ Digest.ofBytes (p ++ [b'] ++ s)) ∧
    (∀ c d : Copy, ByteApart c.data d.data → Mark.ofCopy c ≠ Mark.ofCopy d ∧
      ∀ (s : Store) (now : Nat), ¬ s.Recognises d → ¬ (s.hear c now).2.Recognises d) ∧
    ∀ (history : List (Operation × Nat)) (frame : List UInt8) (d held : Copy) (now : Nat),
      let e := fresh.run history
      let notice : Notice := ⟨.conflictingVal, d.handle, d.data, d.origin⟩
      e.Hears frame d → e.store.copy? d.handle = some held → d.version = held.version → d.data ≠ held.data →
      (∀ c ∈ sinceChange d.handle (reportedCopy? d.handle) [] fresh history,
        c.origin = d.origin → ByteApart c.data d.data) →
      (e.receive frame now).1 = .resolved d.handle .conflict (e.inbox.push notice).1 ∧
      (e.receive frame now).2.inbox = (e.inbox.push notice).2 ∧
      fresh.Followed (history ++ [(.receive frame, now)]) := by
  refine ⟨fun s d d' => (Digest.foldl_absorb_inj s).1, fun p p' s => Digest.ofBytes_append_inj s, ?_, ?_, ?_⟩
  · intro p s b b' ne
    rwa [ne_eq, Digest.ofBytes_byte_inj]
  · intro c d apart
    exact ⟨Mark.ofCopy_ne_of_byteApart apart, fun s now => mt (Store.Recognises.of_hear apart)⟩
  · intro history frame d held now e notice hears holds version rival apart
    obtain ⟨answer, inbox⟩ := receive_of_byteApart rfl hears holds version rival apart now
    exact ⟨answer, inbox, reachable_fresh.followed _⟩

end

/-- A node that reported one rival of the value it wrote hears another, a byte apart: it is reported, too. -/
theorem second_of_two_rivals_a_byte_apart_is_reported :
    let frame (b : UInt8) : List UInt8 :=
      [0xD6, 0xBE, 0x89, 0x8E, 1, 13, 0x22, 0, 0, 0, 0, 0, 3, 0, 1, 0, 1, b, 3]
    let rival (b : UInt8) : Copy := ⟨3, 1, ⟨0x22, 0, 0, 0, 0, 0⟩, [1, b, 3]⟩
    let history : List (Operation × Nat) := [(.start ⟨0x8E89BED6, 38, 10, 100⟩ ⟨0x11, 0, 0, 0, 0, 0⟩ true, 0),
      (.write 3 [1, 2, 3], 1), (.signal .tick, 2), (.signal .started, 3), (.receive (frame 7), 4)]
    let e := fresh.run history
    Digest.ofBytes ([1] ++ [7] ++ [3]) ≠ Digest.ofBytes ([1] ++ [8] ++ [3]) ∧
    ByteApart (rival 7).data (rival 8).data ∧ Mark.ofCopy (rival 7) ≠ Mark.ofCopy (rival 8) ∧
    ¬ e.store.Recognises (rival 8) ∧ ¬ (e.store.hear (rival 7) 5).2.Recognises (rival 8) ∧
    e.store.copy? 3 = some ⟨3, 1, ⟨0x11, 0, 0, 0, 0, 0⟩, [1, 2, 3]⟩ ∧ e.Hears (frame 8) (rival 8) ∧
    sinceChange 3 (reportedCopy? 3) [] fresh history = [rival 7] ∧
    (e.receive (frame 8) 5).1 = .resolved 3 .conflict false := by
  intro frame rival history e
  obtain ⟨-, -, digests, copies, reports⟩ := copies_a_byte_apart_are_told_apart
  have apart : ByteApart (rival 7).data (rival 8).data := ⟨rfl, by decide⟩
  have holds : e.store.copy? 3 = some ⟨3, 1, ⟨0x11, 0, 0, 0, 0, 0⟩, [1, 2, 3]⟩ := by decide +kernel
  have held : e.store.replicas.get? 3 =
      some ⟨true, [1, 2, 3], 1, ⟨0x11, 0, 0, 0, 0, 0⟩, 4, [Mark.ofCopy (rival 7)]⟩ := by decide +kernel
  have unseen : ¬ e.store.Recognises (rival 8) := by
    rw [Store.recognises_iff_of_held held]
    decide +kernel
  have hears : e.Hears (frame 8) (rival 8) := heard?_eq_some_iff.1 (by decide +kernel)
  have reported : sinceChange 3 (reportedCopy? 3) [] fresh history = [rival 7] := by decide +kernel
  have room : (e.inbox.push ⟨.conflictingVal, 3, [1, 8, 3], ⟨0x22, 0, 0, 0, 0, 0⟩⟩).1 = false := by decide +kernel
  obtain ⟨marks, hearing⟩ := copies _ _ apart
  have near : ∀ c ∈ sinceChange 3 (reportedCopy? 3) [] fresh history, c.origin = (rival 8).origin →
      ByteApart c.data (rival 8).data := by
    rw [reported]
    exact List.forall_mem_singleton.2 fun _ => apart
  obtain ⟨answer, -⟩ := reports history (frame 8) (rival 8) _ 5 hears holds rfl (by decide) near
  exact ⟨digests [1] [3] 7 8 (by decide), apart, marks, unseen, hearing e.store 5 unseen, holds, hears, reported,
    answer.trans (congrArg (Reception.resolved 3 .conflict) room)⟩

end Engine
end ValueMesh
