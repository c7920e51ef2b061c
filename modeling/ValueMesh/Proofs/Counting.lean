import ValueMesh.Proofs.Running
/-!
# What the counters count

The six counters of an engine lie in four of its parts.  Each is bumped by just the operations whose answers say what
it counts, but for the windows denied, which no answer tells: those are counted by the signals that find the session
waiting (`stats_perform`).  So after any history a counter holds how often that was answered, as far as it goes.
-/
namespace ValueMesh

def Tally.bumpIf (b : Bool) (n : Nat) : Nat := if b then bump n else n

theorem Tally.bumpIf_min (b : Bool) (n : Nat) : bumpIf b (min n limit) = min (n + b.toNat) limit := by
  cases b with
  | false => rfl
  | true => exact bump_min n

theorem Inbox.lost_push (q : Inbox) (n : Notice) : (q.push n).2.lost = Tally.bumpIf (q.push n).1 q.lost := by
  unfold push
  split <;> rfl

namespace Engine

open Tally (bumpIf)

variable [Jitter] {e : Engine} {cfg : Settings} {op : Operation} {now : Nat}

/-! ## What an answer tells -/

namespace Answer

def rival : Answer → Bool
  | .received (.resolved _ .conflict _) | .received (.resolved _ .knownConflict _) => true
  | _ => false

def evicts : Answer → Bool
  | .written _ evicted | .received (.resolved _ _ evicted) => evicted
  | _ => false

/-- A frame could not be read, or is about a handle the node does not have. -/
def malformed : Answer → Bool
  | .received (.dropped _) | .received (.outOfRange _) => true
  | _ => false

def transmits : Answer → Bool
  | .task (.openWindow _ _ (some _)) => true
  | _ => false

def accepts : Answer → Bool
  | .received (.resolved _ .acceptNew _) | .received (.resolved _ .acceptUpdate _) => true
  | _ => false

end Answer

def denies (e : Engine) (op : Operation) (_ : Nat) : Bool :=
  match op with
  | .signal .denied | .signal .ended | .windowRefused => e.session.phase? = some .requested
  | _ => false

/-! ## One operation -/

def Answer.tally (a : Answer) (denied : Bool) (s : Stats) : Stats where
  conflicts := bumpIf a.rival s.conflicts
  noticesLost := bumpIf a.evicts s.noticesLost
  malformed := bumpIf a.malformed s.malformed
  denied := bumpIf denied s.denied
  transmitted := bumpIf a.transmits s.transmitted
  accepted := bumpIf a.accepts s.accepted

omit [Jitter] in
theorem denied_signal (s : Session) (sig : Signal) (now : Nat) : (s.signal sig now).2.denied =
    bumpIf (match sig with
      | .denied | .ended => s.phase? = some .requested
      | _ => false) s.denied := by
  obtain ⟨active, denied, granted⟩ := s
  match active, sig with
  | none, sig => cases sig <;> rfl
  | some (_, .idle), sig => cases sig <;> rfl
  | some (_, .requested), sig => cases sig <;> rfl
  | some (_, .opened _), sig => cases sig <;> rfl

omit [Jitter] in
theorem denied_windowRefused (s : Session) :
    s.windowRefused.denied = bumpIf (s.phase? = some .requested) s.denied := by
  obtain ⟨active, denied, granted⟩ := s
  match active with
  | none => rfl
  | some (_, .idle) => rfl
  | some (_, .requested) => rfl
  | some (_, .opened _) => rfl

theorem stats_takeFrame (e : Engine) (mesh : UInt32) (now : Nat) : (e.takeFrame mesh now).2.stats =
    { e.stats with transmitted := bumpIf (e.takeFrame mesh now).1.isSome e.transmitted } := by
  unfold takeFrame
  simp only
  split
  · rfl
  · split <;> rfl

omit [Jitter] in
theorem transmits_openWindow (mesh : UInt32) (channel : UInt8) (frame : Option (List UInt8)) :
    (Answer.task (.openWindow mesh channel frame)).transmits = frame.isSome := by
  cases frame <;> rfl

theorem stats_signal (e : Engine) (sig : Signal) (now : Nat) : (e.signal sig now).2.stats =
    (Answer.task (e.signal sig now).1).tally (e.denies (.signal sig) now) e.stats := by
  have denied : (e.session.signal sig now).2.denied = bumpIf (e.denies (.signal sig) now) e.session.denied := by
    rw [denied_signal]
    cases sig <;> rfl
  unfold signal
  generalize e.session.signal sig now = p at denied
  obtain ⟨step, session⟩ := p
  have quiet : Stats.mk e.store.conflicts e.inbox.lost e.malformed session.denied e.transmitted e.accepted =
      (Answer.task .none).tally (e.denies (.signal sig) now) e.stats := by
    rw [show session.denied = _ from denied]
    rfl
  cases step with
  | none | requestWindow | continueWindow | closeWindow => exact quiet
  | openWindow =>
    simp only
    cases session.settings with
    | error f => exact quiet
    | ok cfg =>
      rw [stats_takeFrame]
      show Stats.mk _ _ _ session.denied _ _ = _
      rw [show session.denied = _ from denied, Answer.tally, transmits_openWindow]
      rfl

theorem stats_hearCopy {c : Copy} {r : Replica} (now : Nat) (held : e.store.replicas.get? c.handle = some r)
    (short : c.data.length ≤ maxValueBytes) :
    (e.hearCopy c now).2.stats = (Answer.received (e.hearCopy c now).1).tally false e.stats := by
  rw [hearCopy_of_get? now held short, Store.hear_of_get? now held short]
  cases r.judge c with
  | acceptNew | acceptUpdate =>
    simp only [Store.follow, if_neg (Nat.not_lt.2 short), Store.announcement, deliver, stats, Answer.tally,
      Inbox.lost_push]
    rfl
  | conflict =>
    simp only [Store.follow, Store.announcement, deliver, stats, Answer.tally, Inbox.lost_push]
    rfl
  | knownConflict | stale | duplicate => rfl

theorem stats_receive (he : e.Reachable) (frame : List UInt8) (now : Nat) : (e.receive frame now).2.stats =
    (Answer.received (e.receive frame now).1).tally false e.stats := by
  have outcome := e.receives frame now
  generalize e.receive frame now = p at outcome
  cases outcome with
  | closed | unreadable | outOfRange | ignored | served => rfl
  | heard hears =>
    obtain ⟨r, held⟩ := he.get?_of_hears hears
    exact stats_hearCopy now held (length_le_of_hears hears)

/-- **Each operation moves the counters its answer tells of, and no other.** -/
theorem stats_perform (he : e.Reachable) (op : Operation) (now : Nat) :
    (e.perform op now).2.stats = (e.perform op now).1.tally (e.denies op now) e.stats := by
  cases op with
  | start cfg a hostReady =>
    simp only [perform]
    split
    · rfl
    · rename_i hs
      obtain ⟨-, -, rfl⟩ := start_of_ok hs
      rfl
  | write h data =>
    simp only [perform]
    split
    · rfl
    · rename_i hw
      obtain ⟨-, r, -, -, hv, rfl⟩ := write_of_ok hw
      cases hv
      simp only [stats, Answer.tally, Inbox.lost_push]
      rfl
  | read h =>
    simp only [perform]
    split <;> rfl
  | stamp h =>
    simp only [perform]
    split <;> rfl
  | request h =>
    simp only [perform]
    split
    · rfl
    · rename_i hr
      obtain ⟨t, -, rfl⟩ := request_of_ok hr
      rfl
  | takeNotice =>
    simp only [perform]
    split
    · rfl
    · rename_i ht
      obtain ⟨inbox, hp, rfl⟩ := takeNotice_of_some ht
      unfold Inbox.pop at hp
      split at hp <;> cases hp
      rfl
  | signal sig => exact stats_signal e sig now
  | windowRefused =>
    show Stats.mk _ _ _ e.session.windowRefused.denied _ _ = _
    rw [denied_windowRefused]
    rfl
  | receive frame => exact stats_receive he frame now

/-! ## Whole histories -/

/-- What is bumped whenever something happens counts how often it happened. -/
theorem count_of_step (count : Engine → Nat) (happens : Engine → Operation → Nat → Bool)
    (step : ∀ {e : Engine} (op : Operation) (now : Nat), e.Reachable →
      count (e.perform op now).2 = bumpIf (happens e op now) (count e)) (he : e.Reachable) {n : Nat}
    (before : count e = min n Tally.limit) (history : List (Operation × Nat)) :
    count (e.run history) = min (n + (e.along happens history).count true) Tally.limit := by
  induction history generalizing e n with
  | nil => exact before
  | cons x rest ih =>
    obtain ⟨op, now⟩ := x
    have after : count (e.perform op now).2 = min (n + (happens e op now).toNat) Tally.limit := by
      rw [step op now he, before, Tally.bumpIf_min]
    rw [run, along, ih (he.perform op now) after, List.count_cons, Nat.add_assoc, Nat.add_comm (Bool.toNat _)]
    cases happens e op now <;> rfl

theorem count_along_answer (test : Answer → Bool) (e : Engine) (history : List (Operation × Nat)) :
    (e.along (fun e op now => test (e.perform op now).1) history).count true = (e.answers history).countP test := by
  induction history generalizing e with
  | nil => rfl
  | cons x rest ih =>
    rw [along, answers, List.count_cons, List.countP_cons, ih]
    cases test (e.perform x.1 x.2).1 <;> rfl

/-- What is bumped whenever an answer says so counts how often it was said. -/
theorem countP_of_step (count : Engine → Nat) (test : Answer → Bool)
    (step : ∀ {e : Engine} (op : Operation) (now : Nat), e.Reachable →
      count (e.perform op now).2 = bumpIf (test (e.perform op now).1) (count e)) (none : count fresh = 0)
    (history : List (Operation × Nat)) :
    count (fresh.run history) = min ((fresh.answers history).countP test) Tally.limit := by
  rw [count_of_step count (fun e op now => test (e.perform op now).1) step reachable_fresh (n := 0) none,
    count_along_answer, Nat.zero_add]

/-- **The counters tell what was answered.**  After any history each of them is the number of answers that say what it
counts, and that of the windows denied the number of signals and refusals that found the session waiting for one, all of
them cut off at the limit.  Up to `Machine.latest` the machine counts the same. -/
theorem counters_tell_what_was_answered (history : List (Operation × Nat)) :
    let told := fresh.answers history
    (fresh.run history).stats = {
      conflicts := min (told.countP Answer.rival) Tally.limit
      noticesLost := min (told.countP Answer.evicts) Tally.limit
      malformed := min (told.countP Answer.malformed) Tally.limit
      denied := min ((fresh.along denies history).count true) Tally.limit
      transmitted := min (told.countP Answer.transmits) Tally.limit
      accepted := min (told.countP Answer.accepts) Tally.limit } ∧
    fresh.Followed history := by
  intro told
  have conflicts := countP_of_step (·.stats.conflicts) Answer.rival
    (fun op now he => congrArg Stats.conflicts (stats_perform he op now)) rfl history
  have noticesLost := countP_of_step (·.stats.noticesLost) Answer.evicts
    (fun op now he => congrArg Stats.noticesLost (stats_perform he op now)) rfl history
  have malformed := countP_of_step (·.stats.malformed) Answer.malformed
    (fun op now he => congrArg Stats.malformed (stats_perform he op now)) rfl history
  have denied := count_of_step (·.stats.denied) denies
    (fun op now he => congrArg Stats.denied (stats_perform he op now)) reachable_fresh (n := 0) rfl history
  have transmitted := countP_of_step (·.stats.transmitted) Answer.transmits
    (fun op now he => congrArg Stats.transmitted (stats_perform he op now)) rfl history
  have accepted := countP_of_step (·.stats.accepted) Answer.accepts
    (fun op now he => congrArg Stats.accepted (stats_perform he op now)) rfl history
  rw [Nat.zero_add] at denied
  rw [← conflicts, ← noticesLost, ← malformed, ← denied, ← transmitted, ← accepted]
  exact ⟨rfl, reachable_fresh.followed history⟩

end Engine
end ValueMesh
