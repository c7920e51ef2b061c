import ValueMesh.Proofs.Air
import ValueMesh.Proofs.Isolation
/-!
# Meshes that share the air

A frame is read under no access address but the one it was sent under, so what a node hears of another mesh is dropped
before anything but the count of malformed frames is touched.  That count has no part in anything a node does
(`perform_malformed`).  Hence frames of other meshes may be put anywhere into what is done to a node, in any number:
all answers stay the same, and so does the node but for that count, which is higher by the frames that came in a
window, as far as it goes (`other_meshes_do_not_matter`).
-/
namespace ValueMesh

namespace Engine

section

variable [Jitter] {e : Engine} {cfg : Settings} {op : Operation} {now : Nat}

def Answer.recount : Answer → Nat → Nat
  | .received (.dropped _), n | .received (.outOfRange _), n => Tally.bump n
  | _, n => n

/-! ## The count of malformed frames decides nothing -/

theorem start_malformed (e : Engine) (n : Nat) (cfg : Settings) (a : Address) (hostReady : Bool) :
    { e with malformed := n }.start cfg a hostReady =
      (e.start cfg a hostReady).map fun e' => { e' with malformed := n } := by
  have same : { e with malformed := n }.isUp = e.isUp := rfl
  cases hup : e.isUp with
  | true =>
    rw [start_of_isUp hup, start_of_isUp (same.trans hup)]
    rfl
  | false =>
    have hup' := same.trans hup
    simp only [start, hup, hup', Bool.false_eq_true, if_false, bind, Except.bind]
    cases cfg.check with
    | error f => rfl
    | ok u =>
      cases hostReady with
      | false => rfl
      | true => cases e.session.configure cfg <;> rfl

theorem write_malformed (e : Engine) (n : Nat) (h : Handle) (data : List UInt8) (now : Nat) :
    { e with malformed := n }.write h data now =
      (e.write h data now).map fun p => (p.1, { p.2 with malformed := n }) := by
  simp only [write, settings, bind, Except.bind]
  cases e.session.settings with
  | error f => rfl
  | ok cfg => cases e.store.write h data e.address now <;> rfl

theorem request_malformed (e : Engine) (n : Nat) (h : Handle) :
    { e with malformed := n }.request h = (e.request h).map fun e' => { e' with malformed := n } := by
  simp only [request, settings, bind, Except.bind]
  cases e.session.settings with
  | error f => rfl
  | ok cfg => cases e.timetable.request h <;> rfl

theorem takeNotice_malformed (e : Engine) (n : Nat) :
    { e with malformed := n }.takeNotice = e.takeNotice.map fun p => (p.1, { p.2 with malformed := n }) := by
  simp only [takeNotice]
  cases e.inbox.pop <;> rfl

theorem advertisement_malformed (e : Engine) (n : Nat) (item : Item) (now : Nat) :
    { e with malformed := n }.advertisement item now = e.advertisement item now := by
  cases item <;> rfl

theorem takeFrame_malformed (e : Engine) (n : Nat) (mesh : UInt32) (now : Nat) :
    { e with malformed := n }.takeFrame mesh now =
      ((e.takeFrame mesh now).1, { (e.takeFrame mesh now).2 with malformed := n }) := by
  unfold takeFrame
  simp only [advertisement_malformed]
  split
  · rfl
  · split <;> rfl

theorem signal_malformed (e : Engine) (n : Nat) (sig : Signal) (now : Nat) :
    { e with malformed := n }.signal sig now =
      ((e.signal sig now).1, { (e.signal sig now).2 with malformed := n }) := by
  unfold signal
  simp only
  cases (e.session.signal sig now).1 with
  | none | requestWindow | continueWindow | closeWindow => rfl
  | openWindow =>
    cases (e.session.signal sig now).2.settings with
    | error f => rfl
    | ok cfg =>
      have same := takeFrame_malformed { e with session := (e.session.signal sig now).2 } n cfg.accessAddress now
      simp only at same
      simp only [same]

theorem answerRequest_malformed (e : Engine) (n : Nat) (h : Handle) (now : Nat) :
    { e with malformed := n }.answerRequest h now = ((e.answerRequest h now).1, { (e.answerRequest h now).2 with
      malformed := (Answer.received (e.answerRequest h now).1).recount n }) := by
  unfold answerRequest
  cases e.store.replicas.get? h with
  | none => rfl
  | some r => cases hr : r.allocated <;> simp only [hr] <;> rfl

theorem hearCopy_malformed (e : Engine) (n : Nat) (c : Copy) (now : Nat) :
    { e with malformed := n }.hearCopy c now = ((e.hearCopy c now).1, { (e.hearCopy c now).2 with
      malformed := (Answer.received (e.hearCopy c now).1).recount n }) := by
  unfold hearCopy
  simp only
  cases (e.store.hear c now).1 with
  | error f => rfl
  | ok p =>
    obtain ⟨verdict, notice⟩ := p
    cases notice <;> rfl

theorem receive_malformed (e : Engine) (n : Nat) (frame : List UInt8) (now : Nat) :
    { e with malformed := n }.receive frame now = ((e.receive frame now).1, { (e.receive frame now).2 with
      malformed := (Answer.received (e.receive frame now).1).recount n }) := by
  simp only [receive, settings]
  cases e.session.inWindow with
  | false => rfl
  | true =>
    cases e.session.settings with
    | error f => rfl
    | ok cfg =>
      simp only
      cases Advertisement.decode frame cfg.accessAddress with
      | error cause => rfl
      | ok adv =>
        simp only
        cases hc : cfg.covers adv.copy.handle with
        | false => rfl
        | true =>
          cases adv.kind with
          | request => exact answerRequest_malformed ..
          | value => exact hearCopy_malformed ..

/-- **The count of malformed frames decides nothing.**  An operation is answered the same whatever the count is, and
makes the same of everything else. -/
theorem perform_malformed (e : Engine) (n : Nat) (op : Operation) (now : Nat) :
    { e with malformed := n }.perform op now =
      ((e.perform op now).1, { (e.perform op now).2 with malformed := (e.perform op now).1.recount n }) := by
  cases op with
  | start cfg a hostReady =>
    simp only [perform, start_malformed]
    cases e.start cfg a hostReady <;> rfl
  | write h data =>
    simp only [perform, write_malformed]
    cases e.write h data now <;> rfl
  | read h =>
    have same : { e with malformed := n }.read h = e.read h := rfl
    simp only [perform, same]
    cases e.read h <;> rfl
  | stamp h =>
    have same : { e with malformed := n }.stamp h = e.stamp h := rfl
    simp only [perform, same]
    cases e.stamp h <;> rfl
  | request h =>
    simp only [perform, request_malformed]
    cases e.request h <;> rfl
  | takeNotice =>
    simp only [perform, takeNotice_malformed]
    cases e.takeNotice <;> rfl
  | signal sig =>
    simp only [perform, signal_malformed]
    rfl
  | windowRefused => rfl
  | receive frame =>
    simp only [perform, receive_malformed]

theorem malformed_perform (e : Engine) (op : Operation) (now : Nat) :
    (e.perform op now).2.malformed = (e.perform op now).1.recount e.malformed :=
  congrArg (·.2.malformed) (perform_malformed e e.malformed op now)

omit [Jitter] in
theorem recount_le_limit (answer : Answer) {n : Nat} (hn : n ≤ Tally.limit) : answer.recount n ≤ Tally.limit := by
  unfold Answer.recount
  split
  · exact Tally.bump_le_limit n
  · exact Tally.bump_le_limit n
  · exact hn

omit [Jitter] in
/-- Counting on from `k` more is having `k` more after counting. -/
theorem recount_add (answer : Answer) (n k : Nat) :
    answer.recount (min (n + k) Tally.limit) = min (answer.recount n + k) Tally.limit := by
  unfold Answer.recount
  split
  · exact Tally.bump_min_add n k
  · exact Tally.bump_min_add n k
  · rfl

theorem malformed_perform_le (hn : e.malformed ≤ Tally.limit) (op : Operation) (now : Nat) :
    (e.perform op now).2.malformed ≤ Tally.limit := by
  rw [malformed_perform]
  exact recount_le_limit _ hn

theorem Reachable.malformed_le (he : e.Reachable) : e.malformed ≤ Tally.limit :=
  he.of_perform (P := fun e => e.malformed ≤ Tally.limit) (Nat.zero_le _) fun op now _ hn =>
    malformed_perform_le hn op now

/-! ## Frames of other meshes -/

/-- Receiving a frame that was sent by a node under another access address than `mesh`. -/
def Stray (mesh : UInt32) (op : Operation) : Prop :=
  ∃ frame, op = .receive frame ∧ ∃ (sender : Engine) (cfg : Settings) (sending : Operation) (now : Nat),
    sender.Reachable ∧ sender.settings = .ok cfg ∧ cfg.accessAddress ≠ mesh ∧
    Air.frame? (sender.perform sending now).1 = some frame

/-- **A frame of another mesh cannot be read.** -/
theorem Stray.unreadable {mesh : UInt32} (stray : Stray mesh op) :
    ∃ frame cause, op = .receive frame ∧ Advertisement.decode frame mesh = .error cause := by
  obtain ⟨frame, rfl, sender, cfg, sending, now, -, up, other, sent⟩ := stray
  obtain ⟨sig, mesh', channel, -, opened⟩ := Air.signal_of_frame? sent
  obtain ⟨⟨cfg', up', rfl⟩, item, adv, lastActivity, -, -, written⟩ := frame_of_signal opened
  cases up.symm.trans up'
  cases hd : Advertisement.decode frame mesh with
  | error cause => exact ⟨frame, cause, rfl, hd⟩
  | ok read => exact absurd (Advertisement.mesh_eq_of_encode written (Advertisement.encode_of_decode hd).2) other

/-- **A frame of another mesh only counts as malformed**, and that in a window only. -/
theorem perform_stray (up : e.settings = .ok cfg) (stray : Stray cfg.accessAddress op) (now : Nat) :
    (e.perform op now).2 =
      { e with malformed := if e.session.inWindow = true then Tally.bump e.malformed else e.malformed } := by
  obtain ⟨frame, cause, rfl, unreadable⟩ := stray.unreadable
  show (e.receive frame now).2 = _
  cases hw : e.session.inWindow with
  | false => rw [receive_of_closed frame now hw, if_neg Bool.false_ne_true]
  | true => rw [receive_of_unreadable hw up unreadable, if_pos rfl, malformedFrame]

/-- How many of the marked operations find a window open, when all operations are made. -/
def overheard (e : Engine) : Marked → Nat
  | [] => 0
  | ((op, now), out) :: later =>
    (if out = true ∧ e.session.inWindow = true then 1 else 0) + (e.perform op now).2.overheard later

theorem overheard_malformed (e : Engine) (n : Nat) (marked : Marked) :
    { e with malformed := n }.overheard marked = e.overheard marked := by
  induction marked generalizing e n with
  | nil => rfl
  | cons x later ih =>
    simp only [overheard, perform_malformed]
    rw [ih]

/-- By induction on the history: the count of the node that hears everything is `k` ahead of the other's, up to the
limit, and a frame left out in a window puts it one further ahead. -/
theorem run_whole_of_strays {marked : Marked} (up : e.settings = .ok cfg)
    (strays : ∀ x ∈ marked, x.2 = true → Stray cfg.accessAddress x.1.1) (k : Nat) :
    { e with malformed := min (e.malformed + k) Tally.limit }.run (whole marked) = { e.run (rest marked) with
      malformed := min ((e.run (rest marked)).malformed + (k + e.overheard marked)) Tally.limit } := by
  induction marked generalizing e k with
  | nil => rfl
  | cons x later ih =>
    obtain ⟨⟨op, now⟩, out⟩ := x
    have hlater : ∀ x ∈ later, x.2 = true → Stray cfg.accessAddress x.1.1 := fun x hx =>
      strays x (List.mem_cons_of_mem _ hx)
    show ({ e with malformed := min (e.malformed + k) Tally.limit }.perform op now).2.run (whole later) = _
    cases out with
    | false =>
      rw [perform_malformed, recount_add, ← malformed_perform, ih (settings_perform up op now) hlater k, overheard,
        if_neg (fun hc => Bool.false_ne_true hc.1), Nat.zero_add]
      rfl
    | true =>
      have stray : Stray cfg.accessAddress op := strays _ List.mem_cons_self rfl
      -- What is overheard later is the same with this frame and without it, since only the counts differ.
      have stays : (e.perform op now).2.overheard later = e.overheard later := by
        rw [perform_stray up stray, overheard_malformed]
      rw [perform_stray (e := { e with malformed := min (e.malformed + k) Tally.limit }) up stray, overheard, stays]
      cases hw : e.session.inWindow with
      | false =>
        rw [if_neg Bool.false_ne_true, if_neg (fun hc => Bool.false_ne_true hc.2), Nat.zero_add]
        exact ih up hlater k
      | true =>
        rw [if_pos rfl, if_pos ⟨rfl, rfl⟩, Tally.bump_min, ← Nat.add_assoc k]
        exact ih up hlater (k + 1)

/-- **Other meshes do not matter.**  Leave out of a history of a node that is up any number of frames sent under other
access addresses than its own: the node is the same in the end as without leaving anything out, but for its count of
malformed frames, which is lower by the frames left out that came in a window, unless it reached its limit; and each
operation that stays is answered the same.  Up to `Machine.latest` the machine follows both ways. -/
theorem other_meshes_do_not_matter (he : e.Reachable) (up : e.settings = .ok cfg) {marked : Marked}
    (strays : ∀ x ∈ marked, x.2 = true → Stray cfg.accessAddress x.1.1) :
    e.run (whole marked) = { e.run (rest marked) with
      malformed := min ((e.run (rest marked)).malformed + e.overheard marked) Tally.limit } ∧
    (∀ pre op now post, marked = pre ++ ((op, now), false) :: post →
      ((e.run (whole pre)).perform op now).1 = ((e.run (rest pre)).perform op now).1) ∧
    e.Followed (whole marked) ∧ e.Followed (rest marked) := by
  have run : ∀ {marked : Marked}, (∀ x ∈ marked, x.2 = true → Stray cfg.accessAddress x.1.1) →
      e.run (whole marked) = { e.run (rest marked) with
        malformed := min ((e.run (rest marked)).malformed + e.overheard marked) Tally.limit } := by
    intro marked strays
    have h := run_whole_of_strays up strays 0
    rwa [Nat.add_zero, Nat.min_eq_left he.malformed_le, Nat.zero_add] at h
  refine ⟨run strays, ?_, he.followed _, he.followed _⟩
  rintro pre op now post rfl
  rw [run fun x hx => strays x (List.mem_append_left _ hx), perform_malformed]

end

/-- The value of a node of another mesh comes three times, the last time after the window: a frame that cannot be read
at all counts once, and the value twice. -/
theorem other_mesh_does_not_matter_to_a_write :
    let e := fresh.run [(.start ⟨0x8E89BED6, 38, 10, 100⟩ ⟨1, 0, 0, 0, 0, 0⟩ true, 0), (.signal .tick, 1),
      (.signal .started, 2)]
    let stray : Operation :=
      .receive [0x78, 0x56, 0x34, 0x12, 1, 14, 7, 0, 0, 0, 0, 0, 3, 0, 1, 0, 0x6E, 0x6F, 0x70, 0x65]
    let pre : Marked := [((stray, 3), true), ((.receive [1, 2], 4), false), ((stray, 5), true)]
    let post : Marked := [((.signal .ended, 7), false), ((stray, 8), true)]
    let marked : Marked := pre ++ ((.write 3 [7], 6), false) :: post
    ((e.run (rest pre)).perform (.write 3 [7]) 6).1 = .written 1 false ∧
    ((e.run (whole pre)).perform (.write 3 [7]) 6).1 = .written 1 false ∧
    (e.run (rest marked)).malformed = 1 ∧
    e.run (whole marked) = { e.run (rest marked) with malformed := 3 } := by
  intro e stray pre post marked
  let sender := fresh.run [(.start ⟨0x12345678, 38, 8, 100⟩ ⟨7, 0, 0, 0, 0, 0⟩ true, 0),
    (.write 3 [0x6E, 0x6F, 0x70, 0x65], 0), (.signal .tick, 100000)]
  have isStray : Stray 0x8E89BED6 stray :=
    ⟨_, rfl, sender, ⟨0x12345678, 38, 8, 100⟩, .signal .started, 100000, ⟨_, rfl⟩, by decide +kernel, by decide,
      by decide +kernel⟩
  have marks : ∀ x ∈ marked, x.2 = true → x.1.1 = stray := by decide
  have strays : ∀ x ∈ marked, x.2 = true → Stray 0x8E89BED6 x.1.1 := fun x hx out => by
    rw [marks x hx out]
    exact isStray
  have up : e.settings = .ok ⟨0x8E89BED6, 38, 10, 100⟩ := by decide +kernel
  have alone : ((e.run (rest pre)).perform (.write 3 [7]) 6).1 = .written 1 false := by decide +kernel
  have own : (e.run (rest marked)).malformed = 1 := by decide +kernel
  have heard : e.overheard marked = 2 := by decide +kernel
  obtain ⟨run, answers, -⟩ := other_meshes_do_not_matter ⟨_, rfl⟩ up strays
  refine ⟨alone, (answers pre _ _ post rfl).trans alone, own, ?_⟩
  rw [run, own, heard]
  rfl

end Engine
end ValueMesh
