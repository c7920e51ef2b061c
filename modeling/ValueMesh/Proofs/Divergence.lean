import ValueMesh.Proofs.Pacing
/-!
# Two nodes that hold rivals

Two nodes hold a version of a value with different bytes, and each was told of the other's.  Nothing is left to be said
then: every copy of the value in the air is to either node what it holds or a rival it knows (`Settled`), and no step
but a write makes another copy (`Settled.step`).  So until someone writes the value or asks for it, neither node tells
anything of it, changes its replica or arms it, and both send it ever less often (`diverged_pair_settles`).
-/
namespace ValueMesh

structure Diverged (rA rB : Replica) : Prop where
  allocated : rA.allocated = true ∧ rB.allocated = true
  version : rA.version = rB.version
  data : rA.data ≠ rB.data
  known : rA.knows (.of rB.version rB.origin rB.data) = true ∧ rB.knows (.of rA.version rA.origin rA.data) = true

theorem Diverged.symm {rA rB : Replica} (hd : Diverged rA rB) : Diverged rB rA :=
  ⟨hd.allocated.symm, hd.version.symm, hd.data.symm, hd.known.symm⟩

/-- What either of the two sends is nothing new to the first one. -/
theorem Diverged.judge {rA rB : Replica} {h : Handle} {c : Copy} (hd : Diverged rA rB)
    (from_pair : c = rA.toCopy h ∨ c = rB.toCopy h) : rA.judge c = .duplicate ∨ rA.judge c = .knownConflict := by
  rcases from_pair with rfl | rfl
  · exact Or.inl (Replica.judge_of_same hd.allocated.1 rfl rfl)
  · have hrival := Replica.judge_of_rival (c := rB.toCopy h) hd.allocated.1 hd.version.symm hd.data.symm
    rw [show Mark.ofCopy (rB.toCopy h) = .of rB.version rB.origin rB.data from rfl, if_pos hd.known.1] at hrival
    exact Or.inr hrival

namespace Air

open Advertisement (isAbout)
open Engine (Operation Uneventful Calm)

section

variable [Jitter] {a : Air} {cfg : Settings} {h : Handle} {x : Event} {events : List Event}

/-- Operations other than writing the value of `h`, asking for it, and hearing that someone asks for it. -/
def Undisturbed (mesh : UInt32) (h : Handle) : Operation → Prop
  | .write k _ | .request k => k ≠ h
  | .receive frame => isAbout mesh h frame = true → (copyIn? mesh h frame).isSome = true
  | .start .. | .read _ | .stamp _ | .takeNotice | .signal _ | .windowRefused => True

instance (mesh : UInt32) (h : Handle) : DecidablePred (Undisturbed mesh h)
  | .write k _ | .request k => inferInstanceAs (Decidable (k ≠ h))
  | .receive frame => inferInstanceAs (Decidable (isAbout mesh h frame = true → (copyIn? mesh h frame).isSome = true))
  | .start .. | .read _ | .stamp _ | .takeNotice | .signal _ | .windowRefused => inferInstanceAs (Decidable True)

omit [Jitter] in
theorem Undisturbed.spares {mesh : UInt32} {op : Operation} (un : Undisturbed mesh h op) : Spares h op := by
  cases op with
  | write k data => exact un
  | start | read | stamp | request | takeNotice | signal | windowRefused | receive => trivial

def replicaAt? (a : Air) (i : Nat) (h : Handle) : Option Replica := (a.nodes[i]?).bind (·.store.replicas.get? h)

theorem replicaAt?_eq_some_iff {i : Nat} {r : Replica} :
    a.replicaAt? i h = some r ↔ ∃ e, a.nodes[i]? = some e ∧ e.store.replicas.get? h = some r := by
  unfold replicaAt?
  exact Option.bind_eq_some_iff

/-! ## Nothing is left to be said -/

/-- Every copy of the value of `h` in the air is to every node what it holds, or a rival it knows. -/
structure Settled (a : Air) (cfg : Settings) (h : Handle) : Prop where
  ready : a.Ready cfg
  known : ∀ i r, a.replicaAt? i h = some r → ∀ c ∈ a.copies cfg.accessAddress h,
    r.judge c = .duplicate ∨ r.judge c = .knownConflict

theorem Settled.uneventful {i : Nat} {r : Replica} (hs : a.Settled cfg h)
    (un : Undisturbed cfg.accessAddress h x.op) (inFlight : ∀ frame ∈ received? x.op, frame ∈ a.frames)
    (held : a.replicaAt? i h = some r) : Uneventful cfg.accessAddress h r x.op := by
  obtain ⟨node, op, now⟩ := x
  cases op with
  | write k data => exact un
  | request k => exact un
  | receive frame =>
    intro adv hd about
    have hsome := un (Advertisement.isAbout_iff.2 ⟨adv, hd, about⟩)
    obtain ⟨c, hc⟩ := Option.isSome_iff_exists.1 hsome
    have hcopy : adv = .value c := by
      have hd' := (copyIn?_eq_some_iff.1 hc).1
      rw [hd] at hd'
      exact Except.ok.inj hd'
    subst hcopy
    exact ⟨rfl, hs.known i r held c (mem_copies_of_inFlight (inFlight frame rfl) hc)⟩
  | start | read | stamp | takeNotice | signal | windowRefused => trivial

theorem Settled.replicaAt?_step (hs : a.Settled cfg h) (un : Undisturbed cfg.accessAddress h x.op)
    (inFlight : ∀ frame ∈ received? x.op, frame ∈ a.frames) (i : Nat) :
    (a.step x).replicaAt? i h = a.replicaAt? i h := by
  rw [replicaAt?, replicaAt?, getElem?_step]
  cases hi : a.nodes[i]? with
  | none => rfl
  | some e =>
    simp only [Option.map_some, Option.bind_some]
    split
    · obtain ⟨-, up⟩ := hs.ready e (List.mem_of_getElem? hi)
      cases hr : e.store.replicas.get? h with
      | none => rw [Engine.get?_perform up, hr, Option.map_none]
      | some r =>
        have held : a.replicaAt? i h = some r := replicaAt?_eq_some_iff.2 ⟨e, hi, hr⟩
        exact Engine.get?_perform_of_uneventful up hr (hs.uneventful un inFlight held) x.now
    · rfl

/-- **One step leaves nothing to be said.** -/
theorem Settled.step (hs : a.Settled cfg h) (un : Undisturbed cfg.accessAddress h x.op)
    (inFlight : ∀ frame ∈ received? x.op, frame ∈ a.frames) : (a.step x).Settled cfg h where
  ready := hs.ready.step x
  known i r held c hc :=
    hs.known i r ((hs.replicaAt?_step un inFlight i).symm.trans held) c
      (mem_copies_of_step hs.ready.under un.spares inFlight hc)

theorem Settled.run (hs : a.Settled cfg h) (legal : Legal (Undisturbed cfg.accessAddress h) a events) :
    (a.run events).Settled cfg h ∧ ∀ i, (a.run events).replicaAt? i h = a.replicaAt? i h := by
  induction events generalizing a with
  | nil => exact ⟨hs, fun _ => rfl⟩
  | cons x rest ih =>
    obtain ⟨un, inFlight, hrest⟩ := legal
    obtain ⟨hsettled, hsame⟩ := ih (hs.step un inFlight) hrest
    exact ⟨hsettled, fun i => (hsame i).trans (hs.replicaAt?_step un inFlight i)⟩

/-- What is so at the start of a run still is when one of its events comes, which then is nothing to the value. -/
theorem Settled.before (hs : a.Settled cfg h) (legal : Legal (Undisturbed cfg.accessAddress h) a events)
    {pre post : List Event} (at_event : events = pre ++ x :: post) {i : Nat} {r : Replica}
    (held : a.replicaAt? i h = some r) : (a.run pre).Ready cfg ∧ (a.run pre).replicaAt? i h = some r ∧
    Uneventful cfg.accessAddress h r x.op := by
  subst at_event
  obtain ⟨hpre, un, inFlight, -⟩ := legal_append.1 legal
  obtain ⟨hsettled, hsame⟩ := hs.run hpre
  have held' := (hsame i).trans held
  exact ⟨hsettled.ready, held', hsettled.uneventful un inFlight held'⟩

/-! ## Recorded intervals -/

def intervalAt? (a : Air) (i : Nat) (h : Handle) : Option Nat := (a.nodes[i]?).bind (·.timetable.interval? h)

def carried? (a : Air) (mesh : UInt32) (h : Handle) (x : Event) : Option Copy := (a.sent? x).bind (copyIn? mesh h)

/-- An event that doubles the interval that node `i` has recorded for the value of `h`, up to the longest one, if the
node sends the value in it, and leaves the interval as it is if not. -/
def Stretches (a : Air) (cfg : Settings) (h : Handle) (i : Nat) (x : Event) : Prop :=
  ∃ p p', a.intervalAt? i h = some p ∧ (a.step x).intervalAt? i h = some p' ∧
    p' = (if x.node = i ∧ (a.carried? cfg.accessAddress h x).isSome = true then min (p * 2) cfg.longestInterval
      else p) ∧
    p ≤ p' ∧ p' ≤ cfg.longestInterval

theorem stretches_of_stable {i : Nat} {r : Replica} (ready : a.Ready cfg) (held : a.replicaAt? i h = some r)
    (allocated : r.allocated = true) (un : Uneventful cfg.accessAddress h r x.op)
    (stable : r.lastActivity + Timetable.stableIntervals * cfg.intervalMicros ≤ x.now) : a.Stretches cfg h i x := by
  obtain ⟨e, he, hr⟩ := replicaAt?_eq_some_iff.1 held
  obtain ⟨reachable, up⟩ := ready e (List.mem_of_getElem? he)
  obtain ⟨p, hp, hle⟩ := reachable.exists_interval? up hr allocated
  have before : a.intervalAt? i h = some p := by rw [intervalAt?, he, Option.bind_some, hp]
  have after : (a.step x).intervalAt? i h =
      some (if x.node = i ∧ (a.carried? cfg.accessAddress h x).isSome = true then min (p * 2) cfg.longestInterval
        else p) := by
    rw [intervalAt?, getElem?_step, he, Option.map_some, Option.bind_some]
    by_cases hi : x.node = i
    · have hsends : a.carried? cfg.accessAddress h x = e.sends? cfg.accessAddress h x.op x.now := by
        rw [carried?, sent?, hi, he]
        rfl
      simp only [hi, hsends, true_and, if_true]
      exact Engine.interval?_perform reachable up hr un stable hp
    · simp only [hi, false_and, if_false]
      exact hp
  refine ⟨p, _, before, after, rfl, ?_, ?_⟩
  · split
    · exact Nat.le_min.2 ⟨Nat.le_mul_of_pos_right p (by decide), hle⟩
    · exact Nat.le_refl p
  · split
    · exact Nat.min_le_right ..
    · exact hle

/-! ## A diverged pair -/

section Pair

variable {A B : Engine} {rA rB : Replica} {others : List (List UInt8)}

theorem replicaAt?_pair (heldA : A.store.replicas.get? h = some rA) (heldB : B.store.replicas.get? h = some rB) :
    ∀ i, replicaAt? ⟨[A, B], others⟩ i h = [rA, rB][i]?
  | 0 => heldA
  | 1 => heldB
  | _ + 2 => rfl

theorem settled_of_diverged (ready : Ready ⟨[A, B], others⟩ cfg) (heldA : A.store.replicas.get? h = some rA)
    (heldB : B.store.replicas.get? h = some rB) (diverged : Diverged rA rB)
    (foreign : ∀ frame ∈ others, isAbout cfg.accessAddress h frame = false) :
    Settled ⟨[A, B], others⟩ cfg h := by
  have from_pair : ∀ c ∈ copies ⟨[A, B], others⟩ cfg.accessAddress h, c = rA.toCopy h ∨ c = rB.toCopy h := by
    intro c hc
    rcases mem_copies_iff.1 hc with ⟨i, hi⟩ | ⟨frame, hf, hcopy⟩
    · obtain ⟨e, he, hheld⟩ := copyAt?_eq_some_iff.1 hi
      obtain ⟨r, hr, -, rfl⟩ := Store.copy?_eq_some_iff.1 hheld
      have hpair := (replicaAt?_pair heldA heldB i).symm.trans (replicaAt?_eq_some_iff.2 ⟨e, he, hr⟩)
      match i, hpair with
      | 0, hpair => exact Or.inl (by cases hpair; rfl)
      | 1, hpair => exact Or.inr (by cases hpair; rfl)
    · obtain ⟨hd, hh⟩ := copyIn?_eq_some_iff.1 hcopy
      have habout := foreign frame hf
      rw [Advertisement.isAbout_iff.2 ⟨_, hd, hh⟩] at habout
      cases habout
  refine ⟨ready, fun i r held c hc => ?_⟩
  rw [replicaAt?_pair heldA heldB] at held
  match i, held with
  | 0, held =>
    cases held
    exact diverged.judge (from_pair c hc)
  | 1, held =>
    cases held
    exact diverged.symm.judge (from_pair c hc).symm

/-- **A diverged pair settles.**  Two nodes under the same settings hold one version of the value of `h` with different
bytes, and each knows the other one's.  From then on anything may be done but to write the value or ask for it, and of
its frames only those are heard that the two send meanwhile, any number of times and in any order; `others` are all
frames about other values that are heard.  Then both replicas stay in all their parts, no notice of the value is put
into an inbox, and its timer is set by transmissions only.  And once a transmission comes eight intervals or more after
the last activity of the replica, that one and each later one doubles the recorded interval up to the longest one, and
it never shrinks.  Up to `Machine.latest` the machine follows the two. -/
theorem diverged_pair_settles (ready : Ready ⟨[A, B], others⟩ cfg) (heldA : A.store.replicas.get? h = some rA)
    (heldB : B.store.replicas.get? h = some rB) (diverged : Diverged rA rB)
    (foreign : ∀ frame ∈ others, isAbout cfg.accessAddress h frame = false)
    (legal : Legal (Undisturbed cfg.accessAddress h) ⟨[A, B], others⟩ events)
    (clock : events.Pairwise (·.now ≤ ·.now)) :
    (∀ pre post, events = pre ++ post → ∀ i, (run ⟨[A, B], others⟩ pre).replicaAt? i h = [rA, rB][i]?) ∧
    (∀ pre x post, events = pre ++ x :: post → ∀ r, [rA, rB][x.node]? = some r →
      (∃ e, (run ⟨[A, B], others⟩ pre).nodes[x.node]? = some e ∧ e.Calm cfg h r x.op x.now) ∧
      (((run ⟨[A, B], others⟩ pre).carried? cfg.accessAddress h x).isSome = true →
        r.lastActivity + Timetable.stableIntervals * cfg.intervalMicros ≤ x.now →
        ∀ mid y rest, x :: post = mid ++ y :: rest →
          (run ⟨[A, B], others⟩ (pre ++ mid)).Stretches cfg h x.node y)) ∧
    Followed ⟨[A, B], others⟩ events := by
  have settled := settled_of_diverged ready heldA heldB diverged foreign
  have pair : ∀ i, replicaAt? ⟨[A, B], others⟩ i h = [rA, rB][i]? := replicaAt?_pair heldA heldB
  have allocated : ∀ (i : Nat) (r : Replica), [rA, rB][i]? = some r → r.allocated = true
    | 0, _, rfl => diverged.allocated.1
    | 1, _, rfl => diverged.allocated.2
  refine ⟨?_, ?_, ready.followed events⟩
  · rintro pre post rfl i
    exact ((settled.run (legal_append.1 legal).1).2 i).trans (pair i)
  · intro pre x post at_x r hr
    have held := (pair _).trans hr
    refine ⟨?_, fun _ stable mid y rest at_y => ?_⟩
    · obtain ⟨ready', held', un⟩ := settled.before legal at_x held
      obtain ⟨e, he, hget⟩ := replicaAt?_eq_some_iff.1 held'
      obtain ⟨reachable, up⟩ := ready' e (List.mem_of_getElem? he)
      exact ⟨e, he, Engine.calm_of_uneventful reachable up hget un x.now⟩
    · have at_y' : events = (pre ++ mid) ++ y :: rest := by rw [at_x, at_y, List.append_assoc]
      have later : x.now ≤ y.now := by
        have hy : y ∈ x :: post := at_y ▸ List.mem_append_right mid List.mem_cons_self
        rw [at_x, List.pairwise_append] at clock
        rcases List.mem_cons.1 hy with rfl | hy
        · exact Nat.le_refl _
        · exact (List.pairwise_cons.1 clock.2.1).1 y hy
      obtain ⟨ready', held', un⟩ := settled.before legal at_y' held
      exact stretches_of_stable ready' held' (allocated _ r hr) un (Nat.le_trans stable later)

end Pair

end

/-- Two nodes wrote a value and heard of each other's.  Both send theirs a second later and hear each other again, and
one of them hears of another value.  When the first one sends again, its interval is doubled once more. -/
theorem diverged_pair_of_writers_settles :
    let cfg : Settings := ⟨0x8E89BED6, 38, 10, 100⟩
    let address (b : UInt8) : Address := ⟨b, 0, 0, 0, 0, 0⟩
    let frame (origin h b : UInt8) : List UInt8 :=
      [0xD6, 0xBE, 0x89, 0x8E, 1, 11, origin, 0, 0, 0, 0, 0, h, 0, 1, 0, b]
    let history (origin b rival b' : UInt8) : List (Operation × Nat) := [(.start cfg (address origin) true, 0),
      (.write 3 [b], 1), (.signal .tick, 2), (.signal .started, 3), (.receive (frame rival 3 b'), 4),
      (.signal .ended, 5)]
    let node (origin b rival b' : UInt8) : Engine := Engine.fresh.run (history origin b rival b')
    let a : Air := ⟨[node 0x11 1 0x22 2, node 0x22 2 0x11 1], [frame 0x33 5 7]⟩
    let pre : List Event := [⟨0, .signal .tick, 1000000⟩]
    let x : Event := ⟨0, .signal .started, 1000001⟩
    let mid : List Event := [⟨1, .signal .tick, 1000002⟩, ⟨1, .signal .started, 1000003⟩,
      ⟨1, .receive (frame 0x11 3 1), 1000004⟩, ⟨0, .receive (frame 0x22 3 2), 1000005⟩,
      ⟨1, .receive (frame 0x33 5 7), 1000006⟩, ⟨0, .signal .ended, 1010000⟩, ⟨0, .signal .tick, 2000000⟩]
    let y : Event := ⟨0, .signal .started, 2000001⟩
    (a.run (pre ++ x :: mid)).replicaAt? 1 3 = a.replicaAt? 1 3 ∧
    ((a.run (pre ++ x :: mid)).carried? cfg.accessAddress 3 y).isSome = true ∧
    (a.run (pre ++ x :: mid)).Stretches cfg 3 0 y := by
  intro cfg address frame history node a pre x mid y
  let r (origin b rival b' : UInt8) : Replica := ⟨true, [b], 1, address origin, 4, [.of 1 (address rival) [b']]⟩
  have ready : a.Ready cfg := by
    have up : ∀ e ∈ a.nodes, e.settings = .ok cfg := by decide +kernel
    have reachable : ∀ e ∈ a.nodes, e.Reachable :=
      List.forall_mem_cons.2 ⟨⟨history 0x11 1 0x22 2, rfl⟩,
        List.forall_mem_singleton.2 ⟨history 0x22 2 0x11 1, rfl⟩⟩
    exact fun e he => ⟨reachable e he, up e he⟩
  have heldA : (node 0x11 1 0x22 2).store.replicas.get? 3 = some (r 0x11 1 0x22 2) := by decide +kernel
  have heldB : (node 0x22 2 0x11 1).store.replicas.get? 3 = some (r 0x22 2 0x11 1) := by decide +kernel
  have diverged : Diverged (r 0x11 1 0x22 2) (r 0x22 2 0x11 1) :=
    ⟨by decide, by decide, by decide, by decide +kernel⟩
  have foreign : ∀ frame ∈ a.frames, isAbout cfg.accessAddress 3 frame = false := by decide +kernel
  have legal : Legal (Undisturbed cfg.accessAddress 3) a (pre ++ x :: (mid ++ [y])) := by decide +kernel
  have clock : (pre ++ x :: (mid ++ [y])).Pairwise (·.now ≤ ·.now) := by decide +kernel
  obtain ⟨kept, settles, -⟩ := diverged_pair_settles ready heldA heldB diverged foreign legal clock
  have sent : ((a.run pre).carried? cfg.accessAddress 3 x).isSome = true := by decide +kernel
  have again : ((a.run (pre ++ x :: mid)).carried? cfg.accessAddress 3 y).isSome = true := by decide +kernel
  refine ⟨(kept (pre ++ x :: mid) [y] rfl 1).trans heldB.symm, again, ?_⟩
  exact (settles pre x (mid ++ [y]) rfl _ rfl).2 sent (by decide) (x :: mid) y [] rfl

end Air
end ValueMesh
