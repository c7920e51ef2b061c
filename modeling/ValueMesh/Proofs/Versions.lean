import ValueMesh.Proofs.Provenance
/-!
# Versions as a clock

A write counts on from the version that its node has, and everything else only passes versions on.  So no version of a
value is ever above the number of its writes (`versionAt_le`).  While these are fewer than half the circle of versions,
serial order is plain order among them: no node goes back (`versionAt_le_step`), the writes of one node have ever higher
versions (`Clocked`), and version and origin together tell all writes of a value apart (`versions_tell_writes_apart`).
-/
namespace ValueMesh

namespace Version

theorem toNat_add_one_le (v : Version) : (v + 1).toNat ≤ v.toNat + 1 := by
  have hv : (v + 1).toNat = (v.toNat + 1) % 65536 := UInt16.toNat_add v 1
  omega

theorem toNat_add_one {v : Version} (hv : v.toNat < 0x8000) : (v + 1).toNat = v.toNat + 1 := by
  have hadd : (v + 1).toNat = (v.toNat + 1) % 65536 := UInt16.toNat_add v 1
  omega

theorem newer_iff_lt {u v : Version} (hu : u.toNat < 0x8000) (hv : v.toNat < 0x8000) :
    newer u v = true ↔ v.toNat < u.toNat := by
  rw [newer_iff]
  omega

end Version

theorem Copy.version_le_version_upon {c d : Copy} (hc : c.version.toNat < 0x8000) (hd : d.version.toNat < 0x8000) :
    d.version.toNat ≤ (c.upon (some d)).version.toNat := by
  have hiff := Version.newer_iff_lt hc hd
  cases hn : Version.newer c.version d.version with
  | true =>
    rw [upon_of_newer hn]
    exact Nat.le_of_lt (hiff.1 hn)
  | false => exact Nat.le_of_eq (congrArg (·.version.toNat) (upon_of_not_newer hn).symm)

namespace Air

open Engine (Operation)

section

variable [Jitter]

def writesOf (h : Handle) (ws : List Write) : Nat := ws.countP fun w => w.handle = h

def Bounded (a : Air) (cfg : Settings) (h : Handle) (ws : List Write) : Prop :=
  ∀ c ∈ a.copies cfg.accessAddress h, c.version.toNat ≤ writesOf h ws

def Ordered (h : Handle) (ws : List Write) : Prop :=
  ws.Pairwise fun v w => v.handle = h → w.handle = h → v.node = w.node → v.version.toNat < w.version.toNat

variable {a : Air} {cfg : Settings} {addresses : List Address} {h : Handle} {ws : List Write} {x : Event} {w : Write}

omit [Jitter] in
theorem writesOf_append (h : Handle) (ws more : List Write) :
    writesOf h (ws ++ more) = writesOf h ws + writesOf h more :=
  List.countP_append

omit [Jitter] in
theorem writesOf_singleton (hw : w.handle = h) : writesOf h [w] = 1 := by
  rw [writesOf, List.countP_singleton, if_pos (decide_eq_true hw)]

/-! ## One event -/

theorem versionAt_le (hb : a.Bounded cfg h ws) (i : Nat) : (a.versionAt i h).toNat ≤ writesOf h ws := by
  cases hc : a.copyAt? i h with
  | none => rw [versionAt_of_none hc]; exact Nat.zero_le _
  | some c => rw [versionAt_of_copyAt? hc]; exact hb c (mem_copies_of_held _ hc)

theorem Bounded.step (hb : a.Bounded cfg h ws) (ha : a.Under cfg)
    (inFlight : ∀ frame ∈ received? x.op, frame ∈ a.frames) :
    (a.step x).Bounded cfg h (ws ++ (a.written? x).toList) := by
  intro c hc
  rw [writesOf_append]
  rcases mem_copies_step ha inFlight hc with hc | ⟨w, e, hw, hh, -, rfl⟩
  · exact Nat.le_trans (hb c hc) (Nat.le_add_right _ _)
  · -- A write adds one to a version and one to the number of writes; on the circle the former may even fall to 0.
    rw [hw, Option.toList_some, writesOf_singleton hh]
    calc (w.copy e.address).version.toNat
        = (a.versionAt w.node h + 1).toNat := by rw [← hh, ← version_of_written? ha hw]; rfl
      _ ≤ (a.versionAt w.node h).toNat + 1 := Version.toNat_add_one_le _
      _ ≤ writesOf h ws + 1 := Nat.succ_le_succ (versionAt_le hb w.node)

theorem toNat_version_of_written? (hb : a.Bounded cfg h ws) (few : writesOf h ws < 0x8000) (ha : a.Under cfg)
    (hw : a.written? x = some w) (hh : w.handle = h) : w.version.toNat = (a.versionAt w.node h).toNat + 1 := by
  have hlt : (a.versionAt w.node h).toNat < 0x8000 := Nat.lt_of_le_of_lt (versionAt_le hb w.node) few
  rw [version_of_written? ha hw, hh, Version.toNat_add_one hlt]

/-- **No node goes back**, while fewer than half the circle of versions were written. -/
theorem versionAt_le_step (hb : a.Bounded cfg h ws) (few : writesOf h ws < 0x8000) (ha : a.Under cfg)
    (inFlight : ∀ frame ∈ received? x.op, frame ∈ a.frames) (i : Nat) :
    (a.versionAt i h).toNat ≤ ((a.step x).versionAt i h).toNat := by
  rcases copyAt?_step_cases ha x i h with hsame | ⟨w, e, hw, rfl, hh, -, hafter⟩ | ⟨frame, c, hop, hc, hupon⟩
  · exact Nat.le_of_eq (by rw [versionAt, versionAt, hsame])
  · rw [versionAt_of_copyAt? hafter]
    show _ ≤ w.version.toNat
    rw [toNat_version_of_written? hb few ha hw hh]
    exact Nat.le_succ _
  · have hlt : c.version.toNat < 0x8000 :=
      Nat.lt_of_le_of_lt (hb c (mem_copies_of_inFlight (inFlight frame (hop ▸ rfl)) hc)) few
    cases hd : a.copyAt? i h with
    | none =>
      rw [versionAt_of_none hd]
      exact Nat.zero_le _
    | some d =>
      rw [hd] at hupon
      have hlt' : d.version.toNat < 0x8000 :=
        Nat.lt_of_le_of_lt (hb d (mem_copies_of_held _ hd)) few
      rw [versionAt_of_copyAt? hd, versionAt_of_copyAt? hupon]
      exact Copy.version_le_version_upon hlt hlt'

/-- The writes of the value of `h` are in the order of their versions, node by node, and no node has gone back behind
one of its own. -/
structure Clocked (a : Air) (h : Handle) (ws : List Write) : Prop where
  ordered : Ordered h ws
  reached : ∀ w ∈ ws, w.handle = h → w.version.toNat ≤ (a.versionAt w.node h).toNat

theorem Clocked.step (hk : a.Clocked h ws) (hb : a.Bounded cfg h ws) (few : writesOf h ws < 0x8000) (ha : a.Under cfg)
    (inFlight : ∀ frame ∈ received? x.op, frame ∈ a.frames) :
    (a.step x).Clocked h (ws ++ (a.written? x).toList) where
  ordered := by
    refine List.pairwise_append.2 ⟨hk.ordered, ?_, fun v hv w hw hvh hwh hnode => ?_⟩
    · cases a.written? x with
      | none => exact .nil
      | some w => exact List.pairwise_singleton ..
    · -- The new write counts on from the version of its node, which none of the node's writes before is above.
      have hw := Option.mem_toList.1 hw
      rw [toNat_version_of_written? hb few ha hw hwh, ← hnode]
      exact Nat.lt_succ_of_le (hk.reached v hv hvh)
  reached w hw hh := by
    rcases List.mem_append.1 hw with hw | hw
    · exact Nat.le_trans (hk.reached w hw hh) (versionAt_le_step hb few ha inFlight w.node)
    · have hw := Option.mem_toList.1 hw
      obtain ⟨-, -, e, -, he, -⟩ := written?_eq_some_iff.1 hw
      have hversion : (a.step x).versionAt w.node h = w.version := by
        rw [← hh]
        exact versionAt_of_copyAt? (copyAt?_of_written? hw he)
      exact Nat.le_of_eq (congrArg UInt16.toNat hversion.symm)

/-! ## Telling writes apart -/

omit [Jitter] in
/-- **A node writes each version of a value once.** -/
theorem Ordered.eq_of_same {v w : Write} (ho : Ordered h ws) (hv : v ∈ ws) (hw : w ∈ ws) (hvh : v.handle = h)
    (hwh : w.handle = h) (hnode : v.node = w.node) (hversion : v.version = w.version) : v = w := by
  obtain ⟨i, hi, rfl⟩ := List.getElem_of_mem hv
  obtain ⟨j, hj, rfl⟩ := List.getElem_of_mem hw
  have hpair := List.pairwise_iff_getElem.1 ho
  rcases Nat.lt_trichotomy i j with hlt | rfl | hlt
  · have := hpair i j hi hj hlt hvh hwh hnode
    rw [hversion] at this
    exact absurd this (Nat.lt_irrefl _)
  · rfl
  · have := hpair j i hj hi hlt hwh hvh hnode.symm
    rw [hversion] at this
    exact absurd this (Nat.lt_irrefl _)

omit [Jitter] in
theorem node_eq_of_address {i j : Nat} {origin : Address} (distinct : addresses.Nodup)
    (hi : addresses[i]? = some origin) (hj : addresses[j]? = some origin) : i = j := by
  obtain ⟨hlt, -⟩ := List.getElem?_eq_some_iff.1 hi
  exact (List.getElem?_inj hlt distinct).1 (hi.trans hj.symm)

omit [Jitter] in
theorem Ordered.data_eq {c d : Copy} (ho : Ordered h ws) (distinct : addresses.Nodup)
    (hc : Published addresses ws c) (hd : Published addresses ws d) (hch : c.handle = h) (hdh : d.handle = h)
    (hversion : c.version = d.version) (horigin : c.origin = d.origin) : c.data = d.data := by
  obtain ⟨v, hv, origin, hvo, rfl⟩ := hc
  obtain ⟨w, hw, origin', hwo, rfl⟩ := hd
  cases (show origin = origin' from horigin)
  have hnode : v.node = w.node := node_eq_of_address distinct hvo hwo
  exact congrArg Write.data (ho.eq_of_same hv hw hch hdh hnode hversion)

/-! ## Whole courses -/

structure Timed (a : Air) (cfg : Settings) (addresses : List Address) (h : Handle) (ws : List Write) : Prop where
  traced : a.Traced cfg addresses ws
  bounded : a.Bounded cfg h ws
  clocked : writesOf h ws < 0x8000 → a.Clocked h ws

omit [Jitter] in
theorem few_of_append {more : List Write} (few : writesOf h (ws ++ more) < 0x8000) : writesOf h ws < 0x8000 := by
  rw [writesOf_append] at few
  exact Nat.lt_of_le_of_lt (Nat.le_add_right _ _) few

theorem timed_ofAddresses (cfg : Settings) (addresses : List Address) (h : Handle) :
    (ofAddresses addresses).Timed cfg addresses h [] where
  traced := traced_ofAddresses cfg addresses
  bounded c hc := by
    obtain ⟨w, hw, -⟩ := (traced_ofAddresses cfg addresses).copies h c hc
    cases hw
  clocked _ := ⟨.nil, nofun⟩

theorem Timed.step (ht : a.Timed cfg addresses h ws) (inFlight : ∀ frame ∈ received? x.op, frame ∈ a.frames)
    (joins : Joins cfg addresses x) : (a.step x).Timed cfg addresses h (ws ++ (a.written? x).toList) where
  traced := ht.traced.step inFlight joins
  bounded := ht.bounded.step ht.traced.enrolled.under inFlight
  clocked few :=
    (ht.clocked (few_of_append few)).step ht.bounded (few_of_append few) ht.traced.enrolled.under inFlight

theorem Timed.run {events : List Event} (ht : a.Timed cfg addresses h ws) (legal : a.Legal (fun _ => True) events)
    (joins : ∀ x ∈ events, Joins cfg addresses x) :
    (a.run events).Timed cfg addresses h (ws ++ a.ledger events) :=
  run_ledger (P := fun a ws => a.Timed cfg addresses h ws) Timed.step ht legal joins

theorem Timed.versionAt_le_run {events : List Event} (ht : a.Timed cfg addresses h ws)
    (legal : a.Legal (fun _ => True) events) (joins : ∀ x ∈ events, Joins cfg addresses x)
    (few : writesOf h (ws ++ a.ledger events) < 0x8000) (i : Nat) :
    (a.versionAt i h).toNat ≤ ((a.run events).versionAt i h).toNat := by
  -- The number of writes only grows, so if it is small in the end it was small at every event.
  refine (run_ledger (P := fun b ws => b.Timed cfg addresses h ws ∧
    (writesOf h ws < 0x8000 → (a.versionAt i h).toNat ≤ (b.versionAt i h).toNat)) ?_ ⟨ht, fun _ => Nat.le_refl _⟩
    legal joins).2 few
  intro b ws x hb inFlight hjoins
  refine ⟨hb.1.step inFlight hjoins, fun few => ?_⟩
  exact Nat.le_trans (hb.2 (few_of_append few))
    (versionAt_le_step hb.1.bounded (few_of_append few) hb.1.traced.enrolled.under inFlight i)

/-- **Versions count writes, and tell them apart.**  Take fresh nodes at different addresses and whatever they do
together under settings `cfg`, first `pre` and then `mid`, with fewer than 32768 writes of the value of `h` in all. Then
no version of it that is held or in flight is above the number of its writes so far; no node has gone back since `pre`;
a write of it that comes next is answered with a version above all that its node had by then; and copies of it of one
version and one origin, held or in flight at either time, have the same bytes.  Up to `Machine.latest` the machine
follows them. -/
theorem versions_tell_writes_apart {pre mid : List Event} (distinct : addresses.Nodup)
    (course : Course cfg addresses (pre ++ mid))
    (few : writesOf h ((ofAddresses addresses).ledger (pre ++ mid)) < 0x8000) :
    (∀ c ∈ ((ofAddresses addresses).run (pre ++ mid)).copies cfg.accessAddress h,
      c.version.toNat ≤ writesOf h ((ofAddresses addresses).ledger (pre ++ mid))) ∧
    (∀ i, (((ofAddresses addresses).run pre).versionAt i h).toNat ≤
      (((ofAddresses addresses).run (pre ++ mid)).versionAt i h).toNat) ∧
    (∀ x w, ((ofAddresses addresses).run (pre ++ mid)).written? x = some w → w.handle = h →
      (((ofAddresses addresses).run pre).versionAt w.node h).toNat < w.version.toNat) ∧
    (∀ c ∈ ((ofAddresses addresses).run pre).copies cfg.accessAddress h,
      ∀ d ∈ ((ofAddresses addresses).run (pre ++ mid)).copies cfg.accessAddress h,
        c.version = d.version → c.origin = d.origin → c.data = d.data) ∧
    (ofAddresses addresses).Followed (pre ++ mid) := by
  obtain ⟨legal, legal'⟩ := legal_append.1 course.legal
  have joins : ∀ x ∈ pre, Joins cfg addresses x := fun x hx => course.joins x (List.mem_append_left _ hx)
  have joins' : ∀ x ∈ mid, Joins cfg addresses x := fun x hx => course.joins x (List.mem_append_right _ hx)
  have before := (timed_ofAddresses cfg addresses h).run legal joins
  have after := before.run legal' joins'
  rw [List.nil_append] at before after
  rw [ledger_append] at few
  rw [run_append, ledger_append]
  have forward := before.versionAt_le_run legal' joins' few
  refine ⟨after.bounded, forward, fun x w hw hh => ?_, fun c hc d hd hversion horigin => ?_, followed_ofAddresses _ _⟩
  · rw [toNat_version_of_written? after.bounded few after.traced.enrolled.under hw hh]
    exact Nat.lt_succ_of_le (forward w.node)
  · exact (after.clocked few).ordered.data_eq distinct ((before.traced.copies h c hc).append _)
      (after.traced.copies h d hd) (handle_of_mem_copies hc) (handle_of_mem_copies hd) hversion horigin

end

/-- Node 0 writes, node 1 hears it and writes on top of it, and node 0 hears that: its next write is of version 3. -/
theorem versions_tell_alternate_writes_apart :
    let cfg : Settings := ⟨0x8E89BED6, 38, 10, 100⟩
    let addresses : List Address := [⟨0x11, 0, 0, 0, 0, 0⟩, ⟨0x12, 0, 0, 0, 0, 0⟩]
    let first : List UInt8 := [0xD6, 0xBE, 0x89, 0x8E, 1, 11, 0x11, 0, 0, 0, 0, 0, 3, 0, 1, 0, 7]
    let second : List UInt8 := [0xD6, 0xBE, 0x89, 0x8E, 1, 11, 0x12, 0, 0, 0, 0, 0, 3, 0, 2, 0, 8]
    let pre : List Event := [⟨0, .start cfg ⟨0x11, 0, 0, 0, 0, 0⟩ true, 0⟩,
      ⟨1, .start cfg ⟨0x12, 0, 0, 0, 0, 0⟩ true, 0⟩, ⟨0, .write 3 [7], 1⟩, ⟨0, .signal .tick, 2⟩,
      ⟨0, .signal .started, 1000000⟩, ⟨1, .signal .tick, 2⟩, ⟨1, .signal .started, 3⟩, ⟨1, .receive first, 4⟩]
    let mid : List Event := [⟨1, .write 3 [8], 5⟩, ⟨1, .signal .ended, 6⟩, ⟨1, .signal .tick, 7⟩,
      ⟨1, .signal .started, 1000000⟩, ⟨0, .receive second, 1000001⟩]
    let a := ofAddresses addresses
    Course cfg addresses (pre ++ mid) ∧
    a.ledger (pre ++ mid) = [⟨0, 3, 1, [7]⟩, ⟨1, 3, 2, [8]⟩] ∧
    (∀ i, ((a.run pre).versionAt i 3).toNat ≤ ((a.run (pre ++ mid)).versionAt i 3).toNat) ∧
    (a.run (pre ++ mid)).written? ⟨0, .write 3 [9], 1000002⟩ = some ⟨0, 3, 3, [9]⟩ ∧
    ((a.run pre).versionAt 0 3).toNat < (3 : Version).toNat := by
  intro cfg addresses first second pre mid a
  have course : Course cfg addresses (pre ++ mid) := ⟨by decide +kernel, by decide +kernel⟩
  have written : a.ledger (pre ++ mid) = [⟨0, 3, 1, [7]⟩, ⟨1, 3, 2, [8]⟩] := by decide +kernel
  have few : writesOf 3 (a.ledger (pre ++ mid)) < 0x8000 := by decide +kernel
  have next : (a.run (pre ++ mid)).written? ⟨0, .write 3 [9], 1000002⟩ = some ⟨0, 3, 3, [9]⟩ := by decide +kernel
  obtain ⟨-, forward, above, -⟩ := versions_tell_writes_apart (by decide) course few
  have answered := above ⟨0, .write 3 [9], 1000002⟩ ⟨0, 3, 3, [9]⟩ next rfl
  exact ⟨course, written, forward, next, answered⟩

end Air
end ValueMesh
