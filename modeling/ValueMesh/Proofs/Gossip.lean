import ValueMesh.Proofs.Air
import ValueMesh.Proofs.Resolution
/-!
# The newest copy of a value spreads and stays

As long as nobody writes a value, its copies on an air are those that were there before, so a serial window that holds
their versions goes on holding them (`Gathered.run`).  Inside it no node goes back (`Gathered.forward`), and a copy of
the newest version reaches everyone it is passed on to (`relayed_newest`).  `newest_copy_spreads` joins the two, for
any nodes, any frames in flight and any order of events.
-/
namespace ValueMesh
namespace Air

open Engine (Operation)

section

variable [Jitter]

/-- The nodes run under `cfg`, and all copies of the value of `h`, held or in flight, keep to the window from `b` on,
the newest version `V` and its bytes `D`. -/
structure Gathered (a : Air) (cfg : Settings) (h : Handle) (b V : Version) (D : List UInt8) : Prop where
  ready : a.Ready cfg
  compatible : ∀ c ∈ a.copies cfg.accessAddress h, c.Compatible b V D

/-- The value of `h` gets from node `i` to node `k`: whoever has it sends it in a window of its own, at any time after
that the frame reaches the next node while that one has a window, and so on. -/
inductive Relayed (mesh : UInt32) (h : Handle) : Air → Nat → List Event → Nat → Prop
  | refl (a : Air) (i : Nat) : Relayed mesh h a i [] i
  | wait {a : Air} {i k : Nat} {x : Event} {rest : List Event} (later : Relayed mesh h (a.step x) i rest k) :
      Relayed mesh h a i (x :: rest) k
  | hop {a : Air} {i j k now : Nat} {x : Event} {between rest : List Event} {frame : List UInt8}
      (sender : x.node = i) (sent : a.sent? x = some frame) (carries : (copyIn? mesh h frame).isSome = true)
      (listening : ∃ e ∈ ((a.step x).run between).nodes[j]?, e.session.inWindow = true)
      (later : Relayed mesh h (((a.step x).run between).step ⟨j, .receive frame, now⟩) j rest k) :
      Relayed mesh h a i (x :: (between ++ ⟨j, .receive frame, now⟩ :: rest)) k

variable {a : Air} {cfg : Settings} {h : Handle} {b V : Version} {D : List UInt8} {c : Copy}

/-! ## Nobody goes back -/

theorem Gathered.held (hg : a.Gathered cfg h b V D) {i : Nat} (hc : a.copyAt? i h = some c) : c.Compatible b V D :=
  hg.compatible c (mem_copies_of_held _ hc)

theorem Gathered.inFlight (hg : a.Gathered cfg h b V D) {frame : List UInt8} (hf : frame ∈ a.frames)
    (hc : copyIn? cfg.accessAddress h frame = some c) : c.Compatible b V D :=
  hg.compatible c (mem_copies_of_inFlight hf hc)

theorem Gathered.step {x : Event} (hg : a.Gathered cfg h b V D) (spares : Spares h x.op)
    (inFlight : ∀ frame ∈ received? x.op, frame ∈ a.frames) : (a.step x).Gathered cfg h b V D :=
  ⟨hg.ready.step x, fun c hc => hg.compatible c (mem_copies_of_step (Ready.under hg.ready) spares inFlight hc)⟩

/-- **What is gathered in a window stays in it.** -/
theorem Gathered.run : ∀ {events : List Event} {a : Air}, a.Gathered cfg h b V D → a.Legal (Spares h) events →
    (a.run events).Gathered cfg h b V D
  | [], _, hg, _ => hg
  | _ :: _, _, hg, ⟨spares, inFlight, legal⟩ => (hg.step spares inFlight).run legal

theorem Gathered.forward_step {x : Event} (hg : a.Gathered cfg h b V D) (spares : Spares h x.op)
    (inFlight : ∀ frame ∈ received? x.op, frame ∈ a.frames) {i : Nat} (hc : a.copyAt? i h = some c) :
    ∃ c', (a.step x).copyAt? i h = some c' ∧ Version.ahead b c.version ≤ Version.ahead b c'.version := by
  rcases copyAt?_step (Ready.under hg.ready) spares i with hsame | ⟨frame, d, hop, hd, hupon⟩
  · exact ⟨c, hsame.trans hc, Nat.le_refl _⟩
  · have hframe : frame ∈ a.frames := inFlight frame (hop ▸ rfl)
    refine ⟨_, hupon, ?_⟩
    rw [hc]
    exact Copy.ahead_le_ahead_upon_some (hg.inFlight hframe hd).inWindow (hg.held hc).inWindow

/-- **Inside the window no node goes back.** -/
theorem Gathered.forward : ∀ {events : List Event} {a : Air} {c : Copy} {i : Nat}, a.Gathered cfg h b V D →
    a.Legal (Spares h) events → a.copyAt? i h = some c →
    ∃ c', (a.run events).copyAt? i h = some c' ∧ Version.ahead b c.version ≤ Version.ahead b c'.version
  | [], _, c, _, _, _, hc => ⟨c, hc, Nat.le_refl _⟩
  | x :: _, _, _, _, hg, legal, hc => by
    obtain ⟨spares, inFlight, rest⟩ := legal
    obtain ⟨d, hd, hle⟩ := hg.forward_step spares inFlight hc
    obtain ⟨d', hd', hle'⟩ := (hg.step spares inFlight).forward rest hd
    exact ⟨d', hd', Nat.le_trans hle hle'⟩

theorem Gathered.newest_stays {events : List Event} {i : Nat} (hg : a.Gathered cfg h b V D)
    (legal : a.Legal (Spares h) events) (hc : a.copyAt? i h = some c) (hV : c.version = V) :
    ∃ c', (a.run events).copyAt? i h = some c' ∧ c'.version = V ∧ c'.data = D := by
  obtain ⟨c', hc', hle⟩ := hg.forward legal hc
  exact ⟨c', hc', ((hg.run legal).held hc').newest (hV ▸ (hg.held hc).inWindow) (hV ▸ hle)⟩

/-! ## Passing on -/

theorem Gathered.newest_received {e : Engine} {j now : Nat} {frame : List UInt8} (hg : a.Gathered cfg h b V D)
    (valid : cfg.covers h = true) (he : a.nodes[j]? = some e) (listening : e.session.inWindow = true)
    (hf : frame ∈ a.frames) (hc : copyIn? cfg.accessAddress h frame = some c) (hV : c.version = V) :
    ∃ c', (a.step ⟨j, .receive frame, now⟩).copyAt? j h = some c' ∧ c'.version = V ∧ c'.data = D := by
  have hcomp := hg.inFlight hf hc
  obtain ⟨hd, rfl⟩ := copyIn?_eq_some_iff.1 hc
  obtain ⟨hr, up⟩ := hg.ready e (List.mem_of_getElem? he)
  have hears : e.Hears frame c := ⟨listening, cfg, up, valid, hd⟩
  have hheld : ∀ d, e.store.copy? c.handle = some d → d.Compatible b V D :=
    fun d hd => hg.held (copyAt?_eq_some_iff.2 ⟨e, he, hd⟩)
  have hafter := Engine.copy?_receive now hears ((hr.sound.covers up).trans valid)
  have hle := Copy.ahead_le_ahead_upon hcomp.inWindow fun d hd => (hheld d hd).inWindow
  refine ⟨_, copyAt?_eq_some_iff.2 ⟨_, ?_, hafter⟩, (hcomp.upon hheld).newest (hV ▸ hcomp.inWindow) (hV ▸ hle)⟩
  rw [getElem?_step, he, Option.map_some, if_pos rfl]
  rfl

/-- **Who is reached from a holder of the newest version holds it.** -/
theorem relayed_newest {events : List Event} {i k : Nat} (hr : Relayed cfg.accessAddress h a i events k)
    (hg : a.Gathered cfg h b V D) (valid : cfg.covers h = true) (legal : a.Legal (Spares h) events)
    (hc : ∃ c, a.copyAt? i h = some c ∧ c.version = V) :
    ∃ c, (a.run events).copyAt? k h = some c ∧ c.version = V ∧ c.data = D := by
  induction hr with
  | refl a i =>
    obtain ⟨c, hc, hV⟩ := hc
    exact ⟨c, hc, hV, (hg.held hc).bytes hV⟩
  | wait later ih =>
    rename_i a i k x rest
    obtain ⟨c, hc, hV⟩ := hc
    obtain ⟨spares, inFlight, rest'⟩ := legal
    have first : a.Legal (Spares h) [x] := ⟨spares, inFlight, trivial⟩
    obtain ⟨d, hd, hdV, -⟩ := hg.newest_stays first hc hV
    exact ih (hg.step spares inFlight) rest' ⟨d, hd, hdV⟩
  | hop sender sent carries listening later ih =>
    rename_i a i j k now x between rest frame
    subst sender
    obtain ⟨c, hc, hV⟩ := hc
    obtain ⟨d, hd⟩ := Option.isSome_iff_exists.1 carries
    obtain ⟨e, he, hw⟩ := listening
    -- What is sent is what the sender holds, so the frame is of the newest version.
    have hcd : some c = some d := hc.symm.trans (copyAt?_of_sent? (Ready.under hg.ready) sent hd)
    cases hcd
    rw [← List.cons_append, legal_append] at legal
    obtain ⟨legal, spares, inFlight, rest'⟩ := legal
    have hg' : ((a.step x).run between).Gathered cfg h b V D := hg.run legal
    obtain ⟨d, hd', hdV, -⟩ := hg'.newest_received valid he hw (inFlight frame rfl) hd hV
    have hk := ih (hg'.step spares inFlight) rest' ⟨d, hd', hdV⟩
    rwa [← List.cons_append, run_append]

/-- **The newest copy spreads and stays.**  Take any nodes that came about under the settings `cfg`, with any frames in
flight, and let the versions of `h` held or in flight lie in the window from `b` on, `V` be the newest of them and `D`
the bytes of all copies of it.  Whatever happens but a write of `h`: at every point of it and at every later one, a node
that holds a copy holds one that is not further back, and the bytes `D` if it held version `V`; and from a holder of
`V`, everyone the value is passed on to holds `D` under version `V`.  The machine follows all of it, as long as no time
is past `Machine.latest`. -/
theorem newest_copy_spreads (ready : a.Ready cfg) (valid : cfg.covers h = true)
    (window : ∀ c ∈ a.copies cfg.accessAddress h, c.Compatible b V D) (pre mid : List Event)
    (legal : a.Legal (Spares h) (pre ++ mid)) :
    (∀ i c, (a.run pre).copyAt? i h = some c → ∃ c', (a.run (pre ++ mid)).copyAt? i h = some c' ∧
      c'.Compatible b V D ∧ Version.ahead b c.version ≤ Version.ahead b c'.version ∧
      (c.version = V → c'.version = V ∧ c'.data = D)) ∧
    (∀ i k, (∃ c, (a.run pre).copyAt? i h = some c ∧ c.version = V) →
      Relayed cfg.accessAddress h (a.run pre) i mid k →
      ∃ c', (a.run (pre ++ mid)).copyAt? k h = some c' ∧ c'.version = V ∧ c'.data = D) ∧
    a.Followed (pre ++ mid) := by
  rw [legal_append] at legal
  rw [run_append]
  have hg : (a.run pre).Gathered cfg h b V D := Gathered.run ⟨ready, window⟩ legal.1
  refine ⟨fun i c hc => ?_, fun i k hc hr => relayed_newest hr hg valid legal.2 hc, ready.followed _⟩
  obtain ⟨c', hc', hle⟩ := hg.forward legal.2 hc
  have hcomp := (hg.run legal.2).held hc'
  exact ⟨c', hc', hcomp, hle, fun hV => hcomp.newest (hV ▸ (hg.held hc).inWindow) (hV ▸ hle)⟩

end

/-- Node 0 wrote version 0 on top of version 65535, node 1 holds the latter and node 2 nothing.  Node 0 is heard by
node 1, which is heard by node 2, while old frames are still about. -/
theorem newest_copy_spreads_over_two_hops :
    let cfg : Settings := ⟨0x8E89BED6, 38, 10, 100⟩
    let old : List UInt8 := [0xD6, 0xBE, 0x89, 0x8E, 1, 11, 0x22, 0, 0, 0, 0, 0, 3, 0, 0xFF, 0xFF, 7]
    let new : List UInt8 := [0xD6, 0xBE, 0x89, 0x8E, 1, 11, 0x11, 0, 0, 0, 0, 0, 3, 0, 0, 0, 8]
    let joined (n : UInt8) : List (Operation × Nat) :=
      [(.start cfg ⟨n, 0, 0, 0, 0, 0⟩ true, 0), (.signal .tick, 1), (.signal .started, 2)]
    let writer := joined 0x11 ++ [(.receive old, 3), (.signal .ended, 4), (.write 3 [8], 5)]
    let relay := joined 0x12 ++ [(.receive old, 3)]
    let a : Air := ⟨[Engine.fresh.run writer, Engine.fresh.run relay, Engine.fresh.run (joined 0x13)], [old]⟩
    let pre : List Event := [⟨0, .signal .tick, 6⟩]
    let mid : List Event := [⟨0, .signal .started, 1000000⟩, ⟨2, .receive old, 7⟩, ⟨1, .receive new, 8⟩,
      ⟨1, .signal .ended, 9⟩, ⟨1, .signal .tick, 10⟩, ⟨1, .signal .started, 1000000⟩, ⟨2, .receive new, 9⟩,
      ⟨2, .receive old, 9⟩]
    a.Ready cfg ∧ (∀ c ∈ a.copies cfg.accessAddress 3, c.Compatible 65535 0 [8]) ∧ a.Legal (Spares 3) (pre ++ mid) ∧
    (a.run pre).copyAt? 2 3 = none ∧
    ∃ c, (a.run (pre ++ mid)).copyAt? 2 3 = some c ∧ c.version = 0 ∧ c.data = [8] := by
  intro cfg old new joined writer relay a pre mid
  have ready : a.Ready cfg := by
    have up : ∀ e ∈ a.nodes, e.settings = .ok cfg := by decide +kernel
    have reachable : ∀ e ∈ a.nodes, e.Reachable := by
      refine List.forall_mem_cons.2 ⟨⟨writer, rfl⟩, List.forall_mem_cons.2 ⟨⟨relay, rfl⟩, ?_⟩⟩
      exact List.forall_mem_singleton.2 ⟨joined 0x13, rfl⟩
    exact fun e he => ⟨reachable e he, up e he⟩
  have window : ∀ c ∈ a.copies cfg.accessAddress 3, c.Compatible 65535 0 [8] := by decide +kernel
  have legal : a.Legal (Spares 3) (pre ++ mid) := by decide +kernel
  have blank : (a.run pre).copyAt? 2 3 = none := by decide +kernel
  have held : ((a.run pre).copyAt? 0 3).map (·.version) = some 0 := by decide +kernel
  obtain ⟨d, hd, hV⟩ := Option.map_eq_some_iff.1 held
  have carries : (copyIn? cfg.accessAddress 3 new).isSome = true := by decide
  have relayed : Relayed cfg.accessAddress 3 (a.run pre) 0 mid 2 := by
    show Relayed _ _ _ 0 (⟨0, .signal .started, 1000000⟩ :: ([⟨2, .receive old, 7⟩] ++ ⟨1, .receive new, 8⟩ ::
      ⟨1, .signal .ended, 9⟩ :: ⟨1, .signal .tick, 10⟩ :: mid.drop 5)) 2
    refine .hop rfl ?_ carries ?_ (.wait (.wait ?_))
    · decide +kernel
    · decide +kernel
    show Relayed _ _ _ 1 (⟨1, .signal .started, 1000000⟩ :: ([] ++ ⟨2, .receive new, 9⟩ :: [⟨2, .receive old, 9⟩])) 2
    refine .hop rfl ?_ carries ?_ (.wait (.refl ..))
    · decide +kernel
    · decide +kernel
  exact ⟨ready, window, legal, blank,
    (newest_copy_spreads ready (by decide) window pre mid legal).2.1 0 2 ⟨d, hd, hV⟩ relayed⟩

end Air
end ValueMesh
