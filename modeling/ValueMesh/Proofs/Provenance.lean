import ValueMesh.Proofs.Air
import ValueMesh.Proofs.Telling
import ValueMesh.Proofs.Windows
/-!
# Where copies and notices come from

Fresh nodes, each at an address of its own, are brought up and do anything at all with one another's frames.  The
ledger of such a course lists the writes that were answered with a version.  Every copy that is held or in flight, and
every notice that waits, is of one write of the ledger in all that it says (`copies_come_from_writes`): nothing is
ever put together from two writes or from two handles.
-/
namespace ValueMesh
namespace Air

open Engine (Operation)

section

variable [Jitter]

/-! ## Courses of events -/

def ofAddresses (addresses : List Address) : Air := ⟨addresses.map fun _ => Engine.fresh, []⟩

def Joins (cfg : Settings) (addresses : List Address) (x : Event) : Prop :=
  match x.op with
  | .start cfg' address _ => cfg' = cfg ∧ addresses[x.node]? = some address
  | _ => True

instance (cfg : Settings) (addresses : List Address) : DecidablePred (Joins cfg addresses)
  | ⟨_, .start .., _⟩ => inferInstanceAs (Decidable (_ ∧ _))
  | ⟨_, .write .., _⟩ | ⟨_, .read _, _⟩ | ⟨_, .stamp _, _⟩ | ⟨_, .request _, _⟩ | ⟨_, .takeNotice, _⟩
  | ⟨_, .signal _, _⟩ | ⟨_, .windowRefused, _⟩ | ⟨_, .receive _, _⟩ => inferInstanceAs (Decidable True)

/-- What fresh nodes at `addresses` may do together under the settings `cfg`. -/
structure Course (cfg : Settings) (addresses : List Address) (events : List Event) : Prop where
  legal : (ofAddresses addresses).Legal (fun _ => True) events
  joins : ∀ x ∈ events, Joins cfg addresses x

def ledger (a : Air) : List Event → List Write
  | [] => []
  | x :: rest => (a.written? x).toList ++ (a.step x).ledger rest

/-- The copy was made by a write of the ledger `ws`: of its handle, answered with its version, with its bytes, at the
node whose address is its origin. -/
def Published (addresses : List Address) (ws : List Write) (c : Copy) : Prop :=
  ∃ w ∈ ws, ∃ origin, addresses[w.node]? = some origin ∧ c = w.copy origin

def Enrolled (a : Air) (cfg : Settings) (addresses : List Address) : Prop :=
  ∀ (i : Nat) (e : Engine), a.nodes[i]? = some e →
    e.Reachable ∧ ∀ cfg', e.settings = .ok cfg' → cfg' = cfg ∧ addresses[i]? = some e.address

theorem ledger_append (a : Air) (pre post : List Event) :
    a.ledger (pre ++ post) = a.ledger pre ++ (a.run pre).ledger post := by
  induction pre generalizing a with
  | nil => rfl
  | cons x rest ih =>
    rw [List.cons_append, ledger, ih, ← List.append_assoc]
    rfl

/-- What every event preserves, of the air and of the writes so far, a whole run preserves. -/
theorem run_ledger {P : Air → List Write → Prop} {Q : Event → Prop}
    (step : ∀ {a : Air} {ws : List Write} {x : Event}, P a ws → (∀ frame ∈ received? x.op, frame ∈ a.frames) → Q x →
      P (a.step x) (ws ++ (a.written? x).toList)) :
    ∀ {events : List Event} {a : Air} {ws : List Write}, P a ws → a.Legal (fun _ => True) events →
      (∀ x ∈ events, Q x) → P (a.run events) (ws ++ a.ledger events)
  | [], _, ws, hp, _, _ => by rwa [ledger, List.append_nil]
  | x :: rest, a, ws, hp, ⟨_, inFlight, legal⟩, hq => by
    have hx := step hp inFlight (hq x List.mem_cons_self)
    rw [ledger, ← List.append_assoc]
    exact run_ledger step hx legal fun y hy => hq y (List.mem_cons_of_mem _ hy)

variable {a : Air} {cfg : Settings} {addresses : List Address} {ws : List Write} {x : Event}

/-! ## Nodes and their addresses -/

theorem Enrolled.under (ha : a.Enrolled cfg addresses) : a.Under cfg := by
  intro e he
  obtain ⟨i, hi⟩ := List.mem_iff_getElem?.1 he
  obtain ⟨hr, hid⟩ := ha i e hi
  exact ⟨hr, fun cfg' up => (hid cfg' up).1⟩

theorem followed_ofAddresses (addresses : List Address) (events : List Event) :
    (ofAddresses addresses).Followed events :=
  followed_of_reachable (fun _ he => (List.mem_map.1 he).elim fun _ h => h.2 ▸ Engine.reachable_fresh) events

theorem enrolled_ofAddresses (cfg : Settings) (addresses : List Address) :
    (ofAddresses addresses).Enrolled cfg addresses := by
  intro i e he
  rw [ofAddresses, List.getElem?_map] at he
  obtain ⟨-, -, rfl⟩ := Option.map_eq_some_iff.1 he
  exact ⟨Engine.reachable_fresh, nofun⟩

theorem Enrolled.step (ha : a.Enrolled cfg addresses) (joins : Joins cfg addresses x) :
    (a.step x).Enrolled cfg addresses := by
  intro i e he
  rw [getElem?_step] at he
  obtain ⟨e₀, h₀, rfl⟩ := Option.map_eq_some_iff.1 he
  obtain ⟨hr, hid⟩ := ha i e₀ h₀
  split
  · rename_i hnode
    refine ⟨hr.perform .., fun cfg' up => ?_⟩
    rcases (Engine.step_perform e₀ x.op x.now).identity with ⟨hs, haddr⟩ | ⟨cfg'', address, hostReady, hop, hs, haddr⟩
    · rw [haddr]
      exact hid cfg' (hs ▸ up)
    · rw [Joins, hop] at joins
      cases hs.symm.trans up
      rw [haddr, ← hnode]
      exact joins
  · exact ⟨hr, hid⟩

theorem Enrolled.address_of_written? {w : Write} {e : Engine} (ha : a.Enrolled cfg addresses)
    (hw : a.written? x = some w) (he : a.nodes[w.node]? = some e) : addresses[w.node]? = some e.address := by
  obtain ⟨-, -, e', evicted, he', answered⟩ := written?_eq_some_iff.1 hw
  cases he.symm.trans he'
  obtain ⟨e'', hwrite⟩ := Engine.write_of_written answered
  obtain ⟨cfg', up⟩ := Engine.exists_settings_of_isUp (Engine.write_of_ok hwrite).1
  exact ((ha w.node e he).2 cfg' up).2

/-! ## One event -/

omit [Jitter] in
theorem Published.append {c : Copy} (hc : Published addresses ws c) (more : List Write) :
    Published addresses (ws ++ more) c := by
  obtain ⟨w, hw, horigin⟩ := hc
  exact ⟨w, List.mem_append_left _ hw, horigin⟩

theorem Enrolled.published {w : Write} {e : Engine} (ha : a.Enrolled cfg addresses) (ws : List Write)
    (hw : a.written? x = some w) (he : a.nodes[w.node]? = some e) :
    Published addresses (ws ++ (a.written? x).toList) (w.copy e.address) :=
  ⟨w, List.mem_append_right _ (Option.mem_toList.2 hw), e.address, ha.address_of_written? hw he, rfl⟩

theorem decode_of_sent? (ha : a.Under cfg) {frame : List UInt8} (sent : a.sent? x = some frame) :
    ∃ adv, Advertisement.decode frame cfg.accessAddress = .ok adv := by
  obtain ⟨e, he, hf⟩ := Option.bind_eq_some_iff.1 sent
  obtain ⟨hr, up⟩ := ha e (List.mem_of_getElem? he)
  obtain ⟨sig, mesh, channel, -, ht⟩ := signal_of_frame? hf
  obtain ⟨cfg', up', -, -, htx, -⟩ := Engine.signal_of_open ht
  cases up cfg' up'
  obtain ⟨h, -, said, -⟩ := (Engine.sends_takeFrame hr up' x.now).conveys frame htx.symm
  rcases said with ⟨hd, -⟩ | ⟨r, -, -, hd, -⟩
  · exact ⟨_, hd⟩
  · exact ⟨_, hd⟩

structure Traced (a : Air) (cfg : Settings) (addresses : List Address) (ws : List Write) : Prop where
  enrolled : a.Enrolled cfg addresses
  decodes : ∀ frame ∈ a.frames, ∃ adv, Advertisement.decode frame cfg.accessAddress = .ok adv
  copies : ∀ h, ∀ c ∈ a.copies cfg.accessAddress h, Published addresses ws c
  notices : ∀ e ∈ a.nodes, ∀ n ∈ e.inbox.pending, ∃ version,
    Published addresses ws ⟨n.handle, version, n.origin, n.data⟩

theorem traced_ofAddresses (cfg : Settings) (addresses : List Address) :
    (ofAddresses addresses).Traced cfg addresses [] where
  enrolled := enrolled_ofAddresses cfg addresses
  decodes := nofun
  copies h c hc := by
    rcases mem_copies_iff.1 hc with ⟨i, hi⟩ | ⟨frame, hf, -⟩
    · obtain ⟨e, he, hheld⟩ := copyAt?_eq_some_iff.1 hi
      rw [ofAddresses, List.getElem?_map] at he
      obtain ⟨-, -, rfl⟩ := Option.map_eq_some_iff.1 he
      rw [Engine.reachable_fresh.copy?_of_down rfl h] at hheld
      cases hheld
    · cases hf
  notices e he n hn := by
    obtain ⟨-, -, rfl⟩ := List.mem_map.1 he
    cases hn

theorem Traced.told {e : Engine} {n : Notice} (ht : a.Traced cfg addresses ws)
    (inFlight : ∀ frame ∈ received? x.op, frame ∈ a.frames) (he : a.nodes[x.node]? = some e)
    (told : e.told? x.op x.now = some n) :
    ∃ version, Published addresses (ws ++ (a.written? x).toList) ⟨n.handle, version, n.origin, n.data⟩ := by
  rcases Engine.source_of_told? told with
    ⟨version, evicted, hop, answered, horigin⟩ | ⟨frame, c, hop, ⟨-, cfg', up, -, hd⟩, hh, hdata, horigin⟩
  · -- The notice of the node's own write, which is entered into the ledger by the same event.
    have hw : a.written? x = some ⟨x.node, n.handle, version, n.data⟩ :=
      written?_eq_some_iff.2 ⟨rfl, hop, e, evicted, he, hop ▸ answered⟩
    rw [horigin]
    exact ⟨version, ht.enrolled.published ws hw he⟩
  · -- The notice of a copy on a frame in flight: it was published before, under the version it carries.
    cases ((ht.enrolled _ e he).2 cfg' up).1
    have hframe : frame ∈ a.frames := inFlight frame (hop ▸ rfl)
    have hp := ht.copies c.handle c (mem_copies_of_inFlight hframe (copyIn?_of_decode hd))
    rw [← hh, ← hdata, ← horigin]
    exact ⟨c.version, hp.append _⟩

theorem Traced.step (ht : a.Traced cfg addresses ws) (inFlight : ∀ frame ∈ received? x.op, frame ∈ a.frames)
    (joins : Joins cfg addresses x) : (a.step x).Traced cfg addresses (ws ++ (a.written? x).toList) where
  enrolled := ht.enrolled.step joins
  decodes frame hf := by
    rcases mem_frames_step.1 hf with hs | hf
    · exact decode_of_sent? ht.enrolled.under hs
    · exact ht.decodes frame hf
  copies h c hc := by
    rcases mem_copies_step ht.enrolled.under inFlight hc with hc | ⟨w, e, hw, -, he, rfl⟩
    · exact (ht.copies h c hc).append _
    · exact ht.enrolled.published ws hw he
  notices e he n hn := by
    obtain ⟨i, hi⟩ := List.mem_iff_getElem?.1 he
    rw [getElem?_step] at hi
    obtain ⟨e₀, h₀, rfl⟩ := Option.map_eq_some_iff.1 hi
    have old : n ∈ e₀.inbox.pending → ∃ version,
        Published addresses (ws ++ (a.written? x).toList) ⟨n.handle, version, n.origin, n.data⟩ := by
      intro hn
      obtain ⟨version, hp⟩ := ht.notices e₀ (List.mem_of_getElem? h₀) n hn
      exact ⟨version, hp.append _⟩
    split at hn
    · rename_i hnode
      rcases Engine.mem_pending_perform hn with hn | told
      · exact old hn
      · exact ht.told inFlight (hnode ▸ h₀) told
    · exact old hn

/-! ## Whole courses -/

theorem Course.traced {events : List Event} (course : Course cfg addresses events) :
    ((ofAddresses addresses).run events).Traced cfg addresses ((ofAddresses addresses).ledger events) :=
  run_ledger (P := fun a ws => a.Traced cfg addresses ws) Traced.step (traced_ofAddresses cfg addresses) course.legal
    course.joins

/-- **Copies and notices come from writes.**  Whatever fresh nodes at any addresses do together under settings `cfg`:
every copy that a node holds was made by one write at the node whose address is its origin, with its handle, its bytes
and its version as the answer; every frame in flight can be read, and so was the copy that it carries; and so were
handle, bytes and origin of every notice that waits at a node, under some version.  Up to `Machine.latest` the machine
follows them. -/
theorem copies_come_from_writes {events : List Event} (course : Course cfg addresses events) :
    (∀ e ∈ ((ofAddresses addresses).run events).nodes, ∀ h r, e.store.replicas.get? h = some r → r.allocated = true →
      Published addresses ((ofAddresses addresses).ledger events) (r.toCopy h)) ∧
    (∀ frame ∈ ((ofAddresses addresses).run events).frames, ∃ adv,
      Advertisement.decode frame cfg.accessAddress = .ok adv ∧
      (adv.kind = .value → Published addresses ((ofAddresses addresses).ledger events) adv.copy)) ∧
    (∀ e ∈ ((ofAddresses addresses).run events).nodes, ∀ n ∈ e.inbox.pending, ∃ version,
      Published addresses ((ofAddresses addresses).ledger events) ⟨n.handle, version, n.origin, n.data⟩) ∧
    (ofAddresses addresses).Followed events := by
  have ht := course.traced
  refine ⟨fun e he h r held hal => ?_, fun frame hf => ?_, ht.notices, followed_ofAddresses _ _⟩
  · obtain ⟨i, hi⟩ := List.mem_iff_getElem?.1 he
    have hcopy : e.store.copy? h = some (r.toCopy h) := Store.copy?_eq_some_iff.2 ⟨r, held, hal, rfl⟩
    exact ht.copies h _ (mem_copies_of_held _ (copyAt?_eq_some_iff.2 ⟨e, hi, hcopy⟩))
  · obtain ⟨⟨kind, c⟩, hd⟩ := ht.decodes frame hf
    refine ⟨_, hd, ?_⟩
    rintro rfl
    exact ht.copies c.handle c (mem_copies_of_inFlight hf (copyIn?_of_decode hd))

end

/-- Nodes 0 and 2 write the same value, and nodes 1 and 2 hear what node 0 wrote.  To node 2 it is a rival, and the
notice of that is of node 0's write. -/
theorem notice_of_a_rival_comes_from_its_write :
    let cfg : Settings := ⟨0x8E89BED6, 38, 10, 100⟩
    let addresses : List Address := [⟨0x11, 0, 0, 0, 0, 0⟩, ⟨0x12, 0, 0, 0, 0, 0⟩, ⟨0x13, 0, 0, 0, 0, 0⟩]
    let frame : List UInt8 := [0xD6, 0xBE, 0x89, 0x8E, 1, 11, 0x11, 0, 0, 0, 0, 0, 3, 0, 1, 0, 7]
    let events : List Event := [⟨0, .start cfg ⟨0x11, 0, 0, 0, 0, 0⟩ true, 0⟩,
      ⟨1, .start cfg ⟨0x12, 0, 0, 0, 0, 0⟩ true, 0⟩, ⟨2, .start cfg ⟨0x13, 0, 0, 0, 0, 0⟩ true, 0⟩,
      ⟨0, .write 3 [7], 1⟩, ⟨2, .write 3 [9], 1⟩, ⟨0, .signal .tick, 2⟩, ⟨0, .signal .started, 1000000⟩,
      ⟨1, .signal .tick, 2⟩, ⟨1, .signal .started, 3⟩, ⟨1, .receive frame, 4⟩, ⟨2, .signal .tick, 2⟩,
      ⟨2, .signal .started, 3⟩, ⟨2, .receive frame, 4⟩]
    let a := ofAddresses addresses
    Course cfg addresses events ∧ a.ledger events = [⟨0, 3, 1, [7]⟩, ⟨2, 3, 1, [9]⟩] ∧
    (∃ e ∈ (a.run events).nodes[1]?, (e.store.copy? 3).map (·.version) = some 1) ∧
    ∃ e ∈ (a.run events).nodes[2]?, ⟨.conflictingVal, 3, [7], ⟨0x11, 0, 0, 0, 0, 0⟩⟩ ∈ e.inbox.pending ∧
      ∃ version, Published addresses (a.ledger events) ⟨3, version, ⟨0x11, 0, 0, 0, 0, 0⟩, [7]⟩ := by
  intro cfg addresses frame events a
  have course : Course cfg addresses events := ⟨by decide +kernel, by decide +kernel⟩
  have written : a.ledger events = [⟨0, 3, 1, [7]⟩, ⟨2, 3, 1, [9]⟩] := by decide +kernel
  have heard : ∃ e ∈ (a.run events).nodes[1]?, (e.store.copy? 3).map (·.version) = some 1 := by decide +kernel
  have rival : ∃ e ∈ (a.run events).nodes[2]?,
      ⟨.conflictingVal, 3, [7], ⟨0x11, 0, 0, 0, 0, 0⟩⟩ ∈ e.inbox.pending := by decide +kernel
  obtain ⟨e, he, hn⟩ := rival
  exact ⟨course, written, heard, e, he, hn, (copies_come_from_writes course).2.2.1 e (List.mem_of_getElem? he) _ hn⟩

end Air
end ValueMesh
