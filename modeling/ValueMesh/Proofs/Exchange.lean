import ValueMesh.Proofs.Air
/-!
# Two nodes that tell each other what they hold

Two nodes that hold a value and hear each other's copy of it agree afterwards if their versions differed, whatever the
versions are: no window is assumed here, since of two versions one is newer wherever they lie.  Under one version each
keeps its own bytes, and reports the other's if they are others (`exchange_settles`).
-/
namespace ValueMesh
namespace Engine

section

variable [Jitter] {e : Engine} {frame : List UInt8} {c : Copy} {r : Replica}

/-! ## One node hears a copy -/

theorem hears_of_encode {cfg : Settings} (up : e.settings = .ok cfg) (listening : e.session.inWindow = true)
    (valid : cfg.covers c.handle = true) (written : (Advertisement.value c).encode cfg.accessAddress = .ok frame) :
    e.Hears frame c := by
  have hne : c.handle ≠ 0 := (Handle.within_iff.1 valid).1
  exact ⟨listening, cfg, up, valid, Advertisement.decode_of_encode hne written⟩

theorem inbox_receive (now : Nat) (hears : e.Hears frame c) (held : e.store.replicas.get? c.handle = some r) :
    (e.receive frame now).2.inbox = (e.deliver (Store.announcement c (r.judge c))).2.inbox := by
  rw [receive_of_hears now hears, hearCopy_of_get? now held (length_le_of_hears hears)]

theorem copy?_receive_of_held (now : Nat) (hears : e.Hears frame c)
    (held : e.store.replicas.get? c.handle = some r) (ha : r.allocated = true) :
    (e.receive frame now).2.store.copy? c.handle = some (c.upon (some (r.toCopy c.handle))) := by
  have hc : e.store.covers c.handle = true := Store.covers_iff_exists_get?.2 ⟨r, held⟩
  rw [copy?_receive now hears hc, Store.copy?_eq_some_iff.2 ⟨r, held, ha, rfl⟩]

theorem receive_of_newer (now : Nat) (hears : e.Hears frame c) (held : e.store.replicas.get? c.handle = some r)
    (ha : r.allocated = true) (hn : Version.newer c.version r.version = true) :
    (e.receive frame now).2.store.copy? c.handle = some c ∧
    (e.receive frame now).2.inbox = (e.inbox.push ⟨.updateVal, c.handle, c.data, c.origin⟩).2 := by
  rw [copy?_receive_of_held now hears held ha, Copy.upon_of_newer hn, inbox_receive now hears held,
    Replica.judge_of_newer ha hn]
  exact ⟨rfl, rfl⟩

theorem receive_of_older (now : Nat) (hears : e.Hears frame c) (held : e.store.replicas.get? c.handle = some r)
    (ha : r.allocated = true) (hn : Version.newer r.version c.version = true) :
    (e.receive frame now).2.store = e.store ∧ (e.receive frame now).2.inbox = e.inbox := by
  have hj := Replica.judge_of_older ha hn
  rw [store_receive now hears, Store.hear_of_get? now held (length_le_of_hears hears), inbox_receive now hears held, hj]
  exact ⟨rfl, rfl⟩

theorem receive_of_same (now : Nat) (hears : e.Hears frame c) (held : e.store.replicas.get? c.handle = some r)
    (ha : r.allocated = true) (hv : c.version = r.version) (hd : c.data = r.data) :
    (e.receive frame now).2.store = e.store ∧ (e.receive frame now).2.inbox = e.inbox := by
  have hj := Replica.judge_of_same ha hv hd
  rw [store_receive now hears, Store.hear_of_get? now held (length_le_of_hears hears), inbox_receive now hears held, hj]
  exact ⟨rfl, rfl⟩

theorem receive_of_rival (now : Nat) (hears : e.Hears frame c) (held : e.store.replicas.get? c.handle = some r)
    (ha : r.allocated = true) (hv : c.version = r.version) (hd : c.data ≠ r.data) :
    (e.receive frame now).2.store.copy? c.handle = some (r.toCopy c.handle) ∧
    (e.receive frame now).2.inbox = if r.knows (Mark.ofCopy c) then e.inbox
      else (e.inbox.push ⟨.conflictingVal, c.handle, c.data, c.origin⟩).2 := by
  have hn : Version.newer c.version r.version = false := hv ▸ Version.newer_irrefl _
  rw [copy?_receive_of_held now hears held ha, Copy.upon_of_not_newer hn, inbox_receive now hears held,
    Replica.judge_of_rival ha hv hd]
  cases r.knows (Mark.ofCopy c) <;> exact ⟨rfl, rfl⟩

/-! ## Both nodes -/

/-- What an exchange makes of `A`, which held `rA` of the value of `h`, and of `B`, which held `rB`. -/
structure Exchanged (h : Handle) (rA rB : Replica) (A B A' B' : Engine) : Prop where
  /-- Both hold the newer copy, and only who had the older one is told. -/
  differ : rA.version ≠ rB.version →
    (Version.newer rA.version rB.version = true ∧ A'.store.copy? h = some (rA.toCopy h) ∧
      B'.store.copy? h = some (rA.toCopy h) ∧ A'.inbox = A.inbox ∧
      B'.inbox = (B.inbox.push ⟨.updateVal, h, rA.data, rA.origin⟩).2) ∨
    (Version.newer rB.version rA.version = true ∧ A'.store.copy? h = some (rB.toCopy h) ∧
      B'.store.copy? h = some (rB.toCopy h) ∧ B'.inbox = B.inbox ∧
      A'.inbox = (A.inbox.push ⟨.updateVal, h, rB.data, rB.origin⟩).2)
  agree : rA.version = rB.version → rA.data = rB.data →
    A'.store = A.store ∧ B'.store = B.store ∧ A'.inbox = A.inbox ∧ B'.inbox = B.inbox
  /-- Each keeps its own copy, and is told of the other's unless it knows it. -/
  rival : rA.version = rB.version → rA.data ≠ rB.data →
    A'.store.copy? h = some (rA.toCopy h) ∧ B'.store.copy? h = some (rB.toCopy h) ∧
    (A'.inbox = if rA.knows (Mark.ofCopy (rB.toCopy h)) then A.inbox
      else (A.inbox.push ⟨.conflictingVal, h, rB.data, rB.origin⟩).2) ∧
    B'.inbox = if rB.knows (Mark.ofCopy (rA.toCopy h)) then B.inbox
      else (B.inbox.push ⟨.conflictingVal, h, rA.data, rA.origin⟩).2

variable {A B : Engine} {cfg : Settings} {h : Handle} {rA rB : Replica} {FA FB : List UInt8}

theorem exchanged_of_hears (heldA : A.store.replicas.get? h = some rA) (allocA : rA.allocated = true)
    (heldB : B.store.replicas.get? h = some rB) (allocB : rB.allocated = true) (hearsA : A.Hears FB (rB.toCopy h))
    (hearsB : B.Hears FA (rA.toCopy h)) (t u : Nat) :
    Exchanged h rA rB A B (A.receive FB t).2 (B.receive FA u).2 where
  differ hne := by
    have keptA : A.store.copy? h = some (rA.toCopy h) := Store.copy?_eq_some_iff.2 ⟨rA, heldA, allocA, rfl⟩
    have keptB : B.store.copy? h = some (rB.toCopy h) := Store.copy?_eq_some_iff.2 ⟨rB, heldB, allocB, rfl⟩
    rcases Version.newer_or_newer hne with hn | hn
    · obtain ⟨sA, iA⟩ := receive_of_older t hearsA heldA allocA hn
      obtain ⟨sB, iB⟩ := receive_of_newer u hearsB heldB allocB hn
      exact Or.inl ⟨hn, sA ▸ keptA, sB, iA, iB⟩
    · obtain ⟨sA, iA⟩ := receive_of_newer t hearsA heldA allocA hn
      obtain ⟨sB, iB⟩ := receive_of_older u hearsB heldB allocB hn
      exact Or.inr ⟨hn, sA, sB ▸ keptB, iB, iA⟩
  agree hv hd := by
    obtain ⟨sA, iA⟩ := receive_of_same t hearsA heldA allocA hv.symm hd.symm
    obtain ⟨sB, iB⟩ := receive_of_same u hearsB heldB allocB hv hd
    exact ⟨sA, sB, iA, iB⟩
  rival hv hd := by
    obtain ⟨sA, iA⟩ := receive_of_rival t hearsA heldA allocA hv.symm hd.symm
    obtain ⟨sB, iB⟩ := receive_of_rival u hearsB heldB allocB hv hd
    exact ⟨sA, sB, iA, iB⟩

/-- **An exchange settles two nodes.**  Of any two nodes of one mesh that came about, that have a window each and that
hold a value, there are frames that say what they hold; and whichever is delivered first, and at whatever times, both
nodes end with the newer copy, or as they were if they agreed, or with a report each of a rival they did not know.  The
machine does the same up to `Machine.latest`. -/
theorem exchange_settles (hA : A.Reachable) (hB : B.Reachable) (upA : A.settings = .ok cfg)
    (upB : B.settings = .ok cfg) (listeningA : A.session.inWindow = true) (listeningB : B.session.inWindow = true)
    (heldA : A.store.replicas.get? h = some rA) (allocA : rA.allocated = true)
    (heldB : B.store.replicas.get? h = some rB) (allocB : rB.allocated = true) :
    ∃ FA FB, (Advertisement.value (rA.toCopy h)).encode cfg.accessAddress = .ok FA ∧
      (Advertisement.value (rB.toCopy h)).encode cfg.accessAddress = .ok FB ∧
      ∀ (t u : Nat) (order : List Air.Event),
        order = [⟨0, .receive FB, t⟩, ⟨1, .receive FA, u⟩] ∨ order = [⟨1, .receive FA, u⟩, ⟨0, .receive FB, t⟩] →
        (∃ A' B', (Air.run ⟨[A, B], [FA, FB]⟩ order).nodes = [A', B'] ∧ Exchanged h rA rB A B A' B') ∧
        Air.Followed ⟨[A, B], [FA, FB]⟩ order := by
  obtain ⟨FA, writtenA⟩ := Advertisement.exists_encode_value (c := rA.toCopy h) cfg.accessAddress (hA.length_le heldA)
  obtain ⟨FB, writtenB⟩ := Advertisement.exists_encode_value (c := rB.toCopy h) cfg.accessAddress (hB.length_le heldB)
  have valid : cfg.covers h = true := (hA.sound.covers upA).symm.trans (Store.covers_iff_exists_get?.2 ⟨rA, heldA⟩)
  have hearsA := hears_of_encode (c := rB.toCopy h) upA listeningA valid writtenB
  have hearsB := hears_of_encode (c := rA.toCopy h) upB listeningB valid writtenA
  refine ⟨FA, FB, writtenA, writtenB, fun t u order horder => ?_⟩
  have reachable : ∀ e ∈ [A, B], e.Reachable := List.forall_mem_cons.2 ⟨hA, List.forall_mem_singleton.2 hB⟩
  have exchanged := exchanged_of_hears heldA allocA heldB allocB hearsA hearsB t u
  refine ⟨⟨_, _, ?_, exchanged⟩, Air.followed_of_reachable reachable order⟩
  rcases horder with rfl | rfl <;> rfl

end

/-- Versions half the circle apart: one node heard version 0x8000, the other wrote version 0 on top of 65535. -/
theorem exchange_half_way_round_settles :
    let cfg : Settings := ⟨0x8E89BED6, 38, 10, 100⟩
    let joined (n : UInt8) : List (Operation × Nat) :=
      [(.start cfg ⟨n, 0, 0, 0, 0, 0⟩ true, 0), (.signal .tick, 1), (.signal .started, 2)]
    let A := fresh.run (joined 0x11 ++
      [(.receive [0xD6, 0xBE, 0x89, 0x8E, 1, 11, 0x22, 0, 0, 0, 0, 0, 3, 0, 0, 0x80, 7], 3)])
    let B := fresh.run (joined 0x12 ++
      [(.receive [0xD6, 0xBE, 0x89, 0x8E, 1, 11, 0x22, 0, 0, 0, 0, 0, 3, 0, 0xFF, 0xFF, 9], 3), (.write 3 [8], 4)])
    let rA : Replica := ⟨true, [7], 0x8000, ⟨0x22, 0, 0, 0, 0, 0⟩, 3, []⟩
    let rB : Replica := ⟨true, [8], 0, ⟨0x12, 0, 0, 0, 0, 0⟩, 4, []⟩
    A.store.replicas.get? 3 = some rA ∧ B.store.replicas.get? 3 = some rB ∧
    ∃ FA FB, (Advertisement.value (rA.toCopy 3)).encode cfg.accessAddress = .ok FA ∧
      (Advertisement.value (rB.toCopy 3)).encode cfg.accessAddress = .ok FB ∧
      ∀ (t u : Nat) (order : List Air.Event),
        order = [⟨0, .receive FB, t⟩, ⟨1, .receive FA, u⟩] ∨ order = [⟨1, .receive FA, u⟩, ⟨0, .receive FB, t⟩] →
        ∃ A' B', (Air.run ⟨[A, B], [FA, FB]⟩ order).nodes = [A', B'] ∧ Exchanged 3 rA rB A B A' B' := by
  intro cfg joined A B rA rB
  have upA : A.settings = .ok cfg := by decide +kernel
  have upB : B.settings = .ok cfg := by decide +kernel
  have listeningA : A.session.inWindow = true := by decide +kernel
  have listeningB : B.session.inWindow = true := by decide +kernel
  have heldA : A.store.replicas.get? 3 = some rA := by decide +kernel
  have heldB : B.store.replicas.get? 3 = some rB := by decide +kernel
  have reachableA : A.Reachable := ⟨_, rfl⟩
  have reachableB : B.Reachable := ⟨_, rfl⟩
  -- What the nodes were made of must not be computed again.
  clear_value A B
  obtain ⟨FA, FB, writtenA, writtenB, settles⟩ :=
    exchange_settles reachableA reachableB upA upB listeningA listeningB heldA rfl heldB rfl
  exact ⟨heldA, heldB, FA, FB, writtenA, writtenB, fun t u order either => (settles t u order either).1⟩

end Engine
end ValueMesh
