import ValueMesh.Proofs.Running
/-!
# What a window is used for

A window that opens is used just if a request waits or a value is due (`next_eq_none_iff`), and what is chosen then is
always sent: its replica exists, its frame can be written, and it alone is marked as sent.  That rests on settings,
store and timetable agreeing on the handles there are and on which of them hold a copy; `components_agree` says all of
it together.
-/
namespace ValueMesh

theorem Timer.isSome_due?_iff {t : Timer} : t.due?.isSome = true ↔ t ≠ .idle := by
  cases t <;> simp [due?]

/-- A wait that is over leaves the value armed for its due time. -/
theorem Timer.promote_of_due {t : Timer} {now due : Nat} (hd : t.due? = some due) (hle : due ≤ now) :
    ∃ interval, t.promote now = .armed due interval := by
  cases t with
  | idle => cases hd
  | armed d interval =>
    cases hd
    exact ⟨interval, rfl⟩
  | sent sentAt d interval =>
    cases hd
    exact ⟨interval, if_pos hle⟩

theorem Timer.isSome_interval? (t : Timer) : t.interval?.isSome = t.due?.isSome := by
  cases t <;> rfl

theorem Replica.isSome_copy? (r : Replica) (h : Handle) : (r.copy? h).isSome = r.allocated := by
  unfold copy?
  cases r.allocated <;> rfl

namespace Timetable

variable [Jitter]

/-! ## Choosing -/

theorem mem_pending_iff {t : Timetable} {h : Handle} (ht : t.slots.size ≤ 0x10000) :
    h ∈ t.pending ↔ t.requested h = true := by
  rw [pending, List.mem_map, requested_eq_true_iff]
  constructor
  · rintro ⟨⟨k, s⟩, hp, rfl⟩
    obtain ⟨he, hr⟩ := List.mem_filter.1 hp
    exact ⟨s, (HandleTable.mem_entries_iff ht).1 he, hr⟩
  · rintro ⟨s, hs, hr⟩
    exact ⟨(h, s), List.mem_filter.2 ⟨(HandleTable.mem_entries_iff ht).2 hs, hr⟩, rfl⟩

theorem pending_eq_nil_iff {t : Timetable} (ht : t.slots.size ≤ 0x10000) :
    t.pending = [] ↔ ∀ h, t.requested h = false := by
  simp only [List.eq_nil_iff_forall_not_mem, mem_pending_iff ht, Bool.not_eq_true]

/-- **What is ready once the waits that are over are found to be so**: the values that are due, each since its time. -/
theorem mem_ready_promote_iff {t : Timetable} {now due : Nat} {h : Handle} (ht : t.slots.size ≤ 0x10000) :
    (due, h) ∈ (t.promote now).ready now ↔ t.due? h = some due ∧ due ≤ now := by
  have hsize : (t.promote now).slots.size ≤ 0x10000 := (size_next t now).symm ▸ ht
  have hget : ∀ k, (t.promote now).slots.get? k = (t.slots.get? k).map (Slot.promote now) :=
    fun k => HandleTable.get?_map ..
  rw [ready, List.mem_filterMap]
  constructor
  · rintro ⟨⟨k, s⟩, hp, hs⟩
    have hg := (HandleTable.mem_entries_iff hsize).1 hp
    rw [hget] at hg
    obtain ⟨s₀, hs₀, rfl⟩ := Option.map_eq_some_iff.1 hg
    simp only at hs
    split at hs
    · rename_i d interval ht
      split at hs
      · rename_i hle
        cases hs
        have hdue : (s₀.promote now).timer.due? = s₀.timer.due? := Timer.due?_promote now s₀.timer
        rw [ht] at hdue
        exact ⟨by rw [due?, hs₀]; exact hdue.symm, hle⟩
      · cases hs
    · cases hs
  · rintro ⟨hd, hle⟩
    obtain ⟨s, hs, hdue⟩ := Option.bind_eq_some_iff.1 hd
    obtain ⟨interval, hp⟩ := Timer.promote_of_due hdue hle
    refine ⟨(h, s.promote now), (HandleTable.mem_entries_iff hsize).2 (by rw [hget, hs]; rfl), ?_⟩
    simp only [Slot.promote, hp, if_pos hle]

theorem ready_promote_eq_nil_iff {t : Timetable} (now : Nat) (ht : t.slots.size ≤ 0x10000) :
    (t.promote now).ready now = [] ↔ ∀ h due, t.due? h = some due → now < due := by
  rw [List.eq_nil_iff_forall_not_mem]
  constructor
  · intro hall h due hd
    exact Nat.not_le.1 fun hle => hall (due, h) ((mem_ready_promote_iff ht).2 ⟨hd, hle⟩)
  · rintro hall ⟨due, h⟩ hmem
    obtain ⟨hd, hle⟩ := (mem_ready_promote_iff ht).1 hmem
    exact Nat.not_le.2 (hall h due hd) hle

/-- **Nothing is chosen just if no request waits and no value is due.** -/
theorem next_eq_none_iff {t : Timetable} (now : Nat) (ht : t.slots.size ≤ 0x10000) : (t.next now).1 = none ↔
    (∀ h, t.requested h = false) ∧ ∀ h due, t.due? h = some due → now < due := by
  have hsize : (t.promote now).slots.size ≤ 0x10000 := (size_next t now).symm ▸ ht
  have hreq : (t.promote now).pending = [] ↔ ∀ h, t.requested h = false := by
    rw [pending_eq_nil_iff hsize]
    simp only [requested_promote]
  rw [← hreq, ← ready_promote_eq_nil_iff now ht]
  unfold next choice
  simp only
  split
  · rename_i h hh
    constructor
    · intro hc
      cases hc
    · rintro ⟨hnil, -⟩
      rw [hnil] at hh
      cases hh
  · rename_i hh
    rw [Option.map_eq_none_iff, least?_eq_none_iff]
    exact ⟨fun hr => ⟨least?_eq_none_iff.1 hh, hr⟩, And.right⟩

theorem isSome_next_iff {t : Timetable} (now : Nat) (ht : t.slots.size ≤ 0x10000) : (t.next now).1.isSome = true ↔
    (∃ h, t.requested h = true) ∨ ∃ h due, t.due? h = some due ∧ due ≤ now := by
  have hnone := next_eq_none_iff now ht
  constructor
  · intro hs
    refine Classical.byContradiction fun hw => ?_
    rw [hnone.2 ⟨fun h => ?_, fun h due hd => ?_⟩] at hs
    · cases hs
    · rw [← Bool.not_eq_true]
      exact fun hr => hw (Or.inl ⟨h, hr⟩)
    · exact Nat.not_le.1 fun hle => hw (Or.inr ⟨h, due, hd, hle⟩)
  · intro hw
    rw [← Option.ne_none_iff_isSome]
    intro hn
    obtain ⟨hreq, hdue⟩ := hnone.1 hn
    rcases hw with ⟨h, hr⟩ | ⟨h, due, hd, hle⟩
    · rw [hreq h] at hr
      cases hr
    · exact absurd hle (Nat.not_le.2 (hdue h due hd))

/-! ## Marking as sent -/

theorem get?_complete_of_ne {t : Timetable} {item : Item} {k : Handle} (now lastActivity : Nat)
    (hk : k ≠ item.handle) : (t.complete item now lastActivity).slots.get? k = t.slots.get? k := by
  have hput : ∀ s, (t.put item.handle s).slots.get? k = t.slots.get? k := by
    intro s
    rw [put, HandleTable.get?_set, if_neg hk]
  unfold complete
  split
  · split
    · rfl
    · exact hput _
  · split
    · rfl
    · split
      · rfl
      · exact hput _

theorem get?_complete_request {t : Timetable} {h : Handle} {s : Slot} (now lastActivity : Nat)
    (hs : t.slots.get? h = some s) :
    (t.complete (.request h) now lastActivity).slots.get? h = some { s with requested := false } := by
  unfold complete
  simp only [hs]
  rw [put, HandleTable.get?_set, if_pos rfl, hs]
  rfl

theorem get?_complete_of_recorded {t : Timetable} {h : Handle} {s : Slot} {previous : Nat} (now lastActivity : Nat)
    (hs : t.slots.get? h = some s) (hp : s.timer.interval? = some previous) :
    (t.complete (.value h) now lastActivity).slots.get? h = some { s with
      timer := .sent now (now + t.backoff previous now lastActivity * 1000 +
        (t.jitter (t.backoff previous now lastActivity * 250)).1) (t.backoff previous now lastActivity) } := by
  unfold complete
  simp only [hs, hp]
  rw [put, HandleTable.get?_set, if_pos rfl, hs]
  rfl

theorem get?_complete_value {t : Timetable} {h : Handle} {s : Slot} {previous : Nat} (now lastActivity : Nat)
    (hs : t.slots.get? h = some s) (hp : s.timer.interval? = some previous) : ∃ due,
    (t.complete (.value h) now lastActivity).slots.get? h =
      some { s with timer := .sent now due (t.backoff previous now lastActivity) } :=
  ⟨_, get?_complete_of_recorded now lastActivity hs hp⟩

theorem get?_next {t : Timetable} {h : Handle} {s : Slot} (now : Nat) (hs : t.slots.get? h = some s) :
    (t.next now).2.slots.get? h = some (s.promote now) := by
  unfold next promote
  rw [HandleTable.get?_map, hs]
  rfl

end Timetable
namespace Engine

section

variable [Jitter] {e : Engine} {cfg : Settings} {item : Item} {now : Nat}

/-! ## Sending -/

theorem size_le_of_up (he : e.Reachable) (up : e.settings = .ok cfg) : e.timetable.slots.size ≤ 0x10000 := by
  have hlt : cfg.handleCount.toNat < 0x10000 := cfg.handleCount.toNat_lt
  rw [he.sound.slots, he.sound.handles up]
  exact Nat.le_of_lt hlt

/-- **What is chosen can be sent.**  It is a request that waits, or a value of which a copy is held; the frame for it
can be written, and says just that. -/
theorem advertisement_of_next (he : e.Reachable) (up : e.settings = .ok cfg)
    (chosen : (e.timetable.next now).1 = some item) : cfg.covers item.handle = true ∧
    ∃ adv lastActivity, e.advertisement item now = some (adv, lastActivity) ∧
      ((item = .request item.handle ∧ e.timetable.requested item.handle = true ∧
        adv = .request item.handle e.address) ∨
      (item = .value item.handle ∧ ∃ r, e.store.replicas.get? item.handle = some r ∧ r.allocated = true ∧
        adv = .value (r.toCopy item.handle))) ∧
      ∀ mesh, ∃ frame, adv.encode mesh = .ok frame ∧ Advertisement.decode frame mesh = .ok adv := by
  have hsize := size_le_of_up he up
  cases item with
  | request h =>
    obtain ⟨s, hs, hr⟩ := Timetable.requested_of_next hsize chosen
    have hw : h.within e.store.handleCount = true := he.sound.slots ▸ HandleTable.within_of_get? hs
    have hc : cfg.covers h = true := (he.sound.covers up).symm.trans hw
    refine ⟨hc, _, _, rfl, Or.inl ⟨rfl, Timetable.requested_eq_true_iff.2 ⟨s, hs, hr⟩, rfl⟩, fun mesh => ?_⟩
    have henc : (Advertisement.request h e.address).encode mesh = .ok _ :=
      Advertisement.encode_eq_ok_iff.2 ⟨Nat.zero_le _, fun _ => rfl, rfl⟩
    exact ⟨_, henc, Advertisement.decode_of_encode (Handle.within_iff.1 hc).1 henc⟩
  | value h =>
    have hd := Timetable.isSome_due?_of_next hsize chosen
    rw [he.sound.waits h] at hd
    obtain ⟨c, hcopy⟩ := Option.isSome_iff_exists.1 hd
    obtain ⟨r, hr, ha, -⟩ := Store.copy?_eq_some_iff.1 hcopy
    have hc : cfg.covers h = true := (he.sound.covers up).symm.trans (Store.covers_iff_exists_get?.2 ⟨r, hr⟩)
    have hadv : e.advertisement (.value h) now = some (.value (r.toCopy h), r.lastActivity) := by
      rw [advertisement, hr]
      rfl
    refine ⟨hc, _, _, hadv, Or.inr ⟨rfl, r, hr, ha, rfl⟩, fun mesh => ?_⟩
    obtain ⟨frame, henc⟩ := Advertisement.exists_encode_value (c := r.toCopy h) mesh (he.length_le hr)
    exact ⟨frame, henc, Advertisement.decode_of_encode (Handle.within_iff.1 hc).1 henc⟩

theorem takeFrame_of_none (mesh : UInt32) (hn : (e.timetable.next now).1 = none) :
    e.takeFrame mesh now = (none, { e with timetable := e.timetable.promote now }) := by
  unfold takeFrame
  simp only [hn]
  rfl

theorem takeFrame_of_some {mesh : UInt32} {adv : Advertisement} {lastActivity : Nat} {frame : List UInt8}
    (chosen : (e.timetable.next now).1 = some item) (hadv : e.advertisement item now = some (adv, lastActivity))
    (written : adv.encode mesh = .ok frame) : e.takeFrame mesh now = (some frame, { e with
      timetable := (e.timetable.next now).2.complete item now lastActivity
      transmitted := Tally.bump e.transmitted }) := by
  unfold takeFrame
  simp only [chosen, Option.bind_some, hadv, Option.map_some, written]

/-! ## All components together -/

/-- What the frame `tx` says that `e` hands out at time `now`, and what that leaves in `e'`. -/
structure Sends (e : Engine) (cfg : Settings) (now : Nat) (tx : Option (List UInt8)) (e' : Engine) : Prop where
  /-- The window is used just if something waits for it. -/
  used : tx.isSome = true ↔
    (∃ h, e.timetable.requested h = true) ∨ ∃ h due, e.timetable.due? h = some due ∧ due ≤ now
  /-- A request that waited is sent and waits no more, or the copy held of a value is sent and marked so. -/
  conveys : ∀ frame ∈ tx, ∃ h, cfg.covers h = true ∧
    ((Advertisement.decode frame cfg.accessAddress = .ok (.request h e.address) ∧
      e.timetable.requested h = true ∧ e'.timetable.requested h = false ∧
      e'.timetable.timer? h = (e.timetable.promote now).timer? h) ∨
    (∃ r, e.store.replicas.get? h = some r ∧ r.allocated = true ∧
      Advertisement.decode frame cfg.accessAddress = .ok (.value (r.toCopy h)) ∧
      (∃ due interval, e'.timetable.timer? h = some (.sent now due interval)) ∧
      e'.timetable.requested h = e.timetable.requested h)) ∧
    -- Nothing else is marked as sent.
    ∀ k, k ≠ h → e'.timetable.slots.get? k = (e.timetable.promote now).slots.get? k
  unused : tx = none → e'.timetable = e.timetable.promote now
  counted : e'.transmitted = if tx.isSome then Tally.bump e.transmitted else e.transmitted
  kept : e'.store = e.store ∧ e'.inbox = e.inbox ∧ e'.address = e.address

/-- **What is chosen is sent, and only that is marked as sent.** -/
theorem sends_takeFrame (he : e.Reachable) (up : e.settings = .ok cfg) (now : Nat) :
    e.Sends cfg now (e.takeFrame cfg.accessAddress now).1 (e.takeFrame cfg.accessAddress now).2 := by
  have hused := Timetable.isSome_next_iff now (size_le_of_up he up)
  cases hn : (e.timetable.next now).1 with
  | none =>
    rw [hn] at hused
    rw [takeFrame_of_none _ hn]
    exact ⟨hused, nofun, fun _ => rfl, rfl, rfl, rfl, rfl⟩
  | some item =>
    rw [hn] at hused
    obtain ⟨hc, adv, lastActivity, hadv, hsaid, hframe⟩ := advertisement_of_next he up hn
    obtain ⟨frame, henc, hdec⟩ := hframe cfg.accessAddress
    rw [takeFrame_of_some hn hadv henc]
    refine ⟨hused, fun frame' hf => ?_, nofun, rfl, rfl, rfl, rfl⟩
    cases hf
    refine ⟨item.handle, hc, ?_, fun k hk => Timetable.get?_complete_of_ne now lastActivity hk⟩
    obtain ⟨s, hs⟩ : ∃ s, e.timetable.slots.get? item.handle = some s := by
      rw [← Option.isSome_iff_exists, HandleTable.isSome_get?, he.sound.slots, he.sound.handles up]
      exact hc
    have hs' := Timetable.get?_next now hs
    rcases hsaid with ⟨hitem, hr, rfl⟩ | ⟨hitem, r, hget, ha, rfl⟩
    · have hdone := Timetable.get?_complete_request now lastActivity hs'
      rw [← hitem] at hdone
      refine Or.inl ⟨hdec, hr, ?_, ?_⟩
      · rw [Timetable.requested, hdone]
        rfl
      · rw [Timetable.timer?, Timetable.timer?, hdone, show e.timetable.promote now = (e.timetable.next now).2 from rfl,
          hs']
        rfl
    · have hwait : (s.promote now).timer.interval?.isSome = true := by
        have hd := he.sound.waits item.handle
        rw [Store.copy?_of_get? hget, Replica.copy?, if_pos ha, Timetable.due?, hs] at hd
        rw [Slot.promote, Timer.interval?_promote, Timer.isSome_interval?]
        exact hd
      obtain ⟨previous, hp⟩ := Option.isSome_iff_exists.1 hwait
      obtain ⟨due, hdone⟩ := Timetable.get?_complete_value now lastActivity hs' hp
      rw [← hitem] at hdone
      refine Or.inr ⟨r, hget, ha, hdec, ⟨due, (e.timetable.next now).2.backoff previous now lastActivity, ?_⟩, ?_⟩
      · rw [Timetable.timer?, hdone]
        rfl
      · rw [Timetable.requested, Timetable.requested, hdone, hs]
        rfl

/-! ## Receiving -/

theorem receive_eq_resolved {frame : List UInt8} {c : Copy} (he : e.Reachable) (hears : e.Hears frame c) (now : Nat) :
    ∃ verdict evicted, (e.receive frame now).1 = .resolved c.handle verdict evicted := by
  obtain ⟨r, held⟩ := he.get?_of_hears hears
  rw [receive_of_hears now hears, hearCopy_of_get? now held (length_le_of_hears hears)]
  exact ⟨_, _, rfl⟩

theorem not_covers_of_outOfRange {frame : List UInt8} {h : Handle} (he : e.Reachable) (up : e.settings = .ok cfg)
    (hout : (e.receive frame now).1 = .outOfRange h) : cfg.covers h = false := by
  have outcome := e.receives frame now
  have resolved := fun c (hears : e.Hears frame c) => receive_eq_resolved he hears now
  generalize e.receive frame now = p at outcome hout resolved
  cases outcome with
  | outOfRange up' _ beyond =>
    cases up.symm.trans up'
    cases hout
    exact beyond
  | heard hears =>
    obtain ⟨verdict, evicted, hres⟩ := resolved _ hears
    cases hres.symm.trans hout
  | closed | unreadable | ignored | served => cases hout

/-- **The components of a node agree.**  On every engine that comes about and is up, settings, store and timetable have
the same handles, and the turn is at one of them or at none; the values that have a timer are those of which a copy is
held; a window that opens is used just if something waits for it, for a request that waited or for the copy held of a
value, and nothing but what is sent is marked as sent; and a frame is out of range only by its handle.  Whatever is done
next, the machine does the same up to `Machine.latest`. -/
theorem components_agree (he : e.Reachable) (up : e.settings = .ok cfg) :
    (e.store.handleCount = cfg.handleCount.toNat ∧ e.timetable.slots.size = cfg.handleCount.toNat ∧
      cfg.handleCount.toNat ≤ 155 ∧ (e.timetable.lastServed = 0 ∨ cfg.covers e.timetable.lastServed = true)) ∧
    (∀ h, cfg.covers h = true → ∃ r timer, e.store.replicas.get? h = some r ∧ e.timetable.timer? h = some timer ∧
      (r.allocated = true ↔ timer ≠ .idle)) ∧
    (∀ now mesh channel tx, (e.signal .started now).1 = .openWindow mesh channel tx →
      mesh = cfg.accessAddress ∧ channel = cfg.channel ∧ e.Sends cfg now tx (e.signal .started now).2) ∧
    (∀ frame now, (∀ h, (e.receive frame now).1 = .outOfRange h → cfg.covers h = false) ∧
      ∀ c, e.Hears frame c → ∃ verdict evicted, (e.receive frame now).1 = .resolved c.handle verdict evicted) ∧
    ∀ op now, e.Followed [(op, now)] := by
  have hcount := he.sound.handles up
  have hsize : e.timetable.slots.size = cfg.handleCount.toNat := he.sound.slots.trans hcount
  refine ⟨⟨hcount, hsize, (he.sound.inRange up).2.2.1, ?_⟩, fun h hc => ?_, fun now mesh channel tx hopen => ?_,
    fun frame now => ⟨fun h => not_covers_of_outOfRange he up, fun c hears => receive_eq_resolved he hears now⟩,
    fun op now => he.followed _⟩
  · rw [Settings.covers, ← hsize]
    exact he.turn
  · obtain ⟨r, hr⟩ := Store.covers_iff_exists_get?.1 ((he.sound.covers up).trans hc)
    obtain ⟨s, hs⟩ : ∃ s, e.timetable.slots.get? h = some s := by
      rw [← Option.isSome_iff_exists, HandleTable.isSome_get?, hsize]
      exact hc
    have hwaits := he.sound.waits h
    rw [Timetable.due?, hs, Option.bind_some, Store.copy?_of_get? hr, Replica.isSome_copy?] at hwaits
    refine ⟨r, s.timer, hr, by rw [Timetable.timer?, hs]; rfl, ?_⟩
    rw [← hwaits, Timer.isSome_due?_iff]
  · obtain ⟨cfg', up', rfl, rfl, rfl, hafter⟩ := signal_of_open hopen
    cases up.symm.trans up'
    rw [hafter]
    obtain ⟨used, conveys, unused, counted, kept⟩ := sends_takeFrame he up now
    exact ⟨rfl, rfl, used, conveys, unused, counted, kept⟩

end

/-- A value was written and another one asked for; the first window went to the request, and the next one is for the
value. -/
theorem components_agree_after_a_request :
    let cfg : Settings := ⟨0x8E89BED6, 38, 10, 100⟩
    let history : List (Operation × Nat) := [(.start cfg ⟨0x11, 0, 0, 0, 0, 0⟩ true, 0), (.write 3 [7], 1),
      (.request 5, 2), (.signal .tick, 3), (.signal .started, 100000), (.signal .ended, 110000),
      (.signal .tick, 120000)]
    let e := fresh.run history
    let frame : List UInt8 := [0xD6, 0xBE, 0x89, 0x8E, 1, 11, 0x11, 0, 0, 0, 0, 0, 3, 0, 1, 0, 7]
    e.settings = .ok cfg ∧ e.timetable.lastServed = 5 ∧
    (e.signal .started 120000).1 = .openWindow cfg.accessAddress cfg.channel (some frame) ∧
    e.Sends cfg 120000 (some frame) (e.signal .started 120000).2 := by
  intro cfg history e frame
  have up : e.settings = .ok cfg := by decide +kernel
  have reachable : e.Reachable := ⟨history, rfl⟩
  have served : e.timetable.lastServed = 5 := by decide +kernel
  have opened : (e.signal .started 120000).1 = .openWindow cfg.accessAddress cfg.channel (some frame) := by
    decide +kernel
  obtain ⟨-, -, windows, -⟩ := components_agree reachable up
  exact ⟨up, served, opened, (windows 120000 _ _ _ opened).2.2⟩

end Engine
end ValueMesh
