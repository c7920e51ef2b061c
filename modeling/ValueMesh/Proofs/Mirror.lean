import ValueMesh.Proofs.Running
/-!
# Notices mirror the store

Every change of the copy a node holds of a value is told to the application in the same operation, with the bytes and
the origin held afterwards, and no other change is (`news_eq_change`).  An application that takes its notices in time
therefore knows what the node holds (`notices_mirror_changes`).  A value that no version reached yet has no copy: the
first version to be taken over or written is a change, whatever it says.
-/
namespace ValueMesh

def Notice.ofChange (h : Handle) (n : Notice) : Bool := n.handle == h && n.kind != .conflictingVal

namespace Replica

variable {r : Replica} {c : Copy}

theorem copy?_hear_of_accepts (now : Nat) (ha : (r.judge c).accepts = true) :
    (r.hear c now).copy? c.handle = some c ∧ r.copy? c.handle ≠ some c := by
  rw [hear_of_accepts now ha]
  refine ⟨rfl, fun hc => ?_⟩
  obtain ⟨hal, hcopy⟩ := copy?_eq_some_iff.1 hc
  have hv : r.version = c.version := congrArg Copy.version hcopy
  rw [accepts_judge, hal, hv, Version.newer_irrefl] at ha
  cases ha

theorem copy?_hear_of_not_accepts (now : Nat) (ha : (r.judge c).accepts = false) (h : Handle) :
    (r.hear c now).copy? h = r.copy? h := by
  obtain ⟨hal, hcopy⟩ := hear_of_not_accepts now ha h
  rw [copy?, copy?, hal, hcopy]

theorem copy?_write_ne (r : Replica) (data : List UInt8) (origin : Address) (now : Nat) (h : Handle) :
    (r.write data origin now).copy? h ≠ r.copy? h := by
  intro he
  obtain ⟨-, hcopy⟩ := copy?_eq_some_iff.1 he.symm
  have hv : r.version = r.version + 1 := congrArg Copy.version hcopy
  exact Version.ne_of_newer (Version.newer_add_one r.version) hv.symm

end Replica

theorem Store.filter_announcement (c : Copy) (v : Verdict) (h : Handle) :
    ((announcement c v).filter (·.ofChange h)).map (fun n => some (n.data, n.origin)) =
      if v.accepts && c.handle == h then some (some (c.data, c.origin)) else none := by
  by_cases hk : c.handle = h
  · cases v <;> simp [announcement, Notice.ofChange, Verdict.accepts, Option.filter, hk]
  · cases v <;> simp [announcement, Notice.ofChange, Verdict.accepts, Option.filter, hk]

namespace Engine

section

variable [Jitter] {e : Engine} {h : Handle} {op : Operation} {now : Nat} {n : Notice}

/-! ## One operation -/

def news? (h : Handle) (e : Engine) (op : Operation) (now : Nat) : Option Notice :=
  (e.told? op now).filter (·.ofChange h)

def change? (h : Handle) (e : Engine) (op : Operation) (now : Nat) : Option (Option Copy) :=
  if (e.perform op now).2.store.copy? h = e.store.copy? h then none else some ((e.perform op now).2.store.copy? h)

theorem change?_of_same (same : (e.perform op now).2.store.copy? h = e.store.copy? h) :
    change? h e op now = none := if_pos same

theorem change?_of_ne (ne : (e.perform op now).2.store.copy? h ≠ e.store.copy? h) :
    change? h e op now = some ((e.perform op now).2.store.copy? h) := if_neg ne

theorem copy?_perform_of_other (he : e.Reachable) (hw : ∀ k data, op ≠ .write k data)
    (hr : ∀ frame, op ≠ .receive frame) : (e.perform op now).2.store.copy? h = e.store.copy? h := by
  rcases he.copy_cases op now h with same | ⟨data, r, evicted, hop, -⟩ | ⟨frame, c, hop, -⟩
  · exact same
  · exact absurd hop (hw h data)
  · exact absurd hop (hr frame)

theorem news_eq_change_of_write (k : Handle) (data : List UInt8) (now : Nat) :
    (news? h e (.write k data) now).map (fun n => some (n.data, n.origin)) =
      (change? h e (.write k data) now).map (·.map fun c => (c.data, c.origin)) := by
  cases hw : e.write k data now with
  | error f =>
    rw [news?, told?_write_of_error hw, change?_of_same (by simp only [perform, hw])]
    rfl
  | ok p =>
    obtain ⟨-, r, held, -, -, he⟩ := write_of_ok hw
    have hstore : (e.perform (.write k data) now).2.store = e.store.put k (r.write data e.address now) := by
      simp only [perform, hw]
      rw [he]
    rw [news?, told?_write_of_ok hw]
    by_cases hk : h = k
    · subst hk
      have hafter : (e.perform (.write h data) now).2.store.copy? h = (r.write data e.address now).copy? h := by
        rw [hstore, Store.copy?_of_get? (Store.get?_put_self _ held)]
      rw [change?_of_ne (by rw [hafter, Store.copy?_of_get? held]; exact Replica.copy?_write_ne _ _ _ _ _), hafter]
      simp [Notice.ofChange, Option.filter, Replica.copy?, Replica.write, Replica.toCopy]
    · rw [change?_of_same (by rw [hstore, Store.copy?, Store.get?_put_of_ne _ hk]; rfl)]
      simp [Notice.ofChange, Option.filter, Ne.symm hk]

theorem copy?_receive_of_not_accepts {frame : List UInt8} {c : Copy} {r : Replica} (hears : e.Hears frame c)
    (held : e.store.replicas.get? c.handle = some r) (refused : (r.judge c).accepts = false) (now : Nat) (k : Handle) :
    (e.receive frame now).2.store.copy? k = e.store.copy? k := by
  by_cases hk : k = c.handle
  · subst hk
    rw [Store.copy?_of_get? (get?_receive now hears held), Store.copy?_of_get? held,
      Replica.copy?_hear_of_not_accepts now refused]
  · exact copy?_receive_of_ne now hears hk

theorem news_eq_change_of_hears {frame : List UInt8} {c : Copy} {r : Replica} (hears : e.Hears frame c)
    (held : e.store.replicas.get? c.handle = some r) (now : Nat) :
    (news? h e (.receive frame) now).map (fun n => some (n.data, n.origin)) =
      (change? h e (.receive frame) now).map (·.map fun c => (c.data, c.origin)) := by
  rw [news?, told?_receive hears held, Store.filter_announcement]
  cases ha : (r.judge c).accepts with
  | false =>
    have same : (e.perform (.receive frame) now).2.store.copy? h = e.store.copy? h :=
      copy?_receive_of_not_accepts hears held ha now h
    rw [change?_of_same same]
    rfl
  | true =>
    by_cases hk : h = c.handle
    · subst hk
      obtain ⟨hsome, hne⟩ := Replica.copy?_hear_of_accepts now ha
      have hafter : (e.perform (.receive frame) now).2.store.copy? c.handle = some c :=
        (Store.copy?_of_get? (get?_receive now hears held)).trans hsome
      rw [change?_of_ne (by rw [hafter, Store.copy?_of_get? held]; exact hne.symm), hafter]
      simp
    · have same : (e.perform (.receive frame) now).2.store.copy? h = e.store.copy? h :=
        copy?_receive_of_ne now hears hk
      rw [change?_of_same same]
      simp [Ne.symm hk]

theorem news_eq_change_of_receive (he : e.Reachable) (frame : List UInt8) (now : Nat) :
    (news? h e (.receive frame) now).map (fun n => some (n.data, n.origin)) =
      (change? h e (.receive frame) now).map (·.map fun c => (c.data, c.origin)) := by
  by_cases hh : ∃ c, e.Hears frame c
  · obtain ⟨c, hears⟩ := hh
    obtain ⟨r, held⟩ := he.get?_of_hears hears
    exact news_eq_change_of_hears hears held now
  · have hstore : (e.perform (.receive frame) now).2.store = e.store := store_receive_of_not_hears now (not_exists.1 hh)
    rw [news?, told?_of_not_hears (not_exists.1 hh), change?_of_same (by rw [hstore])]
    rfl

/-- **Each change is told, and nothing else is told as one**: with the bytes and the origin held after it. -/
theorem news_eq_change (he : e.Reachable) (op : Operation) (now : Nat) :
    (news? h e op now).map (fun n => some (n.data, n.origin)) =
      (change? h e op now).map (·.map fun c => (c.data, c.origin)) := by
  cases op with
  | write k data => exact news_eq_change_of_write k data now
  | receive frame => exact news_eq_change_of_receive he frame now
  | start | read | stamp | request | takeNotice | signal | windowRefused =>
    rw [change?_of_same (copy?_perform_of_other he (by nofun) (by nofun))]
    rfl

/-- **The first version alone is told of as new**: it was received while nothing was held. -/
theorem heard_of_newVal (ht : e.told? op now = some n) (hk : n.kind = .newVal) : ∃ frame c r, op = .receive frame ∧
    e.Hears frame c ∧ c.handle = n.handle ∧ e.store.replicas.get? c.handle = some r ∧ r.allocated = false := by
  cases op with
  | write k data =>
    obtain ⟨-, rfl⟩ := write_of_told? ht
    cases hk
  | receive frame =>
    obtain ⟨c, r, hears, held, ha⟩ := hears_of_told? ht
    refine ⟨frame, c, r, rfl, hears, ?_, held, ?_⟩
    · cases hj : r.judge c <;> rw [hj] at ha <;> cases ha <;> rfl
    · cases hj : r.judge c with
      | acceptNew => exact Replica.judge_eq_acceptNew_iff.1 hj
      | acceptUpdate | conflict => rw [hj] at ha; cases ha; cases hk
      | knownConflict | stale | duplicate => rw [hj] at ha; cases ha
  | start | read | stamp | request | takeNotice | signal | windowRefused => cases ht

/-- **A rival that is told of changes no copy.** -/
theorem copy?_perform_of_conflictingVal (ht : e.told? op now = some n) (hk : n.kind = .conflictingVal) (k : Handle) :
    (e.perform op now).2.store.copy? k = e.store.copy? k := by
  cases op with
  | write k data =>
    obtain ⟨-, rfl⟩ := write_of_told? ht
    cases hk
  | receive frame =>
    obtain ⟨c, r, hears, held, ha⟩ := hears_of_told? ht
    have hrefused : (r.judge c).accepts = false := by
      cases hj : r.judge c with
      | acceptNew | acceptUpdate => rw [hj] at ha; cases ha; cases hk
      | conflict | knownConflict | stale | duplicate => rfl
    exact copy?_receive_of_not_accepts hears held hrefused now k
  | start | read | stamp | request | takeNotice | signal | windowRefused => cases ht

/-! ## Whole histories -/

def news (h : Handle) (e : Engine) (history : List (Operation × Nat)) : List Notice :=
  (e.along (news? h) history).flatMap (·.toList)

theorem news_cons (h : Handle) (e : Engine) (op : Operation) (now : Nat) (rest : List (Operation × Nat)) :
    news h e ((op, now) :: rest) = (news? h e op now).toList ++ news h (e.perform op now).2 rest := rfl

theorem filter_told (h : Handle) (e : Engine) (history : List (Operation × Nat)) :
    (e.told history).filter (·.ofChange h) = news h e history := by
  induction history generalizing e with
  | nil => rfl
  | cons x rest ih =>
    rw [told, along, List.flatMap_cons, List.filter_append, news_cons, ← ih, news?]
    cases e.told? x.1 x.2 with
    | none => rfl
    | some n => cases hn : n.ofChange h <;> simp [Option.filter, hn, told]

omit [Jitter] in
theorem ofChange_iff : n.ofChange h = true ↔ n.handle = h ∧ n.kind ≠ .conflictingVal := by
  rw [Notice.ofChange, Bool.and_eq_true, beq_iff_eq, bne_iff_ne]

theorem told?_of_news? (hn : news? h e op now = some n) : e.told? op now = some n ∧ n.ofChange h = true :=
  Option.filter_eq_some_iff.1 hn

theorem content_of_news? (he : e.Reachable) (hn : news? h e op now = some n) :
    ((e.perform op now).2.store.copy? h).map (fun c => (c.data, c.origin)) = some (n.data, n.origin) := by
  have hm := news_eq_change (h := h) he op now
  rw [hn, change?] at hm
  split at hm
  · cases hm
  · exact (Option.some.inj hm).symm

theorem copy?_of_no_news (he : e.Reachable) (hn : news? h e op now = none) :
    (e.perform op now).2.store.copy? h = e.store.copy? h := by
  have hm := news_eq_change (h := h) he op now
  rw [hn, change?] at hm
  split at hm
  · assumption
  · cases hm

theorem isSome_copy?_perform (he : e.Reachable) (held : (e.store.copy? h).isSome = true) (op : Operation) (now : Nat) :
    ((e.perform op now).2.store.copy? h).isSome = true := by
  rcases he.copy_cases op now h with same | ⟨data, r, evicted, -, -, -, hw⟩ | ⟨frame, c, -, -, -, hu⟩
  · rw [same]
    exact held
  · rw [hw]
    rfl
  · rw [hu]
    rfl

theorem kind_of_news?_of_held (held : (e.store.copy? h).isSome = true)
    (hn : news? h e op now = some n) : n.kind = .updateVal := by
  obtain ⟨ht, ho⟩ := told?_of_news? hn
  obtain ⟨hh, hk⟩ := ofChange_iff.1 ho
  cases hkind : n.kind with
  | newVal =>
    obtain ⟨frame, c, r, -, -, hc, hr, ha⟩ := heard_of_newVal ht hkind
    rw [hc, hh] at hr
    rw [Store.copy?_of_get? hr, Replica.copy?, ha] at held
    cases held
  | updateVal => rfl
  | conflictingVal => exact absurd hkind hk

theorem kind_of_news_of_held {history : List (Operation × Nat)} (he : e.Reachable)
    (held : (e.store.copy? h).isSome = true) : ∀ n ∈ news h e history, n.kind = .updateVal := by
  induction history generalizing e with
  | nil => exact fun n hn => by cases hn
  | cons x rest ih =>
    intro n hn
    rw [news_cons] at hn
    rcases List.mem_append.1 hn with hn | hn
    · exact kind_of_news?_of_held held (Option.mem_toList.1 hn)
    · exact ih (he.perform ..) (isSome_copy?_perform he held ..) n hn

/-- **Only the first change can be that a value is new.** -/
theorem kind_of_later_news {history : List (Operation × Nat)} (he : e.Reachable) :
    ∀ n ∈ (news h e history).tail, n.kind = .updateVal := by
  induction history generalizing e with
  | nil => exact fun n hn => by cases hn
  | cons x rest ih =>
    rw [news_cons]
    cases hn : news? h e x.1 x.2 with
    | none => exact ih (he.perform ..)
    | some m =>
      -- From the first change on a copy is held, and stays; so only that change can be of a new value.
      have hcontent := content_of_news? he hn
      have held : ((e.perform x.1 x.2).2.store.copy? h).isSome = true := by
        rw [← Option.isSome_map, hcontent]
        rfl
      exact kind_of_news_of_held (he.perform ..) held

/-- **What is held is what the last change left**, or what was held before if there was none. -/
theorem content_run (he : e.Reachable) (history : List (Operation × Nat)) :
    ((e.run history).store.copy? h).map (fun c => (c.data, c.origin)) =
      ((news h e history).getLast?.map fun n => (n.data, n.origin)).or
        ((e.store.copy? h).map fun c => (c.data, c.origin)) := by
  induction history generalizing e with
  | nil => rfl
  | cons x rest ih =>
    rw [run, ih (he.perform ..), news_cons]
    cases hn : news? h e x.1 x.2 with
    | none =>
      rw [copy?_of_no_news he hn]
      rfl
    | some m =>
      rw [content_of_news? he hn, Option.toList_some, List.getLast?_append]
      cases (news h (e.perform x.1 x.2).2 rest).getLast? <;> rfl

/-! ## The inbox and the store -/

structure Mirrors (e : Engine) (h : Handle) (op : Operation) (now : Nat) : Prop where
  puts : op ≠ .takeNotice → (e.perform op now).2.inbox = e.inbox.put (e.told? op now)
  takes : op = .takeNotice → (e.perform op now).2.inbox.lost = e.inbox.lost ∧
    e.inbox.pending = (e.perform op now).1.notice?.toList ++ (e.perform op now).2.inbox.pending
  /-- What is told of as new was received while nothing was held. -/
  new : ∀ n ∈ e.told? op now, n.handle = h → n.kind = .newVal → ∃ frame c r, op = .receive frame ∧
    e.Hears frame c ∧ c.handle = h ∧ e.store.replicas.get? h = some r ∧ r.allocated = false
  rival : ∀ n ∈ e.told? op now, n.handle = h → n.kind = .conflictingVal →
    (e.perform op now).2.store.copy? h = e.store.copy? h

theorem mirrors (e : Engine) (h : Handle) (op : Operation) (now : Nat) : e.Mirrors h op now where
  puts := inbox_perform
  takes hop := by
    subst hop
    exact (pending_takeNotice e now).symm
  new n hn hh hk := by
    obtain ⟨frame, c, r, hop, hears, hc, hr, ha⟩ := heard_of_newVal hn hk
    exact ⟨frame, c, r, hop, hears, hc.trans hh, (hc.trans hh) ▸ hr, ha⟩
  rival n hn _ hk := copy?_perform_of_conflictingVal hn hk h

/-- **Notices mirror the store.**  In every history, operation by operation, a change of the copy held of a value is
told just when it happens, with the bytes and the origin held after it; only the first such notice may tell that the
value is new.  If no notice was lost and all are taken, the last one about a change of the value has the bytes that
reading it answers.  The machine follows the history up to `Machine.latest`, and what comes next. -/
theorem notices_mirror_changes (h : Handle) (history : List (Operation × Nat)) :
    (∀ op now, (fresh.run history).Mirrors h op now) ∧
    (fresh.along (news? h) history).map (·.map fun n => some (n.data, n.origin)) =
      (fresh.along (change? h) history).map (·.map (·.map fun c => (c.data, c.origin))) ∧
    (∀ n ∈ (news h fresh history).tail, n.kind = .updateVal) ∧
    ((fresh.run history).inbox.lost = 0 → (fresh.run history).inbox.pending = [] →
      ∀ c, (fresh.run history).store.copy? h = some c → ∃ n,
        ((fresh.taken history).filter (·.ofChange h)).getLast? = some n ∧ (fresh.run history).read h = .ok n.data) ∧
    ∀ op now, fresh.Followed (history ++ [(op, now)]) := by
  refine ⟨fun op now => mirrors (fresh.run history) h op now, ?_, kind_of_later_news reachable_fresh,
    fun kept empty c hc => ?_, fun op now => reachable_fresh.followed _⟩
  · rw [map_along, map_along]
    exact reachable_fresh.along_congr (fun op now he => news_eq_change he op now) history
  · obtain ⟨-, hfifo⟩ := pending_append_told kept
    have htaken : fresh.told history = fresh.taken history := by
      rw [empty, List.append_nil] at hfifo
      exact hfifo
    have hlast := content_run (h := h) reachable_fresh history
    have hblank : fresh.store.copy? h = none := reachable_fresh.copy?_of_down rfl h
    rw [hc, hblank, ← filter_told, htaken, Option.map_some, Option.map_none, Option.or_none] at hlast
    obtain ⟨n, hn, hcontent⟩ := Option.map_eq_some_iff.1 hlast.symm
    refine ⟨n, hn, ?_⟩
    obtain ⟨cfg, up⟩ := exists_settings_of_isUp (Reachable.isUp_of_copy? ⟨history, rfl⟩ hc)
    obtain ⟨r, hr, -, hcopy⟩ := Store.copy?_eq_some_iff.1 hc
    have hdata : r.data = n.data := (congrArg Copy.data hcopy).trans (congrArg Prod.fst hcontent).symm
    rw [read, up, Store.read, Store.replica_eq_ok_iff.2 hr, ← hdata]
    rfl

end

/-- A first version is heard, another one is written on top of it, a rival of that is heard, and all three notices are
taken: the second one has the bytes that are held. -/
theorem notices_of_a_disputed_value_mirror_changes :
    let history : List (Operation × Nat) := [(.start ⟨0x8E89BED6, 38, 10, 100⟩ ⟨0x11, 0, 0, 0, 0, 0⟩ true, 0),
      (.signal .tick, 1), (.signal .started, 2),
      (.receive [0xD6, 0xBE, 0x89, 0x8E, 1, 11, 0x22, 0, 0, 0, 0, 0, 3, 0, 0xFF, 0xFF, 7], 3), (.write 3 [8], 4),
      (.takeNotice, 5), (.receive [0xD6, 0xBE, 0x89, 0x8E, 1, 11, 0x22, 0, 0, 0, 0, 0, 3, 0, 0, 0, 9], 6),
      (.takeNotice, 7), (.takeNotice, 8)]
    let e := fresh.run history
    (fresh.taken history).map (·.kind) = [.newVal, .updateVal, .conflictingVal] ∧
    e.inbox.lost = 0 ∧ e.inbox.pending = [] ∧ e.store.copy? 3 = some ⟨3, 0, ⟨0x11, 0, 0, 0, 0, 0⟩, [8]⟩ ∧
    ∃ n, ((fresh.taken history).filter (·.ofChange 3)).getLast? = some n ∧ e.read 3 = .ok n.data := by
  intro history e
  have kinds : (fresh.taken history).map (·.kind) = [.newVal, .updateVal, .conflictingVal] := by decide +kernel
  have kept : e.inbox.lost = 0 := by decide +kernel
  have empty : e.inbox.pending = [] := by decide +kernel
  have held : e.store.copy? 3 = some ⟨3, 0, ⟨0x11, 0, 0, 0, 0, 0⟩, [8]⟩ := by decide +kernel
  exact ⟨kinds, kept, empty, held, (notices_mirror_changes 3 history).2.2.2.1 kept empty _ held⟩

end Engine
end ValueMesh
