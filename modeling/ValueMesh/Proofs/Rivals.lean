import ValueMesh.Proofs.Mirror
/-!
# What a node remembers of rivals

A rival of the copy held is reported when it is heard first, and is known from then on.  What is known are the three
marks reported last since the copy held changed (`marks_run`): a mark goes when a fourth is reported after it, all go
when the copy changes, and hearing a known rival again moves nothing.  So three rivals or fewer are reported once
each, however often and in whatever order they are heard.
-/
namespace ValueMesh

def latest (ms : List Mark) : List Mark := ms.drop (ms.length - 3)

theorem latest_of_few {ms : List Mark} (few : ms.length ≤ 3) : latest ms = ms := by
  rw [latest, Nat.sub_eq_zero_of_le few, List.drop_zero]

theorem remembered_latest (ms : List Mark) (m : Mark) : Replica.remembered (latest ms) m = latest (ms ++ [m]) := by
  by_cases few : ms.length < 3
  · have few' : (ms ++ [m]).length ≤ 3 := by
      rw [List.length_append, List.length_singleton]
      exact few
    rw [latest_of_few few', latest_of_few (Nat.le_of_lt few)]
    exact if_pos few
  · have full : (latest ms).length = 3 := by
      rw [latest, List.length_drop]
      omega
    have later : ms.length + 1 - 3 = ms.length - 3 + 1 := by omega
    have room : ms.length - 3 + 1 ≤ ms.length := by omega
    have hfull : ¬ (latest ms).length < maxMarks := by
      rw [full]
      decide
    rw [Replica.remembered, if_neg hfull, latest, List.drop_drop, latest, List.length_append, List.length_singleton,
      later, List.drop_append_of_le_length room]

def Store.marks (s : Store) (h : Handle) : List Mark := ((s.replicas.get? h).map (·.marks)).getD []

theorem Store.marks_of_get? {s : Store} {h : Handle} {r : Replica} (hr : s.replicas.get? h = some r) :
    s.marks h = r.marks := by
  rw [marks, hr]
  rfl

theorem Store.marks_of_same {s s' : Store} {h : Handle} (same : s'.replicas.get? h = s.replicas.get? h) :
    s'.marks h = s.marks h := by
  rw [marks, marks, same]

namespace Engine

section

variable [Jitter] {e : Engine} {h : Handle} {op : Operation} {now : Nat}

theorem Reachable.marks_of_none (he : e.Reachable) (none : e.store.copy? h = none) : e.store.marks h = [] := by
  cases hr : e.store.replicas.get? h with
  | none => rw [Store.marks, hr]; rfl
  | some r =>
    rw [Store.marks_of_get? hr]
    refine (he.orderly hr).blank ?_
    cases ha : r.allocated with
    | false => rfl
    | true =>
      rw [Store.copy?_of_get? hr, Replica.copy?, if_pos ha] at none
      cases none

/-! ## Rivals heard and rivals reported -/

/-- The mark of a rival that an operation hears: a copy of the value of `h`, of the version held, with other bytes. -/
def rival? (h : Handle) (e : Engine) : Operation → Nat → Option Mark
  | .receive frame, _ => (e.heard? frame).bind fun c => (e.store.copy? h).bind fun d =>
    if c.handle = h ∧ c.version = d.version ∧ c.data ≠ d.data then some (Mark.ofCopy c) else none
  | _, _ => none

def reported? (h : Handle) (e : Engine) (op : Operation) (now : Nat) : Option Mark :=
  match op, (e.perform op now).1 with
  | .receive frame, .received (.resolved k .conflict _) => if k = h then (e.heard? frame).map Mark.ofCopy else none
  | _, _ => none

/-- What `f` says of the operations of a history since the copy held of the value of `h` last changed, in order; up to
the first change it is what `f` says behind `seen`. -/
def sinceChange {β : Type} (h : Handle) (f : Engine → Operation → Nat → Option β) (seen : List β) (e : Engine) :
    List (Operation × Nat) → List β
  | [] => seen
  | (op, now) :: rest =>
    sinceChange h f (if (e.perform op now).2.store.copy? h = e.store.copy? h then seen ++ (f e op now).toList else [])
      (e.perform op now).2 rest

theorem reported?_of_hears {frame : List UInt8} {c : Copy} {r : Replica} (hears : e.Hears frame c)
    (held : e.store.replicas.get? c.handle = some r) : reported? h e (.receive frame) now =
      if r.judge c = .conflict ∧ c.handle = h then some (Mark.ofCopy c) else none := by
  have hanswer : (e.perform (.receive frame) now).1 =
      .received (.resolved c.handle (r.judge c) (e.deliver (Store.announcement c (r.judge c))).1) := by
    show Answer.received (e.receive frame now).1 = _
    rw [receive_of_hears now hears, hearCopy_of_get? now held (length_le_of_hears hears)]
  unfold reported?
  rw [hanswer]
  cases r.judge c <;> simp [heard?_eq_some_iff.2 hears]

theorem reported?_of_not_hears {frame : List UInt8} (hears : ∀ c, ¬ e.Hears frame c) :
    reported? h e (.receive frame) now = none := by
  unfold reported?
  split
  · rename_i hop _
    cases hop
    rw [heard?_of_not_hears hears]
    exact ite_self none
  · rfl

theorem rival?_of_hears {frame : List UInt8} {c : Copy} {r : Replica} (hears : e.Hears frame c)
    (held : e.store.replicas.get? c.handle = some r) : rival? h e (.receive frame) now =
      if r.allocated = true ∧ c.version = r.version ∧ c.data ≠ r.data ∧ c.handle = h then some (Mark.ofCopy c)
      else none := by
  rw [rival?, heard?_eq_some_iff.2 hears, Option.bind_some]
  by_cases hh : c.handle = h
  · subst hh
    rw [Store.copy?_of_get? held, Replica.copy?]
    cases ha : r.allocated with
    | true => simp [Replica.toCopy]
    | false => simp
  · simp [hh]

/-- **A rival is reported just if its mark is not remembered.** -/
theorem reported?_eq_filter (he : e.Reachable) (op : Operation) (now : Nat) :
    reported? h e op now = (rival? h e op now).filter fun m => decide (m ∉ e.store.marks h) := by
  cases op with
  | receive frame =>
    by_cases hh : ∃ c, e.Hears frame c
    · obtain ⟨c, hears⟩ := hh
      obtain ⟨r, held⟩ := he.get?_of_hears hears
      rw [reported?_of_hears hears held, rival?_of_hears hears held]
      by_cases hk : c.handle = h
      · subst hk
        have hknown : r.knows (Mark.ofCopy c) = true ↔ Mark.ofCopy c ∈ e.store.marks c.handle := by
          rw [Store.marks_of_get? held, Replica.knows_iff]
        by_cases hr : r.allocated = true ∧ c.version = r.version ∧ c.data ≠ r.data ∧ c.handle = c.handle
        · rw [if_pos hr]
          obtain ⟨ha, hv, hd, -⟩ := hr
          rw [Replica.judge_of_rival ha hv hd]
          cases hm : r.knows (Mark.ofCopy c) with
          | true => simp [Option.filter, hknown.1 hm]
          | false =>
            rw [← Bool.not_eq_true, hknown] at hm
            simp [Option.filter, hm]
        · have hj : ¬ (r.judge c = .conflict ∧ c.handle = c.handle) := by
            rintro ⟨hj, -⟩
            obtain ⟨ha, hv, hd, -⟩ := Replica.judge_eq_conflict_iff.1 hj
            exact hr ⟨ha, hv, hd, rfl⟩
          rw [if_neg hr, if_neg hj]
          rfl
      · rw [if_neg fun hc => hk hc.2, if_neg fun hc => hk hc.2.2.2]
        rfl
    · rw [reported?_of_not_hears (not_exists.1 hh), rival?, heard?_of_not_hears (not_exists.1 hh)]
      rfl
  | start | write | read | stamp | request | takeNotice | signal | windowRefused => rfl

/-! ## One operation -/

def remembering (ms : List Mark) : Option Mark → List Mark
  | none => ms
  | some m => Replica.remembered ms m

def MarksFollow (h : Handle) (e : Engine) (op : Operation) (now : Nat) : Prop :=
  (e.perform op now).2.store.marks h =
    if (e.perform op now).2.store.copy? h = e.store.copy? h then remembering (e.store.marks h) (reported? h e op now)
    else []

theorem marksFollow_of_same (same : (e.perform op now).2.store.replicas.get? h = e.store.replicas.get? h)
    (silent : reported? h e op now = none) : MarksFollow h e op now := by
  have hcopy : (e.perform op now).2.store.copy? h = e.store.copy? h := by rw [Store.copy?, Store.copy?, same]
  rw [MarksFollow, if_pos hcopy, silent]
  exact Store.marks_of_same same

theorem marksFollow_write (k : Handle) (data : List UInt8) (now : Nat) : MarksFollow h e (.write k data) now := by
  cases hw : e.write k data now with
  | error f => exact marksFollow_of_same (by simp only [perform, hw]) rfl
  | ok p =>
    obtain ⟨-, r, held, -, -, he⟩ := write_of_ok hw
    have hstore : (e.perform (.write k data) now).2.store = e.store.put k (r.write data e.address now) := by
      simp only [perform, hw]
      rw [he]
    by_cases hk : h = k
    · subst hk
      have hafter := Store.get?_put_self (r.write data e.address now) held
      have hne : (e.perform (.write h data) now).2.store.copy? h ≠ e.store.copy? h := by
        rw [hstore, Store.copy?_of_get? hafter, Store.copy?_of_get? held]
        exact Replica.copy?_write_ne _ _ _ _ _
      rw [MarksFollow, if_neg hne, hstore, Store.marks_of_get? hafter]
      rfl
    · exact marksFollow_of_same (by rw [hstore, Store.get?_put_of_ne _ hk]) rfl

theorem marksFollow_of_hears {frame : List UInt8} {c : Copy} {r : Replica} (hears : e.Hears frame c)
    (held : e.store.replicas.get? c.handle = some r) (now : Nat) : MarksFollow h e (.receive frame) now := by
  by_cases hk : h = c.handle
  · subst hk
    have hafter : (e.perform (.receive frame) now).2.store.replicas.get? c.handle = some (r.hear c now) :=
      get?_receive now hears held
    rw [MarksFollow, Store.copy?_of_get? hafter, Store.copy?_of_get? held, Store.marks_of_get? hafter,
      Store.marks_of_get? held, reported?_of_hears hears held]
    cases ha : (r.judge c).accepts with
    | true =>
      obtain ⟨hsome, hne⟩ := Replica.copy?_hear_of_accepts now ha
      rw [if_neg (by rw [hsome]; exact hne.symm), Replica.hear_of_accepts now ha]
      rfl
    | false =>
      rw [if_pos (Replica.copy?_hear_of_not_accepts now ha c.handle)]
      cases hj : r.judge c with
      | acceptNew | acceptUpdate => rw [hj] at ha; cases ha
      | conflict =>
        obtain ⟨-, -, -, hm⟩ := Replica.judge_eq_conflict_iff.1 hj
        simp [Replica.hear, hj, Replica.remember_of_new hm, remembering]
      | knownConflict | stale | duplicate => simp [Replica.hear, hj, remembering]
  · have same : (e.perform (.receive frame) now).2.store.replicas.get? h = e.store.replicas.get? h := by
      show (e.receive frame now).2.store.replicas.get? h = _
      rw [store_receive now hears, Store.get?_hear_of_ne now hk]
    refine marksFollow_of_same same ?_
    rw [reported?_of_hears hears held, if_neg fun hc => hk hc.2.symm]

theorem marksFollow_receive (he : e.Reachable) (frame : List UInt8) (now : Nat) :
    MarksFollow h e (.receive frame) now := by
  by_cases hh : ∃ c, e.Hears frame c
  · obtain ⟨c, hears⟩ := hh
    obtain ⟨r, held⟩ := he.get?_of_hears hears
    exact marksFollow_of_hears hears held now
  · have same : (e.perform (.receive frame) now).2.store = e.store := store_receive_of_not_hears now (not_exists.1 hh)
    exact marksFollow_of_same (by rw [same]) (reported?_of_not_hears (not_exists.1 hh))

theorem marksFollow_start (he : e.Reachable) (cfg : Settings) (a : Address) (hostReady : Bool) (now : Nat) :
    MarksFollow h e (.start cfg a hostReady) now := by
  cases hup : e.isUp with
  | true => exact marksFollow_of_same (by rw [perform_start_of_isUp hup]) rfl
  | false =>
    have hafter := he.copy?_perform_of_down hup (.start cfg a hostReady) now h
    have hbefore := he.copy?_of_down hup h
    rw [MarksFollow, if_pos (hafter.trans hbefore.symm), (he.perform ..).marks_of_none hafter,
      he.marks_of_none hbefore]
    rfl

/-- **The marks go with the copy held, and a reported rival is put behind the others.** -/
theorem marksFollow (he : e.Reachable) (h : Handle) (op : Operation) (now : Nat) : MarksFollow h e op now := by
  cases op with
  | start cfg a hostReady => exact marksFollow_start he cfg a hostReady now
  | write k data => exact marksFollow_write k data now
  | receive frame => exact marksFollow_receive he frame now
  | read | stamp | request | takeNotice | signal | windowRefused =>
    exact marksFollow_of_same (by rw [store_perform_of_other (by nofun) (by nofun) (by nofun)]) rfl

/-! ## Whole histories -/

theorem marks_run_of_latest {seen : List Mark} (he : e.Reachable) (hm : e.store.marks h = latest seen)
    (history : List (Operation × Nat)) :
    (e.run history).store.marks h = latest (sinceChange h (reported? h) seen e history) := by
  induction history generalizing e seen with
  | nil => exact hm
  | cons x rest ih =>
    obtain ⟨op, now⟩ := x
    refine ih (he.perform op now) ?_
    rw [marksFollow he h op now, hm]
    split
    · cases reported? h e op now with
      | none => rw [Option.toList_none, List.append_nil]; rfl
      | some m => exact remembered_latest seen m
    · rfl

/-- **What is remembered are the three marks reported last** since the copy held changed. -/
theorem marks_run (h : Handle) (history : List (Operation × Nat)) :
    (fresh.run history).store.marks h = latest (sinceChange h (reported? h) [] fresh history) :=
  marks_run_of_latest reachable_fresh (reachable_fresh.marks_of_none (reachable_fresh.copy?_of_down rfl h)) history

/-- Of the rivals `heard` only such were `reported`, and if all of them are among `known`, each just once. -/
structure Once (known reported heard : List Mark) : Prop where
  sound : ∀ m ∈ reported, m ∈ heard
  once : (∀ m ∈ heard, m ∈ known) → reported.Nodup ∧ ∀ m ∈ heard, m ∈ reported

omit [Jitter] in
theorem once_nil (known : List Mark) : Once known [] [] := ⟨nofun, fun _ => ⟨List.nodup_nil, nofun⟩⟩

omit [Jitter] in
/-- A rival that is not among the last three reported is reported, and others are not. -/
theorem Once.hear {known reported heard : List Mark} (few : known.length ≤ 3) (ho : Once known reported heard)
    (m : Mark) : Once known (if m ∈ latest reported then reported else reported ++ [m]) (heard ++ [m]) := by
  constructor
  · intro x hx
    split at hx
    · exact List.mem_append_left _ (ho.sound x hx)
    · exact (List.mem_append.1 hx).elim (fun hx => List.mem_append_left _ (ho.sound x hx)) (List.mem_append_right _)
  · intro hknown
    have hheard : ∀ x ∈ heard, x ∈ known := fun x hx => hknown x (List.mem_append_left _ hx)
    obtain ⟨hnodup, hall⟩ := ho.once hheard
    -- All that was reported is known, so nothing was pushed out of the last three.
    have hfew : reported.length ≤ 3 :=
      Nat.le_trans (hnodup.length_le_of_subset fun x hx => hheard x (ho.sound x hx)) few
    rw [latest_of_few hfew]
    split
    · rename_i hm
      refine ⟨hnodup, fun x hx => ?_⟩
      rcases List.mem_append.1 hx with hx | hx
      · exact hall x hx
      · exact List.mem_singleton.1 hx ▸ hm
    · rename_i hm
      refine ⟨nodup_append_singleton hnodup hm, fun x hx => ?_⟩
      exact (List.mem_append.1 hx).elim (fun hx => List.mem_append_left _ (hall x hx)) (List.mem_append_right _)

theorem once_run {known reported heard : List Mark} (few : known.length ≤ 3) (he : e.Reachable)
    (hm : e.store.marks h = latest reported) (ho : Once known reported heard) (history : List (Operation × Nat)) :
    Once known (sinceChange h (reported? h) reported e history) (sinceChange h (rival? h) heard e history) := by
  induction history generalizing e reported heard with
  | nil => exact ho
  | cons x rest ih =>
    obtain ⟨op, now⟩ := x
    refine ih (he.perform op now) ?_ ?_
    · exact marks_run_of_latest he hm [(op, now)]
    · split
      · rw [reported?_eq_filter he, hm]
        cases rival? h e op now with
        | none => rw [Option.filter_none, Option.toList_none, List.append_nil, List.append_nil]; exact ho
        | some m =>
          have hstep := ho.hear few m
          split at hstep
          · rename_i hin
            simpa [Option.filter, hin] using hstep
          · rename_i hout
            simpa [Option.filter, hout] using hstep
      · exact once_nil known

/-! ## What a rival is answered -/

structure Disputed (e : Engine) (frame : List UInt8) (c : Copy) (r : Replica) (ms : List Mark) (now : Nat) : Prop where
  /-- It is counted, and nothing else happens. -/
  known : Mark.ofCopy c ∈ latest ms → e.receive frame now = (.resolved c.handle .knownConflict false,
    { e with store := { e.store with conflicts := Tally.bump e.store.conflicts } })
  /-- It is told of and remembered, and the copy held is to be sent soon. -/
  new : Mark.ofCopy c ∉ latest ms →
    e.receive frame now = (.resolved c.handle .conflict (e.inbox.push ⟨.conflictingVal, c.handle, c.data, c.origin⟩).1,
      { e with
        store := { e.store.put c.handle { r with marks := latest (ms ++ [Mark.ofCopy c]), lastActivity := now } with
          conflicts := Tally.bump e.store.conflicts }
        inbox := (e.inbox.push ⟨.conflictingVal, c.handle, c.data, c.origin⟩).2
        timetable := e.timetable.arm c.handle now })

theorem disputed_of_hears {frame : List UInt8} {c : Copy} {r : Replica} {ms : List Mark} (hears : e.Hears frame c)
    (held : e.store.replicas.get? c.handle = some r) (ha : r.allocated = true) (hv : c.version = r.version)
    (hd : c.data ≠ r.data) (hm : r.marks = latest ms) (now : Nat) : Disputed e frame c r ms now := by
  have hl := length_le_of_hears hears
  have hj := Replica.judge_of_rival ha hv hd
  constructor
  · intro hin
    rw [if_pos (Replica.knows_iff.2 (hm ▸ hin))] at hj
    rw [receive_of_hears now hears, hearCopy_of_get? now held hl, Store.hear_of_get? now held hl, hj]
    rfl
  · intro hout
    have hnew : r.knows (Mark.ofCopy c) = false := by
      rw [← Bool.not_eq_true, Replica.knows_iff, hm]
      exact hout
    rw [hnew] at hj
    rw [receive_of_hears now hears, hearCopy_of_get? now held hl, Store.hear_of_get? now held hl, hj,
      ← remembered_latest, ← hm, ← Replica.remember_of_new hnew now]
    rfl

/-- **What is known of rivals is exact.**  After any history, a rival that is heard, another copy of the version held,
is known if its mark is among the last three reported since the copy held changed, and is reported otherwise; what is
known is only counted, and what is reported is told of once and counts as activity.  The marks remembered are those
three, all different and of the version held, and there are none where nothing is held; there, what is heard is taken
over.  So of three different rivals heard since the copy changed, or fewer, each was reported just once.  The machine
follows the history up to `Machine.latest`, and what is heard next. -/
theorem memory_of_rivals_is_exact (h : Handle) (history : List (Operation × Nat)) :
    let e := fresh.run history
    let reports := sinceChange h (reported? h) [] fresh history
    let heard := sinceChange h (rival? h) [] fresh history
    (∀ frame c now, e.Hears frame c → c.handle = h →
      (∀ d, e.store.copy? h = some d → c.version = d.version → c.data ≠ d.data →
        ∃ r, e.store.replicas.get? h = some r ∧ r.toCopy h = d ∧ Disputed e frame c r reports now) ∧
      (e.store.copy? h = none → ∃ evicted, (e.receive frame now).1 = .resolved h .acceptNew evicted)) ∧
    (∀ r, e.store.replicas.get? h = some r → r.marks = latest reports ∧ r.Orderly) ∧
    (∀ known : List Mark, known.length ≤ 3 → (∀ m ∈ heard, m ∈ known) → ∀ m ∈ heard, reports.count m = 1) ∧
    ∀ op now, fresh.Followed (history ++ [(op, now)]) := by
  intro e reports heard
  have he : e.Reachable := ⟨history, rfl⟩
  have hmarks : ∀ r, e.store.replicas.get? h = some r → r.marks = latest reports := fun r hr =>
    (Store.marks_of_get? hr).symm.trans (marks_run h history)
  refine ⟨fun frame c now hears hh => ⟨fun d hcopy hv hd => ?_, fun hnone => ?_⟩,
    fun r hr => ⟨hmarks r hr, he.orderly hr⟩, fun known few hknown m hm => ?_, fun op now => reachable_fresh.followed _⟩
  · subst hh
    obtain ⟨r, held, ha, rfl⟩ := Store.copy?_eq_some_iff.1 hcopy
    exact ⟨r, held, rfl, disputed_of_hears hears held ha hv hd (hmarks r held) now⟩
  · subst hh
    obtain ⟨r, held⟩ := he.get?_of_hears hears
    have ha : r.allocated = false := by
      cases ha : r.allocated with
      | false => rfl
      | true =>
        rw [Store.copy?_of_get? held, Replica.copy?, if_pos ha] at hnone
        cases hnone
    rw [receive_of_hears now hears, hearCopy_of_get? now held (length_le_of_hears hears), Replica.judge, ha]
    exact ⟨_, rfl⟩
  · have hblank := reachable_fresh.marks_of_none (reachable_fresh.copy?_of_down rfl h)
    obtain ⟨hnodup, hall⟩ := (once_run few reachable_fresh hblank (once_nil known) history).once hknown
    rw [hnodup.count, if_pos (hall m hm)]

end

/-- Three rivals of a written value are heard, the first of them twice: it was reported once and is known, and a
fourth one is reported. -/
theorem memory_of_three_rivals_is_exact :
    let frame (b : UInt8) : List UInt8 := [0xD6, 0xBE, 0x89, 0x8E, 1, 11, 0x22, 0, 0, 0, 0, 0, 3, 0, 1, 0, b]
    let rival (b : UInt8) : Copy := ⟨3, 1, ⟨0x22, 0, 0, 0, 0, 0⟩, [b]⟩
    let history : List (Operation × Nat) := [(.start ⟨0x8E89BED6, 38, 10, 100⟩ ⟨0x11, 0, 0, 0, 0, 0⟩ true, 0),
      (.write 3 [7], 1), (.signal .tick, 2), (.signal .started, 3), (.receive (frame 1), 4), (.receive (frame 2), 5),
      (.receive (frame 1), 6), (.receive (frame 3), 7)]
    let e := fresh.run history
    e.store.copy? 3 = some ⟨3, 1, ⟨0x11, 0, 0, 0, 0, 0⟩, [7]⟩ ∧
    (e.receive (frame 1) 8).1 = .resolved 3 .knownConflict false ∧
    (e.receive (frame 4) 8).1 = .resolved 3 .conflict false ∧
    (sinceChange 3 (reported? 3) [] fresh history).count (Mark.ofCopy (rival 1)) = 1 := by
  intro frame rival history e
  obtain ⟨answers, -, once, -⟩ := memory_of_rivals_is_exact 3 history
  have held : e.store.copy? 3 = some ⟨3, 1, ⟨0x11, 0, 0, 0, 0, 0⟩, [7]⟩ := by decide +kernel
  have hears1 : e.Hears (frame 1) (rival 1) := heard?_eq_some_iff.1 (by decide +kernel)
  have hears4 : e.Hears (frame 4) (rival 4) := heard?_eq_some_iff.1 (by decide +kernel)
  have known : Mark.ofCopy (rival 1) ∈ latest (sinceChange 3 (reported? 3) [] fresh history) := by decide +kernel
  have new : Mark.ofCopy (rival 4) ∉ latest (sinceChange 3 (reported? 3) [] fresh history) := by decide +kernel
  have all : ∀ m ∈ sinceChange 3 (rival? 3) [] fresh history, m ∈ [1, 2, 3].map fun b => Mark.ofCopy (rival b) := by
    decide +kernel
  have heard : Mark.ofCopy (rival 1) ∈ sinceChange 3 (rival? 3) [] fresh history := by decide +kernel
  obtain ⟨r, -, -, dispute1⟩ := (answers (frame 1) (rival 1) 8 hears1 rfl).1 _ held rfl (by decide)
  obtain ⟨r, -, -, dispute4⟩ := (answers (frame 4) (rival 4) 8 hears4 rfl).1 _ held rfl (by decide)
  have room : (e.inbox.push ⟨.conflictingVal, 3, [4], ⟨0x22, 0, 0, 0, 0, 0⟩⟩).1 = false := by decide +kernel
  refine ⟨held, by rw [dispute1.known known], ?_, once _ (by decide) all _ heard⟩
  rw [dispute4.new new]
  exact congrArg (Reception.resolved 3 .conflict) room

end Engine
end ValueMesh
