import ValueMesh.Proofs.Reachable
/-!
# What the application is told

An operation puts at most one notice into the inbox, and only taking a notice takes one out (`inbox_perform`,
`pending_takeNotice`).  So as long as no notice is lost to a full inbox, notices are taken in the order they were put
there, and those not taken yet are pending (`pending_append_told`).
-/
namespace ValueMesh

def Inbox.put (q : Inbox) : Option Notice → Inbox
  | none => q
  | some n => (q.push n).2

theorem Inbox.pending_put_of_kept {q : Inbox} {n : Option Notice} (kept : (q.put n).lost = 0) :
    q.lost = 0 ∧ (q.put n).pending = q.pending ++ n.toList := by
  cases n with
  | none => exact ⟨kept, (List.append_nil _).symm⟩
  | some n =>
    have hput : q.put (some n) = (q.push n).2 := rfl
    rw [hput] at kept ⊢
    by_cases hroom : q.pending.length < capacity
    · rw [push_of_room n hroom] at kept ⊢
      exact ⟨kept, rfl⟩
    · rw [push_of_full n (Nat.not_lt.1 hroom)] at kept
      have hbump : Tally.bump q.lost = min (q.lost + 1) Tally.limit := rfl
      have hlimit : 0 < Tally.limit := by decide
      simp only at kept
      omega

def Engine.Answer.notice? : Engine.Answer → Option Notice
  | .notice n => n
  | _ => none

namespace Engine

variable [Jitter] {e : Engine} {op : Operation} {now : Nat} {n : Notice}

/-! ## What is heard -/

def heard? (e : Engine) (frame : List UInt8) : Option Copy :=
  match e.session.inWindow, e.settings with
  | true, .ok cfg =>
    match Advertisement.decode frame cfg.accessAddress with
    | .ok ⟨.value, c⟩ => if cfg.covers c.handle then some c else none
    | _ => none
  | _, _ => none

theorem heard?_eq_some_iff {frame : List UInt8} {c : Copy} : e.heard? frame = some c ↔ e.Hears frame c := by
  unfold heard? Hears
  constructor
  · intro h
    split at h
    · rename_i cfg hw hcfg
      split at h
      · rename_i d hd
        split at h
        · rename_i hc
          cases h
          exact ⟨hw, cfg, hcfg, hc, hd⟩
        · cases h
      · cases h
    · cases h
  · rintro ⟨hw, cfg, hcfg, hc, hd⟩
    rw [hw, hcfg]
    simp only [hd]
    exact if_pos hc

theorem heard?_of_not_hears {frame : List UInt8} (hears : ∀ c, ¬ e.Hears frame c) : e.heard? frame = none := by
  rw [Option.eq_none_iff_forall_not_mem]
  exact fun c hc => hears c (heard?_eq_some_iff.1 hc)

/-! ## What is put into the inbox -/

def told? (e : Engine) : Operation → Nat → Option Notice
  | .write h data, now =>
    match e.write h data now with
    | .ok _ => some ⟨.updateVal, h, data, e.address⟩
    | .error _ => none
  | .receive frame, _ =>
    (e.heard? frame).bind fun c => (e.store.replicas.get? c.handle).bind fun r => Store.announcement c (r.judge c)
  | _, _ => none

theorem told?_write_of_ok {h : Handle} {data : List UInt8} {p : (Version × Bool) × Engine}
    (hw : e.write h data now = .ok p) : e.told? (.write h data) now = some ⟨.updateVal, h, data, e.address⟩ := by
  simp only [told?, hw]

theorem told?_write_of_error {h : Handle} {data : List UInt8} {f : Fault} (hw : e.write h data now = .error f) :
    e.told? (.write h data) now = none := by
  simp only [told?, hw]

theorem write_of_told? {h : Handle} {data : List UInt8} (ht : e.told? (.write h data) now = some n) :
    (∃ p, e.write h data now = .ok p) ∧ n = ⟨.updateVal, h, data, e.address⟩ := by
  cases hw : e.write h data now with
  | error f => rw [told?_write_of_error hw] at ht; cases ht
  | ok p =>
    rw [told?_write_of_ok hw] at ht
    cases ht
    exact ⟨⟨p, rfl⟩, rfl⟩

theorem told?_receive {frame : List UInt8} {c : Copy} {r : Replica} (hears : e.Hears frame c)
    (held : e.store.replicas.get? c.handle = some r) :
    e.told? (.receive frame) now = Store.announcement c (r.judge c) := by
  rw [told?, heard?_eq_some_iff.2 hears, Option.bind_some, held, Option.bind_some]

theorem told?_of_not_hears {frame : List UInt8} (hears : ∀ c, ¬ e.Hears frame c) :
    e.told? (.receive frame) now = none := by
  rw [told?, heard?_of_not_hears hears]
  rfl

theorem hears_of_told? {frame : List UInt8} (ht : e.told? (.receive frame) now = some n) : ∃ c r,
    e.Hears frame c ∧ e.store.replicas.get? c.handle = some r ∧ Store.announcement c (r.judge c) = some n := by
  unfold told? at ht
  obtain ⟨c, hc, ht⟩ := Option.bind_eq_some_iff.1 ht
  obtain ⟨r, hr, ht⟩ := Option.bind_eq_some_iff.1 ht
  exact ⟨c, r, heard?_eq_some_iff.1 hc, hr, ht⟩

/-- **A notice is about one write or one copy that was heard**: its handle, bytes and origin are all from there. -/
theorem source_of_told? (ht : e.told? op now = some n) :
    (∃ version evicted, op = .write n.handle n.data ∧ (e.perform op now).1 = .written version evicted ∧
      n.origin = e.address) ∨
    ∃ frame c, op = .receive frame ∧ e.Hears frame c ∧ c.handle = n.handle ∧ c.data = n.data ∧ c.origin = n.origin := by
  cases op with
  | write h data =>
    obtain ⟨⟨⟨⟨version, evicted⟩, e'⟩, hw⟩, rfl⟩ := write_of_told? ht
    exact Or.inl ⟨version, evicted, rfl, congrArg Prod.fst (perform_write_of_ok hw), rfl⟩
  | receive frame =>
    obtain ⟨c, r, hears, -, ha⟩ := hears_of_told? ht
    refine Or.inr ⟨frame, c, rfl, hears, ?_⟩
    cases hj : r.judge c <;> rw [hj] at ha <;> cases ha <;> exact ⟨rfl, rfl, rfl⟩
  | start | read | stamp | request | takeNotice | signal | windowRefused => cases ht

theorem inbox_deliver (e : Engine) (n : Option Notice) : (e.deliver n).2.inbox = e.inbox.put n := by
  cases n <;> rfl

theorem inbox_receive_eq_put (e : Engine) (frame : List UInt8) (now : Nat) :
    (e.receive frame now).2.inbox = e.inbox.put (e.told? (.receive frame) now) := by
  by_cases hh : ∃ c, e.Hears frame c
  · obtain ⟨c, hears⟩ := hh
    rw [receive_of_hears now hears]
    cases hr : e.store.replicas.get? c.handle with
    | none =>
      rw [told?, heard?_eq_some_iff.2 hears, Option.bind_some, hr]
      unfold hearCopy Store.hear
      rw [hr]
      rfl
    | some r =>
      rw [told?_receive hears hr, hearCopy_of_get? now hr (length_le_of_hears hears)]
      exact inbox_deliver ..
  · obtain ⟨t, m, hs, -⟩ := receive_of_not_hears now (not_exists.1 hh)
    rw [hs, told?_of_not_hears (not_exists.1 hh)]
    rfl

/-- **An operation puts into the inbox what it has to tell**, and taking a notice is all else that happens there. -/
theorem inbox_perform (hop : op ≠ .takeNotice) : (e.perform op now).2.inbox = e.inbox.put (e.told? op now) := by
  cases op with
  | start cfg a hostReady =>
    simp only [perform]
    split
    · rfl
    · rename_i hs
      obtain ⟨-, -, rfl⟩ := start_of_ok hs
      rfl
  | write h data =>
    cases hw : e.write h data now with
    | error f => simp only [perform, hw, told?_write_of_error hw]; rfl
    | ok p =>
      obtain ⟨-, r, -, -, -, he⟩ := write_of_ok hw
      simp only [perform, hw, told?_write_of_ok hw]
      rw [he]
      rfl
  | read h => rw [perform_read_snd]; rfl
  | stamp h => rw [perform_stamp_snd]; rfl
  | request h =>
    rcases perform_request_snd e h now with hsame | ⟨t, -, hs⟩
    · rw [hsame]
      rfl
    · rw [hs]
      rfl
  | takeNotice => exact absurd rfl hop
  | signal sig =>
    obtain ⟨t, m, hs, -⟩ := signal_snd e sig now
    show (e.signal sig now).2.inbox = _
    rw [hs]
    rfl
  | windowRefused => rfl
  | receive frame => exact inbox_receive_eq_put e frame now

theorem notice?_perform (hop : op ≠ .takeNotice) : (e.perform op now).1.notice? = none := by
  cases op with
  | takeNotice => exact absurd rfl hop
  | signal | windowRefused | receive => rfl
  | start | write | read | stamp | request =>
    simp only [perform]
    split <;> rfl

theorem pending_takeNotice (e : Engine) (now : Nat) :
    e.inbox.pending = (e.perform .takeNotice now).1.notice?.toList ++ (e.perform .takeNotice now).2.inbox.pending ∧
    (e.perform .takeNotice now).2.inbox.lost = e.inbox.lost := by
  simp only [perform]
  split
  · exact ⟨rfl, rfl⟩
  · rename_i n e' ht
    obtain ⟨inbox, hp, rfl⟩ := takeNotice_of_some ht
    refine ⟨Inbox.pending_of_pop hp, ?_⟩
    unfold Inbox.pop at hp
    split at hp
    · cases hp
    · cases hp
      rfl

theorem mem_pending_perform (hn : n ∈ (e.perform op now).2.inbox.pending) :
    n ∈ e.inbox.pending ∨ e.told? op now = some n := by
  by_cases hop : op = .takeNotice
  · subst hop
    rw [(pending_takeNotice e now).1]
    exact Or.inl (List.mem_append_right _ hn)
  · rw [inbox_perform hop] at hn
    cases ht : e.told? op now with
    | none =>
      rw [ht] at hn
      exact Or.inl hn
    | some m =>
      rw [ht, Inbox.put, Inbox.push] at hn
      split at hn
      · rcases List.mem_append.1 hn with hn | hn
        · exact Or.inl hn
        · exact Or.inr (congrArg some (List.mem_singleton.1 hn).symm)
      · -- A full inbox has lost its oldest notice.
        rcases List.mem_append.1 hn with hn | hn
        · exact Or.inl (List.mem_of_mem_drop hn)
        · exact Or.inr (congrArg some (List.mem_singleton.1 hn).symm)

/-! ## Whole histories -/

/-- What `f` says of each operation of a history, at the engine it is made on. -/
def along {β : Type} (f : Engine → Operation → Nat → β) (e : Engine) : List (Operation × Nat) → List β
  | [] => []
  | (op, now) :: rest => f e op now :: along f (e.perform op now).2 rest

def told (e : Engine) (history : List (Operation × Nat)) : List Notice := (e.along told? history).flatMap (·.toList)

def taken (e : Engine) (history : List (Operation × Nat)) : List Notice :=
  (e.answers history).flatMap (·.notice?.toList)

theorem along_append {β : Type} (f : Engine → Operation → Nat → β) (e : Engine) (a b : List (Operation × Nat)) :
    e.along f (a ++ b) = e.along f a ++ (e.run a).along f b := by
  induction a generalizing e with
  | nil => rfl
  | cons x rest ih => simp only [List.cons_append, along, run, ih]

theorem map_along {β γ : Type} (g : β → γ) (f : Engine → Operation → Nat → β) (e : Engine)
    (history : List (Operation × Nat)) :
    (e.along f history).map g = e.along (fun e op now => g (f e op now)) history := by
  induction history generalizing e with
  | nil => rfl
  | cons x rest ih =>
    rw [along, List.map_cons, ih]
    rfl

theorem Reachable.along_congr {β : Type} {f g : Engine → Operation → Nat → β} {e : Engine}
    (same : ∀ {e : Engine} (op : Operation) (now : Nat), e.Reachable → f e op now = g e op now) (he : e.Reachable)
    (history : List (Operation × Nat)) : e.along f history = e.along g history := by
  induction history generalizing e with
  | nil => rfl
  | cons x rest ih => rw [along, along, same x.1 x.2 he, ih (he.perform x.1 x.2)]

theorem pending_perform_of_kept (kept : (e.perform op now).2.inbox.lost = 0) : e.inbox.lost = 0 ∧
    e.inbox.pending ++ (e.told? op now).toList =
      (e.perform op now).1.notice?.toList ++ (e.perform op now).2.inbox.pending := by
  by_cases hop : op = .takeNotice
  · subst hop
    obtain ⟨hp, hl⟩ := pending_takeNotice e now
    exact ⟨hl ▸ kept, (List.append_nil _).trans hp⟩
  · rw [inbox_perform hop] at kept
    rw [inbox_perform hop, notice?_perform hop]
    obtain ⟨hl, hp⟩ := Inbox.pending_put_of_kept kept
    exact ⟨hl, hp.symm⟩

/-- **First in, first out**: if nothing was lost, what was pending and what was put in are what was taken and what is
pending now. -/
theorem pending_append_told {history : List (Operation × Nat)} (kept : (e.run history).inbox.lost = 0) :
    e.inbox.lost = 0 ∧
    e.inbox.pending ++ e.told history = e.taken history ++ (e.run history).inbox.pending := by
  induction history generalizing e with
  | nil => exact ⟨kept, List.append_nil _⟩
  | cons x rest ih =>
    obtain ⟨op, now⟩ := x
    obtain ⟨hl, hrest⟩ := ih (e := (e.perform op now).2) kept
    obtain ⟨hl', hstep⟩ := pending_perform_of_kept hl
    refine ⟨hl', ?_⟩
    calc e.inbox.pending ++ e.told ((op, now) :: rest)
        = (e.inbox.pending ++ (e.told? op now).toList) ++ (e.perform op now).2.told rest :=
          (List.append_assoc ..).symm
      _ = (e.perform op now).1.notice?.toList ++
            ((e.perform op now).2.inbox.pending ++ (e.perform op now).2.told rest) := by
          rw [hstep, List.append_assoc]
      _ = e.taken ((op, now) :: rest) ++ (e.run ((op, now) :: rest)).inbox.pending := by
          rw [hrest, ← List.append_assoc]
          rfl

end Engine
end ValueMesh
