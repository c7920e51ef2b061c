import ValueMesh.Engine.Operation
import ValueMesh.Proofs.Codec
import ValueMesh.Proofs.Hearing
import ValueMesh.Proofs.Schedule
/-!
# What one operation does to an engine

Each call of an engine is read here once, as the record it returns; what is proved of engines later rests on these
readings and not on the calls.  They come together in `step_perform`, which says once what any operation may make of
an engine, and in `Step.turn`, which says what this means for a single replica.
-/
namespace ValueMesh

theorem bind_eq_ok_iff {α β : Type} {x : Except Fault α} {f : α → Except Fault β} {b : β} :
    (x >>= f) = .ok b ↔ ∃ a, x = .ok a ∧ f a = .ok b := by
  cases x with
  | error err => exact ⟨nofun, fun ⟨a, ha, _⟩ => nomatch ha⟩
  | ok a => exact ⟨fun h => ⟨a, rfl, h⟩, fun ⟨a', ha, hf⟩ => by cases ha; exact hf⟩

theorem Store.write_of_ok {s s' : Store} {h : Handle} {data : List UInt8} {origin : Address} {now : Nat} {v : Version}
    (hw : s.write h data origin now = .ok (v, s')) : ∃ r, s.replicas.get? h = some r ∧ data.length ≤ maxValueBytes ∧
    v = r.version + 1 ∧ s' = s.put h (r.write data origin now) := by
  unfold write writable at hw
  obtain ⟨r, hr, hw⟩ := bind_eq_ok_iff.1 hw
  obtain ⟨r', hr', hl⟩ := bind_eq_ok_iff.1 hr
  split at hl
  · cases hl
  · rename_i hlen
    cases hl
    cases hw
    exact ⟨r, replica_eq_ok_iff.1 hr', Nat.not_lt.1 hlen, rfl, rfl⟩

namespace Session

/-- The settings under which the radio is ours, while a window is open. -/
def lent? (s : Session) : Option Settings :=
  match s.active with
  | some (cfg, .opened _) => some cfg
  | _ => none

theorem settings_of_inWindow {s : Session} (isOpen : s.inWindow = true) : ∃ cfg, s.settings = .ok cfg := by
  obtain ⟨active, denied, granted⟩ := s
  match active, isOpen with
  | some (cfg, .opened _), _ => exact ⟨cfg, rfl⟩

theorem configure_of_ok {s s' : Session} {cfg : Settings} (h : s.configure cfg = .ok s') :
    s' = { s with active := some (cfg, .idle) } := by
  cases ha : s.active.isSome with
  | true => rw [configure_of_active cfg ha] at h; cases h
  | false =>
    simp only [configure, ha, Bool.false_eq_true, if_false] at h
    obtain ⟨_, -, h⟩ := bind_eq_ok_iff.1 h
    cases h
    rfl

theorem settings_eq_ok_iff {s : Session} {cfg : Settings} :
    s.settings = .ok cfg ↔ s.active.map (·.1) = some cfg := by
  unfold settings
  split
  · rename_i ha; simp [ha]
  · rename_i ha; simp [ha]

end Session

namespace Engine

variable [Jitter]

instance (e : Engine) (cfg : Settings) : Decidable (e.settings = .ok cfg) :=
  decidable_of_iff _ Session.settings_eq_ok_iff.symm

theorem isUp_of_settings {e : Engine} {cfg : Settings} (h : e.settings = .ok cfg) : e.isUp = true := by
  have hm := Session.settings_eq_ok_iff.1 h
  rw [isUp, ← Option.isSome_map, hm]; rfl

/-! ## Calls of the application -/

theorem start_of_ok {e e' : Engine} {cfg : Settings} {a : Address} {hostReady : Bool}
    (h : e.start cfg a hostReady = .ok e') : e.isUp = false ∧ cfg.InRange ∧
    e' = { e with
      session := { e.session with active := some (cfg, .idle) }
      store := e.store.configure cfg.handleCount.toNat
      timetable := Timetable.configure cfg (seedOf a)
      address := a } := by
  cases hup : e.isUp with
  | true =>
    simp only [start, hup, if_true] at h
    cases h
  | false =>
    simp only [start, hup, Bool.false_eq_true, if_false] at h
    obtain ⟨_, hc, h⟩ := bind_eq_ok_iff.1 h
    cases hostReady with
    | false => cases h
    | true =>
      obtain ⟨session, hs, h⟩ := bind_eq_ok_iff.1 h
      cases h
      rw [Session.configure_of_ok hs]
      exact ⟨rfl, Settings.check_eq_ok_iff.1 hc, rfl⟩

theorem start_of_isUp {e : Engine} (up : e.isUp = true) (cfg : Settings) (a : Address) (hostReady : Bool) :
    e.start cfg a hostReady = .error .invalidState := by
  rw [start, up]
  rfl

theorem perform_start_of_isUp {e : Engine} (up : e.isUp = true) (cfg : Settings) (a : Address) (hostReady : Bool)
    (now : Nat) : e.perform (.start cfg a hostReady) now = (.refused .invalidState, e) := by
  simp only [perform, start_of_isUp up]

theorem write_of_ok {e e' : Engine} {h : Handle} {data : List UInt8} {now : Nat} {v : Version × Bool}
    (hw : e.write h data now = .ok (v, e')) :
    e.isUp = true ∧ ∃ r, e.store.replicas.get? h = some r ∧ data.length ≤ maxValueBytes ∧
    v = (r.version + 1, (e.inbox.push ⟨.updateVal, h, data, e.address⟩).1) ∧
    e' = { e with
      store := e.store.put h (r.write data e.address now)
      inbox := (e.inbox.push ⟨.updateVal, h, data, e.address⟩).2
      timetable := e.timetable.arm h now } := by
  unfold write at hw
  obtain ⟨cfg, hcfg, hw⟩ := bind_eq_ok_iff.1 hw
  obtain ⟨⟨version, store⟩, hs, hw⟩ := bind_eq_ok_iff.1 hw
  obtain ⟨r, hr, hl, rfl, rfl⟩ := Store.write_of_ok hs
  cases hw
  exact ⟨isUp_of_settings hcfg, r, hr, hl, rfl, rfl⟩

theorem perform_write_of_ok {e e' : Engine} {h : Handle} {data : List UInt8} {now : Nat} {version : Version}
    {evicted : Bool} (hw : e.write h data now = .ok ((version, evicted), e')) :
    e.perform (.write h data) now = (.written version evicted, e') := by
  simp only [perform, hw]

theorem write_of_written {e : Engine} {h : Handle} {data : List UInt8} {now : Nat} {version : Version} {evicted : Bool}
    (answered : (e.perform (.write h data) now).1 = .written version evicted) :
    ∃ e', e.write h data now = .ok ((version, evicted), e') := by
  cases hw : e.write h data now with
  | error f => simp only [perform, hw] at answered; cases answered
  | ok p =>
    obtain ⟨⟨v, b⟩, e'⟩ := p
    rw [perform_write_of_ok hw] at answered
    cases answered
    exact ⟨e', rfl⟩

theorem request_of_ok {e e' : Engine} {h : Handle} (hr : e.request h = .ok e') :
    ∃ t, e.timetable.request h = .ok t ∧ e' = { e with timetable := t } := by
  unfold request at hr
  obtain ⟨_, -, hr⟩ := bind_eq_ok_iff.1 hr
  obtain ⟨t, ht, hr⟩ := bind_eq_ok_iff.1 hr
  cases hr
  exact ⟨t, ht, rfl⟩

theorem takeNotice_of_some {e e' : Engine} {n : Notice} (h : e.takeNotice = some (n, e')) :
    ∃ inbox, e.inbox.pop = some (n, inbox) ∧ e' = { e with inbox } := by
  unfold takeNotice at h
  obtain ⟨⟨n', inbox⟩, hp, he⟩ := Option.map_eq_some_iff.1 h
  cases he
  exact ⟨inbox, hp, rfl⟩

theorem perform_read_snd (e : Engine) (h : Handle) (now : Nat) : (e.perform (.read h) now).2 = e := by
  simp only [perform]
  split <;> rfl

theorem perform_stamp_snd (e : Engine) (h : Handle) (now : Nat) : (e.perform (.stamp h) now).2 = e := by
  simp only [perform]
  split <;> rfl

theorem perform_request_snd (e : Engine) (h : Handle) (now : Nat) : (e.perform (.request h) now).2 = e ∨
    ∃ t, e.timetable.request h = .ok t ∧ (e.perform (.request h) now).2 = { e with timetable := t } := by
  simp only [perform]
  split
  · exact Or.inl rfl
  · rename_i hr
    obtain ⟨t, ht, rfl⟩ := request_of_ok hr
    exact Or.inr ⟨t, ht, rfl⟩

theorem perform_takeNotice_snd (e : Engine) (now : Nat) : (e.perform .takeNotice now).2 = e ∨
    ∃ n inbox, e.inbox.pop = some (n, inbox) ∧ (e.perform .takeNotice now).2 = { e with inbox } := by
  simp only [perform]
  split
  · exact Or.inl rfl
  · rename_i ht
    obtain ⟨inbox, hp, rfl⟩ := takeNotice_of_some ht
    exact Or.inr ⟨_, inbox, hp, rfl⟩

/-! ## Windows -/

/-- A frame handed out says what is held of the chosen value, or asks for it. -/
theorem frame_of_takeFrame {e : Engine} {mesh : UInt32} {now : Nat} {frame : List UInt8}
    (h : (e.takeFrame mesh now).1 = some frame) : ∃ item adv lastActivity, (e.timetable.next now).1 = some item ∧
    e.advertisement item now = some (adv, lastActivity) ∧ adv.encode mesh = .ok frame := by
  unfold takeFrame at h
  simp only at h
  split at h
  · cases h
  · rename_i item adv lastActivity hi
    obtain ⟨i, hn, hi⟩ := Option.bind_eq_some_iff.1 hi
    obtain ⟨p, ha, hp⟩ := Option.map_eq_some_iff.1 hi
    cases hp
    split at h
    · cases h
    · rename_i he
      cases h
      exact ⟨item, adv, lastActivity, hn, ha, he⟩

theorem takeFrame_snd (e : Engine) (mesh : UInt32) (now : Nat) : ∃ t n,
    (e.takeFrame mesh now).2 = { e with timetable := t, transmitted := n } ∧ Timetable.SameWaits e.timetable t := by
  have hn := Timetable.sameWaits_next e.timetable now
  unfold takeFrame
  simp only
  split
  · exact ⟨_, e.transmitted, rfl, hn⟩
  · rename_i item adv lastActivity hi
    split
    · exact ⟨_, e.transmitted, rfl, hn.complete item now lastActivity⟩
    · exact ⟨_, Tally.bump e.transmitted, rfl, hn.complete item now lastActivity⟩

theorem advertisement_session (e : Engine) (s : Session) (item : Item) (now : Nat) :
    { e with session := s }.advertisement item now = e.advertisement item now := by
  cases item <;> rfl

theorem takeFrame_session (e : Engine) (s : Session) (mesh : UInt32) (now : Nat) :
    { e with session := s }.takeFrame mesh now =
      ((e.takeFrame mesh now).1, { (e.takeFrame mesh now).2 with session := s }) := by
  unfold takeFrame
  simp only [advertisement_session]
  split
  · rfl
  · split <;> rfl

theorem signal_snd (e : Engine) (sig : Signal) (now : Nat) : ∃ t n, (e.signal sig now).2 =
    { e with session := (e.session.signal sig now).2, timetable := t, transmitted := n } ∧
    Timetable.SameWaits e.timetable t := by
  unfold signal
  simp only
  split
  · exact ⟨_, _, rfl, .refl _⟩
  · exact ⟨_, _, rfl, .refl _⟩
  · exact ⟨_, _, rfl, .refl _⟩
  · exact ⟨_, _, rfl, .refl _⟩
  · split
    · exact ⟨_, _, rfl, .refl _⟩
    · exact takeFrame_snd { e with session := (e.session.signal sig now).2 } _ now

inductive Lends (e : Engine) (now : Nat) : Signal → RadioTask → Engine → Prop
  | rest {sig : Signal} {session : Session} (lent : session.lent? = e.session.lent?)
      (granted : session.granted = e.session.granted) : Lends e now sig .none { e with session }
  | ask {sig : Signal} {session : Session} {length : Nat} (lent : session.lent? = e.session.lent?)
      (granted : session.granted = e.session.granted) : Lends e now sig (.requestWindow length) { e with session }
  | opens {cfg : Settings} (up : e.settings = .ok cfg) (idle : e.session.lent? = none) :
      Lends e now .started (.openWindow cfg.accessAddress cfg.channel (e.takeFrame cfg.accessAddress now).1)
        { (e.takeFrame cfg.accessAddress now).2 with
          session := ⟨some (cfg, .opened now), e.session.denied, Tally.bump e.session.granted⟩ }
  | goesOn {cfg : Settings} (lent : e.session.lent? = some cfg) : Lends e now .radio .listen e
  | closes {sig : Signal} {cfg : Settings} (closing : sig = .ended ∨ sig = .denied)
      (lent : e.session.lent? = some cfg) :
      Lends e now sig .close { e with session := { e.session with active := some (cfg, .idle) } }

theorem lends_signal (e : Engine) (sig : Signal) (now : Nat) :
    Lends e now sig (e.signal sig now).1 (e.signal sig now).2 := by
  obtain ⟨⟨active, denied, granted⟩, store, inbox, timetable, address, malformed, transmitted, accepted⟩ := e
  match active, sig with
  | none, _ => exact .rest rfl rfl
  | some (_, .idle), .tick => exact .ask rfl rfl
  | some (cfg, .requested), .started =>
    have opened := takeFrame_session ⟨⟨some (cfg, .requested), denied, granted⟩, store, inbox, timetable, address,
      malformed, transmitted, accepted⟩ ⟨some (cfg, .opened now), denied, Tally.bump granted⟩ cfg.accessAddress now
    simp only [signal, Session.signal, Session.settings, opened]
    exact .opens rfl rfl
  | some (_, .requested), .denied | some (_, .requested), .ended => exact .rest rfl rfl
  | some (_, .opened _), .radio => exact .goesOn rfl
  | some (_, .opened _), .ended => exact .closes (Or.inl rfl) rfl
  | some (_, .opened _), .denied => exact .closes (Or.inr rfl) rfl
  | some (_, .idle), .started | some (_, .idle), .denied | some (_, .idle), .radio | some (_, .idle), .ended
  | some (_, .requested), .tick | some (_, .requested), .radio
  | some (_, .opened _), .tick | some (_, .opened _), .started => exact .rest rfl rfl

theorem signal_of_open {e : Engine} {sig : Signal} {now : Nat} {mesh : UInt32} {channel : UInt8}
    {tx : Option (List UInt8)} (opened : (e.signal sig now).1 = .openWindow mesh channel tx) :
    ∃ cfg, e.settings = .ok cfg ∧
    mesh = cfg.accessAddress ∧ channel = cfg.channel ∧ tx = (e.takeFrame cfg.accessAddress now).1 ∧
    (e.signal sig now).2 =
      { (e.takeFrame cfg.accessAddress now).2 with session := (e.session.signal sig now).2 } := by
  obtain ⟨t, n, hs, -⟩ := signal_snd e sig now
  have session : (e.signal sig now).2.session = (e.session.signal sig now).2 := by rw [hs]
  have lends := lends_signal e sig now
  rw [← session]
  rw [opened] at lends
  generalize (e.signal sig now).2 = e' at lends
  cases lends with
  | opens up idle => exact ⟨_, up, rfl, rfl, rfl, rfl⟩

theorem frame_of_signal {e : Engine} {sig : Signal} {now : Nat} {mesh : UInt32} {channel : UInt8} {frame : List UInt8}
    (h : (e.signal sig now).1 = .openWindow mesh channel (some frame)) :
    (∃ cfg, e.settings = .ok cfg ∧ mesh = cfg.accessAddress) ∧ ∃ item adv lastActivity,
    (e.timetable.next now).1 = some item ∧ e.advertisement item now = some (adv, lastActivity) ∧
    adv.encode mesh = .ok frame := by
  obtain ⟨cfg, up, rfl, -, sent, -⟩ := signal_of_open h
  exact ⟨⟨cfg, up, rfl⟩, frame_of_takeFrame sent.symm⟩

/-! ## Receiving -/

/-- `frame` reaches an open window and carries the copy `c`, about a handle of the mesh. -/
def Hears (e : Engine) (frame : List UInt8) (c : Copy) : Prop :=
  e.session.inWindow = true ∧ ∃ cfg, e.settings = .ok cfg ∧ cfg.covers c.handle = true ∧
    Advertisement.decode frame cfg.accessAddress = .ok (.value c)

theorem length_le_of_hears {e : Engine} {frame : List UInt8} {c : Copy} (h : e.Hears frame c) :
    c.data.length ≤ maxValueBytes := by
  obtain ⟨-, cfg, -, -, hd⟩ := h
  exact Advertisement.length_le_of_decode hd

theorem receive_of_hears {e : Engine} {frame : List UInt8} {c : Copy} (now : Nat) (h : e.Hears frame c) :
    e.receive frame now = e.hearCopy c now := by
  obtain ⟨hw, cfg, hcfg, hc, hd⟩ := h
  simp only [receive, hw, hcfg, hd]
  simp only [Advertisement.value, hc, Bool.not_true, Bool.false_eq_true, if_false]

theorem receive_of_unreadable {e : Engine} {cfg : Settings} {frame : List UInt8} {cause : FrameError}
    (isOpen : e.session.inWindow = true) (up : e.settings = .ok cfg)
    (unreadable : Advertisement.decode frame cfg.accessAddress = .error cause) (now : Nat) :
    e.receive frame now = (.dropped cause, e.malformedFrame) := by
  simp only [receive, isOpen, up, unreadable]

inductive Receives (e : Engine) (frame : List UInt8) (now : Nat) : Reception × Engine → Prop
  | closed (closed : e.session.inWindow = false) : Receives e frame now (.notListening, e)
  | unreadable {cfg : Settings} {cause : FrameError} (up : e.settings = .ok cfg)
      (decodes : Advertisement.decode frame cfg.accessAddress = .error cause) :
      Receives e frame now (.dropped cause, e.malformedFrame)
  | outOfRange {cfg : Settings} {adv : Advertisement} (up : e.settings = .ok cfg)
      (decodes : Advertisement.decode frame cfg.accessAddress = .ok adv)
      (beyond : cfg.covers adv.copy.handle = false) :
      Receives e frame now (.outOfRange adv.copy.handle, e.malformedFrame)
  | ignored {cfg : Settings} {adv : Advertisement} (up : e.settings = .ok cfg)
      (decodes : Advertisement.decode frame cfg.accessAddress = .ok adv) (asks : adv.kind = .request) :
      Receives e frame now (.requestIgnored adv.copy.handle, e)
  | served {cfg : Settings} {adv : Advertisement} {r : Replica} (up : e.settings = .ok cfg)
      (decodes : Advertisement.decode frame cfg.accessAddress = .ok adv) (asks : adv.kind = .request)
      (held : e.store.replicas.get? adv.copy.handle = some r) (allocated : r.allocated = true) :
      Receives e frame now
        (.requestServed adv.copy.handle, { e with timetable := e.timetable.arm adv.copy.handle now })
  | heard {c : Copy} (hears : e.Hears frame c) : Receives e frame now (e.hearCopy c now)

theorem receives (e : Engine) (frame : List UInt8) (now : Nat) : Receives e frame now (e.receive frame now) := by
  unfold receive
  split
  · rename_i cfg isOpen up
    split
    · rename_i decodes
      exact .unreadable up decodes
    · rename_i adv decodes
      split
      · rename_i beyond
        exact .outOfRange up decodes (by simpa using beyond)
      · rename_i covered
        split
        · rename_i asks
          unfold answerRequest
          split
          · rename_i r held
            split
            · rename_i allocated
              exact .served up decodes asks held allocated
            · exact .ignored up decodes asks
          · exact .ignored up decodes asks
        · rename_i carries
          refine .heard ⟨isOpen, cfg, up, by simpa using covered, ?_⟩
          rw [decodes, Advertisement.value, ← carries]
  · rename_i other
    cases hw : e.session.inWindow with
    | false => exact .closed hw
    | true =>
      obtain ⟨cfg, up⟩ := Session.settings_of_inWindow hw
      exact absurd up (other cfg hw)

theorem receive_of_not_hears {e : Engine} {frame : List UInt8} (now : Nat) (h : ∀ c, ¬ e.Hears frame c) : ∃ t n,
    (e.receive frame now).2 = { e with timetable := t, malformed := n } ∧
    (t = e.timetable ∨ ∃ k r, e.store.replicas.get? k = some r ∧ r.allocated = true ∧ t = e.timetable.arm k now) := by
  have outcome := e.receives frame now
  generalize e.receive frame now = p at outcome
  cases outcome with
  | closed | unreadable | outOfRange | ignored => exact ⟨_, _, rfl, Or.inl rfl⟩
  | served _ _ _ held allocated => exact ⟨_, _, rfl, Or.inr ⟨_, _, held, allocated, rfl⟩⟩
  | heard hears => exact absurd hears (h _)

theorem store_deliver (e : Engine) (n : Option Notice) : (e.deliver n).2.store = e.store := by
  cases n <;> rfl

theorem session_deliver (e : Engine) (n : Option Notice) : (e.deliver n).2.session = e.session := by
  cases n <;> rfl

theorem address_deliver (e : Engine) (n : Option Notice) : (e.deliver n).2.address = e.address := by
  cases n <;> rfl

theorem transmitted_deliver (e : Engine) (n : Option Notice) : (e.deliver n).2.transmitted = e.transmitted := by
  cases n <;> rfl

theorem store_hearCopy (e : Engine) (c : Copy) (now : Nat) : (e.hearCopy c now).2.store = (e.store.hear c now).2 := by
  unfold hearCopy
  simp only
  split
  · rfl
  · exact store_deliver ..

theorem session_hearCopy (e : Engine) (c : Copy) (now : Nat) : (e.hearCopy c now).2.session = e.session := by
  unfold hearCopy
  simp only
  split
  · rfl
  · exact session_deliver ..

theorem address_hearCopy (e : Engine) (c : Copy) (now : Nat) : (e.hearCopy c now).2.address = e.address := by
  unfold hearCopy
  simp only
  split
  · rfl
  · exact address_deliver ..

theorem transmitted_hearCopy (e : Engine) (c : Copy) (now : Nat) :
    (e.hearCopy c now).2.transmitted = e.transmitted := by
  unfold hearCopy
  simp only
  split
  · rfl
  · exact transmitted_deliver ..

theorem hearCopy_of_get? {e : Engine} {c : Copy} {r : Replica} (now : Nat)
    (hr : e.store.replicas.get? c.handle = some r) (hl : c.data.length ≤ maxValueBytes) :
    e.hearCopy c now = (.resolved c.handle (r.judge c) (e.deliver (Store.announcement c (r.judge c))).1, { e with
      store := (e.store.hear c now).2
      inbox := (e.deliver (Store.announcement c (r.judge c))).2.inbox
      timetable := if (r.judge c).rearms then e.timetable.arm c.handle now else e.timetable
      accepted := if (r.judge c).accepts then Tally.bump e.accepted else e.accepted }) := by
  unfold hearCopy
  rw [Store.hear_of_get? now hr hl]
  cases r.judge c <;> rfl

theorem store_receive {e : Engine} {frame : List UInt8} {c : Copy} (now : Nat) (hears : e.Hears frame c) :
    (e.receive frame now).2.store = (e.store.hear c now).2 := by
  rw [receive_of_hears now hears, store_hearCopy]

theorem store_receive_of_not_hears {e : Engine} {frame : List UInt8} (now : Nat) (h : ∀ c, ¬ e.Hears frame c) :
    (e.receive frame now).2.store = e.store := by
  obtain ⟨t, n, hs, -⟩ := receive_of_not_hears now h
  rw [hs]

theorem get?_receive {e : Engine} {frame : List UInt8} {c : Copy} {r : Replica} (now : Nat) (hears : e.Hears frame c)
    (held : e.store.replicas.get? c.handle = some r) :
    (e.receive frame now).2.store.replicas.get? c.handle = some (r.hear c now) := by
  rw [store_receive now hears, Store.get?_hear now held (length_le_of_hears hears)]

theorem copy?_receive_of_ne {e : Engine} {frame : List UInt8} {c : Copy} {k : Handle} (now : Nat)
    (hears : e.Hears frame c) (hk : k ≠ c.handle) : (e.receive frame now).2.store.copy? k = e.store.copy? k := by
  rw [store_receive now hears, Store.copy?_hear_of_ne now hk]

theorem copy?_receive {e : Engine} {frame : List UInt8} {c : Copy} (now : Nat) (hears : e.Hears frame c)
    (hc : e.store.covers c.handle = true) :
    (e.receive frame now).2.store.copy? c.handle = some (c.upon (e.store.copy? c.handle)) := by
  rw [store_receive now hears, Store.copy?_hear now hc (length_le_of_hears hears)]

/-! ## All operations together -/

/-- **What an operation may make of an engine.**  It brings the node up, writes a value, hears a copy, or is quiet:
then the replicas and the settings stay, and at most a value that is held is sent soon. -/
inductive Step (e : Engine) (now : Nat) : Operation → Engine → Prop
  | start {cfg : Settings} {a : Address} {hostReady : Bool} (down : e.isUp = false) (inRange : cfg.InRange) :
      Step e now (.start cfg a hostReady) { e with
        session := { e.session with active := some (cfg, .idle) }
        store := e.store.configure cfg.handleCount.toNat
        timetable := Timetable.configure cfg (seedOf a)
        address := a }
  | write {h : Handle} {data : List UInt8} {r : Replica} (up : e.isUp = true)
      (held : e.store.replicas.get? h = some r) (hl : data.length ≤ maxValueBytes) :
      Step e now (.write h data) { e with
        store := e.store.put h (r.write data e.address now)
        inbox := (e.inbox.push ⟨.updateVal, h, data, e.address⟩).2
        timetable := e.timetable.arm h now }
  | hear {frame : List UInt8} {c : Copy} (hears : e.Hears frame c) : Step e now (.receive frame) (e.hearCopy c now).2
  | quiet {op : Operation} {session : Session} {inbox : Inbox} {timetable : Timetable} {malformed transmitted : Nat}
      (settings : session.settings = e.settings)
      (waits : Timetable.SameWaits e.timetable timetable ∨ ∃ k r, e.store.replicas.get? k = some r ∧
        r.allocated = true ∧ timetable = e.timetable.arm k now) :
      Step e now op { e with session, inbox, timetable, malformed, transmitted }

theorem step_of_same (e : Engine) (op : Operation) (now : Nat) : Step e now op e :=
  .quiet rfl (Or.inl (.refl e.timetable))

theorem step_perform (e : Engine) (op : Operation) (now : Nat) : Step e now op (e.perform op now).2 := by
  cases op with
  | start cfg a hostReady =>
    simp only [perform]
    split
    · exact step_of_same ..
    · rename_i hs
      obtain ⟨down, inRange, rfl⟩ := start_of_ok hs
      exact .start down inRange
  | write h data =>
    simp only [perform]
    split
    · exact step_of_same ..
    · rename_i hw
      obtain ⟨up, r, held, hl, -, rfl⟩ := write_of_ok hw
      exact .write up held hl
  | read h => rw [perform_read_snd]; exact step_of_same ..
  | stamp h => rw [perform_stamp_snd]; exact step_of_same ..
  | request h =>
    rcases perform_request_snd e h now with hsame | ⟨t, ht, hs⟩
    · rw [hsame]
      exact step_of_same ..
    · rw [hs]
      exact .quiet rfl (Or.inl (Timetable.sameWaits_request ht))
  | takeNotice =>
    rcases perform_takeNotice_snd e now with hsame | ⟨n, inbox, -, hs⟩
    · rw [hsame]
      exact step_of_same ..
    · rw [hs]
      exact .quiet rfl (Or.inl (.refl e.timetable))
  | signal sig =>
    obtain ⟨t, n, hs, hwaits⟩ := signal_snd e sig now
    show Step e now _ (e.signal sig now).2
    rw [hs]
    exact .quiet (Session.settings_signal ..) (Or.inl hwaits)
  | windowRefused => exact .quiet (Session.settings_windowRefused ..) (Or.inl (.refl e.timetable))
  | receive frame =>
    show Step e now _ (e.receive frame now).2
    by_cases hh : ∃ c, e.Hears frame c
    · obtain ⟨c, hc⟩ := hh
      rw [receive_of_hears now hc]
      exact .hear hc
    · obtain ⟨t, n, hs, ht⟩ := receive_of_not_hears now (not_exists.1 hh)
      rw [hs]
      refine .quiet rfl ?_
      rcases ht with rfl | ht
      · exact Or.inl (.refl e.timetable)
      · exact Or.inr ht

variable {e e' : Engine} {op : Operation} {now : Nat}

theorem Step.settings {cfg : Settings} (hs : Step e now op e') (up : e.settings = .ok cfg) : e'.settings = .ok cfg := by
  cases hs with
  | start down => rw [isUp_of_settings up] at down; cases down
  | write => exact up
  | hear hears => rw [Engine.settings, session_hearCopy]; exact up
  | quiet settings => exact settings.trans up

/-- A node that is not up yet comes up with nothing in it, or stays down and holds what it held. -/
theorem Step.of_down (hs : Step e now op e') (down : e.isUp = false) :
    (∃ cfg a, e'.settings = .ok cfg ∧ e'.store = e.store.configure cfg.handleCount.toNat ∧
      e'.timetable = Timetable.configure cfg (seedOf a)) ∨
    e'.settings = e.settings ∧ e'.store = e.store := by
  cases hs with
  | start => exact Or.inl ⟨_, _, rfl, rfl, rfl⟩
  | write up => rw [down] at up; cases up
  | hear hears =>
    obtain ⟨-, cfg, hcfg, -⟩ := hears
    rw [isUp_of_settings hcfg] at down; cases down
  | quiet settings => exact Or.inr ⟨settings, rfl⟩

theorem store_perform_of_other (hs : ∀ cfg a hostReady, op ≠ .start cfg a hostReady) (hw : ∀ k data, op ≠ .write k data)
    (hr : ∀ frame, op ≠ .receive frame) : (e.perform op now).2.store = e.store := by
  have hstep := step_perform e op now
  generalize (e.perform op now).2 = e' at hstep
  cases hstep with
  | start => exact absurd rfl (hs _ _ _)
  | write => exact absurd rfl (hw _ _)
  | hear => exact absurd rfl (hr _)
  | quiet => rfl

/-- Settings and address are given to a node when it is brought up, and stay. -/
theorem Step.identity (hs : Step e now op e') : (e'.settings = e.settings ∧ e'.address = e.address) ∨
    ∃ cfg a hostReady, op = .start cfg a hostReady ∧ e'.settings = .ok cfg ∧ e'.address = a := by
  cases hs with
  | start => exact Or.inr ⟨_, _, _, rfl, rfl, rfl⟩
  | write => exact Or.inl ⟨rfl, rfl⟩
  | hear => exact Or.inl ⟨congrArg Session.settings (session_hearCopy ..), address_hearCopy ..⟩
  | quiet settings => exact Or.inl ⟨settings, rfl⟩

theorem Step.handleCount (hs : Step e now op e') (up : e.isUp = true) :
    e'.store.handleCount = e.store.handleCount := by
  cases hs with
  | start down => rw [up] at down; cases down
  | write => exact Store.handleCount_put ..
  | hear => rw [store_hearCopy, Store.handleCount_hear]
  | quiet => rfl

/-! ## One replica -/

inductive Turn (e : Engine) (h : Handle) (r : Replica) (now : Nat) : Operation → Replica → Prop
  | keep (op : Operation) : Turn e h r now op r
  | write {data : List UInt8} (hl : data.length ≤ maxValueBytes) :
      Turn e h r now (.write h data) (r.write data e.address now)
  | hear {frame : List UInt8} {c : Copy} (hears : e.Hears frame c) (about : c.handle = h) :
      Turn e h r now (.receive frame) (r.hear c now)

/-- **Whatever is done to a node, each replica stays, is written, or hears a copy.** -/
theorem Step.turn {h : Handle} {r : Replica} (hs : Step e now op e') (up : e.isUp = true)
    (held : e.store.replicas.get? h = some r) :
    ∃ r', e'.store.replicas.get? h = some r' ∧ Turn e h r now op r' := by
  cases hs with
  | start down => rw [up] at down; cases down
  | write up' held' hl =>
    rename_i k data r₀
    by_cases hk : h = k
    · subst hk
      cases held.symm.trans held'
      exact ⟨_, Store.get?_put_self _ held, .write hl⟩
    · exact ⟨r, (Store.get?_put_of_ne _ hk).trans held, .keep _⟩
  | hear hears =>
    rename_i frame c
    rw [store_hearCopy]
    by_cases hk : h = c.handle
    · subst hk
      exact ⟨_, Store.get?_hear now held (length_le_of_hears hears), .hear hears rfl⟩
    · exact ⟨r, (Store.get?_hear_of_ne now hk).trans held, .keep _⟩
  | quiet => exact ⟨r, held, .keep _⟩

/-- **Whatever is done to a node, the copy it holds of a value stays, is written, or meets one that is heard.** -/
theorem Step.copy_cases (hs : Step e now op e') (up : e.isUp = true) (h : Handle) :
    e'.store.copy? h = e.store.copy? h ∨
    (∃ data r, op = .write h data ∧ e.store.replicas.get? h = some r ∧
      e'.store.copy? h = some ⟨h, r.version + 1, e.address, data⟩) ∨
    ∃ frame c, op = .receive frame ∧ e.Hears frame c ∧ c.handle = h ∧
      e'.store.copy? h = some (c.upon (e.store.copy? h)) := by
  cases hr : e.store.replicas.get? h with
  | none =>
    refine Or.inl ?_
    have hnone : e'.store.replicas.get? h = none := by
      rw [HandleTable.get?_eq_none_iff] at hr ⊢
      exact (congrArg h.within (hs.handleCount up)).trans hr
    rw [Store.copy?, Store.copy?, hr, hnone]
  | some r =>
    obtain ⟨r', hr', ht⟩ := hs.turn up hr
    rw [Store.copy?_of_get? hr, Store.copy?_of_get? hr']
    cases ht with
    | keep => exact Or.inl rfl
    | write hl =>
      rename_i data
      exact Or.inr (Or.inl ⟨data, r, rfl, rfl, rfl⟩)
    | hear hears about =>
      rename_i frame c
      subst about
      exact Or.inr (Or.inr ⟨frame, c, rfl, hears, rfl, Replica.copy?_hear r c now⟩)

end Engine
end ValueMesh
