import ValueMesh.Proofs.Isolation
import ValueMesh.Proofs.Mirror
import ValueMesh.Proofs.Windows
/-!
# A copy is passed on byte for byte

The frame of a copy that was taken over is the frame that the node sends of the value from then on, until the copy it
holds changes again, whatever else happens at the node meanwhile (`relayed_frame_is_the_one_heard`).  So a copy that
comes over several neighbours is one frame on all of them, and a rival has one mark wherever it is heard.
-/
namespace ValueMesh
namespace Engine

section

variable [Jitter] {e : Engine} {h : Handle} {frame : List UInt8} {now : Nat}

theorem hears_of_resolved {verdict : Verdict} {evicted : Bool}
    (heard : (e.receive frame now).1 = .resolved h verdict evicted) : ∃ c, e.Hears frame c := by
  have outcome := e.receives frame now
  generalize e.receive frame now = p at outcome heard
  cases outcome with
  | heard hears => exact ⟨_, hears⟩
  | closed | unreadable | outOfRange | ignored | served => cases heard

/-- **A copy that was taken over is held, and its frame is the one it is written to.** -/
theorem copy?_of_accepted {verdict : Verdict} {evicted : Bool} (he : e.Reachable)
    (heard : (e.receive frame now).1 = .resolved h verdict evicted) (accepted : verdict.accepts = true) :
    ∃ cfg c, e.settings = .ok cfg ∧ (e.receive frame now).2.store.copy? h = some c ∧
      (Advertisement.value c).encode cfg.accessAddress = .ok frame := by
  obtain ⟨c, hears⟩ := hears_of_resolved heard
  obtain ⟨r, held⟩ := he.get?_of_hears hears
  rw [receive_of_hears now hears, hearCopy_of_get? now held (length_le_of_hears hears)] at heard
  cases heard
  have after : (e.receive frame now).2.store.copy? c.handle = some c := by
    rw [Store.copy?_of_get? (get?_receive now hears held)]
    exact (Replica.copy?_hear_of_accepts now accepted).1
  obtain ⟨-, cfg, up, -, hd⟩ := hears
  exact ⟨cfg, c, up, after, (Advertisement.encode_of_decode hd).2⟩

/-- What no operation of a history changes is the same at its end. -/
theorem copy?_run_of_unchanged {history : List (Operation × Nat)}
    (unchanged : ∀ change ∈ e.along (change? h) history, change = none) :
    (e.run history).store.copy? h = e.store.copy? h := by
  induction history generalizing e with
  | nil => rfl
  | cons x rest ih =>
    obtain ⟨now, later⟩ := List.forall_mem_cons.1 unchanged
    have same : (e.perform x.1 x.2).2.store.copy? h = e.store.copy? h := by
      unfold change? at now
      split at now
      · assumption
      · cases now
    exact (ih later).trans same

/-- Every frame a node sends can be read. -/
theorem decode_of_opened {sig : Signal} {mesh : UInt32} {channel : UInt8} {sent : List UInt8} (he : e.Reachable)
    (opened : (e.signal sig now).1 = .openWindow mesh channel (some sent)) :
    ∃ adv, Advertisement.decode sent mesh = .ok adv := by
  obtain ⟨⟨cfg, up, rfl⟩, item, adv, lastActivity, chosen, hadv, written⟩ := frame_of_signal opened
  obtain ⟨-, adv', lastActivity', hadv', -, hframe⟩ := advertisement_of_next he up chosen
  cases hadv.symm.trans hadv'
  obtain ⟨frame, hw, hd⟩ := hframe cfg.accessAddress
  cases written.symm.trans hw
  exact ⟨adv, hd⟩

/-- **A copy is passed on byte for byte.**  Once a node has taken over the copy of a value that came in a frame, any
window may open before the copy it holds of the value changes again, whatever is done and heard until then: what is sent
in it can be read, and is the very same frame if it is about that value and no request.  Up to `Machine.latest` the
machine follows it all. -/
theorem relayed_frame_is_the_one_heard {verdict : Verdict} {evicted : Bool} {later : List (Operation × Nat)}
    {sig : Signal} {opening : Nat} {mesh : UInt32} {channel : UInt8} {sent : List UInt8} (he : e.Reachable)
    (heard : (e.receive frame now).1 = .resolved h verdict evicted) (accepted : verdict.accepts = true)
    (unchanged : ∀ change ∈ (e.receive frame now).2.along (change? h) later, change = none)
    (opened : (((e.receive frame now).2.run later).signal sig opening).1 = .openWindow mesh channel (some sent)) :
    (∃ adv, Advertisement.decode sent mesh = .ok adv ∧ (adv.kind = .value → adv.copy.handle = h → sent = frame)) ∧
    e.Followed ((.receive frame, now) :: (later ++ [(.signal sig, opening)])) := by
  obtain ⟨cfg, d, up, taken, written⟩ := copy?_of_accepted he heard accepted
  have reachable : ((e.receive frame now).2.run later).Reachable := (he.perform (.receive frame) now).run later
  have up' : ((e.receive frame now).2.run later).settings = .ok cfg :=
    settings_run (settings_perform up (.receive frame) now) later
  obtain ⟨adv, carries⟩ := decode_of_opened reachable opened
  refine ⟨⟨adv, carries, fun isValue about => ?_⟩, he.followed _⟩
  obtain ⟨kind, c⟩ := adv
  cases isValue
  -- What is sent is what is held, and that is still the copy taken over.
  have held := copy?_of_frame reachable.sound opened carries
  rw [show c.handle = h from about, copy?_run_of_unchanged unchanged, taken] at held
  cases held
  obtain ⟨⟨cfg', hcfg', rfl⟩, -⟩ := frame_of_signal opened
  cases up'.symm.trans hcfg'
  exact Except.ok.inj ((Advertisement.encode_of_decode carries).2.symm.trans written)

end

/-- A copy is taken over from its frame; then a rival of it is heard, another value is written, and a request is sent
in the next window.  The window after that sends the frame. -/
theorem relayed_frame_after_a_rival :
    let frame (version b : UInt8) : List UInt8 :=
      [0xD6, 0xBE, 0x89, 0x8E, 1, 11, 0x22, 0, 0, 0, 0, 0, 3, 0, version, 0, b]
    let e := fresh.run [(.start ⟨0x8E89BED6, 38, 10, 100⟩ ⟨0x11, 0, 0, 0, 0, 0⟩ true, 0), (.write 3 [7], 1),
      (.signal .tick, 2), (.signal .started, 3)]
    let later : List (Operation × Nat) := [(.receive (frame 2 9), 5), (.takeNotice, 6), (.signal .ended, 7),
      (.request 4, 8), (.signal .tick, 9), (.signal .started, 100000), (.signal .ended, 110000),
      (.write 5 [1], 120000), (.signal .tick, 120001)]
    (e.receive (frame 2 8) 4).1 = .resolved 3 .acceptUpdate false ∧
    ∃ sent, (((e.receive (frame 2 8) 4).2.run later).signal .started 120002).1 =
      .openWindow 0x8E89BED6 38 (some sent) ∧ sent = frame 2 8 := by
  intro frame e later
  have heard : (e.receive (frame 2 8) 4).1 = .resolved 3 .acceptUpdate false := by decide +kernel
  have unchanged : ∀ change ∈ (e.receive (frame 2 8) 4).2.along (change? 3) later, change = none := by decide +kernel
  have opened : (((e.receive (frame 2 8) 4).2.run later).signal .started 120002).1 =
      .openWindow 0x8E89BED6 38 (some (frame 2 8)) := by decide +kernel
  have carries : Advertisement.decode (frame 2 8) 0x8E89BED6 = .ok (.value ⟨3, 2, ⟨0x22, 0, 0, 0, 0, 0⟩, [8]⟩) :=
    Advertisement.decode_of_encode (by decide) (Advertisement.encode_eq_ok_iff.2 (by decide))
  obtain ⟨⟨adv, read, same⟩, -⟩ := relayed_frame_is_the_one_heard ⟨_, rfl⟩ heard rfl unchanged opened
  cases read.symm.trans carries
  exact ⟨heard, frame 2 8, opened, same rfl rfl⟩

end Engine
end ValueMesh
