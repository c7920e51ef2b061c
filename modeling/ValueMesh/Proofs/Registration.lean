import ValueMesh.Machine.Node
import ValueMesh.Proofs.Collecting
import ValueMesh.Proofs.Running
/-!
# Coming up is all or nothing

The host stack registers the attributes of the mesh before the engine starts, and nothing takes the registration back.
Yet a start that is refused has registered nothing: all that could stop the engine was asked for before
(`bringUp_of_obstacle`).  So the engine is up, the attributes are there and the host stack has registered them once, or
none of it (`Settled`).
-/
namespace ValueMesh

/-- Settings and address stay if a node is not brought up. -/
theorem Engine.identity_run_of_no_start [Jitter] {e : Engine} {history : List (Operation × Nat)}
    (other : ∀ x ∈ history, ∀ cfg a hostReady, x.1 ≠ .start cfg a hostReady) :
    (e.run history).settings = e.settings ∧ (e.run history).address = e.address := by
  induction history generalizing e with
  | nil => exact ⟨rfl, rfl⟩
  | cons x rest ih =>
    obtain ⟨settings, address⟩ := ih (e := (e.perform x.1 x.2).2) fun y hy => other y (List.mem_cons_of_mem _ hy)
    rcases (step_perform e x.1 x.2).identity with ⟨same, kept⟩ | ⟨cfg, a, hostReady, starts, -⟩
    · exact ⟨settings.trans same, address.trans kept⟩
    · exact absurd starts (other x List.mem_cons_self cfg a hostReady)

namespace Node

open Machine.Call (state_bind bind_of_ok bind_of_refused check_bind ask_bind ask_bind_of_refused)

variable [Jitter] {n n' : Node} {cfg : Settings} {f : Fault} {op : Operation}

/-! ## Starting -/

def obstacle? (n : Node) (cfg : Settings) : Option Fault :=
  if n.engine.isUp then some .invalidState
  else if ¬ cfg.InRange then some .invalidParam
  else if n.host.enabled = false ∨ n.host.capacity < cfg.handleCount then some .dependencyNotReady
  else none

def upUnder (n : Node) (cfg : Settings) : Node := { n with
  engine := (n.engine.perform (.start cfg n.host.address true) n.clock.now).2
  host := { n.host with registrations := n.host.registrations + 1 }
  attributes := some ⟨Device.Host.firstAttribute, Device.Host.stride, cfg.handleCount⟩ }

inductive Attempt (n : Node) (cfg : Settings) : Option Fault → Prop
  | again (up : n.engine.isUp = true) : Attempt n cfg (some .invalidState)
  | outOfRange (down : n.engine.isUp = false) (beyond : ¬ cfg.InRange) : Attempt n cfg (some .invalidParam)
  | hostOff (down : n.engine.isUp = false) (inRange : cfg.InRange) (off : n.host.enabled = false) :
      Attempt n cfg (some .dependencyNotReady)
  | noRoom (down : n.engine.isUp = false) (inRange : cfg.InRange) (on : n.host.enabled = true)
      (small : n.host.capacity < cfg.handleCount) : Attempt n cfg (some .dependencyNotReady)
  | clear (down : n.engine.isUp = false) (inRange : cfg.InRange) (on : n.host.enabled = true)
      (room : ¬ n.host.capacity < cfg.handleCount) : Attempt n cfg none

theorem attempt (n : Node) (cfg : Settings) : Attempt n cfg (n.obstacle? cfg) := by
  unfold obstacle?
  cases up : n.engine.isUp with
  | true => exact .again up
  | false =>
    rw [if_neg Bool.false_ne_true]
    by_cases inRange : cfg.InRange
    · rw [if_neg (not_not_intro inRange)]
      cases on : n.host.enabled with
      | false => exact .hostOff up inRange on
      | true =>
        by_cases small : n.host.capacity < cfg.handleCount
        · rw [if_pos (Or.inr small)]
          exact .noRoom up inRange on small
        · rw [if_neg (by simp [small])]
          exact .clear up inRange on small
    · rw [if_pos inRange]
      exact .outOfRange up inRange

theorem start_eq_obstacle (n : Node) (cfg : Settings) : n.start cfg =
    match n.obstacle? cfg with
    | some f => .error f
    | none => .ok (n.upUnder cfg) := by
  have met := n.attempt cfg
  generalize n.obstacle? cfg = obstacle at met
  unfold start
  cases met with
  | again up => simp only [up, if_true]; rfl
  | outOfRange down beyond =>
    have unchecked := Settings.check_eq_error_iff.2 ⟨beyond, rfl⟩
    simp only [down, unchecked]
    rfl
  | hostOff down inRange off =>
    have checked := Settings.check_eq_ok_iff.2 inRange
    simp only [down, checked, off]
    rfl
  | noRoom down inRange on small =>
    have checked := Settings.check_eq_ok_iff.2 inRange
    simp only [down, checked, on, Device.Host.register, if_pos small]
    rfl
  | clear down inRange on room =>
    have checked := Settings.check_eq_ok_iff.2 inRange
    simp only [down, checked, on, Device.Host.register, if_neg room, upUnder, Engine.perform,
      Engine.start_of_down down inRange]
    rfl

/-- **In place nothing is registered for a start that is refused.** -/
theorem bringUp_of_obstacle (obstacle : n.obstacle? cfg = some f) : Machine.bringUp cfg n = .ok (.error f, n) := by
  have met := n.attempt cfg
  rw [obstacle] at met
  cases met with
  | again up =>
    rw [Machine.bringUp, state_bind, up]
    rfl
  | outOfRange down beyond =>
    rw [Machine.bringUp, state_bind, down, if_neg Bool.false_ne_true,
      ask_bind_of_refused (Settings.check_eq_error_iff.2 ⟨beyond, rfl⟩)]
  | hostOff down inRange off =>
    rw [Machine.bringUp, state_bind, down, if_neg Bool.false_ne_true, ask_bind (Settings.check_eq_ok_iff.2 inRange),
      off]
    rfl
  | noRoom down inRange on small =>
    have refused : Machine.register cfg.handleCount n.host = .ok (.error .dependencyNotReady, n.host) := by
      rw [Machine.register, state_bind, on, if_pos rfl, if_pos small]
      rfl
    rw [Machine.bringUp, state_bind, down, if_neg Bool.false_ne_true, ask_bind (Settings.check_eq_ok_iff.2 inRange), on,
      if_pos rfl, bind_of_refused (Machine.onHost_eq refused)]

theorem bringUp_of_clear (clear : n.obstacle? cfg = none) (unregistered : n.host.registrations = 0) :
    Machine.bringUp cfg n = .ok (.ok (), n.upUnder cfg) := by
  have met := n.attempt cfg
  rw [clear] at met
  cases met with
  | clear down inRange on room =>
    have hword : byteRoom 4 = 4294967296 := rfl
    have registered : Machine.register cfg.handleCount n.host =
        .ok (.ok ⟨Device.Host.firstAttribute, Device.Host.stride, cfg.handleCount⟩,
          { n.host with registrations := n.host.registrations + 1 }) := by
      rw [Machine.register, state_bind, on, if_pos rfl, if_neg room, check_bind (Machine.add_eq (by omega))]
      rfl
    have started := Machine.start_of_down down inRange n.host.address
    rw [Machine.bringUp, state_bind, down, if_neg Bool.false_ne_true, ask_bind (Settings.check_eq_ok_iff.2 inRange), on,
      if_pos rfl, bind_of_ok (Machine.onHost_eq registered)]
    simp only [upUnder, Engine.perform, Engine.start_of_down down inRange]
    generalize { n.host with registrations := n.host.registrations + 1 } = host
    rw [bind_of_ok (Machine.onEngine_eq (n := { n with host }) started)]
    rfl

/-! ## What else happens to a node -/

structure SameHosting (n n' : Node) : Prop where
  attributes : n'.attributes = n.attributes
  registrations : n'.host.registrations = n.host.registrations
  hostAddress : n'.host.address = n.host.address
  settings : n'.engine.settings = n.engine.settings
  address : n'.engine.address = n.engine.address

theorem SameHosting.refl (n : Node) : n.SameHosting n := ⟨rfl, rfl, rfl, rfl, rfl⟩

theorem SameHosting.trans {n₁ n₂ n₃ : Node} (first : n₁.SameHosting n₂) (second : n₂.SameHosting n₃) :
    n₁.SameHosting n₃ :=
  ⟨second.attributes.trans first.attributes, second.registrations.trans first.registrations,
    second.hostAddress.trans first.hostAddress, second.settings.trans first.settings,
    second.address.trans first.address⟩

theorem sameHosting_of_run (history : List (Engine.Operation × Nat))
    (other : ∀ x ∈ history, ∀ cfg a hostReady, x.1 ≠ .start cfg a hostReady)
    (engine : n'.engine = n.engine.run history) (attributes : n'.attributes = n.attributes)
    (host : n'.host = n.host) : n.SameHosting n' := by
  obtain ⟨settings, address⟩ := Engine.identity_run_of_no_start (e := n.engine) other
  exact ⟨attributes, by rw [host], by rw [host], by rw [engine, settings], by rw [engine, address]⟩

theorem host_takeReceived (n : Node) : n.takeReceived.attributes = n.attributes ∧ n.takeReceived.host = n.host := by
  rw [takeReceived_eq]
  exact ⟨rfl, rfl⟩

theorem host_carryOut (n : Node) (task : RadioTask) :
    (n.carryOut task).attributes = n.attributes ∧ (n.carryOut task).host = n.host := by
  obtain ⟨_, _, _, _, carried⟩ := n.setsUp_carryOut task
  rw [carried]
  cases task with
  | none | openWindow | close => exact ⟨rfl, rfl⟩
  | listen => exact n.host_takeReceived
  | requestWindow length =>
    simp only [prepared]
    cases n.arbiter.request length <;> exact ⟨rfl, rfl⟩

theorem host_handleSignal (n : Node) (sig : Signal) :
    (n.handleSignal sig).attributes = n.attributes ∧ (n.handleSignal sig).host = n.host := by
  have ahead : (n.ahead sig).attributes = n.attributes ∧ (n.ahead sig).host = n.host := by
    unfold Node.ahead
    split
    · exact n.host_takeReceived
    · exact ⟨rfl, rfl⟩
  have carried := (n.signalled sig).host_carryOut (n.task sig)
  rw [handleSignal_eq]
  exact ⟨carried.1.trans ahead.1, carried.2.trans ahead.2⟩

theorem not_start_of_mem_handling {sig : Signal} {x : Engine.Operation × Nat} (hx : x ∈ n.handling sig)
    (cfg : Settings) (a : Address) (hostReady : Bool) : x.1 ≠ .start cfg a hostReady := by
  rcases List.mem_append.1 hx with hx | hx
  · split at hx
    · obtain ⟨frame, -, rfl⟩ := List.mem_map.1 hx
      nofun
    · cases hx
  · rcases List.mem_cons.1 hx with rfl | hx
    · nofun
    · rcases op_of_mem_upkeep hx with refused | ⟨-, frame, received⟩
      · rw [refused]
        nofun
      · rw [received]
        nofun

theorem sameHosting_handleSignal (n : Node) (sig : Signal) : n.SameHosting (n.handleSignal sig) := by
  obtain ⟨attributes, host⟩ := n.host_handleSignal sig
  exact sameHosting_of_run (n.handling sig) (fun _ hx => not_start_of_mem_handling hx) (engine_handleSignal n sig)
    attributes host

theorem sameHosting_handleSignals (k : Nat) (n : Node) : n.SameHosting (handleSignals k n) := by
  induction k generalizing n with
  | zero => exact .refl n
  | succ k ih =>
    unfold handleSignals
    split
    · exact .refl n
    · rename_i sig arbiter raised
      have taken : n.SameHosting { n with arbiter } := ⟨rfl, rfl, rfl, rfl, rfl⟩
      exact (taken.trans (sameHosting_handleSignal _ sig)).trans (ih _)

theorem not_start_of_mem_polling {x : Engine.Operation × Nat} (hx : x ∈ n.polling) (cfg : Settings) (a : Address)
    (hostReady : Bool) : x.1 ≠ .start cfg a hostReady := by
  induction n using poll.induct with
  | case1 n ht =>
    rw [polling_of_none ht] at hx
    rw [List.mem_singleton.1 hx]
    simp
  | case2 n notice n' ht _ _ _ ih =>
    rw [polling_of_some ht, List.mem_cons, List.mem_append] at hx
    rcases hx with rfl | hecho | hlater
    · simp
    · obtain ⟨target, -, rfl⟩ := List.mem_map.1 hecho
      simp
    · exact ih hlater

/-- One call of the engine that does not bring it up. -/
theorem sameHosting_of_perform (n : Node) (op : Engine.Operation) (now : Nat)
    (other : ∀ cfg a hostReady, op ≠ .start cfg a hostReady) :
    n.SameHosting { n with engine := (n.engine.perform op now).2 } :=
  sameHosting_of_run [(op, now)] (fun _ hx => List.mem_singleton.1 hx ▸ other) rfl rfl rfl

theorem sameHosting_write (n : Node) (h : Handle) (data : List UInt8) :
    n.SameHosting (n.settle ((n.write h data).map (·.2))).2 := by
  cases hw : n.write h data with
  | error f => exact .refl n
  | ok p =>
    obtain ⟨version, n'⟩ := p
    show n.SameHosting n'
    rw [write_of_ok hw]
    exact n.sameHosting_of_perform _ _ nofun

/-- Whatever happens at a node but that it is brought up, the host stack has registered what it had. -/
theorem sameHosting_perform (n : Node) (notStart : ∀ cfg, op ≠ .start cfg) (notImage : op ≠ .startImage) :
    n.SameHosting (n.perform op).2 := by
  cases op with
  | start cfg => exact absurd rfl (notStart cfg)
  | startImage => exact absurd rfl notImage
  | write h data =>
    have written := n.sameHosting_write h data
    simp only [perform]
    cases hw : n.write h data with
    | error f => exact .refl n
    | ok p =>
      rw [hw] at written
      exact written
  | read h =>
    simp only [perform]
    split <;> exact .refl n
  | request h =>
    have asked := n.sameHosting_of_perform (.request h) n.clock.now (by simp)
    simp only [perform, request]
    cases hr : n.engine.request h with
    | error f => exact .refl n
    | ok engine =>
      simp only [Engine.perform, hr] at asked
      exact asked
  | poll =>
    obtain ⟨listener, last⟩ := n.poll_eq
    simp only [perform, last]
    exact sameHosting_of_run n.polling (fun _ hx => not_start_of_mem_polling hx) rfl rfl rfl
  | takeNotice =>
    simp only [perform]
    split
    · exact .refl n
    · rename_i ht
      rw [takeNotice_of_some ht]
      exact n.sameHosting_of_perform _ _ (by simp)
  | hostReport event =>
    simp only [perform, hostReport]
    cases n.attributes with
    | none => exact .refl n
    | some table =>
      cases event with
      | connected | disconnected | other => exact .refl n
      | attributeWrite attr data =>
        simp only
        cases table.locate attr with
        | outside | unmapped => exact .refl n
        | value h => exact n.sameHosting_write h data
  | interrupt => exact sameHosting_handleSignals maxSignals n
  | raise | inject | spoil | pollFlags | clearSent | enableHost | limitHost | refuseWindows | enableArbiter | failTune
  | failTransmit | failListen | advanceClock | setClock => exact ⟨rfl, rfl, rfl, rfl, rfl⟩

/-! ## Whole histories -/

/-- Either a node is down and nothing is registered, or it is up and the attributes were registered once, for the
handles its settings name; then it has the address of its host stack. -/
def Settled (n : Node) : Prop :=
  match n.engine.settings with
  | .error _ => n.attributes = none ∧ n.host.registrations = 0 ∧ n.engine.address = Address.unset
  | .ok cfg => n.attributes = some ⟨Device.Host.firstAttribute, Device.Host.stride, cfg.handleCount⟩ ∧
    n.host.registrations = 1 ∧ n.engine.address = n.host.address

theorem Settled.of_same (settled : n.Settled) (same : n.SameHosting n') : n'.Settled := by
  unfold Settled at settled ⊢
  rw [same.settings, same.attributes, same.registrations, same.hostAddress, same.address]
  exact settled

theorem settled_create (address : Address) (now : Nat) (echo : Option Echo) : (create address now echo).Settled :=
  ⟨rfl, rfl, rfl⟩

theorem Settled.of_down (settled : n.Settled) (down : n.engine.isUp = false) :
    n.attributes = none ∧ n.host.registrations = 0 ∧ n.engine.address = Address.unset := by
  rw [Settled, Engine.settings_of_down down] at settled
  exact settled

theorem Settled.of_up (settled : n.Settled) (up : n.engine.settings = .ok cfg) :
    n.attributes = some ⟨Device.Host.firstAttribute, Device.Host.stride, cfg.handleCount⟩ ∧
    n.host.registrations = 1 ∧ n.engine.address = n.host.address := by
  rw [Settled, up] at settled
  exact settled

theorem perform_start (n : Node) (cfg : Settings) : n.perform (.start cfg) =
    match n.obstacle? cfg with
    | some f => (.refused f, n)
    | none => (.done, n.upUnder cfg) := by
  rw [perform, start_eq_obstacle]
  cases n.obstacle? cfg <;> rfl

theorem settings_upUnder (clear : n.obstacle? cfg = none) :
    (n.upUnder cfg).engine.settings = .ok cfg ∧ (n.upUnder cfg).engine.address = n.host.address := by
  have met := n.attempt cfg
  rw [clear] at met
  cases met with
  | clear down inRange on room =>
    have done : (n.engine.perform (.start cfg n.host.address true) n.clock.now).1 = .done := by
      simp only [Engine.perform, Engine.start_of_down down inRange]
    exact Engine.perform_start_of_done done

theorem Settled.start (settled : n.Settled) (cfg : Settings) : (n.perform (.start cfg)).2.Settled := by
  rw [perform_start]
  cases obstacle : n.obstacle? cfg with
  | some f => exact settled
  | none =>
    obtain ⟨up, address⟩ := settings_upUnder obstacle
    have met := n.attempt cfg
    rw [obstacle] at met
    cases met with
    | clear down inRange on room =>
      have unregistered := (settled.of_down down).2.1
      show Settled (n.upUnder cfg)
      rw [Settled, up]
      exact ⟨rfl, congrArg (· + 1) unregistered, address⟩

/-- An image for which nothing else was chosen has settings in range. -/
theorem perform_startImage (n : Node) : n.perform .startImage = n.perform (.start ⟨0x8E89BED6, 38, 32, 100⟩) := by
  have chosen : Parameters.image.settings = .ok ⟨0x8E89BED6, 38, 32, 100⟩ := rfl
  show n.settle (Parameters.image.settings >>= n.start) = _
  rw [chosen]
  rfl

/-- **Whatever happens at a node, it is up and registered once, or neither.** -/
theorem Settled.perform (settled : n.Settled) (op : Operation) : (n.perform op).2.Settled := by
  by_cases notStart : ∀ cfg, op ≠ .start cfg
  · by_cases image : op = .startImage
    · rw [image, perform_startImage]
      exact settled.start _
    · exact settled.of_same (n.sameHosting_perform notStart image)
  · obtain ⟨cfg, started⟩ := Classical.not_forall_not.1 notStart
    rw [started]
    exact settled.start cfg

theorem Settled.run (settled : n.Settled) (ops : List Operation) : (n.run ops).Settled := by
  induction ops generalizing n with
  | nil => exact settled
  | cons op rest ih => exact ih (settled.perform op)

/-- **Coming up is all or nothing.**  Whatever is done to a node, with its host stack on or off and with room for as
many handles as may be: it is up just when the attributes of the mesh are there, and just when the host stack has
registered them, which it has once then and never before; they are for the handles that the settings of the engine name,
and the address of the engine is that of the host stack.  A start is refused just for the obstacle it meets, and leaves
all as it is, also if every part is changed in place, one after the other; one that meets none brings the node up under
its settings.  A start from the image is one under the settings of the image. -/
theorem coming_up_is_all_or_nothing (address : Address) (now : Nat) (echo : Option Echo) (ops : List Operation) :
    let n := (create address now echo).run ops
    n.attributes.isSome = n.engine.isUp ∧
    n.host.registrations = (if n.engine.isUp then 1 else 0) ∧
    n.attributes.map (·.handleCount) = n.engine.settings.toOption.map (·.handleCount) ∧
    n.engine.address = (if n.engine.isUp then n.host.address else Address.unset) ∧
    (∀ cfg,
      match n.obstacle? cfg with
      | some f => n.perform (.start cfg) = (.refused f, n) ∧ Machine.bringUp cfg n = .ok (.error f, n)
      | none => ∃ n', n.perform (.start cfg) = (.done, n') ∧ Machine.bringUp cfg n = .ok (.ok (), n') ∧
        n'.engine.settings = .ok cfg) ∧
    n.perform .startImage = n.perform (.start ⟨0x8E89BED6, 38, 32, 100⟩) := by
  intro n
  have settled : n.Settled := (settled_create address now echo).run ops
  have starts : ∀ cfg, match n.obstacle? cfg with
      | some f => n.perform (.start cfg) = (.refused f, n) ∧ Machine.bringUp cfg n = .ok (.error f, n)
      | none => ∃ n', n.perform (.start cfg) = (.done, n') ∧ Machine.bringUp cfg n = .ok (.ok (), n') ∧
        n'.engine.settings = .ok cfg := by
    intro cfg
    rw [perform_start]
    cases obstacle : n.obstacle? cfg with
    | some f => exact ⟨rfl, bringUp_of_obstacle obstacle⟩
    | none =>
      have met := n.attempt cfg
      rw [obstacle] at met
      cases met with
      | clear down inRange on room =>
        exact ⟨_, rfl, bringUp_of_clear obstacle (settled.of_down down).2.1, (settings_upUnder obstacle).1⟩
  cases hup : n.engine.isUp with
  | false =>
    obtain ⟨attributes, registrations, unset⟩ := settled.of_down hup
    rw [attributes, Engine.settings_of_down hup]
    exact ⟨rfl, registrations, rfl, unset, starts, n.perform_startImage⟩
  | true =>
    obtain ⟨cfg, up⟩ := Engine.exists_settings_of_isUp hup
    obtain ⟨attributes, registrations, same⟩ := settled.of_up up
    rw [attributes, up]
    exact ⟨rfl, registrations, rfl, same, starts, n.perform_startImage⟩

end Node
end ValueMesh
