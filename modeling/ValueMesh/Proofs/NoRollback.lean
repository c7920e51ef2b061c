import ValueMesh.Proofs.Running
/-!
# A held copy is only ever replaced by a newer one

Once a node holds a copy of a value it holds one for good, and each operation leaves version, bytes and origin alone or
puts a newer version in their place (`copy_only_moves_forward`).  So bytes never change under a version, wherever on
the circle it lies.
-/
namespace ValueMesh
namespace Engine

section

variable [Jitter] {e : Engine} {h : Handle} {r r' : Replica} {op : Operation} {now : Nat}

theorem Turn.forward (ht : Turn e h r now op r') (ha : r.allocated = true) :
    r'.allocated = true ∧ (r'.toCopy h = r.toCopy h ∨ Version.newer r'.version r.version = true) := by
  cases ht with
  | keep => exact ⟨ha, Or.inl rfl⟩
  | write => exact ⟨rfl, Or.inr (Version.newer_add_one _)⟩
  | hear hears about =>
    rename_i frame c
    have hacc := Replica.accepts_judge r c
    cases hj : (r.judge c).accepts with
    | true =>
      rw [Replica.hear_of_accepts now hj]
      rw [hj, ha, Bool.not_true, Bool.false_or] at hacc
      exact ⟨rfl, Or.inr hacc.symm⟩
    | false =>
      obtain ⟨hal, hcopy⟩ := Replica.hear_of_not_accepts now hj h
      exact ⟨hal.trans ha, Or.inl hcopy⟩

/-- **No silent rollback and no silent rewrite.**  On every engine that comes about, once it is up, whatever is done
next: a handle of the mesh has a replica before and after, one that held a copy holds one afterwards, and its version,
bytes and origin are all as they were or its version is a newer one; in particular bytes and origin stay under a version
that stays.  The machine does the same up to `Machine.latest`. -/
theorem copy_only_moves_forward {cfg : Settings} (he : e.Reachable) (up : e.settings = .ok cfg)
    (valid : cfg.covers h = true) (op : Operation) (now : Nat) :
    (∃ r r', e.store.replicas.get? h = some r ∧ (e.perform op now).2.store.replicas.get? h = some r' ∧
      (r.allocated = true → r'.allocated = true ∧
        ((r'.version = r.version ∧ r'.data = r.data ∧ r'.origin = r.origin) ∨
          Version.newer r'.version r.version = true) ∧
        (r'.version = r.version → r'.data = r.data ∧ r'.origin = r.origin))) ∧
    e.Followed [(op, now)] := by
  obtain ⟨r, hr⟩ := Store.covers_iff_exists_get?.1 ((he.sound.covers up).trans valid)
  obtain ⟨r', hr', ht⟩ := (step_perform e op now).turn (isUp_of_settings up) hr
  refine ⟨⟨r, r', hr, hr', fun ha => ?_⟩, he.followed _⟩
  obtain ⟨ha', hcopy | hnewer⟩ := ht.forward ha
  · simp only [Replica.toCopy, Copy.mk.injEq] at hcopy
    obtain ⟨-, hv, ho, hd⟩ := hcopy
    exact ⟨ha', Or.inl ⟨hv, hd, ho⟩, fun _ => ⟨hd, ho⟩⟩
  · exact ⟨ha', Or.inr hnewer, fun hv => absurd hv (Version.ne_of_newer hnewer)⟩

end

/-- A copy of version 65535, heard in a window, and a local write on top of it: version 0 takes its place. -/
theorem write_after_the_last_version_moves_forward :
    let cfg : Settings := ⟨0x8E89BED6, 38, 10, 100⟩
    let history : List (Operation × Nat) := [(.start cfg ⟨0x11, 0, 0, 0, 0, 0⟩ true, 0), (.signal .tick, 1),
      (.signal .started, 2), (.receive [0xD6, 0xBE, 0x89, 0x8E, 1, 11, 0x22, 0, 0, 0, 0, 0, 3, 0, 0xFF, 0xFF, 7], 3)]
    let e := fresh.run history
    e.settings = .ok cfg ∧ (e.store.copy? 3).map (·.version) = some 65535 ∧
    ∃ r r', e.store.replicas.get? 3 = some r ∧ (e.perform (.write 3 [8]) 4).2.store.replicas.get? 3 = some r' ∧
      (r.allocated = true → r'.allocated = true ∧
        ((r'.version = r.version ∧ r'.data = r.data ∧ r'.origin = r.origin) ∨
          Version.newer r'.version r.version = true) ∧
        (r'.version = r.version → r'.data = r.data ∧ r'.origin = r.origin)) := by
  intro cfg history e
  have up : e.settings = .ok cfg := by decide +kernel
  have reachable : e.Reachable := ⟨history, rfl⟩
  have last : (e.store.copy? 3).map (·.version) = some 65535 := by decide +kernel
  exact ⟨up, last, (copy_only_moves_forward reachable up (by decide) (.write 3 [8]) 4).1⟩

end Engine
end ValueMesh
