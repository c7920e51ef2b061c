import ValueMesh.Proofs.Hearing
/-!
# The order in which copies are heard does not matter

Copies of one value whose versions lie in one serial window have a newest version, and if everyone who has that
version has the same bytes of it, a store that hears all the copies ends with just those bytes.  It hears them in any
order, any number of times and at any times (`copies_of_window_settle`).
-/
namespace ValueMesh

/-- What a copy keeps to if `V` is the newest version in the window from `b` on, and `D` its bytes. -/
structure Copy.Compatible (b V : Version) (D : List UInt8) (c : Copy) : Prop where
  inWindow : Version.InWindow b c.version
  notNewer : Version.newer c.version V = false
  bytes : c.version = V → c.data = D

namespace Copy

variable {b V : Version} {D : List UInt8} {c d : Copy}

theorem compatible_iff : c.Compatible b V D ↔
    Version.InWindow b c.version ∧ Version.newer c.version V = false ∧ (c.version = V → c.data = D) :=
  ⟨fun h => ⟨h.inWindow, h.notNewer, h.bytes⟩, fun h => ⟨h.1, h.2.1, h.2.2⟩⟩

instance (b V : Version) (D : List UInt8) (c : Copy) : Decidable (c.Compatible b V D) :=
  decidable_of_iff _ compatible_iff.symm

theorem Compatible.ahead_le (h : c.Compatible b V D) (hV : Version.InWindow b V) :
    Version.ahead b c.version ≤ Version.ahead b V := by
  refine Nat.not_lt.1 fun hlt => ?_
  have := (Version.newer_iff_ahead_lt h.inWindow hV).2 hlt
  rw [h.notNewer] at this
  cases this

theorem Compatible.newest (h : c.Compatible b V D) (hV : Version.InWindow b V)
    (hle : Version.ahead b V ≤ Version.ahead b c.version) : c.version = V ∧ c.data = D := by
  have hv : c.version = V := Version.ahead_inj (Nat.le_antisymm (h.ahead_le hV) hle)
  exact ⟨hv, h.bytes hv⟩

theorem Compatible.upon (hc : c.Compatible b V D) {held : Option Copy} (hh : ∀ d, held = some d → d.Compatible b V D) :
    (c.upon held).Compatible b V D := by
  rcases upon_eq_or c held with h | h
  · rw [h]; exact hc
  · exact hh _ h

theorem ahead_le_ahead_upon (hc : Version.InWindow b c.version) {held : Option Copy}
    (hh : ∀ d, held = some d → Version.InWindow b d.version) :
    Version.ahead b c.version ≤ Version.ahead b (c.upon held).version := by
  cases held with
  | none => exact Nat.le_refl _
  | some d =>
    rw [upon]
    split
    · exact Nat.le_refl _
    · rename_i hn
      rw [Version.newer_iff_ahead_lt hc (hh d rfl)] at hn
      exact Nat.not_lt.1 hn

theorem ahead_le_ahead_upon_some (hc : Version.InWindow b c.version) (hd : Version.InWindow b d.version) :
    Version.ahead b d.version ≤ Version.ahead b (c.upon (some d)).version := by
  rw [upon]
  split
  · rename_i hn
    exact Nat.le_of_lt ((Version.newer_iff_ahead_lt hc hd).1 hn)
  · exact Nat.le_refl _

end Copy

namespace Store

def listen (s : Store) : List (Copy × Nat) → Store
  | [] => s
  | (c, now) :: rest => (s.hear c now).2.listen rest

def verdicts (s : Store) : List (Copy × Nat) → List (Except Fault (Verdict × Option Notice))
  | [] => []
  | (c, now) :: rest => (s.hear c now).1 :: (s.hear c now).2.verdicts rest

variable {h : Handle} {b V : Version} {D : List UInt8}

theorem covers_hear (s : Store) (c : Copy) (now : Nat) (k : Handle) : (s.hear c now).2.covers k = s.covers k := by
  rw [covers, covers, handleCount_hear]

theorem verdicts_ok : ∀ {heard : List (Copy × Nat)} {s : Store}, s.covers h = true →
    (∀ p ∈ heard, p.1.handle = h ∧ p.1.data.length ≤ maxValueBytes) →
    ∀ v ∈ s.verdicts heard, ∃ answer, v = .ok answer
  | [], _, _, _, v, hv => by cases hv
  | (c, now) :: rest, s, hs, hall, v, hv => by
    obtain ⟨hc, hl⟩ := hall (c, now) List.mem_cons_self
    simp only at hc hl
    rcases List.mem_cons.1 hv with rfl | hv
    · obtain ⟨r, hr⟩ := covers_iff_exists_get?.1 (hc ▸ hs)
      rw [hear_of_get? now hr hl]
      exact ⟨_, rfl⟩
    · exact verdicts_ok ((covers_hear s c now h).trans hs) (fun p hp => hall p (List.mem_cons_of_mem _ hp)) v hv

/-- **Listening inside a window**: what is held stays compatible, and in the end it is at least as far ahead as
everything that was held or heard. -/
theorem listen_compatible : ∀ {heard : List (Copy × Nat)} {s : Store}, s.covers h = true →
    (∀ p ∈ heard, p.1.handle = h ∧ p.1.data.length ≤ maxValueBytes) →
    (∀ c, s.copy? h = some c ∨ c ∈ heard.map Prod.fst → c.Compatible b V D) →
    (∀ c, (s.listen heard).copy? h = some c → c.Compatible b V D) ∧
    ∀ c, s.copy? h = some c ∨ c ∈ heard.map Prod.fst → ∃ d, (s.listen heard).copy? h = some d ∧
      Version.ahead b c.version ≤ Version.ahead b d.version
  | [], s, _, _, hall => by
    refine ⟨fun c hc => hall c (Or.inl hc), fun c hc => ?_⟩
    rcases hc with hc | hc
    · exact ⟨c, hc, Nat.le_refl _⟩
    · cases hc
  | (c, now) :: rest, s, hs, hlen, hall => by
    obtain ⟨hch, hl⟩ := hlen (c, now) List.mem_cons_self
    simp only at hch hl
    have hcc : c.Compatible b V D := hall c (Or.inr List.mem_cons_self)
    have hheld : ∀ d, s.copy? h = some d → d.Compatible b V D := fun d hd => hall d (Or.inl hd)
    have hafter : (s.hear c now).2.copy? h = some (c.upon (s.copy? h)) := hch ▸ copy?_hear now (hch ▸ hs) hl
    have hrest : ∀ d, (s.hear c now).2.copy? h = some d ∨ d ∈ rest.map Prod.fst → d.Compatible b V D := by
      intro d hd
      rcases hd with hd | hd
      · rw [hafter, Option.some.injEq] at hd
        exact hd ▸ hcc.upon hheld
      · exact hall d (Or.inr (List.mem_cons_of_mem _ hd))
    obtain ⟨h1, h2⟩ := listen_compatible ((covers_hear s c now h).trans hs)
      (fun p hp => hlen p (List.mem_cons_of_mem _ hp)) hrest
    refine ⟨h1, fun d hd => ?_⟩
    obtain ⟨e, he, hle⟩ := h2 _ (Or.inl hafter)
    rcases hd with hd | hd
    · refine ⟨e, he, Nat.le_trans ?_ hle⟩
      rw [hd]
      exact Copy.ahead_le_ahead_upon_some hcc.inWindow (hheld d hd).inWindow
    · rcases List.mem_cons.1 hd with rfl | hd
      · exact ⟨e, he, Nat.le_trans (Copy.ahead_le_ahead_upon hcc.inWindow fun d hd => (hheld d hd).inWindow) hle⟩
      · exact h2 d (Or.inr hd)

theorem listen_newest {heard : List (Copy × Nat)} {s : Store} (hs : s.covers h = true)
    (hlen : ∀ p ∈ heard, p.1.handle = h ∧ p.1.data.length ≤ maxValueBytes)
    (hall : ∀ c, s.copy? h = some c ∨ c ∈ heard.map Prod.fst → c.Compatible b V D)
    (hV : ∃ c, (s.copy? h = some c ∨ c ∈ heard.map Prod.fst) ∧ c.version = V) :
    ∃ c, (s.listen heard).copy? h = some c ∧ c.version = V ∧ c.data = D := by
  obtain ⟨c, hc, hcV⟩ := hV
  obtain ⟨hcomp, hahead⟩ := listen_compatible hs hlen hall
  obtain ⟨d, hd, hle⟩ := hahead c hc
  have hwin : Version.InWindow b V := hcV ▸ (hall c hc).inWindow
  exact ⟨d, hd, (hcomp d hd).newest hwin (hcV ▸ hle)⟩

/-- **The order of hearing does not matter.**  Let the versions in `copies`, and the one held, lie in the window from
`b` on, let `V` be the newest of them and `D` the bytes of all copies of it.  Whoever hears just these copies, in
whatever order, however often and at whatever times, is refused none and ends with `D` under version `V`; so any two
ways of hearing them end alike. -/
theorem copies_of_window_settle {s : Store} {copies : List Copy} (valid : s.covers h = true)
    (about : ∀ c ∈ copies, c.handle = h ∧ c.data.length ≤ maxValueBytes)
    (window : ∀ c ∈ (s.copy? h).toList ++ copies, c.Compatible b V D)
    (newest : ∃ c ∈ (s.copy? h).toList ++ copies, c.version = V) :
    (∀ heard : List (Copy × Nat), (∀ c, c ∈ heard.map Prod.fst ↔ c ∈ copies) →
      (∀ v ∈ s.verdicts heard, ∃ answer, v = .ok answer) ∧
      ∃ c, (s.listen heard).copy? h = some c ∧ c.version = V ∧ c.data = D) ∧
    ∀ heard heard' : List (Copy × Nat), (∀ c, c ∈ heard.map Prod.fst ↔ c ∈ copies) →
      (∀ c, c ∈ heard'.map Prod.fst ↔ c ∈ copies) →
      ((s.listen heard).copy? h).map (fun c => (c.version, c.data)) =
        ((s.listen heard').copy? h).map fun c => (c.version, c.data) := by
  have hlen : ∀ heard : List (Copy × Nat), (∀ c, c ∈ heard.map Prod.fst ↔ c ∈ copies) →
      ∀ p ∈ heard, p.1.handle = h ∧ p.1.data.length ≤ maxValueBytes :=
    fun heard hm p hp => about p.1 ((hm p.1).1 (List.mem_map_of_mem hp))
  have hmem : ∀ heard : List (Copy × Nat), (∀ c, c ∈ heard.map Prod.fst ↔ c ∈ copies) →
      ∀ c, c ∈ (s.copy? h).toList ++ copies ↔ s.copy? h = some c ∨ c ∈ heard.map Prod.fst :=
    fun heard hm c => by rw [List.mem_append, Option.mem_toList, hm]
  have hend : ∀ heard : List (Copy × Nat), (∀ c, c ∈ heard.map Prod.fst ↔ c ∈ copies) →
      ∃ c, (s.listen heard).copy? h = some c ∧ c.version = V ∧ c.data = D := by
    intro heard hm
    obtain ⟨c, hc, hcV⟩ := newest
    exact listen_newest valid (hlen heard hm) (fun d hd => window d ((hmem heard hm d).2 hd))
      ⟨c, (hmem heard hm c).1 hc, hcV⟩
  refine ⟨fun heard hm => ⟨verdicts_ok valid (hlen heard hm), hend heard hm⟩, fun heard heard' hm hm' => ?_⟩
  obtain ⟨c, hc, hv, hd⟩ := hend heard hm
  obtain ⟨c', hc', hv', hd'⟩ := hend heard' hm'
  rw [hc, hc', Option.map_some, Option.map_some, hv, hv', hd, hd']

/-- Two writers' copies of version 1, one of version 65535 and one of version 0 settle on a node that holds version
65534: heard newest first, one of them twice. -/
theorem copies_across_the_wrap_settle :
    let a : Address := ⟨1, 0, 0, 0, 0, 0⟩
    let s := (fresh.configure 4).listen [(⟨2, 65534, a, [9]⟩, 0)]
    let copies : List Copy := [⟨2, 65535, a, [8]⟩, ⟨2, 0, a, []⟩, ⟨2, 1, a, [7]⟩, ⟨2, 1, Address.unset, [7]⟩]
    let heard : List (Copy × Nat) := [(⟨2, 1, a, [7]⟩, 5), (⟨2, 65535, a, [8]⟩, 3), (⟨2, 0, a, []⟩, 6),
      (⟨2, 65535, a, [8]⟩, 2), (⟨2, 1, Address.unset, [7]⟩, 1)]
    (∀ c ∈ (s.copy? 2).toList ++ copies, c.Compatible 65534 1 [7]) ∧
    (∀ v ∈ s.verdicts heard, ∃ answer, v = .ok answer) ∧
    ∃ c, (s.listen heard).copy? 2 = some c ∧ c.version = 1 ∧ c.data = [7] := by
  intro a s copies heard
  have about : ∀ c ∈ copies, c.handle = 2 ∧ c.data.length ≤ maxValueBytes := by decide
  have window : ∀ c ∈ (s.copy? 2).toList ++ copies, c.Compatible 65534 1 [7] := by decide
  have same : ∀ c, c ∈ heard.map Prod.fst ↔ c ∈ copies := fun c => by
    simp only [heard, copies, List.map_cons, List.map_nil, List.mem_cons, List.not_mem_nil]
    grind
  exact ⟨window, (copies_of_window_settle (by decide) about window (by decide)).1 heard same⟩

end Store
end ValueMesh
