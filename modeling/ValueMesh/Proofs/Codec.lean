import ValueMesh.Frame
/-!
# A frame says what it was written to say

Reading a frame under the access address it was written for gives back the advertisement, for every handle but the
reserved one (`decode_of_encode`), and a frame that is read is the one that its advertisement is written to
(`encode_of_decode`).  So frames and advertisements match one to one (`frames_match_advertisements`).  A value of a
length that can be held is never refused (`exists_encode_value`).
-/
namespace ValueMesh

theorem ofLE_toLE_four (n : UInt32) : ofLE (toLE 4 n.toNat) = n.toNat := by
  have hn : n.toNat < byteRoom 4 := n.toNat_lt
  rw [ofLE_toLE, Nat.mod_eq_of_lt hn]

theorem ofNat_ofLE_toLE_two (n : UInt16) : UInt16.ofNat (ofLE (toLE 2 n.toNat)) = n := by
  have hn : n.toNat < byteRoom 2 := n.toNat_lt
  rw [ofLE_toLE, Nat.mod_eq_of_lt hn, UInt16.ofNat_toNat]

theorem toLE_two_ofNat_ofLE (b0 b1 : UInt8) : toLE 2 (UInt16.ofNat (ofLE [b0, b1])).toNat = [b0, b1] := by
  have hn : (UInt16.ofNat (ofLE [b0, b1])).toNat = ofLE [b0, b1] := UInt16.toNat_ofNat_of_lt (ofLE_lt [b0, b1])
  rw [hn]
  exact toLE_ofLE [b0, b1]

namespace Advertisement

theorem encode_eq_ok_iff {a : Advertisement} {mesh : UInt32} {frame : List UInt8} : a.encode mesh = .ok frame ↔
    a.copy.data.length ≤ maxValueBytes ∧ (a.kind = .request → a.copy.data = []) ∧
    frame = toLE 4 mesh.toNat ++ [a.kind.toByte, UInt8.ofNat (10 + a.copy.data.length)] ++ a.copy.origin.toList ++
      toLE 2 a.copy.handle.toNat ++ toLE 2 a.copy.version.toNat ++ a.copy.data := by
  unfold encode
  split
  · rename_i hl
    exact ⟨nofun, fun h => absurd h.1 (Nat.not_le.2 hl)⟩
  · rename_i hl
    split
    · rename_i hr
      exact ⟨nofun, fun h => absurd (h.2.1 hr.1) hr.2⟩
    · rename_i hr
      rw [Except.ok.injEq]
      constructor
      · intro h
        exact ⟨Nat.not_lt.1 hl, fun hk => Classical.byContradiction fun hd => hr ⟨hk, hd⟩, h.symm⟩
      · exact fun h => h.2.2.symm

/-- **Reading a frame gives back what was written.** -/
theorem decode_of_encode {a : Advertisement} {mesh : UInt32} {frame : List UInt8} (hh : a.copy.handle ≠ 0)
    (h : a.encode mesh = .ok frame) : decode frame mesh = .ok a := by
  obtain ⟨hl, hr, rfl⟩ := encode_eq_ok_iff.1 h
  obtain ⟨m0, m1, m2, m3, hm⟩ : ∃ m0 m1 m2 m3, toLE 4 mesh.toNat = [m0, m1, m2, m3] := ⟨_, _, _, _, rfl⟩
  obtain ⟨h0, h1, hn⟩ : ∃ h0 h1, toLE 2 a.copy.handle.toNat = [h0, h1] := ⟨_, _, rfl⟩
  obtain ⟨v0, v1, hv⟩ : ∃ v0 v1, toLE 2 a.copy.version.toNat = [v0, v1] := ⟨_, _, rfl⟩
  have hmesh : ofLE [m0, m1, m2, m3] = mesh.toNat := by rw [← hm, ofLE_toLE_four]
  have hhandle : UInt16.ofNat (ofLE [h0, h1]) = a.copy.handle := by rw [← hn, ofNat_ofLE_toLE_two]
  have hversion : UInt16.ofNat (ofLE [v0, v1]) = a.copy.version := by rw [← hv, ofNat_ofLE_toLE_two]
  have hlen : (UInt8.ofNat (10 + a.copy.data.length)).toNat = 10 + a.copy.data.length := by
    unfold maxValueBytes at hl
    rw [UInt8.toNat_ofNat', Nat.mod_eq_of_lt (by omega)]
  have hzero : ¬ (h0 = 0 ∧ h1 = 0) := by
    rintro ⟨rfl, rfl⟩
    exact hh (hhandle ▸ rfl)
  have hreq : ¬ (a.kind = .request ∧ a.copy.data ≠ []) := fun hc => hc.2 (hr hc.1)
  rw [hm, hn, hv]
  simp only [Address.toList, List.cons_append, List.nil_append, decode, hmesh, ne_eq, not_true_eq_false, if_false,
    FrameKind.ofByte?_eq_some_iff.2 rfl, hlen, Nat.not_lt.2 hl, hreq, hzero, hhandle, hversion]

theorem exists_encode_value {c : Copy} (mesh : UInt32) (h : c.data.length ≤ maxValueBytes) :
    ∃ frame, (value c).encode mesh = .ok frame :=
  ⟨_, encode_eq_ok_iff.2 ⟨h, nofun, rfl⟩⟩

theorem length_le_of_decode {frame : List UInt8} {mesh : UInt32} {a : Advertisement} (h : decode frame mesh = .ok a) :
    a.copy.data.length ≤ maxValueBytes := by
  unfold decode at h
  split at h
  · split at h
    · cases h
    split at h
    · cases h
    split at h
    · cases h
    split at h
    · cases h
    rename_i hl
    split at h
    · cases h
    split at h
    · cases h
    cases h
    exact Nat.not_lt.1 hl
  · cases h

/-- **A frame that is read is the one its advertisement is written to.** -/
theorem encode_of_decode {frame : List UInt8} {mesh : UInt32} {a : Advertisement} (h : decode frame mesh = .ok a) :
    a.copy.handle ≠ 0 ∧ a.encode mesh = .ok frame := by
  unfold decode at h
  split at h
  · rename_i m0 m1 m2 m3 k len a0 a1 a2 a3 a4 a5 h0 h1 v0 v1 data
    split at h
    · cases h
    rename_i hmesh
    split at h
    · cases h
    rename_i kind hkind
    split at h
    · cases h
    rename_i hlen
    split at h
    · cases h
    rename_i hfits
    split at h
    · cases h
    rename_i hreq
    split at h
    · cases h
    rename_i hzero
    cases h
    have hm : toLE 4 mesh.toNat = [m0, m1, m2, m3] := by
      rw [← Classical.not_not.1 hmesh]
      exact toLE_ofLE [m0, m1, m2, m3]
    have hl : UInt8.ofNat (10 + data.length) = len := by rw [← Classical.not_not.1 hlen, UInt8.ofNat_toNat]
    have hh := toLE_two_ofNat_ofLE h0 h1
    refine ⟨fun hnone => hzero ?_, encode_eq_ok_iff.2 ⟨Nat.not_lt.1 hfits, fun hk => ?_, ?_⟩⟩
    · -- The reserved handle is written as two zero bytes.
      simp only at hnone
      rw [hnone] at hh
      cases hh
      exact ⟨rfl, rfl⟩
    · exact Classical.byContradiction fun hd => hreq ⟨hk, hd⟩
    · simp only [hm, hl, hh, toLE_two_ofNat_ofLE, ← FrameKind.ofByte?_eq_some_iff.1 hkind, Address.toList,
        List.cons_append, List.nil_append]
  · cases h

/-- No frame is read that is longer than the longest there is. -/
theorem length_frame_le_of_decode {frame : List UInt8} {mesh : UInt32} {a : Advertisement}
    (h : decode frame mesh = .ok a) : frame.length ≤ maxFrameBytes :=
  (length_of_encode (encode_of_decode h).2).2

theorem decode_eq_ok_iff {frame : List UInt8} {mesh : UInt32} {a : Advertisement} :
    decode frame mesh = .ok a ↔ a.copy.handle ≠ 0 ∧ a.encode mesh = .ok frame :=
  ⟨encode_of_decode, fun h => decode_of_encode h.1 h.2⟩

theorem take_of_encode {a : Advertisement} {mesh : UInt32} {frame : List UInt8} (h : a.encode mesh = .ok frame) :
    frame.take 4 = toLE 4 mesh.toNat := by
  obtain ⟨-, -, rfl⟩ := encode_eq_ok_iff.1 h
  simp only [List.append_assoc]
  exact List.take_left' (length_toLE 4 mesh.toNat)

/-- **A frame belongs to one mesh.** -/
theorem mesh_eq_of_encode {a b : Advertisement} {mesh other : UInt32} {frame : List UInt8}
    (ha : a.encode mesh = .ok frame) (hb : b.encode other = .ok frame) : mesh = other := by
  have hbytes : toLE 4 mesh.toNat = toLE 4 other.toNat := (take_of_encode ha).symm.trans (take_of_encode hb)
  rw [← UInt32.toNat_inj, ← ofLE_toLE_four mesh, hbytes, ofLE_toLE_four]

/-- **Frames and advertisements match one to one.**  A frame is read as an advertisement just if its handle is not the
reserved one and it is written as that frame, whatever the frame's length and the access address; everything is
written but values that are too long and requests that carry one; what is written is read back; and a frame is read
under no access address but the one it was written for. -/
theorem frames_match_advertisements (frame : List UInt8) (mesh : UInt32) (a : Advertisement) :
    (decode frame mesh = .ok a ↔ a.copy.handle ≠ 0 ∧ a.encode mesh = .ok frame) ∧
    ((∃ written, a.encode mesh = .ok written) ↔
      a.copy.data.length ≤ 28 ∧ (a.kind = .request → a.copy.data = [])) ∧
    (a.copy.data.length ≤ 28 → (a.kind = .request → a.copy.data = []) → a.copy.handle ≠ 0 →
      ∃ written, a.encode mesh = .ok written ∧ decode written mesh = .ok a) ∧
    (a.encode mesh = .ok frame → ∀ other b, decode frame other = .ok b → other = mesh) := by
  have written : (∃ written, a.encode mesh = .ok written) ↔
      a.copy.data.length ≤ 28 ∧ (a.kind = .request → a.copy.data = []) := by
    constructor
    · rintro ⟨f, hf⟩
      obtain ⟨hl, hr, -⟩ := encode_eq_ok_iff.1 hf
      exact ⟨hl, hr⟩
    · rintro ⟨hl, hr⟩
      exact ⟨_, encode_eq_ok_iff.2 ⟨hl, hr, rfl⟩⟩
  refine ⟨decode_eq_ok_iff, written, fun hl hr hh => ?_, fun ha other b hb => ?_⟩
  · obtain ⟨f, hf⟩ := written.2 ⟨hl, hr⟩
    exact ⟨f, hf, decode_of_encode hh hf⟩
  · exact mesh_eq_of_encode (encode_of_decode hb).2 ha

/-- The longest value there is, at the last version: its frame is read back, and under no other access address. -/
theorem longest_frame_matches_its_advertisement :
    let a : Advertisement := .value ⟨0x0102, 0xFFFF, ⟨1, 2, 3, 4, 5, 6⟩, List.replicate 28 0x5A⟩
    let frame : List UInt8 :=
      [0xD6, 0xBE, 0x89, 0x8E, 1, 38, 1, 2, 3, 4, 5, 6, 2, 1, 0xFF, 0xFF] ++ List.replicate 28 0x5A
    a.encode 0x8E89BED6 = .ok frame ∧ decode frame 0x8E89BED6 = .ok a ∧
      ∀ other b, decode frame other = .ok b → other = 0x8E89BED6 := by
  intro a frame
  obtain ⟨read, -, -, other⟩ := frames_match_advertisements frame 0x8E89BED6 a
  have written : a.encode 0x8E89BED6 = .ok frame := encode_eq_ok_iff.2 (by decide)
  exact ⟨written, read.2 ⟨by decide, written⟩, other written⟩

end Advertisement
end ValueMesh
