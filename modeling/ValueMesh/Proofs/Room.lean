import ValueMesh.Machine.Frame
/-!
# Where there is room

What fits its word, its table or its buffer does not stop the machine.  A frame always does: one that is written has
room in its buffer and for its length in a byte (`encode_eq`), and one that is read is never read behind its end,
whatever it is made of (`decode_eq`).
-/
namespace ValueMesh

theorem ofLE_two_eq_zero_iff {b0 b1 : UInt8} : ofLE [b0, b1] = 0 ↔ b0 = 0 ∧ b1 = 0 := by
  rw [← UInt8.toNat_inj, ← UInt8.toNat_inj]
  simp only [ofLE, UInt8.toNat_zero]
  omega

namespace Machine

theorem ok_bind {α β : Type} (a : α) (f : α → Checked β) : ((Except.ok a : Checked α) >>= f) = f a := rfl

/-! ## Words -/

section Words

variable {w a b n : Nat}

theorem add_eq (h : a + b < byteRoom w) : add w a b = .ok (a + b) := if_pos h

theorem sub_eq (h : b ≤ a) : sub a b = .ok (a - b) := if_pos h

theorem mul_eq (h : a * b < byteRoom w) : mul w a b = .ok (a * b) := if_pos h

theorem narrow_eq (h : n < byteRoom w) : narrow w n = .ok n := if_pos h

end Words

/-! ## Tables and buffers -/

theorem slot_eq {α : Type} {t : HandleTable α} {h : Handle} {a : α} (held : t.get? h = some a)
    (small : t.size ≤ Settings.maxHandles) : slot t h = .ok a := by
  have hlt := (Handle.within_iff.1 (HandleTable.within_of_get? held)).2
  rw [HandleTable.get?, if_neg (Handle.within_iff.1 (HandleTable.within_of_get? held)).1] at held
  rw [slot, held]
  exact if_pos (Nat.lt_of_lt_of_le hlt small)

theorem setSlot_eq {α : Type} {t : HandleTable α} {h : Handle} {a : α} (held : t.get? h = some a)
    (small : t.size ≤ Settings.maxHandles) (b : α) : setSlot t h b = .ok (t.set h b) := by
  rw [setSlot, slot_eq held small]
  rfl

theorem slice_eq {bytes : List UInt8} {first last : Nat} (h : first ≤ last ∧ last ≤ bytes.length) :
    slice bytes first last = .ok ((bytes.take last).drop first) := if_pos h

theorem append_eq {α : Type} {capacity : Nat} {buffer more : List α} (h : buffer.length + more.length ≤ capacity) :
    append capacity buffer more = .ok (buffer ++ more) := if_pos h

theorem foldlM_append {α : Type} {capacity : Nat} {pieces : List (List α)} {buffer : List α}
    (h : buffer.length + pieces.flatten.length ≤ capacity) :
    pieces.foldlM (append capacity) buffer = .ok (buffer ++ pieces.flatten) := by
  induction pieces generalizing buffer with
  | nil => rw [List.foldlM_nil, List.flatten_nil, List.append_nil]; rfl
  | cons piece rest ih =>
    rw [List.flatten_cons, List.length_append] at h
    rw [List.foldlM_cons, append_eq (by omega), ok_bind, ih (by rw [List.length_append]; omega), List.flatten_cons,
      List.append_assoc]

/-- What stops at no element of a list does not stop. -/
theorem mapM_eq {α β : Type} {f : α → Checked β} {g : α → β} {l : List α} (ok : ∀ a ∈ l, f a = .ok (g a)) :
    l.mapM f = .ok (l.map g) := by
  induction l with
  | nil => rfl
  | cons a as ih =>
    rw [List.mapM_cons, ok a List.mem_cons_self, ok_bind, ih fun b hb => ok b (List.mem_cons_of_mem a hb)]
    rfl

/-! ## Frames -/

/-- **A frame that is written fits its buffer, and its length the byte for it.** -/
theorem encode_eq (a : Advertisement) (mesh : UInt32) : encode a mesh = .ok (a.encode mesh) := by
  unfold encode Advertisement.encode
  split
  · rfl
  rename_i fits
  split
  · rfl
  have hdata : a.copy.data.length ≤ 28 := Nat.not_lt.1 fits
  have hbyte : byteRoom 1 = 256 := rfl
  have hword : byteRoom 4 = 4294967296 := rfl
  have hbuffer : maxFrameBytes = 44 := rfl
  have horigin : a.copy.origin.toList.length = 6 := rfl
  rw [sub_eq (by decide), ok_bind, add_eq (by omega), ok_bind, narrow_eq (by omega), ok_bind, foldlM_append, ok_bind]
  · simp only [List.flatten_cons, List.flatten_nil, List.nil_append, List.append_nil, List.append_assoc]
    rfl
  · simp only [List.flatten_cons, List.flatten_nil, List.length_append, List.length_cons, List.length_nil, length_toLE,
      horigin]
    omega

theorem exists_header {frame : List UInt8} (h : 16 ≤ frame.length) :
    ∃ m0 m1 m2 m3 k len a0 a1 a2 a3 a4 a5 h0 h1 v0 v1 data, frame =
      m0 :: m1 :: m2 :: m3 :: k :: len :: a0 :: a1 :: a2 :: a3 :: a4 :: a5 :: h0 :: h1 :: v0 :: v1 :: data := by
  have hlen : (frame.take 16).length = 16 := by
    rw [List.length_take]
    omega
  match hp : frame.take 16, hlen with
  | [m0, m1, m2, m3, k, len, a0, a1, a2, a3, a4, a5, h0, h1, v0, v1], _ =>
    refine ⟨m0, m1, m2, m3, k, len, a0, a1, a2, a3, a4, a5, h0, h1, v0, v1, frame.drop 16, ?_⟩
    rw [← frame.take_append_drop 16, hp]
    rfl

/-- **No frame is read behind its end.** -/
theorem decode_eq (frame : List UInt8) (mesh : UInt32) :
    decode frame mesh = .ok (Advertisement.decode frame mesh) := by
  by_cases short : frame.length < 16
  · rw [decode, if_pos short, Advertisement.decode]
    rintro m0 m1 m2 m3 k len a0 a1 a2 a3 a4 a5 h0 h1 v0 v1 data rfl
    simp only [List.length_cons] at short
    omega
  obtain ⟨m0, m1, m2, m3, k, len, a0, a1, a2, a3, a4, a5, h0, h1, v0, v1, data, hf⟩ :=
    exists_header (Nat.not_lt.1 short)
  have hsize : frame.length = 16 + data.length := by
    rw [hf]
    simp only [List.length_cons]
    omega
  rw [decode, if_neg short]
  -- Each field lies where it is read from, so that reading the frame comes down to what is made of its fields.
  have haddress : numberAt frame [0, 1, 2, 3] = .ok (ofLE [m0, m1, m2, m3]) := by rw [hf]; rfl
  have hkind : byteAt frame 4 = .ok k := by rw [hf]; rfl
  have hlength : byteAt frame 5 = .ok len := by rw [hf]; rfl
  have hfollows : sub frame.length 6 = .ok (10 + data.length) := by
    rw [sub_eq (by omega)]
    exact congrArg Except.ok (by omega)
  have hdata : slice frame 16 frame.length = .ok data := by
    rw [slice_eq (by omega), List.take_length, hf]
    rfl
  have horigin : slice frame 6 12 = .ok [a0, a1, a2, a3, a4, a5] := by
    rw [slice_eq (by omega), hf]
    rfl
  have hhandle : numberAt frame [12, 13] = .ok (ofLE [h0, h1]) := by rw [hf]; rfl
  have hversion : numberAt frame [14, 15] = .ok (ofLE [v0, v1]) := by rw [hf]; rfl
  simp only [haddress, hkind, hlength, hfollows, hdata, horigin, hhandle, hversion, ok_bind, addressOf,
    ofLE_two_eq_zero_iff]
  rw [hf, Advertisement.decode]
  split
  · rfl
  cases FrameKind.ofByte? k with
  | none => rfl
  | some kind =>
    simp only
    split
    · rfl
    split
    · rfl
    split
    · rfl
    split
    · rfl
    · rfl

end Machine
end ValueMesh
