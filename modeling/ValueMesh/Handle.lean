/-!
# Value handles

A handle names a value across the whole mesh.  Handle 0 is reserved; with `count` slots the usable handles are
`1, 2, …, count - 1`.
-/
namespace ValueMesh

abbrev Handle := UInt16

/-- Whether `h` names a value among `count` slots. -/
def Handle.within (h : Handle) (count : Nat) : Bool := h != 0 && decide (h.toNat < count)

theorem Handle.within_iff {h : Handle} {count : Nat} : h.within count = true ↔ h ≠ 0 ∧ h.toNat < count := by
  simp [Handle.within]

theorem Handle.within_iff_pos {h : Handle} {count : Nat} :
    h.within count = true ↔ 0 < h.toNat ∧ h.toNat < count := by
  rw [Handle.within_iff, Nat.pos_iff_ne_zero, Ne, Ne, ← UInt16.toNat_inj]; rfl

end ValueMesh
