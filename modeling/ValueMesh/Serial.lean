/-!
# Serial order on versions

Versions count up and start over after 65535, so "newer" is read off the distance from one to the other: `a` is newer
than `b` when it lies at most half the circle ahead.  At exactly half the circle both directions are equally long and
the larger number wins, so of two different versions one is always newer (`newer_or_newer`, `not_newer_of_newer`).
-/
namespace ValueMesh

abbrev Version := UInt16

namespace Version

def newer (a b : Version) : Bool :=
  if a - b = 0x8000 then decide (b < a) else decide (a ≠ b ∧ a - b < 0x8000)

theorem toNat_sub (a b : Version) : (a - b).toNat = (65536 - b.toNat + a.toNat) % 65536 := UInt16.toNat_sub a b

theorem newer_iff {a b : Version} : newer a b = true ↔
    (a.toNat < b.toNat + 0x8000 ∧ b.toNat < a.toNat) ∨ a.toNat + 0x8000 < b.toNat ∨ a.toNat = b.toNat + 0x8000 := by
  have ha : a.toNat < 65536 := a.toNat_lt
  have hb : b.toNat < 65536 := b.toNat_lt
  have hs := toNat_sub a b
  have h8 : (0x8000 : UInt16).toNat = 0x8000 := rfl
  unfold newer
  split
  · rename_i h
    rw [← UInt16.toNat_inj, h8, hs] at h
    rw [decide_eq_true_iff, UInt16.lt_iff_toNat_lt]
    omega
  · rename_i h
    rw [← UInt16.toNat_inj, h8, hs] at h
    rw [decide_eq_true_iff, Ne, ← UInt16.toNat_inj, UInt16.lt_iff_toNat_lt, h8, hs]
    omega

theorem newer_irrefl (a : Version) : newer a a = false := by
  cases h : newer a a with
  | false => rfl
  | true => rw [newer_iff] at h; omega

theorem not_newer_of_newer {a b : Version} (h : newer a b = true) : newer b a = false := by
  cases h' : newer b a with
  | false => rfl
  | true => rw [newer_iff] at h h'; omega

theorem newer_or_newer {a b : Version} (h : a ≠ b) : newer a b = true ∨ newer b a = true := by
  rw [Ne, ← UInt16.toNat_inj] at h
  have ha : a.toNat < 65536 := a.toNat_lt
  have hb : b.toNat < 65536 := b.toNat_lt
  rw [newer_iff, newer_iff]; omega

end Version

end ValueMesh
