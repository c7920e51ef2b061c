import ValueMesh.Serial
/-!
# Serial windows

The comparison of versions is not transitive on the whole circle: three versions a third of it apart are each newer
than the next.  Inside a window of 0x8000 consecutive versions it is the linear order of their distances from the
start of the window (`newer_iff_ahead_lt`), so there a newest version exists and does not depend on who looks for it.
-/
namespace ValueMesh
namespace Version

/-- How many steps up from `b` lead to `v`. -/
def ahead (b v : Version) : Nat := (v - b).toNat

def InWindow (b v : Version) : Prop := ahead b v ≤ 0x7FFF

instance (b v : Version) : Decidable (InWindow b v) := inferInstanceAs (Decidable (_ ≤ _))

theorem ahead_eq (b v : Version) : ahead b v = (65536 - b.toNat + v.toNat) % 65536 := toNat_sub v b

theorem ahead_inj {b u v : Version} (h : ahead b u = ahead b v) : u = v := by
  have hb : b.toNat < 65536 := b.toNat_lt
  have hu : u.toNat < 65536 := u.toNat_lt
  have hv : v.toNat < 65536 := v.toNat_lt
  rw [ahead_eq, ahead_eq] at h
  rw [← UInt16.toNat_inj]
  omega

/-- **Inside a window, newer is further ahead.** -/
theorem newer_iff_ahead_lt {b u v : Version} (hu : InWindow b u) (hv : InWindow b v) :
    newer u v = true ↔ ahead b v < ahead b u := by
  have hb : b.toNat < 65536 := b.toNat_lt
  have hu' : u.toNat < 65536 := u.toNat_lt
  have hv' : v.toNat < 65536 := v.toNat_lt
  unfold InWindow at hu hv
  rw [ahead_eq] at hu hv ⊢
  rw [ahead_eq b u, newer_iff]
  omega

theorem newer_add_one (v : Version) : newer (v + 1) v = true := by
  have hv : v.toNat < 65536 := v.toNat_lt
  rw [newer_iff, UInt16.toNat_add, show (1 : UInt16).toNat = 1 from rfl]
  omega

theorem ne_of_newer {u v : Version} (h : newer u v = true) : u ≠ v := by
  rintro rfl
  rw [newer_irrefl] at h
  cases h

end Version
end ValueMesh
