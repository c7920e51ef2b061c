import ValueMesh.Handle
/-!
# Tables addressed by handle

One slot for each handle below the table's size; the slot of the reserved handle 0 exists and is never reached.
Everything is read through `get?`, which answers exactly for the usable handles (`isSome_get?`), and each operation
has one lemma that says what `get?` answers after it.
-/
namespace ValueMesh

structure HandleTable (α : Type) where
  slots : List α
  deriving DecidableEq, Repr

namespace HandleTable

variable {α : Type}

def empty : HandleTable α := ⟨[]⟩

/-- A table of `count` equal slots. -/
def fill (count : Nat) (a : α) : HandleTable α := ⟨List.replicate count a⟩

def size (t : HandleTable α) : Nat := t.slots.length

def get? (t : HandleTable α) (h : Handle) : Option α := if h = 0 then none else t.slots[h.toNat]?

/-- Replaces the slot of `h`; a handle the table does not have changes nothing. -/
def set (t : HandleTable α) (h : Handle) (a : α) : HandleTable α := ⟨t.slots.set h.toNat a⟩

def map (f : α → α) (t : HandleTable α) : HandleTable α := ⟨t.slots.map f⟩

/-- The usable handles, ascending. -/
def handles (t : HandleTable α) : List Handle := (List.range' 1 (t.size - 1)).map UInt16.ofNat

/-- The usable handles with their slots, ascending. -/
def entries (t : HandleTable α) : List (Handle × α) := t.handles.zip (t.slots.drop 1)

theorem isSome_get? (t : HandleTable α) (h : Handle) : (t.get? h).isSome = h.within t.size := by
  unfold get? size Handle.within
  split
  · simp [*]
  · by_cases hl : h.toNat < t.slots.length <;> simp [*]

theorem get?_eq_none_iff {t : HandleTable α} {h : Handle} : t.get? h = none ↔ h.within t.size = false := by
  rw [← isSome_get?]; cases t.get? h <;> simp

theorem within_of_get? {t : HandleTable α} {h : Handle} {a : α} (hg : t.get? h = some a) : h.within t.size = true := by
  rw [← isSome_get?, hg]; rfl

@[simp] theorem size_fill (count : Nat) (a : α) : (fill count a).size = count := List.length_replicate

@[simp] theorem size_set (t : HandleTable α) (h : Handle) (a : α) : (t.set h a).size = t.size := List.length_set

@[simp] theorem size_map (f : α → α) (t : HandleTable α) : (t.map f).size = t.size := List.length_map f

theorem get?_fill (count : Nat) (a : α) (h : Handle) :
    (fill count a).get? h = if h.within count then some a else none := by
  unfold get? fill Handle.within
  by_cases h0 : h = 0 <;> simp [h0, List.getElem?_replicate]

theorem get?_set (t : HandleTable α) (h k : Handle) (a : α) :
    (t.set h a).get? k = if k = h then (t.get? h).map (fun _ => a) else t.get? k := by
  unfold get? set
  by_cases hk : k = h
  · subst hk
    by_cases h0 : k = 0
    · simp [h0]
    · by_cases hl : k.toNat < t.slots.length <;> simp [h0, hl]
  · have hn : ¬ h.toNat = k.toNat := fun he => hk (UInt16.toNat_inj.1 he).symm
    simp [hk, hn]

theorem get?_map (f : α → α) (t : HandleTable α) (h : Handle) : (t.map f).get? h = (t.get? h).map f := by
  unfold get? map
  split <;> simp [List.getElem?_map]

/-! ## Going through a table -/

theorem length_handles (t : HandleTable α) : t.handles.length = t.size - 1 := by
  rw [handles, List.length_map, List.length_range']

theorem mem_handles_of_within {t : HandleTable α} {h : Handle} (hw : h.within t.size = true) : h ∈ t.handles := by
  obtain ⟨hpos, hlt⟩ := Handle.within_iff_pos.1 hw
  exact List.mem_map.2 ⟨h.toNat, List.mem_range'_1.2 ⟨hpos, by omega⟩, UInt16.ofNat_toNat⟩

theorem getElem?_entries (t : HandleTable α) (i : Nat) :
    t.entries[i]? = (t.slots[i + 1]?).map fun a => (UInt16.ofNat (i + 1), a) := by
  unfold entries handles size
  rw [List.zip_eq_zipWith, List.getElem?_zipWith, List.getElem?_map, List.getElem?_drop, Nat.add_comm 1 i]
  by_cases hl : i + 1 < t.slots.length
  · have hr : i < t.slots.length - 1 := by omega
    simp [hl, hr, Nat.add_comm 1 i]
  · simp [List.getElem?_eq_none (Nat.le_of_not_lt hl)]

theorem map_fst_entries (t : HandleTable α) : t.entries.map (·.1) = t.handles := by
  refine List.map_fst_zip ?_
  rw [length_handles, List.length_drop]
  exact Nat.le_refl _

/-- The entries are what `get?` answers. -/
theorem mem_entries_iff {t : HandleTable α} (ht : t.size ≤ 0x10000) {h : Handle} {a : α} :
    (h, a) ∈ t.entries ↔ t.get? h = some a := by
  unfold size at ht
  rw [List.mem_iff_getElem?]
  constructor
  · rintro ⟨i, hi⟩
    rw [getElem?_entries] at hi
    cases hs : t.slots[i + 1]? with
    | none => simp [hs] at hi
    | some b =>
      simp only [hs, Option.map_some, Option.some.injEq, Prod.mk.injEq] at hi
      obtain ⟨rfl, rfl⟩ := hi
      obtain ⟨hl, _⟩ := List.getElem?_eq_some_iff.1 hs
      have hn : (UInt16.ofNat (i + 1)).toNat = i + 1 := by
        rw [UInt16.toNat_ofNat', Nat.mod_eq_of_lt (by omega)]
      have h0 : UInt16.ofNat (i + 1) ≠ 0 := by
        rw [Ne, ← UInt16.toNat_inj, hn]; simp
      rw [get?, if_neg h0, hn, hs]
  · intro hg
    have hw := Handle.within_iff_pos.1 (within_of_get? hg)
    unfold get? at hg
    split at hg
    · simp at hg
    · refine ⟨h.toNat - 1, ?_⟩
      rw [getElem?_entries, Nat.sub_add_cancel hw.1, hg, UInt16.ofNat_toNat]
      rfl

end HandleTable
end ValueMesh
