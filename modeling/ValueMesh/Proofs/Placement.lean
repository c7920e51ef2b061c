import ValueMesh.Machine.Attributes
import ValueMesh.Proofs.Room
/-!
# Which attribute is whose

The attributes of the values lie a stride apart from each other, and each value below the handle count has the one that
many strides behind the first.  Going from attributes to values takes a quotient and going back takes a product, and
the two agree wherever the table of attributes lies, also where it runs out of numbers
(`attributes_and_values_match`).
-/
namespace ValueMesh
namespace Attributes

variable {t : Attributes} {attr : UInt16} {h : Handle}

/-- **The attribute of a value lies as many strides behind the first as the value has for a number.** -/
theorem attr?_eq_some_iff : t.attr? h = some attr ↔
    h.within t.handleCount.toNat = true ∧ attr.toNat = t.first.toNat + h.toNat * t.stride.toNat := by
  have hword : attr.toNat < 0x10000 := attr.toNat_lt
  unfold attr?
  simp only
  constructor
  · intro found
    split at found
    · rename_i usable
      cases found
      refine ⟨usable.1, ?_⟩
      rw [UInt16.toNat_ofNat', Nat.mod_eq_of_lt usable.2]
    · cases found
  · rintro ⟨within, place⟩
    rw [if_pos ⟨within, by omega⟩, ← place, UInt16.ofNat_toNat]

theorem locate_eq_outside_iff :
    t.locate attr = .outside ↔ attr.toNat < t.first.toNat ∨ t.first.toNat + t.span ≤ attr.toNat := by
  unfold locate
  split
  · rename_i out
    simp [out]
  · rename_i inside
    constructor
    · intro found
      simp only at found
      split at found <;> cases found
    · exact fun out => absurd out inside

theorem locate_of_inside (low : t.first.toNat ≤ attr.toNat) (high : attr.toNat < t.first.toNat + t.span) :
    t.locate attr =
      let offset := attr.toNat - t.first.toNat
      if offset % t.stride.toNat ≠ 0 ∨ offset / t.stride.toNat = 0 then .unmapped
      else .value (UInt16.ofNat (offset / t.stride.toNat)) := by
  rw [locate, if_neg (by omega)]

theorem locate_ne_outside_iff :
    t.locate attr ≠ .outside ↔ t.first.toNat ≤ attr.toNat ∧ attr.toNat < t.first.toNat + t.span := by
  rw [Ne, locate_eq_outside_iff]
  omega

/-- **An attribute is located at the value whose attribute it is.** -/
theorem locate_eq_value_iff (spread : 0 < t.stride.toNat) : t.locate attr = .value h ↔ t.attr? h = some attr := by
  have hword : attr.toNat < 0x10000 := attr.toNat_lt
  rw [attr?_eq_some_iff, Handle.within_iff_pos]
  constructor
  · intro found
    have inside := locate_ne_outside_iff.1 (by rw [found]; nofun)
    rw [locate_of_inside inside.1 inside.2] at found
    simp only at found
    split at found
    · cases found
    · rename_i mapped
      rw [not_or, Decidable.not_not] at mapped
      obtain ⟨even, positive⟩ := mapped
      cases found
      have small : (attr.toNat - t.first.toNat) / t.stride.toNat ≤ attr.toNat - t.first.toNat := Nat.div_le_self ..
      have few : (attr.toNat - t.first.toNat) / t.stride.toNat < t.handleCount.toNat := by
        apply Nat.div_lt_of_lt_mul
        show _ < t.span
        omega
      have whole := Nat.div_mul_cancel (Nat.dvd_of_mod_eq_zero even)
      rw [UInt16.toNat_ofNat', Nat.mod_eq_of_lt (by omega)]
      exact ⟨⟨Nat.pos_of_ne_zero positive, few⟩, by omega⟩
  · rintro ⟨⟨positive, few⟩, place⟩
    have room : h.toNat * t.stride.toNat < t.span := by
      rw [span, Nat.mul_comm]
      exact Nat.mul_lt_mul_of_pos_left few spread
    have offset : attr.toNat - t.first.toNat = h.toNat * t.stride.toNat := by omega
    rw [locate_of_inside (by omega) (by omega)]
    simp only [offset, Nat.mul_mod_left, Nat.mul_div_cancel _ spread, UInt16.ofNat_toNat]
    rw [if_neg (by omega)]

/-- **What is left is unmapped**: the attributes inside that are of no value in use. -/
theorem locate_eq_unmapped_iff (spread : 0 < t.stride.toNat) : t.locate attr = .unmapped ↔
    t.locate attr ≠ .outside ∧ ∀ h : Handle, h.within t.handleCount.toNat = true → t.attr? h ≠ some attr := by
  cases found : t.locate attr with
  | outside => simp
  | unmapped =>
    refine iff_of_true rfl ⟨nofun, fun h _ its => ?_⟩
    rw [← locate_eq_value_iff spread, found] at its
    cases its
  | value h =>
    have its := (locate_eq_value_iff spread).1 found
    exact iff_of_false nofun fun nobody => nobody.2 h (attr?_eq_some_iff.1 its).1 its

theorem span_of_stride_eq_zero (flat : t.stride = 0) : t.span = 0 := by
  rw [span, flat]
  exact Nat.zero_mul _

end Attributes

/-! ## On the machine -/

namespace Machine

variable {t : Attributes}

theorem quotient_eq {a b : Nat} (positive : 0 < b) : quotient a b = .ok (a / b) :=
  if_neg (Nat.pos_iff_ne_zero.1 positive)

theorem remainder_eq {a b : Nat} (positive : 0 < b) : remainder a b = .ok (a % b) :=
  if_neg (Nat.pos_iff_ne_zero.1 positive)

theorem span_lt (t : Attributes) : t.span < byteRoom 4 := by
  have hword : byteRoom 4 = 65536 * 65536 := rfl
  rw [hword]
  exact Nat.mul_lt_mul'' t.stride.toNat_lt t.handleCount.toNat_lt

/-- **Locating an attribute stops at nothing**, and divides by no stride of zero. -/
theorem locate_eq (t : Attributes) (attr : UInt16) : locate t attr = .ok (t.locate attr) := by
  have hword : attr.toNat < 0x10000 := attr.toNat_lt
  have hroom : byteRoom 2 = 0x10000 := rfl
  rw [locate, mul_eq (span_lt t), ok_bind]
  by_cases low : t.first.toNat ≤ attr.toNat
  · rw [sub_eq low]
    simp only [Except.toOption]
    by_cases out : t.stride.toNat * t.handleCount.toNat ≤ attr.toNat - t.first.toNat
    · rw [if_pos out, Attributes.locate_eq_outside_iff.2 (Or.inr (by rw [Attributes.span]; omega))]
      rfl
    · have spread : 0 < t.stride.toNat := by
        apply Nat.pos_of_ne_zero
        intro flat
        rw [flat, Nat.zero_mul] at out
        exact out (Nat.zero_le _)
      have small : (attr.toNat - t.first.toNat) / t.stride.toNat ≤ attr.toNat - t.first.toNat := Nat.div_le_self ..
      rw [if_neg out, Attributes.locate_of_inside low (by rw [Attributes.span]; omega), remainder_eq spread, ok_bind,
        quotient_eq spread, ok_bind, narrow_eq (by omega), ok_bind]
      simp only
      split
      · rename_i beside
        rw [if_pos (Or.inl beside)]
        rfl
      split
      · rename_i first
        rw [if_pos (Or.inr first)]
        rfl
      · rw [if_neg (by omega)]
        rfl
  · rw [Attributes.locate_eq_outside_iff.2 (Or.inl (Nat.not_le.1 low)), sub, if_neg low]
    rfl

theorem attr?_eq (t : Attributes) (h : Handle) : attr? t h = t.attr? h := by
  have hroom : byteRoom 2 = 0x10000 := rfl
  unfold attr? Attributes.attr?
  by_cases within : h.within t.handleCount.toNat = true
  · rw [if_pos within]
    by_cases far : h.toNat * t.stride.toNat < byteRoom 2
    · by_cases last : h.toNat * t.stride.toNat + t.first.toNat < byteRoom 2
      · rw [mul_eq far, if_pos ⟨within, by omega⟩, Nat.add_comm]
        show (add 2 _ _).toOption.bind _ = _
        rw [add_eq last]
        rfl
      · rw [mul_eq far, if_neg (by omega)]
        show (add 2 _ _).toOption.bind _ = _
        rw [add, if_neg last]
        rfl
    · rw [mul, if_neg far, if_neg (by omega)]
      rfl
  · rw [if_neg within, if_neg fun usable => within usable.1]

end Machine

namespace Attributes

/-- **Attributes and values match.**  Wherever the attributes of a mesh lie, however far apart and for however many
values: if they do lie apart, an attribute is located at a value just if it is the attribute of that value, which is
the one as many strides behind the first as the value has for a number; an attribute is outside just if it lies before
the first or behind the room for all values, where that room may reach beyond all numbers there are; and one that is
inside and of no value is unmapped.  Only values that are in use are located.  If the attributes do not lie apart, all
are outside.  On the machine neither way leaves a word or divides by zero. -/
theorem attributes_and_values_match (t : Attributes) :
    (0 < t.stride.toNat →
      (∀ attr h, t.locate attr = .value h ↔ t.attr? h = some attr) ∧
      (∀ attr, t.locate attr = .outside ↔
        attr.toNat < t.first.toNat ∨ t.first.toNat + t.stride.toNat * t.handleCount.toNat ≤ attr.toNat) ∧
      (∀ attr, t.locate attr = .unmapped ↔
        t.locate attr ≠ .outside ∧ ∀ h : Handle, h.within t.handleCount.toNat = true → t.attr? h ≠ some attr)) ∧
    (∀ attr h, t.attr? h = some attr ↔
      h.within t.handleCount.toNat = true ∧ attr.toNat = t.first.toNat + h.toNat * t.stride.toNat) ∧
    (∀ attr h, t.locate attr = .value h → 0 < h.toNat ∧ h.toNat < t.handleCount.toNat) ∧
    (t.stride = 0 → ∀ attr, t.locate attr = .outside) ∧
    (∀ attr, Machine.locate t attr = .ok (t.locate attr)) ∧ ∀ h, Machine.attr? t h = t.attr? h := by
  have outside : t.stride = 0 → ∀ attr, t.locate attr = .outside := by
    intro flat attr
    have := span_of_stride_eq_zero flat
    exact locate_eq_outside_iff.2 (by omega)
  refine ⟨fun spread => ⟨fun attr h => locate_eq_value_iff spread, fun attr => locate_eq_outside_iff,
    fun attr => locate_eq_unmapped_iff spread⟩, fun attr h => attr?_eq_some_iff, fun attr h found => ?_, outside,
    Machine.locate_eq t, Machine.attr?_eq t⟩
  have spread : 0 < t.stride.toNat := by
    apply Nat.pos_of_ne_zero
    intro flat
    rw [outside (UInt16.toNat_inj.1 flat)] at found
    cases found
  exact Handle.within_iff_pos.1 (attr?_eq_some_iff.1 ((locate_eq_value_iff spread).1 found)).1

/-- A table with room for far more values than there are attributes left: two of them have one, and the last attribute
there is lies between. -/
theorem attributes_and_values_match_where_numbers_run_out :
    let t : Attributes := ⟨0xFFF0, 7, 0xFFFF⟩
    0 < t.stride.toNat ∧ t.locate 0xFFFE = .value 2 ∧ t.attr? 2 = some 0xFFFE ∧ t.attr? 3 = none ∧
    t.locate 0xFFFF = .unmapped ∧ ∀ h : Handle, h.within t.handleCount.toNat = true → t.attr? h ≠ some 0xFFFF := by
  intro t
  have spread : 0 < t.stride.toNat := by decide
  have located : t.locate 0xFFFE = .value 2 := by decide
  have unmapped : t.locate 0xFFFF = .unmapped := by decide
  obtain ⟨inverse, -, between⟩ := (attributes_and_values_match t).1 spread
  exact ⟨spread, located, (inverse _ _).1 located, by decide, unmapped, ((between _).1 unmapped).2⟩

end Attributes
end ValueMesh
