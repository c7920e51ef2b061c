import Mathlib.Data.Nat.Digits.Defs
import ValueMesh.Machine.Numeral
import ValueMesh.Proofs.Room
/-!
# Which numerals are read

A text spells digits if it is made of them and of underscores, in any places, and the digits denote a number that may be
of any size.  Reading goes on with the number so far and gives up at the first digit that makes it too large.  That is
before the rest of the text was seen, but no rest makes the number smaller again (`le_numberFrom`).  So what is read are
just the texts that spell a digit at least and denote a number of four bytes (`numerals_are_read_exactly`), and the
number so far never leaves its word, however long the text.

What a text can be too long for is the word in which its digits are counted.  A number of four bytes has ten digits at
most, but any number of zeros may stand in front of them.  A text is `Overlong` if it begins with more such digits than
can be counted, and then the machine stops there, whatever follows; a count that wraps round instead is taken for none
when it comes to zero again (`zeros_beyond_the_count_are_not_read`).
-/
namespace ValueMesh
namespace Numeral

variable {radix room n count d m : Nat} {b : UInt8} {text : List UInt8} {ds : List Nat} {counts : Nat → Prop}

/-! ## Spelling -/

/-- A byte is a digit of the radix, of some value; letters are digits beyond nine, small or capital. -/
inductive Digit (radix : Nat) (b : UInt8) : Nat → Prop
  | decimal {d : Nat} (few : d < 10) (place : b.toNat = 0x30 + d) : Digit radix b d
  | small {d : Nat} (hex : radix = 16) (few : d < 6) (place : b.toNat = 0x61 + d) : Digit radix b (10 + d)
  | capital {d : Nat} (hex : radix = 16) (few : d < 6) (place : b.toNat = 0x41 + d) : Digit radix b (10 + d)

inductive Spells (radix : Nat) : List UInt8 → List Nat → Prop
  | nil : Spells radix [] []
  | underscore {text : List UInt8} {ds : List Nat} (rest : Spells radix text ds) : Spells radix (0x5F :: text) ds
  | digit {b : UInt8} {d : Nat} {text : List UInt8} {ds : List Nat} (first : Digit radix b d)
      (rest : Spells radix text ds) : Spells radix (b :: text) (d :: ds)

def Denotes (radix : Nat) (text : List UInt8) (n : Nat) : Prop :=
  ∃ ds, Spells radix text ds ∧ ds ≠ [] ∧ n = Nat.ofDigits radix ds.reverse

/-- A text that begins with the mark of a hexadecimal numeral, and goes on. -/
def Marked (text : List UInt8) : Prop :=
  2 < text.length ∧ (text.take 2 = [0x30, 0x78] ∨ text.take 2 = [0x30, 0x58])

instance (text : List UInt8) : Decidable (Marked text) := inferInstanceAs (Decidable (_ ∧ _))

/-- A text whose first `room` digits denote a number of four bytes, so that reading comes to the last of them. -/
def Overlong (room radix : Nat) (text : List UInt8) : Prop :=
  ∃ front ds, front <+: text ∧ Spells radix front ds ∧ ds.length = room ∧ Nat.ofDigits radix ds.reverse < 0x100000000

theorem digit?_eq_some_iff : digit? radix b = some d ↔ Digit radix b d := by
  unfold digit?
  simp only [UInt8.le_iff_toNat_le, UInt8.reduceToNat]
  constructor
  · intro found
    split at found
    · cases found
      exact .decimal (by omega) (by omega)
    · split at found
      · rename_i letter
        cases found
        rw [Nat.add_comm]
        exact .small letter.1 (by omega) (by omega)
      · split at found
        · rename_i letter
          cases found
          rw [Nat.add_comm]
          exact .capital letter.1 (by omega) (by omega)
        · cases found
  · intro digit
    cases digit with
    | decimal few place => rw [if_pos (by omega), place, Nat.add_sub_cancel_left]
    | small hex few place =>
      rw [if_neg (by omega), if_pos ⟨hex, by omega⟩, place, Nat.add_sub_cancel_left, Nat.add_comm]
    | capital hex few place =>
      rw [if_neg (by omega), if_neg (by omega), if_pos ⟨hex, by omega⟩, place, Nat.add_sub_cancel_left, Nat.add_comm]

theorem not_digit_underscore : ¬ Digit radix 0x5F d := by
  have h5F : (0x5F : UInt8).toNat = 0x5F := rfl
  intro digit
  cases digit <;> omega

theorem spells_underscore_iff : Spells radix (0x5F :: text) ds ↔ Spells radix text ds := by
  constructor
  · intro spells
    cases spells with
    | underscore rest => exact rest
    | digit first => exact absurd first not_digit_underscore
  · exact .underscore

theorem spells_cons_iff (written : b ≠ 0x5F) :
    Spells radix (b :: text) ds ↔ ∃ d ds', digit? radix b = some d ∧ ds = d :: ds' ∧ Spells radix text ds' := by
  constructor
  · intro spells
    cases spells with
    | underscore => exact absurd rfl written
    | digit first rest => exact ⟨_, _, digit?_eq_some_iff.2 first, rfl, rest⟩
  · rintro ⟨d, ds', first, rfl, rest⟩
    exact .digit (digit?_eq_some_iff.1 first) rest

/-- The first digits of a text are spelt by some front of it. -/
theorem Spells.exists_front (spells : Spells radix text ds) (k : Nat) :
    ∃ front, front <+: text ∧ Spells radix front (ds.take k) := by
  induction spells generalizing k with
  | nil => exact ⟨[], List.nil_prefix, by rw [List.take_nil]; exact .nil⟩
  | underscore rest ih =>
    obtain ⟨front, begins, spells⟩ := ih k
    exact ⟨0x5F :: front, List.cons_prefix_cons.2 ⟨rfl, begins⟩, .underscore spells⟩
  | digit first rest ih =>
    cases k with
    | zero => exact ⟨[], List.nil_prefix, .nil⟩
    | succ k =>
      obtain ⟨front, begins, spells⟩ := ih k
      exact ⟨_ :: front, List.cons_prefix_cons.2 ⟨rfl, begins⟩, .digit first spells⟩

/-- What is not an underscore in a text is a digit. -/
theorem Spells.length_eq (spells : Spells radix text ds) :
    ds.length = text.countP fun b => (digit? radix b).isSome := by
  induction spells with
  | nil => rfl
  | underscore rest ih =>
    have stray : digit? radix 0x5F = none := Option.eq_none_iff_forall_ne_some.2 fun d found =>
      not_digit_underscore (digit?_eq_some_iff.1 found)
    rw [List.countP_cons_of_neg (by rw [stray]; exact Bool.false_ne_true), ih]
  | digit first rest ih =>
    rw [List.countP_cons_of_pos (by rw [digit?_eq_some_iff.2 first]; rfl), List.length_cons, ih]

/-! ## The number so far -/

def numberFrom (radix : Nat) : Nat → List Nat → Nat := List.foldl fun n d => n * radix + d

theorem numberFrom_zero (radix : Nat) (ds : List Nat) : numberFrom radix 0 ds = Nat.ofDigits radix ds.reverse := by
  rw [Nat.ofDigits_eq_foldr, List.foldr_reverse, numberFrom]
  congr 1
  funext n d
  rw [Nat.cast_id, Nat.add_comm, Nat.mul_comm]

/-- **Digits that are read make a number no smaller.** -/
theorem le_numberFrom (positive : 0 < radix) (ds : List Nat) (n : Nat) : n ≤ numberFrom radix n ds := by
  induction ds generalizing n with
  | nil => exact Nat.le_refl n
  | cons d ds ih =>
    calc n ≤ n * radix := Nat.le_mul_of_pos_right n positive
      _ ≤ n * radix + d := Nat.le_add_right ..
      _ ≤ numberFrom radix n (d :: ds) := ih _

theorem numberFrom_take_le (positive : 0 < radix) (ds : List Nat) (k n : Nat) :
    numberFrom radix n (ds.take k) ≤ numberFrom radix n ds :=
  calc numberFrom radix n (ds.take k) ≤ numberFrom radix (numberFrom radix n (ds.take k)) (ds.drop k) :=
        le_numberFrom positive _ _
    _ = numberFrom radix n ds := by rw [numberFrom, ← List.foldl_append, List.take_append_drop]

/-- A number of four bytes has fewer digits than are too many to count. -/
theorem length_lt_of_not_overlong (positive : 0 < radix) (countable : ¬ Overlong room radix text)
    (spells : Spells radix text ds) (small : Nat.ofDigits radix ds.reverse < 0x100000000) : ds.length < room := by
  by_contra long
  obtain ⟨front, begins, spelt⟩ := spells.exists_front room
  refine countable ⟨front, ds.take room, begins, spelt, List.length_take_of_le (Nat.not_lt.1 long), ?_⟩
  rw [← numberFrom_zero] at small ⊢
  exact Nat.lt_of_le_of_lt (numberFrom_take_le positive ds room 0) small

theorem not_overlong_of_few_digits (few : (text.countP fun b => (digit? radix b).isSome) < room) :
    ¬ Overlong room radix text := by
  rintro ⟨front, ds, begins, spells, length, -⟩
  have fewer := begins.sublist.countP_le (p := fun b => (digit? radix b).isSome)
  rw [← spells.length_eq, length] at fewer
  omega

/-! ## Reading on -/

/-- The text read on from the number `n` after `count` digits ends with `m`, after as many digits as `counts` says. -/
def Ends (counts : Nat → Prop) (radix n count : Nat) (text : List UInt8) (m : Nat) : Prop :=
  ∃ ds, Spells radix text ds ∧ counts (count + ds.length) ∧ m = numberFrom radix n ds

theorem ends_nil_iff : Ends counts radix n count [] m ↔ counts count ∧ m = n := by
  constructor
  · rintro ⟨ds, spells, counted, denotes⟩
    cases spells
    exact ⟨counted, denotes⟩
  · rintro ⟨counted, rfl⟩
    exact ⟨[], .nil, counted, rfl⟩

theorem ends_underscore_iff : Ends counts radix n count (0x5F :: text) m ↔ Ends counts radix n count text m := by
  simp only [Ends, spells_underscore_iff]

theorem ends_digit_iff (written : b ≠ 0x5F) (first : digit? radix b = some d) :
    Ends counts radix n count (b :: text) m ↔ Ends counts radix (n * radix + d) (count + 1) text m := by
  simp only [Ends, spells_cons_iff written, first]
  constructor
  · rintro ⟨ds, ⟨d', ds', digit, rfl, spells⟩, counted, denotes⟩
    cases digit
    rw [List.length_cons, ← Nat.add_assoc, Nat.add_right_comm] at counted
    exact ⟨ds', spells, counted, denotes⟩
  · rintro ⟨ds, spells, counted, denotes⟩
    rw [Nat.add_right_comm] at counted
    exact ⟨d :: ds, ⟨d, ds, rfl, rfl, spells⟩, counted, denotes⟩

theorem not_ends_of_stray (written : b ≠ 0x5F) (stray : digit? radix b = none) :
    ¬ Ends counts radix n count (b :: text) m := by
  rintro ⟨ds, spells, -⟩
  obtain ⟨d, ds', digit, -⟩ := (spells_cons_iff written).1 spells
  rw [stray] at digit
  cases digit

theorem Ends.le (positive : 0 < radix) (ends : Ends counts radix n count text m) : n ≤ m := by
  obtain ⟨ds, -, -, rfl⟩ := ends
  exact le_numberFrom positive ds n

/-- Counting comes round to zero after all the values of the word. -/
theorem ofNat_eq_zero_iff (count : Nat) : Int32.ofNat count = 0 ↔ count % 0x100000000 = 0 := by
  rw [← Int32.toBitVec_inj, ← BitVec.toNat_inj]
  exact Iff.rfl

/-- **Reading on finds what the rest spells**, unless the count comes round to zero at its end. -/
theorem readDigits_eq_some_iff {m : UInt32} (positive : 0 < radix) (small : n < 0x100000000) (count : Nat) :
    readDigits radix n (Int32.ofNat count) text = some m ↔ Ends (· % 0x100000000 ≠ 0) radix n count text m.toNat := by
  induction text generalizing n count with
  | nil =>
    have word : (UInt32.ofNat n).toNat = n := by rw [UInt32.toNat_ofNat', Nat.mod_eq_of_lt small]
    rw [readDigits, ends_nil_iff, Option.ite_none_left_eq_some, ofNat_eq_zero_iff, Option.some.injEq,
      ← UInt32.toNat_inj, word, eq_comm (a := n)]
  | cons b text ih =>
    rw [readDigits]
    by_cases under : b = 0x5F
    · subst under
      rw [if_pos rfl, ih small, ends_underscore_iff]
    rw [if_neg under]
    cases first : digit? radix b with
    | none => exact iff_of_false nofun (not_ends_of_stray under first)
    | some d =>
      simp only
      rw [ends_digit_iff under first]
      by_cases large : 0x100000000 ≤ n * radix + d
      · -- What is given up here denotes no number of four bytes, whatever follows.
        rw [if_pos large]
        exact iff_of_false nofun fun ends => Nat.not_lt.2 (Nat.le_trans large (ends.le positive)) m.toNat_lt
      · rw [if_neg large, show Int32.ofNat count + 1 = Int32.ofNat (count + 1) from (Int32.ofNat_add count 1).symm,
          ih (Nat.not_le.1 large)]

/-- Some front of the text ends with a number of four bytes, after as many digits as there is no room to count. -/
def Overruns (room radix n count : Nat) (text : List UInt8) : Prop :=
  ∃ front m, front <+: text ∧ m < 0x100000000 ∧ Ends (· = room) radix n count front m

theorem overruns_zero_iff : Overruns room radix 0 0 text ↔ Overlong room radix text := by
  simp only [Overruns, Overlong, Ends, numberFrom_zero, Nat.zero_add]
  constructor
  · rintro ⟨front, m, begins, small, ds, spells, length, rfl⟩
    exact ⟨front, ds, begins, spells, length, small⟩
  · rintro ⟨front, ds, begins, spells, length, small⟩
    exact ⟨front, _, begins, small, ds, spells, length, rfl⟩

theorem not_overruns_nil (short : count < room) : ¬ Overruns room radix n count [] := by
  rintro ⟨front, m, begins, -, ends⟩
  rw [List.prefix_nil.1 begins, ends_nil_iff] at ends
  exact Nat.ne_of_lt short ends.1

theorem overruns_cons_iff (short : count < room) : Overruns room radix n count (b :: text) ↔
    ∃ front m, front <+: text ∧ m < 0x100000000 ∧ Ends (· = room) radix n count (b :: front) m := by
  constructor
  · rintro ⟨front, m, begins, small, ends⟩
    rcases List.prefix_cons_iff.1 begins with rfl | ⟨front, rfl, goesOn⟩
    · exact absurd (ends_nil_iff.1 ends).1 (Nat.ne_of_lt short)
    · exact ⟨front, m, goesOn, small, ends⟩
  · rintro ⟨front, m, begins, small, ends⟩
    exact ⟨b :: front, m, List.cons_prefix_cons.2 ⟨rfl, begins⟩, small, ends⟩

theorem overruns_underscore_iff (short : count < room) :
    Overruns room radix n count (0x5F :: text) ↔ Overruns room radix n count text := by
  simp only [overruns_cons_iff short, ends_underscore_iff]
  rfl

theorem overruns_digit_iff (short : count < room) (written : b ≠ 0x5F) (first : digit? radix b = some d) :
    Overruns room radix n count (b :: text) ↔ Overruns room radix (n * radix + d) (count + 1) text := by
  simp only [overruns_cons_iff short, ends_digit_iff written first]
  rfl

theorem not_overruns_of_stray (short : count < room) (written : b ≠ 0x5F) (stray : digit? radix b = none) :
    ¬ Overruns room radix n count (b :: text) := by
  rw [overruns_cons_iff short]
  rintro ⟨front, m, -, -, ends⟩
  exact not_ends_of_stray written stray ends

theorem not_overruns_of_large (positive : 0 < radix) (large : 0x100000000 ≤ n) :
    ¬ Overruns room radix n count text := by
  rintro ⟨front, m, -, small, ends⟩
  exact Nat.not_lt.2 (Nat.le_trans large (ends.le positive)) small

theorem overruns_of_full (small : n < 0x100000000) : Overruns room radix n room text :=
  ⟨[], n, List.nil_prefix, small, ends_nil_iff.2 ⟨rfl, rfl⟩⟩

/-! ## The mark of the radix -/

theorem split_eq (text : List UInt8) : split text = if Marked text then (16, text.drop 2) else (10, text) := by
  unfold split
  split
  · rename_i z x rest
    have hmarked : Marked (z :: x :: rest) ↔ z = 0x30 ∧ (x = 0x78 ∨ x = 0x58) ∧ rest ≠ [] := by
      rw [Marked, List.length_cons, List.length_cons, ← List.length_pos_iff]
      simp only [List.take_succ_cons, List.take_zero, List.cons.injEq, and_true]
      constructor
      · rintro ⟨long, ⟨rfl, rfl⟩ | ⟨rfl, rfl⟩⟩
        · exact ⟨rfl, Or.inl rfl, by omega⟩
        · exact ⟨rfl, Or.inr rfl, by omega⟩
      · rintro ⟨rfl, rfl | rfl, long⟩
        · exact ⟨by omega, Or.inl ⟨rfl, rfl⟩⟩
        · exact ⟨by omega, Or.inr ⟨rfl, rfl⟩⟩
    simp only [hmarked]
    rfl
  · rename_i short
    rw [if_neg]
    rintro ⟨long, -⟩
    match text, long with
    | z :: x :: rest, _ => exact short z x rest rfl

end Numeral

/-! ## On the machine -/

namespace Machine

open Numeral (Marked Spells Denotes Ends Overruns Overlong)

variable {radix n count room : Nat} {text : List UInt8}

theorem digit?_eq (radix : Nat) (b : UInt8) : digit? radix b = .ok (Numeral.digit? radix b) := by
  have hroom : byteRoom 1 = 256 := rfl
  unfold digit? Numeral.digit?
  simp only [UInt8.le_iff_toNat_le, UInt8.reduceToNat]
  split
  · rw [sub_eq (by omega)]
    rfl
  split
  · rw [sub_eq (by omega), ok_bind, add_eq (by omega)]
    rfl
  split
  · rw [sub_eq (by omega), ok_bind, add_eq (by omega)]
    rfl
  · rfl

inductive Outcome (room radix n count : Nat) (text : List UInt8) : Checked (Option UInt32) → Prop
  | stops (overruns : Overruns room radix n count text) : Outcome room radix n count text (.error .overflow)
  | answers {answer : Option UInt32} (fits : ¬ Overruns room radix n count text)
      (exact : ∀ m : UInt32, answer = some m ↔ Ends (· ≠ 0) radix n count text m.toNat) :
      Outcome room radix n count text (.ok answer)

theorem Outcome.of_iff {n' count' : Nat} {text' : List UInt8} {x : Checked (Option UInt32)}
    (outcome : Outcome room radix n' count' text' x)
    (overruns : Overruns room radix n count text ↔ Overruns room radix n' count' text')
    (ends : ∀ m, Ends (· ≠ 0) radix n count text m ↔ Ends (· ≠ 0) radix n' count' text' m) :
    Outcome room radix n count text x := by
  cases outcome with
  | stops stopped => exact .stops (overruns.2 stopped)
  | answers fits exact => exact .answers (mt overruns.1 fits) fun m => (exact m).trans (ends m.toNat).symm

theorem Outcome.none (fits : ¬ Overruns room radix n count text)
    (nothing : ∀ m : UInt32, ¬ Ends (· ≠ 0) radix n count text m.toNat) : Outcome room radix n count text (.ok none) :=
  .answers fits fun m => iff_of_false nofun (nothing m)

/-- **The number so far stays in its word**, and what may not be counted are digits. -/
theorem outcome_readDigits (least : 10 ≤ radix) (most : radix ≤ 16) (small : n < 0x100000000) (short : count < room) :
    Outcome room radix n count text (readDigits room radix n count text) := by
  have hword : byteRoom 8 = 0x10000000000000000 := rfl
  have positive : 0 < radix := Nat.lt_of_lt_of_le (by decide) least
  induction text generalizing n count with
  | nil =>
    have fits : ¬ Overruns room radix n count [] := Numeral.not_overruns_nil short
    rw [readDigits]
    by_cases none : count = 0
    · rw [if_pos none]
      exact .none fits fun m ends => (Numeral.ends_nil_iff.1 ends).1 none
    · have word : (UInt32.ofNat n).toNat = n := by rw [UInt32.toNat_ofNat', Nat.mod_eq_of_lt small]
      rw [if_neg none, narrow_eq small, ok_bind]
      refine .answers fits fun m => ?_
      rw [Numeral.ends_nil_iff, and_iff_right none, Option.some.injEq, ← UInt32.toNat_inj, word, eq_comm]
  | cons b text ih =>
    rw [readDigits]
    by_cases under : b = 0x5F
    · subst under
      rw [if_pos rfl]
      exact (ih small short).of_iff (Numeral.overruns_underscore_iff short) fun m => Numeral.ends_underscore_iff
    rw [if_neg under, digit?_eq, ok_bind]
    cases first : Numeral.digit? radix b with
    | none =>
      exact .none (Numeral.not_overruns_of_stray short under first) fun m => Numeral.not_ends_of_stray under first
    | some d =>
      have hd : d < radix := Numeral.digit?_lt first least
      have scaled : n * radix ≤ 0xFFFFFFFF * 16 := Nat.mul_le_mul (by omega) most
      have overruns : Overruns room radix n count (b :: text) ↔ Overruns room radix (n * radix + d) (count + 1) text :=
        Numeral.overruns_digit_iff short under first
      simp only
      rw [mul_eq (by omega), ok_bind, add_eq (by omega), ok_bind]
      by_cases large : 0xFFFFFFFF < n * radix + d
      · rw [if_pos large]
        refine .none (overruns.not.2 (Numeral.not_overruns_of_large positive large)) fun m ends => ?_
        rw [Numeral.ends_digit_iff under first] at ends
        exact Nat.not_lt.2 (Nat.le_trans large (ends.le positive)) m.toNat_lt
      rw [if_neg large, oneMore]
      by_cases counted : count + 1 < room
      · rw [if_pos counted, ok_bind]
        exact (ih (Nat.lt_succ_of_le (Nat.not_lt.1 large)) counted).of_iff overruns
          fun m => Numeral.ends_digit_iff under first
      · have full : count + 1 = room := Nat.le_antisymm short (Nat.not_lt.1 counted)
        rw [if_neg counted]
        refine .stops (overruns.2 ?_)
        rw [full]
        exact Numeral.overruns_of_full (Nat.lt_succ_of_le (Nat.not_lt.1 large))

theorem splitNumeral_eq (text : List UInt8) : splitNumeral text = .ok (Numeral.split text) := by
  unfold splitNumeral
  match text with
  | [] | [_] => rfl
  | z :: x :: rest =>
    have hz : byteAt (z :: x :: rest) 0 = .ok z := rfl
    have hx : byteAt (z :: x :: rest) 1 = .ok x := rfl
    have hrest : slice (z :: x :: rest) 2 (z :: x :: rest).length = .ok rest := by
      rw [slice_eq (by simp), List.take_length]
      rfl
    have goesOn : 2 < (z :: x :: rest).length ↔ rest ≠ [] := by
      rw [← List.length_pos_iff, List.length_cons, List.length_cons]
      omega
    simp only [hz, hx, hrest, ok_bind, goesOn, Numeral.split]
    by_cases marked : z = 0x30 ∧ (x = 0x78 ∨ x = 0x58) ∧ rest ≠ []
    · obtain ⟨zero, mark, long⟩ := marked
      rw [if_pos long, if_neg (not_not_intro zero), if_pos mark, if_pos ⟨zero, mark, long⟩]
      rfl
    · rw [if_neg marked]
      split
      · rename_i long
        split
        · rfl
        rename_i zero
        rw [if_neg fun mark => marked ⟨Decidable.not_not.1 zero, mark, long⟩]
        rfl
      · rfl

theorem ends_zero_iff {m : Nat} : Ends (· ≠ 0) radix 0 0 text m ↔ Denotes radix text m := by
  simp only [Ends, Denotes, Numeral.numberFrom_zero, Nat.zero_add, ne_eq, List.length_eq_zero_iff]

/-- **Reading a numeral stops at nothing but too many digits**, and what it finds otherwise is what they denote. -/
theorem readNumeralWithin_spec {body : List UInt8} (parts : Numeral.split text = (radix, body)) (least : 10 ≤ radix)
    (most : radix ≤ 16) (positive : 0 < room) :
    (Overlong room radix body → readNumeralWithin room text = .error .overflow) ∧
    (¬ Overlong room radix body → ∃ answer, readNumeralWithin room text = .ok answer ∧
      ∀ n : UInt32, answer = some n ↔ Denotes radix body n.toNat) := by
  have reads : readNumeralWithin room text = readDigits room radix 0 0 body := by
    rw [readNumeralWithin, splitNumeral_eq, ok_bind, parts]
  rw [reads, ← Numeral.overruns_zero_iff]
  have outcome : Outcome room radix 0 0 body (readDigits room radix 0 0 body) :=
    outcome_readDigits least most (by decide) positive
  generalize readDigits room radix 0 0 body = x at outcome ⊢
  cases outcome with
  | stops overruns => exact ⟨fun _ => rfl, absurd overruns⟩
  | answers fits exact =>
    exact ⟨fun overruns => absurd overruns fits, fun _ => ⟨_, rfl, fun n => (exact n).trans ends_zero_iff⟩⟩

end Machine

namespace Numeral

section

variable {body : List UInt8}

theorem read_eq_some_iff (parts : split text = (radix, body)) (positive : 0 < radix) (n : UInt32) :
    read text = some n ↔
      ∃ ds, Spells radix body ds ∧ ds.length % 0x100000000 ≠ 0 ∧ n.toNat = Nat.ofDigits radix ds.reverse := by
  rw [read, parts, show (0 : Int32) = Int32.ofNat 0 from rfl, readDigits_eq_some_iff positive (by decide)]
  simp only [Ends, numberFrom_zero, Nat.zero_add]

theorem read_eq_some_iff_of_countable (parts : split text = (radix, body)) (positive : 0 < radix)
    (countable : ¬ Overlong 0x80000000 radix body) (n : UInt32) : read text = some n ↔ Denotes radix body n.toNat := by
  rw [read_eq_some_iff parts positive]
  refine exists_congr fun ds => and_congr_right fun spells => and_congr_left fun denotes => ?_
  have few : ds.length < 0x80000000 := length_lt_of_not_overlong positive countable spells (denotes ▸ n.toNat_lt)
  rw [Nat.mod_eq_of_lt (Nat.lt_trans few (by decide)), ne_eq, List.length_eq_zero_iff]

theorem read_eq_none_iff (reads : ∀ n : UInt32, read text = some n ↔ Denotes radix body n.toNat) :
    read text = none ↔ ∀ n, Denotes radix body n → 0x100000000 ≤ n := by
  constructor
  · intro none n denotes
    by_contra small
    have word : (UInt32.ofNat n).toNat = n := by rw [UInt32.toNat_ofNat', Nat.mod_eq_of_lt (by omega)]
    have found := (reads (UInt32.ofNat n)).2 (word.symm ▸ denotes)
    rw [none] at found
    cases found
  · intro large
    refine Option.eq_none_iff_forall_ne_some.2 fun n found => ?_
    exact Nat.not_lt.2 (large n.toNat ((reads n).1 found)) n.toNat_lt

end

/-- **Numerals are read exactly, if their digits can be counted.**  A text stands for the number that its digits denote,
if they are digits of its radix, there is one at least, only underscores stand among them and the number is one of four
bytes; the radix is sixteen behind a mark that something follows, and ten otherwise.  Any other text stands for no
number.  The digits can be counted unless the text begins with 2³¹ of them that denote a number of four bytes, so they
can if there are fewer digits, and just where they cannot the machine stops.  A machine that lets the count wrap round
takes the text for none if the number of its digits is a multiple of 2³².  The number so far never leaves its word of
eight bytes: with more room to count in, texts of any length are read exactly. -/
theorem numerals_are_read_exactly (text : List UInt8) :
    let radix := if Marked text then 16 else 10
    let body := if Marked text then text.drop 2 else text
    (¬ Overlong Machine.digitRoom radix body →
      Machine.readNumeral text = .ok (read text) ∧
      (∀ n : UInt32, read text = some n ↔ Denotes radix body n.toNat) ∧
      (read text = none ↔ ∀ n, Denotes radix body n → 0x100000000 ≤ n)) ∧
    ((body.countP fun b => (digit? radix b).isSome) < 0x80000000 → ¬ Overlong Machine.digitRoom radix body) ∧
    (Machine.readNumeral text = .error .overflow ↔ Overlong Machine.digitRoom radix body) ∧
    (∀ n : UInt32, read text = some n ↔
      ∃ ds, Spells radix body ds ∧ ds.length % 0x100000000 ≠ 0 ∧ n.toNat = Nat.ofDigits radix ds.reverse) ∧
    ∀ room, text.length < room → ∃ answer, Machine.readNumeralWithin room text = .ok answer ∧
      ∀ n : UInt32, answer = some n ↔ Denotes radix body n.toNat := by
  intro radix body
  have least : 10 ≤ radix := by
    show 10 ≤ if Marked text then 16 else 10
    split <;> decide
  have most : radix ≤ 16 := by
    show (if Marked text then 16 else 10) ≤ 16
    split <;> decide
  have positive : 0 < radix := Nat.lt_of_lt_of_le (by decide) least
  have shorter : body.length ≤ text.length := by
    show (if Marked text then text.drop 2 else text).length ≤ text.length
    split <;> simp
  have parts : split text = (radix, body) := by
    rw [split_eq]
    by_cases marked : Marked text
    · simp only [radix, body, if_pos marked]
    · simp only [radix, body, if_neg marked]
  obtain ⟨stops, answers⟩ := Machine.readNumeralWithin_spec parts least most (show 0 < Machine.digitRoom by decide)
  refine ⟨fun countable => ?_, not_overlong_of_few_digits, ⟨fun stopped => ?_, stops⟩,
    read_eq_some_iff parts positive, fun room fits => ?_⟩
  · have reads := read_eq_some_iff_of_countable parts positive countable
    obtain ⟨answer, read, exact⟩ := answers countable
    have same : answer = Numeral.read text := Option.ext fun n => (exact n).trans (reads n).symm
    exact ⟨same ▸ read, reads, read_eq_none_iff reads⟩
  · by_contra countable
    obtain ⟨answer, read, -⟩ := answers countable
    cases stopped.symm.trans read
  · have length : body.countP (fun b => (digit? radix b).isSome) < room :=
      Nat.lt_of_le_of_lt (Nat.le_trans List.countP_le_length shorter) fits
    have roomy := Machine.readNumeralWithin_spec parts least most (Nat.zero_lt_of_lt fits)
    exact roomy.2 (not_overlong_of_few_digits length)

/-- `0X00_FFFF_ffff` is the largest number that is read. -/
theorem largest_number_is_read_exactly :
    let text : List UInt8 :=
      [0x30, 0x58, 0x30, 0x30, 0x5F, 0x46, 0x46, 0x46, 0x46, 0x5F, 0x66, 0x66, 0x66, 0x66]
    Marked text ∧ (text.drop 2).countP (fun b => (digit? 16 b).isSome) = 10 ∧
    ¬ Overlong Machine.digitRoom 16 (text.drop 2) ∧ Denotes 16 (text.drop 2) 0xFFFFFFFF ∧
    Machine.readNumeral text = .ok (some 0xFFFFFFFF) ∧ text.length < 15 ∧
    Machine.readNumeralWithin 15 text = .ok (some 0xFFFFFFFF) := by
  intro text
  have marked : Marked text := by decide
  have ten : (text.drop 2).countP (fun b => (digit? 16 b).isSome) = 10 := by decide
  have found : read text = some 0xFFFFFFFF := by decide +kernel
  obtain ⟨exact, few, -, -, within⟩ := numerals_are_read_exactly text
  simp only [if_pos marked] at exact few within
  have countable := few (ten ▸ by decide)
  obtain ⟨machine, reads, -⟩ := exact countable
  have denotes := (reads 0xFFFFFFFF).1 found
  obtain ⟨answer, read, same⟩ := within 15 (by decide)
  exact ⟨marked, ten, countable, denotes, found ▸ machine, by decide, ((same 0xFFFFFFFF).2 denotes) ▸ read⟩

/-! ## Zeros -/

theorem spells_zeros (k : Nat) : Spells 10 (List.replicate k 0x30) (List.replicate k 0) := by
  induction k with
  | zero => exact .nil
  | succ k ih => exact .digit (.decimal (by decide) rfl) ih

theorem ofDigits_zeros (k : Nat) : Nat.ofDigits 10 (List.replicate k 0).reverse = 0 := by
  rw [List.reverse_replicate]
  induction k with
  | zero => rfl
  | succ k ih => rw [List.replicate_succ, Nat.ofDigits_cons, ih]

theorem denotes_zeros {k : Nat} (some : 0 < k) : Denotes 10 (List.replicate k 0x30) 0 := by
  refine ⟨List.replicate k 0, spells_zeros k, ?_, (ofDigits_zeros k).symm⟩
  rw [← List.length_pos_iff, List.length_replicate]
  exact some

theorem not_marked_zeros (k : Nat) : ¬ Marked (List.replicate k 0x30) := by
  rintro ⟨-, mark | mark⟩ <;> rw [List.take_replicate] at mark
  · have zero := List.eq_of_mem_replicate (mark ▸ List.mem_cons_of_mem _ List.mem_cons_self : (0x78 : UInt8) ∈ _)
    cases zero
  · have zero := List.eq_of_mem_replicate (mark ▸ List.mem_cons_of_mem _ List.mem_cons_self : (0x58 : UInt8) ∈ _)
    cases zero

/-- Zeros are counted, and make no number larger. -/
theorem readDigits_zeros (k count : Nat) : readDigits 10 0 (Int32.ofNat count) (List.replicate k 0x30) =
    if (count + k) % 0x100000000 = 0 then none else some 0 := by
  induction k generalizing count with
  | zero =>
    rw [List.replicate_zero, readDigits, Nat.add_zero]
    simp only [ofNat_eq_zero_iff]
    rfl
  | succ k ih =>
    rw [List.replicate_succ, readDigits, if_neg (by decide)]
    have zero : digit? 10 0x30 = some 0 := rfl
    simp only [zero]
    rw [if_neg (by decide), show Int32.ofNat count + 1 = Int32.ofNat (count + 1) from (Int32.ofNat_add count 1).symm,
      ih, Nat.add_assoc, Nat.add_comm 1]

/-- Zeros denote the number zero, however many they are.  But at the 2³¹st zero the machine stops, and if the count
wraps round, 2³² zeros are taken for no number. -/
theorem zeros_beyond_the_count_are_not_read :
    let zeros : Nat → List UInt8 := fun k => List.replicate k 0x30
    (¬ Marked (zeros 0x80000000) ∧ Denotes 10 (zeros 0x80000000) 0 ∧
      Machine.readNumeral (zeros 0x80000000) = .error .overflow) ∧
    ¬ Marked (zeros 0x100000000) ∧ Denotes 10 (zeros 0x100000000) 0 ∧ read (zeros 0x100000000) = none := by
  intro zeros
  have parts : ∀ k, split (zeros k) = (10, zeros k) := fun k => (split_eq _).trans (if_neg (not_marked_zeros k))
  refine ⟨⟨not_marked_zeros _, denotes_zeros (by decide), ?_⟩, not_marked_zeros _, denotes_zeros (by decide), ?_⟩
  · have overlong : Overlong Machine.digitRoom 10 (zeros 0x80000000) :=
      ⟨_, _, List.prefix_rfl, spells_zeros _, List.length_replicate, (ofDigits_zeros _).trans_lt (by decide)⟩
    exact (Machine.readNumeralWithin_spec (parts _) (by decide) (by decide) (by decide)).1 overlong
  · rw [read, parts, show (0 : Int32) = Int32.ofNat 0 from rfl, readDigits_zeros]
    rfl

end Numeral
end ValueMesh
