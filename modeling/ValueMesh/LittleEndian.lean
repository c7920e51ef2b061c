/-!
# Little-endian numbers

A number on the air is a fixed count of bytes, least significant first.  `ofLE_toLE` and `toLE_ofLE` say that writing
and reading undo each other: reading gives the number back as far as it fits the width, and the bytes that were read
are the only ones that write that number at their width.
-/
namespace ValueMesh

/-- The lowest `w` bytes of `n`. -/
def toLE : Nat → Nat → List UInt8
  | 0, _ => []
  | w + 1, n => UInt8.ofNat (n % 256) :: toLE w (n / 256)

/-- How many numbers `w` bytes can tell apart. -/
def byteRoom : Nat → Nat
  | 0 => 1
  | w + 1 => 256 * byteRoom w

def ofLE : List UInt8 → Nat
  | [] => 0
  | b :: bs => b.toNat + 256 * ofLE bs

@[simp] theorem length_toLE : ∀ (w n : Nat), (toLE w n).length = w
  | 0, _ => rfl
  | w + 1, n => by rw [toLE, List.length_cons, length_toLE w]

theorem ofLE_lt : ∀ bs : List UInt8, ofLE bs < byteRoom bs.length
  | [] => by decide
  | b :: bs => by
    have hb : b.toNat < 256 := b.toNat_lt
    have ih := ofLE_lt bs
    rw [ofLE, List.length_cons, byteRoom]
    omega

theorem ofLE_toLE : ∀ (w n : Nat), ofLE (toLE w n) = n % byteRoom w
  | 0, n => by rw [toLE, ofLE, byteRoom, Nat.mod_one]
  | w + 1, n => by
    have hb : (UInt8.ofNat (n % 256)).toNat = n % 256 := by
      rw [UInt8.toNat_ofNat', Nat.mod_eq_of_lt (Nat.mod_lt n (by decide))]
    rw [toLE, ofLE, ofLE_toLE w, hb, byteRoom, Nat.mod_mul]

theorem toLE_ofLE : ∀ bs : List UInt8, toLE bs.length (ofLE bs) = bs
  | [] => rfl
  | b :: bs => by
    have hb : b.toNat < 256 := b.toNat_lt
    rw [List.length_cons, ofLE, toLE]
    have h1 : (b.toNat + 256 * ofLE bs) % 256 = b.toNat := by omega
    have h2 : (b.toNat + 256 * ofLE bs) / 256 = ofLE bs := by omega
    rw [h1, h2, toLE_ofLE bs, UInt8.ofNat_toNat]

end ValueMesh
