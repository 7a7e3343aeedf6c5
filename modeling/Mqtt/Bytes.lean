/-!
# Byte sequences

* `Bytes` is a sequence of bytes, first byte first.
* `Bytes.bigEndian size n` writes a number in a fixed number of bytes and `Bytes.value` reads it
  back: each is the inverse of the other (`value_bigEndian`, `bigEndian_value`).
-/

namespace Mqtt

/-- A sequence of bytes, first byte first. -/
abbrev Bytes := List UInt8

/-- A power of natural numbers is the one of the core library, whatever other powers are in scope.
    -/
instance (priority := high) powNat : Pow Nat Nat := instPowNat

namespace Bytes

/-- The `size` lowest base-256 digits of `n`, the most significant digit first. -/
def bigEndian : (size n : Nat) → Bytes
  | 0, _ => []
  | size + 1, n => UInt8.ofNat (n / 256 ^ size) :: bigEndian size n

/-- The number whose base-256 digits are the given bytes, the most significant digit first. -/
def value : Bytes → Nat
  | [] => 0
  | b :: bs => b.toNat * 256 ^ bs.length + value bs

/-! ### The two directions are inverse -/

/-- As many bytes are written as asked for. -/
@[simp] theorem length_bigEndian (size n : Nat) : (bigEndian size n).length = size := by
  induction size with
  | zero => rfl
  | succ size ih => simp [bigEndian, ih]

/-- A number read from some bytes is below the power of 256 for their count. -/
theorem value_lt (bs : Bytes) : value bs < 256 ^ bs.length := by
  induction bs with
  | nil => simp [value]
  | cons b bs ih =>
    have hb : b.toNat + 1 ≤ 256 := b.toNat_lt
    have hmul : (b.toNat + 1) * 256 ^ bs.length ≤ 256 * 256 ^ bs.length :=
      Nat.mul_le_mul_right _ hb
    simp only [value, List.length_cons, Nat.pow_succ]
    rw [Nat.add_mul] at hmul
    omega

/-- Reading what was written gives the number back, up to the digits that did not fit. -/
theorem value_bigEndian (size n : Nat) : value (bigEndian size n) = n % 256 ^ size := by
  induction size with
  | zero => simp [bigEndian, value, Nat.mod_one]
  | succ size ih =>
    have hsplit := Nat.mod_mul (x := n) (a := 256 ^ size) (b := 256)
    simp only [bigEndian, value, length_bigEndian, ih, UInt8.toNat_ofNat', Nat.reducePow]
    rw [Nat.pow_succ, hsplit, Nat.mul_comm (256 ^ size), Nat.add_comm]

/-- Digits above the written ones leave no mark. -/
theorem bigEndian_mul_add (size a n : Nat) :
    bigEndian size (a * 256 ^ size + n) = bigEndian size n := by
  induction size generalizing a with
  | zero => rfl
  | succ size ih =>
    have hpow : a * 256 ^ (size + 1) + n = a * 256 * 256 ^ size + n := by
      rw [Nat.pow_succ, Nat.mul_comm (256 ^ size), Nat.mul_assoc]
    have hpos : 0 < 256 ^ size := Nat.pow_pos (by decide)
    simp only [bigEndian, hpow, ih]
    rw [Nat.mul_comm (a * 256), Nat.mul_add_div hpos]
    congr 1
    apply UInt8.toNat_inj.mp
    simp only [UInt8.toNat_ofNat']
    omega

/-- Writing what was read, in as many bytes, gives the bytes back. -/
theorem bigEndian_value (bs : Bytes) : bigEndian bs.length (value bs) = bs := by
  induction bs with
  | nil => rfl
  | cons b bs ih =>
    have hpos : 0 < 256 ^ bs.length := Nat.pow_pos (by decide)
    simp only [List.length_cons, bigEndian, value, bigEndian_mul_add, ih]
    rw [Nat.mul_comm, Nat.mul_add_div hpos, Nat.div_eq_of_lt (value_lt bs)]
    simp

end Bytes

end Mqtt
