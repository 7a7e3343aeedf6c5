import Mqtt.Wire.Emission
import Mqtt.Wire.Reader

/-!
# Integers of a fixed width

`Integer.emit` and `Integer.read` write and read an unsigned integer in a given number of bytes,
most significant byte first. What is written reads back (`read_append_of_emit`).
-/

namespace Mqtt.Integer

/-- The integer in `size` bytes, if it fits. -/
def emit (size : Nat) (n : Int) : Emission :=
  if 0 ≤ n ∧ n < (256 ^ size : Nat) then .done (Bytes.bigEndian size n.toNat)
  else .fail (.integerTooWide n size)

/-- Takes an integer of `size` bytes. -/
def read (size : Nat) : Reader Nat := do
  let bs ← Reader.bytes size
  return Bytes.value bs

/-! ### Reading and writing -/

/-- An integer is written when it fits, and then by its base-256 digits. -/
theorem emit_eq_done {size : Nat} {n : Int} {w : Bytes} :
    emit size n = .done w ↔
      0 ≤ n ∧ n < (256 ^ size : Nat) ∧ w = Bytes.bigEndian size n.toNat := by
  unfold emit
  split
  case isTrue h =>
    constructor
    · intro h'; cases h'; exact ⟨h.1, h.2, rfl⟩
    · rintro ⟨-, -, rfl⟩; rfl
  case isFalse h =>
    constructor
    · intro h'; cases h'
    · rintro ⟨h0, hlt, -⟩; exact absurd ⟨h0, hlt⟩ h

/-- A natural number that fits is written by its base-256 digits. -/
theorem emit_natCast {size n : Nat} (h : n < 256 ^ size) :
    emit size n = .done (Bytes.bigEndian size n) := by
  unfold emit
  rw [if_pos ⟨Int.natCast_nonneg n, Int.ofNat_lt.mpr h⟩]
  simp

/-- An integer is read off the front when there are enough bytes, whatever they are. -/
theorem read_eq_ok {size n : Nat} {s t : Bytes} :
    read size s = .ok (n, t) ↔
      ∃ bs : Bytes, bs.length = size ∧ s = bs ++ t ∧ n = Bytes.value bs := by
  change (Reader.bytes size s >>= fun p => Except.ok (Bytes.value p.1, p.2)) = _ ↔ _
  unfold Reader.bytes
  dsimp only
  split
  case isTrue h =>
    constructor
    · intro h'; cases h'
    · rintro ⟨bs, rfl, rfl, -⟩
      simp at h
  case isFalse h =>
    constructor
    · intro h'
      cases h'
      refine ⟨s.take size, ?_, (List.take_append_drop size s).symm, rfl⟩
      simp only [List.length_take] at h ⊢
      omega
    · rintro ⟨bs, rfl, rfl, rfl⟩
      simp [bind, Except.bind]

/-- An integer that was written reads back, whatever follows it. -/
theorem read_append_of_emit {size : Nat} {n : Int} {w : Bytes} (h : emit size n = .done w)
    (t : Bytes) : read size (w ++ t) = .ok (n.toNat, t) := by
  obtain ⟨h0, hlt, rfl⟩ := emit_eq_done.mp h
  rw [read_eq_ok]
  refine ⟨_, Bytes.length_bigEndian size _, rfl, ?_⟩
  rw [Bytes.value_bigEndian, Nat.mod_eq_of_lt (by omega)]

/-- An integer takes as many bytes as it is wide. -/
theorem consumes_read (size : Nat) : (read size).Consumes size :=
  (Reader.consumes_bytes size).bind fun _ => Reader.consumes_pure _

end Mqtt.Integer
