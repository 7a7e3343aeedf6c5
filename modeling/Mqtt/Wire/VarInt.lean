import Mqtt.Wire.Emission
import Mqtt.Wire.Reader

/-!
# Variable byte integers

An integer up to `VarInt.max` in one to four bytes: seven bits to a byte, lowest bits first, and
the highest bit set on every byte but the last. The writer uses as few bytes as it can; the reader
takes padded forms too (`80 00` for 0), as long as they end within four bytes.
-/

namespace Mqtt.VarInt

/-- The largest integer that four bytes hold. -/
def max : Nat := 268435455

/-- The shortest form of a number. -/
def digits (n : Nat) : Bytes :=
  if n < 128 then [.ofNat n] else .ofNat (n % 128 + 128) :: digits (n / 128)

/-- The integer in its shortest form, if four bytes hold it. -/
def emit (n : Int) : Emission :=
  if 0 ≤ n ∧ n ≤ max then .done (digits n.toNat) else .fail (.varIntRange n)

/-- Takes an integer of at most `count` bytes. -/
def readDigits : (count : Nat) → Reader Nat
  | 0, _ => .error .varIntTooLong
  | _ + 1, [] => .error .insufficientData
  | count + 1, b :: s =>
    if b.toNat < 128 then .ok (b.toNat, s)
    else (readDigits count s).map fun (n, t) => (b.toNat % 128 + 128 * n, t)

/-- Takes a variable byte integer. -/
def read : Reader Nat := readDigits 4

/-! ### Reading and writing -/

/-- A number of seven bits is written in one byte. -/
theorem digits_of_lt {n : Nat} (h : n < 128) : digits n = [.ofNat n] := by
  rw [digits, if_pos h]

/-- A larger number starts with its lowest seven bits. -/
theorem digits_of_ge {n : Nat} (h : 128 ≤ n) :
    digits n = .ofNat (n % 128 + 128) :: digits (n / 128) := by
  rw [digits, if_neg (by omega)]

/-- The shortest form reads back within as many bytes as the number needs. -/
theorem readDigits_digits_append {count n : Nat} (h : n < 128 ^ count) (hcount : 0 < count)
    (t : Bytes) : readDigits count (digits n ++ t) = .ok (n, t) := by
  induction count generalizing n with
  | zero => omega
  | succ count ih =>
    by_cases hn : n < 128
    · rw [digits_of_lt hn]
      simp [readDigits, Nat.mod_eq_of_lt (show n < 256 by omega), hn]
    · rw [digits_of_ge (by omega)]
      have hlt : n / 128 < 128 ^ count := by
        rw [Nat.pow_succ] at h
        exact Nat.div_lt_of_lt_mul (by omega)
      have hpos : 0 < count := by
        cases count with
        | zero => simp at hlt; omega
        | succ count => omega
      have hb : (UInt8.ofNat (n % 128 + 128)).toNat = n % 128 + 128 := by
        simp only [UInt8.toNat_ofNat']
        omega
      simp only [List.cons_append, readDigits, hb, ih hlt hpos, Except.map]
      rw [if_neg (by omega)]
      simp only [Except.ok.injEq, Prod.mk.injEq, and_true]
      omega

/-- An integer that was written reads back, whatever follows it. -/
theorem read_append_of_emit {n : Int} {w : Bytes} (h : emit n = .done w) (t : Bytes) :
    read (w ++ t) = .ok (n.toNat, t) := by
  unfold emit at h
  split at h
  · rename_i hn
    cases h
    exact readDigits_digits_append (by simp [max] at hn; omega) (by decide) t
  · cases h

/-- The reader takes at least one byte. -/
theorem consumes_readDigits (count : Nat) : (readDigits count).Consumes 1 := by
  induction count with
  | zero => intro s n t h; cases h
  | succ count ih =>
    intro s n t h
    match s with
    | [] => cases h
    | b :: s =>
      rw [readDigits] at h
      split at h
      · cases h; simp
      · obtain ⟨r, hr, hvalue⟩ := Except.map_eq_ok_iff.mp h
        obtain ⟨rfl, rfl⟩ := Prod.mk.inj hvalue
        have := ih hr
        simp only [List.length_cons]
        omega

/-- A variable byte integer takes at least one byte. -/
theorem consumes_read : read.Consumes 1 := consumes_readDigits 4

example : emit 0 = .done [0x00] := by decide +kernel

example : emit 268435455 = .done [0xFF, 0xFF, 0xFF, 0x7F] := by decide +kernel

example : read [0x80, 0x00, 0x05] = .ok (0, [0x05]) := rfl

end Mqtt.VarInt
