import Mqtt.Bytes
import Mqtt.Except
import Mqtt.Text.Basic

/-!
# UTF-8

* `CodePoint.utf8` and `Text.utf8` write the UTF-8 form of a code point and of a text.
* `Utf8.decode` reads a text strictly: no overlong form, no surrogate, nothing above U+10FFFF.
* `Utf8.Fault` says where and why bytes are no UTF-8. Its extent is the longest beginning of a
  valid sequence that the bytes hold at that place.
-/

namespace Mqtt

/-! ### Writing -/

/-- The UTF-8 form of a code point: one to four bytes, six bits to each byte after the first. -/
def CodePoint.utf8 (c : CodePoint) : Bytes :=
  if c.val < 0x80 then
    [.ofNat c.val]
  else if c.val < 0x800 then
    [.ofNat (0xC0 + c.val / 64), .ofNat (0x80 + c.val % 64)]
  else if c.val < 0x10000 then
    [.ofNat (0xE0 + c.val / 4096), .ofNat (0x80 + c.val / 64 % 64), .ofNat (0x80 + c.val % 64)]
  else
    [.ofNat (0xF0 + c.val / 262144), .ofNat (0x80 + c.val / 4096 % 64),
      .ofNat (0x80 + c.val / 64 % 64), .ofNat (0x80 + c.val % 64)]

/-- The UTF-8 forms of the code points of a text, one after the other. -/
def Text.utf8 (t : Text) : Bytes := t.flatMap CodePoint.utf8

namespace Utf8

/-! ### Reading one code point -/

/-- Why bytes are no UTF-8. -/
inductive Reason where
  /-- The first byte starts no sequence. -/
  | startByte
  /-- A byte does not continue the sequence it stands in. -/
  | continuationByte
  /-- The bytes end inside a sequence. -/
  | endOfData
  deriving DecidableEq

/-- The place where bytes stop being UTF-8. -/
structure Fault where
  /-- How many bytes stand before the broken sequence. -/
  offset : Nat
  /-- The first byte of the broken sequence. -/
  lead : UInt8
  /-- How many bytes the broken sequence has up to where it breaks. -/
  extent : Nat
  reason : Reason
  deriving DecidableEq

/-- What the first byte of a sequence of several bytes announces: the highest bits of the code
    point, a tail byte between `low` and `high`, and `more` tail bytes after that one. -/
structure Lead where
  bits : Nat
  low : Nat
  high : Nat
  more : Nat
  le_low : 0x80 ≤ low
  high_le : high ≤ 0xBF
  fits : (64 * bits + (high - 0x7F)) * 64 ^ more ≤ 0x110000

/-- The announcement of a first byte. The ranges of the first tail byte leave out overlong forms
    (after `E0` and `F0`), surrogates (after `ED`) and what lies above U+10FFFF (after `F4`). -/
def Lead.ofByte? (b : UInt8) : Option Lead :=
  let n := b.toNat
  if n < 0xC2 then none
  else if _h : n < 0xE0 then some ⟨n - 0xC0, 0x80, 0xBF, 0, by decide, by decide, by omega⟩
  else if n = 0xE0 then some ⟨0x0, 0xA0, 0xBF, 1, by decide, by decide, by decide⟩
  else if n = 0xED then some ⟨0xD, 0x80, 0x9F, 1, by decide, by decide, by decide⟩
  else if _h : n < 0xF0 then some ⟨n - 0xE0, 0x80, 0xBF, 1, by decide, by decide, by omega⟩
  else if n = 0xF0 then some ⟨0x0, 0x90, 0xBF, 2, by decide, by decide, by decide⟩
  else if _h : n < 0xF4 then some ⟨n - 0xF0, 0x80, 0xBF, 2, by decide, by decide, by omega⟩
  else if n = 0xF4 then some ⟨0x4, 0x80, 0x8F, 2, by decide, by decide, by decide⟩
  else none

/-- Reads `count` tail bytes below the bits `v`, the first of them between `low` and `high`.
    A failure tells how many tail bytes were good. -/
def readTails : (count low high v : Nat) → Bytes → Except (Nat × Reason) (Nat × Bytes)
  | 0, _, _, v, s => .ok (v, s)
  | _ + 1, _, _, _, [] => .error (0, .endOfData)
  | count + 1, low, high, v, b :: s =>
    if low ≤ b.toNat ∧ b.toNat ≤ high then
      (readTails count 0x80 0xBF (64 * v + (b.toNat - 0x80)) s).mapError fun (k, r) => (k + 1, r)
    else
      .error (0, .continuationByte)

/-- The bits of a sequence stay below what its first byte and the range of its first tail byte
    allow. -/
theorem lt_of_readTails {count low high v w : Nat} {s rest : Bytes} (hlow : 0x80 ≤ low)
    (hhigh : high ≤ 0xBF) (h : readTails (count + 1) low high v s = .ok (w, rest)) :
    w < (64 * v + (high - 0x7F)) * 64 ^ count := by
  induction count generalizing low high v s with
  | zero =>
    cases s with
    | nil => simp [readTails] at h
    | cons b s =>
      simp only [readTails] at h
      split at h
      · rw [Except.mapError_eq_ok_iff, Except.ok.injEq, Prod.mk.injEq] at h
        omega
      · simp at h
  | succ count ih =>
    cases s with
    | nil => simp [readTails] at h
    | cons b s =>
      rw [readTails] at h
      split at h
      case isFalse => simp at h
      case isTrue =>
        have hlt := ih (Nat.le_refl _) (Nat.le_refl _) (Except.mapError_eq_ok_iff.mp h)
        have hle : 64 * (64 * v + (b.toNat - 0x80)) + (0xBF - 0x7F)
            ≤ (64 * v + (high - 0x7F)) * 64 := by omega
        calc w < (64 * (64 * v + (b.toNat - 0x80)) + (0xBF - 0x7F)) * 64 ^ count := hlt
          _ ≤ (64 * v + (high - 0x7F)) * 64 * 64 ^ count := Nat.mul_le_mul_right _ hle
          _ = (64 * v + (high - 0x7F)) * 64 ^ (count + 1) := by
              rw [Nat.pow_succ, Nat.mul_comm (64 ^ count), Nat.mul_assoc]

/-- Reading tail bytes adds no bytes. -/
theorem length_le_of_readTails {count low high v w : Nat} {s rest : Bytes}
    (h : readTails count low high v s = .ok (w, rest)) : rest.length ≤ s.length := by
  induction count generalizing low high v s with
  | zero => simp_all [readTails]
  | succ count ih =>
    cases s with
    | nil => simp [readTails] at h
    | cons b s =>
      rw [readTails] at h
      split at h
      case isFalse => simp at h
      case isTrue =>
        have := ih (Except.mapError_eq_ok_iff.mp h)
        simp only [List.length_cons]
        omega

/-- Reads the code point that starts with the byte `b`. A failure tells how many bytes the broken
    sequence has up to where it breaks. -/
def readCodePoint (b : UInt8) (s : Bytes) : Except (Nat × Reason) (CodePoint × Bytes) :=
  if h : b.toNat < 0x80 then
    .ok (⟨b.toNat, by omega⟩, s)
  else
    match Lead.ofByte? b with
    | none => .error (1, .startByte)
    | some lead =>
      match h : readTails (lead.more + 1) lead.low lead.high lead.bits s with
      | .error (k, r) => .error (k + 1, r)
      | .ok (v, rest) =>
        .ok (⟨v, Nat.lt_of_lt_of_le (lt_of_readTails lead.le_low lead.high_le h) lead.fits⟩, rest)

/-- Reading a code point adds no bytes. -/
theorem length_le_of_readCodePoint {b : UInt8} {s rest : Bytes} {c : CodePoint}
    (h : readCodePoint b s = .ok (c, rest)) : rest.length ≤ s.length := by
  unfold readCodePoint at h
  split at h
  · simp_all
  · split at h
    · simp at h
    · split at h
      · simp at h
      · rename_i hr
        simp only [Except.ok.injEq, Prod.mk.injEq] at h
        exact h.2 ▸ length_le_of_readTails hr

/-! ### Reading a text -/

/-- Reads the bytes to their end, as the part after `offset` bytes of a longer text. -/
def decodeFrom (offset : Nat) : Bytes → Except Fault Text
  | [] => .ok []
  | b :: s =>
    match h : readCodePoint b s with
    | .error (k, r) => .error ⟨offset, b, k, r⟩
    | .ok (c, rest) =>
      have : rest.length < s.length + 1 := Nat.lt_succ_of_le (length_le_of_readCodePoint h)
      (decodeFrom (offset + c.utf8.length) rest).map (c :: ·)
  termination_by s => s.length

/-- Reads the bytes as UTF-8, to their end. -/
def decode (s : Bytes) : Except Fault Text := decodeFrom 0 s

end Utf8

end Mqtt
