import Mqtt.Proofs.Text.Utf8
import Mqtt.Proofs.Wire.Format

/-!
# The grammar of UTF-8

* `Utf8.Sequence` is the format of a code point, by the ranges of its bytes: which bytes may open a
  sequence of which length, and what may follow them.
* `Utf8.words_sequence_iff`: the sequences of a text, one behind the other, are its written form,
  and a text with a surrogate has none.
* `Utf8.decode_eq_ok_iff_words`: so the reader takes exactly the bytes of the grammar. It refuses
  overlong and truncated sequences, surrogates and whatever lies above U+10FFFF.
-/

namespace Mqtt.Utf8

variable {w s : Bytes} {c : CodePoint} {x : Text}

/-- The byte lies in this range. -/
def Between (b : UInt8) (low high : Nat) : Prop := low ≤ b.toNat ∧ b.toNat ≤ high

/-- The first two bytes of three. After `E0`, the second must not be so low that two bytes would
    have done; after `ED`, it must not be so high that it makes a surrogate. -/
def OpensThree (a b : UInt8) : Prop :=
  Between a 0xE0 0xE0 ∧ Between b 0xA0 0xBF ∨ Between a 0xE1 0xEC ∧ Between b 0x80 0xBF ∨
    Between a 0xED 0xED ∧ Between b 0x80 0x9F ∨ Between a 0xEE 0xEF ∧ Between b 0x80 0xBF

/-- The first two bytes of four. After `F0`, the second must not be so low that three bytes would
    have done; after `F4`, it must not be so high that the code point lies above U+10FFFF. -/
def OpensFour (a b : UInt8) : Prop :=
  Between a 0xF0 0xF0 ∧ Between b 0x90 0xBF ∨ Between a 0xF1 0xF3 ∧ Between b 0x80 0xBF ∨
    Between a 0xF4 0xF4 ∧ Between b 0x80 0x8F

/-- A code point in one to four bytes. Each byte after the first adds six bits. -/
inductive Sequence : Format CodePoint
  | one {a : UInt8} {c : CodePoint} : Between a 0x00 0x7F → c.val = a.toNat → Sequence [a] c
  | two {a b : UInt8} {c : CodePoint} : Between a 0xC2 0xDF → Between b 0x80 0xBF →
      c.val = 64 * (a.toNat - 0xC0) + (b.toNat - 0x80) → Sequence [a, b] c
  | three {a b d : UInt8} {c : CodePoint} : OpensThree a b → Between d 0x80 0xBF →
      c.val = 4096 * (a.toNat - 0xE0) + 64 * (b.toNat - 0x80) + (d.toNat - 0x80) →
      Sequence [a, b, d] c
  | four {a b d e : UInt8} {c : CodePoint} : OpensFour a b → Between d 0x80 0xBF →
      Between e 0x80 0xBF →
      c.val = 262144 * (a.toNat - 0xF0) + 4096 * (b.toNat - 0x80) + 64 * (d.toNat - 0x80) +
        (e.toNat - 0x80) →
      Sequence [a, b, d, e] c

/-- A sequence is the written form of its code point, which is no surrogate. -/
theorem Sequence.eq_utf8 (h : Sequence w c) : w = c.utf8 ∧ c.isSurrogate = false := by
  rw [CodePoint.isSurrogate_eq_false_iff]
  cases h with
  | one ha hc =>
    simp only [Between] at ha
    rw [CodePoint.utf8_of_lt_0x80 (by omega)]
    simp only [List.cons.injEq, and_true, ← UInt8.toNat_inj, UInt8.toNat_ofNat']
    omega
  | two ha hb hc =>
    simp only [Between] at ha hb
    rw [CodePoint.utf8_of_lt_0x800 (by omega) (by omega)]
    simp only [List.cons.injEq, and_true, ← UInt8.toNat_inj, UInt8.toNat_ofNat']
    omega
  | three hab hd hc =>
    simp only [OpensThree, Between] at hab hd
    rw [CodePoint.utf8_of_lt_0x10000 (by omega) (by omega)]
    simp only [List.cons.injEq, and_true, ← UInt8.toNat_inj, UInt8.toNat_ofNat']
    omega
  | four hab hd he hc =>
    simp only [OpensFour, Between] at hab hd he
    rw [CodePoint.utf8_of_ge_0x10000 (by omega)]
    simp only [List.cons.injEq, and_true, ← UInt8.toNat_inj, UInt8.toNat_ofNat']
    omega

/-- The written form of a code point that is no surrogate is a sequence. -/
theorem sequence_utf8 (h : c.isSurrogate = false) : Sequence c.utf8 c := by
  rw [CodePoint.isSurrogate_eq_false_iff] at h
  have hlt := c.val_lt
  by_cases h₁ : c.val < 0x80
  · rw [CodePoint.utf8_of_lt_0x80 h₁]
    apply Sequence.one
    all_goals simp only [Between, UInt8.toNat_ofNat']; omega
  by_cases h₂ : c.val < 0x800
  · rw [CodePoint.utf8_of_lt_0x800 (by omega) h₂]
    apply Sequence.two
    all_goals simp only [Between, UInt8.toNat_ofNat']; omega
  by_cases h₃ : c.val < 0x10000
  · rw [CodePoint.utf8_of_lt_0x10000 (by omega) h₃]
    apply Sequence.three
    all_goals simp only [OpensThree, Between, UInt8.toNat_ofNat']; omega
  · rw [CodePoint.utf8_of_ge_0x10000 (by omega)]
    apply Sequence.four
    all_goals simp only [OpensFour, Between, UInt8.toNat_ofNat']; omega

/-- **The grammar derives the written form** of each text without surrogates, and nothing else. -/
theorem words_sequence_iff :
    Format.Words Sequence w x ↔ w = x.utf8 ∧ x.hasSurrogate = false := by
  refine ⟨fun h => ?_, ?_⟩
  · induction h with
    | nil => exact ⟨rfl, rfl⟩
    | cons hc _ ih =>
      obtain ⟨rfl, hs⟩ := hc.eq_utf8
      obtain ⟨rfl, hx⟩ := ih
      refine ⟨rfl, ?_⟩
      rw [Text.hasSurrogate, List.any_cons, hs]
      exact hx
  · rintro ⟨rfl, hx⟩
    induction x with
    | nil => exact .nil
    | cons c x ih =>
      rw [Text.hasSurrogate, List.any_cons, Bool.or_eq_false_iff] at hx
      exact .cons (sequence_utf8 hx.1) (ih hx.2)

/-- **The reader takes exactly the bytes of the grammar.** -/
theorem decode_eq_ok_iff_words : decode s = .ok x ↔ Format.Words Sequence s x :=
  decode_eq_ok_iff.trans words_sequence_iff.symm

end Mqtt.Utf8
