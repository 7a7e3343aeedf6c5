import Mqtt.Text.Utf8

/-!
# UTF-8, read and written

Reading and writing are inverse: the strict reader takes exactly the written forms of the texts
without surrogates (`decode_eq_ok_iff`). So it refuses what is no such form, overlong and truncated
sequences among it, and each text has one form only.
-/

namespace Mqtt

/-! ### The form of a code point, by its length -/

namespace CodePoint

variable {c : CodePoint}

/-- Seven bits stand in one byte. -/
theorem utf8_of_lt_0x80 (h : c.val < 0x80) : c.utf8 = [.ofNat c.val] := by
  rw [utf8, if_pos h]

/-- Eleven bits stand in two bytes. -/
theorem utf8_of_lt_0x800 (h : 0x80 ≤ c.val) (h' : c.val < 0x800) :
    c.utf8 = [.ofNat (0xC0 + c.val / 64), .ofNat (0x80 + c.val % 64)] := by
  rw [utf8, if_neg (by omega), if_pos h']

/-- Sixteen bits stand in three bytes. -/
theorem utf8_of_lt_0x10000 (h : 0x800 ≤ c.val) (h' : c.val < 0x10000) :
    c.utf8 = [.ofNat (0xE0 + c.val / 4096), .ofNat (0x80 + c.val / 64 % 64),
      .ofNat (0x80 + c.val % 64)] := by
  rw [utf8, if_neg (by omega), if_neg (by omega), if_pos h']

/-- All other code points stand in four bytes. -/
theorem utf8_of_ge_0x10000 (h : 0x10000 ≤ c.val) :
    c.utf8 = [.ofNat (0xF0 + c.val / 262144), .ofNat (0x80 + c.val / 4096 % 64),
      .ofNat (0x80 + c.val / 64 % 64), .ofNat (0x80 + c.val % 64)] := by
  rw [utf8, if_neg (by omega), if_neg (by omega), if_neg (by omega)]

/-- A code point is no surrogate if it lies outside their range. -/
theorem isSurrogate_eq_false_iff : c.isSurrogate = false ↔ c.val < 0xD800 ∨ 0xDFFF < c.val := by
  simp only [isSurrogate, Bool.and_eq_false_iff, decide_eq_false_iff_not]
  omega

end CodePoint

namespace Utf8

/-! ### One code point -/

variable {b : UInt8} {s t : Bytes} {c : CodePoint}

/-- A byte is known by its number. -/
private theorem ofNat_eq {n : Nat} (h : b.toNat = n) : UInt8.ofNat n = b := by
  subst h
  exact UInt8.ofNat_toNat

/-- No tail bytes are read off any bytes. -/
theorem readTails_zero_eq_ok_iff {low high v w : Nat} :
    readTails 0 low high v s = .ok (w, t) ↔ v = w ∧ s = t := by
  rw [readTails, Except.ok.injEq, Prod.mk.injEq]

/-- Tail bytes are read one by one, the first of them in its own range. -/
theorem readTails_succ_eq_ok_iff {count low high v w : Nat} :
    readTails (count + 1) low high v s = .ok (w, t) ↔
      ∃ x u, s = x :: u ∧ (low ≤ x.toNat ∧ x.toNat ≤ high) ∧
        readTails count 0x80 0xBF (64 * v + (x.toNat - 0x80)) u = .ok (w, t) := by
  cases s with
  | nil => simp [readTails]
  | cons x u =>
    simp only [readTails, List.cons.injEq]
    by_cases hx : low ≤ x.toNat ∧ x.toNat ≤ high
    -- How a failure further on is counted does not matter here.
    · rw [if_pos hx, Except.mapError_eq_ok_iff]
      constructor
      · intro h
        exact ⟨x, u, ⟨rfl, rfl⟩, hx, h⟩
      · rintro ⟨_, _, ⟨rfl, rfl⟩, -, h⟩
        exact h
    · rw [if_neg hx]
      simp only [reduceCtorEq, false_iff]
      rintro ⟨_, _, ⟨rfl, rfl⟩, hx', -⟩
      exact hx hx'

/-- A code point is read from one byte, or from a first byte and the tail bytes that it announces.
    -/
theorem readCodePoint_eq_ok_iff :
    readCodePoint b s = .ok (c, t) ↔
      (b.toNat < 0x80 ∧ b.toNat = c.val ∧ s = t) ∨
      (0x80 ≤ b.toNat ∧ ∃ lead, Lead.ofByte? b = some lead ∧
        readTails (lead.more + 1) lead.low lead.high lead.bits s = .ok (c.val, t)) := by
  unfold readCodePoint
  split
  case isTrue hb =>
    simp only [Except.ok.injEq, Prod.mk.injEq, CodePoint.ext_iff]
    constructor
    · intro h; exact Or.inl ⟨hb, h⟩
    · rintro (h | h)
      · exact h.2
      · omega
  case isFalse hb =>
    split
    case h_1 hlead =>
      simp only [reduceCtorEq, hlead, false_iff]
      rintro (h | ⟨-, _, h, -⟩)
      · exact hb h.1
      · cases h
    case h_2 lead hlead =>
      simp only [hlead, Option.some.injEq, exists_eq_left']
      split
      case h_1 hr =>
        simp only [hr, reduceCtorEq, and_false, or_false, false_iff]
        exact fun h => hb h.1
      case h_2 v rest hr =>
        simp only [hr, Except.ok.injEq, Prod.mk.injEq, CodePoint.ext_iff]
        constructor
        · intro h; exact Or.inr ⟨by omega, h⟩
        · rintro (h | h)
          · exact absurd h.1 hb
          · exact h.2

/-- What is read as a code point is its written form. The ranges of the first tail byte leave no
    other form and no surrogate. -/
theorem eq_utf8_of_readCodePoint (h : readCodePoint b s = .ok (c, t)) :
    b :: s = c.utf8 ++ t ∧ c.isSurrogate = false := by
  rw [CodePoint.isSurrogate_eq_false_iff]
  rcases readCodePoint_eq_ok_iff.mp h with ⟨hb, hc, rfl⟩ | ⟨hb, lead, hlead, hr⟩
  · rw [CodePoint.utf8_of_lt_0x80 (by omega), ofNat_eq hc]
    exact ⟨rfl, by omega⟩
  · unfold Lead.ofByte? at hlead
    dsimp only at hlead
    split at hlead
    · cases hlead
    split at hlead
    -- Two bytes.
    · obtain rfl := Option.some.inj hlead
      simp only [readTails_succ_eq_ok_iff, readTails_zero_eq_ok_iff] at hr
      obtain ⟨x, u, rfl, hx, hv, rfl⟩ := hr
      rw [CodePoint.utf8_of_lt_0x800 (by omega) (by omega), ofNat_eq (b := b) (by omega),
        ofNat_eq (b := x) (by omega)]
      exact ⟨rfl, by omega⟩
    -- Three bytes: `E0`, `ED` and the others.
    iterate 3
      split at hlead
      · obtain rfl := Option.some.inj hlead
        simp only [readTails_succ_eq_ok_iff, readTails_zero_eq_ok_iff] at hr
        obtain ⟨x, _, rfl, hx, y, u, rfl, hy, hv, rfl⟩ := hr
        rw [CodePoint.utf8_of_lt_0x10000 (by omega) (by omega), ofNat_eq (b := b) (by omega),
          ofNat_eq (b := x) (by omega), ofNat_eq (b := y) (by omega)]
        exact ⟨rfl, by omega⟩
    -- Four bytes: `F0`, the others, and `F4`.
    iterate 3
      split at hlead
      · obtain rfl := Option.some.inj hlead
        simp only [readTails_succ_eq_ok_iff, readTails_zero_eq_ok_iff] at hr
        obtain ⟨x, _, rfl, hx, y, _, rfl, hy, z, u, rfl, hz, hv, rfl⟩ := hr
        rw [CodePoint.utf8_of_ge_0x10000 (by omega), ofNat_eq (b := b) (by omega),
          ofNat_eq (b := x) (by omega), ofNat_eq (b := y) (by omega), ofNat_eq (b := z) (by omega)]
        exact ⟨rfl, by omega⟩
    cases hlead

/-- What the first byte of a two-byte form announces. -/
theorem exists_lead_two (h : 0xC2 ≤ b.toNat) (h' : b.toNat < 0xE0) :
    ∃ lead, Lead.ofByte? b = some lead ∧ lead.more = 0 ∧ lead.bits = b.toNat - 0xC0 ∧
      lead.low = 0x80 ∧ lead.high = 0xBF := by
  unfold Lead.ofByte?
  rw [if_neg (by omega), dif_pos h']
  exact ⟨_, rfl, rfl, rfl, rfl, rfl⟩

/-- What the first byte of a three-byte form announces: `E0` and `ED` narrow the range of the first
    tail byte. -/
theorem exists_lead_three (h : 0xE0 ≤ b.toNat) (h' : b.toNat < 0xF0) :
    ∃ lead, Lead.ofByte? b = some lead ∧ lead.more = 1 ∧ lead.bits = b.toNat - 0xE0 ∧
      (lead.low = 0x80 ∨ b.toNat = 0xE0 ∧ lead.low = 0xA0) ∧
      (lead.high = 0xBF ∨ b.toNat = 0xED ∧ lead.high = 0x9F) := by
  unfold Lead.ofByte?
  rw [if_neg (by omega), dif_neg (by omega)]
  by_cases hE0 : b.toNat = 0xE0
  · rw [if_pos hE0]
    exact ⟨_, rfl, rfl, by rw [hE0], Or.inr ⟨hE0, rfl⟩, Or.inl rfl⟩
  by_cases hED : b.toNat = 0xED
  · rw [if_neg hE0, if_pos hED]
    exact ⟨_, rfl, rfl, by rw [hED], Or.inl rfl, Or.inr ⟨hED, rfl⟩⟩
  · rw [if_neg hE0, if_neg hED, dif_pos h']
    exact ⟨_, rfl, rfl, rfl, Or.inl rfl, Or.inl rfl⟩

/-- What the first byte of a four-byte form announces: `F0` and `F4` narrow the range of the first
    tail byte. -/
theorem exists_lead_four (h : 0xF0 ≤ b.toNat) (h' : b.toNat < 0xF5) :
    ∃ lead, Lead.ofByte? b = some lead ∧ lead.more = 2 ∧ lead.bits = b.toNat - 0xF0 ∧
      (lead.low = 0x80 ∨ b.toNat = 0xF0 ∧ lead.low = 0x90) ∧
      (lead.high = 0xBF ∨ b.toNat = 0xF4 ∧ lead.high = 0x8F) := by
  unfold Lead.ofByte?
  rw [if_neg (by omega), dif_neg (by omega), if_neg (by omega), if_neg (by omega),
    dif_neg (by omega)]
  by_cases hF0 : b.toNat = 0xF0
  · rw [if_pos hF0]
    exact ⟨_, rfl, rfl, by rw [hF0], Or.inr ⟨hF0, rfl⟩, Or.inl rfl⟩
  by_cases hF4 : b.toNat = 0xF4
  · rw [if_neg hF0, dif_neg (by omega), if_pos hF4]
    exact ⟨_, rfl, rfl, by rw [hF4], Or.inl rfl, Or.inr ⟨hF4, rfl⟩⟩
  · rw [if_neg hF0, dif_pos (by omega)]
    exact ⟨_, rfl, rfl, rfl, Or.inl rfl, Or.inl rfl⟩

/-- The written form of a code point that is no surrogate is read as that code point, whatever
    follows it. -/
theorem readCodePoint_utf8_append (h : c.isSurrogate = false) (t : Bytes) :
    ∃ b s, c.utf8 ++ t = b :: s ∧ readCodePoint b s = .ok (c, t) := by
  rw [CodePoint.isSurrogate_eq_false_iff] at h
  have hlt := c.val_lt
  by_cases h₁ : c.val < 0x80
  -- One byte.
  · rw [CodePoint.utf8_of_lt_0x80 h₁]
    refine ⟨_, _, rfl, readCodePoint_eq_ok_iff.mpr (Or.inl ⟨?_, ?_, rfl⟩)⟩ <;>
      simp only [UInt8.toNat_ofNat'] <;> omega
  by_cases h₂ : c.val < 0x800
  -- Two bytes.
  · rw [CodePoint.utf8_of_lt_0x800 (by omega) h₂]
    have hb : (UInt8.ofNat (0xC0 + c.val / 64)).toNat = 0xC0 + c.val / 64 := by
      rw [UInt8.toNat_ofNat']; omega
    obtain ⟨lead, hlead, hmore, hbits, hlow, hhigh⟩ :=
      exists_lead_two (b := .ofNat (0xC0 + c.val / 64)) (by omega) (by omega)
    refine ⟨_, _, rfl, readCodePoint_eq_ok_iff.mpr (Or.inr ⟨by omega, lead, hlead, ?_⟩)⟩
    rw [hmore, hbits, hb]
    simp only [readTails_succ_eq_ok_iff, readTails_zero_eq_ok_iff]
    refine ⟨_, _, rfl, ?_, ?_, rfl⟩ <;> simp only [UInt8.toNat_ofNat'] <;> omega
  by_cases h₃ : c.val < 0x10000
  -- Three bytes. That the code point is no surrogate keeps the first tail byte in its range.
  · rw [CodePoint.utf8_of_lt_0x10000 (by omega) h₃]
    have hb : (UInt8.ofNat (0xE0 + c.val / 4096)).toNat = 0xE0 + c.val / 4096 := by
      rw [UInt8.toNat_ofNat']; omega
    obtain ⟨lead, hlead, hmore, hbits, hlow, hhigh⟩ :=
      exists_lead_three (b := .ofNat (0xE0 + c.val / 4096)) (by omega) (by omega)
    refine ⟨_, _, rfl, readCodePoint_eq_ok_iff.mpr (Or.inr ⟨by omega, lead, hlead, ?_⟩)⟩
    rw [hmore, hbits, hb]
    rw [hb] at hlow hhigh
    simp only [readTails_succ_eq_ok_iff, readTails_zero_eq_ok_iff]
    refine ⟨_, _, rfl, ?_, _, _, rfl, ?_, ?_, rfl⟩ <;> simp only [UInt8.toNat_ofNat'] <;> omega
  -- Four bytes.
  · rw [CodePoint.utf8_of_ge_0x10000 (by omega)]
    have hb : (UInt8.ofNat (0xF0 + c.val / 262144)).toNat = 0xF0 + c.val / 262144 := by
      rw [UInt8.toNat_ofNat']; omega
    obtain ⟨lead, hlead, hmore, hbits, hlow, hhigh⟩ :=
      exists_lead_four (b := .ofNat (0xF0 + c.val / 262144)) (by omega) (by omega)
    refine ⟨_, _, rfl, readCodePoint_eq_ok_iff.mpr (Or.inr ⟨by omega, lead, hlead, ?_⟩)⟩
    rw [hmore, hbits, hb]
    rw [hb] at hlow hhigh
    simp only [readTails_succ_eq_ok_iff, readTails_zero_eq_ok_iff]
    refine ⟨_, _, rfl, ?_, _, _, rfl, ?_, _, _, rfl, ?_, ?_, rfl⟩ <;>
      simp only [UInt8.toNat_ofNat'] <;> omega

/-! ### A text -/

/-- A code point that is read goes in front of those that are read behind it. -/
theorem decodeFrom_of_readCodePoint {offset : Nat} (h : readCodePoint b s = .ok (c, t)) :
    decodeFrom offset (b :: s) = (decodeFrom (offset + c.utf8.length) t).map (c :: ·) := by
  rw [decodeFrom]
  split
  · rename_i he; rw [h] at he; cases he
  · rename_i hc; rw [h] at hc; cases hc; rfl

/-- The written form of a text without surrogates is read as that text. -/
theorem decodeFrom_utf8 {x : Text} (h : x.hasSurrogate = false) (offset : Nat) :
    decodeFrom offset x.utf8 = .ok x := by
  induction x generalizing offset with
  | nil => rw [Text.utf8, List.flatMap_nil, decodeFrom]
  | cons c x ih =>
    rw [Text.hasSurrogate, List.any_cons, Bool.or_eq_false_iff] at h
    obtain ⟨b, s, hs, hread⟩ := readCodePoint_utf8_append h.1 (Text.utf8 x)
    have hutf8 : Text.utf8 (c :: x) = b :: s := by
      rw [← hs]; exact List.flatMap_cons
    rw [hutf8, decodeFrom_of_readCodePoint hread, ih h.2]
    rfl

/-- What is read as a text is its written form. -/
theorem eq_utf8_of_decodeFrom {offset : Nat} {x : Text} (h : decodeFrom offset s = .ok x) :
    s = x.utf8 ∧ x.hasSurrogate = false := by
  induction offset, s using decodeFrom.induct generalizing x with
  | case1 offset =>
    rw [decodeFrom] at h
    cases h
    exact ⟨rfl, rfl⟩
  | case2 offset b s k r he =>
    rw [decodeFrom] at h
    split at h
    · cases h
    · rename_i hc; rw [he] at hc; cases hc
  | case3 offset b s c rest hread _ ih =>
    rw [decodeFrom_of_readCodePoint hread] at h
    obtain ⟨x', hr, rfl⟩ := Except.map_eq_ok_iff.mp h
    obtain ⟨hs, hc⟩ := eq_utf8_of_readCodePoint hread
    obtain ⟨hrest, hx'⟩ := ih hr
    refine ⟨?_, ?_⟩
    · rw [hs, hrest]; rfl
    · rw [Text.hasSurrogate, List.any_cons, hc]; exact hx'

/-- **Reading inverts writing.** The bytes that are read as a text are exactly its written form, and
    a text with a surrogate has none. -/
theorem decode_eq_ok_iff {x : Text} : decode s = .ok x ↔ s = x.utf8 ∧ x.hasSurrogate = false := by
  constructor
  · exact eq_utf8_of_decodeFrom
  · rintro ⟨rfl, hx⟩
    exact decodeFrom_utf8 hx 0

end Utf8

end Mqtt
