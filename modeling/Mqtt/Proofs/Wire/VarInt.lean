import Mqtt.Proofs.Wire.Format
import Mqtt.Wire.VarInt

/-!
# Variable byte integers, read and written

* `Base128` are the digits of a number, padded or not; `Form` is the format of a variable byte
  integer, one to four such digits.
* `reads_form`: the reader takes exactly the words of `Form`.
* `form_of_emit`: the writer writes a word of `Form`, and `length_digits_le` says that it is the
  shortest one for its number.
* `Shortest` are the words of `Form` that no other word of their number is shorter than.
  `shortest_iff`: these are just the words that the writer writes.
-/

namespace Mqtt.VarInt

/-- The digits of a number to the base 128, lowest first. All bytes but the last have their highest
    bit set. -/
inductive Base128 : Format Nat
  | last {b : UInt8} : b.toNat < 128 → Base128 [b] b.toNat
  | more {b : UInt8} {w : Bytes} {n : Nat} :
      128 ≤ b.toNat → Base128 w n → Base128 (b :: w) (b.toNat % 128 + 128 * n)

/-- A number in one to four digits, of which the last ones may be 0. -/
def Form : Format Nat := fun w n => w.length ≤ 4 ∧ Base128 w n

/-! ### Reading -/

/-- The reader takes the digits of a number, if they are no more than it may take. -/
theorem readDigits_eq_ok_iff {count n : Nat} {s t : Bytes} :
    readDigits count s = .ok (n, t) ↔ ∃ w, (w.length ≤ count ∧ Base128 w n) ∧ s = w ++ t := by
  -- The induction is on the number of digits that may still come.
  induction count generalizing s n with
  | zero =>
    simp only [readDigits, reduceCtorEq, false_iff]
    rintro ⟨w, ⟨hlen, hw⟩, -⟩
    cases hw <;> simp at hlen
  | succ count ih =>
    cases s with
    | nil =>
      simp only [readDigits, reduceCtorEq, false_iff]
      rintro ⟨w, ⟨-, hw⟩, hs⟩
      cases hw <;> simp at hs
    | cons b s =>
      rw [readDigits]
      by_cases hb : b.toNat < 128
      -- The byte is the last digit.
      · rw [if_pos hb, Except.ok.injEq, Prod.mk.injEq]
        constructor
        · rintro ⟨rfl, rfl⟩
          exact ⟨[b], ⟨by simp, .last hb⟩, rfl⟩
        · rintro ⟨w, ⟨-, hw⟩, hs⟩
          cases hw with
          | last _ => cases hs; exact ⟨rfl, rfl⟩
          | more hb' _ => cases hs; omega
      -- More digits follow.
      · rw [if_neg hb]
        constructor
        · intro h
          obtain ⟨r, hr, hvalue⟩ := Except.map_eq_ok_iff.mp h
          obtain ⟨rfl, rfl⟩ := Prod.mk.inj hvalue
          obtain ⟨w, ⟨hlen, hw⟩, rfl⟩ := ih.mp hr
          exact ⟨b :: w, ⟨by simpa using hlen, .more (by omega) hw⟩, rfl⟩
        · rintro ⟨w, ⟨hlen, hw⟩, hs⟩
          cases hw with
          | last hb' => cases hs; exact absurd hb' hb
          | @more _ w n _ hw =>
            obtain ⟨rfl, rfl⟩ : _ = b ∧ s = w ++ t := by
              simpa [eq_comm] using hs
            rw [ih.mpr ⟨w, ⟨by simpa using hlen, hw⟩, rfl⟩]
            rfl

/-- The reader takes exactly the words of the format. -/
theorem reads_form : read.Reads Form := fun _ _ _ => readDigits_eq_ok_iff

/-! ### Writing -/

/-- Digits stand for a number below the power of 128 for their count. -/
theorem Base128.lt {w : Bytes} {n : Nat} (h : Base128 w n) : n < 128 ^ w.length := by
  induction h with
  | last hb => simpa using hb
  | @more b w n _ _ ih =>
    have hmod : b.toNat % 128 < 128 := Nat.mod_lt _ (by decide)
    rw [List.length_cons, Nat.pow_succ]
    omega

/-- The shortest form consists of digits of its number. -/
theorem base128_digits (n : Nat) : Base128 (digits n) n := by
  induction n using digits.induct with
  | case1 n hn =>
    rw [digits_of_lt hn]
    have hb : (UInt8.ofNat n).toNat = n := by
      rw [UInt8.toNat_ofNat']; omega
    have hlast : Base128 [UInt8.ofNat n] (UInt8.ofNat n).toNat := .last (by omega)
    rwa [hb] at hlast
  | case2 n hn ih =>
    rw [digits_of_ge (by omega)]
    have hb : (UInt8.ofNat (n % 128 + 128)).toNat = n % 128 + 128 := by
      rw [UInt8.toNat_ofNat']; omega
    -- The lowest digit has its highest bit set, since others follow.
    have hmore := Base128.more (b := UInt8.ofNat (n % 128 + 128)) (by omega) ih
    have hn : (UInt8.ofNat (n % 128 + 128)).toNat % 128 + 128 * (n / 128) = n := by
      rw [hb]; omega
    rwa [hn] at hmore

/-- The larger number has the longer shortest form. -/
theorem length_digits_mono {m n : Nat} (h : m ≤ n) : (digits m).length ≤ (digits n).length := by
  induction n using digits.induct generalizing m with
  | case1 n hn =>
    rw [digits_of_lt hn, digits_of_lt (by omega)]
    simp
  | case2 n hn ih =>
    rw [digits_of_ge (n := n) (by omega)]
    by_cases hm : m < 128
    · rw [digits_of_lt hm]; simp
    · rw [digits_of_ge (by omega)]
      have hdiv : (digits (m / 128)).length ≤ (digits (n / 128)).length :=
        ih (Nat.div_le_div_right h)
      simpa using hdiv

/-- No digits of a number are fewer than those of its shortest form. -/
theorem Base128.length_digits_le {w : Bytes} {n : Nat} (h : Base128 w n) :
    (digits n).length ≤ w.length := by
  induction h with
  | last hb => rw [digits_of_lt hb]; simp
  | @more b w n _ _ ih =>
    by_cases hlt : b.toNat % 128 + 128 * n < 128
    · rw [digits_of_lt hlt]; simp
    · have hdiv : (b.toNat % 128 + 128 * n) / 128 = n := by omega
      rw [digits_of_ge (by omega), hdiv]
      simpa using ih

/-- Four digits stand for no more than the largest number. -/
theorem Form.le_max {w : Bytes} {n : Nat} (h : Form w n) : n ≤ max := by
  have hlt : n < 128 ^ w.length := h.2.lt
  have hle : 128 ^ w.length ≤ 128 ^ 4 := Nat.pow_le_pow_right (by decide) h.1
  have hmax : max + 1 = 128 ^ 4 := by decide
  omega

/-- The shortest form of a number that four digits hold. -/
theorem form_digits {n : Nat} (h : n ≤ max) : Form (digits n) n := by
  refine ⟨?_, base128_digits n⟩
  have hmax : (digits max).length = 4 := by decide +kernel
  have hmono := length_digits_mono h
  omega

/-- An integer is written if four digits hold it, and then in its shortest form. -/
theorem emit_eq_done {n : Int} {w : Bytes} :
    emit n = .done w ↔ 0 ≤ n ∧ n ≤ max ∧ w = digits n.toNat := by
  unfold emit
  split
  case isTrue h =>
    rw [Emission.done.injEq, eq_comm]
    exact ⟨fun hw => ⟨h.1, h.2, hw⟩, fun hw => hw.2.2⟩
  case isFalse h =>
    simp only [Emission.fail, reduceCtorEq, false_iff]
    rintro ⟨h0, hmax, -⟩
    exact h ⟨h0, hmax⟩

/-- A natural number that four digits hold is written in its shortest form. -/
theorem emit_natCast {n : Nat} (h : n ≤ max) : emit n = .done (digits n) :=
  emit_eq_done.mpr ⟨by omega, by omega, by simp⟩

/-- What is written is a word of the format. -/
theorem form_of_emit {n : Int} {w : Bytes} (h : emit n = .done w) : Form w n.toNat := by
  obtain ⟨h0, hmax, rfl⟩ := emit_eq_done.mp h
  exact form_digits (by omega)

/-- The identifier of a property is written in one byte. -/
theorem length_digits_of_lt {n : Nat} (h : n < 128) : (digits n).length = 1 := by
  rw [digits_of_lt h]; rfl

/-! ### Minimal forms -/

/-- The words of a number that no other word of the number is shorter than. -/
def Shortest : Format Nat := fun w n => Form w n ∧ ∀ w', Form w' n → w.length ≤ w'.length

/-- A number has but one word of a given length. -/
theorem Base128.eq_of_length_eq {w w' : Bytes} {n : Nat} (h : Base128 w n) (h' : Base128 w' n)
    (hlen : w.length = w'.length) : w = w' := by
  generalize hn : n = m at h'
  -- The induction is on the digits of the one word, from the lowest to the highest.
  induction h generalizing w' m with
  | @last b hb =>
    cases h' with
    | last hb' => rw [UInt8.toNat_inj.mp hn]
    | more _ hw' => cases hw' <;> simp at hlen
  | @more b w n hb hw ih =>
    cases h' with
    | last _ => cases hw <;> simp at hlen
    | @more b' w' n' hb' hw' =>
      have hlt := b.toNat_lt
      have hlt' := b'.toNat_lt
      have hdigit : b = b' := UInt8.toNat_inj.mp (by omega)
      have hrest : w = w' := ih (Nat.succ.inj hlen) n' (by omega) hw'
      rw [hdigit, hrest]

/-- The shortest word of a number is the one that is written. -/
theorem shortest_iff {w : Bytes} {n : Nat} : Shortest w n ↔ n ≤ max ∧ w = digits n := by
  constructor
  · rintro ⟨hw, hle⟩
    have hmax := hw.le_max
    have hlen := hle _ (form_digits hmax)
    have hlen' := hw.2.length_digits_le
    exact ⟨hmax, hw.2.eq_of_length_eq (base128_digits n) (by omega)⟩
  · rintro ⟨hmax, rfl⟩
    exact ⟨form_digits hmax, fun w' hw' => hw'.2.length_digits_le⟩

/-- A word of the format has at least one byte. -/
theorem Form.length_pos {w : Bytes} {n : Nat} (h : Form w n) : 0 < w.length := by
  obtain ⟨-, hw⟩ := h
  cases hw <;> simp

end Mqtt.VarInt
