import Mqtt.Proofs.Wire.Emission
import Mqtt.Proofs.Wire.Stable
import Mqtt.Proofs.Wire.VarInt

/-!
# Where a variable byte integer ends

* `VarInt.Continues b`: the byte announces another one.
* `VarInt.readDigits_eq_error_iff`: the reader fails exactly if all bytes that may come announce
  another one. They are too few, or there is one too many.
* `VarInt.Form.exists_result` and `VarInt.Form.read_of_prefix`: how a word that was read is written
  again, and that its beginning is no word.
* `VarInt.read_emit_exact` puts together what is known of both directions: which integers are
  written, what is read, how long both are, and when the reader asks for more or gives up.
-/

namespace Mqtt.VarInt

variable {s w : Bytes} {n : Nat}

/-- The byte announces another one: its highest bit is set. -/
def Continues (b : UInt8) : Prop := b.toNat.testBit 7 = true

/-- A byte announces another one if it is not below 128. -/
theorem continues_iff {b : UInt8} : Continues b ↔ 128 ≤ b.toNat := by
  have hb := b.toNat_lt
  rw [Continues, Nat.testBit_eq_decide_div_mod_eq, decide_eq_true_eq]
  omega

/-! ### Failures of the reader -/

/-- Reading digits fails exactly if each of those that may come announces another one. If they are
    all there, then they are too many. -/
theorem readDigits_eq_error_iff {count : Nat} {e : Error} :
    readDigits count s = .error e ↔
      (∀ b ∈ s.take count, Continues b) ∧
        e = if s.length < count then .insufficientData else .varIntTooLong := by
  induction count generalizing s with
  | zero => simp [readDigits, eq_comm]
  | succ count ih =>
    cases s with
    | nil => simp [readDigits, eq_comm]
    | cons b s =>
      rw [readDigits]
      by_cases hb : b.toNat < 128
      · simp [hb, continues_iff, Nat.not_le.mpr hb]
      -- The first byte announces another one, so all is up to those behind it.
      · rw [if_neg hb, Except.map_eq_error_iff, ih]
        simp [continues_iff, Nat.not_lt.mp hb]

/-- The reader gives up exactly if the first four bytes are there and all announce another one. -/
theorem read_eq_varIntTooLong_iff :
    read s = .error .varIntTooLong ↔ 4 ≤ s.length ∧ ∀ b ∈ s.take 4, Continues b := by
  rw [read, readDigits_eq_error_iff, and_comm]
  by_cases hlen : s.length < 4
  · simp [hlen, Nat.not_le.mpr hlen]
  · simp [hlen, Nat.not_lt.mp hlen]

/-- The reader asks for more exactly if fewer than four bytes are there and all announce another
    one. -/
theorem read_eq_insufficientData_iff :
    read s = .error .insufficientData ↔ s.length < 4 ∧ ∀ b ∈ s, Continues b := by
  rw [read, readDigits_eq_error_iff, and_comm]
  by_cases hlen : s.length < 4
  · simp [hlen, List.take_of_length_le (Nat.le_of_lt hlen)]
  · simp [hlen]

/-! ### Writing -/

/-- The integers that are written, and the bytes that they are written in. -/
theorem result_eq_ok_iff {n : Int} :
    (emit n).result = .ok w ↔ (0 ≤ n ∧ n ≤ 268435455) ∧ w = digits n.toNat := by
  rw [Emission.result_eq_ok_iff, emit_eq_done, and_assoc]
  rfl

/-- An integer is put behind what is on the buffer, in one to four bytes, exactly if it lies in the
    range. -/
theorem exists_result_iff (n : Int) (buffer : Bytes) :
    (∃ w, (emit n).result = .ok w ∧ (emit n).onto buffer = buffer ++ w ∧
      1 ≤ w.length ∧ w.length ≤ 4) ↔ 0 ≤ n ∧ n ≤ 268435455 := by
  refine ⟨fun ⟨w, hw, _⟩ => (result_eq_ok_iff.mp hw).1, fun hn => ?_⟩
  have hemit : emit n = .done (digits n.toNat) := emit_eq_done.mpr ⟨hn.1, hn.2, rfl⟩
  have hform := form_of_emit hemit
  rw [hemit]
  exact ⟨_, rfl, rfl, hform.length_pos, hform.1⟩

/-- An integer out of the range is refused, and the buffer is left alone. -/
theorem result_of_not_range {n : Int} (hn : ¬(0 ≤ n ∧ n ≤ 268435455)) (buffer : Bytes) :
    (emit n).result = .error (.varIntRange n) ∧ (emit n).onto buffer = buffer := by
  have hemit : emit n = .fail (.varIntRange n) := if_neg hn
  rw [hemit]
  exact ⟨rfl, List.append_nil buffer⟩

/-- What is written reads back as it was given. -/
theorem read_append_of_result {n : Int} (h : (emit n).result = .ok w) (t : Bytes) :
    ∃ v : Nat, (v : Int) = n ∧ read (w ++ t) = .ok (v, t) := by
  have hn := (result_eq_ok_iff.mp h).1.1
  exact ⟨n.toNat, Int.toNat_of_nonneg hn,
    read_append_of_emit (Emission.result_eq_ok_iff.mp h) t⟩

/-! ### What was read -/

/-- Only a word of the length of the shortest one is the shortest one. -/
theorem Form.digits_eq_iff (h : Form w n) : digits n = w ↔ (digits n).length = w.length :=
  ⟨congrArg List.length, (base128_digits n).eq_of_length_eq h.2⟩

/-- A word is written again in no more bytes, and as it was if they are as many. -/
theorem Form.exists_result (h : Form w n) :
    ∃ f, (emit n).result = .ok f ∧ f.length ≤ w.length ∧ (f = w ↔ f.length = w.length) := by
  refine ⟨digits n, ?_, h.2.length_digits_le, h.digits_eq_iff⟩
  rw [emit_natCast h.le_max]
  rfl

/-- As long as the last byte of a word is missing, the reader asks for more. -/
theorem Form.read_of_prefix (h : Form w n) {u : Bytes} (hu : u <+: w) (hne : u ≠ w) :
    read u = .error .insufficientData :=
  stable_read.eq_insufficientData_of_prefix (reads_form.readsAll.mpr h) hu hne

/-! ### Both directions -/

/-- **Variable byte integers, read and written.** The integers from 0 to 268435455 are written, in
    one to four bytes behind what is on the buffer, and these read back, whatever bytes follow. For
    any other integer the buffer is left alone. An integer that is read lies in this range and takes
    one to four bytes. It is written in no more bytes, and in the same bytes if there are as many;
    and as long as the last of its bytes is missing, the reader asks for more. It gives up exactly
    if four bytes are there that all announce another one, and it asks for more exactly if fewer are
    there that all do. -/
theorem read_emit_exact :
    (∀ (n : Int) (buffer : Bytes),
      ((∃ w, (emit n).result = .ok w ∧ (emit n).onto buffer = buffer ++ w ∧
        1 ≤ w.length ∧ w.length ≤ 4) ↔ 0 ≤ n ∧ n ≤ 268435455) ∧
      (¬(0 ≤ n ∧ n ≤ 268435455) →
        (emit n).result = .error (.varIntRange n) ∧ (emit n).onto buffer = buffer) ∧
      ∀ w t, (emit n).result = .ok w → ∃ v : Nat, (v : Int) = n ∧ read (w ++ t) = .ok (v, t)) ∧
    (∀ s v t, read s = .ok (v, t) →
      v ≤ 268435455 ∧ ∃ w f, s = w ++ t ∧ 1 ≤ w.length ∧ w.length ≤ 4 ∧
        (emit v).result = .ok f ∧ f.length ≤ w.length ∧ (f = w ↔ f.length = w.length) ∧
        ∀ u, u <+: w → u ≠ w → read u = .error .insufficientData) ∧
    ∀ s,
      (read s = .error .varIntTooLong ↔ 4 ≤ s.length ∧ ∀ b ∈ s.take 4, Continues b) ∧
      (read s = .error .insufficientData ↔ s.length < 4 ∧ ∀ b ∈ s, Continues b) := by
  refine ⟨fun n buffer => ⟨exists_result_iff n buffer, fun hn => result_of_not_range hn buffer,
    fun w t hw => read_append_of_result hw t⟩, fun s v t h => ?_,
    fun s => ⟨read_eq_varIntTooLong_iff, read_eq_insufficientData_iff⟩⟩
  obtain ⟨w, hform, rfl⟩ := reads_form.mp h
  obtain ⟨f, hf, hle, hiff⟩ := hform.exists_result
  exact ⟨hform.le_max, w, f, rfl, hform.length_pos, hform.1, hf, hle, hiff,
    fun u => hform.read_of_prefix⟩

end Mqtt.VarInt
