import Mathlib.Data.List.TakeWhile
import Mqtt.Proofs.Text.Utf8
import Mqtt.Proofs.Wire.Emission
import Mqtt.Wire.Text

/-!
# Integers of a fixed width, binary data and strings

The formats of the primitive values. Each value has at most one word, so that reader, writer and
format say the same: the reader takes exactly the words (`reads_form`), and the writer writes them
(`emit_eq_done_iff`).
-/

namespace Mqtt

/-! ### Integers of a fixed width -/

namespace Integer

variable {size n : Nat} {w : Bytes}

/-- A number in `size` bytes, the most significant digit first. -/
def Form (size : Nat) : Format Nat := fun w n => n < 256 ^ size ∧ w = Bytes.bigEndian size n

/-- The reader takes exactly the words of the format. -/
theorem reads_form (size : Nat) : (read size).Reads (Form size) := by
  intro s n t
  constructor
  · intro h
    obtain ⟨bs, rfl, rfl, rfl⟩ := read_eq_ok.mp h
    exact ⟨bs, ⟨Bytes.value_lt bs, (Bytes.bigEndian_value bs).symm⟩, rfl⟩
  · rintro ⟨w, ⟨hlt, rfl⟩, rfl⟩
    exact read_append_of_emit (emit_natCast hlt) t

/-- A number is written in its word. -/
theorem emit_natCast_eq_done_iff : emit size (n : Int) = .done w ↔ Form size w n := by
  rw [emit_eq_done]
  constructor
  · rintro ⟨-, hlt, rfl⟩
    exact ⟨by omega, by simp⟩
  · rintro ⟨hlt, rfl⟩
    exact ⟨by omega, by omega, by simp⟩

/-- An integer that is written is a number, and written in the word of it. -/
theorem form_of_emit {n : Int} (h : emit size n = .done w) :
    0 ≤ n ∧ Form size w n.toNat := by
  obtain ⟨h0, hlt, hw⟩ := emit_eq_done.mp h
  exact ⟨h0, by omega, hw⟩

/-- A number is written in as many bytes as it was read from. -/
theorem Form.fits_emit (h : Form size w n) : (emit size (n : Int)).Fits w.length :=
  Emission.fits_of_eq_done (emit_natCast_eq_done_iff.mpr h)

/-- A word has the width of the format. -/
theorem Form.length_eq (h : Form size w n) : w.length = size := by
  rw [h.2, Bytes.length_bigEndian]

/-- A number of one byte stands in that byte. -/
theorem form_one_iff : Form 1 w n ↔ n < 256 ∧ w = [.ofNat n] := by
  rw [Form]
  simp [Bytes.bigEndian]

/-- A number of one byte is written in one byte. -/
theorem fits_emit_one (h : n < 256) : (emit 1 (n : Int)).Fits 1 :=
  (form_one_iff.mpr ⟨h, rfl⟩).fits_emit

end Integer

/-! ### Binary data -/

namespace Binary

variable {w bs : Bytes}

/-- Bytes behind their number. -/
def Form : Format Bytes := fun w bs =>
  bs.length ≤ maxLength ∧ w = Bytes.bigEndian 2 bs.length ++ bs

/-- A number of bytes off the front is all that is asked for. -/
theorem reads_bytes (n : Nat) : (Reader.bytes n).Reads fun w bs => bs = w ∧ w.length = n := by
  intro s bs t
  unfold Reader.bytes
  dsimp only
  split
  case isTrue h =>
    simp only [reduceCtorEq, false_iff]
    rintro ⟨w, ⟨rfl, rfl⟩, rfl⟩
    simp at h
  case isFalse h =>
    rw [Except.ok.injEq, Prod.mk.injEq]
    constructor
    · rintro ⟨rfl, rfl⟩
      refine ⟨_, ⟨rfl, ?_⟩, (List.take_append_drop n s).symm⟩
      rw [List.length_take] at h ⊢
      omega
    · rintro ⟨w, ⟨rfl, rfl⟩, rfl⟩
      exact ⟨List.take_left, List.drop_left⟩

/-- The reader takes exactly the words of the format. -/
theorem reads_form : read.Reads Form := by
  intro s bs t
  unfold read
  rw [(Integer.reads_form 2).bind_eq_ok_iff]
  constructor
  · rintro ⟨n, u, v, ⟨hn, rfl⟩, rfl, hread⟩
    -- The number of the bytes is the one in front of them.
    obtain ⟨w, ⟨rfl, rfl⟩, rfl⟩ := (reads_bytes n).mp hread
    refine ⟨_, ⟨?_, rfl⟩, (List.append_assoc _ _ _).symm⟩
    unfold maxLength
    omega
  · rintro ⟨w, ⟨hlen, rfl⟩, rfl⟩
    refine ⟨bs.length, _, bs ++ t, ⟨?_, rfl⟩, List.append_assoc _ _ _, ?_⟩
    · unfold maxLength at hlen; omega
    · exact (reads_bytes _).read_append ⟨rfl, rfl⟩ t

/-- Bytes are written in their word. -/
theorem emit_eq_done_iff : emit bs = .done w ↔ Form w bs := by
  unfold emit Form
  split
  case isTrue h =>
    have hlt : bs.length < 256 ^ 2 := by unfold maxLength at h; omega
    rw [Integer.emit_natCast hlt, Emission.done_append_done, Emission.done.injEq, eq_comm]
    exact ⟨fun hw => ⟨h, hw⟩, fun hw => hw.2⟩
  case isFalse h =>
    simp only [Emission.fail, reduceCtorEq, false_iff]
    exact fun hw => h hw.1

/-- Bytes are written in as many bytes as they were read from. -/
theorem Form.fits_emit (h : Form w bs) : (emit bs).Fits w.length :=
  Emission.fits_of_eq_done (emit_eq_done_iff.mpr h)

end Binary

/-! ### Strings -/

namespace Text

variable {w : Bytes} {x : Text}

/-- The UTF-8 form of a text behind its length. The text has no surrogate and no U+0000. -/
def Form : Format Text := fun w x =>
  x.hasSurrogate = false ∧ .null ∉ x ∧ Binary.Form w x.utf8

/-- The contents of a string are the written form of its text. -/
theorem ofContents_eq_ok_iff {bs : Bytes} :
    ofContents bs = .ok x ↔ bs = x.utf8 ∧ x.hasSurrogate = false ∧ .null ∉ x := by
  unfold ofContents
  split
  case h_1 fault hd =>
    simp only [reduceCtorEq, false_iff]
    rintro ⟨hbs, hs, -⟩
    rw [Utf8.decode_eq_ok_iff.mpr ⟨hbs, hs⟩] at hd
    cases hd
  case h_2 y hd =>
    obtain ⟨rfl, hs⟩ := Utf8.decode_eq_ok_iff.mp hd
    by_cases hnull : CodePoint.null ∈ y
    · rw [if_pos (by simpa using hnull)]
      simp only [reduceCtorEq, false_iff]
      rintro ⟨hxy, hx, hn⟩
      rw [Utf8.decode_eq_ok_iff.mpr ⟨hxy, hx⟩, Except.ok.injEq] at hd
      exact hn (hd ▸ hnull)
    · rw [if_neg (by simpa using hnull), Except.ok.injEq]
      constructor
      · rintro rfl; exact ⟨rfl, hs, hnull⟩
      · rintro ⟨hxy, hx, -⟩
        rw [Utf8.decode_eq_ok_iff.mpr ⟨hxy, hx⟩, Except.ok.injEq] at hd
        exact hd.symm

/-- The reader takes exactly the words of the format. -/
theorem reads_form : read.Reads Form := by
  intro s x t
  unfold read
  rw [Binary.reads_form.bind_eq_ok_iff]
  constructor
  · rintro ⟨bs, u, v, hu, rfl, hlift⟩
    obtain ⟨hx, rfl⟩ := Reader.lift_eq_ok_iff.mp hlift
    obtain ⟨rfl, hs, hnull⟩ := ofContents_eq_ok_iff.mp hx
    exact ⟨u, ⟨hs, hnull, hu⟩, rfl⟩
  · rintro ⟨w, ⟨hs, hnull, hw⟩, rfl⟩
    exact ⟨_, w, t, hw, rfl,
      Reader.lift_eq_ok_iff.mpr ⟨ofContents_eq_ok_iff.mpr ⟨rfl, hs, hnull⟩, rfl⟩⟩

/-- There is a first run of surrogates if there is a surrogate at all. -/
theorem surrogateRun?_eq_none_iff : x.surrogateRun? = none ↔ x.hasSurrogate = false := by
  have hnil : (x.dropWhile fun c => !c.isSurrogate) = [] ↔ x.hasSurrogate = false := by
    rw [List.dropWhile_eq_nil_iff, hasSurrogate, List.any_eq_false]
    simp
  rw [← hnil]
  unfold surrogateRun?
  dsimp only
  split
  case h_1 h => simp [h]
  case h_2 h => simp [h]

/-- A text is written in its word. -/
theorem emit_eq_done_iff : x.emit = .done w ↔ Form w x := by
  unfold emit Form
  split
  case h_1 run hrun =>
    simp only [Emission.fail, reduceCtorEq, false_iff]
    intro h
    rw [surrogateRun?_eq_none_iff.mpr h.1] at hrun
    cases hrun
  case h_2 hrun =>
    by_cases hnull : CodePoint.null ∈ x
    · rw [if_pos (by simpa using hnull)]
      simp only [Emission.fail, reduceCtorEq, false_iff]
      exact fun h => h.2.1 hnull
    -- A text that passes is written as its UTF-8 form would be as binary data.
    · rw [if_neg (by simpa using hnull)]
      have hs := surrogateRun?_eq_none_iff.mp hrun
      have hbinary := @Binary.emit_eq_done_iff w x.utf8
      unfold Binary.emit at hbinary
      dsimp only
      split
      case isTrue hlen =>
        rw [if_pos hlen] at hbinary
        rw [hbinary]
        exact ⟨fun h => ⟨hs, hnull, h⟩, fun h => h.2.2⟩
      case isFalse hlen =>
        simp only [Emission.fail, reduceCtorEq, false_iff]
        exact fun h => hlen h.2.2.1

/-- A text is written in as many bytes as it was read from. -/
theorem Form.fits_emit (h : Form w x) : x.emit.Fits w.length :=
  Emission.fits_of_eq_done (emit_eq_done_iff.mpr h)

end Text

namespace TextPair

variable {w : Bytes} {p : Text × Text}

/-- Two strings in a row. -/
def Form : Format (Text × Text) := fun w p =>
  ∃ u v, Text.Form u p.1 ∧ Text.Form v p.2 ∧ w = u ++ v

/-- The reader takes exactly the words of the format. -/
theorem reads_form : read.Reads Form := by
  intro s p t
  unfold read
  simp only [Text.reads_form.bind_eq_ok_iff, Reader.pure_eq_ok_iff]
  constructor
  · rintro ⟨x, u, _, hu, rfl, y, v, _, hv, rfl, rfl, rfl⟩
    exact ⟨u ++ v, ⟨u, v, hu, hv, rfl⟩, (List.append_assoc _ _ _).symm⟩
  · rintro ⟨_, ⟨u, v, hu, hv, rfl⟩, rfl⟩
    exact ⟨p.1, u, v ++ t, hu, List.append_assoc _ _ _, p.2, v, t, hv, rfl, rfl, rfl⟩

/-- A pair is written in its word. -/
theorem emit_eq_done_iff : emit p = .done w ↔ Form w p := by
  unfold emit Form
  rw [Emission.append_eq_done]
  simp only [Text.emit_eq_done_iff]

end TextPair

end Mqtt
