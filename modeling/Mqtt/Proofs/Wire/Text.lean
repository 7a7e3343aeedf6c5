import Mqtt.Proofs.Text.Grammar
import Mqtt.Proofs.Wire.Atomic
import Mqtt.Proofs.Wire.Primitive
import Mqtt.Proofs.Wire.Stable

/-!
# Strings and the texts they stand for

* `Text.Legal x`: the text may stand in a string. It holds no surrogate and no U+0000, and its UTF-8
  form is not too long for two bytes to count.
* `Reader.Reads.eq_ok_iff_result`: what reads the words of a format takes exactly what is written in
  these words off the front of any bytes.
* `Text.read_emit_bijection` puts together what is known of strings and pairs of them: which texts
  are written, in which bytes, and that these and no others are read, none of them too early.
-/

namespace Mqtt

/-- A value is read off the front exactly if what is written for it stands there. -/
theorem Reader.Reads.eq_ok_iff_result {α : Type} {F : Format α} {r : Reader α} {f : α → Emission}
    (hr : r.Reads F) (hf : ∀ {w a}, f a = .done w ↔ F w a) {s t : Bytes} {a : α} :
    r s = .ok (a, t) ↔ ∃ w, (f a).result = .ok w ∧ s = w ++ t := by
  rw [hr]
  simp only [Emission.result_eq_ok_iff, hf]

/-- Binary data is final. -/
theorem Binary.stable_read : read.Stable :=
  (Integer.stable_read 2).bind Reader.stable_bytes

namespace Text

variable {x : Text} {w : Bytes}

/-- A string is final. Its contents are looked at as soon as all of them are there. -/
theorem stable_read : read.Stable :=
  Binary.stable_read.bind fun _ => Reader.stable_lift _

/-- The text may stand in a string. -/
structure Legal (x : Text) : Prop where
  hasSurrogate_eq : x.hasSurrogate = false
  null_notMem : .null ∉ x
  length_utf8_le : x.utf8.length ≤ 65535

/-- The word of a legal text is its UTF-8 form behind its length, and no other text has one. -/
theorem form_iff : Form w x ↔ x.Legal ∧ w = Bytes.bigEndian 2 x.utf8.length ++ x.utf8 := by
  constructor
  · rintro ⟨hsurrogate, hnull, hlen, hw⟩
    exact ⟨⟨hsurrogate, hnull, hlen⟩, hw⟩
  · rintro ⟨h, hw⟩
    exact ⟨h.hasSurrogate_eq, h.null_notMem, h.length_utf8_le, hw⟩

/-- The texts that are written are the legal ones. -/
theorem result_eq_ok_iff : x.emit.result = .ok w ↔
    x.Legal ∧ w = Bytes.bigEndian 2 x.utf8.length ++ x.utf8 := by
  rw [Emission.result_eq_ok_iff, emit_eq_done_iff, form_iff]

/-- **Writing a string succeeds exactly for legal texts**, and leaves the buffer alone for any
    other. -/
theorem emit_legal_or_refused (x : Text) (buffer : Bytes) :
    (x.Legal ∧ ∃ w, x.emit.result = .ok w ∧ x.emit.onto buffer = buffer ++ w) ∨
      (¬x.Legal ∧ ∃ e, x.emit.result = .error e ∧ x.emit.onto buffer = buffer) := by
  obtain ⟨w, hw, honto, -⟩ | ⟨e, he, -, honto, -⟩ := (whole_emit x).allOrNothing buffer buffer
  · exact Or.inl ⟨(result_eq_ok_iff.mp hw).1, w, hw, honto⟩
  · refine Or.inr ⟨fun hlegal => ?_, e, he, honto⟩
    have hw := result_eq_ok_iff.mpr ⟨hlegal, rfl⟩
    rw [he] at hw
    cases hw

/-- As long as the last byte of a string is missing, the reader asks for more. -/
theorem read_eq_insufficientData_of_prefix (hw : x.emit.result = .ok w) {u : Bytes} (hu : u <+: w)
    (hne : u ≠ w) : read u = .error .insufficientData := by
  have hform := emit_eq_done_iff.mp (Emission.result_eq_ok_iff.mp hw)
  exact stable_read.eq_insufficientData_of_prefix (reads_form.readsAll.mpr hform) hu hne

/-- **Strings and legal texts are in bijection.** A text is written exactly if it is legal, behind
    what is on the buffer; for any other the buffer is left alone. It is written as its length in
    two bytes and the bytes that the grammar of UTF-8 derives for it, which are also the only bytes
    that the decoder takes for it. Off the front of any bytes, the reader takes a text and leaves
    the rest exactly if these bytes are those that are written for the text, and then the rest. As
    long as some of them are missing it asks for more, also where the bytes end within a character.
    Of pairs of strings the same bytes are read and written as well. -/
theorem read_emit_bijection :
    (∀ (x : Text) (buffer : Bytes),
      (x.Legal ∧ ∃ w, x.emit.result = .ok w ∧ x.emit.onto buffer = buffer ++ w) ∨
        (¬x.Legal ∧ ∃ e, x.emit.result = .error e ∧ x.emit.onto buffer = buffer)) ∧
    (∀ (x : Text) (bs : Bytes),
      (Utf8.decode bs = .ok x ↔ Format.Words Utf8.Sequence bs x) ∧
        (Format.Words Utf8.Sequence bs x ↔ bs = x.utf8 ∧ x.hasSurrogate = false)) ∧
    (∀ (x : Text) (w : Bytes), x.emit.result = .ok w →
      w = Bytes.bigEndian 2 x.utf8.length ++ x.utf8 ∧
        ∀ u, u <+: w → u ≠ w → read u = .error .insufficientData) ∧
    (∀ (s t : Bytes) (x : Text),
      read s = .ok (x, t) ↔ ∃ w, x.emit.result = .ok w ∧ s = w ++ t) ∧
    ∀ (s t : Bytes) (p : Text × Text),
      TextPair.read s = .ok (p, t) ↔ ∃ w, (TextPair.emit p).result = .ok w ∧ s = w ++ t := by
  refine ⟨emit_legal_or_refused, fun x bs => ?_, fun x w hw => ?_, fun s t x => ?_,
    fun s t p => ?_⟩
  · exact ⟨Utf8.decode_eq_ok_iff_words, Utf8.words_sequence_iff⟩
  · exact ⟨(result_eq_ok_iff.mp hw).2, fun u => read_eq_insufficientData_of_prefix hw⟩
  · exact reads_form.eq_ok_iff_result emit_eq_done_iff
  · exact TextPair.reads_form.eq_ok_iff_result TextPair.emit_eq_done_iff

end Text

end Mqtt
