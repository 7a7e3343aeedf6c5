import Mqtt.Proofs.Wire.Primitive
import Mqtt.Proofs.Wire.VarInt
import Mqtt.Property.Block

/-!
# Entries of a property block

* `ValueFormat.Form` are the words of single values, and `PropertyKind.InRange` says which of them a
  kind admits.
* `Carrier.Entry c` is the format of an entry that the carrier `c` may carry: an identifier, which
  may be padded, and a value.
* `Carrier.reads_entry`: the reader takes exactly these entries.
* `Carrier.entry_of_emitEntry` and `Carrier.Entry.fits_emitEntry`: the writer writes such entries,
  and none that is longer than the one that was read.
-/

namespace Mqtt

/-! ### Values -/

namespace ValueFormat

variable {f : ValueFormat} {w : Bytes} {s : Scalar}

/-- The words of single values. A flag is written as a number, so it has no word of its own. -/
inductive Form : ValueFormat → Format Scalar
  | fixed {size n : Nat} {w : Bytes} : Integer.Form size w n → Form (fixed size) w (.number n)
  | varInt {n : Nat} {w : Bytes} : VarInt.Form w n → Form varInt w (.number n)
  | text {x : Text} {w : Bytes} : Text.Form w x → Form text w (.text x)
  | binary {bs w : Bytes} : Binary.Form w bs → Form binary w (.binary bs)
  | textPair {k v : Text} {w : Bytes} : TextPair.Form w (k, v) → Form textPair w (.pair k v)

/-- The reader takes exactly the words of the format. -/
theorem reads_form (f : ValueFormat) : f.read.Reads f.Form := by
  cases f with
  | fixed size =>
    refine ((Integer.reads_form size).bind_pure _).congr fun w s => ⟨?_, fun h => ?_⟩
    · rintro ⟨n, hn, rfl⟩; exact .fixed hn
    · cases h with | fixed hn => exact ⟨_, hn, rfl⟩
  | varInt =>
    refine (VarInt.reads_form.bind_pure _).congr fun w s => ⟨?_, fun h => ?_⟩
    · rintro ⟨n, hn, rfl⟩; exact .varInt hn
    · cases h with | varInt hn => exact ⟨_, hn, rfl⟩
  | text =>
    refine (Text.reads_form.bind_pure _).congr fun w s => ⟨?_, fun h => ?_⟩
    · rintro ⟨x, hx, rfl⟩; exact .text hx
    · cases h with | text hx => exact ⟨_, hx, rfl⟩
  | binary =>
    refine (Binary.reads_form.bind_pure _).congr fun w s => ⟨?_, fun h => ?_⟩
    · rintro ⟨bs, hbs, rfl⟩; exact .binary hbs
    · cases h with | binary hbs => exact ⟨_, hbs, rfl⟩
  | textPair =>
    refine (TextPair.reads_form.bind_pure fun p => Scalar.pair p.1 p.2).congr fun w s =>
      ⟨?_, fun h => ?_⟩
    · rintro ⟨p, hp, rfl⟩; exact .textPair hp
    · cases h with | textPair hp => exact ⟨_, hp, rfl⟩

/-- A flag is written as the number that it stands for. -/
theorem emit_normal (f : ValueFormat) (s : Scalar) : f.emit s.normal = f.emit s := by
  cases f <;> cases s <;> rfl

/-- What is written is the word of the value, a flag being a number. -/
theorem form_of_emit (h : f.emit s = .done w) : f.Form w s.normal := by
  rw [← emit_normal] at h
  -- Only a value that suits the format is written at all.
  cases f <;> cases s <;> simp only [Scalar.normal, emit, Scalar.number?, reduceCtorEq,
    Emission.fail] at h ⊢
  case fixed.number size n =>
    obtain ⟨h0, hw⟩ := Integer.form_of_emit h
    rw [← Int.toNat_of_nonneg h0]
    exact .fixed hw
  case fixed.flag size b =>
    obtain ⟨h0, hw⟩ := Integer.form_of_emit h
    rw [← Int.toNat_of_nonneg h0]
    exact .fixed hw
  case varInt.number n =>
    have h0 := (VarInt.emit_eq_done.mp h).1
    rw [← Int.toNat_of_nonneg h0]
    exact .varInt (VarInt.form_of_emit h)
  case varInt.flag b =>
    have h0 := (VarInt.emit_eq_done.mp h).1
    rw [← Int.toNat_of_nonneg h0]
    exact .varInt (VarInt.form_of_emit h)
  case text.text x => exact .text (Text.emit_eq_done_iff.mp h)
  case binary.binary bs => exact .binary (Binary.emit_eq_done_iff.mp h)
  case textPair.pair k v => exact .textPair (TextPair.emit_eq_done_iff.mp h)

/-- A value that has a word is written, and in no more bytes. Only variable byte integers have
    several words. -/
theorem Form.fits_emit (h : f.Form w s) : (f.emit s).Fits w.length := by
  cases h with
  | fixed hw => exact hw.fits_emit
  | varInt hw => exact ⟨_, VarInt.emit_natCast hw.le_max, hw.2.length_digits_le⟩
  | text hw => exact hw.fits_emit
  | binary hw => exact hw.fits_emit
  | textPair hw => exact Emission.fits_of_eq_done (TextPair.emit_eq_done_iff.mpr hw)

/-- A value with a word holds no flag. -/
theorem Form.normal_eq (h : f.Form w s) : s.normal = s := by
  cases h <;> rfl

end ValueFormat

/-! ### Kinds -/

namespace PropertyKind

variable {k : PropertyKind} {s : Scalar} {w : Bytes}

/-- The values that a kind admits. -/
def InRange (k : PropertyKind) (s : Scalar) : Prop :=
  (k.isBoolean = true → s.number? = some 0 ∨ s.number? = some 1) ∧
    (k.isNonZero = true → s.number? ≠ some 0)

/-- The check passes exactly the values that the kind admits. -/
theorem check_eq_ok_iff : k.check (.one s) = .ok () ↔ k.InRange s := by
  show k.check (.one s) = _ ↔ (_ → _ ∨ _) ∧ _
  unfold check
  split
  -- The value is no flag, but the kind asks for one.
  case isTrue h =>
    simp only [reduceCtorEq, false_iff]
    intro hr
    rcases hr.1 h.1 with h0 | h1
    · exact h.2.1 h0
    · exact h.2.2 h1
  case isFalse h =>
    split
    -- The value is 0, which the kind rules out.
    case isTrue h' =>
      simp only [reduceCtorEq, false_iff]
      exact fun hr => hr.2 h'.1 h'.2
    case isFalse h' =>
      simp only [true_iff]
      refine ⟨fun hb => ?_, fun hz h0 => h' ⟨hz, h0⟩⟩
      by_cases h0 : s.number? = some 0
      · exact Or.inl h0
      · by_cases h1 : s.number? = some 1
        · exact Or.inr h1
        · exact absurd ⟨hb, h0, h1⟩ h

/-- The check fails for one of two reasons. -/
theorem eq_of_check_eq_error {v : PropertyValue} {e : Error} (h : k.check v = .error e) :
    e = .notBoolean k v ∨ e = .zeroProperty k := by
  unfold check at h
  split at h
  case isTrue => exact Or.inl (Except.error.inj h).symm
  case isFalse =>
    split at h
    case isTrue => exact Or.inr (Except.error.inj h).symm
    case isFalse => cases h

/-- The range of a kind does not tell a flag from the number that it stands for. -/
theorem inRange_normal_iff : k.InRange s.normal ↔ k.InRange s := by
  unfold InRange
  rw [Scalar.number?_normal]

/-- Four digits hold the identifier of a kind. -/
theorem identifier_le_max (k : PropertyKind) : k.identifier ≤ VarInt.max :=
  Nat.le_trans (Nat.le_of_lt k.identifier_lt) (by decide)

/-- An entry is written if its value is in range and has a form. -/
theorem emitEntry_eq_done_iff :
    k.emitEntry s = .done w ↔
      k.InRange s ∧ ∃ v, k.format.emit s = .done v ∧ w = VarInt.digits k.identifier ++ v := by
  unfold emitEntry
  split
  case h_1 e he =>
    simp only [Emission.fail, reduceCtorEq, false_iff]
    intro h
    rw [check_eq_ok_iff.mpr h.1] at he
    cases he
  case h_2 hk =>
    rw [VarInt.emit_natCast k.identifier_le_max, Emission.append_eq_done]
    constructor
    · rintro ⟨_, v, ⟨⟩, hv, rfl⟩
      exact ⟨check_eq_ok_iff.mp hk, v, hv, rfl⟩
    · rintro ⟨-, v, hv, rfl⟩
      exact ⟨_, v, rfl, hv, rfl⟩

/-- A flag is written in the entry of the number that it stands for. -/
theorem emitEntry_normal_eq_done_iff :
    k.emitEntry s.normal = .done w ↔ k.emitEntry s = .done w := by
  rw [emitEntry_eq_done_iff, emitEntry_eq_done_iff, inRange_normal_iff, ValueFormat.emit_normal]

/-- The kind with an identifier is the one that has it. -/
theorem ofIdentifier_eq_ok_iff {n : Nat} : ofIdentifier n = .ok k ↔ n = k.identifier := by
  have hfound : ofIdentifier? n = some k ↔ n = k.identifier := by
    constructor
    · exact fun h => (Int.ofNat_inj.mp (identifier_of_ofIdentifier? h)).symm
    · rintro rfl; exact ofIdentifier?_identifier k
  rw [← hfound, ofIdentifier]
  cases ofIdentifier? n <;> simp

end PropertyKind

/-! ### Entries -/

namespace Carrier

variable {c : Carrier} {k : PropertyKind} {s : Scalar} {w : Bytes}

/-- An entry that a carrier may carry: an identifier and a value in the range of its kind. -/
inductive Entry (c : Carrier) : Format (PropertyKind × Scalar)
  | intro {u v : Bytes} {k : PropertyKind} {s : Scalar} :
      c.allows k = true → VarInt.Form u k.identifier → k.format.Form v s → k.InRange s →
      Entry c (u ++ v) (k, s)

/-- The kind with an identifier is found if the carrier may carry it. -/
theorem kindOf_eq_ok_iff {n : Nat} :
    c.kindOf n = .ok k ↔ n = k.identifier ∧ c.allows k = true := by
  unfold kindOf
  simp only [Except.bind_eq_ok_iff, Except.guard_eq_ok_iff, PropertyKind.ofIdentifier_eq_ok_iff]
  constructor
  · rintro ⟨j, rfl, hj, rfl⟩; exact ⟨rfl, hj⟩
  · rintro ⟨rfl, hk⟩; exact ⟨k, rfl, hk, rfl⟩

/-- The reader takes exactly the entries of the carrier. -/
theorem reads_entry (c : Carrier) : c.readEntry.Reads c.Entry := by
  intro s e t
  simp only [readEntry, VarInt.reads_form.bind_eq_ok_iff, Reader.lift_bind_eq_ok_iff,
    (ValueFormat.reads_form _).bind_eq_ok_iff, Reader.pure_eq_ok_iff, kindOf_eq_ok_iff]
  constructor
  · rintro ⟨_, u, _, hu, rfl, k, ⟨rfl, hk⟩, x, v, _, hv, rfl, ⟨⟩, hcheck, rfl, rfl⟩
    exact ⟨u ++ v, .intro hk hu hv (PropertyKind.check_eq_ok_iff.mp hcheck),
      (List.append_assoc _ _ _).symm⟩
  · rintro ⟨_, he, rfl⟩
    cases he with
    | intro hk hu hv hr =>
      exact ⟨_, _, _, hu, List.append_assoc _ _ _, _, ⟨rfl, hk⟩, _, _, t, hv, rfl, (),
        PropertyKind.check_eq_ok_iff.mpr hr, rfl, rfl⟩

/-- What is written as an entry is one, a flag being a number. -/
theorem entry_of_emitEntry (hk : c.allows k = true) (h : k.emitEntry s = .done w) :
    c.Entry w (k, s.normal) := by
  obtain ⟨hr, v, hv, rfl⟩ := PropertyKind.emitEntry_eq_done_iff.mp h
  exact .intro hk (VarInt.form_digits k.identifier_le_max) (ValueFormat.form_of_emit hv)
    (PropertyKind.inRange_normal_iff.mpr hr)

/-- An entry is written again in no more bytes. -/
theorem Entry.fits_emitEntry {e : PropertyKind × Scalar} (h : c.Entry w e) :
    (e.1.emitEntry e.2).Fits w.length := by
  cases h with
  | @intro u v k s hk hu hv hr =>
    obtain ⟨v', hv', hle⟩ := hv.fits_emit
    refine ⟨_, PropertyKind.emitEntry_eq_done_iff.mpr ⟨hr, v', hv', rfl⟩, ?_⟩
    have hu' := hu.2.length_digits_le
    simp only [List.length_append]
    omega

end Carrier

end Mqtt
