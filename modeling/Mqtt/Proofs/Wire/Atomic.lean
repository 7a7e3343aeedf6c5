import Mqtt.FixedHeader
import Mqtt.Proofs.Wire.VarInt
import Mqtt.Wire.Text

/-!
# What writers leave on a buffer

* `Error.IsGiven`: the error is about a value that was given to be written.
* `Emission.FailsWith m P`: the emission fails only with errors with `P`, and may leave bytes behind
  then. This is what holds of emissions in a row.
* `Emission.Whole m P`: if it fails, it leaves nothing behind either. An emission under a header
  whose length is not known before is whole as soon as the header is (`FailsWith.headed`).
* `Emission.onto_append`: emissions in a row act on a buffer one after the other.
* `Emission.AllOrNothing`: what a whole emission does to buffers (`Whole.allOrNothing`).
* `Integer.whole_emit`, `VarInt.whole_emit`, `Binary.whole_emit`, `Text.whole_emit` and
  `FixedHeader.whole_emit`: these writers are whole. A pair of strings is not
  (`TextPair.onto_of_second_failed`).
-/

namespace Mqtt

/-- Whether the error is about a value that was given to be written: it has no form on the wire, or
    the protocol forbids it. -/
def Error.IsGiven (e : Error) : Prop :=
  e.kind.isA .unencodable = true ∨ e.kind.isA .protocol = true

namespace Emission

variable {α : Type} {P : Error → Prop} {m n : Emission} {f : α → Emission}

/-! ### Failures -/

/-- The emission fails with an error with `P`, if it fails. -/
def FailsWith (m : Emission) (P : Error → Prop) : Prop :=
  ∀ ⦃bs e⦄, m = failed bs e → P e

/-- The emission leaves nothing behind and fails with an error with `P`, if it fails. -/
def Whole (m : Emission) (P : Error → Prop) : Prop :=
  ∀ ⦃bs e⦄, m = failed bs e → bs = [] ∧ P e

/-- Complete emissions do not fail. -/
theorem whole_done (bs : Bytes) : (done bs).Whole P := by
  intro bs' e h
  cases h

/-- A failure that leaves nothing behind is whole. -/
theorem whole_fail {e : Error} (he : P e) : (fail e).Whole P := by
  intro bs e' h
  cases h
  exact ⟨rfl, he⟩

/-- Whether an emission is whole or not, it fails with the same errors. -/
theorem Whole.failsWith (h : m.Whole P) : m.FailsWith P :=
  fun _ _ hm => (h hm).2

/-- Emissions in a row fail with what one of them fails with. -/
theorem FailsWith.append (hm : m.FailsWith P) (hn : n.FailsWith P) : (m ++ n).FailsWith P := by
  intro bs e h
  match m, n with
  | failed _ _, _ => cases h; exact hm rfl
  | done _, failed _ _ => cases h; exact hn rfl
  | done _, done _ => cases h

/-- The emissions of a list of values fail with what one of them fails with. -/
theorem failsWith_concat {xs : List α} (h : ∀ x ∈ xs, (f x).FailsWith P) :
    (concat f xs).FailsWith P := by
  induction xs with
  | nil => exact (whole_done []).failsWith
  | cons x xs ih =>
    rw [concat_cons]
    exact (h x (by simp)).append (ih fun y hy => h y (by simp [hy]))

/-- The emission of an optional value fails with what that of the value fails with. -/
theorem failsWith_option {o : Option α} (h : ∀ x ∈ o, (f x).FailsWith P) :
    (option f o).FailsWith P := by
  cases o with
  | none => exact (whole_done []).failsWith
  | some x => exact h x rfl

/-- Bytes that are put behind a whole emission leave it whole. -/
theorem Whole.append_done (hm : m.Whole P) (bs : Bytes) : (m ++ done bs).Whole P := by
  intro bs' e h
  match m with
  | done _ => cases h
  | failed _ _ => cases h; exact hm rfl

/-- **An emission under a header is whole** if the header is: no byte of it is put on the buffer
    before all of them are known. -/
theorem FailsWith.headed {header : Nat → Emission} (hm : m.FailsWith P)
    (hheader : ∀ k, (header k).Whole P) : (m.headed header).Whole P := by
  cases m with
  | done bs => exact (hheader bs.length).append_done bs
  | failed bs e => exact whole_fail (hm rfl)

/-! ### Buffers -/

/-- Emissions in a row act on a buffer one after the other, up to the first failure. -/
theorem onto_append (m n : Emission) (buffer : Bytes) :
    (m ++ n).onto buffer =
      match m.error? with
      | none => n.onto (m.onto buffer)
      | some _ => m.onto buffer := by
  cases m <;> cases n <;> simp [onto, bytes, error?]

/-- Whichever of two buffers the emission goes to, it puts the same bytes behind what is there; or
    it fails with the same error, which is about a value that was given, and leaves both buffers as
    they are. -/
def AllOrNothing (m : Emission) (b₁ b₂ : Bytes) : Prop :=
  (∃ w, m.result = .ok w ∧ m.onto b₁ = b₁ ++ w ∧ m.onto b₂ = b₂ ++ w) ∨
    ∃ e, m.result = .error e ∧ e.IsGiven ∧ m.onto b₁ = b₁ ∧ m.onto b₂ = b₂

/-- A whole emission puts all of its bytes on a buffer or none. -/
theorem Whole.allOrNothing (h : m.Whole Error.IsGiven) (b₁ b₂ : Bytes) : m.AllOrNothing b₁ b₂ := by
  cases m with
  | done w => exact Or.inl ⟨w, rfl, rfl, rfl⟩
  | failed bs e =>
    obtain ⟨rfl, he⟩ := h rfl
    exact Or.inr ⟨e, rfl, he, List.append_nil b₁, List.append_nil b₂⟩

end Emission

/-! ### Primitive values -/

/-- An integer is put on the buffer with all of its bytes or not at all. -/
theorem Integer.whole_emit (size : Nat) (n : Int) : (emit size n).Whole Error.IsGiven := by
  unfold emit
  split
  case isTrue => exact Emission.whole_done _
  case isFalse => exact Emission.whole_fail (Or.inl rfl)

/-- A variable byte integer is put on the buffer with all of its bytes or not at all. -/
theorem VarInt.whole_emit (n : Int) : (emit n).Whole Error.IsGiven := by
  unfold emit
  split
  case isTrue => exact Emission.whole_done _
  case isFalse => exact Emission.whole_fail (Or.inl rfl)

/-- Binary data is put on the buffer with its length or not at all. -/
theorem Binary.whole_emit (bs : Bytes) : (emit bs).Whole Error.IsGiven := by
  unfold emit
  split
  case isTrue => exact (Integer.whole_emit 2 _).append_done bs
  case isFalse => exact Emission.whole_fail (Or.inl rfl)

/-- A string is checked before any of it is put on the buffer. -/
theorem Text.whole_emit (t : Text) : t.emit.Whole Error.IsGiven := by
  unfold emit
  split
  case h_1 => exact Emission.whole_fail (Or.inl rfl)
  case h_2 =>
    split
    case isTrue => exact Emission.whole_fail (Or.inl rfl)
    case isFalse =>
      dsimp only
      split
      case isTrue => exact (Integer.whole_emit 2 _).append_done _
      case isFalse => exact Emission.whole_fail (Or.inl rfl)

namespace TextPair

/-- A pair of strings fails if one of them does. -/
theorem failsWith_emit (p : Text × Text) : (emit p).FailsWith Error.IsGiven :=
  (Text.whole_emit p.1).failsWith.append (Text.whole_emit p.2).failsWith

/-- If only the second string of a pair fails, then the first one stays on the buffer. -/
theorem onto_of_second_failed {p : Text × Text} {w : Bytes} {e : Error} (h₁ : p.1.emit = .done w)
    (h₂ : p.2.emit = .fail e) (buffer : Bytes) :
    (emit p).result = .error e ∧ (emit p).onto buffer = buffer ++ w := by
  constructor
  · rw [emit, h₁, h₂]
    rfl
  · rw [emit, Emission.onto_append, h₁, h₂]
    exact List.append_nil (buffer ++ w)

end TextPair

/-- A fixed header is put on the buffer with all of its bytes or not at all. -/
theorem FixedHeader.whole_emit (type : PacketType) {flags : Nat} (hflags : flags < 16)
    (remaining : Nat) : (emit type flags remaining).Whole Error.IsGiven := by
  unfold emit
  rw [if_neg (by omega)]
  split
  case isTrue => exact Emission.whole_fail (Or.inl rfl)
  case isFalse hmax =>
    -- The length was compared with the largest one already, so its digits do not fail.
    rw [VarInt.emit_natCast (by omega)]
    exact Emission.whole_done _

end Mqtt
