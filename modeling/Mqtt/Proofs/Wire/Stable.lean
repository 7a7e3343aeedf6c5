import Mqtt.Proofs.Wire.Format
import Mqtt.Wire.Integer
import Mqtt.Wire.VarInt

/-!
# Readers whose answer is final

* `Reader.Stable r` says that what `r` answers stays, whatever bytes follow: a value, and any error
  but `Error.insufficientData`.
* `Reader.Stable.bind`: readers in a row are stable if each of them is.
* `Reader.Stable.eq_insufficientData_of_prefix`: before the last byte of a value is there, a stable
  reader asks for more.
* `Integer.stable_read` and `VarInt.stable_read` say so of the readers of a fixed header.
-/

namespace Mqtt

namespace Reader

variable {α β : Type}

/-- Whatever bytes follow, the reader takes the same value off the same bytes, or fails with the
    same error, unless it failed for the lack of bytes. -/
structure Stable (r : Reader α) : Prop where
  ok : ∀ ⦃s a u⦄, r s = .ok (a, u) → ∀ t, r (s ++ t) = .ok (a, u ++ t)
  error : ∀ ⦃s e⦄, r s = .error e → e ≠ .insufficientData → ∀ t, r (s ++ t) = .error e

/-- A value that is there already does not change. -/
theorem stable_pure (a : α) : (pure a : Reader α).Stable where
  ok := by
    intro s b u h t
    cases h
    rfl
  error := by
    intro s e h
    cases h

/-- A check does not look at the bytes. -/
theorem stable_lift (x : Except Error α) : (liftM x : Reader α).Stable where
  ok := by
    intro s a u h t
    cases x with
    | error e => cases h
    | ok b => cases h; rfl
  error := by
    intro s e h _ t
    cases x with
    | error e' => cases h; rfl
    | ok b => cases h

/-- Stable readers in a row are stable. -/
theorem Stable.bind {r : Reader α} {f : α → Reader β} (hr : r.Stable) (hf : ∀ a, (f a).Stable) :
    (r >>= f).Stable where
  ok := by
    intro s b u h t
    obtain ⟨a, v, hra, hfa⟩ := bind_eq_ok h
    show (r (s ++ t) >>= fun p => f p.1 p.2) = _
    rw [hr.ok hra]
    exact (hf a).ok hfa t
  error := by
    intro s e h he t
    change (r s >>= fun p => f p.1 p.2) = _ at h
    show (r (s ++ t) >>= fun p => f p.1 p.2) = _
    cases hra : r s with
    | error e' =>
      rw [hra] at h
      cases h
      rw [hr.error hra he]
      rfl
    | ok p =>
      rw [hra] at h
      rw [hr.ok hra]
      exact (hf p.1).error h he t

/-- Bytes that are there stay there. -/
theorem stable_bytes (n : Nat) : (bytes n).Stable where
  ok := by
    intro s a u h t
    unfold bytes at h ⊢
    simp only [List.length_take] at h ⊢
    split at h
    case isTrue => cases h
    case isFalse hlen =>
      cases h
      have hn : n ≤ s.length := by omega
      rw [if_neg (by rw [List.length_append]; omega), List.take_append_of_le_length hn,
        List.drop_append_of_le_length hn]
  error := by
    intro s e h he
    unfold bytes at h
    dsimp only at h
    split at h
    · cases h
      exact absurd rfl he
    · cases h

/-- A reader that takes all of the bytes asks for more as long as some of them are missing at the
    end. -/
theorem Stable.eq_insufficientData_of_prefix {r : Reader α} (hr : r.Stable) {w u : Bytes} {a : α}
    (h : r w = .ok (a, [])) (hu : u <+: w) (hne : u ≠ w) : r u = .error .insufficientData := by
  obtain ⟨v, rfl⟩ := hu
  -- Any other answer would stay when the missing bytes come.
  cases hread : r u with
  | ok x =>
    have hmore := hr.ok hread v
    rw [h, Except.ok.injEq, Prod.mk.injEq] at hmore
    have hv : v = [] := (List.append_eq_nil_iff.mp hmore.2.symm).2
    simp [hv] at hne
  | error e =>
    by_cases he : e = .insufficientData
    · rw [he]
    · have hmore := hr.error hread he v
      rw [h] at hmore
      cases hmore

end Reader

/-- An integer of a fixed size is final. -/
theorem Integer.stable_read (n : Nat) : (read n).Stable :=
  (Reader.stable_bytes n).bind fun _ => Reader.stable_pure _

namespace VarInt

/-- The digits of a number are final as soon as the last one is there, or one too many. -/
theorem stable_readDigits (count : Nat) : (readDigits count).Stable := by
  induction count with
  -- No further digit may come, so the bytes are not looked at.
  | zero =>
    refine ⟨fun s n u h => ?_, fun s e h _ t => h⟩
    cases h
  | succ count ih =>
    refine ⟨fun s n u h t => ?_, fun s e h he t => ?_⟩
    · cases s with
      | nil => cases h
      | cons b s =>
        rw [List.cons_append]
        rw [readDigits] at h ⊢
        split at h
        case isTrue hb =>
          cases h
          rw [if_pos hb]
        case isFalse hb =>
          obtain ⟨p, hp, hvalue⟩ := Except.map_eq_ok_iff.mp h
          obtain ⟨rfl, rfl⟩ := Prod.mk.inj hvalue
          rw [if_neg hb, ih.ok hp]
          rfl
    · cases s with
      | nil =>
        cases h
        exact absurd rfl he
      | cons b s =>
        rw [List.cons_append]
        rw [readDigits] at h ⊢
        split at h
        case isTrue => cases h
        case isFalse hb =>
          rw [if_neg hb, Except.map_eq_error_iff]
          exact ih.error (Except.map_eq_error_iff.mp h) he t

/-- A variable byte integer is final. -/
theorem stable_read : read.Stable := stable_readDigits 4

end VarInt

end Mqtt
