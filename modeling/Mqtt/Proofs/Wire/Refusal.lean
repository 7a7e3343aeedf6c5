import Mqtt.Proofs.Wire.Format
import Mqtt.Wire.Text
import Mqtt.Wire.VarInt

/-!
# What readers refuse bytes for

* `Error.IsReceived`: the error is about received bytes. They are malformed or too few, or they
  violate the protocol.
* `Check.Sound x P`: the step `x` gives only values with `P`, and fails only with such an error.
* `Reader.Sound r P` says so of a reader. Readers in a row are sound if each of them is sound for
  what the ones before it give (`Reader.Sound.bind`), so that a check of what was read can be shown
  to pass.
* `Integer.sound_read`, `VarInt.sound_read`, `Binary.sound_read`, `Text.sound_read` and
  `TextPair.sound_read`: the readers of primitive values are sound.
-/

namespace Mqtt

variable {α β : Type} {P : α → Prop} {Q : β → Prop}

/-- Whether the error is about received bytes: they are malformed or too few, or they violate the
    protocol. -/
def Error.IsReceived (e : Error) : Prop :=
  e.kind.isA .malformed = true ∨ e.kind.isA .protocol = true

/-! ### Steps -/

namespace Check

/-- The step gives only values with `P`, and fails only with errors about received bytes. -/
def Sound (x : Except Error α) (P : α → Prop) : Prop :=
  match x with
  | .ok a => P a
  | .error e => e.IsReceived

/-- What a sound step fails with is about received bytes. -/
theorem Sound.isReceived {x : Except Error α} {e : Error} (hx : Sound x P) (h : x = .error e) :
    e.IsReceived := by
  rw [h] at hx
  exact hx

/-- A sound step may be asked for less. -/
theorem Sound.mono {P' : α → Prop} {x : Except Error α} (hx : Sound x P)
    (h : ∀ a, P a → P' a) : Sound x P' := by
  cases x with
  | error e => exact hx
  | ok a => exact h a hx

/-- Sound steps in a row are sound. -/
theorem Sound.bind {x : Except Error α} {f : α → Except Error β} (hx : Sound x P)
    (hf : ∀ a, P a → Sound (f a) Q) : Sound (x >>= f) Q := by
  cases x with
  | error e => exact hx
  | ok a => exact hf a hx

/-- A value that a sound step gives may be changed. -/
theorem Sound.map {x : Except Error α} {g : α → β} (hx : Sound x P) (hg : ∀ a, P a → Q (g a)) :
    Sound (x.map g) Q := by
  cases x with
  | error e => exact hx
  | ok a => exact hg a hx

/-- A test that refuses received bytes is sound. -/
theorem sound_ite {c : Prop} [Decidable c] {x y : Except Error α} (hx : c → Sound x P)
    (hy : ¬c → Sound y P) : Sound (if c then x else y) P := by
  by_cases hc : c
  · rw [if_pos hc]
    exact hx hc
  · rw [if_neg hc]
    exact hy hc

end Check

/-! ### Readers -/

namespace Reader

/-- The reader gives only values with `P`, and fails only with errors about received bytes. -/
def Sound (r : Reader α) (P : α → Prop) : Prop := ∀ s, Check.Sound (r s) fun p => P p.1

/-- A sound reader may be asked for less. -/
theorem Sound.mono {P' : α → Prop} {r : Reader α} (hr : r.Sound P) (h : ∀ a, P a → P' a) :
    r.Sound P' := fun s => (hr s).mono fun p => h p.1

/-- Sound readers in a row are sound. The second one may rely on what the first one gives. -/
theorem Sound.bind {r : Reader α} {f : α → Reader β} (hr : r.Sound P)
    (hf : ∀ a, P a → (f a).Sound Q) : (r >>= f).Sound Q :=
  fun s => Check.Sound.bind (hr s) fun p hp => hf p.1 hp p.2

/-- A value that is there already is sound. -/
theorem sound_pure {a : α} (ha : P a) : (pure a : Reader α).Sound P := fun _ => ha

/-- A sound step is sound as a reader. -/
theorem sound_lift {x : Except Error α} (hx : Check.Sound x P) : (liftM x : Reader α).Sound P :=
  fun _ => Check.Sound.bind hx fun _ ha => ha

/-- A value that a sound reader gives may be changed. -/
theorem Sound.map {r : Reader α} {g : α → β} (hr : r.Sound P) (hg : ∀ a, P a → Q (g a)) :
    (g <$> r).Sound Q :=
  fun s => Check.Sound.bind (hr s) fun p hp => hg p.1 hp

/-- Bytes are there or they are too few. -/
theorem sound_bytes (n : Nat) : (bytes n).Sound fun bs => bs.length = n := by
  intro s
  unfold bytes
  dsimp only
  apply Check.sound_ite
  · intro _
    exact Or.inl rfl
  · intro hlen
    show (s.take n).length = n
    have hle : (s.take n).length ≤ n := List.length_take_le n s
    omega

/-- All that is left is always there. -/
theorem sound_rest : rest.Sound fun _ => True := fun _ => trivial

/-- A value that may be left out at the end is sound if it is sound when it is there. -/
theorem sound_orAtEnd {default : α} {r : Reader α} (hdefault : P default) (hr : r.Sound P) :
    (orAtEnd default r).Sound P := by
  intro s
  unfold orAtEnd
  exact Check.sound_ite (fun _ => hdefault) fun _ => hr s

/-- A value that a flag announces is there exactly if the flag says so. -/
theorem sound_optional {r : Reader α} (present : Bool) (hr : r.Sound P) :
    (optional present r).Sound fun o => o.isSome = present ∧ ∀ a, o = some a → P a := by
  unfold optional
  cases present with
  | false => exact sound_pure ⟨rfl, fun _ h => nomatch h⟩
  | true =>
    refine hr.map fun a ha => ⟨rfl, fun b hb => ?_⟩
    have hab : a = b := Option.some.inj hb
    exact hab ▸ ha

/-- The values that a sound reader gives one after the other are all sound. -/
theorem sound_takeAll {r : Reader α} (hc : r.Consumes 1) (hr : r.Sound P) (s : Bytes) :
    Check.Sound (takeAll r hc s) fun as => ∀ a ∈ as, P a := by
  -- The recursion is on what a single reading leaves.
  induction s using takeAll.induct r hc with
  | case1 =>
    rw [takeAll]
    exact fun _ ha => absurd ha List.not_mem_nil
  | case2 b s e he =>
    rw [takeAll_of_error hc he]
    exact (hr (b :: s)).isReceived he
  | case3 b s a t hread _ ih =>
    have hfirst : P a := by
      have h := hr (b :: s)
      rw [hread] at h
      exact h
    rw [takeAll_of_ok hc hread]
    exact ih.map fun as has => List.forall_mem_cons.mpr ⟨hfirst, has⟩

/-- A sound reader that is repeated to the end is sound. -/
theorem sound_toEnd {r : Reader α} (hc : r.Consumes 1) (hr : r.Sound P) :
    (toEnd r hc).Sound fun as => ∀ a ∈ as, P a :=
  fun s => (sound_takeAll hc hr s).map fun _ has => has

end Reader

/-! ### Primitive values -/

/-- Integers that are read fit into their bytes. -/
theorem Integer.sound_read (size : Nat) : (read size).Sound fun n => n < 256 ^ size :=
  (Reader.sound_bytes size).bind fun bs hbs => Reader.sound_pure (hbs ▸ Bytes.value_lt bs)

/-- Binary data is there or its bytes are too few. -/
theorem Binary.sound_read : read.Sound fun _ => True :=
  (Integer.sound_read 2).bind fun n _ => (Reader.sound_bytes n).mono fun _ _ => trivial

/-- The contents of a string are a text or they are malformed. -/
theorem Text.sound_ofContents (bs : Bytes) : Check.Sound (ofContents bs) fun _ => True := by
  unfold ofContents
  split
  case h_1 => exact Or.inl rfl
  case h_2 => exact Check.sound_ite (fun _ => Or.inl rfl) fun _ => trivial

/-- A string is a text or it is malformed. -/
theorem Text.sound_read : read.Sound fun _ => True :=
  Binary.sound_read.bind fun bs _ => Reader.sound_lift (sound_ofContents bs)

/-- A pair of strings is one of texts or it is malformed. -/
theorem TextPair.sound_read : read.Sound fun _ => True :=
  Text.sound_read.bind fun _ _ => Text.sound_read.bind fun _ _ => Reader.sound_pure trivial

namespace VarInt

/-- The digits of a number end in time, or they are too many or too few. -/
theorem sound_readDigits (count : Nat) : (readDigits count).Sound fun _ => True := by
  induction count with
  | zero => exact fun _ => Or.inl rfl
  | succ count ih =>
    intro s
    cases s with
    | nil => exact Or.inl rfl
    | cons b s =>
      rw [readDigits]
      apply Check.sound_ite
      · intro _
        trivial
      · intro _
        exact (ih s).map fun _ _ => trivial

/-- A variable byte integer is a number or it is malformed. -/
theorem sound_read : read.Sound fun _ => True := sound_readDigits 4

end VarInt

end Mqtt
