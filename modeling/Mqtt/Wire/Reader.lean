import Mqtt.Error
import Mqtt.Except

/-!
# Readers

A `Reader` takes a value off the front of the bytes and leaves the rest, or fails.

* `Reader.bytes` takes a number of bytes; all other readers are built from it and `VarInt.read`.
* `Reader.orAtEnd` and `Reader.optional` are for values that may be left out.
* `Reader.Consumes r k` says that `r` takes at least `k` bytes.
* `Reader.toEnd` repeats a reader that takes bytes each time until none is left.
-/

namespace Mqtt

/-- Takes a value off the front of the bytes and leaves the rest, or fails. -/
abbrev Reader := StateT Bytes (Except Error)

namespace Reader

variable {α β : Type}

/-- Takes the next `n` bytes. -/
def bytes (n : Nat) : Reader Bytes := fun s =>
  let front := s.take n
  if front.length < n then .error .insufficientData else .ok (front, s.drop n)

/-- Takes all bytes that are left. -/
def rest : Reader Bytes := fun s => .ok (s, [])

/-- Takes a value if bytes are left, and else gives a default. -/
def orAtEnd (default : α) (r : Reader α) : Reader α := fun s =>
  if s.isEmpty then .ok (default, s) else r s

/-- Takes a value if a flag says that there is one. -/
def optional (present : Bool) (r : Reader α) : Reader (Option α) :=
  if present then some <$> r else pure none

/-- The reader takes at least `k` bytes whenever it succeeds. -/
def Consumes (r : Reader α) (k : Nat) : Prop :=
  ∀ ⦃s a t⦄, r s = .ok (a, t) → t.length + k ≤ s.length

/-- The values that a reader takes one after the other until no byte is left. -/
def takeAll (r : Reader α) (hr : r.Consumes 1) : Bytes → Except Error (List α)
  | [] => .ok []
  | b :: s =>
    match h : r (b :: s) with
    | .error e => .error e
    | .ok (a, t) =>
      have : t.length < s.length + 1 := hr h
      (takeAll r hr t).map (a :: ·)
  termination_by s => s.length

/-- Repeats a reader until no byte is left. -/
def toEnd (r : Reader α) (hr : r.Consumes 1) : Reader (List α) := fun s =>
  (takeAll r hr s).map (·, [])

/-! ### How much a reader takes -/

/-- Two readers in a row succeed when the first does and then the second on the rest. -/
theorem bind_eq_ok {r : Reader α} {f : α → Reader β} {s t : Bytes} {b : β}
    (h : (r >>= f) s = .ok (b, t)) : ∃ a u, r s = .ok (a, u) ∧ f a u = .ok (b, t) := by
  change (r s >>= fun p => f p.1 p.2) = _ at h
  obtain ⟨⟨a, u⟩, hr, hf⟩ := Except.bind_eq_ok_iff.mp h
  exact ⟨a, u, hr, hf⟩

/-- Two readers in a row take what both take. -/
theorem Consumes.bind {r : Reader α} {f : α → Reader β} {j k : Nat} (hr : r.Consumes j)
    (hf : ∀ a, (f a).Consumes k) : (r >>= f).Consumes (j + k) := by
  intro s b t h
  obtain ⟨a, u, hra, hfa⟩ := bind_eq_ok h
  have h₁ := hr hra
  have h₂ := hf a hfa
  omega

/-- A bound may be lowered. -/
theorem Consumes.mono {r : Reader α} {j k : Nat} (hr : r.Consumes k) (hjk : j ≤ k) :
    r.Consumes j := by
  intro s a t h
  have := hr h
  omega

/-- A value that is there already takes nothing. -/
theorem consumes_pure (a : α) : (pure a : Reader α).Consumes 0 := by
  intro s b t h
  cases h
  exact Nat.le_refl _

/-- A check takes nothing. -/
theorem consumes_lift (x : Except Error α) : (liftM x : Reader α).Consumes 0 := by
  intro s b t h
  match x with
  | .error e => cases h
  | .ok a => cases h; exact Nat.le_refl _

/-- Taking bytes takes as many as asked for. -/
theorem consumes_bytes (n : Nat) : (bytes n).Consumes n := by
  intro s a t h
  unfold bytes at h
  simp only [List.length_take] at h
  split at h
  · cases h
  · cases h
    simp only [List.length_drop]
    omega

end Reader

end Mqtt
