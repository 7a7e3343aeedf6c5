/-!
# Computations that may fail

What a computation in `Except` comes to, read off the computations that it is made of: a changed
value or failure (`map_eq_ok_iff`, `map_eq_error_iff`, `mapError_eq_ok_iff`), steps in a row
(`bind_eq_ok_iff`, `seq_eq_ok_iff`), and tests (`guard_eq_ok_iff`, `unless_eq_ok_iff`).
-/

namespace Except

variable {ε ε' α β : Type}

/-- Changing how a failure looks makes no value of it. -/
theorem mapError_eq_ok_iff {f : ε → ε'} {x : Except ε α} {a : α} :
    x.mapError f = .ok a ↔ x = .ok a := by
  cases x with
  | error e => exact iff_of_false nofun nofun
  | ok b =>
    show (Except.ok b : Except ε' α) = .ok a ↔ _
    rw [Except.ok.injEq, Except.ok.injEq]

/-- If what was made of an outcome is a success, so is the outcome. -/
theorem map_eq_ok_iff {f : α → β} {x : Except ε α} {b : β} :
    x.map f = .ok b ↔ ∃ a, x = .ok a ∧ f a = b := by
  cases x <;> simp [Except.map]

/-- Changing the value keeps a failure as it is. -/
theorem map_eq_error_iff {f : α → β} {x : Except ε α} {e : ε} :
    x.map f = .error e ↔ x = .error e := by
  cases x <;> simp [Except.map]

/-- Two steps in a row succeed exactly when the first does and then the second with its value. -/
theorem bind_eq_ok_iff {x : Except ε α} {f : α → Except ε β} {b : β} :
    (x >>= f) = .ok b ↔ ∃ a, x = .ok a ∧ f a = .ok b := by
  cases x <;> simp [bind, Except.bind]

/-- A check before a step has to pass. -/
theorem seq_eq_ok_iff {x : Except ε Unit} {y : Except ε β} {b : β} :
    (x >>= fun _ => y) = .ok b ↔ x = .ok () ∧ y = .ok b := by
  cases x <;> simp [bind, Except.bind]

/-- A value that is given only if it passes a test. -/
theorem guard_eq_ok_iff {c : Prop} [Decidable c] {a b : α} {e : ε} :
    (if c then pure a else throw e : Except ε α) = .ok b ↔ c ∧ a = b := by
  by_cases hc : c <;> simp [hc, pure, Except.pure, throw, throwThe, MonadExceptOf.throw]

/-- A test that a value must not meet. -/
theorem unless_eq_ok_iff {c : Prop} [Decidable c] {e : ε} :
    (if c then throw e else pure () : Except ε Unit) = .ok () ↔ ¬c := by
  by_cases hc : c <;> simp [hc, pure, Except.pure, throw, throwThe, MonadExceptOf.throw]

end Except
