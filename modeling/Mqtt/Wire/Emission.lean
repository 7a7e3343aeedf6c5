import Mqtt.Error

/-!
# Emissions

An `Emission` is what an encoder puts on the end of a buffer: bytes, and after them possibly a
failure. `e₁ ++ e₂` emits `e₁` and then, unless that failed, `e₂`; so a failure may leave bytes
behind. `Emission.headed` collects the bytes first and puts a header before them, so that a failure
leaves none of them behind.
-/

namespace Mqtt

/-- What an encoder puts on the end of a buffer. -/
inductive Emission where
  /-- The bytes, all of them. -/
  | done (bs : Bytes)
  /-- The bytes up to a failure. -/
  | failed (bs : Bytes) (e : Error)
  deriving DecidableEq

namespace Emission

/-- The bytes that are left on the buffer, after a failure too. -/
def bytes : Emission → Bytes
  | done bs => bs
  | failed bs _ => bs

/-- The failure, if there is one. -/
def error? : Emission → Option Error
  | done _ => none
  | failed _ e => some e

/-- The bytes, or the failure. -/
def result : Emission → Except Error Bytes
  | done bs => .ok bs
  | failed _ e => .error e

/-- The buffer after the emission. -/
def onto (e : Emission) (buffer : Bytes) : Bytes := buffer ++ e.bytes

/-- One emission and then, unless it failed, another. -/
protected def append : Emission → Emission → Emission
  | done bs, done bs' => done (bs ++ bs')
  | done bs, failed bs' e => failed (bs ++ bs') e
  | failed bs e, _ => failed bs e

instance : Append Emission := ⟨Emission.append⟩

/-- What the values emit, one after the other, up to the first failure. -/
def concat {α : Type} (f : α → Emission) (xs : List α) : Emission :=
  xs.foldr (fun x e => f x ++ e) (done [])

/-- What a value emits, if there is one. -/
def option {α : Type} (f : α → Emission) : Option α → Emission
  | none => done []
  | some x => f x

/-- A failure that leaves nothing behind. -/
abbrev fail (e : Error) : Emission := failed [] e

/-- The bytes behind a header that is emitted for their number. After a failure, the bytes that
    were to come behind the header are not on the buffer. -/
def headed (header : Nat → Emission) : Emission → Emission
  | done bs => header bs.length ++ done bs
  | failed _ e => fail e

/-! ### Small laws -/

/-- Complete emissions join their bytes. -/
@[simp] theorem done_append_done (bs bs' : Bytes) : done bs ++ done bs' = done (bs ++ bs') := rfl

/-- A failure keeps the bytes of the emissions before it. -/
@[simp] theorem done_append_failed (bs bs' : Bytes) (e : Error) :
    done bs ++ failed bs' e = failed (bs ++ bs') e := rfl

/-- Nothing is emitted after a failure. -/
@[simp] theorem failed_append (bs : Bytes) (e : Error) (m : Emission) :
    failed bs e ++ m = failed bs e := rfl

/-- An empty emission changes nothing on the left. -/
@[simp] theorem nil_append (m : Emission) : done [] ++ m = m := by
  cases m <;> rfl

/-- An empty emission changes nothing on the right. -/
@[simp] theorem append_nil (m : Emission) : m ++ done [] = m := by
  cases m <;> simp

/-- Emissions in a row may be grouped at will. -/
protected theorem append_assoc (l m n : Emission) : l ++ m ++ n = l ++ (m ++ n) := by
  cases l <;> cases m <;> cases n <;> simp

/-- Two emissions in a row are complete when both are. -/
theorem append_eq_done {m n : Emission} {w : Bytes} :
    m ++ n = done w ↔ ∃ u v, m = done u ∧ n = done v ∧ w = u ++ v := by
  cases m <;> cases n <;> simp [eq_comm]

/-- No values emit nothing. -/
@[simp] theorem concat_nil {α : Type} (f : α → Emission) : concat f [] = done [] := rfl

/-- The first value emits first. -/
@[simp] theorem concat_cons {α : Type} (f : α → Emission) (x : α) (xs : List α) :
    concat f (x :: xs) = f x ++ concat f xs := rfl

/-- The values of two lists emit one list after the other. -/
theorem concat_append {α : Type} (f : α → Emission) (xs ys : List α) :
    concat f (xs ++ ys) = concat f xs ++ concat f ys := by
  induction xs with
  | nil => simp
  | cons x xs ih => simp [ih, Emission.append_assoc]

/-- A headed emission is complete when the bytes and the header for their number are. -/
theorem headed_eq_done {header : Nat → Emission} {m : Emission} {w : Bytes} :
    m.headed header = done w ↔ ∃ u v, m = done v ∧ header v.length = done u ∧ w = u ++ v := by
  cases m with
  | failed bs e => simp [headed]
  | done bs =>
    simp only [headed, append_eq_done, done.injEq]
    constructor
    · rintro ⟨u, v, hu, rfl, rfl⟩
      exact ⟨u, bs, rfl, hu, rfl⟩
    · rintro ⟨u, v, rfl, hu, rfl⟩
      exact ⟨u, bs, hu, rfl, rfl⟩

end Emission

end Mqtt
