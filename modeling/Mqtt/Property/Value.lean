import Mqtt.Text.Quoted

/-!
# Property values

* `Scalar` is a single value: a number, a flag, a string, binary data or a pair of strings.
* `PropertyValue` is what a packet stores under a property: one scalar, or a list of them.

A number may be any integer, and binary data is a sequence of bytes, of which the length is their
number. What does not fit the wire is refused when it is written, not here.

A flag is a number too, 0 or 1. `normal` writes it as one; `same` compares values by that form.
-/

namespace Mqtt

/-- A single value. -/
inductive Scalar where
  | number (n : Int)
  | flag (b : Bool)
  | text (t : Text)
  | binary (bs : Bytes)
  | pair (key value : Text)
  deriving DecidableEq

namespace Scalar

/-- The value as a number: a flag is 0 or 1. -/
def number? : Scalar → Option Int
  | number n => some n
  | flag b => some b.toInt
  | _ => none

/-- The value as a pair of strings. -/
def pair? : Scalar → Option (Text × Text)
  | pair k v => some (k, v)
  | _ => none

/-- The value with a flag written as a number. -/
def normal : Scalar → Scalar
  | flag b => number b.toInt
  | s => s

/-- How messages show the value. -/
def render : Scalar → String
  | number n => toString n
  | flag b => if b then "True" else "False"
  | text t => t.quoted
  | binary bs => Bytes.quoted bs
  | pair k v => "(" ++ k.quoted ++ ", " ++ v.quoted ++ ")"

/-- The form without flags has no flags left. -/
@[simp] theorem normal_normal (s : Scalar) : s.normal.normal = s.normal := by
  cases s <;> rfl

/-- A flag and the number it stands for are the same number. -/
@[simp] theorem number?_normal (s : Scalar) : s.normal.number? = s.number? := by
  cases s <;> rfl

end Scalar

/-- What a packet stores under a property. -/
inductive PropertyValue where
  | one (s : Scalar)
  | many (ss : List Scalar)
  deriving DecidableEq

namespace PropertyValue

/-- The single values, in order. -/
def scalars : PropertyValue → List Scalar
  | one s => [s]
  | many ss => ss

/-- The value as a number; a list is none. -/
def number? : PropertyValue → Option Int
  | one s => s.number?
  | many _ => none

/-- The value with flags written as numbers. -/
def normal : PropertyValue → PropertyValue
  | one s => one s.normal
  | many ss => many (ss.map Scalar.normal)

/-- Whether two values are the same, flags being numbers. -/
def same (v w : PropertyValue) : Bool := v.normal == w.normal

/-- How messages show the value. -/
def render : PropertyValue → String
  | one s => s.render
  | many ss => "[" ++ ", ".intercalate (ss.map Scalar.render) ++ "]"

/-- The form without flags has no flags left. -/
@[simp] theorem normal_normal (v : PropertyValue) : v.normal.normal = v.normal := by
  cases v <;> simp [normal, Function.comp_def]

/-- Values are the same when their forms without flags are equal. -/
theorem same_iff {v w : PropertyValue} : v.same w = true ↔ v.normal = w.normal := by
  simp [same]

end PropertyValue

end Mqtt
