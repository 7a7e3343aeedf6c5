/-!
# Text

* `CodePoint` is a Unicode code point. Unlike `Char` it may be a surrogate: a program can hold a
  text with a lone surrogate in it, and the wire format has to refuse that text.
* `Text` is a sequence of code points.
-/

namespace Mqtt

/-- A Unicode code point, surrogates included. -/
structure CodePoint where
  val : Nat
  val_lt : val < 0x110000
  deriving DecidableEq

namespace CodePoint

/-- The code point of a character. -/
def ofChar (c : Char) : CodePoint where
  val := c.toNat
  val_lt := by
    have h : c.toNat.isValidChar := c.valid
    unfold Nat.isValidChar at h
    omega

/-- Surrogates are code points, but no characters: they have no form in UTF-8. -/
def isSurrogate (c : CodePoint) : Bool :=
  0xD800 ≤ c.val && c.val ≤ 0xDFFF

/-- The character of a code point; a surrogate, which has none, shows as U+FFFD. -/
def toChar (c : CodePoint) : Char :=
  if c.isSurrogate then '\uFFFD' else Char.ofNat c.val

/-- U+0000, which no string of the protocol may hold. -/
def null : CodePoint := ⟨0, by decide⟩

/-- A code point is its number. -/
@[ext] theorem ext {c d : CodePoint} (h : c.val = d.val) : c = d := by
  cases c; cases d; simp_all

end CodePoint

/-- A sequence of code points. -/
abbrev Text := List CodePoint

namespace Text

/-- The text of a list of characters. -/
def ofChars (cs : List Char) : Text := cs.map CodePoint.ofChar

/-- The text of a string. -/
def ofString (s : String) : Text := ofChars s.toList

/-- The string of a text, with U+FFFD for each surrogate. -/
def toString (t : Text) : String := String.ofList (t.map CodePoint.toChar)

/-- Whether some code point of the text is a surrogate. -/
def hasSurrogate (t : Text) : Bool := t.any CodePoint.isSurrogate

end Text

end Mqtt
