import Mqtt.Bytes
import Mqtt.Text.Numeral
import Mqtt.Text.Printable

/-!
# Quoted text

How messages show a text (`Text.quoted`) or a run of bytes (`Bytes.quoted`, after the letter `b`):
between quotes, on one line, with an escape for each code point that does not show as itself.
The quote is the single one, unless that would have to be escaped and the double one would not.
-/

namespace Mqtt

namespace Quoted

/-- The quote to write a text between. -/
def mark (t : Text) : Char :=
  if t.any (·.val == '\''.toNat) && !t.any (·.val == '"'.toNat) then '"' else '\''

/-- One code point inside the quotes: as itself, behind a backslash, or by its number in as few of
    two, four or eight digits as hold it. -/
def escape (quote : Char) (plain : CodePoint → Bool) (c : CodePoint) : List Char :=
  if c.val = quote.toNat ∨ c.val = '\\'.toNat then ['\\', c.toChar]
  else if c.val = '\t'.toNat then ['\\', 't']
  else if c.val = '\n'.toNat then ['\\', 'n']
  else if c.val = '\r'.toNat then ['\\', 'r']
  else if plain c then [c.toChar]
  else if c.val < 0x100 then '\\' :: 'x' :: Numeral.padded 16 2 c.val
  else if c.val < 0x10000 then '\\' :: 'u' :: Numeral.padded 16 4 c.val
  else '\\' :: 'U' :: Numeral.padded 16 8 c.val

/-- A text between quotes, where the code points that are `plain` show as themselves. -/
def encode (plain : CodePoint → Bool) (t : Text) : List Char :=
  let quote := mark t
  quote :: t.flatMap (escape quote plain) ++ [quote]

end Quoted

/-- A text between quotes: all that is printable shows as itself. -/
def Text.quoted (t : Text) : String :=
  String.ofList (Quoted.encode CodePoint.isPrintable t)

/-- The code point with the number of a byte. -/
def CodePoint.ofByte (b : UInt8) : CodePoint :=
  ⟨b.toNat, Nat.lt_trans b.toNat_lt (by decide)⟩

/-- Bytes between quotes: the bytes from the space to the tilde show as themselves. -/
def Bytes.quoted (bs : Bytes) : String :=
  let plain (c : CodePoint) : Bool := 0x20 ≤ c.val && c.val ≤ 0x7E
  String.ofList ('b' :: Quoted.encode plain (bs.map CodePoint.ofByte))

example : (Text.ofString "it's").quoted = "\"it's\"" := by decide +kernel

example : (Text.ofString "a\n\\é\u00a0").quoted = "'a\\n\\\\é\\xa0'" := by decide +kernel

example : Bytes.quoted [0x61, 0x00, 0xFF, 0x27, 0x22] = "b'a\\x00\\xff\\'\"'" := by decide +kernel

end Mqtt
