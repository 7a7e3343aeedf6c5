/-!
# Numerals in messages

* `Numeral.padded` writes a number in a base, with leading zeros up to a width.
* `Numeral.code` writes a code as the messages show it: `0x05`, `0x1FF`, and `0x-1` for a code that
  a caller made up below zero.
-/

namespace Mqtt.Numeral

/-- The digits of `n` in a base up to 16, lower case, with leading zeros up to `width` digits. -/
def padded (base width n : Nat) : List Char :=
  (Nat.toDigits base n).leftpad width '0'

/-- The digits of `n` in base 16, upper case, with leading zeros up to `width` digits. -/
def paddedUpper (width n : Nat) : List Char :=
  (padded 16 width n).map Char.toUpper

/-- A code in base 16: at least two places, of which a minus sign takes one. -/
def code (n : Int) : String :=
  match n with
  | .ofNat n => String.ofList ('0' :: 'x' :: paddedUpper 2 n)
  | .negSucc n => String.ofList ('0' :: 'x' :: '-' :: paddedUpper 1 (n + 1))

/-- Four flag bits in base 2. -/
def flags (n : Nat) : String :=
  String.ofList ('0' :: 'b' :: padded 2 4 n)

example : code 5 = "0x05" := by decide +kernel

example : code 0x1FF = "0x1FF" := by decide +kernel

example : code (-1) = "0x-1" := by decide +kernel

example : code (-16) = "0x-10" := by decide +kernel

example : flags 2 = "0b0010" := by decide +kernel

end Mqtt.Numeral
