import Mqtt.Wire.Integer

/-!
# Binary data

Up to 65535 bytes, behind their number in two bytes.
-/

namespace Mqtt.Binary

/-- The most bytes that a length in two bytes can announce. -/
def maxLength : Nat := 65535

/-- The bytes behind their number. -/
def emit (bs : Bytes) : Emission :=
  if bs.length ≤ maxLength then Integer.emit 2 bs.length ++ .done bs
  else .fail (.binaryTooLong bs.length)

/-- Takes bytes that stand behind their number. -/
def read : Reader Bytes := do
  let length ← Integer.read 2
  Reader.bytes length

/-- Binary data takes at least the two bytes of its length. -/
theorem consumes_read : read.Consumes 2 :=
  (Integer.consumes_read 2).bind fun _ => (Reader.consumes_bytes _).mono (Nat.zero_le _)

end Mqtt.Binary
