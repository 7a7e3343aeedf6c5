import Mqtt.Wire.Binary

/-!
# Strings

A string is the UTF-8 form of a text, up to 65535 bytes, behind its length in two bytes. It holds no
surrogate and no U+0000. A pair of strings is one string behind the other.
-/

namespace Mqtt

namespace Text

/-- The first run of surrogates in a text. -/
def surrogateRun? (t : Text) : Option SurrogateRun :=
  let plain := t.takeWhile fun c => !c.isSurrogate
  match t.dropWhile fun c => !c.isSurrogate with
  | [] => none
  | c :: rest => some ⟨plain.length, c, 1 + (rest.takeWhile CodePoint.isSurrogate).length⟩

/-- The text as a string. -/
def emit (t : Text) : Emission :=
  match t.surrogateRun? with
  | some run => .fail (.surrogates run)
  | none =>
    if t.contains .null then .fail .nullGiven
    else
      let bs := t.utf8
      if bs.length ≤ Binary.maxLength then Integer.emit 2 bs.length ++ .done bs
      else .fail (.textTooLong bs.length)

/-- The text of the contents of a string. -/
def ofContents (bs : Bytes) : Except Error Text :=
  match Utf8.decode bs with
  | .error fault => .error (.invalidUtf8 fault)
  | .ok t => if t.contains .null then .error .nullReceived else .ok t

/-- Takes a string. -/
def read : Reader Text := do
  let contents ← Binary.read
  ofContents contents

/-- A string takes at least the two bytes of its length. -/
theorem consumes_read : read.Consumes 2 :=
  Binary.consumes_read.bind fun _ => Reader.consumes_lift _

end Text

namespace TextPair

/-- Two texts as two strings. If the second has no form, the first stays on the buffer. -/
def emit (p : Text × Text) : Emission := p.1.emit ++ p.2.emit

/-- Takes two strings. -/
def read : Reader (Text × Text) := do
  let first ← Text.read
  let second ← Text.read
  return (first, second)

/-- A pair takes at least the lengths of its two strings. -/
theorem consumes_read : read.Consumes 4 :=
  Text.consumes_read.bind fun _ => Text.consumes_read.bind fun _ => Reader.consumes_pure _

end TextPair

end Mqtt
