import Mqtt.Codec

/-!
# Sending into a buffer

An `Outbox` is a destination of a fixed size that packets are written into, one behind the other.
A packet that cannot be written leaves the outbox as it was.
-/

namespace Mqtt

/-- A destination of a fixed size, and how far it is filled. -/
structure Outbox where
  destination : Bytes
  offset : Nat := 0
  deriving DecidableEq

namespace Outbox

/-- Writes a packet behind those already written. -/
def put (limit : Option Int) (o : Outbox) (p : Packet) : Except Error (Outbox × Encoded) :=
  match encode limit p (o.destination.drop o.offset) with
  | .error e => .error e
  | .ok e =>
    .ok ({ destination := o.destination.take o.offset ++ e.destination,
           offset := o.offset + e.size }, e)

/-- Writes the packets that can be written, in order, and says of each what came of it. -/
def putAll (limit : Option Int) (o : Outbox) : List Packet → Outbox × List (Except Error Nat)
  | [] => (o, [])
  | p :: ps =>
    match o.put limit p with
    | .error e =>
      let (o', results) := o.putAll limit ps
      (o', .error e :: results)
    | .ok (o', e) =>
      let (o'', results) := o'.putAll limit ps
      (o'', .ok e.size :: results)

end Outbox

end Mqtt
