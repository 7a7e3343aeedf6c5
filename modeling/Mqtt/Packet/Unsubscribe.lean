import Mqtt.Packet.Field

/-!
# UNSUBSCRIBE

A request to end subscriptions. It holds their topic filters as a list, and on the wire these are
strings, one behind the other. An empty filter is not refused here.
-/

namespace Mqtt

/-- A request to end subscriptions. -/
structure Unsubscribe where
  packetId : Int
  patterns : List Text
  properties : Properties := {}
  deriving DecidableEq

namespace Unsubscribe

/-- Whether two requests are the same, whatever the order of their properties. -/
def same (p q : Unsubscribe) : Bool :=
  { p with properties := {} } == { q with properties := {} } && p.properties.same q.properties

/-- Fails for a request that may not be built. -/
def check (p : Unsubscribe) : Except Error Unit := do
  checkPacketId p.packetId
  if p.patterns.isEmpty then throw .noFilters

/-- What stands behind the fixed header. -/
def emitBody (p : Unsubscribe) : Emission :=
  Integer.emit 2 p.packetId ++ p.properties.emit (.packet .unsubscribe)
    ++ .concat Text.emit p.patterns

/-- Takes what stands behind the fixed header. -/
def readBody : Reader Unsubscribe := do
  let packetId ← Integer.read 2
  let properties ← Properties.read (.packet .unsubscribe)
  let patterns ← Reader.toEnd Text.read (Text.consumes_read.mono (by decide))
  let p : Unsubscribe := { packetId, patterns, properties }
  p.check
  return p

end Unsubscribe

end Mqtt
