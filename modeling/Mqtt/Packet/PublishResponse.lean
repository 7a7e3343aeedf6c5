import Mqtt.Packet.Field

/-!
# Responses to a PUBLISH

PUBACK, PUBREC, PUBREL and PUBCOMP share one layout: a packet identifier, then a reason code and
properties. What has its default value at the end is left out: the properties if there are none, and
then the reason code too if it is `success`.
-/

namespace Mqtt

namespace Carrier

/-- A reason code and properties, without what has its default value at the end. -/
def emitOutcome (c : Carrier) (reasonCode : ReasonCode) (properties : Properties) : Emission :=
  if properties.isEmpty then
    if reasonCode = .success then .done [] else reasonCode.emit
  else
    reasonCode.emit ++ properties.emit c

/-- Takes a reason code and properties, either of which may be left out at the end. -/
def readOutcome (c : Carrier) : Reader (ReasonCode × Properties) :=
  Reader.orAtEnd (.success, {}) do
    let reasonCode ← c.readReasonCode
    let properties ← c.readLastProperties
    return (reasonCode, properties)

end Carrier

/-- A response to a PUBLISH. -/
structure PublishResponse where
  packetId : Int
  reasonCode : ReasonCode := .success
  properties : Properties := {}
  deriving DecidableEq

namespace PublishResponse

/-- Whether two responses are the same, whatever the order of their properties. -/
def same (p q : PublishResponse) : Bool :=
  { p with properties := {} } == { q with properties := {} } && p.properties.same q.properties

/-- Fails for a response that the carrier `c` may not be. -/
def check (c : Carrier) (p : PublishResponse) : Except Error Unit := do
  checkPacketId p.packetId
  c.checkReasonCode p.reasonCode

/-- What stands behind the fixed header. -/
def emitBody (c : Carrier) (p : PublishResponse) : Emission :=
  Integer.emit 2 p.packetId ++ c.emitOutcome p.reasonCode p.properties

/-- Takes what stands behind the fixed header. -/
def readBody (c : Carrier) : Reader PublishResponse := do
  let packetId ← Integer.read 2
  let (reasonCode, properties) ← c.readOutcome
  let p : PublishResponse := { packetId, reasonCode, properties }
  p.check c
  return p

end PublishResponse

end Mqtt
