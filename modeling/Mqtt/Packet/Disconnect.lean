import Mqtt.Packet.PublishResponse

/-!
# DISCONNECT

The last packet of a connection. Reason code and properties are left out as in the responses to a
PUBLISH.
-/

namespace Mqtt

/-- The notice that a connection ends. -/
structure Disconnect where
  reasonCode : ReasonCode := .success
  properties : Properties := {}
  deriving DecidableEq

namespace Disconnect

/-- Whether two notices are the same, whatever the order of their properties. -/
def same (p q : Disconnect) : Bool :=
  p.reasonCode == q.reasonCode && p.properties.same q.properties

/-- Fails for a reason code that is not one of a DISCONNECT. -/
def check (p : Disconnect) : Except Error Unit :=
  Carrier.checkReasonCode (.packet .disconnect) p.reasonCode

/-- What stands behind the fixed header. -/
def emitBody (p : Disconnect) : Emission :=
  Carrier.emitOutcome (.packet .disconnect) p.reasonCode p.properties

/-- Takes what stands behind the fixed header. -/
def readBody : Reader Disconnect := do
  let (reasonCode, properties) ← Carrier.readOutcome (.packet .disconnect)
  let p : Disconnect := { reasonCode, properties }
  p.check
  return p

end Disconnect

end Mqtt
