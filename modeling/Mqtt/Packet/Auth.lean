import Mqtt.Packet.Field

/-!
# AUTH

A step of an authentication exchange. The reason code has to be there; a received packet may leave
out its properties, a written one never does.
-/

namespace Mqtt

/-- A step of an authentication exchange. -/
structure Auth where
  reasonCode : ReasonCode
  properties : Properties := {}
  deriving DecidableEq

namespace Auth

/-- Whether two steps are the same, whatever the order of their properties. -/
def same (p q : Auth) : Bool :=
  p.reasonCode == q.reasonCode && p.properties.same q.properties

/-- Fails for a reason code that is not one of an AUTH. -/
def check (p : Auth) : Except Error Unit :=
  Carrier.checkReasonCode (.packet .auth) p.reasonCode

/-- What stands behind the fixed header. -/
def emitBody (p : Auth) : Emission :=
  p.reasonCode.emit ++ p.properties.emit (.packet .auth)

/-- Takes the reason code. -/
def readReasonCode : Reader ReasonCode := fun s =>
  if s.isEmpty then .error .authWithoutReasonCode
  else Carrier.readReasonCode (.packet .auth) s

/-- Takes what stands behind the fixed header. -/
def readBody : Reader Auth := do
  let reasonCode ← readReasonCode
  let properties ← Carrier.readLastProperties (.packet .auth)
  let p : Auth := { reasonCode, properties }
  p.check
  return p

end Auth

end Mqtt
