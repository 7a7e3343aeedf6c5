import Mqtt.Packet.Field

/-!
# CONNACK

The answer to a CONNECT. A received one may leave out its properties if it reports success; a
written one never does.
-/

namespace Mqtt

/-- The answer to a request to connect. -/
structure ConnAck where
  reasonCode : ReasonCode := .success
  sessionPresent : Bool := false
  properties : Properties := {}
  deriving DecidableEq

namespace ConnAck

/-- Whether two answers are the same, whatever the order of their properties. -/
def same (p q : ConnAck) : Bool :=
  { p with properties := {} } == { q with properties := {} } && p.properties.same q.properties

/-- Fails for a reason code that is not one of a CONNACK. -/
def check (p : ConnAck) : Except Error Unit :=
  Carrier.checkReasonCode (.packet .connack) p.reasonCode

/-- What stands behind the fixed header. -/
def emitBody (p : ConnAck) : Emission :=
  Integer.emit 1 p.sessionPresent.toNat ++ p.reasonCode.emit
    ++ p.properties.emit (.packet .connack)

/-- Fails if a reserved bit is set. -/
def checkFlags (flags : Nat) : Except Error Unit :=
  if flags < 2 then .ok () else .error .connackReservedBits

/-- Takes the properties behind a reason code. -/
def readProperties (reasonCode : ReasonCode) : Reader Properties :=
  if reasonCode = .success then Carrier.readLastProperties (.packet .connack)
  else fun s =>
    if s.isEmpty then .error (.connackWithoutProperties reasonCode)
    else Properties.read (.packet .connack) s

/-- Takes what stands behind the fixed header. -/
def readBody : Reader ConnAck := do
  let flags ← Integer.read 1
  checkFlags flags
  let reasonCode ← Carrier.readReasonCode (.packet .connack)
  let properties ← readProperties reasonCode
  let p : ConnAck := { reasonCode, sessionPresent := flags = 1, properties }
  p.check
  return p

end ConnAck

end Mqtt
