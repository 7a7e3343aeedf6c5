import Mqtt.Packet.Field

/-!
# SUBACK and UNSUBACK

The answers to SUBSCRIBE and UNSUBSCRIBE share one layout: one reason code for each topic filter of
the request, in its order.
-/

namespace Mqtt

/-- The answer to a SUBSCRIBE or an UNSUBSCRIBE. -/
structure SubscriptionAck where
  packetId : Int
  reasonCodes : List ReasonCode
  properties : Properties := {}
  deriving DecidableEq

namespace SubscriptionAck

/-- Whether two answers are the same, whatever the order of their properties. -/
def same (p q : SubscriptionAck) : Bool :=
  { p with properties := {} } == { q with properties := {} } && p.properties.same q.properties

/-- Fails for reason codes of which the carrier may not carry one. -/
def checkReasonCodes (c : Carrier) : List ReasonCode → Except Error Unit
  | [] => .ok ()
  | r :: rs => do
    c.checkReasonCode r
    checkReasonCodes c rs

/-- Fails for an answer that the carrier `c` may not be. -/
def check (c : Carrier) (p : SubscriptionAck) : Except Error Unit := do
  checkPacketId p.packetId
  checkReasonCodes c p.reasonCodes

/-- What stands behind the fixed header. -/
def emitBody (c : Carrier) (p : SubscriptionAck) : Emission :=
  Integer.emit 2 p.packetId ++ p.properties.emit c ++ .concat ReasonCode.emit p.reasonCodes

/-- Takes what stands behind the fixed header. -/
def readBody (c : Carrier) : Reader SubscriptionAck := do
  let packetId ← Integer.read 2
  let properties ← Properties.read c
  let reasonCodes ← Reader.toEnd c.readReasonCode c.consumes_readReasonCode
  let p : SubscriptionAck := { packetId, reasonCodes, properties }
  p.check c
  return p

end SubscriptionAck

end Mqtt
