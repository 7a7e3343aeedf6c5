import Mqtt.Packet.Field

/-!
# PUBLISH

A message on a topic. The flags of the fixed header hold DUP, QoS and RETAIN; the packet identifier
is there when the QoS is above 0; the payload is all that remains of the packet.
-/

namespace Mqtt

/-- A message on a topic. -/
structure Publish where
  topic : Text
  payload : Bytes := []
  packetId : Option Int := none
  retain : Bool := false
  qos : QoS := .atMostOnce
  duplicate : Bool := false
  properties : Properties := {}
  deriving DecidableEq

namespace Publish

/-- Whether two messages are the same, whatever the order of their properties. -/
def same (p q : Publish) : Bool :=
  { p with properties := {} } == { q with properties := {} } && p.properties.same q.properties

/-! ### Checks -/

/-- Whether a code point is a wildcard of topic filters. -/
def isWildcard (c : CodePoint) : Bool := c == .ofChar '+' || c == .ofChar '#'

/-- Fails for a packet identifier out of range, if there is one. -/
def checkField (p : Publish) : Except Error Unit :=
  match p.packetId with
  | none => .ok ()
  | some n => checkPacketId n

/-- Fails if packet identifier, DUP and QoS do not go together. -/
def checkDelivery (p : Publish) : Except Error Unit :=
  match p.qos, p.packetId with
  | .atMostOnce, some _ => .error .packetIdUnexpected
  | .atMostOnce, none => if p.duplicate then .error .duplicateWithoutQos else .ok ()
  | _, none => .error .packetIdMissing
  | _, some _ => .ok ()

/-- Fails for a topic with a wildcard, and for an empty one that no alias stands for. -/
def checkTopic (p : Publish) : Except Error Unit :=
  if p.topic.any isWildcard then .error (.wildcardTopic p.topic)
  else if p.topic.isEmpty && !p.properties.table.contains .topicAlias then .error .emptyTopic
  else .ok ()

/-- Fails for a message that may not be built. -/
def check (p : Publish) : Except Error Unit := do
  p.checkField
  p.checkDelivery
  p.checkTopic

/-! ### Writing and reading -/

/-- The flags of the fixed header. -/
def flags (p : Publish) : Nat := p.retain.toNat + 2 * p.qos.code + 8 * p.duplicate.toNat

/-- What stands behind the fixed header. -/
def emitBody (p : Publish) : Emission :=
  p.topic.emit ++ .option (Integer.emit 2) p.packetId ++ p.properties.emit (.packet .publish)
    ++ .done p.payload

/-- Takes what stands behind the fixed header, of which the flags are known. -/
def readBody (flags : Nat) : Reader Publish := do
  let qos ← QoS.ofCode (flags / 2 % 4 : Nat)
  let topic ← Text.read
  let packetId ← Reader.optional (qos != .atMostOnce) (Integer.read 2)
  let properties ← Properties.read (.packet .publish)
  let payload ← Reader.rest
  let p : Publish :=
    { topic, payload, packetId := packetId.map Int.ofNat, retain := flags % 2 = 1, qos,
      duplicate := flags / 8 % 2 = 1, properties }
  p.check
  return p

end Publish

end Mqtt
