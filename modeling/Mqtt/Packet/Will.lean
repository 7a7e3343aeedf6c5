import Mqtt.Packet.Field

/-!
# The will

The message that a CONNECT leaves with the server, to be published when the connection is lost.
Its block of properties, its topic and its payload stand in the payload of the CONNECT; its QoS and
its retain flag are bits of the CONNECT flags.
-/

namespace Mqtt

/-- The will message inside a CONNECT. -/
structure Will where
  topic : Text
  payload : Bytes
  retain : Bool := false
  qos : QoS := .atMostOnce
  properties : Properties := {}
  deriving DecidableEq

namespace Will

/-- Whether two wills are the same, whatever the order of their properties. -/
def same (w v : Will) : Bool :=
  { w with properties := {} } == { v with properties := {} } && w.properties.same v.properties

/-- The bits of the CONNECT flags that belong to the will. -/
def flags (w : Will) : Nat := 4 + 8 * w.qos.code + 32 * w.retain.toNat

/-- The will in the payload of a CONNECT. -/
def emit (w : Will) : Emission :=
  w.properties.emit .will ++ w.topic.emit ++ Binary.emit w.payload

/-- Takes a will, of which the CONNECT flags are known. -/
def read (flags : Nat) : Reader Will := do
  let properties ← Properties.read .will
  let topic ← Text.read
  let payload ← Binary.read
  let qos ← QoS.ofCode (flags / 8 % 4 : Nat)
  return { topic, payload, retain := flags / 32 % 2 = 1, qos, properties }

end Will

end Mqtt
