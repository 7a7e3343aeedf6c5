import Mqtt.FixedHeader
import Mqtt.Packet.Auth
import Mqtt.Packet.ConnAck
import Mqtt.Packet.Connect
import Mqtt.Packet.Disconnect
import Mqtt.Packet.Publish
import Mqtt.Packet.PublishResponse
import Mqtt.Packet.Subscribe
import Mqtt.Packet.SubscriptionAck
import Mqtt.Packet.Unsubscribe

/-!
# Control packets

`Packet` is any of the fifteen control packets. `Packet.emit` writes a whole packet, fixed header
included; `Packet.readBody` takes what stands behind the fixed header of a packet. `Packet.check`
is what a packet has to pass when it is built.

The fields hold plain values: integers of any size, texts with or without surrogates, binary data as
the bytes themselves, and lists where there may be several of a kind (topic filters, subscriptions,
reason codes). A subscription is built before the SUBSCRIBE that it is put into, and has passed its
own check by then; so `Packet.check` does not look into it again.
-/

namespace Mqtt

/-- A control packet. -/
inductive Packet where
  | connect (p : Connect)
  | connack (p : ConnAck)
  | publish (p : Publish)
  | puback (p : PublishResponse)
  | pubrec (p : PublishResponse)
  | pubrel (p : PublishResponse)
  | pubcomp (p : PublishResponse)
  | subscribe (p : Subscribe)
  | suback (p : SubscriptionAck)
  | unsubscribe (p : Unsubscribe)
  | unsuback (p : SubscriptionAck)
  | pingreq
  | pingresp
  | disconnect (p : Disconnect)
  | auth (p : Auth)
  deriving DecidableEq

namespace Packet

/-- The type of a packet. -/
def type : Packet → PacketType
  | connect _ => .connect
  | connack _ => .connack
  | publish _ => .publish
  | puback _ => .puback
  | pubrec _ => .pubrec
  | pubrel _ => .pubrel
  | pubcomp _ => .pubcomp
  | subscribe _ => .subscribe
  | suback _ => .suback
  | unsubscribe _ => .unsubscribe
  | unsuback _ => .unsuback
  | pingreq => .pingreq
  | pingresp => .pingresp
  | disconnect _ => .disconnect
  | auth _ => .auth

/-- What a packet stores as properties; a ping stores none. -/
def properties? : Packet → Option Properties
  | connect p => some p.properties
  | connack p => some p.properties
  | publish p => some p.properties
  | puback p | pubrec p | pubrel p | pubcomp p => some p.properties
  | subscribe p => some p.properties
  | suback p | unsuback p => some p.properties
  | unsubscribe p => some p.properties
  | pingreq | pingresp => none
  | disconnect p => some p.properties
  | auth p => some p.properties

/-- The packet with other properties. -/
def withProperties (q : Properties) : Packet → Packet
  | connect p => connect { p with properties := q }
  | connack p => connack { p with properties := q }
  | publish p => publish { p with properties := q }
  | puback p => puback { p with properties := q }
  | pubrec p => pubrec { p with properties := q }
  | pubrel p => pubrel { p with properties := q }
  | pubcomp p => pubcomp { p with properties := q }
  | subscribe p => subscribe { p with properties := q }
  | suback p => suback { p with properties := q }
  | unsubscribe p => unsubscribe { p with properties := q }
  | unsuback p => unsuback { p with properties := q }
  | pingreq => pingreq
  | pingresp => pingresp
  | disconnect p => disconnect { p with properties := q }
  | auth p => auth { p with properties := q }

/-- Whether two packets are the same, whatever the order of their properties. -/
def same : Packet → Packet → Bool
  | connect p, connect q => p.same q
  | connack p, connack q => p.same q
  | publish p, publish q => p.same q
  | puback p, puback q => p.same q
  | pubrec p, pubrec q => p.same q
  | pubrel p, pubrel q => p.same q
  | pubcomp p, pubcomp q => p.same q
  | subscribe p, subscribe q => p.same q
  | suback p, suback q => p.same q
  | unsubscribe p, unsubscribe q => p.same q
  | unsuback p, unsuback q => p.same q
  | pingreq, pingreq => true
  | pingresp, pingresp => true
  | disconnect p, disconnect q => p.same q
  | auth p, auth q => p.same q
  | _, _ => false

/-- Fails for a packet that may not be built: first for a field that is wrong on its own, then for
    fields that do not go together. -/
def check : Packet → Except Error Unit
  | connect _ | pingreq | pingresp => .ok ()
  | connack p => p.check
  | publish p => p.check
  | puback p => p.check (.packet .puback)
  | pubrec p => p.check (.packet .pubrec)
  | pubrel p => p.check (.packet .pubrel)
  | pubcomp p => p.check (.packet .pubcomp)
  | subscribe p => p.check
  | suback p => p.check (.packet .suback)
  | unsubscribe p => p.check
  | unsuback p => p.check (.packet .unsuback)
  | disconnect p => p.check
  | auth p => p.check

/-! ### Writing -/

/-- The flags of the fixed header. -/
def flags : Packet → Nat
  | publish p => p.flags
  | p => p.type.reservedFlags?.getD 0

/-- What stands behind the fixed header. -/
def emitBody : Packet → Emission
  | connect p => p.emitBody
  | connack p => p.emitBody
  | publish p => p.emitBody
  | puback p => p.emitBody (.packet .puback)
  | pubrec p => p.emitBody (.packet .pubrec)
  | pubrel p => p.emitBody (.packet .pubrel)
  | pubcomp p => p.emitBody (.packet .pubcomp)
  | subscribe p => p.emitBody
  | suback p => p.emitBody (.packet .suback)
  | unsubscribe p => p.emitBody
  | unsuback p => p.emitBody (.packet .unsuback)
  | pingreq | pingresp => .done []
  | disconnect p => p.emitBody
  | auth p => p.emitBody

/-- The whole packet. -/
def emit (p : Packet) : Emission :=
  p.emitBody.headed (FixedHeader.emit p.type p.flags)

/-! ### Reading -/

/-- Takes what stands behind a fixed header with this type and these flags. -/
def readBody (type : PacketType) (flags : Nat) : Reader Packet :=
  match type with
  | .connect => connect <$> Connect.readBody
  | .connack => connack <$> ConnAck.readBody
  | .publish => publish <$> Publish.readBody flags
  | .puback => puback <$> PublishResponse.readBody (.packet .puback)
  | .pubrec => pubrec <$> PublishResponse.readBody (.packet .pubrec)
  | .pubrel => pubrel <$> PublishResponse.readBody (.packet .pubrel)
  | .pubcomp => pubcomp <$> PublishResponse.readBody (.packet .pubcomp)
  | .subscribe => subscribe <$> Subscribe.readBody
  | .suback => suback <$> SubscriptionAck.readBody (.packet .suback)
  | .unsubscribe => unsubscribe <$> Unsubscribe.readBody
  | .unsuback => unsuback <$> SubscriptionAck.readBody (.packet .unsuback)
  | .pingreq => pure pingreq
  | .pingresp => pure pingresp
  | .disconnect => disconnect <$> Disconnect.readBody
  | .auth => auth <$> Auth.readBody

end Packet

end Mqtt
