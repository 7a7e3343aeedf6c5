import Mqtt.Packet.Basic
import Mqtt.Proofs.Property.Block

/-!
# The grammar of control packets

* `Packet.Body type flags` is the format of what stands behind a fixed header with this type and
  these flags. Each packet has a `Form` of its own; PUBACK, PUBREC, PUBREL and PUBCOMP share one,
  and so do SUBACK and UNSUBACK.
* `Frame` is the format of a whole packet.

Numbers between `0` and `255` stand for the bits of a byte, of which bit 0 is the lowest.
-/

namespace Mqtt

/-! ### Shared fields -/

/-- A packet identifier: two bytes that are not both 0. -/
def PacketId : Format Nat := fun w n => 0 < n ∧ Integer.Form 2 w n

/-- The byte of a reason code that the carrier may carry. -/
def Carrier.Reason (c : Carrier) : Format ReasonCode := fun w r =>
  Integer.Form 1 w r.code ∧ c.accepts r = true

/-- A reason code and properties. Properties may be left out at the end, and `success` in front of
    them too. -/
inductive Carrier.Outcome (c : Carrier) : Format (ReasonCode × Properties)
  | nothing : Outcome c [] (.success, {})
  | reason {r : Bytes} {reasonCode : ReasonCode} :
      c.Reason r reasonCode → Outcome c r (reasonCode, {})
  | full {r ps : Bytes} {reasonCode : ReasonCode} {properties : Properties} :
      c.Reason r reasonCode → c.Block ps properties → Outcome c (r ++ ps) (reasonCode, properties)

/-! ### Packets -/

/-- The will of a CONNECT with these flags. Bits 3 and 4 are its QoS, bit 5 is its retain flag. -/
inductive Will.Form (flags : Nat) : Format Will
  | intro {ps tp pl : Bytes} {properties : Properties} {topic : Text} {payload : Bytes}
      {qos : QoS} :
      Carrier.will.Block ps properties → Text.Form tp topic → Binary.Form pl payload →
      flags / 8 % 4 = qos.code →
      Form flags (ps ++ tp ++ pl)
        { topic, payload, retain := flags.testBit 5, qos, properties }

/-- CONNECT. Bit 0 of the flags is clear, bit 1 is clean start, bits 2 to 5 are about the will, and
    bits 6 and 7 announce password and username. -/
inductive Connect.Form : Format Connect
  | intro {nm vs fs ka ps ci wl un pw : Bytes} {flags keepAlive : Nat} {properties : Properties}
      {clientId : Text} {will : Option Will} {username : Option Text} {password : Option Bytes} :
      Text.Form nm (.ofChars ['M', 'Q', 'T', 'T']) → Integer.Form 1 vs 5 →
      Integer.Form 1 fs flags → flags.testBit 0 = false →
      (flags.testBit 2 = false → flags / 8 % 4 = 0 ∧ flags.testBit 5 = false) →
      Integer.Form 2 ka keepAlive → (Carrier.packet .connect).Block ps properties →
      Text.Form ci clientId → Format.Optional (Will.Form flags) (flags.testBit 2) wl will →
      Format.Optional Text.Form (flags.testBit 7) un username →
      Format.Optional Binary.Form (flags.testBit 6) pw password →
      Form (nm ++ vs ++ fs ++ ka ++ ps ++ ci ++ wl ++ un ++ pw)
        { clientId, will, username, password, cleanStart := flags.testBit 1, keepAlive, properties }

/-- CONNACK. Only a success may leave out its properties. -/
inductive ConnAck.Form : Format ConnAck
  | full {fs rc ps : Bytes} {flags : Nat} {reasonCode : ReasonCode} {properties : Properties} :
      Integer.Form 1 fs flags → flags < 2 → (Carrier.packet .connack).Reason rc reasonCode →
      (Carrier.packet .connack).Block ps properties →
      Form (fs ++ rc ++ ps) { reasonCode, sessionPresent := flags.testBit 0, properties }
  | short {fs rc : Bytes} {flags : Nat} :
      Integer.Form 1 fs flags → flags < 2 → (Carrier.packet .connack).Reason rc .success →
      Form (fs ++ rc)
        { reasonCode := .success, sessionPresent := flags.testBit 0, properties := {} }

/-- PUBLISH with these flags: bit 0 is RETAIN, bits 1 and 2 are the QoS and bit 3 is DUP. Behind the
    properties, all is payload. -/
inductive Publish.Form (flags : Nat) : Format Publish
  | intro {tp i ps payload : Bytes} {topic : Text} {qos : QoS} {packetId : Option Nat}
      {properties : Properties} :
      flags / 2 % 4 = qos.code → Text.Form tp topic →
      .ofChar '+' ∉ topic → .ofChar '#' ∉ topic →
      (topic = [] → .topicAlias ∈ properties.table.keys) →
      (qos = .atMostOnce → flags.testBit 3 = false) →
      Format.Optional PacketId (qos != .atMostOnce) i packetId →
      (Carrier.packet .publish).Block ps properties →
      Form flags (tp ++ i ++ ps ++ payload)
        { topic, payload, packetId := packetId.map Int.ofNat, retain := flags.testBit 0, qos,
          duplicate := flags.testBit 3, properties }

/-- PUBACK, PUBREC, PUBREL and PUBCOMP. -/
inductive PublishResponse.Form (c : Carrier) : Format PublishResponse
  | intro {i o : Bytes} {packetId : Nat} {reasonCode : ReasonCode} {properties : Properties} :
      PacketId i packetId → c.Outcome o (reasonCode, properties) →
      Form c (i ++ o) { packetId, reasonCode, properties }

/-- A topic filter and its options: bits 0 and 1 are the QoS, bit 2 is no local, bit 3 is retain as
    published, and bits 4 and 5 are the retain handling. -/
inductive Subscription.Form : Format Subscription
  | intro {tf os : Bytes} {pattern : Text} {options : Nat} {maxQos : QoS}
      {retainHandling : RetainHandling} :
      Text.Form tf pattern → pattern ≠ [] → Integer.Form 1 os options → options < 64 →
      options % 4 = maxQos.code → options / 16 % 4 = retainHandling.code →
      Form (tf ++ os)
        { pattern, maxQos, noLocal := options.testBit 2, retainAsPublished := options.testBit 3,
          retainHandling }

/-- SUBSCRIBE: at least one subscription. -/
inductive Subscribe.Form : Format Subscribe
  | intro {i ps ss : Bytes} {packetId : Nat} {properties : Properties}
      {subscriptions : List Subscription} :
      PacketId i packetId → (Carrier.packet .subscribe).Block ps properties →
      Format.Words Subscription.Form ss subscriptions → subscriptions ≠ [] →
      Form (i ++ ps ++ ss) { packetId, subscriptions, properties }

/-- SUBACK and UNSUBACK: any number of reason codes. -/
inductive SubscriptionAck.Form (c : Carrier) : Format SubscriptionAck
  | intro {i ps rs : Bytes} {packetId : Nat} {properties : Properties}
      {reasonCodes : List ReasonCode} :
      PacketId i packetId → c.Block ps properties → Format.Words c.Reason rs reasonCodes →
      Form c (i ++ ps ++ rs) { packetId, reasonCodes, properties }

/-- UNSUBSCRIBE: at least one topic filter. -/
inductive Unsubscribe.Form : Format Unsubscribe
  | intro {i ps ts : Bytes} {packetId : Nat} {properties : Properties} {patterns : List Text} :
      PacketId i packetId → (Carrier.packet .unsubscribe).Block ps properties →
      Format.Words Text.Form ts patterns → patterns ≠ [] →
      Form (i ++ ps ++ ts) { packetId, patterns, properties }

/-- DISCONNECT. -/
inductive Disconnect.Form : Format Disconnect
  | intro {o : Bytes} {reasonCode : ReasonCode} {properties : Properties} :
      (Carrier.packet .disconnect).Outcome o (reasonCode, properties) →
      Form o { reasonCode, properties }

/-- AUTH. The reason code is always there. -/
inductive Auth.Form : Format Auth
  | full {r ps : Bytes} {reasonCode : ReasonCode} {properties : Properties} :
      (Carrier.packet .auth).Reason r reasonCode → (Carrier.packet .auth).Block ps properties →
      Form (r ++ ps) { reasonCode, properties }
  | short {r : Bytes} {reasonCode : ReasonCode} :
      (Carrier.packet .auth).Reason r reasonCode → Form r { reasonCode, properties := {} }

/-! ### Frames -/

/-- What stands behind a fixed header with this type and these flags. Nothing stands behind that of
    a ping. -/
inductive Packet.Body : PacketType → (flags : Nat) → Format Packet
  | connect {flags : Nat} {w : Bytes} {p : Connect} :
      Connect.Form w p → Body .connect flags w (.connect p)
  | connack {flags : Nat} {w : Bytes} {p : ConnAck} :
      ConnAck.Form w p → Body .connack flags w (.connack p)
  | publish {flags : Nat} {w : Bytes} {p : Publish} :
      Publish.Form flags w p → Body .publish flags w (.publish p)
  | puback {flags : Nat} {w : Bytes} {p : PublishResponse} :
      PublishResponse.Form (.packet .puback) w p → Body .puback flags w (.puback p)
  | pubrec {flags : Nat} {w : Bytes} {p : PublishResponse} :
      PublishResponse.Form (.packet .pubrec) w p → Body .pubrec flags w (.pubrec p)
  | pubrel {flags : Nat} {w : Bytes} {p : PublishResponse} :
      PublishResponse.Form (.packet .pubrel) w p → Body .pubrel flags w (.pubrel p)
  | pubcomp {flags : Nat} {w : Bytes} {p : PublishResponse} :
      PublishResponse.Form (.packet .pubcomp) w p → Body .pubcomp flags w (.pubcomp p)
  | subscribe {flags : Nat} {w : Bytes} {p : Subscribe} :
      Subscribe.Form w p → Body .subscribe flags w (.subscribe p)
  | suback {flags : Nat} {w : Bytes} {p : SubscriptionAck} :
      SubscriptionAck.Form (.packet .suback) w p → Body .suback flags w (.suback p)
  | unsubscribe {flags : Nat} {w : Bytes} {p : Unsubscribe} :
      Unsubscribe.Form w p → Body .unsubscribe flags w (.unsubscribe p)
  | unsuback {flags : Nat} {w : Bytes} {p : SubscriptionAck} :
      SubscriptionAck.Form (.packet .unsuback) w p → Body .unsuback flags w (.unsuback p)
  | pingreq {flags : Nat} : Body .pingreq flags [] .pingreq
  | pingresp {flags : Nat} : Body .pingresp flags [] .pingresp
  | disconnect {flags : Nat} {w : Bytes} {p : Disconnect} :
      Disconnect.Form w p → Body .disconnect flags w (.disconnect p)
  | auth {flags : Nat} {w : Bytes} {p : Auth} :
      Auth.Form w p → Body .auth flags w (.auth p)

/-- The flags that a packet of this type may have: its fixed ones or, for a PUBLISH, any without
    both QoS bits. -/
def PacketType.Permits (type : PacketType) (flags : Nat) : Prop :=
  flags < 16 ∧
    match type.reservedFlags? with
    | some reserved => flags = reserved
    | none => ¬(flags.testBit 1 = true ∧ flags.testBit 2 = true)

/-- A whole packet: a byte with type and flags, the length of the body, which may be padded, and the
    body. -/
inductive Frame : Format Packet
  | intro {l body : Bytes} {type : PacketType} {flags : Nat} {p : Packet} :
      type.Permits flags → VarInt.Form l body.length → Packet.Body type flags body p →
      Frame (.ofNat (16 * type.code + flags) :: (l ++ body)) p

end Mqtt
