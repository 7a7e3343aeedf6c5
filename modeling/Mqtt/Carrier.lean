import Mqtt.PacketType
import Mqtt.Property.Kind
import Mqtt.ReasonCode

/-!
# Carriers

A `Carrier` is something that carries properties or a reason code: a control packet, the will inside
a CONNECT, or one of the two bare layouts that other carriers share. The tables here say which
properties and which reason codes each may carry, and which properties more than once.
-/

namespace Mqtt

/-- Something that carries properties or a reason code. -/
inductive Carrier where
  /-- A control packet. -/
  | packet (type : PacketType)
  /-- The will message inside a CONNECT. -/
  | will
  /-- The layout that PUBACK, PUBREC, PUBREL and PUBCOMP share. -/
  | response
  /-- A property block and nothing else. -/
  | bare
  deriving DecidableEq

namespace Carrier

/-- The name that messages use. -/
def name : Carrier → String
  | .packet .connect => "MQTTConnectPacket"
  | .packet .connack => "MQTTConnAckPacket"
  | .packet .publish => "MQTTPublishPacket"
  | .packet .puback => "MQTTPublishAckPacket"
  | .packet .pubrec => "MQTTPublishReceivePacket"
  | .packet .pubrel => "MQTTPublishReleasePacket"
  | .packet .pubcomp => "MQTTPublishCompletePacket"
  | .packet .subscribe => "MQTTSubscribePacket"
  | .packet .suback => "MQTTSubscribeAckPacket"
  | .packet .unsubscribe => "MQTTUnsubscribePacket"
  | .packet .unsuback => "MQTTUnsubscribeAckPacket"
  | .packet .pingreq => "MQTTPingRequestPacket"
  | .packet .pingresp => "MQTTPingResponsePacket"
  | .packet .disconnect => "MQTTDisconnectPacket"
  | .packet .auth => "MQTTAuthPacket"
  | .will => "Will"
  | .response => "MQTTPublishResponsePacket"
  | .bare => "PropertiesMixin"

/-- Whether the carrier has a property block at all. -/
def hasProperties : Carrier → Bool
  | .packet .pingreq | .packet .pingresp => false
  | _ => true

/-- The properties that the carrier may carry. -/
def allowed : Carrier → List PropertyKind
  | .packet .connect =>
    [.sessionExpiryInterval, .authenticationMethod, .authenticationData, .requestProblemInformation,
     .requestResponseInformation, .receiveMaximum, .topicAliasMaximum, .userProperty,
     .maximumPacketSize]
  | .packet .connack =>
    [.sessionExpiryInterval, .assignedClientIdentifier, .serverKeepAlive, .authenticationMethod,
     .authenticationData, .responseInformation, .serverReference, .reasonString, .receiveMaximum,
     .topicAliasMaximum, .maximumQos, .retainAvailable, .userProperty, .maximumPacketSize,
     .wildcardSubscriptionAvailable, .subscriptionIdentifierAvailable, .sharedSubscriptionAvailable]
  | .packet .publish =>
    [.payloadFormatIndicator, .messageExpiryInterval, .contentType, .responseTopic,
     .correlationData, .subscriptionIdentifier, .topicAlias, .userProperty]
  | .packet .subscribe =>
    [.subscriptionIdentifier, .userProperty]
  | .packet .puback | .packet .pubrec | .packet .pubrel | .packet .pubcomp
  | .packet .suback | .packet .unsuback | .response =>
    [.reasonString, .userProperty]
  | .packet .unsubscribe =>
    [.userProperty]
  | .packet .disconnect =>
    [.sessionExpiryInterval, .serverReference, .reasonString, .userProperty]
  | .packet .auth =>
    [.authenticationMethod, .authenticationData, .reasonString, .userProperty]
  | .will =>
    [.payloadFormatIndicator, .messageExpiryInterval, .contentType, .responseTopic,
     .correlationData, .willDelayInterval, .userProperty]
  | .packet .pingreq | .packet .pingresp | .bare =>
    []

/-- The properties that the carrier may carry more than once. -/
def repeatable : Carrier → List PropertyKind
  | .packet .publish => [.subscriptionIdentifier, .userProperty]
  | _ => [.userProperty]

/-- The reason codes that the carrier may carry; none where it has no reason code. -/
def reasonCodes : Carrier → List ReasonCode
  | .packet .connack =>
    [.success, .unspecifiedError, .malformedPacket, .protocolError, .implementationSpecificError,
     .unsupportedProtocolVersion, .clientIdentifierNotValid, .badUsernameOrPassword, .notAuthorized,
     .serverUnavailable, .serverBusy, .banned, .badAuthenticationMethod, .topicNameInvalid,
     .packetTooLarge, .quotaExceeded, .payloadFormatInvalid, .retainNotSupported, .qosNotSupported,
     .useAnotherServer, .serverMoved, .connectionRateExceeded]
  | .packet .puback | .packet .pubrec =>
    [.success, .noMatchingSubscribers, .unspecifiedError, .implementationSpecificError,
     .notAuthorized, .topicNameInvalid, .packetIdentifierInUse, .quotaExceeded,
     .payloadFormatInvalid]
  | .packet .pubrel | .packet .pubcomp =>
    [.success, .packetIdentifierNotFound]
  | .packet .suback =>
    [.success, .grantedQos1, .grantedQos2, .unspecifiedError, .implementationSpecificError,
     .notAuthorized, .topicFilterInvalid, .packetIdentifierInUse, .quotaExceeded,
     .sharedSubscriptionsNotSupported, .subscriptionIdentifiersNotSupported,
     .wildcardSubscriptionsNotSupported]
  | .packet .unsuback =>
    [.success, .noSubscriptionExisted, .unspecifiedError, .implementationSpecificError,
     .notAuthorized, .topicFilterInvalid, .packetIdentifierInUse]
  | .packet .disconnect =>
    [.success, .disconnectWithWillMessage, .unspecifiedError, .malformedPacket, .protocolError,
     .implementationSpecificError, .notAuthorized, .serverBusy, .serverShuttingDown,
     .keepAliveTimeout, .sessionTakenOver, .topicFilterInvalid, .topicNameInvalid,
     .receiveMaximumExceeded, .topicAliasInvalid, .packetTooLarge, .messageRateTooHigh,
     .quotaExceeded, .administrativeAction, .payloadFormatInvalid, .retainNotSupported,
     .qosNotSupported, .useAnotherServer, .serverMoved, .sharedSubscriptionsNotSupported,
     .connectionRateExceeded, .maximumConnectTime, .subscriptionIdentifiersNotSupported,
     .wildcardSubscriptionsNotSupported]
  | .packet .auth =>
    [.success, .continueAuthentication, .reauthenticate]
  | .response =>
    [.success]
  | _ =>
    []

/-- Whether the carrier may carry a property. -/
def allows (c : Carrier) (k : PropertyKind) : Bool := c.allowed.contains k

/-- Whether the carrier may carry a property more than once. -/
def repeats (c : Carrier) (k : PropertyKind) : Bool := c.repeatable.contains k

/-- Whether the carrier may carry a reason code. -/
def accepts (c : Carrier) (r : ReasonCode) : Bool := c.reasonCodes.contains r

end Carrier

end Mqtt
