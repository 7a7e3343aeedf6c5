/-!
# Reason codes

The reason codes of acknowledgements, of DISCONNECT and of AUTH. Code 0 is `success` everywhere,
also where it reports a normal disconnection or a subscription granted with QoS 0.
-/

namespace Mqtt

/-- A reason code. -/
inductive ReasonCode where
  | success
  | grantedQos1
  | grantedQos2
  | disconnectWithWillMessage
  | noMatchingSubscribers
  | noSubscriptionExisted
  | continueAuthentication
  | reauthenticate
  | unspecifiedError
  | malformedPacket
  | protocolError
  | implementationSpecificError
  | unsupportedProtocolVersion
  | clientIdentifierNotValid
  | badUsernameOrPassword
  | notAuthorized
  | serverUnavailable
  | serverBusy
  | banned
  | serverShuttingDown
  | badAuthenticationMethod
  | keepAliveTimeout
  | sessionTakenOver
  | topicFilterInvalid
  | topicNameInvalid
  | packetIdentifierInUse
  | packetIdentifierNotFound
  | receiveMaximumExceeded
  | topicAliasInvalid
  | packetTooLarge
  | messageRateTooHigh
  | quotaExceeded
  | administrativeAction
  | payloadFormatInvalid
  | retainNotSupported
  | qosNotSupported
  | useAnotherServer
  | serverMoved
  | sharedSubscriptionsNotSupported
  | connectionRateExceeded
  | maximumConnectTime
  | subscriptionIdentifiersNotSupported
  | wildcardSubscriptionsNotSupported
  deriving DecidableEq

namespace ReasonCode

/-- All reason codes, by ascending code. -/
def all : List ReasonCode :=
  [.success, .grantedQos1, .grantedQos2, .disconnectWithWillMessage, .noMatchingSubscribers,
   .noSubscriptionExisted, .continueAuthentication, .reauthenticate, .unspecifiedError,
   .malformedPacket, .protocolError, .implementationSpecificError, .unsupportedProtocolVersion,
   .clientIdentifierNotValid, .badUsernameOrPassword, .notAuthorized, .serverUnavailable,
   .serverBusy, .banned, .serverShuttingDown, .badAuthenticationMethod, .keepAliveTimeout,
   .sessionTakenOver, .topicFilterInvalid, .topicNameInvalid, .packetIdentifierInUse,
   .packetIdentifierNotFound, .receiveMaximumExceeded, .topicAliasInvalid, .packetTooLarge,
   .messageRateTooHigh, .quotaExceeded, .administrativeAction, .payloadFormatInvalid,
   .retainNotSupported, .qosNotSupported, .useAnotherServer, .serverMoved,
   .sharedSubscriptionsNotSupported, .connectionRateExceeded, .maximumConnectTime,
   .subscriptionIdentifiersNotSupported, .wildcardSubscriptionsNotSupported]

/-- The byte that stands for a reason code. -/
def code : ReasonCode → Nat
  | .success => 0x00
  | .grantedQos1 => 0x01
  | .grantedQos2 => 0x02
  | .disconnectWithWillMessage => 0x04
  | .noMatchingSubscribers => 0x10
  | .noSubscriptionExisted => 0x11
  | .continueAuthentication => 0x18
  | .reauthenticate => 0x19
  | .unspecifiedError => 0x80
  | .malformedPacket => 0x81
  | .protocolError => 0x82
  | .implementationSpecificError => 0x83
  | .unsupportedProtocolVersion => 0x84
  | .clientIdentifierNotValid => 0x85
  | .badUsernameOrPassword => 0x86
  | .notAuthorized => 0x87
  | .serverUnavailable => 0x88
  | .serverBusy => 0x89
  | .banned => 0x8A
  | .serverShuttingDown => 0x8B
  | .badAuthenticationMethod => 0x8C
  | .keepAliveTimeout => 0x8D
  | .sessionTakenOver => 0x8E
  | .topicFilterInvalid => 0x8F
  | .topicNameInvalid => 0x90
  | .packetIdentifierInUse => 0x91
  | .packetIdentifierNotFound => 0x92
  | .receiveMaximumExceeded => 0x93
  | .topicAliasInvalid => 0x94
  | .packetTooLarge => 0x95
  | .messageRateTooHigh => 0x96
  | .quotaExceeded => 0x97
  | .administrativeAction => 0x98
  | .payloadFormatInvalid => 0x99
  | .retainNotSupported => 0x9A
  | .qosNotSupported => 0x9B
  | .useAnotherServer => 0x9C
  | .serverMoved => 0x9D
  | .sharedSubscriptionsNotSupported => 0x9E
  | .connectionRateExceeded => 0x9F
  | .maximumConnectTime => 0xA0
  | .subscriptionIdentifiersNotSupported => 0xA1
  | .wildcardSubscriptionsNotSupported => 0xA2

/-- The name of a reason code. -/
def name : ReasonCode → String
  | .success => "SUCCESS"
  | .grantedQos1 => "GRANTED_QOS_1"
  | .grantedQos2 => "GRANTED_QOS_2"
  | .disconnectWithWillMessage => "DISCONNECT_WITH_WILL_MESSAGE"
  | .noMatchingSubscribers => "NO_MATCHING_SUBSCRIBERS"
  | .noSubscriptionExisted => "NO_SUBSCRIPTION_EXISTED"
  | .continueAuthentication => "CONTINUE_AUTHENTICATION"
  | .reauthenticate => "REAUTHENTICATE"
  | .unspecifiedError => "UNSPECIFIED_ERROR"
  | .malformedPacket => "MALFORMED_PACKET"
  | .protocolError => "PROTOCOL_ERROR"
  | .implementationSpecificError => "IMPLEMENTATION_SPECIFIC_ERROR"
  | .unsupportedProtocolVersion => "UNSUPPORTED_PROTOCOL_VERSION"
  | .clientIdentifierNotValid => "CLIENT_IDENTIFIER_NOT_VALID"
  | .badUsernameOrPassword => "BAD_USERNAME_OR_PASSWORD"
  | .notAuthorized => "NOT_AUTHORIZED"
  | .serverUnavailable => "SERVER_UNAVAILABLE"
  | .serverBusy => "SERVER_BUSY"
  | .banned => "BANNED"
  | .serverShuttingDown => "SERVER_SHUTTING_DOWN"
  | .badAuthenticationMethod => "BAD_AUTHENTICATION_METHOD"
  | .keepAliveTimeout => "KEEP_ALIVE_TIMEOUT"
  | .sessionTakenOver => "SESSION_TAKEN_OVER"
  | .topicFilterInvalid => "TOPIC_FILTER_INVALID"
  | .topicNameInvalid => "TOPIC_NAME_INVALID"
  | .packetIdentifierInUse => "PACKET_IDENTIFIER_IN_USE"
  | .packetIdentifierNotFound => "PACKET_IDENTIFIER_NOT_FOUND"
  | .receiveMaximumExceeded => "RECEIVE_MAXIMUM_EXCEEDED"
  | .topicAliasInvalid => "TOPIC_ALIAS_INVALID"
  | .packetTooLarge => "PACKET_TOO_LARGE"
  | .messageRateTooHigh => "MESSAGE_RATE_TOO_HIGH"
  | .quotaExceeded => "QUOTA_EXCEEDED"
  | .administrativeAction => "ADMINISTRATIVE_ACTION"
  | .payloadFormatInvalid => "PAYLOAD_FORMAT_INVALID"
  | .retainNotSupported => "RETAIN_NOT_SUPPORTED"
  | .qosNotSupported => "QOS_NOT_SUPPORTED"
  | .useAnotherServer => "USE_ANOTHER_SERVER"
  | .serverMoved => "SERVER_MOVED"
  | .sharedSubscriptionsNotSupported => "SHARED_SUBSCRIPTIONS_NOT_SUPPORTED"
  | .connectionRateExceeded => "CONNECTION_RATE_EXCEEDED"
  | .maximumConnectTime => "MAXIMUM_CONNECT_TIME"
  | .subscriptionIdentifiersNotSupported => "SUBSCRIPTION_IDENTIFIERS_NOT_SUPPORTED"
  | .wildcardSubscriptionsNotSupported => "WILDCARD_SUBSCRIPTIONS_NOT_SUPPORTED"

/-- The reason code with a number. -/
def ofCode? (n : Int) : Option ReasonCode := all.find? fun c => (c.code : Int) == n

/-- Each reason code is found by its byte. -/
@[simp] theorem ofCode?_code (c : ReasonCode) : ofCode? c.code = some c := by
  cases c <;> rfl

/-- A reason code that a number finds has that number. -/
theorem code_of_ofCode? {n : Int} {c : ReasonCode} (h : ofCode? n = some c) :
    (c.code : Int) = n := by
  simpa using List.find?_some h

/-- Only success is 0. -/
theorem code_eq_zero_iff (c : ReasonCode) : c.code = 0 ↔ c = .success := by
  cases c <;> decide

end ReasonCode

end Mqtt
