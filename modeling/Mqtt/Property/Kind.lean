/-!
# Property kinds

The twenty-seven properties of the protocol: identifier, name, the format of a value on the wire,
and the range that its values have to lie in. Which packet may carry which is in `Mqtt.Carrier`.
-/

namespace Mqtt

/-- How a property's value is written. -/
inductive ValueFormat where
  /-- An unsigned integer of a fixed number of bytes. -/
  | fixed (size : Nat)
  /-- A variable byte integer. -/
  | varInt
  /-- A string. -/
  | text
  /-- Binary data. -/
  | binary
  /-- Two strings. -/
  | textPair
  deriving DecidableEq

/-- A kind of property. -/
inductive PropertyKind where
  | payloadFormatIndicator
  | messageExpiryInterval
  | contentType
  | responseTopic
  | correlationData
  | subscriptionIdentifier
  | sessionExpiryInterval
  | assignedClientIdentifier
  | serverKeepAlive
  | authenticationMethod
  | authenticationData
  | requestProblemInformation
  | willDelayInterval
  | requestResponseInformation
  | responseInformation
  | serverReference
  | reasonString
  | receiveMaximum
  | topicAliasMaximum
  | topicAlias
  | maximumQos
  | retainAvailable
  | userProperty
  | maximumPacketSize
  | wildcardSubscriptionAvailable
  | subscriptionIdentifierAvailable
  | sharedSubscriptionAvailable
  deriving DecidableEq

namespace PropertyKind

/-- All kinds, by ascending identifier. -/
def all : List PropertyKind :=
  [.payloadFormatIndicator, .messageExpiryInterval, .contentType, .responseTopic, .correlationData,
   .subscriptionIdentifier, .sessionExpiryInterval, .assignedClientIdentifier, .serverKeepAlive,
   .authenticationMethod, .authenticationData, .requestProblemInformation, .willDelayInterval,
   .requestResponseInformation, .responseInformation, .serverReference, .reasonString,
   .receiveMaximum, .topicAliasMaximum, .topicAlias, .maximumQos, .retainAvailable, .userProperty,
   .maximumPacketSize, .wildcardSubscriptionAvailable, .subscriptionIdentifierAvailable,
   .sharedSubscriptionAvailable]

/-- The number that announces a property of this kind. -/
def identifier : PropertyKind → Nat
  | .payloadFormatIndicator => 0x01
  | .messageExpiryInterval => 0x02
  | .contentType => 0x03
  | .responseTopic => 0x08
  | .correlationData => 0x09
  | .subscriptionIdentifier => 0x0B
  | .sessionExpiryInterval => 0x11
  | .assignedClientIdentifier => 0x12
  | .serverKeepAlive => 0x13
  | .authenticationMethod => 0x15
  | .authenticationData => 0x16
  | .requestProblemInformation => 0x17
  | .willDelayInterval => 0x18
  | .requestResponseInformation => 0x19
  | .responseInformation => 0x1A
  | .serverReference => 0x1C
  | .reasonString => 0x1F
  | .receiveMaximum => 0x21
  | .topicAliasMaximum => 0x22
  | .topicAlias => 0x23
  | .maximumQos => 0x24
  | .retainAvailable => 0x25
  | .userProperty => 0x26
  | .maximumPacketSize => 0x27
  | .wildcardSubscriptionAvailable => 0x28
  | .subscriptionIdentifierAvailable => 0x29
  | .sharedSubscriptionAvailable => 0x2A

/-- The name that messages use. -/
def name : PropertyKind → String
  | .payloadFormatIndicator => "PAYLOAD_FORMAT_INDICATOR"
  | .messageExpiryInterval => "MESSAGE_EXPIRY_INTERVAL"
  | .contentType => "CONTENT_TYPE"
  | .responseTopic => "RESPONSE_TOPIC"
  | .correlationData => "CORRELATION_DATA"
  | .subscriptionIdentifier => "SUBSCRIPTION_IDENTIFIER"
  | .sessionExpiryInterval => "SESSION_EXPIRY_INTERVAL"
  | .assignedClientIdentifier => "ASSIGNED_CLIENT_IDENTIFIER"
  | .serverKeepAlive => "SERVER_KEEP_ALIVE"
  | .authenticationMethod => "AUTHENTICATION_METHOD"
  | .authenticationData => "AUTHENTICATION_DATA"
  | .requestProblemInformation => "REQUEST_PROBLEM_INFORMATION"
  | .willDelayInterval => "WILL_DELAY_INTERVAL"
  | .requestResponseInformation => "REQUEST_RESPONSE_INFORMATION"
  | .responseInformation => "RESPONSE_INFORMATION"
  | .serverReference => "SERVER_REFERENCE"
  | .reasonString => "REASON_STRING"
  | .receiveMaximum => "RECEIVE_MAXIMUM"
  | .topicAliasMaximum => "TOPIC_ALIAS_MAXIMUM"
  | .topicAlias => "TOPIC_ALIAS"
  | .maximumQos => "MAXIMUM_QOS"
  | .retainAvailable => "RETAIN_AVAILABLE"
  | .userProperty => "USER_PROPERTY"
  | .maximumPacketSize => "MAXIMUM_PACKET_SIZE"
  | .wildcardSubscriptionAvailable => "WILDCARD_SUBSCRIPTION_AVAILABLE"
  | .subscriptionIdentifierAvailable => "SUBSCRIPTION_IDENTIFIER_AVAILABLE"
  | .sharedSubscriptionAvailable => "SHARED_SUBSCRIPTION_AVAILABLE"

/-- How the values of this kind are written. -/
def format : PropertyKind → ValueFormat
  | .payloadFormatIndicator | .requestProblemInformation | .requestResponseInformation
  | .maximumQos | .retainAvailable | .wildcardSubscriptionAvailable
  | .subscriptionIdentifierAvailable | .sharedSubscriptionAvailable => .fixed 1
  | .messageExpiryInterval | .sessionExpiryInterval | .willDelayInterval
  | .maximumPacketSize => .fixed 4
  | .contentType | .responseTopic | .assignedClientIdentifier | .authenticationMethod
  | .responseInformation | .serverReference | .reasonString => .text
  | .correlationData | .authenticationData => .binary
  | .subscriptionIdentifier => .varInt
  | .serverKeepAlive | .receiveMaximum | .topicAliasMaximum | .topicAlias => .fixed 2
  | .userProperty => .textPair

/-- Whether the only values of this kind are 0 and 1. -/
def isBoolean : PropertyKind → Bool
  | .payloadFormatIndicator | .requestProblemInformation | .requestResponseInformation
  | .maximumQos | .retainAvailable | .wildcardSubscriptionAvailable
  | .subscriptionIdentifierAvailable | .sharedSubscriptionAvailable => true
  | _ => false

/-- Whether 0 is no value of this kind. -/
def isNonZero : PropertyKind → Bool
  | .subscriptionIdentifier | .receiveMaximum | .topicAlias | .maximumPacketSize => true
  | _ => false

/-- Whether a packet keeps all values of this kind in one list, even a single one. -/
def isListed : PropertyKind → Bool
  | .subscriptionIdentifier => true
  | _ => false

/-- The kind with an identifier. -/
def ofIdentifier? (n : Int) : Option PropertyKind := all.find? fun k => (k.identifier : Int) == n

/-- Each kind is found by its identifier. -/
@[simp] theorem ofIdentifier?_identifier (k : PropertyKind) :
    ofIdentifier? k.identifier = some k := by
  cases k <;> rfl

/-- A kind that an identifier finds has that identifier. -/
theorem identifier_of_ofIdentifier? {n : Int} {k : PropertyKind} (h : ofIdentifier? n = some k) :
    (k.identifier : Int) = n := by
  simpa using List.find?_some h

/-- An identifier is a variable byte integer of one byte. -/
theorem identifier_lt (k : PropertyKind) : k.identifier < 128 := by
  cases k <;> decide

end PropertyKind

end Mqtt
