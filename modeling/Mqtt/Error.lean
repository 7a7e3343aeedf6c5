import Mqtt.Carrier
import Mqtt.Property.Value
import Mqtt.Text.Utf8

/-!
# Errors

* `ErrorKind` is the family tree of errors. A kind knows the reason code to send to the peer before
  the connection is closed; errors that the peer did not cause have none.
* `Error` has one constructor for each cause. `Error.kind` places a cause in the tree and
  `Error.message` words it.
-/

namespace Mqtt

/-! ### Kinds -/

/-- A kind of error. -/
inductive ErrorKind where
  /-- Any error of the protocol. -/
  | mqtt
  /-- A packet is larger than the configured maximum. -/
  | packetTooLarge
  /-- The protocol is violated. -/
  | protocol
  /-- The peer asks for another version of the protocol. -/
  | unsupportedVersion
  /-- A property that its carrier may not carry. -/
  | unsupportedProperty
  /-- A property that may stand only once stands twice. -/
  | duplicateProperty
  /-- The bytes are no packet of the announced type. -/
  | malformed
  /-- The bytes are no complete packet yet. -/
  | incomplete
  /-- A variable byte integer is longer than four bytes. -/
  | malformedVarInt
  /-- The packet type or some flags are illegal. -/
  | malformedHeader
  /-- A string is no UTF-8 or holds a forbidden character. -/
  | malformedText
  /-- A property block does not parse. -/
  | malformedProperties
  /-- A value has no form on the wire. -/
  | unencodable
  /-- An integer does not fit. -/
  | valueTooLarge
  /-- A string is too long. -/
  | textTooLong
  /-- Binary data is too long. -/
  | binaryTooLong
  /-- An encoded packet does not fit into its destination. -/
  | bufferTooSmall
  /-- A field of a packet may not have the value given. -/
  | badField
  /-- A value is of the wrong type for its place. -/
  | wrongType
  /-- A caller broke a promise. -/
  | brokenPromise
  deriving DecidableEq

namespace ErrorKind

/-- The next more general kind. -/
def parent? : ErrorKind → Option ErrorKind
  | .packetTooLarge | .protocol | .malformed | .unencodable => some .mqtt
  | .unsupportedVersion | .unsupportedProperty | .duplicateProperty => some .protocol
  | .incomplete | .malformedVarInt | .malformedHeader | .malformedText
  | .malformedProperties => some .malformed
  | .valueTooLarge | .textTooLong | .binaryTooLong | .bufferTooSmall => some .unencodable
  | .mqtt | .badField | .wrongType | .brokenPromise => none

/-- The kind and all more general ones. No chain of kinds is longer than three. -/
def ancestors (k : ErrorKind) : List ErrorKind :=
  k :: match k.parent? with
    | none => []
    | some p => p :: p.parent?.toList

/-- Whether errors of the kind `k` are errors of the kind `l` too. -/
def isA (k l : ErrorKind) : Bool := k.ancestors.contains l

/-- Whether the kind is about a value that a caller gave, and not about one that a peer sent. -/
def isBadValue (k : ErrorKind) : Bool := k.isA .unencodable || k == .badField

/-- The reason code to send to the peer. -/
def reasonCode? : ErrorKind → Option ReasonCode
  | .packetTooLarge => some .packetTooLarge
  | .protocol | .unsupportedProperty | .duplicateProperty => some .protocolError
  | .unsupportedVersion => some .unsupportedProtocolVersion
  | .malformed | .malformedVarInt | .malformedHeader | .malformedText
  | .malformedProperties => some .malformedPacket
  | .mqtt | .incomplete | .unencodable | .valueTooLarge | .textTooLong | .binaryTooLong
  | .bufferTooSmall | .badField | .wrongType | .brokenPromise => none

example (k : ErrorKind) : ∀ l ∈ k.ancestors, l.parent?.all k.ancestors.contains := by
  cases k <;> decide

end ErrorKind

/-! ### Causes -/

/-- A run of surrogates in a text: where it starts, its first code point and its length. -/
structure SurrogateRun where
  start : Nat
  first : CodePoint
  length : Nat
  deriving DecidableEq

/-- The cause of an error. -/
inductive Error where
  /-- The bytes end too early. -/
  | insufficientData
  /-- The fourth byte of a variable byte integer announces a fifth. -/
  | varIntTooLong
  /-- The bytes of a string are no UTF-8. -/
  | invalidUtf8 (fault : Utf8.Fault)
  /-- A string on the wire holds U+0000. -/
  | nullReceived
  /-- A packet type that no packet has. -/
  | reservedPacketType (code : Nat)
  /-- A PUBLISH with both QoS bits set. -/
  | bothQosBits
  /-- A fixed header with flags that its packet type does not have. -/
  | headerFlags (type : PacketType) (flags : Nat)
  /-- The reserved bit of the CONNECT flags is set. -/
  | connectReservedBit
  /-- An identifier that no property has. -/
  | unknownProperty (identifier : Int)
  /-- A property block that is longer than what is left of the packet. -/
  | blockTooLong (declared : Nat) (carrier : Carrier) (available : Nat)
  /-- A property that runs past the end of its block. -/
  | propertyOverrun (carrier : Carrier)
  /-- A number that no reason code has. -/
  | unknownReasonCode (code : Int)
  /-- A number that no QoS has. -/
  | unknownQos (code : Int)
  /-- A received reason code that its carrier may not carry. -/
  | reasonCodeReceived (code : ReasonCode) (carrier : Carrier)
  /-- Reserved bits of the subscription options are set. -/
  | subscriptionReservedBits (pattern : Text)
  /-- Will bits are set in a CONNECT without a will. -/
  | willBitsWithoutWill
  /-- Reserved bits of the CONNACK flags are set. -/
  | connackReservedBits
  /-- A CONNACK that reports a failure leaves out its properties. -/
  | connackWithoutProperties (code : ReasonCode)
  /-- A complete packet ends inside one of its fields. -/
  | truncatedPacket (type : PacketType)
  /-- A complete packet goes on after its last field. -/
  | overlongPacket (type : PacketType)
  /-- A number that no retain handling has. -/
  | unknownRetainHandling (code : Int)
  /-- A CONNECT names another protocol. -/
  | unexpectedProtocol (name : Text)
  /-- A CONNECT asks for another version. -/
  | unsupportedVersion (version : Nat)
  /-- An AUTH without a reason code. -/
  | authWithoutReasonCode
  /-- A packet identifier is 0. -/
  | zeroPacketId
  /-- The DUP flag is set in a PUBLISH with QoS 0. -/
  | duplicateWithoutQos
  /-- A topic name holds a wildcard. -/
  | wildcardTopic (topic : Text)
  /-- A topic name is empty, and no alias stands for it. -/
  | emptyTopic
  /-- A topic filter is empty. -/
  | emptyFilter
  /-- A SUBSCRIBE without subscriptions. -/
  | noSubscriptions
  /-- An UNSUBSCRIBE without topic filters. -/
  | noFilters
  /-- A boolean property is neither 0 nor 1. -/
  | notBoolean (kind : PropertyKind) (value : PropertyValue)
  /-- A property is 0 that must not be. -/
  | zeroProperty (kind : PropertyKind)
  /-- A property that its carrier may not carry. -/
  | unsupportedProperty (kind : PropertyKind) (carrier : Carrier)
  /-- A property that its carrier may carry only once. -/
  | duplicateProperty (kind : PropertyKind) (carrier : Carrier)
  /-- A packet is larger than the configured maximum. -/
  | packetTooLarge (type : PacketType) (size : Nat) (limit : Int)
  /-- An integer does not fit into its bytes. -/
  | integerTooWide (value : Int) (size : Nat)
  /-- An integer is out of the range of variable byte integers. -/
  | varIntRange (value : Int)
  /-- A packet is too long for its remaining length to be written. -/
  | unframeable (type : PacketType) (length : Nat)
  /-- A text holds surrogates. -/
  | surrogates (run : SurrogateRun)
  /-- A text holds U+0000. -/
  | nullGiven
  /-- The UTF-8 form of a text is too long. -/
  | textTooLong (length : Nat)
  /-- Binary data is too long. -/
  | binaryTooLong (length : Nat)
  /-- An encoded packet does not fit into its destination. -/
  | bufferTooSmall (required available : Nat)
  /-- A packet identifier does not fit into sixteen bits. -/
  | packetIdRange (value : Int)
  /-- A PUBLISH with QoS above 0 has no packet identifier. -/
  | packetIdMissing
  /-- A PUBLISH with QoS 0 has a packet identifier. -/
  | packetIdUnexpected
  /-- A given reason code that its carrier may not carry. -/
  | reasonCodeGiven (code : ReasonCode) (carrier : Carrier)
  /-- A value that its place cannot hold. -/
  | wrongType
  /-- Fixed header flags that do not fit into four bits. -/
  | flagsTooWide
  deriving DecidableEq

namespace Error

/-- The kind of an error. -/
def kind : Error → ErrorKind
  | insufficientData => .incomplete
  | varIntTooLong => .malformedVarInt
  | invalidUtf8 _ | nullReceived => .malformedText
  | reservedPacketType _ | bothQosBits | headerFlags .. | connectReservedBit => .malformedHeader
  | unknownProperty _ | blockTooLong .. | propertyOverrun _ => .malformedProperties
  | unknownReasonCode _ | unknownQos _ | reasonCodeReceived .. | subscriptionReservedBits _
  | willBitsWithoutWill | connackReservedBits | connackWithoutProperties _ | truncatedPacket _
  | overlongPacket _ => .malformed
  | unknownRetainHandling _ | unexpectedProtocol _ | authWithoutReasonCode | zeroPacketId
  | duplicateWithoutQos | wildcardTopic _ | emptyTopic | emptyFilter | noSubscriptions | noFilters
  | notBoolean .. | zeroProperty _ => .protocol
  | unsupportedVersion _ => .unsupportedVersion
  | unsupportedProperty .. => .unsupportedProperty
  | duplicateProperty .. => .duplicateProperty
  | packetTooLarge .. => .packetTooLarge
  | integerTooWide .. | varIntRange _ | unframeable .. => .valueTooLarge
  | surrogates _ | nullGiven => .unencodable
  | textTooLong _ => .textTooLong
  | binaryTooLong _ => .binaryTooLong
  | bufferTooSmall .. => .bufferTooSmall
  | packetIdRange _ | packetIdMissing | packetIdUnexpected | reasonCodeGiven .. => .badField
  | wrongType => .wrongType
  | flagsTooWide => .brokenPromise

/-- The reason code to send to the peer. -/
def reasonCode? (e : Error) : Option ReasonCode := e.kind.reasonCode?

/-! ### Wording -/

/-- Why and where bytes are no UTF-8. -/
def utf8Fault (f : Utf8.Fault) : String :=
  let reason := match f.reason with
    | .startByte => "invalid start byte"
    | .continuationByte => "invalid continuation byte"
    | .endOfData => "unexpected end of data"
  if f.extent = 1 then
    "'utf-8' codec can't decode byte 0x" ++ String.ofList (Numeral.padded 16 2 f.lead.toNat)
      ++ " in position " ++ toString f.offset ++ ": " ++ reason
  else
    "'utf-8' codec can't decode bytes in position " ++ toString f.offset ++ "-"
      ++ toString (f.offset + f.extent - 1) ++ ": " ++ reason

/-- Where a text holds surrogates. -/
def surrogateRun (run : SurrogateRun) : String :=
  if run.length = 1 then
    "'utf-8' codec can't encode character '\\u"
      ++ String.ofList (Numeral.padded 16 4 run.first.val) ++ "' in position "
      ++ toString run.start ++ ": surrogates not allowed"
  else
    "'utf-8' codec can't encode characters in position " ++ toString run.start ++ "-"
      ++ toString (run.start + run.length - 1) ++ ": surrogates not allowed"

/-- The wording of an error. -/
def message : Error → String
  | insufficientData => ""
  | varIntTooLong => "variable byte integer has the continuation bit set on its fourth byte"
  | invalidUtf8 fault => "error decoding utf-8 string: " ++ utf8Fault fault
  | nullReceived => "utf-8 string contains a null character"
  | reservedPacketType code => "reserved packet type: " ++ toString code
  | bothQosBits => "received PUBLISH with both QoS bits set"
  | headerFlags type flags =>
    "received " ++ type.name ++ " with invalid flags in its fixed header: " ++ Numeral.flags flags
  | connectReservedBit => "reserved bit set in the CONNECT flags"
  | unknownProperty identifier => "unknown property type: " ++ Numeral.code identifier
  | blockTooLong declared carrier available =>
    "property length (" ++ toString declared ++ ") of " ++ carrier.name
      ++ " exceeds the remaining packet length (" ++ toString available ++ ")"
  | propertyOverrun carrier =>
    "a property in " ++ carrier.name ++ " extends past the end of the declared property length"
  | unknownReasonCode code => "unknown reason code: " ++ Numeral.code code
  | unknownQos code => "unknown QoS value: " ++ Numeral.code code
  | reasonCodeReceived code carrier | reasonCodeGiven code carrier =>
    "reason code " ++ Numeral.code code.code ++ " is not allowed for " ++ carrier.name
  | subscriptionReservedBits pattern =>
    "reserved bits set in the subscription options of " ++ pattern.quoted
  | willBitsWithoutWill => "will QoS or will retain set without the will flag"
  | connackReservedBits => "reserved bits set in the CONNACK flags"
  | connackWithoutProperties code =>
    "CONNACK with reason code " ++ Numeral.code code.code ++ " must contain properties"
  | truncatedPacket type => type.name ++ " packet is shorter than its contents require"
  | overlongPacket type => "not all data was consumed when decoding a " ++ type.name ++ " packet"
  | unknownRetainHandling code => "unknown retain handling: " ++ Numeral.code code
  | unexpectedProtocol name => "unexpected protocol: " ++ name.toString
  | unsupportedVersion version => "unsupported protocol version: " ++ toString version
  | authWithoutReasonCode => "AUTH packet must contain a reason code"
  | zeroPacketId => "packet identifier must not be 0"
  | duplicateWithoutQos => "the DUP flag must not be set when qos is 0"
  | wildcardTopic topic => "topic name must not contain wildcard characters: " ++ topic.quoted
  | emptyTopic => "topic name must not be empty unless a topic alias is present"
  | emptyFilter => "topic filters must be at least one character long"
  | noSubscriptions => "subscription must have at least one topic filter"
  | noFilters => "an unsubscribe request must have at least one topic filter"
  | notBoolean kind value => kind.name ++ " must be 0 or 1, got " ++ value.render
  | zeroProperty kind => kind.name ++ " must not be 0"
  | unsupportedProperty kind carrier =>
    "unsupported property type: " ++ kind.name ++ " in " ++ carrier.name
  | duplicateProperty kind carrier => "duplicate property " ++ kind.name ++ " in " ++ carrier.name
  | packetTooLarge type size limit =>
    type.name ++ " packet is " ++ toString size ++ " bytes long (maximum is " ++ toString limit
      ++ ")"
  | integerTooWide value size =>
    "value " ++ toString value ++ " does not fit in a " ++ toString size
      ++ " byte unsigned integer"
  | varIntRange value =>
    "value " ++ toString value
      ++ " is out of range for a variable byte integer (0-268435455)"
  | unframeable type length =>
    type.name ++ " packet is too large: remaining length would be " ++ toString length
      ++ " (maximum is 268435455)"
  | surrogates run => "error encoding utf-8 string: " ++ surrogateRun run
  | nullGiven => "utf-8 string must not contain null characters"
  | textTooLong length =>
    "utf-8 string is " ++ toString length ++ " bytes long when encoded (maximum is 65535)"
  | binaryTooLong length =>
    "binary data is " ++ toString length ++ " bytes long (maximum is 65535)"
  | bufferTooSmall required available =>
    "encoded packet needs " ++ toString required ++ " bytes but the destination only has room for "
      ++ toString available
  | packetIdRange value => "packet_id must be between 0 and 65535, got " ++ toString value
  | packetIdMissing => "packet_id must be an integer when qos > 0"
  | packetIdUnexpected => "packet_id must be None when qos is 0"
  | wrongType => "wrong type"
  | flagsTooWide => "flags do not fit into four bits"

end Error

end Mqtt
