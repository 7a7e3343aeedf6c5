import Mqtt.Packet.Field

/-!
# SUBSCRIBE

A request for the messages of some topics, as a list of subscriptions. Each `Subscription` is a
topic filter and a byte of options: two bits of QoS, no local, retain as published, and two bits of
retain handling. It is checked when it is built itself (`Subscription.check`), and not again as a
part of a request (`Subscribe.check`).
-/

namespace Mqtt

/-- A topic filter and its options. -/
structure Subscription where
  pattern : Text
  maxQos : QoS := .exactlyOnce
  noLocal : Bool := false
  retainAsPublished : Bool := false
  retainHandling : RetainHandling := .sendRetained
  deriving DecidableEq

namespace Subscription

/-- Fails for an empty topic filter. -/
def check (s : Subscription) : Except Error Unit :=
  if s.pattern.isEmpty then .error .emptyFilter else .ok ()

/-- The byte of options. -/
def options (s : Subscription) : Nat :=
  s.maxQos.code + 4 * s.noLocal.toNat + 8 * s.retainAsPublished.toNat
    + 16 * s.retainHandling.code

/-- The topic filter and the options. -/
def emit (s : Subscription) : Emission := s.pattern.emit ++ Integer.emit 1 s.options

/-- The subscription to a filter with a byte of options. -/
def ofOptions (pattern : Text) (options : Nat) : Except Error Subscription := do
  -- Bits 6 and 7 are reserved.
  if 64 ≤ options then
    throw (.subscriptionReservedBits pattern)
  let maxQos ← QoS.ofCode (options % 4 : Nat)
  let retainHandling ← RetainHandling.ofCode (options / 16 % 4 : Nat)
  let s : Subscription :=
    { pattern, maxQos, noLocal := options / 4 % 2 = 1, retainAsPublished := options / 8 % 2 = 1,
      retainHandling }
  s.check
  return s

/-- Takes a subscription. -/
def read : Reader Subscription := do
  let pattern ← Text.read
  let options ← Integer.read 1
  ofOptions pattern options

/-- A subscription takes at least three bytes: the length of its filter and its options. -/
theorem consumes_read : read.Consumes 3 :=
  Text.consumes_read.bind fun _ => (Integer.consumes_read 1).bind fun _ => Reader.consumes_lift _

end Subscription

/-- A request for the messages of some topics. -/
structure Subscribe where
  packetId : Int
  subscriptions : List Subscription
  properties : Properties := {}
  deriving DecidableEq

namespace Subscribe

/-- Whether two requests are the same, whatever the order of their properties. -/
def same (p q : Subscribe) : Bool :=
  { p with properties := {} } == { q with properties := {} } && p.properties.same q.properties

/-- Fails for a request that may not be built. -/
def check (p : Subscribe) : Except Error Unit := do
  checkPacketId p.packetId
  if p.subscriptions.isEmpty then throw .noSubscriptions

/-- What stands behind the fixed header. -/
def emitBody (p : Subscribe) : Emission :=
  Integer.emit 2 p.packetId ++ p.properties.emit (.packet .subscribe)
    ++ .concat Subscription.emit p.subscriptions

/-- Takes what stands behind the fixed header. -/
def readBody : Reader Subscribe := do
  let packetId ← Integer.read 2
  let properties ← Properties.read (.packet .subscribe)
  let subscriptions ←
    Reader.toEnd Subscription.read (Subscription.consumes_read.mono (by decide))
  let p : Subscribe := { packetId, subscriptions, properties }
  p.check
  return p

end Subscribe

end Mqtt
