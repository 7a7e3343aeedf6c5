import Mqtt.Element.Basic

/-!
# Changing elements

* An `Assignment` gives a field a new value. The value is brought into the form in which it is kept
  and checked as it is when an element is built, but the checks of fields that have to go together
  are not made again.
* An `Edit` is an assignment or a change inside a field, which is not checked at all.
* `Element.edit` makes an edit to an element or to a `Part` of it.
-/

namespace Mqtt

/-- A field and its new value. -/
inductive Assignment where
  | clientId (t : Text)
  | will (w : Option Will)
  | username (t : Option Text)
  | password (bs : Option Bytes)
  | cleanStart (b : Bool)
  | keepAlive (n : Int)
  | reasonCode (r : ReasonCode)
  | sessionPresent (b : Bool)
  | topic (t : Text)
  | payload (bs : Bytes)
  | packetId (n : Option Int)
  | retain (b : Bool)
  | qos (q : QoS)
  | duplicate (b : Bool)
  | subscriptions (ss : List Subscription)
  | reasonCodes (rs : List ReasonCode)
  | patterns (ts : List Text)
  | pattern (t : Text)
  | maxQos (q : QoS)
  | noLocal (b : Bool)
  | retainAsPublished (b : Bool)
  | retainHandling (r : RetainHandling)
  | properties (t : PropertyTable)
  | userProperties (us : List (Text × Text))
  deriving DecidableEq

/-! ### Assignments -/

/-- The will after an assignment to a field other than its properties. -/
def Will.assign (w : Will) : Assignment → Except Error Will
  | .topic t => .ok { w with topic := t }
  | .payload bs => .ok { w with payload := bs }
  | .retain b => .ok { w with retain := b }
  | .qos q => .ok { w with qos := q }
  | _ => .error .wrongType

/-- The subscription after an assignment. -/
def Subscription.assign (s : Subscription) : Assignment → Except Error Subscription
  | .pattern t => .ok { s with pattern := t }
  | .maxQos q => .ok { s with maxQos := q }
  | .noLocal b => .ok { s with noLocal := b }
  | .retainAsPublished b => .ok { s with retainAsPublished := b }
  | .retainHandling r => .ok { s with retainHandling := r }
  | _ => .error .wrongType

/-- The CONNECT after an assignment to a field other than its properties. -/
def Connect.assign (p : Connect) : Assignment → Except Error Connect
  | .clientId t => .ok { p with clientId := t }
  | .will w => .ok { p with will := w }
  | .username t => .ok { p with username := t }
  | .password bs => .ok { p with password := bs }
  | .cleanStart b => .ok { p with cleanStart := b }
  | .keepAlive n => .ok { p with keepAlive := n }
  | _ => .error .wrongType

/-- The CONNACK after an assignment to a field other than its properties. -/
def ConnAck.assign (p : ConnAck) : Assignment → Except Error ConnAck
  | .reasonCode r => do
    Carrier.checkReasonCode (.packet .connack) r
    return { p with reasonCode := r }
  | .sessionPresent b => .ok { p with sessionPresent := b }
  | _ => .error .wrongType

/-- The PUBLISH after an assignment to a field other than its properties. -/
def Publish.assign (p : Publish) : Assignment → Except Error Publish
  | .topic t => .ok { p with topic := t }
  | .payload bs => .ok { p with payload := bs }
  | .packetId n => do
    let q := { p with packetId := n }
    q.checkField
    return q
  | .retain b => .ok { p with retain := b }
  | .qos q => .ok { p with qos := q }
  | .duplicate b => .ok { p with duplicate := b }
  | _ => .error .wrongType

/-- The response of a carrier after an assignment to a field other than its properties. -/
def PublishResponse.assign (c : Carrier) (p : PublishResponse) :
    Assignment → Except Error PublishResponse
  | .packetId (some n) => do
    checkPacketId n
    return { p with packetId := n }
  | .reasonCode r => do
    c.checkReasonCode r
    return { p with reasonCode := r }
  | _ => .error .wrongType

/-- The SUBSCRIBE after an assignment to a field other than its properties. -/
def Subscribe.assign (p : Subscribe) : Assignment → Except Error Subscribe
  | .packetId (some n) => do
    checkPacketId n
    return { p with packetId := n }
  | .subscriptions ss => .ok { p with subscriptions := ss }
  | _ => .error .wrongType

/-- The answer of a carrier after an assignment to a field other than its properties. -/
def SubscriptionAck.assign (c : Carrier) (p : SubscriptionAck) :
    Assignment → Except Error SubscriptionAck
  | .packetId (some n) => do
    checkPacketId n
    return { p with packetId := n }
  | .reasonCodes rs => do
    checkReasonCodes c rs
    return { p with reasonCodes := rs }
  | _ => .error .wrongType

/-- The UNSUBSCRIBE after an assignment to a field other than its properties. -/
def Unsubscribe.assign (p : Unsubscribe) : Assignment → Except Error Unsubscribe
  | .packetId (some n) => do
    checkPacketId n
    return { p with packetId := n }
  | .patterns ts => .ok { p with patterns := ts }
  | _ => .error .wrongType

/-- The DISCONNECT after an assignment to a field other than its properties. -/
def Disconnect.assign (p : Disconnect) : Assignment → Except Error Disconnect
  | .reasonCode r => do
    Carrier.checkReasonCode (.packet .disconnect) r
    return { p with reasonCode := r }
  | _ => .error .wrongType

/-- The AUTH after an assignment to a field other than its properties. -/
def Auth.assign (p : Auth) : Assignment → Except Error Auth
  | .reasonCode r => do
    Carrier.checkReasonCode (.packet .auth) r
    return { p with reasonCode := r }
  | _ => .error .wrongType

/-- The packet after an assignment to a field other than its properties. -/
def Packet.assignField (p : Packet) (a : Assignment) : Except Error Packet :=
  match p with
  | .connect p => .connect <$> p.assign a
  | .connack p => .connack <$> p.assign a
  | .publish p => .publish <$> p.assign a
  | .puback p => .puback <$> p.assign (.packet .puback) a
  | .pubrec p => .pubrec <$> p.assign (.packet .pubrec) a
  | .pubrel p => .pubrel <$> p.assign (.packet .pubrel) a
  | .pubcomp p => .pubcomp <$> p.assign (.packet .pubcomp) a
  | .subscribe p => .subscribe <$> p.assign a
  | .suback p => .suback <$> p.assign (.packet .suback) a
  | .unsubscribe p => .unsubscribe <$> p.assign a
  | .unsuback p => .unsuback <$> p.assign (.packet .unsuback) a
  | .pingreq | .pingresp => .error .wrongType
  | .disconnect p => .disconnect <$> p.assign a
  | .auth p => .auth <$> p.assign a

/-- The properties after an assignment to them. -/
def Properties.assign (p : Properties) : Assignment → Option Properties
  | .properties t => some { p with table := t.listed }
  | .userProperties us => some { p with user := us }
  | _ => none

namespace Element

/-- The element after an assignment to a field other than its properties. -/
def assignField (e : Element) (a : Assignment) : Except Error Element :=
  match e with
  | packet p => packet <$> p.assignField a
  | will w => will <$> w.assign a
  | response p => response <$> p.assign .response a
  | bare _ => .error .wrongType
  | subscription s => subscription <$> s.assign a

/-- The element after an assignment. -/
def assign (e : Element) (a : Assignment) : Except Error Element :=
  match e.properties?.bind fun p => p.assign a with
  | some p => .ok (e.withProperties p)
  | none => e.assignField a

end Element

/-! ### Edits -/

/-- A change of an element. -/
inductive Edit where
  | assign (a : Assignment)
  /-- Stores a property as it is. -/
  | setProperty (k : PropertyKind) (v : PropertyValue)
  | removeProperty (k : PropertyKind)
  | addUserProperty (key value : Text)
  | addSubscription (s : Subscription)
  | addReasonCode (r : ReasonCode)
  deriving DecidableEq

/-- The place of a change: the element itself, or a part of it. -/
inductive Part where
  | itself
  | will
  | subscription (index : Nat)
  deriving DecidableEq

namespace Element

/-- The element with its properties changed. -/
def mapProperties (f : Properties → Properties) (e : Element) : Except Error Element :=
  match e.properties? with
  | none => .error .wrongType
  | some p => .ok (e.withProperties (f p))

/-- The element after an edit to it. -/
def apply (e : Element) : Edit → Except Error Element
  | .assign a => e.assign a
  | .setProperty k v => e.mapProperties fun p => { p with table := p.table.insert k v }
  | .removeProperty k => e.mapProperties fun p => { p with table := p.table.erase k }
  | .addUserProperty k v => e.mapProperties fun p => { p with user := p.user ++ [(k, v)] }
  | .addSubscription s =>
    match e with
    | packet (.subscribe p) =>
      .ok (packet (.subscribe { p with subscriptions := p.subscriptions ++ [s] }))
    | _ => .error .wrongType
  | .addReasonCode r =>
    match e with
    | packet (.suback p) => .ok (packet (.suback { p with reasonCodes := p.reasonCodes ++ [r] }))
    | packet (.unsuback p) =>
      .ok (packet (.unsuback { p with reasonCodes := p.reasonCodes ++ [r] }))
    | _ => .error .wrongType

/-- A part of the element, if it is there. -/
def part? (e : Element) : Part → Option Element
  | .itself => some e
  | .will =>
    match e with
    | packet (.connect p) => p.will.map will
    | _ => none
  | .subscription i =>
    match e with
    | packet (.subscribe p) => p.subscriptions[i]?.map subscription
    | _ => none

/-- The element with another part in the place of one. -/
def setPart (e : Element) : Part → Element → Element
  | .itself, x => x
  | .will, will w =>
    match e with
    | packet (.connect p) => packet (.connect { p with will := some w })
    | _ => e
  | .subscription i, subscription s =>
    match e with
    | packet (.subscribe p) =>
      packet (.subscribe { p with subscriptions := p.subscriptions.set i s })
    | _ => e
  | _, _ => e

/-- The element after an edit to a part of it. -/
def edit (e : Element) (part : Part) (d : Edit) : Except Error Element :=
  match e.part? part with
  | none => .error .wrongType
  | some x => do
    let y ← x.apply d
    return e.setPart part y

end Element

end Mqtt
