import Mqtt.Packet.Basic

/-!
# Packets and their parts

An `Element` is what a caller can build: a packet, or one of the parts and bare layouts that can be
built by themselves. Building an element brings its properties into the form in which they are kept
and checks its fields.
-/

namespace Mqtt

/-- A packet or a part of one. -/
inductive Element where
  | packet (p : Packet)
  | will (w : Will)
  /-- The layout that the responses to a PUBLISH share. -/
  | response (p : PublishResponse)
  /-- A property block and nothing else. -/
  | bare (p : Properties)
  | subscription (s : Subscription)
  deriving DecidableEq

namespace Element

/-- What carries the properties of the element. -/
def carrier? : Element → Option Carrier
  | packet p => some (.packet p.type)
  | will _ => some .will
  | response _ => some .response
  | bare _ => some .bare
  | subscription _ => none

/-- What the element stores as properties. -/
def properties? : Element → Option Properties
  | packet p => p.properties?
  | will w => some w.properties
  | response p => some p.properties
  | bare p => some p
  | subscription _ => none

/-- The element with other properties. -/
def withProperties (q : Properties) : Element → Element
  | packet p => packet (p.withProperties q)
  | will w => will { w with properties := q }
  | response p => response { p with properties := q }
  | bare _ => bare q
  | subscription s => subscription s

/-- Whether the element stores any property. -/
def hasProperties (e : Element) : Bool := e.properties?.any fun p => !p.isEmpty

/-- Whether two elements are the same, whatever the order of their properties. -/
def same : Element → Element → Bool
  | packet p, packet q => p.same q
  | will w, will v => w.same v
  | response p, response q => p.same q
  | bare p, bare q => p.same q
  | subscription s, subscription t => s == t
  | _, _ => false

/-- Fails for an element that may not be built. -/
def check : Element → Except Error Unit
  | packet p => p.check
  | will _ | bare _ => .ok ()
  | response p => p.check .response
  | subscription s => s.check

/-- The element with its properties in the form in which they are kept. -/
def listed (e : Element) : Element :=
  match e.properties? with
  | none => e
  | some p => e.withProperties p.listed

/-- The element that is built of the fields given. -/
def build (e : Element) : Except Error Element := do
  e.listed.check
  return e.listed

/-- The whole element; only packets and subscriptions can be written by themselves. -/
def emit : Element → Emission
  | packet p => p.emit
  | subscription s => s.emit
  | _ => .fail .wrongType

/-- The property block of the element. -/
def emitProperties (e : Element) : Emission :=
  match e.carrier?, e.properties? with
  | some c, some p => p.emit c
  | _, _ => .fail .wrongType

/-- Takes what stands behind the fixed header of an element with this carrier. -/
def readBody (c : Carrier) (flags : Nat) : Reader Element :=
  match c with
  | .packet type => packet <$> Packet.readBody type flags
  | .response => response <$> PublishResponse.readBody .response
  | .will | .bare => throw .wrongType

end Element

end Mqtt
