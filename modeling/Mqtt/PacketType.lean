/-!
# Packet types

The fifteen control packets: their codes and names, and the flags that the fixed header of each has
to carry. The flags of a PUBLISH are its own, so it has no fixed ones.
-/

namespace Mqtt

/-- The type of a control packet. -/
inductive PacketType where
  | connect
  | connack
  | publish
  | puback
  | pubrec
  | pubrel
  | pubcomp
  | subscribe
  | suback
  | unsubscribe
  | unsuback
  | pingreq
  | pingresp
  | disconnect
  | auth
  deriving DecidableEq

namespace PacketType

/-- All packet types, by ascending code. -/
def all : List PacketType :=
  [.connect, .connack, .publish, .puback, .pubrec, .pubrel, .pubcomp, .subscribe, .suback,
   .unsubscribe, .unsuback, .pingreq, .pingresp, .disconnect, .auth]

/-- The code in the upper half of a packet's first byte. -/
def code : PacketType → Nat
  | .connect => 1
  | .connack => 2
  | .publish => 3
  | .puback => 4
  | .pubrec => 5
  | .pubrel => 6
  | .pubcomp => 7
  | .subscribe => 8
  | .suback => 9
  | .unsubscribe => 10
  | .unsuback => 11
  | .pingreq => 12
  | .pingresp => 13
  | .disconnect => 14
  | .auth => 15

/-- The name that messages use. -/
def name : PacketType → String
  | .connect => "CONNECT"
  | .connack => "CONNACK"
  | .publish => "PUBLISH"
  | .puback => "PUBACK"
  | .pubrec => "PUBREC"
  | .pubrel => "PUBREL"
  | .pubcomp => "PUBCOMP"
  | .subscribe => "SUBSCRIBE"
  | .suback => "SUBACK"
  | .unsubscribe => "UNSUBSCRIBE"
  | .unsuback => "UNSUBACK"
  | .pingreq => "PINGREQ"
  | .pingresp => "PINGRESP"
  | .disconnect => "DISCONNECT"
  | .auth => "AUTH"

/-- The packet type with a code; 0 and what lies above 15 are nobody's. -/
def ofCode? (n : Nat) : Option PacketType := all.find? fun t => t.code == n

/-- The flags that the fixed header has to carry; those of a PUBLISH are free. -/
def reservedFlags? : PacketType → Option Nat
  | .publish => none
  | .pubrel | .subscribe | .unsubscribe => some 2
  | _ => some 0

/-- Each type is found by its code. -/
@[simp] theorem ofCode?_code (t : PacketType) : ofCode? t.code = some t := by
  cases t <;> rfl

/-- A type that a code finds has that code. -/
theorem code_of_ofCode? {n : Nat} {t : PacketType} (h : ofCode? n = some t) : t.code = n := by
  simpa using List.find?_some h

/-- Four bits hold a code. -/
theorem code_lt (t : PacketType) : t.code < 16 := by
  cases t <;> decide

end PacketType

end Mqtt
