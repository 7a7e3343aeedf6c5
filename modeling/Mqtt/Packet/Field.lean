import Mqtt.Property.Block
import Mqtt.QoS

/-!
# Fields that several packets share

Packet identifiers, reason codes, QoS and retain handling: what makes them acceptable in a packet,
and how they are read. A packet's own fields are checked when it is built (`checkPacketId`,
`Carrier.checkReasonCode`); a reason code from the wire is refused while it is read.
-/

namespace Mqtt

/-- The reason code with a number. -/
def ReasonCode.ofCode (n : Int) : Except Error ReasonCode :=
  match ofCode? n with
  | some r => .ok r
  | none => .error (.unknownReasonCode n)

/-- The QoS with a number. -/
def QoS.ofCode (n : Int) : Except Error QoS :=
  match ofCode? n with
  | some q => .ok q
  | none => .error (.unknownQos n)

/-- The retain handling with a number. -/
def RetainHandling.ofCode (n : Int) : Except Error RetainHandling :=
  match ofCode? n with
  | some r => .ok r
  | none => .error (.unknownRetainHandling n)

/-- Fails for a packet identifier that is not in sixteen bits, or 0. -/
def checkPacketId (n : Int) : Except Error Unit :=
  if n < 0 ∨ 65535 < n then .error (.packetIdRange n)
  else if n = 0 then .error .zeroPacketId
  else .ok ()

namespace Carrier

/-- Fails for a given reason code that the carrier may not carry. -/
def checkReasonCode (c : Carrier) (r : ReasonCode) : Except Error Unit :=
  if c.accepts r then .ok () else .error (.reasonCodeGiven r c)

/-- The reason code with a number, if the carrier may carry it. -/
def reasonCodeOf (c : Carrier) (n : Int) : Except Error ReasonCode := do
  let r ← ReasonCode.ofCode n
  if c.accepts r then return r else throw (.reasonCodeReceived r c)

/-- Takes a reason code. -/
def readReasonCode (c : Carrier) : Reader ReasonCode := do
  let n ← Integer.read 1
  c.reasonCodeOf n

/-- A reason code takes its byte. -/
theorem consumes_readReasonCode (c : Carrier) : c.readReasonCode.Consumes 1 :=
  (Integer.consumes_read 1).bind fun _ => Reader.consumes_lift _

/-- Takes a property block, which may be left out at the end of a packet. -/
def readLastProperties (c : Carrier) : Reader Properties :=
  Reader.orAtEnd {} (Properties.read c)

end Carrier

/-- A reason code in its byte. -/
def ReasonCode.emit (r : ReasonCode) : Emission := Integer.emit 1 r.code

/-- Packet identifiers are the positive numbers of sixteen bits. -/
theorem checkPacketId_eq_ok {n : Int} : checkPacketId n = .ok () ↔ 0 < n ∧ n < 65536 := by
  unfold checkPacketId
  split
  · simp only [reduceCtorEq, false_iff]
    omega
  · split
    · simp only [reduceCtorEq, false_iff]
      omega
    · simp only [true_iff]
      omega

end Mqtt
