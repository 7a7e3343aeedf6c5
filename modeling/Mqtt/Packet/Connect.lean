import Mqtt.Packet.Will

/-!
# CONNECT

The first packet of a client. Its variable header names the protocol and its version; the flags say
which parts of the payload are there.
-/

namespace Mqtt

/-- A request to connect. -/
structure Connect where
  clientId : Text := []
  will : Option Will := none
  username : Option Text := none
  password : Option Bytes := none
  cleanStart : Bool := false
  keepAlive : Int := 0
  properties : Properties := {}
  deriving DecidableEq

namespace Connect

/-- The name of the protocol. -/
def protocolName : Text := Text.ofChars ['M', 'Q', 'T', 'T']

/-- The version of the protocol. -/
def protocolVersion : Nat := 5

/-- Whether two optional wills are the same. -/
def sameWill : Option Will → Option Will → Bool
  | none, none => true
  | some w, some v => w.same v
  | _, _ => false

/-- Whether two requests are the same, whatever the order of their properties. -/
def same (p q : Connect) : Bool :=
  { p with will := none, properties := {} } == { q with will := none, properties := {} } &&
    sameWill p.will q.will && p.properties.same q.properties

/-! ### Writing -/

/-- The CONNECT flags. -/
def flags (p : Connect) : Nat :=
  2 * p.cleanStart.toNat + (p.will.map Will.flags).getD 0 + 64 * p.password.isSome.toNat
    + 128 * p.username.isSome.toNat

/-- What stands behind the fixed header. -/
def emitBody (p : Connect) : Emission :=
  protocolName.emit ++ Integer.emit 1 protocolVersion ++ Integer.emit 1 p.flags
    ++ Integer.emit 2 p.keepAlive ++ p.properties.emit (.packet .connect) ++ p.clientId.emit
    ++ .option Will.emit p.will ++ .option Text.emit p.username ++ .option Binary.emit p.password

/-! ### Reading -/

/-- Fails for the name of another protocol. -/
def checkProtocolName (name : Text) : Except Error Unit :=
  if name = protocolName then .ok () else .error (.unexpectedProtocol name)

/-- Fails for another version. -/
def checkProtocolVersion (version : Nat) : Except Error Unit :=
  if version = protocolVersion then .ok () else .error (.unsupportedVersion version)

/-- Fails if the reserved bit is set, or a bit of a will that is not there. -/
def checkFlags (flags : Nat) : Except Error Unit :=
  -- Bit 2 announces a will; bits 3 and 4 are its QoS and bit 5 is its retain flag.
  if flags % 2 = 1 then .error .connectReservedBit
  else if flags / 4 % 2 = 0 ∧ (flags / 8 % 4 ≠ 0 ∨ flags / 32 % 2 = 1) then
    .error .willBitsWithoutWill
  else .ok ()

/-- Takes what stands behind the fixed header. -/
def readBody : Reader Connect := do
  let name ← Text.read
  checkProtocolName name
  let version ← Integer.read 1
  checkProtocolVersion version
  let flags ← Integer.read 1
  checkFlags flags
  let keepAlive ← Integer.read 2
  let properties ← Properties.read (.packet .connect)
  let clientId ← Text.read
  let will ← Reader.optional (flags / 4 % 2 = 1) (Will.read flags)
  let username ← Reader.optional (flags / 128 % 2 = 1) Text.read
  let password ← Reader.optional (flags / 64 % 2 = 1) Binary.read
  return { clientId, will, username, password, cleanStart := flags / 2 % 2 = 1, keepAlive,
           properties }

end Connect

end Mqtt
