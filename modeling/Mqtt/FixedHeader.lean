import Mqtt.Wire.Integer
import Mqtt.Wire.VarInt

/-!
# The fixed header

Every packet starts with a byte that holds its type and four flags, and with the number of bytes
that follow the header, as a variable byte integer. `FixedHeader.emit` and `FixedHeader.read` write
and read it; the reader refuses types that no packet has and flags that the type does not have.
-/

namespace Mqtt

/-- The first two to five bytes of a packet. -/
structure FixedHeader where
  type : PacketType
  flags : Nat
  /-- How many bytes follow the header. -/
  remaining : Nat
  deriving DecidableEq

namespace FixedHeader

/-- The header of a packet with `remaining` bytes behind it. It promises nothing for flags of more
    than four bits. -/
def emit (type : PacketType) (flags remaining : Nat) : Emission :=
  if 16 ≤ flags then .fail .flagsTooWide
  else if VarInt.max < remaining then .fail (.unframeable type remaining)
  else .done [.ofNat (16 * type.code + flags)] ++ VarInt.emit remaining

/-- Fails for flags that the type does not have: a PUBLISH has its own, of which the two QoS bits
    must not both be set, and any other type has fixed ones. -/
def checkFlags (type : PacketType) (flags : Nat) : Except Error Unit :=
  match type.reservedFlags? with
  -- Bits 1 and 2 are the QoS.
  | none => if flags / 2 % 4 = 3 then .error .bothQosBits else .ok ()
  | some reserved => if flags = reserved then .ok () else .error (.headerFlags type flags)

/-- The type and the flags in the first byte of a packet. -/
def ofFirstByte (b : UInt8) : Except Error (PacketType × Nat) := do
  let flags := b.toNat % 16
  match PacketType.ofCode? (b.toNat / 16) with
  | none => throw (.reservedPacketType (b.toNat / 16))
  | some type =>
    checkFlags type flags
    return (type, flags)

/-- Takes a fixed header. -/
def read : Reader FixedHeader := do
  let first ← Integer.read 1
  let (type, flags) ← ofFirstByte (.ofNat first)
  let remaining ← VarInt.read
  return ⟨type, flags, remaining⟩

/-- A fixed header takes at least two bytes. -/
theorem consumes_read : read.Consumes 2 :=
  (Integer.consumes_read 1).bind fun _ =>
    (Reader.consumes_lift _).bind fun _ => VarInt.consumes_read.bind fun _ =>
      Reader.consumes_pure _

end FixedHeader

end Mqtt
