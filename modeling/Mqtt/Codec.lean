import Mqtt.Packet.Basic

/-!
# Decoding and encoding packets

* `decode` takes the packet off the front of received bytes. It fails with
  `Error.insufficientData` exactly when more bytes may still make a packet of them.
* `encode` writes a packet to the front of a destination of a fixed size, or leaves it alone.

Both take an optional limit on the size of a whole packet.
-/

namespace Mqtt

/-- The limit, if a packet of this size is larger than it. -/
def exceeded? (limit : Option Int) (size : Nat) : Option Int :=
  limit.filter fun l => l < size

/-! ### Decoding -/

/-- A packet that was taken off received bytes. -/
structure Decoded where
  packet : Packet
  /-- How many bytes the packet took. -/
  size : Nat
  /-- The bytes behind the packet. -/
  rest : Bytes
  deriving DecidableEq

/-- What the log says of a decoded packet. -/
def Decoded.logLine (d : Decoded) : String :=
  "Decoded " ++ d.packet.type.name ++ " packet (" ++ toString d.size ++ " bytes)"

/-- The packet that a whole body holds. -/
def decodeBody (type : PacketType) (flags : Nat) (body : Bytes) : Except Error Packet :=
  match Packet.readBody type flags body with
  -- The body is all there, so more bytes would not help.
  | .error .insufficientData => .error (.truncatedPacket type)
  | .error e => .error e
  | .ok (p, []) => .ok p
  | .ok (_, _ :: _) => .error (.overlongPacket type)

/-- Takes the packet off the front of the bytes. A packet above the limit is refused as soon as its
    fixed header is there. -/
def decode (limit : Option Int) (s : Bytes) : Except Error Decoded :=
  match FixedHeader.read s with
  | .error e => .error e
  | .ok (header, t) =>
    -- The header may be padded, so its own size is counted and not computed.
    let size := s.length - t.length + header.remaining
    match exceeded? limit size with
    | some l => .error (.packetTooLarge header.type size l)
    | none =>
      let body := t.take header.remaining
      if body.length < header.remaining then .error .insufficientData
      else
        match decodeBody header.type header.flags body with
        | .error e => .error e
        | .ok packet => .ok ⟨packet, size, t.drop header.remaining⟩

/-- A packet takes at least the two bytes of the shortest fixed header. -/
theorem length_rest_of_decode {limit : Option Int} {s : Bytes} {d : Decoded}
    (h : decode limit s = .ok d) : d.rest.length + 2 ≤ s.length := by
  unfold decode at h
  split at h
  · cases h
  · rename_i header t hread
    have ht := FixedHeader.consumes_read hread
    dsimp only at h
    split at h
    · cases h
    · split at h
      · cases h
      · split at h
        · cases h
        · cases h
          simp only [List.length_drop]
          omega

/-! ### Encoding -/

/-- A packet that was written to a destination. -/
structure Encoded where
  packet : Packet
  /-- How many bytes the packet took. -/
  size : Nat
  /-- The whole destination afterwards. -/
  destination : Bytes

/-- What the log says of an encoded packet. -/
def Encoded.logLine (e : Encoded) : String :=
  "Encoded " ++ e.packet.type.name ++ " packet (" ++ toString e.size ++ " bytes)"

/-- Writes a packet to the front of a destination. -/
def encode (limit : Option Int) (p : Packet) (destination : Bytes) : Except Error Encoded :=
  match p.emit.result with
  | .error e => .error e
  | .ok frame =>
    match exceeded? limit frame.length with
    | some l => .error (.packetTooLarge p.type frame.length l)
    | none =>
      if destination.length < frame.length then
        .error (.bufferTooSmall frame.length destination.length)
      else
        .ok ⟨p, frame.length, frame ++ destination.drop frame.length⟩

/-- A destination keeps its size. -/
theorem length_destination_of_encode {limit : Option Int} {p : Packet} {destination : Bytes}
    {e : Encoded} (h : encode limit p destination = .ok e) :
    e.destination.length = destination.length := by
  unfold encode at h
  split at h
  · cases h
  · split at h
    · cases h
    · split at h
      · cases h
      · cases h
        simp only [List.length_append, List.length_drop]
        omega

end Mqtt
