import Mqtt.Proofs.Codec.Refusal
import Mqtt.Proofs.Codec.Sending
import Mqtt.Proofs.Codec.Waiting

/-!
# Size limits

* `Within limit size`: a packet of this size is not above the limit.
* `encode_eq_ok_iff_within`, `encode_eq_packetTooLarge_iff` and `encode_eq_bufferTooSmall_iff`: what
  becomes of a packet that is written in known bytes.
* `Announces s type size`: the bytes start with a fixed header, and the packet that it announces has
  this type and this size. Its body need not be there.
* `decode_eq_packetTooLarge_iff` and `decode_eq_decode_none`: a limit has the decoder refuse the
  packets that are announced above it, and makes no other difference.
* `size_limits_exact`: writers and readers draw the line at the same size.
-/

namespace Mqtt

variable {limit : Option Int} {p : Packet} {f s : Bytes} {type : PacketType} {size : Nat} {m : Int}

/-- The size is not above the limit, if there is one. -/
def Within (limit : Option Int) (size : Nat) : Prop := ∀ m, limit = some m → (size : Int) ≤ m

/-- What is within the limit exceeds none. -/
theorem Within.exceeded?_eq_none (h : Within limit size) : exceeded? limit size = none :=
  exceeded?_eq_none_iff.mpr h

/-- A limit that is exceeded is the one that was given, and the size is above it. -/
theorem exceeded?_eq_some_iff : exceeded? limit size = some m ↔ limit = some m ∧ m < size := by
  simp [exceeded?, Option.filter_eq_some_iff]

/-! ### Encoding -/

/-- The packet is written exactly if its frame is within the limit and has room. -/
theorem encode_eq_ok_iff_within (h : p.emit = .done f) {destination : Bytes} {e : Encoded} :
    encode limit p destination = .ok e ↔
      Within limit f.length ∧ f.length ≤ destination.length ∧
        e = ⟨p, f.length, f ++ destination.drop f.length⟩ := by
  simp [encode_eq_ok_iff, h, exceeded?_eq_none_iff, Within]

/-- The packet is too large exactly if its frame is above the limit, whatever the destination. -/
theorem encode_eq_packetTooLarge_iff (h : p.emit = .done f) {destination : Bytes} :
    encode limit p destination = .error (.packetTooLarge type size m) ↔
      (type = p.type ∧ size = f.length) ∧ limit = some m ∧ m < f.length := by
  rw [encode_of_emit_eq h, ← exceeded?_eq_some_iff]
  cases exceeded? limit f.length with
  | some l => simp [and_assoc, eq_comm]
  | none =>
    dsimp only
    split <;> simp

/-- The destination is too small exactly if the frame is within the limit and has no room. -/
theorem encode_eq_bufferTooSmall_iff (h : p.emit = .done f) {destination : Bytes}
    {required available : Nat} :
    encode limit p destination = .error (.bufferTooSmall required available) ↔
      (required = f.length ∧ available = destination.length) ∧
        Within limit f.length ∧ destination.length < f.length := by
  rw [encode_of_emit_eq h, Within, ← exceeded?_eq_none_iff]
  cases exceeded? limit f.length with
  | some l => simp
  | none =>
    dsimp only
    split
    case isTrue hlt => simp [hlt, eq_comm]
    case isFalse hle => simp [hle]

/-! ### Decoding -/

/-- The bytes start with a fixed header, which announces a packet of this type and of this size,
    its header included. Nothing is said of the bytes behind the header. -/
inductive Announces : Bytes → PacketType → Nat → Prop
  | intro {hd : Bytes} {header : FixedHeader} (t : Bytes) :
      FixedHeader.Form hd header → Announces (hd ++ t) header.type (hd.length + header.remaining)

/-- The bytes announce at most one packet. -/
theorem Announces.unique {type' : PacketType} {size' : Nat} (h : Announces s type size)
    (h' : Announces s type' size') : type = type' ∧ size = size' := by
  obtain @⟨hd, header, t, hform⟩ := h
  generalize hs : hd ++ t = s' at h'
  obtain @⟨hd', header', t', hform'⟩ := h'
  obtain ⟨rfl, rfl, -⟩ := FixedHeader.reads_form.unique hform hform' hs
  exact ⟨rfl, rfl⟩

/-- A packet that is announced above the limit is refused for its size. -/
theorem Announces.decode_eq_error (h : Announces s type size) (hlt : m < size) :
    decode (some m) s = .error (.packetTooLarge type size m) := by
  cases h with
  | intro t hform => rw [decode_append_of_header hform, exceeded?_eq_some_iff.mpr ⟨rfl, hlt⟩]

/-- A packet that is announced within the limit is decoded as without one. -/
theorem Announces.decode_eq_decode_none (h : Announces s type size) (hlimit : Within limit size) :
    decode limit s = decode none s := by
  cases h with
  | intro t hform =>
    rw [decode_append_of_header hform, decode_append_of_header hform, hlimit.exceeded?_eq_none]
    rfl

/-- Bytes that announce no packet are refused for what is wrong with the header, or missing, and the
    limit makes no difference. -/
theorem decode_eq_decode_none_of_not_announces (h : ∀ type size, ¬Announces s type size) :
    decode limit s = decode none s := by
  cases hread : FixedHeader.read s with
  | error e =>
    unfold decode
    rw [hread]
  | ok r =>
    obtain ⟨hd, hform, rfl⟩ := FixedHeader.reads_form.mp hread
    exact absurd (.intro r.2 hform) (h _ _)

/-- Without a limit, no packet is too large. -/
theorem decode_none_ne_packetTooLarge : decode none s ≠ .error (.packetTooLarge type size m) := by
  intro h
  rcases decode_eq_error h with hreceived | ⟨_, _, _, hlimit, -⟩
  · have hkind : ErrorKind.packetTooLarge.isA .malformed = true ∨
        ErrorKind.packetTooLarge.isA .protocol = true := hreceived
    exact absurd hkind (by decide)
  · cases hlimit

/-- **A packet is too large** for the decoder exactly if it is announced above the limit. -/
theorem decode_eq_packetTooLarge_iff :
    decode limit s = .error (.packetTooLarge type size m) ↔
      Announces s type size ∧ limit = some m ∧ m < size := by
  refine ⟨fun h => ?_, fun ⟨hs, hlimit, hlt⟩ => hlimit ▸ hs.decode_eq_error hlt⟩
  by_cases hs : ∃ type size, Announces s type size
  · obtain ⟨type', size', hs⟩ := hs
    by_cases hlimit : Within limit size'
    · rw [hs.decode_eq_decode_none hlimit] at h
      exact absurd h decode_none_ne_packetTooLarge
    · obtain ⟨m', rfl, hlt⟩ : ∃ m', limit = some m' ∧ m' < size' := by
        simpa [Within] using hlimit
      rw [hs.decode_eq_error hlt] at h
      cases h
      exact ⟨hs, rfl, hlt⟩
  · rw [decode_eq_decode_none_of_not_announces fun type size h => hs ⟨type, size, h⟩] at h
    exact absurd h decode_none_ne_packetTooLarge

/-- **A limit makes no other difference** than to have some packets refused as too large. -/
theorem decode_eq_decode_none
    (h : ∀ type size m, decode limit s ≠ .error (.packetTooLarge type size m)) :
    decode limit s = decode none s := by
  by_cases hs : ∃ type size, Announces s type size
  · obtain ⟨type, size, hs⟩ := hs
    refine hs.decode_eq_decode_none fun m hlimit => ?_
    by_contra hlt
    exact h type size m (decode_eq_packetTooLarge_iff.mpr ⟨hs, hlimit, by omega⟩)
  · exact decode_eq_decode_none_of_not_announces fun type size h => hs ⟨type, size, h⟩

/-- What is written as a packet announces its type and its size, whatever bytes follow. -/
theorem announces_of_emit (h : p.emit = .done f) (t : Bytes) :
    Announces (f ++ t) p.type f.length := by
  obtain ⟨body, -, hmax, rfl⟩ := Packet.emit_eq_done_iff.mp h
  have hform : FixedHeader.Form
      (.ofNat (16 * p.type.code + p.flags) :: VarInt.digits body.length)
      ⟨p.type, p.flags, body.length⟩ := .intro p.permits_flags (VarInt.form_digits hmax)
  have hs := Announces.intro (body ++ t) hform
  rw [← List.append_assoc, ← List.length_append] at hs
  exact hs

/-! ### Both sides -/

/-- **Size limits are exact, and both sides draw the line at the same size.** A packet that is
    written in known bytes is encoded exactly if they are within the limit and the destination has
    room for them. It is too large exactly if they are above the limit. The destination is too small
    exactly if they are within the limit and have no room, and then any destination with as much
    room as was required will do. The decoder, too, finds the packet too large exactly if its bytes
    are above the limit, whatever follows them.

    Of any bytes, the decoder finds the packet too large exactly if a fixed header stands in front
    that announces a size above the limit, whether the body is there or not and whatever it holds.
    All other bytes it treats as it does without a limit. -/
theorem size_limits_exact (limit : Option Int) :
    (∀ p f, p.emit = .done f → ∀ destination t,
      (∀ e, encode limit p destination = .ok e ↔
        Within limit f.length ∧ f.length ≤ destination.length ∧
          e = ⟨p, f.length, f ++ destination.drop f.length⟩) ∧
      (∀ type size m, encode limit p destination = .error (.packetTooLarge type size m) ↔
        (type = p.type ∧ size = f.length) ∧ limit = some m ∧ m < f.length) ∧
      (∀ required available,
        encode limit p destination = .error (.bufferTooSmall required available) ↔
          (required = f.length ∧ available = destination.length) ∧
            Within limit f.length ∧ destination.length < f.length) ∧
      (∀ required available destination',
        encode limit p destination = .error (.bufferTooSmall required available) →
          required ≤ destination'.length →
            ∃ e, encode limit p destination' = .ok e ∧ e.size = required) ∧
      ∀ type size m, decode limit (f ++ t) = .error (.packetTooLarge type size m) ↔
        (type = p.type ∧ size = f.length) ∧ limit = some m ∧ m < f.length) ∧
    ∀ s,
      (∀ type size m, decode limit s = .error (.packetTooLarge type size m) ↔
        Announces s type size ∧ limit = some m ∧ m < size) ∧
      ((∀ type size m, decode limit s ≠ .error (.packetTooLarge type size m)) →
        decode limit s = decode none s) := by
  refine ⟨fun p f h destination t => ⟨fun e => encode_eq_ok_iff_within h,
    fun type size m => encode_eq_packetTooLarge_iff h,
    fun required available => encode_eq_bufferTooSmall_iff h, ?_, ?_⟩,
    fun s => ⟨fun type size m => decode_eq_packetTooLarge_iff, decode_eq_decode_none⟩⟩
  · intro required available destination' htoo hroom
    obtain ⟨⟨rfl, -⟩, hlimit, -⟩ := (encode_eq_bufferTooSmall_iff h).mp htoo
    exact ⟨_, (encode_eq_ok_iff_within h).mpr ⟨hlimit, hroom, rfl⟩, rfl⟩
  · intro type size m
    have hs := announces_of_emit h t
    rw [decode_eq_packetTooLarge_iff]
    refine ⟨fun ⟨hs', hlimit, hlt⟩ => ?_, fun ⟨⟨htype, hsize⟩, hlimit, hlt⟩ => ?_⟩
    · obtain ⟨rfl, rfl⟩ := hs'.unique hs
      exact ⟨⟨rfl, rfl⟩, hlimit, hlt⟩
    · subst htype hsize
      exact ⟨hs, hlimit, hlt⟩

/-- The two bytes of a PINGREQ are within a limit of two bytes and above one of a single byte. -/
theorem size_limits_exact_pingreq :
    Packet.emit .pingreq = .done [0xC0, 0] ∧
      encode (some 2) .pingreq [7, 7, 7] = .ok ⟨.pingreq, 2, [0xC0, 0, 7]⟩ ∧
      encode (some 2) .pingreq [7] = .error (.bufferTooSmall 2 1) ∧
      encode (some 1) .pingreq [7, 7, 7] = .error (.packetTooLarge .pingreq 2 1) ∧
      decode (some 1) [0xC0, 0, 9] = .error (.packetTooLarge .pingreq 2 1) := by
  have hemit : Packet.emit .pingreq = .done [0xC0, 0] := by decide +kernel
  have hwithin : Within (some 2) 2 := by simp [Within]
  obtain ⟨hok, -⟩ := (size_limits_exact (some 2)).1 _ _ hemit [7, 7, 7] []
  obtain ⟨-, -, hsmall, -⟩ := (size_limits_exact (some 2)).1 _ _ hemit [7] []
  obtain ⟨-, hlarge, -, -, hdecode⟩ := (size_limits_exact (some 1)).1 _ _ hemit [7, 7, 7] [9]
  refine ⟨hemit, (hok _).mpr ⟨hwithin, by decide, rfl⟩,
    (hsmall _ _).mpr ⟨⟨rfl, rfl⟩, hwithin, by decide⟩, ?_, ?_⟩
  · exact (hlarge _ _ _).mpr ⟨⟨rfl, rfl⟩, rfl, by decide⟩
  · exact (hdecode _ _ _).mpr ⟨⟨rfl, rfl⟩, rfl, by decide⟩

-- The length of the header counts, and so does its padding: two bytes are announced in five.
example : decode (some 6) [0xC0, 0x82, 0x80, 0x80, 0x00] =
    .error (.packetTooLarge .pingreq 7 6) := by decide

end Mqtt
