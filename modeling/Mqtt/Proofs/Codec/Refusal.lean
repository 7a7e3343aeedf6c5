import Mqtt.Codec
import Mqtt.Proofs.Packet.Refusal

/-!
# What received bytes are refused for

* `ErrorKind.reasonCode?_of_received`: what the peer is told of an error about received bytes.
* `FixedHeader.sound_read` and `sound_decodeBody`: both parts of a frame are refused only for their
  bytes.
* `decode_eq_error`: so is the whole frame, unless it is above the limit.
* `decode_total`: whatever is received, the decoder gives a packet or an error to answer it with,
  and never an error about a value that a caller gave.
-/

namespace Mqtt

/-! ### What the peer is told -/

namespace ErrorKind

variable {k : ErrorKind}

/-- The peer is told of every error about received bytes but that they are incomplete: they are
    malformed, violate the protocol, or ask for a version that is not supported. -/
theorem reasonCode?_of_received (h : k.isA .malformed = true ∨ k.isA .protocol = true) :
    k = .incomplete ∧ k.reasonCode? = none ∨
      k ≠ .incomplete ∧ (k.reasonCode? = some .malformedPacket ∨
        k.reasonCode? = some .protocolError ∨
        k.reasonCode? = some .unsupportedProtocolVersion) := by
  revert h
  cases k <;> decide

/-- An error about received bytes is not about a value that a caller gave. -/
theorem isBadValue_of_received (h : k.isA .malformed = true ∨ k.isA .protocol = true) :
    k.isBadValue = false ∧ k ≠ .wrongType ∧ k ≠ .brokenPromise := by
  revert h
  cases k <;> decide

end ErrorKind

/-- Only the error for too few bytes is of the kind for it. -/
theorem Error.kind_eq_incomplete_iff {e : Error} :
    e.kind = .incomplete ↔ e = .insufficientData := by
  constructor
  · intro h
    cases e
    case insufficientData => rfl
    all_goals cases h
  · rintro rfl
    rfl

/-! ### Frames -/

namespace FixedHeader

/-- Flags are those of the packet type, or the header is malformed. -/
theorem sound_checkFlags (type : PacketType) (flags : Nat) :
    Check.Sound (checkFlags type flags) fun _ => True := by
  unfold checkFlags
  split
  case h_1 => exact Check.sound_ite (fun _ => Or.inl rfl) fun _ => trivial
  case h_2 => exact Check.sound_ite (fun _ => trivial) fun _ => Or.inl rfl

/-- The first byte is that of a packet, or the header is malformed. -/
theorem sound_ofFirstByte (b : UInt8) : Check.Sound (ofFirstByte b) fun _ => True := by
  unfold ofFirstByte
  dsimp only
  split
  case h_1 => exact Or.inl rfl
  case h_2 type _ => exact (sound_checkFlags type _).bind fun _ _ => trivial

/-- A fixed header is refused only for its bytes. -/
theorem sound_read : read.Sound fun _ => True := by
  refine (Integer.sound_read 1).bind fun b _ => ?_
  refine (Reader.sound_lift (sound_ofFirstByte _)).bind fun _ _ => ?_
  exact VarInt.sound_read.bind fun _ _ => Reader.sound_pure trivial

end FixedHeader

/-- A whole body is refused only for its bytes. -/
theorem sound_decodeBody (type : PacketType) (flags : Nat) (body : Bytes) :
    Check.Sound (decodeBody type flags body) fun _ => True := by
  have hread := Packet.sound_readBody type flags body
  unfold decodeBody
  split
  case h_1 => exact Or.inl rfl
  case h_2 e _ he => exact hread.isReceived he
  case h_3 => trivial
  case h_4 => exact Or.inl rfl

/-- A frame is refused for its bytes, or because it is above the limit. -/
theorem decode_eq_error {limit : Option Int} {s : Bytes} {e : Error}
    (h : decode limit s = .error e) :
    e.IsReceived ∨
      ∃ type l, ∃ size : Nat, limit = some l ∧ l < size ∧ e = .packetTooLarge type size l := by
  unfold decode at h
  split at h
  case h_1 e' he' =>
    obtain rfl := Except.error.inj h
    exact Or.inl ((FixedHeader.sound_read s).isReceived he')
  case h_2 header t _ =>
    dsimp only at h
    split at h
    case h_1 l hl =>
      obtain rfl := Except.error.inj h
      obtain ⟨hlimit, hlt⟩ := Option.filter_eq_some_iff.mp hl
      exact Or.inr ⟨_, l, _, hlimit, of_decide_eq_true hlt, rfl⟩
    case h_2 =>
      split at h
      case isTrue =>
        obtain rfl := Except.error.inj h
        exact Or.inl (Or.inl rfl)
      case isFalse =>
        split at h
        case h_1 e' he' =>
          obtain rfl := Except.error.inj h
          exact Or.inl ((sound_decodeBody _ _ _).isReceived he')
        case h_2 => cases h

/-- **Received bytes are decoded or answered.** Whatever bytes are decoded, they give a packet, or
    an error of one of these kinds: the bytes are malformed, or too few, or violate the protocol, or
    their packet is larger than the limit that was given. None of the errors about values that a
    caller gives comes up. There is a reason code to answer every error with, except that the bytes
    are too few. -/
theorem decode_total (limit : Option Int) (s : Bytes) :
    (∃ d, decode limit s = .ok d) ∨
      ∃ e, decode limit s = .error e ∧
        (e.kind.isA .malformed = true ∨ e.kind.isA .protocol = true ∨
          ∃ type l, ∃ size : Nat, limit = some l ∧ l < size ∧ e = .packetTooLarge type size l) ∧
        e.kind.isBadValue = false ∧ e.kind ≠ .wrongType ∧ e.kind ≠ .brokenPromise ∧
        (e.reasonCode? = none ↔ e = .insufficientData) ∧
        ∀ r, e.reasonCode? = some r → r.code ∈ [0x81, 0x82, 0x84, 0x95] := by
  cases h : decode limit s with
  | ok d => exact Or.inl ⟨d, rfl⟩
  | error e =>
    refine Or.inr ⟨e, rfl, ?_⟩
    rcases decode_eq_error h with hreceived | ⟨type, l, size, hlimit, hlt, rfl⟩
    · obtain ⟨hgiven, htype, hpromise⟩ := ErrorKind.isBadValue_of_received hreceived
      refine ⟨hreceived.imp_right Or.inl, hgiven, htype, hpromise, ?_⟩
      rw [← Error.kind_eq_incomplete_iff]
      unfold Error.reasonCode?
      rcases ErrorKind.reasonCode?_of_received hreceived with ⟨hkind, hnone⟩ | ⟨hkind, hsome⟩
      · rw [hnone]
        exact ⟨iff_of_true rfl hkind, fun _ hr => nomatch hr⟩
      · rcases hsome with hsome | hsome | hsome <;> rw [hsome]
        all_goals
          refine ⟨iff_of_false (Option.some_ne_none _) hkind, fun r hr => ?_⟩
          obtain rfl := Option.some.inj hr
          decide
    · refine ⟨Or.inr (Or.inr ⟨type, l, size, hlimit, hlt, rfl⟩), rfl, nofun, nofun,
        iff_of_false nofun nofun, fun r hr => ?_⟩
      obtain rfl := Option.some.inj hr
      decide

end Mqtt
