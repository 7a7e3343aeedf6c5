import Mqtt.Proofs.Codec.Stream
import Mqtt.Proofs.Wire.Continuation

/-!
# How long the decoder waits, and how far it gets

* `FixedHeader.length_lt_of_read`: the header is asked for only while fewer than five bytes are
  there.
* `decode_eq_insufficientData_iff`: the decoder asks for more exactly while the fixed header is not
  there, or while the body that it announces is not, unless the packet is above the limit.
* `length_lt_of_decode` and `size_of_decode`: of how many bytes the decoder may ask for more, and
  how many a packet takes.
* `length_drain`: each packet that is drained takes at least two bytes.
* `decode_waits_or_advances` puts this together, for one decoding and for the runs of a receiver.
-/

namespace Mqtt

variable {limit : Option Int} {s : Bytes}

/-! ### Fixed headers -/

namespace FixedHeader

/-- The first byte is right or wrong by itself. -/
theorem ofFirstByte_ne_insufficientData (b : UInt8) :
    ofFirstByte b ≠ .error .insufficientData := by
  unfold ofFirstByte checkFlags
  dsimp only
  split
  case h_1 => nofun
  case h_2 type _ =>
    split
    case h_1 => split <;> nofun
    case h_2 => split <;> nofun

/-- A fixed header is complete or wrong with its fifth byte. -/
theorem length_lt_of_read (h : read s = .error .insufficientData) : s.length < 5 := by
  cases s with
  | nil => exact Nat.succ_pos 4
  | cons b s =>
    have hfirst : Integer.read 1 (b :: s) = .ok (Bytes.value [b], s) := rfl
    unfold read at h
    rw [Reader.bind_of_ok hfirst] at h
    cases htype : ofFirstByte (.ofNat (Bytes.value [b])) with
    | error e =>
      rw [htype] at h
      obtain rfl := Except.error.inj h
      exact absurd htype (ofFirstByte_ne_insufficientData _)
    | ok r =>
      obtain ⟨type, flags⟩ := r
      rw [htype, Reader.bind_of_ok (Reader.lift_eq_ok_iff.mpr ⟨rfl, rfl⟩)] at h
      dsimp only at h
      cases hremaining : VarInt.read s with
      | ok r' =>
        rw [Reader.bind_of_ok (a := r'.1) (t := r'.2) hremaining] at h
        cases h
      | error e =>
        rw [Reader.bind_of_error hremaining] at h
        obtain rfl := Except.error.inj h
        exact Nat.succ_lt_succ (VarInt.read_eq_insufficientData_iff.mp hremaining).1

/-- A fixed header has two to five bytes, and what it announces has a bound. -/
theorem Form.bounds {header : FixedHeader} {hd : Bytes} (h : Form hd header) :
    2 ≤ hd.length ∧ hd.length ≤ 5 ∧ header.remaining ≤ 268435455 := by
  cases h with
  | intro _ hl =>
    have hpos := hl.length_pos
    have hfour : _ ≤ 4 := hl.1
    exact ⟨Nat.succ_le_succ hpos, Nat.succ_le_succ hfour, hl.le_max⟩

end FixedHeader

/-! ### Frames -/

/-- A packet is not above the limit if there is none or the packet is no larger. -/
theorem exceeded?_eq_none_iff {size : Nat} :
    exceeded? limit size = none ↔ ∀ m, limit = some m → (size : Int) ≤ m := by
  unfold exceeded?
  rw [Option.filter_eq_none_iff]
  simp

/-- A body is all there, so none of its fields asks for more. -/
theorem decodeBody_ne_insufficientData (type : PacketType) (flags : Nat) (body : Bytes) :
    decodeBody type flags body ≠ .error .insufficientData := by
  unfold decodeBody
  split
  case h_1 => nofun
  case h_2 e he _ => exact fun h => he (Except.error.inj h)
  case h_3 => nofun
  case h_4 => nofun

/-- **The decoder asks for more** exactly while the fixed header is not there to its end, or while
    the body that it announces is not, unless the packet is above the limit. -/
theorem decode_eq_insufficientData_iff :
    decode limit s = .error .insufficientData ↔
      FixedHeader.read s = .error .insufficientData ∨
        ∃ hd t header, FixedHeader.Form hd header ∧ s = hd ++ t ∧
          exceeded? limit (hd.length + header.remaining) = none ∧ t.length < header.remaining := by
  constructor
  · intro h
    cases hread : FixedHeader.read s with
    | error e =>
      unfold decode at h
      rw [hread] at h
      obtain rfl := Except.error.inj h
      exact Or.inl rfl
    | ok r =>
      obtain ⟨header, t⟩ := r
      obtain ⟨hd, hform, rfl⟩ := FixedHeader.reads_form.mp hread
      rw [decode_append_of_header hform] at h
      cases hlimit : exceeded? limit (hd.length + header.remaining) with
      | some l =>
        rw [hlimit] at h
        cases h
      | none =>
        rw [hlimit] at h
        dsimp only at h
        split at h
        case isTrue hshort => exact Or.inr ⟨hd, t, header, hform, rfl, hlimit, hshort⟩
        case isFalse =>
          -- The body is there, and what is wrong with it is final.
          cases hbody : decodeBody header.type header.flags (t.take header.remaining) with
          | ok p =>
            rw [hbody] at h
            cases h
          | error e =>
            rw [hbody] at h
            obtain rfl := Except.error.inj h
            exact absurd hbody (decodeBody_ne_insufficientData _ _ _)
  · rintro (hread | ⟨hd, t, header, hform, rfl, hlimit, hshort⟩)
    · unfold decode
      rw [hread]
    · rw [decode_append_of_header hform, hlimit]
      exact if_pos hshort

/-- The decoder asks for more only of bytes that no packet within the limit fills. -/
theorem length_lt_of_decode (h : decode limit s = .error .insufficientData) :
    s.length < 268435460 ∧ ∀ m, limit = some m → (s.length : Int) < max 5 m := by
  rcases decode_eq_insufficientData_iff.mp h with
    hread | ⟨hd, t, header, hform, rfl, hlimit, hshort⟩
  · have hlt := FixedHeader.length_lt_of_read hread
    refine ⟨by omega, fun m _ => ?_⟩
    omega
  · obtain ⟨-, hfive, hmax⟩ := hform.bounds
    rw [List.length_append]
    refine ⟨by omega, fun m hm => ?_⟩
    have hle := exceeded?_eq_none_iff.mp hlimit m hm
    omega

/-- Bytes that start with a whole frame are decoded or refused, whatever the frame holds. -/
theorem decode_ne_insufficientData {header : FixedHeader} {t : Bytes}
    (hread : FixedHeader.read s = .ok (header, t)) (hlen : header.remaining ≤ t.length) :
    decode limit s ≠ .error .insufficientData := by
  intro h
  rcases decode_eq_insufficientData_iff.mp h with hwait | ⟨hd, u, header', hform, rfl, -, hshort⟩
  · rw [hread] at hwait
    cases hwait
  · rw [FixedHeader.reads_form.read_append hform] at hread
    cases hread
    omega

/-- A decoded packet takes at least two bytes, no more than there are, and none above the limit. -/
theorem size_of_decode {d : Decoded} (h : decode limit s = .ok d) :
    2 ≤ d.size ∧ d.size ≤ s.length ∧ d.size ≤ 268435460 ∧
      (∀ m, limit = some m → (d.size : Int) ≤ m) ∧ s.length = d.size + d.rest.length := by
  obtain ⟨w, hframe, hlimit, hsize, rfl⟩ := decode_eq_ok_iff.mp h
  rw [List.length_append, hsize]
  cases hframe with
  | @intro l body type flags _ hpermits hl hbody =>
    have hform : FixedHeader.Form (.ofNat (16 * type.code + flags) :: l)
        ⟨type, flags, body.length⟩ := .intro hpermits hl
    obtain ⟨htwo, hfive, (hmax : body.length ≤ 268435455)⟩ := hform.bounds
    have hframe : (UInt8.ofNat (16 * type.code + flags) :: (l ++ body)).length =
        (UInt8.ofNat (16 * type.code + flags) :: l).length + body.length := by
      rw [← List.cons_append, List.length_append]
    rw [hframe] at hlimit ⊢
    exact ⟨by omega, by omega, by omega, exceeded?_eq_none_iff.mp hlimit, rfl⟩

/-! ### Runs -/

/-- Each packet that is drained takes at least two bytes. -/
theorem length_drain (limit : Option Int) (s : Bytes) :
    2 * (drain limit s).packets.length + (drain limit s).rest.length ≤ s.length := by
  induction s using drain.induct limit with
  | case1 s e h =>
    rw [drain_of_error h]
    exact Nat.le_of_eq (Nat.zero_add _)
  | case2 s d h _ ih =>
    have hd := length_rest_of_decode h
    rw [drain_of_ok h]
    dsimp only
    rw [List.length_cons]
    omega

/-- A receiver that has not stopped waits for more bytes behind those in its buffer. -/
theorem Receiver.Follows.decode_buffer {r : Receiver} {ps : List (Packet × Nat)}
    (h : r.Follows s ps) (hrunning : r.failure? = none) :
    decode r.limit r.buffer = .error .insufficientData := by
  cases h with
  | waiting _ _ hdecode => exact hdecode
  | stopped _ hfailure _ _ _ =>
    rw [hrunning] at hfailure
    cases hfailure

/-- **The decoder waits for a bounded number of bytes, and each packet advances it.** It asks for
    more only of fewer bytes than the largest packet has and, with a limit, of fewer than the limit
    or five; so it never does once the frame at the front is complete, whatever that holds. A packet
    that is decoded has at least two bytes, and no more than there are and than the limit allows, so
    that draining ends after at most half as many packets as there are bytes. A receiver that has
    not stopped, whatever chunks it got, keeps fewer bytes than that in its buffer. -/
theorem decode_waits_or_advances (limit : Option Int) (s : Bytes) :
    (decode limit s = .error .insufficientData →
      s.length < 268435460 ∧ ∀ m, limit = some m → (s.length : Int) < max 5 m) ∧
    (∀ header t, FixedHeader.read s = .ok (header, t) → header.remaining ≤ t.length →
      decode limit s ≠ .error .insufficientData) ∧
    (∀ d, decode limit s = .ok d →
      2 ≤ d.size ∧ d.size ≤ s.length ∧ d.size ≤ 268435460 ∧
        (∀ m, limit = some m → (d.size : Int) ≤ m) ∧ s.length = d.size + d.rest.length) ∧
    (drain limit s).packets.length ≤ s.length / 2 ∧
    ∀ chunks,
      let r := (({ limit } : Receiver).feedAll chunks).1
      r.failure? = none →
        r.buffer.length < 268435460 ∧ ∀ m, limit = some m → (r.buffer.length : Int) < max 5 m := by
  refine ⟨length_lt_of_decode, fun _ _ => decode_ne_insufficientData, fun _ => size_of_decode, ?_,
    ?_⟩
  · have hlen := length_drain limit s
    omega
  · intro chunks r hrunning
    have hfollows := (Receiver.follows_nil limit).feedAll chunks
    have hlimit : r.limit = limit := Receiver.limit_feedAll _ chunks
    have hwaits := hfollows.decode_buffer hrunning
    rw [hlimit] at hwaits
    exact length_lt_of_decode hwaits

-- A header may still be incomplete when more bytes are there than the limit allows for the packet.
example : decode (some 2) [0x30, 0x80, 0x80, 0x80] = .error .insufficientData := rfl

-- The string ends behind the frame, but the frame is complete.
example : decode none [0x10, 0x03, 0x00, 0x04, 0x4D] = .error (.truncatedPacket .connect) := by
  decide +kernel

end Mqtt
