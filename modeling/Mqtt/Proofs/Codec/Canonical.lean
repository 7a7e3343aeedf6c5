import Mqtt.Proofs.Codec.RoundTrip
import Mqtt.Proofs.Packet.Canonical

/-!
# The shortest frame of a packet

* `Frame.emit_settled`: the packet of a frame may be built, is its own normal form, and is written
  in no more bytes than the frame has, but for an empty property block.
* `Frame.length_le_of_same`: no frame of a packet that is the same is shorter.
* `reencode_shortest`: what was decoded is written again as a frame that decodes to just that
  packet, and that is the shortest one of the packet.
-/

namespace Mqtt

variable {p q : Packet} {w : Bytes}

/-! ### Bounds -/

/-- A header is written in no more bytes than one with the length of a longer body, which may be
    padded. -/
theorem FixedHeader.fits_emit {type : PacketType} {flags j k : Nat} {l : Bytes}
    (hflags : type.Permits flags) (hl : VarInt.Form l k) (hjk : j ≤ k) :
    (emit type flags j).Fits (1 + l.length) := by
  have hmax := hl.le_max
  have hlt := hflags.1
  have hlen : (VarInt.digits j).length ≤ l.length :=
    Nat.le_trans (VarInt.length_digits_mono hjk) hl.2.length_digits_le
  unfold emit
  rw [if_neg (by omega), if_neg (by omega), VarInt.emit_natCast (by omega)]
  refine ⟨_, rfl, ?_⟩
  rw [List.length_append, List.length_singleton]
  omega

/-- A packet whose body keeps to a bound is written in no more bytes than any frame with a body of
    that size has. -/
theorem Packet.fits_emit {k : Nat} {l : Bytes} (hl : VarInt.Form l k) (hp : p.emitBody.Fits k) :
    p.emit.Fits (1 + l.length + k) :=
  hp.headed fun _ hjk => FixedHeader.fits_emit p.permits_flags hl hjk

/-- The packet of a frame may be built, is its own normal form, and is written in no more bytes than
    the frame has, or in one more if it keeps an empty block. -/
theorem Frame.emit_settled (h : Frame w p) :
    p.Built ∧ p.normal = p ∧
      (p.emit.Fits w.length ∨ p.keepsEmptyBlock = true ∧ p.emit.Fits (w.length + 1)) := by
  cases h with
  | @intro l body type flags _ _ hl hbody =>
    obtain ⟨hbuilt, hnormal, hfits⟩ := Packet.settled_of_body hbody
    have hsize : (UInt8.ofNat (16 * type.code + flags) :: (l ++ body)).length =
        1 + l.length + body.length := by
      rw [List.length_cons, List.length_append]
      omega
    refine ⟨hbuilt, hnormal, ?_⟩
    rw [hsize]
    rcases hfits with hfits | ⟨hkeeps, hlt, hfits⟩
    · exact Or.inl (Packet.fits_emit hl hfits)
    · -- The longer body still has a length of one byte, so the header does not grow with it.
      have hdigits := VarInt.length_digits_of_lt (n := body.length + 1) (by omega)
      have hlong : VarInt.Form (VarInt.digits (body.length + 1)) (body.length + 1) :=
        VarInt.form_digits (by simp only [VarInt.max]; omega)
      have hpos := hl.length_pos
      exact Or.inr ⟨hkeeps, (Packet.fits_emit hlong hfits).mono (by omega)⟩

/-- A packet that keeps no empty block is written in no more bytes than its frame has. -/
theorem Frame.fits_emit (h : Frame w p) (hkeeps : p.keepsEmptyBlock = false) :
    p.emit.Fits w.length := by
  obtain ⟨-, -, hfits⟩ := h.emit_settled
  rcases hfits with hfits | ⟨hkeeps', -⟩
  · exact hfits
  · rw [hkeeps] at hkeeps'
    cases hkeeps'

/-- A packet is written in at most one byte more than its frame has. -/
theorem Frame.fits_emit_succ (h : Frame w p) : p.emit.Fits (w.length + 1) := by
  obtain ⟨-, -, hfits⟩ := h.emit_settled
  rcases hfits with hfits | ⟨-, hfits⟩
  · exact hfits.mono (Nat.le_succ _)
  · exact hfits

/-- Of packets that are the same, both keep an empty block or neither does. -/
theorem Packet.keepsEmptyBlock_eq_of_same (h : p.same q = true) :
    p.keepsEmptyBlock = q.keepsEmptyBlock := by
  cases p <;> cases q <;> simp only [same, Bool.false_eq_true] at h
  case connack.connack p q =>
    simp only [ConnAck.same, Bool.and_eq_true, beq_iff_eq, ConnAck.mk.injEq, and_true] at h
    obtain ⟨⟨hr, -⟩, hp⟩ := h
    simp only [keepsEmptyBlock, hr, isEmpty_eq_of_same hp]
  case auth.auth p q =>
    simp only [Auth.same, Bool.and_eq_true] at h
    exact isEmpty_eq_of_same h.2
  all_goals rfl

/-- A packet that keeps no empty block is written in no more bytes than any frame of a packet that
    is the same has. -/
theorem Frame.length_le_of_same {f : Bytes} (h : Frame w q) (hsame : q.same p = true)
    (hkeeps : p.keepsEmptyBlock = false) (hf : p.emit = .done f) : f.length ≤ w.length := by
  have hkeeps' : q.keepsEmptyBlock = false := by
    rw [Packet.keepsEmptyBlock_eq_of_same hsame, hkeeps]
  obtain ⟨f', hf', hle⟩ := h.fits_emit hkeeps'
  have hsize := Packet.size?_emit_of_same hsame
  rw [hf, hf'] at hsize
  have hlen : f'.length = f.length := Option.some.inj hsize
  omega

/-! ### Decoding and writing again -/

/-- A packet that is written in some bytes is encoded to the front of any destination that holds
    them. -/
theorem encode_of_emit {f destination : Bytes} (h : p.emit = .done f)
    (hle : f.length ≤ destination.length) :
    encode none p destination = .ok ⟨p, f.length, f ++ destination.drop f.length⟩ := by
  rw [encode_of_emit_eq h]
  exact if_neg (Nat.not_lt.mpr hle)

/-- **What was decoded is written again in the shortest form.** If some bytes decode to a packet,
    then it is encoded to any destination that has room, as a frame that decodes to just that
    packet. Unless the packet keeps an empty block, no bytes that decode to a packet that is the
    same take less than this frame; else the frame is longer by at most one byte. -/
theorem reencode_shortest {s : Bytes} {d : Decoded} (h : decode none s = .ok d) :
    ∃ f, (∀ destination, f.length ≤ destination.length →
        encode none d.packet destination =
          .ok ⟨d.packet, f.length, f ++ destination.drop f.length⟩) ∧
      decode none f = .ok ⟨d.packet, f.length, []⟩ ∧
      (d.packet.keepsEmptyBlock = true → f.length ≤ d.size + 1) ∧
      (d.packet.keepsEmptyBlock = false → f.length ≤ d.size ∧
        ∀ s' d', decode none s' = .ok d' → d'.packet.same d.packet = true →
          f.length ≤ d'.size) := by
  obtain ⟨w, hframe, -, hsize, -⟩ := decode_eq_ok_iff.mp h
  obtain ⟨hbuilt, hnormal, hfits⟩ := hframe.emit_settled
  obtain ⟨f, hf, hle⟩ : d.packet.emit.Fits (w.length + 1) := by
    rcases hfits with hfits | ⟨-, hfits⟩
    · exact hfits.mono (Nat.le_succ _)
    · exact hfits
  refine ⟨f, fun _ => encode_of_emit hf, ?_, fun _ => by omega, fun hkeeps => ⟨?_, ?_⟩⟩
  · have hdecode := decode_append_of_emit (hnormal.symm ▸ hbuilt) hf []
    rwa [List.append_nil, hnormal] at hdecode
  · obtain ⟨f', hf', hle'⟩ := hframe.fits_emit hkeeps
    obtain rfl := Emission.done.inj (hf.symm.trans hf')
    omega
  · intro s' d' h' hsame
    obtain ⟨w', hframe', -, hsize', -⟩ := decode_eq_ok_iff.mp h'
    have hle' := hframe'.length_le_of_same hsame hkeeps hf
    omega

/-- The frame of a message with padded lengths and its properties mixed. -/
def looseFrame : Bytes :=
  [51, 157, 128, 0, 0, 3, 97, 47, 98, 0, 7, 146, 0, 35, 0, 5, 38, 0, 1, 107, 0, 1, 118, 11, 129, 0,
    1, 1, 11, 172, 2, 104, 105]

/-- The message of that frame. -/
def looseMessage : Packet := .publish
  { topic := Text.ofChars ['a', '/', 'b'], payload := [104, 105], packetId := some 7,
    retain := true, qos := .atLeastOnce,
    properties :=
      { table :=
          ⟨[(.topicAlias, .one (.number 5)),
            (.subscriptionIdentifier, .many [.number 1, .number 300]),
            (.payloadFormatIndicator, .one (.number 1))], by decide⟩,
        user := [(Text.ofChars ['k'], Text.ofChars ['v'])] } }

/-- The message is written again in the shortest form. -/
theorem reencode_shortest_looseFrame :
    decode none looseFrame = .ok ⟨looseMessage, 33, []⟩ ∧
      looseMessage.keepsEmptyBlock = false ∧
      ∃ f, (∀ destination, f.length ≤ destination.length →
          encode none looseMessage destination =
            .ok ⟨looseMessage, f.length, f ++ destination.drop f.length⟩) ∧
        decode none f = .ok ⟨looseMessage, f.length, []⟩ ∧
        (looseMessage.keepsEmptyBlock = true → f.length ≤ 33 + 1) ∧
        (looseMessage.keepsEmptyBlock = false → f.length ≤ 33 ∧
          ∀ s' d', decode none s' = .ok d' → d'.packet.same looseMessage = true →
            f.length ≤ d'.size) := by
  have hdecode : decode none looseFrame = .ok ⟨looseMessage, 33, []⟩ := by decide +kernel
  exact ⟨hdecode, rfl, reencode_shortest hdecode⟩

end Mqtt
