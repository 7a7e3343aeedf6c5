import Mqtt.Proofs.Codec.Decoding
import Mqtt.Proofs.Packet.Writing

/-!
# The round trip of packets

* `encode_of_emit_eq`: what becomes of a packet that is written in known bytes. The limit is looked
  at before the room that the destination has.
* `decode_append_of_emit`: what is written as a packet decodes to the normal form of the packet,
  whatever bytes follow.
* `decode_emit_append`: a documented packet decodes to a packet that is the same, has its properties
  in the same order, and is written in the same bytes.
-/

namespace Mqtt

variable {p : Packet} {f : Bytes}

/-- A packet that is written in known bytes is refused if they are above the limit, and else if the
    destination has no room for them. -/
theorem encode_of_emit_eq (h : p.emit = .done f) (limit : Option Int) (destination : Bytes) :
    encode limit p destination =
      match exceeded? limit f.length with
      | some m => .error (.packetTooLarge p.type f.length m)
      | none =>
        if destination.length < f.length then
          .error (.bufferTooSmall f.length destination.length)
        else
          .ok ⟨p, f.length, f ++ destination.drop f.length⟩ := by
  unfold encode
  rw [h]
  rfl

/-- What is written as a packet decodes to its normal form, if that may be built. -/
theorem decode_append_of_emit (hp : p.normal.Built) (h : p.emit = .done f) (t : Bytes) :
    decode none (f ++ t) = .ok ⟨p.normal, f.length, t⟩ :=
  decode_eq_ok_iff.mpr ⟨f, Packet.frame_of_emit hp h, rfl, rfl, rfl⟩

/-- **The round trip of the codec.** If a documented packet that may be built is written, then it
    decodes, whatever bytes follow: exactly its own bytes are taken, and the packet that they give
    is the same, has its properties and those of its will in the same order, and is written in the
    same bytes again. -/
theorem decode_emit_append (hbuilt : p.Built) (hp : p.Documented) (h : p.emit = .done f)
    (t : Bytes) :
    ∃ d, decode none (f ++ t) = .ok d ∧ d.size = f.length ∧ d.rest = t ∧
      d.packet.same p = true ∧ d.packet.keys = p.keys ∧ d.packet.willKeys = p.willKeys ∧
      d.packet.emit = .done f := by
  obtain ⟨hkeys, hwillKeys⟩ := hp.keys_normal
  refine ⟨_, decode_append_of_emit (hp.built_normal_iff.mpr hbuilt) h t, rfl, rfl, hp.same_normal,
    hkeys, hwillKeys, ?_⟩
  -- The normal form is written in the same bytes, so the frame comes back.
  rw [← Emission.complete?_eq_some_iff, hp.complete?_emit_normal, Emission.complete?_eq_some_iff]
  exact h

/-- A message with properties of each shape. -/
def greeting : Packet := .publish
  { topic := Text.ofChars ['a', '/', 'b'], payload := [104, 105], packetId := some 7,
    retain := true, qos := .atLeastOnce,
    properties :=
      { table :=
          ⟨[(.topicAlias, .one (.number 5)), (.payloadFormatIndicator, .one (.flag true)),
            (.subscriptionIdentifier, .many [.number 1, .number 300])], by decide⟩,
        user := [(Text.ofChars ['k'], Text.ofChars ['v'])] } }

/-- The message has documented properties. -/
theorem documented_greeting : greeting.Documented where
  packet := by
    intro q hq
    obtain rfl := Option.some.inj hq
    refine ⟨by decide, fun e he => ?_⟩
    rcases List.mem_cons.mp he with rfl | he
    · exact .single rfl
    rcases List.mem_cons.mp he with rfl | he
    · exact .single rfl
    obtain rfl := List.mem_singleton.mp he
    exact .list rfl (by decide)
  will := by
    intro w hw
    cases hw

/-- The frame of the message. -/
def greetingFrame : Bytes :=
  [51, 27, 0, 3, 97, 47, 98, 0, 7, 17, 35, 0, 5, 1, 1, 11, 1, 11, 172, 2, 38, 0, 1, 107, 0, 1, 118,
   104, 105]

/-- The message goes round, with two more bytes behind its frame. -/
theorem decode_emit_append_greeting :
    greeting.Built ∧ greeting.Documented ∧ greeting.emit = .done greetingFrame ∧
      ∃ d, decode none (greetingFrame ++ [192, 0]) = .ok d ∧ d.size = greetingFrame.length ∧
        d.rest = [192, 0] ∧ d.packet.same greeting = true ∧ d.packet.keys = greeting.keys ∧
        d.packet.willKeys = greeting.willKeys ∧ d.packet.emit = .done greetingFrame := by
  have hbuilt : greeting.Built := .of_check (by decide +kernel) rfl
  have hemit : greeting.emit = .done greetingFrame := by decide +kernel
  exact ⟨hbuilt, documented_greeting, hemit,
    decode_emit_append hbuilt documented_greeting hemit [192, 0]⟩

end Mqtt
