import Mqtt.Proofs.Codec.Acceptance
import Mqtt.Proofs.Codec.Sending

/-!
# Packets that are the same are interchangeable

Whether two packets are the same does not depend on the order in which their properties were
stored, yet the encoder goes through the properties in that order.

* `exists_encode_iff`: whether a packet is encoded depends on the size of its frame only.
* `decode_append_of_same`: the frames of two packets that are the same decode to packets that are
  the same, or are both refused for the same reason.
* `encode_decode_of_same`: the codec as a whole does not tell two such packets apart.
-/

namespace Mqtt

variable {limit : Option Int} {p q : Packet}

/-! ### Encoding -/

/-- The bytes that an encoded packet takes in the destination. -/
def Encoded.frame (e : Encoded) : Bytes := e.destination.take e.size

/-- What an encoded packet takes in the destination is what it is written in. -/
theorem emit_of_encode {destination : Bytes} {e : Encoded}
    (h : encode limit p destination = .ok e) :
    p.emit = .done e.frame ∧ e.size = e.frame.length := by
  obtain ⟨f, hemit, -, -, rfl⟩ := encode_eq_ok_iff.mp h
  have hframe : Encoded.frame ⟨p, f.length, f ++ destination.drop f.length⟩ = f :=
    List.take_left
  rw [hframe]
  exact ⟨hemit, rfl⟩

/-- Whether a packet is encoded depends on the size of its frame only: it must not be above the
    limit, and the destination must have room for it. -/
theorem exists_encode_iff {destination : Bytes} :
    (∃ e, encode limit p destination = .ok e) ↔
      ∃ n, p.emit.size? = some n ∧ exceeded? limit n = none ∧ n ≤ destination.length := by
  constructor
  · rintro ⟨e, he⟩
    obtain ⟨f, hemit, hlimit, hroom, -⟩ := encode_eq_ok_iff.mp he
    exact ⟨f.length, Emission.size?_eq_some_iff.mpr ⟨f, hemit, rfl⟩, hlimit, hroom⟩
  · rintro ⟨n, hsize, hlimit, hroom⟩
    obtain ⟨f, hemit, rfl⟩ := Emission.size?_eq_some_iff.mp hsize
    exact ⟨_, encode_eq_ok_iff.mpr ⟨f, hemit, hlimit, hroom, rfl⟩⟩

/-- The frames of packets that are the same have the same length. -/
theorem length_eq_of_same {f g : Bytes} (h : p.same q = true) (hf : p.emit = .done f)
    (hg : q.emit = .done g) : f.length = g.length := by
  have hsize := Packet.size?_emit_of_same h
  rw [Emission.size?_eq_some_iff.mpr ⟨f, hf, rfl⟩, Emission.size?_eq_some_iff.mpr ⟨g, hg, rfl⟩]
    at hsize
  exact Option.some.inj hsize

/-! ### Decoding -/

/-- **The frames of packets that are the same** are refused for the same reason, or decode to
    packets that are the same, whatever bytes follow. -/
theorem decode_append_of_same {f g : Bytes} (hp : p.Built) (hq : q.Built) (h : p.same q = true)
    (hf : p.emit = .done f) (hg : q.emit = .done g) (limit : Option Int) (t : Bytes) :
    (∃ e, decode limit (f ++ t) = .error e ∧ decode limit (g ++ t) = .error e) ∨
      ∃ a b, decode limit (f ++ t) = .ok ⟨a, f.length, t⟩ ∧
        decode limit (g ++ t) = .ok ⟨b, g.length, t⟩ ∧ a.same b = true := by
  have hlength := length_eq_of_same h hf hg
  have htype : p.type = q.type := (Packet.size?_emitBody_of_same h).1
  rw [decode_append_of_emit_limit hf, decode_append_of_emit_limit hg, hlength, htype]
  cases exceeded? limit g.length with
  | some l => exact Or.inl ⟨_, rfl, rfl⟩
  | none =>
    have hloses := Packet.losesAlias_eq_of_same h
    cases hkeeps : p.losesAlias with
    | true =>
      -- Neither frame holds anything that stands for the topic.
      left
      exact ⟨_, decode_append_of_losesAlias hp hkeeps hf t,
        decode_append_of_losesAlias hq (hloses.symm.trans hkeeps) hg t⟩
    | false =>
      right
      refine ⟨p.normal, q.normal, ?_, ?_, Packet.same_normal_of_same h⟩
      · rw [← hlength]
        exact decode_append_of_emit (hp.built_normal_iff.mpr hkeeps) hf t
      · exact decode_append_of_emit (hq.built_normal_iff.mpr (hloses.symm.trans hkeeps)) hg t

/-! ### The codec as a whole -/

/-- **Packets that are the same are interchangeable.** Of two packets that may be built and are the
    same, both are encoded or neither, whatever the limit and the destination. The frames that they
    are encoded in have the same length, and the decoder refuses both, for the same reason, or
    accepts both, takes exactly the frames, and gives packets that are the same. -/
theorem encode_decode_of_same (hp : p.Built) (hq : q.Built) (h : p.same q = true) :
    (∀ limit destination, (∃ e, encode limit p destination = .ok e) ↔
      ∃ e, encode limit q destination = .ok e) ∧
    ∀ limit destination e limit' destination' e', encode limit p destination = .ok e →
      encode limit' q destination' = .ok e' →
      e.size = e'.size ∧ e.frame.length = e.size ∧ e'.frame.length = e'.size ∧
      ∀ limit t,
        (∃ x, decode limit (e.frame ++ t) = .error x ∧ decode limit (e'.frame ++ t) = .error x) ∨
        ∃ a b, decode limit (e.frame ++ t) = .ok ⟨a, e.size, t⟩ ∧
          decode limit (e'.frame ++ t) = .ok ⟨b, e'.size, t⟩ ∧ a.same b = true := by
  constructor
  · intro limit destination
    rw [exists_encode_iff, exists_encode_iff, Packet.size?_emit_of_same h]
  · intro limit destination e limit' destination' e' he he'
    obtain ⟨hf, hsize⟩ := emit_of_encode he
    obtain ⟨hg, hsize'⟩ := emit_of_encode he'
    have hlength := length_eq_of_same h hf hg
    rw [hsize, hsize']
    exact ⟨hlength, rfl, rfl, decode_append_of_same hp hq h hf hg⟩

/-- A request to connect, with properties of its own and of its will. -/
def request : Packet := .connect
  { clientId := Text.ofChars ['c'], cleanStart := true, keepAlive := 60
    will := some
      { topic := Text.ofChars ['w'], payload := [1, 2]
        properties :=
          { table :=
              ⟨[(.payloadFormatIndicator, .one (.flag true)),
                (.willDelayInterval, .one (.number 5))], by decide⟩ } }
    properties :=
      { table :=
          ⟨[(.requestProblemInformation, .one (.flag true)),
            (.receiveMaximum, .one (.number 20))], by decide⟩ } }

/-- The same request, with the properties stored in the other order and numbers for the flags. -/
def reorderedRequest : Packet := .connect
  { clientId := Text.ofChars ['c'], cleanStart := true, keepAlive := 60
    will := some
      { topic := Text.ofChars ['w'], payload := [1, 2]
        properties :=
          { table :=
              ⟨[(.willDelayInterval, .one (.number 5)),
                (.payloadFormatIndicator, .one (.number 1))], by decide⟩ } }
    properties :=
      { table :=
          ⟨[(.receiveMaximum, .one (.number 20)),
            (.requestProblemInformation, .one (.number 1))], by decide⟩ } }

/-- The frames of the two requests. -/
def requestFrames : Bytes × Bytes :=
  ([16, 34, 0, 4, 77, 81, 84, 84, 5, 6, 0, 60, 5, 23, 1, 33, 0, 20, 0, 1, 99, 7, 1, 1, 24, 0, 0, 0,
    5, 0, 1, 119, 0, 2, 1, 2],
   [16, 34, 0, 4, 77, 81, 84, 84, 5, 6, 0, 60, 5, 33, 0, 20, 23, 1, 0, 1, 99, 7, 24, 0, 0, 0, 5, 1,
    1, 0, 1, 119, 0, 2, 1, 2])

/-- The two requests are encoded in different bytes, which are interchangeable. -/
theorem encode_decode_of_same_request :
    request.Built ∧ reorderedRequest.Built ∧ request.same reorderedRequest = true ∧
      ∃ e e', encode none request (List.replicate 40 0) = .ok e ∧
        encode none reorderedRequest (List.replicate 40 0) = .ok e' ∧
        (e.frame, e'.frame) = requestFrames ∧ e.size = e'.size ∧
        ∃ a b, decode none (e.frame ++ [208, 0]) = .ok ⟨a, e.size, [208, 0]⟩ ∧
          decode none (e'.frame ++ [208, 0]) = .ok ⟨b, e'.size, [208, 0]⟩ ∧ a.same b = true := by
  have hp : request.Built := .of_check rfl rfl
  have hq : reorderedRequest.Built := .of_check rfl rfl
  have hsame : request.same reorderedRequest = true := by decide +kernel
  have hf : request.emit = .done requestFrames.1 := by decide +kernel
  have hg : reorderedRequest.emit = .done requestFrames.2 := by decide +kernel
  obtain ⟨e, he⟩ : ∃ e, encode none request (List.replicate 40 0) = .ok e :=
    ⟨_, encode_eq_ok_iff.mpr ⟨_, hf, rfl, by decide, rfl⟩⟩
  obtain ⟨hencode, hframes⟩ := encode_decode_of_same hp hq hsame
  -- As the one request is encoded, so is the other.
  obtain ⟨e', he'⟩ := (hencode none (List.replicate 40 0)).mp ⟨e, he⟩
  obtain ⟨hsize, -, -, hdecode⟩ := hframes _ _ _ _ _ _ he he'
  have heq : e.frame = requestFrames.1 := Emission.done.inj ((emit_of_encode he).1.symm.trans hf)
  have heq' : e'.frame = requestFrames.2 := Emission.done.inj ((emit_of_encode he').1.symm.trans hg)
  refine ⟨hp, hq, hsame, e, e', he, he', Prod.ext heq heq', hsize, ?_⟩
  rcases hdecode none [208, 0] with ⟨x, hx, -⟩ | haccepted
  · have hok := decode_append_of_emit (hp.built_normal_iff.mpr rfl) hf [208, 0]
    rw [← heq, hx] at hok
    cases hok
  · exact haccepted

end Mqtt
