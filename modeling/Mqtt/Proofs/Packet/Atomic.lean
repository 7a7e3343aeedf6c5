import Mqtt.Proofs.Packet.Writing
import Mqtt.Proofs.Property.Atomic

/-!
# Packets are written whole or not at all

* `Packet.WellTyped`: the properties of a packet are well typed, and so are those of its will.
* `failsWith_emitBody`: the body of such a packet is written, or the error is about a value that was
  given. There is one such lemma for each layout. The parts of a body stand in a row, so a failure
  may leave some of them behind.
* `Packet.WellTyped.whole_emit`: the packet as a whole leaves nothing behind, since its fixed header
  is written last. `Subscription.whole_emit`: neither does a subscription.
* `Packet.emit_all_or_nothing`: what this means for the buffers that a packet, a property block or
  a subscription is put on.
-/

namespace Mqtt

/-! ### Shared fields -/

/-- A reason code is always written. -/
theorem ReasonCode.failsWith_emit (r : ReasonCode) : r.emit.FailsWith Error.IsGiven :=
  (Integer.whole_emit 1 r.code).failsWith

/-- A reason code and properties are written, or the error is about a value. -/
theorem Carrier.failsWith_emitOutcome (c : Carrier) (r : ReasonCode) {p : Properties}
    (hp : p.WellTyped) : (c.emitOutcome r p).FailsWith Error.IsGiven := by
  unfold emitOutcome
  split
  case isTrue =>
    split
    case isTrue => exact (Emission.whole_done []).failsWith
    case isFalse => exact r.failsWith_emit
  case isFalse => exact r.failsWith_emit.append (hp.whole_emit c).failsWith

/-- A subscription is written whole or not at all: its options always fit into their byte. -/
theorem Subscription.whole_emit (s : Subscription) : s.emit.Whole Error.IsGiven := by
  have hoptions : s.options < 256 ^ 1 := Nat.lt_trans s.options_lt (by decide)
  unfold emit
  rw [Integer.emit_natCast hoptions]
  exact s.pattern.whole_emit.append_done _

/-! ### Layouts -/

/-- A will is written, or the error is about a value. -/
theorem Will.failsWith_emit {w : Will} (hw : w.properties.WellTyped) :
    w.emit.FailsWith Error.IsGiven :=
  ((hw.whole_emit .will).failsWith.append w.topic.whole_emit.failsWith).append
    (Binary.whole_emit w.payload).failsWith

/-- The body of a CONNECT is written, or the error is about a value. -/
theorem Connect.failsWith_emitBody {p : Connect} (hp : p.properties.WellTyped)
    (hw : ∀ w ∈ p.will, w.properties.WellTyped) : p.emitBody.FailsWith Error.IsGiven := by
  have hname := protocolName.whole_emit.failsWith
  have hversion := (Integer.whole_emit 1 protocolVersion).failsWith
  have hflags := (Integer.whole_emit 1 p.flags).failsWith
  have hkeepAlive := (Integer.whole_emit 2 p.keepAlive).failsWith
  have hproperties := (hp.whole_emit (.packet .connect)).failsWith
  have hclientId := p.clientId.whole_emit.failsWith
  have hwill : (Emission.option Will.emit p.will).FailsWith Error.IsGiven :=
    Emission.failsWith_option fun w hmem => Will.failsWith_emit (hw w hmem)
  have husername : (Emission.option Text.emit p.username).FailsWith Error.IsGiven :=
    Emission.failsWith_option fun t _ => t.whole_emit.failsWith
  have hpassword : (Emission.option Binary.emit p.password).FailsWith Error.IsGiven :=
    Emission.failsWith_option fun bs _ => (Binary.whole_emit bs).failsWith
  have hheader := ((hname.append hversion).append hflags).append hkeepAlive
  exact ((((hheader.append hproperties).append hclientId).append hwill).append husername).append
    hpassword

/-- The body of a CONNACK is written, or the error is about a value. -/
theorem ConnAck.failsWith_emitBody {p : ConnAck} (hp : p.properties.WellTyped) :
    p.emitBody.FailsWith Error.IsGiven := by
  have hflags := (Integer.whole_emit 1 p.sessionPresent.toNat).failsWith
  exact (hflags.append p.reasonCode.failsWith_emit).append
    (hp.whole_emit (.packet .connack)).failsWith

/-- The body of a PUBLISH is written, or the error is about a value. -/
theorem Publish.failsWith_emitBody {p : Publish} (hp : p.properties.WellTyped) :
    p.emitBody.FailsWith Error.IsGiven := by
  have htopic := p.topic.whole_emit.failsWith
  have hpacketId : (Emission.option (Integer.emit 2) p.packetId).FailsWith Error.IsGiven :=
    Emission.failsWith_option fun n _ => (Integer.whole_emit 2 n).failsWith
  have hproperties := (hp.whole_emit (.packet .publish)).failsWith
  exact ((htopic.append hpacketId).append hproperties).append
    (Emission.whole_done p.payload).failsWith

/-- The body of a response to a PUBLISH is written, or the error is about a value. -/
theorem PublishResponse.failsWith_emitBody (c : Carrier) {p : PublishResponse}
    (hp : p.properties.WellTyped) : (p.emitBody c).FailsWith Error.IsGiven :=
  (Integer.whole_emit 2 p.packetId).failsWith.append (c.failsWith_emitOutcome p.reasonCode hp)

/-- A packet identifier and properties stand before the values of a list in SUBSCRIBE, UNSUBSCRIBE
    and the answers to them. They are written, or the error is about a value. -/
theorem Emission.failsWith_listing {α : Type} (n : Int) (c : Carrier) {p : Properties}
    {f : α → Emission} {xs : List α} (hp : p.WellTyped)
    (hf : ∀ x ∈ xs, (f x).FailsWith Error.IsGiven) :
    (Integer.emit 2 n ++ p.emit c ++ concat f xs).FailsWith Error.IsGiven :=
  ((Integer.whole_emit 2 n).failsWith.append (hp.whole_emit c).failsWith).append
    (failsWith_concat hf)

/-! ### All packets -/

namespace Packet

/-- The properties of the packet are well typed, and so are those of its will. -/
structure WellTyped (p : Packet) : Prop where
  packet : ∀ q ∈ p.properties?, q.WellTyped
  will : ∀ w ∈ p.will?, w.properties.WellTyped

/-- The body of a packet is written, or the error is about a value. -/
theorem WellTyped.failsWith_emitBody {p : Packet} (hp : p.WellTyped) :
    p.emitBody.FailsWith Error.IsGiven := by
  have hwill := hp.will
  replace hp := hp.packet
  cases p with
  | connect p => exact Connect.failsWith_emitBody (hp _ rfl) hwill
  | connack p => exact ConnAck.failsWith_emitBody (hp _ rfl)
  | publish p => exact Publish.failsWith_emitBody (hp _ rfl)
  | puback p => exact PublishResponse.failsWith_emitBody (.packet .puback) (hp _ rfl)
  | pubrec p => exact PublishResponse.failsWith_emitBody (.packet .pubrec) (hp _ rfl)
  | pubrel p => exact PublishResponse.failsWith_emitBody (.packet .pubrel) (hp _ rfl)
  | pubcomp p => exact PublishResponse.failsWith_emitBody (.packet .pubcomp) (hp _ rfl)
  | subscribe p =>
    exact Emission.failsWith_listing p.packetId (.packet .subscribe) (hp _ rfl)
      fun s _ => s.whole_emit.failsWith
  | suback p =>
    exact Emission.failsWith_listing p.packetId (.packet .suback) (hp _ rfl)
      fun r _ => r.failsWith_emit
  | unsubscribe p =>
    exact Emission.failsWith_listing p.packetId (.packet .unsubscribe) (hp _ rfl)
      fun t _ => t.whole_emit.failsWith
  | unsuback p =>
    exact Emission.failsWith_listing p.packetId (.packet .unsuback) (hp _ rfl)
      fun r _ => r.failsWith_emit
  | pingreq | pingresp => exact (Emission.whole_done []).failsWith
  | disconnect p =>
    exact Carrier.failsWith_emitOutcome (.packet .disconnect) p.reasonCode (hp _ rfl)
  | auth p =>
    have hproperties : p.properties.WellTyped := hp _ rfl
    exact p.reasonCode.failsWith_emit.append (hproperties.whole_emit (.packet .auth)).failsWith

/-- A packet is written whole or not at all. -/
theorem WellTyped.whole_emit {p : Packet} (hp : p.WellTyped) : p.emit.Whole Error.IsGiven :=
  hp.failsWith_emitBody.headed (FixedHeader.whole_emit p.type p.permits_flags.1)

/-- **Packets, property blocks and subscriptions are put on a buffer whole or not at all**, and the
    same on any buffer, whatever the carrier may carry. What they fail with is about a value that
    was given; the flags never are too wide for the fixed header. A pair of strings, of which
    properties are made, may leave its first half on the buffer. -/
theorem emit_all_or_nothing {p : Packet} {q : Properties} (hp : p.WellTyped) (hq : q.WellTyped)
    (c : Carrier) (s : Subscription) (b₁ b₂ : Bytes) :
    p.emit.AllOrNothing b₁ b₂ ∧ (q.emit c).AllOrNothing b₁ b₂ ∧ s.emit.AllOrNothing b₁ b₂ ∧
      p.flags < 16 ∧
      ∃ (pair : Text × Text) (e : Error),
        (TextPair.emit pair).result = .error e ∧ (TextPair.emit pair).onto b₁ ≠ b₁ := by
  refine ⟨hp.whole_emit.allOrNothing b₁ b₂, (hq.whole_emit c).allOrNothing b₁ b₂,
    s.whole_emit.allOrNothing b₁ b₂, p.permits_flags.1, ([], [.null]), .nullGiven, ?_⟩
  -- The empty string is written before the other one turns out to have no form.
  have hfirst : Text.emit [] = .done [0, 0] := by decide
  have hsecond : Text.emit [.null] = .fail .nullGiven := by decide
  obtain ⟨hresult, honto⟩ := TextPair.onto_of_second_failed
    (p := ([], [.null])) hfirst hsecond b₁
  refine ⟨hresult, fun hsame => ?_⟩
  rw [honto] at hsame
  have hlen := congrArg List.length hsame
  simp at hlen

/-- A request that fails at the topic of its will, with most of its body written. -/
def halfwayRequest : Packet := .connect
  { clientId := Text.ofChars ['c'], keepAlive := 60
    will := some
      { topic := [.null], payload := [1, 2]
        properties := { table := ⟨[(.willDelayInterval, .one (.number 5))], by decide⟩ } }
    properties := { table := ⟨[(.receiveMaximum, .one (.number 20))], by decide⟩ } }

/-- Properties of which the last value fails at its second half. -/
def halfwayProperties : Properties where
  table := ⟨[(.reasonString, .one (.text (Text.ofChars ['r']))),
    (.userProperty, .many [.pair (Text.ofChars ['k']) [.null]])], by decide⟩

/-- Nothing of the request or of the properties stays on the buffers. -/
theorem emit_all_or_nothing_halfwayRequest :
    let s : Subscription := { pattern := Text.ofChars ['a', '/', '#'] }
    let c : Carrier := .packet .puback
    halfwayRequest.WellTyped ∧ halfwayProperties.WellTyped ∧
      halfwayRequest.emitBody.bytes.length = 23 ∧ halfwayRequest.emit.result = .error .nullGiven ∧
      (halfwayProperties.emitEntries c).bytes.length = 8 ∧
      (halfwayProperties.emit c).result = .error .nullGiven ∧
      halfwayRequest.emit.AllOrNothing [1] [2, 3] ∧
      (halfwayProperties.emit c).AllOrNothing [1] [2, 3] ∧ s.emit.AllOrNothing [1] [2, 3] ∧
      halfwayRequest.flags < 16 ∧
      ∃ (pair : Text × Text) (e : Error),
        (TextPair.emit pair).result = .error e ∧ (TextPair.emit pair).onto [1] ≠ [1] := by
  intro s c
  have hp : halfwayRequest.WellTyped := by
    constructor
    · intro q hq
      obtain rfl := Option.some.inj hq
      show ∀ e ∈ [(PropertyKind.receiveMaximum, PropertyValue.one (.number 20))], _
      decide
    · intro w hw
      obtain rfl := Option.some.inj hw
      show ∀ e ∈ [(PropertyKind.willDelayInterval, PropertyValue.one (.number 5))], _
      decide
  have hq : halfwayProperties.WellTyped := by
    unfold Properties.WellTyped
    decide
  exact ⟨hp, hq, by decide +kernel, by decide +kernel, by decide +kernel, by decide +kernel,
    emit_all_or_nothing hp hq c s [1] [2, 3]⟩

end Packet

end Mqtt
