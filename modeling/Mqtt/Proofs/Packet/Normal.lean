import Mqtt.Proofs.Packet.Reading
import Mqtt.Proofs.Property.Canonical

/-!
# Normal forms of packets

* `Packet.normal` is the form in which a packet reads back: all its property blocks are in their
  normal form.
* `Packet.Built` are the packets that may be built. The subscriptions in one have passed their own
  check, since they were built before it.
* `Packet.Documented` are the packets with documented properties. They are the same as their normal
  form (`Documented.same_normal`), have their properties in the same order
  (`Documented.keys_normal`), and are written in the same bytes
  (`Documented.complete?_emit_normal`).
* `size?_emit_of_same` and `same_normal_of_same`: packets that are the same are written in the same
  number of bytes, and read back as the same.
-/

namespace Mqtt

/-- The will with its properties in their normal form. -/
def Will.normal (w : Will) : Will := { w with properties := w.properties.normal }

namespace Packet

/-- The will of a packet; only a CONNECT has one. -/
def will? : Packet → Option Will
  | connect p => p.will
  | _ => none

/-- The subscriptions of a packet; only a SUBSCRIBE has some. -/
def subscriptions : Packet → List Subscription
  | subscribe p => p.subscriptions
  | _ => []

/-- The form in which a packet reads back. -/
def normal : Packet → Packet
  | connect p =>
    connect { p with will := p.will.map Will.normal, properties := p.properties.normal }
  | p => p.withProperties ((p.properties?.getD {}).normal)

/-- The packet may be built: it passes its checks, and its subscriptions have passed theirs. -/
structure Built (p : Packet) : Prop where
  packet : p.check = .ok ()
  subscriptions : ∀ s ∈ p.subscriptions, s.check = .ok ()

/-- A packet without subscriptions may be built if it passes its own checks. -/
theorem Built.of_check {p : Packet} (hp : p.check = .ok ()) (hs : p.subscriptions = []) :
    p.Built where
  packet := hp
  subscriptions := by
    intro s hmem
    rw [hs] at hmem
    cases hmem

/-- The packet has documented properties, and so has its will. -/
structure Documented (p : Packet) : Prop where
  packet : ∀ q ∈ p.properties?, q.Documented
  will : ∀ w ∈ p.will?, w.properties.Documented

/-- A packet keeps its type. -/
theorem type_normal (p : Packet) : p.normal.type = p.type := by
  cases p <;> rfl

/-- A packet keeps its flags. -/
theorem flags_normal (p : Packet) : p.normal.flags = p.flags := by
  cases p <;> rfl

variable {p q : Packet}

/-- A packet without a will is its own normal form if its properties are theirs. -/
theorem normal_eq_self {ps : Properties} (hp : p.properties? = some ps) (hw : p.will? = none)
    (hps : ps.normal = ps) : p.normal = p := by
  cases p with
  | connect p =>
    obtain rfl := Option.some.inj hp
    have hwill : p.will = none := hw
    simp only [normal, hps, hwill, Option.map_none]
    rw [← hwill]
  | pingreq | pingresp => cases hp
  | _ =>
    obtain rfl := Option.some.inj hp
    simp only [normal, withProperties, properties?, Option.getD_some, hps]

/-! ### Documented packets -/

/-- A documented packet is the same as its normal form. -/
theorem Documented.same_normal (h : p.Documented) : p.normal.same p = true := by
  cases p with
  | connect p =>
    have hp := (h.packet _ rfl).same_normal
    have hwill : Connect.sameWill (p.will.map Will.normal) p.will = true := by
      cases hw : p.will with
      | none => rfl
      | some w =>
        have hproperties := (h.will w hw).same_normal
        simp only [Option.map_some, Connect.sameWill, Will.normal, Will.same, hproperties,
          beq_self_eq_true, Bool.and_self]
    simp only [normal, same, Connect.same, hp, hwill, beq_self_eq_true, Bool.and_self]
  | connack p | publish p | puback p | pubrec p | pubrel p | pubcomp p | subscribe p | suback p
  | unsubscribe p | unsuback p | disconnect p | auth p =>
    have hp := (h.packet _ rfl).same_normal
    simp only [normal, withProperties, properties?, Option.getD_some, same, ConnAck.same,
      Publish.same, PublishResponse.same, Subscribe.same, SubscriptionAck.same, Unsubscribe.same,
      Disconnect.same, Auth.same, hp, beq_self_eq_true, Bool.and_self]
  | pingreq | pingresp => rfl

/-- The normal form of a packet has the normal form of its properties. -/
theorem properties?_normal (p : Packet) : p.normal.properties? = p.properties?.map .normal := by
  cases p <;> rfl

/-- The normal form of a packet has the normal form of its will. -/
theorem will?_normal (p : Packet) : p.normal.will? = p.will?.map Will.normal := by
  cases p <;> rfl

/-- The kinds of the properties of a packet, in order. -/
def keys (p : Packet) : List PropertyKind := (p.properties?.map (·.table.keys)).getD []

/-- The kinds of the properties of the will of a packet, in order. -/
def willKeys (p : Packet) : List PropertyKind := (p.will?.map (·.properties.table.keys)).getD []

/-- The properties of a documented packet and of its will keep their order. -/
theorem Documented.keys_normal (h : p.Documented) :
    p.normal.keys = p.keys ∧ p.normal.willKeys = p.willKeys := by
  refine ⟨?_, ?_⟩
  · rw [keys, keys, properties?_normal]
    cases hp : p.properties? with
    | none => rfl
    | some q => exact (h.packet q hp).keys_normal
  · rw [willKeys, willKeys, will?_normal]
    cases hw : p.will? with
    | none => rfl
    | some w => exact (h.will w hw).keys_normal

/-- A documented packet may be built if its normal form may be. -/
theorem Documented.built_normal_iff (h : p.Documented) : p.normal.Built ↔ p.Built := by
  have hcheck : p.normal.check = .ok () ↔ p.check = .ok () := by
    cases p with
    | publish p =>
      -- Of the properties of a message, its check looks at the kinds only.
      have hkeys := (h.packet _ rfl).keys_normal
      simp only [normal, withProperties, properties?, Option.getD_some, check, Publish.check,
        Except.seq_eq_ok_iff, Publish.checkTopic_eq_ok_iff, hkeys]
      rfl
    | _ => exact Iff.rfl
  have hsubscriptions : p.normal.subscriptions = p.subscriptions := by
    cases p <;> rfl
  constructor
  · rintro ⟨hp, hs⟩
    exact ⟨hcheck.mp hp, hsubscriptions ▸ hs⟩
  · rintro ⟨hp, hs⟩
    exact ⟨hcheck.mpr hp, hsubscriptions.symm ▸ hs⟩

/-- An outcome with documented properties is written in the same bytes as with their normal form. -/
theorem complete?_emitOutcome_normal {q : Properties} (h : q.Documented) (c : Carrier)
    (r : ReasonCode) :
    (c.emitOutcome r q.normal).complete? = (c.emitOutcome r q).complete? := by
  unfold Carrier.emitOutcome
  rw [h.isEmpty_normal]
  split
  · rfl
  · rw [Emission.complete?_append, Emission.complete?_append, h.complete?_emit_normal]

/-- A documented packet is written in the same bytes as its normal form. -/
theorem Documented.complete?_emit_normal (h : p.Documented) :
    p.normal.emit.complete? = p.emit.complete? := by
  have hbody : p.normal.emitBody.complete? = p.emitBody.complete? := by
    cases p with
    | connect p =>
      -- The will has properties of its own, and is announced by flags.
      have hp := fun c => (h.packet _ rfl).complete?_emit_normal (c := c)
      have hwill : (Emission.option Will.emit (p.will.map Will.normal)).complete? =
          (Emission.option Will.emit p.will).complete? := by
        cases hw : p.will with
        | none => rfl
        | some w =>
          have hw' := fun c => (h.will w hw).complete?_emit_normal (c := c)
          simp only [Option.map_some, Emission.option, Will.emit, Will.normal,
            Emission.complete?_append, hw']
      have hflags : Connect.flags { p with
          will := p.will.map Will.normal, properties := p.properties.normal } = p.flags := by
        unfold Connect.flags
        cases p.will <;> rfl
      simp only [normal, emitBody, Connect.emitBody, hflags, Emission.complete?_append, hp, hwill]
    | puback p | pubrec p | pubrel p | pubcomp p | disconnect p =>
      have hp := complete?_emitOutcome_normal (h.packet _ rfl)
      simp only [normal, withProperties, properties?, Option.getD_some, emitBody,
        PublishResponse.emitBody, Disconnect.emitBody, Emission.complete?_append, hp]
    | connack p | publish p | subscribe p | suback p | unsubscribe p | unsuback p | auth p =>
      have hp := fun c => (h.packet _ rfl).complete?_emit_normal (c := c)
      simp only [normal, withProperties, properties?, Option.getD_some, emitBody, ConnAck.emitBody,
        Publish.emitBody, Subscribe.emitBody, SubscriptionAck.emitBody, Unsubscribe.emitBody,
        Auth.emitBody, Emission.complete?_append, hp]
    | pingreq | pingresp => rfl
  rw [emit, emit, Emission.complete?_headed, Emission.complete?_headed, hbody, type_normal,
    flags_normal]

/-! ### Packets that are the same -/

/-- Properties that are the same are both none or neither. -/
theorem isEmpty_eq_of_same {p q : Properties} (h : p.same q = true) : p.isEmpty = q.isEmpty := by
  rw [Properties.same, PropertyTable.same, Bool.and_eq_true, Bool.and_eq_true, beq_iff_eq,
    beq_iff_eq] at h
  obtain ⟨⟨hlen, -⟩, huser⟩ := h
  have htable : p.table.entries.isEmpty = q.table.entries.isEmpty := by
    rw [Bool.eq_iff_iff, List.isEmpty_iff_length_eq_zero, List.isEmpty_iff_length_eq_zero, hlen]
  rw [Properties.isEmpty, Properties.isEmpty, PropertyTable.isEmpty, PropertyTable.isEmpty, htable,
    huser]

/-- Outcomes with properties that are the same are written in the same number of bytes. -/
theorem size?_emitOutcome_of_same {p q : Properties} (h : p.same q = true) (c : Carrier)
    (r : ReasonCode) : (c.emitOutcome r p).size? = (c.emitOutcome r q).size? := by
  unfold Carrier.emitOutcome
  rw [isEmpty_eq_of_same h]
  split
  · rfl
  · exact Emission.size?_append_congr rfl (Properties.size?_emit_of_same h)

/-- Wills that are the same have the same flags and are written in the same number of bytes. -/
theorem size?_emit_of_sameWill {w v : Option Will} (h : Connect.sameWill w v = true) :
    w.map Will.flags = v.map Will.flags ∧
      (Emission.option Will.emit w).size? = (Emission.option Will.emit v).size? := by
  cases w <;> cases v <;> simp only [Connect.sameWill, Bool.false_eq_true] at h
  case none.none => exact ⟨rfl, rfl⟩
  case some.some w v =>
    simp only [Will.same, Bool.and_eq_true, beq_iff_eq, Will.mk.injEq, and_true] at h
    obtain ⟨⟨htopic, hpayload, hretain, hqos⟩, hp⟩ := h
    refine ⟨?_, ?_⟩
    · simp only [Option.map_some, Will.flags, hretain, hqos]
    · simp only [Emission.option, Will.emit, Emission.size?_append, htopic, hpayload,
        Properties.size?_emit_of_same hp]

/-- Packets that are the same have the same type and flags, and bodies of the same size. -/
theorem size?_emitBody_of_same (h : p.same q = true) :
    p.type = q.type ∧ p.flags = q.flags ∧ p.emitBody.size? = q.emitBody.size? := by
  cases p <;> cases q <;> simp only [same, Bool.false_eq_true] at h
  case connect.connect p q =>
    simp only [Connect.same, Bool.and_eq_true, beq_iff_eq, Connect.mk.injEq, true_and,
      and_true] at h
    obtain ⟨⟨⟨hclient, husername, hpassword, hclean, halive⟩, hwill⟩, hp⟩ := h
    obtain ⟨hwillFlags, hwillSize⟩ := size?_emit_of_sameWill hwill
    have hflags : p.flags = q.flags := by
      simp only [Connect.flags, hclean, hwillFlags, hpassword, husername]
    refine ⟨rfl, rfl, ?_⟩
    simp only [emitBody, Connect.emitBody, Emission.size?_append, hflags, halive, hclient,
      husername, hpassword, hwillSize, Properties.size?_emit_of_same hp]
  case connack.connack p q =>
    simp only [ConnAck.same, Bool.and_eq_true, beq_iff_eq, ConnAck.mk.injEq, and_true] at h
    obtain ⟨⟨hr, hs⟩, hp⟩ := h
    refine ⟨rfl, rfl, ?_⟩
    simp only [emitBody, ConnAck.emitBody, Emission.size?_append, hr, hs,
      Properties.size?_emit_of_same hp]
  case publish.publish p q =>
    simp only [Publish.same, Bool.and_eq_true, beq_iff_eq, Publish.mk.injEq, and_true] at h
    obtain ⟨⟨htopic, hpayload, hid, hretain, hqos, hdup⟩, hp⟩ := h
    refine ⟨rfl, ?_, ?_⟩
    · simp only [flags, Publish.flags, hretain, hqos, hdup]
    · simp only [emitBody, Publish.emitBody, Emission.size?_append, htopic, hpayload, hid,
        Properties.size?_emit_of_same hp]
  case puback.puback p q | pubrec.pubrec p q | pubrel.pubrel p q | pubcomp.pubcomp p q =>
    simp only [PublishResponse.same, Bool.and_eq_true, beq_iff_eq, PublishResponse.mk.injEq,
      and_true] at h
    obtain ⟨⟨hid, hr⟩, hp⟩ := h
    refine ⟨rfl, rfl, ?_⟩
    simp only [emitBody, PublishResponse.emitBody, Emission.size?_append, hid, hr,
      size?_emitOutcome_of_same hp]
  case subscribe.subscribe p q =>
    simp only [Subscribe.same, Bool.and_eq_true, beq_iff_eq, Subscribe.mk.injEq, and_true] at h
    obtain ⟨⟨hid, hs⟩, hp⟩ := h
    refine ⟨rfl, rfl, ?_⟩
    simp only [emitBody, Subscribe.emitBody, Emission.size?_append, hid, hs,
      Properties.size?_emit_of_same hp]
  case suback.suback p q | unsuback.unsuback p q =>
    simp only [SubscriptionAck.same, Bool.and_eq_true, beq_iff_eq, SubscriptionAck.mk.injEq,
      and_true] at h
    obtain ⟨⟨hid, hr⟩, hp⟩ := h
    refine ⟨rfl, rfl, ?_⟩
    simp only [emitBody, SubscriptionAck.emitBody, Emission.size?_append, hid, hr,
      Properties.size?_emit_of_same hp]
  case unsubscribe.unsubscribe p q =>
    simp only [Unsubscribe.same, Bool.and_eq_true, beq_iff_eq, Unsubscribe.mk.injEq, and_true] at h
    obtain ⟨⟨hid, hpatterns⟩, hp⟩ := h
    refine ⟨rfl, rfl, ?_⟩
    simp only [emitBody, Unsubscribe.emitBody, Emission.size?_append, hid, hpatterns,
      Properties.size?_emit_of_same hp]
  case pingreq.pingreq | pingresp.pingresp => exact ⟨rfl, rfl, rfl⟩
  case disconnect.disconnect p q =>
    simp only [Disconnect.same, Bool.and_eq_true, beq_iff_eq] at h
    obtain ⟨hr, hp⟩ := h
    refine ⟨rfl, rfl, ?_⟩
    simp only [emitBody, Disconnect.emitBody, hr, size?_emitOutcome_of_same hp]
  case auth.auth p q =>
    simp only [Auth.same, Bool.and_eq_true, beq_iff_eq] at h
    obtain ⟨hr, hp⟩ := h
    refine ⟨rfl, rfl, ?_⟩
    simp only [emitBody, Auth.emitBody, Emission.size?_append, hr,
      Properties.size?_emit_of_same hp]

/-- **Packets that are the same** are written in the same number of bytes. -/
theorem size?_emit_of_same (h : p.same q = true) : p.emit.size? = q.emit.size? := by
  obtain ⟨htype, hflags, hbody⟩ := size?_emitBody_of_same h
  refine Emission.size?_headed_congr hbody fun n => ?_
  rw [htype, hflags]

/-- **Packets that are the same** read back as the same. -/
theorem same_normal_of_same (h : p.same q = true) : p.normal.same q.normal = true := by
  cases p <;> cases q <;> simp only [same, Bool.false_eq_true] at h
  case connect.connect p q =>
    simp only [Connect.same, Bool.and_eq_true] at h
    obtain ⟨⟨hfields, hwill⟩, hp⟩ := h
    have hwill' : Connect.sameWill (p.will.map Will.normal) (q.will.map Will.normal) = true := by
      cases hw : p.will <;> cases hv : q.will <;>
        simp only [hw, hv, Connect.sameWill, Bool.false_eq_true] at hwill
      case none.none => rfl
      case some.some w v =>
        simp only [Will.same, Bool.and_eq_true] at hwill
        simp only [Option.map_some, Connect.sameWill, Will.same, Will.normal, Bool.and_eq_true]
        exact ⟨hwill.1, Properties.same_normal_of_same hwill.2⟩
    simp only [normal, same, Connect.same, Bool.and_eq_true]
    exact ⟨⟨hfields, hwill'⟩, Properties.same_normal_of_same hp⟩
  case pingreq.pingreq | pingresp.pingresp => rfl
  all_goals
    -- The other packets have properties of their own only.
    simp only [ConnAck.same, Publish.same, PublishResponse.same, Subscribe.same,
      SubscriptionAck.same, Unsubscribe.same, Disconnect.same, Auth.same, Bool.and_eq_true] at h
    simp only [normal, withProperties, properties?, Option.getD_some, same, ConnAck.same,
      Publish.same, PublishResponse.same, Subscribe.same, SubscriptionAck.same, Unsubscribe.same,
      Disconnect.same, Auth.same, Bool.and_eq_true]
    exact ⟨h.1, Properties.same_normal_of_same h.2⟩

end Packet

end Mqtt
