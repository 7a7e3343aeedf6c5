import Mqtt.Packet.Basic
import Mqtt.Proofs.Property.Block
import Mqtt.Proofs.Wire.Refusal

/-!
# What the bodies of packets are refused for

`Packet.sound_readBody`: the reader of a body fails only with errors about the received bytes. It is
put together from one `sound_readBody` for each layout. What is read passes those checks of the
built packet that are there for callers: a packet identifier fits and is there when the QoS asks for
it, and a reason code is one that its carrier may carry.
-/

namespace Mqtt

/-! ### Property blocks -/

/-- A value is read in its format or it is malformed. -/
theorem ValueFormat.sound_read (f : ValueFormat) : f.read.Sound fun _ => True := by
  cases f with
  | fixed size => exact (Integer.sound_read size).bind fun _ _ => Reader.sound_pure trivial
  | varInt => exact VarInt.sound_read.bind fun _ _ => Reader.sound_pure trivial
  | text => exact Text.sound_read.bind fun _ _ => Reader.sound_pure trivial
  | binary => exact Binary.sound_read.bind fun _ _ => Reader.sound_pure trivial
  | textPair => exact TextPair.sound_read.bind fun _ _ => Reader.sound_pure trivial

/-- A value out of range violates the protocol. -/
theorem PropertyKind.sound_check (k : PropertyKind) (v : PropertyValue) :
    Check.Sound (k.check v) fun _ => True := by
  unfold check
  apply Check.sound_ite
  · intro _
    exact Or.inr rfl
  · intro _
    exact Check.sound_ite (fun _ => Or.inr rfl) fun _ => trivial

namespace Carrier

variable (c : Carrier)

/-- An identifier is that of a kind which the carrier may carry, or it is refused. -/
theorem sound_kindOf (n : Int) : Check.Sound (c.kindOf n) fun _ => True := by
  have hkind : Check.Sound (PropertyKind.ofIdentifier n) fun _ => True := by
    unfold PropertyKind.ofIdentifier
    split
    case h_1 => trivial
    case h_2 => exact Or.inl rfl
  exact hkind.bind fun k _ => Check.sound_ite (fun _ => trivial) fun _ => Or.inr rfl

/-- An entry is one that the carrier may carry, or it is refused. -/
theorem sound_readEntry : c.readEntry.Sound fun _ => True := by
  refine VarInt.sound_read.bind fun n _ => ?_
  refine (Reader.sound_lift (c.sound_kindOf n)).bind fun k _ => ?_
  refine (ValueFormat.sound_read k.format).bind fun s _ => ?_
  exact (Reader.sound_lift (k.sound_check (.one s))).bind fun _ _ => Reader.sound_pure trivial

end Carrier

namespace Properties

variable (c : Carrier)

/-- An entry is stored unless it is a repetition that violates the protocol. -/
theorem sound_add (p : Properties) (k : PropertyKind) (s : Scalar) :
    Check.Sound (p.add c k s) fun _ => True := by
  unfold add
  refine Check.sound_ite (fun _ => trivial) fun _ => ?_
  refine Check.sound_ite (fun _ => Or.inr rfl) fun _ => ?_
  exact Check.sound_ite (fun _ => trivial) fun _ => trivial

/-- The entries of a block are stored, or one of them is refused. -/
theorem sound_addEntries (p : Properties) (s : Bytes) :
    Check.Sound (addEntries c p s) fun _ => True := by
  -- The recursion is on the bytes behind the entry that is stored.
  induction p, s using addEntries.induct c with
  | case1 p =>
    rw [addEntries]
    trivial
  | case2 p b s e hread =>
    rw [addEntries_of_error hread]
    exact (c.sound_readEntry (b :: s)).isReceived hread
  | case3 p b s k v t hread e hadd =>
    rw [addEntries_of_ok hread, hadd]
    exact (sound_add c p k v).isReceived hadd
  | case4 p b s k v t hread q hadd _ ih =>
    rw [addEntries_of_ok hread, hadd]
    exact ih

/-- A block holds properties, or it is refused. That it ends too early is its own fault. -/
theorem sound_ofBlock (s : Bytes) : Check.Sound (ofBlock c s) fun _ => True := by
  have hentries := sound_addEntries c {} s
  unfold ofBlock
  cases hadd : addEntries c {} s with
  | ok p => trivial
  | error e =>
    show Error.IsReceived (if e = .insufficientData then _ else e)
    by_cases he : e = .insufficientData
    · rw [if_pos he]
      exact Or.inl rfl
    · rw [if_neg he]
      exact hentries.isReceived hadd

/-- A block is all there or it is malformed. -/
theorem sound_takeBlock (n : Nat) : (takeBlock c n).Sound fun _ => True := by
  intro s
  unfold takeBlock
  exact Check.sound_ite (fun _ => Or.inl rfl) fun _ => trivial

/-- The block of a carrier holds properties, or it is refused. -/
theorem sound_read : (read c).Sound fun _ => True := by
  refine VarInt.sound_read.bind fun n _ => ?_
  exact (sound_takeBlock c n).bind fun block _ => Reader.sound_lift (sound_ofBlock c block)

end Properties

/-! ### Shared fields -/

/-- A number is a QoS or it is malformed. -/
theorem QoS.sound_ofCode (n : Int) : Check.Sound (QoS.ofCode n) fun _ => True := by
  unfold QoS.ofCode
  split
  case h_1 => trivial
  case h_2 => exact Or.inl rfl

/-- A number is a retain handling or it violates the protocol. -/
theorem RetainHandling.sound_ofCode (n : Int) :
    Check.Sound (RetainHandling.ofCode n) fun _ => True := by
  unfold RetainHandling.ofCode
  split
  case h_1 => trivial
  case h_2 => exact Or.inr rfl

/-- A number of two bytes is a packet identifier, or it violates the protocol by being 0. -/
theorem sound_checkPacketId {n : Nat} (h : n < 65536) :
    Check.Sound (checkPacketId n) fun _ => True := by
  unfold checkPacketId
  rw [if_neg (by omega)]
  exact Check.sound_ite (fun _ => Or.inr rfl) fun _ => trivial

namespace Carrier

variable {c : Carrier}

/-- A reason code that the carrier may carry passes the check of the built packet. -/
theorem sound_checkReasonCode {r : ReasonCode} (h : c.accepts r = true) :
    Check.Sound (c.checkReasonCode r) fun _ => True := by
  unfold checkReasonCode
  rw [if_pos h]
  trivial

/-- A number is a reason code that the carrier may carry, or it is malformed. -/
theorem sound_reasonCodeOf (n : Int) :
    Check.Sound (c.reasonCodeOf n) fun r => c.accepts r = true := by
  have hcode : Check.Sound (ReasonCode.ofCode n) fun _ => True := by
    unfold ReasonCode.ofCode
    split
    case h_1 => trivial
    case h_2 => exact Or.inl rfl
  exact hcode.bind fun r _ => Check.sound_ite (fun hr => hr) fun _ => Or.inl rfl

/-- A reason code that is read is one that the carrier may carry. -/
theorem sound_readReasonCode : c.readReasonCode.Sound fun r => c.accepts r = true :=
  (Integer.sound_read 1).bind fun n _ => Reader.sound_lift (sound_reasonCodeOf n)

/-- Properties at the end are there, left out or refused. -/
theorem sound_readLastProperties : c.readLastProperties.Sound fun _ => True :=
  Reader.sound_orAtEnd trivial (Properties.sound_read c)

/-- The reason code of an outcome is one that the carrier may carry, if it may carry `success`. -/
theorem sound_readOutcome (hc : c.accepts .success = true) :
    c.readOutcome.Sound fun o => c.accepts o.1 = true := by
  refine Reader.sound_orAtEnd hc ?_
  refine sound_readReasonCode.bind fun r hr => ?_
  exact sound_readLastProperties.bind fun _ _ => Reader.sound_pure hr

end Carrier

/-! ### CONNECT and CONNACK -/

/-- A will is read, or it is refused. -/
theorem Will.sound_read (flags : Nat) : (Will.read flags).Sound fun _ => True := by
  refine (Properties.sound_read _).bind fun _ _ => ?_
  refine Text.sound_read.bind fun _ _ => ?_
  refine Binary.sound_read.bind fun _ _ => ?_
  exact (Reader.sound_lift (QoS.sound_ofCode _)).bind fun _ _ => Reader.sound_pure trivial

/-- A CONNECT is refused only for its bytes. -/
theorem Connect.sound_readBody : readBody.Sound fun _ => True := by
  have hname : ∀ x, Check.Sound (checkProtocolName x) fun _ => True := fun x =>
    Check.sound_ite (fun _ => trivial) fun _ => Or.inr rfl
  have hversion : ∀ n, Check.Sound (checkProtocolVersion n) fun _ => True := fun n =>
    Check.sound_ite (fun _ => trivial) fun _ => Or.inr rfl
  have hflags : ∀ n, Check.Sound (checkFlags n) fun _ => True := fun n =>
    Check.sound_ite (fun _ => Or.inl rfl) fun _ =>
      Check.sound_ite (fun _ => Or.inl rfl) fun _ => trivial
  refine Text.sound_read.bind fun x _ => ?_
  refine (Reader.sound_lift (hname x)).bind fun _ _ => ?_
  refine (Integer.sound_read 1).bind fun n _ => ?_
  refine (Reader.sound_lift (hversion n)).bind fun _ _ => ?_
  refine (Integer.sound_read 1).bind fun flags _ => ?_
  refine (Reader.sound_lift (hflags flags)).bind fun _ _ => ?_
  refine (Integer.sound_read 2).bind fun _ _ => ?_
  refine (Properties.sound_read _).bind fun _ _ => ?_
  refine Text.sound_read.bind fun _ _ => ?_
  refine (Reader.sound_optional _ (Will.sound_read flags)).bind fun _ _ => ?_
  refine (Reader.sound_optional _ Text.sound_read).bind fun _ _ => ?_
  exact (Reader.sound_optional _ Binary.sound_read).bind fun _ _ => Reader.sound_pure trivial

/-- A CONNACK is refused only for its bytes. -/
theorem ConnAck.sound_readBody : readBody.Sound fun _ => True := by
  have hflags : ∀ n, Check.Sound (checkFlags n) fun _ => True := fun n =>
    Check.sound_ite (fun _ => trivial) fun _ => Or.inl rfl
  have hproperties : ∀ r, (readProperties r).Sound fun _ => True := by
    intro r s
    unfold readProperties
    by_cases hr : r = .success
    · rw [if_pos hr]
      exact Carrier.sound_readLastProperties s
    · rw [if_neg hr]
      exact Check.sound_ite (fun _ => Or.inl rfl) fun _ => Properties.sound_read _ s
  refine (Integer.sound_read 1).bind fun flags _ => ?_
  refine (Reader.sound_lift (hflags flags)).bind fun _ _ => ?_
  refine Carrier.sound_readReasonCode.bind fun r hr => ?_
  refine (hproperties r).bind fun _ _ => ?_
  exact (Reader.sound_lift (Carrier.sound_checkReasonCode hr)).bind fun _ _ =>
    Reader.sound_pure trivial

/-! ### PUBLISH and the responses to it -/

namespace Publish

/-- A message passes or violates the protocol, if its packet identifier fits and it has one exactly
    above QoS 0. -/
theorem sound_check {p : Publish} (hid : p.packetId.isSome = (p.qos != .atMostOnce))
    (hfits : ∀ n, p.packetId = some n → ∃ m : Nat, n = m ∧ m < 65536) :
    Check.Sound p.check fun _ => True := by
  have hfield : Check.Sound p.checkField fun _ => True := by
    unfold checkField
    cases hpacketId : p.packetId with
    | none => trivial
    | some n =>
      obtain ⟨m, rfl, hm⟩ := hfits n hpacketId
      exact sound_checkPacketId hm
  have hdelivery : Check.Sound p.checkDelivery fun _ => True := by
    unfold checkDelivery
    -- The identifier is there for a QoS above 0 and for no other.
    cases hqos : p.qos <;> cases hpacketId : p.packetId <;> rw [hqos, hpacketId] at hid
    case atMostOnce.none => exact Check.sound_ite (fun _ => Or.inr rfl) fun _ => trivial
    case atLeastOnce.some | exactlyOnce.some => trivial
    case atMostOnce.some | atLeastOnce.none | exactlyOnce.none => cases hid
  have htopic : Check.Sound p.checkTopic fun _ => True :=
    Check.sound_ite (fun _ => Or.inr rfl) fun _ =>
      Check.sound_ite (fun _ => Or.inr rfl) fun _ => trivial
  exact hfield.bind fun _ _ => hdelivery.bind fun _ _ => htopic

/-- A PUBLISH is refused only for its bytes. -/
theorem sound_readBody (flags : Nat) : (readBody flags).Sound fun _ => True := by
  refine (Reader.sound_lift (QoS.sound_ofCode _)).bind fun qos _ => ?_
  refine Text.sound_read.bind fun topic _ => ?_
  refine (Reader.sound_optional _ (Integer.sound_read 2)).bind fun n hn => ?_
  refine (Properties.sound_read _).bind fun properties _ => ?_
  refine Reader.sound_rest.bind fun payload _ => ?_
  refine (Reader.sound_lift (sound_check ?_ ?_)).bind fun _ _ => Reader.sound_pure trivial
  · show (n.map Int.ofNat).isSome = _
    rw [Option.isSome_map]
    exact hn.1
  · intro m hm
    obtain ⟨k, hk, rfl⟩ := Option.map_eq_some_iff.mp hm
    exact ⟨k, rfl, hn.2 k hk⟩

end Publish

/-- A response to a PUBLISH is refused only for its bytes, if its carrier may carry `success`. -/
theorem PublishResponse.sound_readBody {c : Carrier} (hc : c.accepts .success = true) :
    (readBody c).Sound fun _ => True := by
  refine (Integer.sound_read 2).bind fun n hn => ?_
  refine (Carrier.sound_readOutcome hc).bind fun o ho => ?_
  have hcheck : Check.Sound (PublishResponse.check c ⟨n, o.1, o.2⟩) fun _ => True :=
    (sound_checkPacketId hn).bind fun _ _ => Carrier.sound_checkReasonCode ho
  exact (Reader.sound_lift hcheck).bind fun _ _ => Reader.sound_pure trivial

/-! ### SUBSCRIBE, SUBACK and UNSUBACK, UNSUBSCRIBE -/

namespace Subscription

/-- A byte of options gives a subscription, or it is refused. -/
theorem sound_ofOptions (x : Text) (n : Nat) : Check.Sound (ofOptions x n) fun _ => True := by
  have hcheck : ∀ s : Subscription, Check.Sound s.check fun _ => True := fun s =>
    Check.sound_ite (fun _ => Or.inr rfl) fun _ => trivial
  unfold ofOptions
  by_cases hreserved : 64 ≤ n
  · rw [if_pos hreserved]
    exact Or.inl rfl
  · rw [if_neg hreserved]
    refine (QoS.sound_ofCode _).bind fun _ _ => ?_
    refine (RetainHandling.sound_ofCode _).bind fun _ _ => ?_
    exact (hcheck _).bind fun _ _ => trivial

/-- A subscription is refused only for its bytes. -/
theorem sound_read : read.Sound fun _ => True := by
  refine Text.sound_read.bind fun x _ => ?_
  exact (Integer.sound_read 1).bind fun n _ => Reader.sound_lift (sound_ofOptions x n)

end Subscription

/-- A SUBSCRIBE is refused only for its bytes. -/
theorem Subscribe.sound_readBody : readBody.Sound fun _ => True := by
  refine (Integer.sound_read 2).bind fun n hn => ?_
  refine (Properties.sound_read _).bind fun q _ => ?_
  refine (Reader.sound_toEnd _ Subscription.sound_read).bind fun xs _ => ?_
  have hcheck : Check.Sound (Subscribe.check ⟨n, xs, q⟩) fun _ => True :=
    (sound_checkPacketId hn).bind fun _ _ =>
      Check.sound_ite (fun _ => Or.inr rfl) fun _ => trivial
  exact (Reader.sound_lift hcheck).bind fun _ _ => Reader.sound_pure trivial

namespace SubscriptionAck

variable {c : Carrier}

/-- Reason codes that the carrier may carry pass the check of the built packet. -/
theorem sound_checkReasonCodes {rs : List ReasonCode} (h : ∀ r ∈ rs, c.accepts r = true) :
    Check.Sound (checkReasonCodes c rs) fun _ => True := by
  induction rs with
  | nil => trivial
  | cons r rs ih =>
    obtain ⟨hr, hrs⟩ := List.forall_mem_cons.mp h
    exact (Carrier.sound_checkReasonCode hr).bind fun _ _ => ih hrs

/-- A SUBACK or UNSUBACK is refused only for its bytes. -/
theorem sound_readBody : (readBody c).Sound fun _ => True := by
  refine (Integer.sound_read 2).bind fun n hn => ?_
  refine (Properties.sound_read _).bind fun q _ => ?_
  refine (Reader.sound_toEnd _ Carrier.sound_readReasonCode).bind fun rs hrs => ?_
  have hcheck : Check.Sound (SubscriptionAck.check c ⟨n, rs, q⟩) fun _ => True :=
    (sound_checkPacketId hn).bind fun _ _ => sound_checkReasonCodes hrs
  exact (Reader.sound_lift hcheck).bind fun _ _ => Reader.sound_pure trivial

end SubscriptionAck

/-- An UNSUBSCRIBE is refused only for its bytes. -/
theorem Unsubscribe.sound_readBody : readBody.Sound fun _ => True := by
  refine (Integer.sound_read 2).bind fun n hn => ?_
  refine (Properties.sound_read _).bind fun q _ => ?_
  refine (Reader.sound_toEnd _ Text.sound_read).bind fun xs _ => ?_
  have hcheck : Check.Sound (Unsubscribe.check ⟨n, xs, q⟩) fun _ => True :=
    (sound_checkPacketId hn).bind fun _ _ =>
      Check.sound_ite (fun _ => Or.inr rfl) fun _ => trivial
  exact (Reader.sound_lift hcheck).bind fun _ _ => Reader.sound_pure trivial

/-! ### DISCONNECT and AUTH -/

/-- A DISCONNECT is refused only for its bytes. -/
theorem Disconnect.sound_readBody : readBody.Sound fun _ => True := by
  refine (Carrier.sound_readOutcome rfl).bind fun o ho => ?_
  exact (Reader.sound_lift (Carrier.sound_checkReasonCode ho)).bind fun _ _ =>
    Reader.sound_pure trivial

/-- An AUTH is refused only for its bytes. -/
theorem Auth.sound_readBody : readBody.Sound fun _ => True := by
  have hreason : readReasonCode.Sound fun r => (Carrier.packet .auth).accepts r = true := fun s =>
    Check.sound_ite (fun _ => Or.inr rfl) fun _ => Carrier.sound_readReasonCode s
  refine hreason.bind fun r hr => ?_
  refine Carrier.sound_readLastProperties.bind fun _ _ => ?_
  exact (Reader.sound_lift (Carrier.sound_checkReasonCode hr)).bind fun _ _ =>
    Reader.sound_pure trivial

/-! ### All packets -/

/-- **The body of a packet is refused only for its bytes.** -/
theorem Packet.sound_readBody (type : PacketType) (flags : Nat) :
    (readBody type flags).Sound fun _ => True := by
  cases type with
  | connect => exact Connect.sound_readBody.map fun _ _ => trivial
  | connack => exact ConnAck.sound_readBody.map fun _ _ => trivial
  | publish => exact (Publish.sound_readBody flags).map fun _ _ => trivial
  | puback | pubrec | pubrel | pubcomp =>
    exact (PublishResponse.sound_readBody rfl).map fun _ _ => trivial
  | subscribe => exact Subscribe.sound_readBody.map fun _ _ => trivial
  | suback | unsuback => exact SubscriptionAck.sound_readBody.map fun _ _ => trivial
  | unsubscribe => exact Unsubscribe.sound_readBody.map fun _ _ => trivial
  | pingreq | pingresp => exact Reader.sound_pure trivial
  | disconnect => exact Disconnect.sound_readBody.map fun _ _ => trivial
  | auth => exact Auth.sound_readBody.map fun _ _ => trivial

end Mqtt
