import Mqtt.Proofs.Packet.Normal

/-!
# Writing packet bodies

`Packet.body_of_emit`: what is written as the body of a packet is in the grammar, and stands for the
normal form of the packet. It is put together from one `form_of_emitBody` for each layout.
-/

namespace Mqtt

/-! ### Shared fields -/

/-- A bit is set if it is so in the sum that the number is. -/
theorem testBit_eq_of_div_mod {n i : Nat} {b : Bool} (h : n / 2 ^ i % 2 = b.toNat) :
    n.testBit i = b := by
  rw [Nat.testBit_eq_decide_div_mod_eq, h]
  cases b <;> rfl

/-- What an optional value emits is its optional word, if what the value emits is its word. -/
theorem optional_of_emit {α β : Type} {f : α → Emission} {F : Format β} {g : α → β} {o : Option α}
    {w : Bytes} (hF : ∀ x ∈ o, ∀ u, f x = .done u → F u (g x))
    (h : Emission.option f o = .done w) : Format.Optional F o.isSome w (o.map g) := by
  cases o with
  | none =>
    obtain rfl := Emission.done.inj h
    exact .absent
  | some x => exact .present (hF x rfl w h)

/-- What is written as the list of values are their words. -/
theorem words_of_emit {α : Type} {f : α → Emission} {F : Format α} {xs : List α} {w : Bytes}
    (hF : ∀ x ∈ xs, ∀ u, f x = .done u → F u x) (h : Emission.concat f xs = .done w) :
    Format.Words F w xs := by
  have hwords : Format.Words F w (xs.map id) := Emission.words_of_concat hF h
  rwa [List.map_id] at hwords

/-- A packet identifier that passes is a number, and written in two bytes. -/
theorem exists_packetId {n : Int} (h : checkPacketId n = .ok ()) :
    ∃ m : Nat, n = m ∧ ∀ w, Integer.emit 2 n = .done w → PacketId w m := by
  obtain ⟨hpos, hlt⟩ := checkPacketId_eq_ok.mp h
  obtain ⟨m, rfl⟩ := Int.eq_ofNat_of_zero_le (Int.le_of_lt hpos)
  exact ⟨m, rfl, fun w hw => ⟨by omega, Integer.emit_natCast_eq_done_iff.mp hw⟩⟩

/-- The empty properties are those of which there are none. -/
theorem Properties.isEmpty_iff {p : Properties} : p.isEmpty = true ↔ p = {} := by
  constructor
  · intro h
    obtain ⟨⟨es, hes⟩, us⟩ := p
    rw [isEmpty, PropertyTable.isEmpty, Bool.and_eq_true, List.isEmpty_iff, List.isEmpty_iff] at h
    obtain ⟨rfl, rfl⟩ := h
    rfl
  · rintro rfl
    rfl

namespace Carrier

variable {c : Carrier} {r : ReasonCode} {p : Properties} {w : Bytes}

/-- A reason code that the carrier may carry is written in its byte. -/
theorem reason_iff : c.Reason w r ↔ r.emit = .done w ∧ c.accepts r = true := by
  rw [Reason, ReasonCode.emit, Integer.emit_natCast_eq_done_iff]

/-- What is written as an outcome is one. -/
theorem outcome_of_emit (hr : c.accepts r = true) (h : c.emitOutcome r p = .done w) :
    c.Outcome w (r, p.normal) := by
  unfold emitOutcome at h
  split at h
  case isTrue hempty =>
    -- Without properties nothing is written for them, and their normal form is empty as well.
    have hnormal : p.normal = {} := by
      rw [Properties.isEmpty_iff.mp hempty]
      rfl
    rw [hnormal]
    split at h
    case isTrue hsuccess =>
      obtain rfl := Emission.done.inj h
      rw [hsuccess]
      exact .nothing
    case isFalse => exact .reason (reason_iff.mpr ⟨h, hr⟩)
  case isFalse =>
    obtain ⟨u, v, hu, hv, rfl⟩ := Emission.append_eq_done.mp h
    exact .full (reason_iff.mpr ⟨hu, hr⟩) (Properties.block_of_emit hv)

end Carrier

/-! ### CONNECT -/

/-- What is written as a will is one, for flags that say what the will says. -/
theorem Will.form_of_emit {w : Will} {u : Bytes} {flags : Nat} (hqos : flags / 8 % 4 = w.qos.code)
    (hretain : flags.testBit 5 = w.retain) (h : w.emit = .done u) :
    Will.Form flags u w.normal := by
  obtain ⟨_, pl, hfront, hpl, rfl⟩ := Emission.append_eq_done.mp h
  obtain ⟨ps, tp, hps, htp, rfl⟩ := Emission.append_eq_done.mp hfront
  have hform := Will.Form.intro (Properties.block_of_emit hps) (Text.emit_eq_done_iff.mp htp)
    (Binary.emit_eq_done_iff.mp hpl) hqos
  rwa [hretain] at hform

namespace Connect

variable {p : Connect} {w : Bytes}

/-- The flags of a request say which parts it has. -/
structure Announces (flags : Nat) (p : Connect) : Prop where
  reserved : flags.testBit 0 = false
  cleanStart : flags.testBit 1 = p.cleanStart
  will : flags.testBit 2 = p.will.isSome
  willQos : flags / 8 % 4 = (p.will.map fun w => w.qos.code).getD 0
  willRetain : flags.testBit 5 = (p.will.map Will.retain).getD false
  password : flags.testBit 6 = p.password.isSome
  username : flags.testBit 7 = p.username.isSome

/-- The flags that are written say what the request has. -/
theorem announces_flags (p : Connect) : Announces p.flags p := by
  obtain ⟨_, will, username, password, cleanStart, _, _⟩ := p
  have hclean := Bool.toNat_le cleanStart
  have hpassword := Bool.toNat_le password.isSome
  have husername := Bool.toNat_le username.isSome
  -- Each part of the flags stands in its own place of their sum.
  cases will with
  | none =>
    refine ⟨testBit_eq_of_div_mod ?_, testBit_eq_of_div_mod ?_, testBit_eq_of_div_mod ?_, ?_,
      testBit_eq_of_div_mod ?_, testBit_eq_of_div_mod ?_, testBit_eq_of_div_mod ?_⟩ <;>
      simp only [flags, Option.map_none, Option.getD_none, Option.isSome_none, Bool.toNat_false] <;>
      omega
  | some w =>
    have hqos := w.qos.code_lt
    have hretain := Bool.toNat_le w.retain
    refine ⟨testBit_eq_of_div_mod ?_, testBit_eq_of_div_mod ?_, testBit_eq_of_div_mod ?_, ?_,
      testBit_eq_of_div_mod ?_, testBit_eq_of_div_mod ?_, testBit_eq_of_div_mod ?_⟩ <;>
      simp only [flags, Will.flags, Option.map_some, Option.getD_some, Option.isSome_some,
        Bool.toNat_false, Bool.toNat_true] <;>
      omega

/-- The flags are a byte. -/
theorem flags_lt (p : Connect) : p.flags < 256 := by
  have hclean := Bool.toNat_le p.cleanStart
  have hpassword := Bool.toNat_le p.password.isSome
  have husername := Bool.toNat_le p.username.isSome
  unfold flags
  cases p.will with
  | none =>
    simp only [Option.map_none, Option.getD_none]
    omega
  | some v =>
    have hqos := v.qos.code_lt
    have hretain := Bool.toNat_le v.retain
    simp only [Option.map_some, Option.getD_some, Will.flags]
    omega

/-- What is written as a request is one. -/
theorem form_of_emitBody (h : p.emitBody = .done w) :
    Form w { p with will := p.will.map Will.normal, properties := p.properties.normal } := by
  have hflags := announces_flags p
  unfold emitBody at h
  simp only [Emission.append_eq_done] at h
  obtain ⟨_, pw, ⟨_, un, ⟨_, wl, ⟨_, ci, ⟨_, ps, ⟨_, ka, ⟨_, fs, ⟨nm, vs, hnm, hvs, rfl⟩, hfs, rfl⟩,
    hka, rfl⟩, hps, rfl⟩, hci, rfl⟩, hwl, rfl⟩, hun, rfl⟩, hpw, rfl⟩ := h
  obtain ⟨hpos, hka⟩ := Integer.form_of_emit hka
  -- The flags announce the optional parts that are there.
  have hnowill : p.flags.testBit 2 = false → p.flags / 8 % 4 = 0 ∧ p.flags.testBit 5 = false := by
    rw [hflags.will, hflags.willQos, hflags.willRetain]
    cases p.will <;> simp
  have hwl : Format.Optional (Will.Form p.flags) (p.flags.testBit 2) wl
      (p.will.map Will.normal) := by
    rw [hflags.will]
    refine optional_of_emit (fun w hw u hu => Will.form_of_emit ?_ ?_ hu) hwl
    · rw [hflags.willQos, hw]
      rfl
    · rw [hflags.willRetain, hw]
      rfl
  have hun : Format.Optional Text.Form (p.flags.testBit 7) un (p.username.map id) := by
    rw [hflags.username]
    exact optional_of_emit (fun _ _ _ => Text.emit_eq_done_iff.mp) hun
  have hpw : Format.Optional Binary.Form (p.flags.testBit 6) pw (p.password.map id) := by
    rw [hflags.password]
    exact optional_of_emit (fun _ _ _ => Binary.emit_eq_done_iff.mp) hpw
  have hform := Form.intro (Text.emit_eq_done_iff.mp hnm) (Integer.emit_natCast_eq_done_iff.mp hvs)
    (Integer.emit_natCast_eq_done_iff.mp hfs) hflags.reserved hnowill hka
    (Properties.block_of_emit hps) (Text.emit_eq_done_iff.mp hci) hwl hun hpw
  rwa [hflags.cleanStart, Int.toNat_of_nonneg hpos, Option.map_id, Option.map_id] at hform

end Connect

/-! ### CONNACK -/

/-- What is written as an answer is one, if it may be built. -/
theorem ConnAck.form_of_emitBody {p : ConnAck} {w : Bytes} (hp : p.check = .ok ())
    (h : p.emitBody = .done w) : Form w { p with properties := p.properties.normal } := by
  unfold emitBody at h
  simp only [Emission.append_eq_done] at h
  obtain ⟨_, ps, ⟨fs, rc, hfs, hrc, rfl⟩, hps, rfl⟩ := h
  have hlt : p.sessionPresent.toNat < 2 := Nat.lt_succ_of_le (Bool.toNat_le _)
  have hbit : p.sessionPresent.toNat.testBit 0 = p.sessionPresent := by
    cases p.sessionPresent <;> rfl
  have haccepts := Carrier.checkReasonCode_eq_ok_iff.mp hp
  have hform := Form.full (Integer.emit_natCast_eq_done_iff.mp hfs) hlt
    (Carrier.reason_iff.mpr ⟨hrc, haccepts⟩) (Properties.block_of_emit hps)
  rwa [hbit] at hform

/-! ### PUBLISH -/

namespace Publish

variable {p : Publish} {w : Bytes}

/-- The flags of a message say how it is delivered. -/
structure Announces (flags : Nat) (p : Publish) : Prop where
  lt : flags < 16
  retain : flags.testBit 0 = p.retain
  qos : flags / 2 % 4 = p.qos.code
  duplicate : flags.testBit 3 = p.duplicate

/-- The flags that are written say how the message is delivered. -/
theorem announces_flags (p : Publish) : Announces p.flags p := by
  have hretain := Bool.toNat_le p.retain
  have hqos := p.qos.code_lt
  have hdup := Bool.toNat_le p.duplicate
  refine ⟨?_, testBit_eq_of_div_mod ?_, ?_, testBit_eq_of_div_mod ?_⟩ <;>
    simp only [flags] <;>
    omega

/-- A packet identifier that goes with the QoS is written in its optional word. -/
theorem exists_optional_packetId {i : Bytes} (hfield : p.checkField = .ok ())
    (hsome : p.packetId.isSome = true ↔ p.qos ≠ .atMostOnce)
    (hi : Emission.option (Integer.emit 2) p.packetId = .done i) :
    ∃ n : Option Nat, p.packetId = n.map Int.ofNat ∧
      Format.Optional PacketId (p.qos != .atMostOnce) i n := by
  have hpresent : p.packetId.isSome = (p.qos != .atMostOnce) := by
    rw [Bool.eq_iff_iff, bne_iff_ne]
    exact hsome
  rw [← hpresent]
  unfold checkField at hfield
  cases hpacketId : p.packetId with
  | none =>
    rw [hpacketId] at hi
    obtain rfl := Emission.done.inj hi
    exact ⟨none, rfl, .absent⟩
  | some m =>
    -- An identifier that passes its check is a number of two bytes.
    rw [hpacketId] at hi hfield
    obtain ⟨n, hn, hemit⟩ := exists_packetId hfield
    exact ⟨some n, congrArg some hn, .present (hemit i hi)⟩

/-- What is written as a message is one, if its normal form may be built. -/
theorem form_of_emitBody (hp : { p with properties := p.properties.normal }.check = .ok ())
    (h : p.emitBody = .done w) :
    Form p.flags w { p with properties := p.properties.normal } := by
  have hflags := announces_flags p
  unfold emitBody at h
  simp only [Emission.append_eq_done] at h
  obtain ⟨_, pl, ⟨_, ps, ⟨tp, i, htp, hi, rfl⟩, hps, rfl⟩, hpl, rfl⟩ := h
  obtain rfl := Emission.done.inj hpl
  obtain ⟨hfield, ⟨hsome, hdup⟩, hplus, hhash, hempty⟩ := check_eq_ok_iff.mp hp
  obtain ⟨n, hn, hid⟩ := exists_optional_packetId (p := p) hfield hsome hi
  rw [← hflags.duplicate] at hdup
  have hform : Form p.flags (tp ++ i ++ ps ++ p.payload) _ :=
    .intro hflags.qos (Text.emit_eq_done_iff.mp htp) hplus hhash hempty hdup hid
      (Properties.block_of_emit hps)
  rwa [hflags.retain, hflags.duplicate, ← hn] at hform

end Publish

/-! ### Responses to a PUBLISH -/

/-- What is written as a response is one, if it may be built. -/
theorem PublishResponse.form_of_emitBody {c : Carrier} {p : PublishResponse} {w : Bytes}
    (hp : p.check c = .ok ()) (h : p.emitBody c = .done w) :
    Form c w { p with properties := p.properties.normal } := by
  rw [check, Except.seq_eq_ok_iff, Carrier.checkReasonCode_eq_ok_iff] at hp
  obtain ⟨hid, hr⟩ := hp
  obtain ⟨n, hn, hemit⟩ := exists_packetId hid
  obtain ⟨i, o, hi, ho, rfl⟩ := Emission.append_eq_done.mp h
  have hform := Form.intro (hemit i hi) (Carrier.outcome_of_emit hr ho)
  rwa [← hn] at hform

/-! ### SUBSCRIBE, SUBACK and UNSUBACK, UNSUBSCRIBE -/

/-- The reserved bits of the options are clear. -/
theorem Subscription.options_lt (s : Subscription) : s.options < 64 := by
  have hqos := s.maxQos.code_lt
  have hlocal := Bool.toNat_le s.noLocal
  have hretain := Bool.toNat_le s.retainAsPublished
  have hhandling := s.retainHandling.code_lt
  unfold options
  omega

/-- What is written as a subscription is one, if it may be built. -/
theorem Subscription.form_of_emit {s : Subscription} {w : Bytes} (hs : s.check = .ok ())
    (h : s.emit = .done w) : Form w s := by
  have hqos := s.maxQos.code_lt
  have hlocal := Bool.toNat_le s.noLocal
  have hretain := Bool.toNat_le s.retainAsPublished
  have hhandling := s.retainHandling.code_lt
  obtain ⟨tf, os, htf, hos, rfl⟩ := Emission.append_eq_done.mp h
  have hlocalBit : s.options.testBit 2 = s.noLocal := by
    refine testBit_eq_of_div_mod ?_
    simp only [options]
    omega
  have hretainBit : s.options.testBit 3 = s.retainAsPublished := by
    refine testBit_eq_of_div_mod ?_
    simp only [options]
    omega
  have hmaxQos : s.options % 4 = s.maxQos.code := by
    simp only [options]
    omega
  have hretainHandling : s.options / 16 % 4 = s.retainHandling.code := by
    simp only [options]
    omega
  have hform := Form.intro (Text.emit_eq_done_iff.mp htf) (check_eq_ok_iff.mp hs)
    (Integer.emit_natCast_eq_done_iff.mp hos) s.options_lt hmaxQos hretainHandling
  rwa [hlocalBit, hretainBit] at hform

/-- What is written as a request is one, if it and its subscriptions may be built. -/
theorem Subscribe.form_of_emitBody {p : Subscribe} {w : Bytes} (hp : p.check = .ok ())
    (hs : ∀ s ∈ p.subscriptions, s.check = .ok ()) (h : p.emitBody = .done w) :
    Form w { p with properties := p.properties.normal } := by
  obtain ⟨hid, hne⟩ := check_eq_ok_iff.mp hp
  obtain ⟨n, hn, hemit⟩ := exists_packetId hid
  unfold emitBody at h
  simp only [Emission.append_eq_done] at h
  obtain ⟨_, ss, ⟨i, ps, hi, hps, rfl⟩, hss, rfl⟩ := h
  have hwords := words_of_emit (fun s hmem _ => Subscription.form_of_emit (hs s hmem)) hss
  have hform := Form.intro (hemit i hi) (Properties.block_of_emit hps) hwords hne
  rwa [← hn] at hform

/-- What is written as an answer is one, if it may be built. -/
theorem SubscriptionAck.form_of_emitBody {c : Carrier} {p : SubscriptionAck} {w : Bytes}
    (hp : p.check c = .ok ()) (h : p.emitBody c = .done w) :
    Form c w { p with properties := p.properties.normal } := by
  rw [check, Except.seq_eq_ok_iff, checkReasonCodes_eq_ok_iff] at hp
  obtain ⟨hid, hr⟩ := hp
  obtain ⟨n, hn, hemit⟩ := exists_packetId hid
  unfold emitBody at h
  simp only [Emission.append_eq_done] at h
  obtain ⟨_, rs, ⟨i, ps, hi, hps, rfl⟩, hrs, rfl⟩ := h
  have hwords : Format.Words c.Reason rs p.reasonCodes :=
    words_of_emit (fun r hmem _ hu => Carrier.reason_iff.mpr ⟨hu, hr r hmem⟩) hrs
  have hform := Form.intro (hemit i hi) (Properties.block_of_emit hps) hwords
  rwa [← hn] at hform

/-- What is written as a request is one, if it may be built. -/
theorem Unsubscribe.form_of_emitBody {p : Unsubscribe} {w : Bytes} (hp : p.check = .ok ())
    (h : p.emitBody = .done w) : Form w { p with properties := p.properties.normal } := by
  obtain ⟨hid, hne⟩ := check_eq_ok_iff.mp hp
  obtain ⟨n, hn, hemit⟩ := exists_packetId hid
  unfold emitBody at h
  simp only [Emission.append_eq_done] at h
  obtain ⟨_, ts, ⟨i, ps, hi, hps, rfl⟩, hts, rfl⟩ := h
  have hwords := words_of_emit (fun _ _ _ => Text.emit_eq_done_iff.mp) hts
  have hform := Form.intro (hemit i hi) (Properties.block_of_emit hps) hwords hne
  rwa [← hn] at hform

/-! ### DISCONNECT and AUTH -/

/-- What is written as a notice is one, if it may be built. -/
theorem Disconnect.form_of_emitBody {p : Disconnect} {w : Bytes} (hp : p.check = .ok ())
    (h : p.emitBody = .done w) : Form w { p with properties := p.properties.normal } :=
  .intro (Carrier.outcome_of_emit (Carrier.checkReasonCode_eq_ok_iff.mp hp) h)

/-- What is written as a step is one, if it may be built. -/
theorem Auth.form_of_emitBody {p : Auth} {w : Bytes} (hp : p.check = .ok ())
    (h : p.emitBody = .done w) : Form w { p with properties := p.properties.normal } := by
  obtain ⟨r, ps, hr, hps, rfl⟩ := Emission.append_eq_done.mp h
  have haccepts := Carrier.checkReasonCode_eq_ok_iff.mp hp
  exact .full (Carrier.reason_iff.mpr ⟨hr, haccepts⟩) (Properties.block_of_emit hps)

/-! ### All packets -/

namespace Packet

variable {p : Packet} {w : Bytes}

/-- **What is written as the body of a packet** is in the grammar, and stands for the normal form of
    the packet, if that may be built. -/
theorem body_of_emit (hp : p.normal.Built) (h : p.emitBody = .done w) :
    Body p.type p.flags w p.normal := by
  cases p with
  | connect p => exact .connect (Connect.form_of_emitBody h)
  | connack p => exact .connack (ConnAck.form_of_emitBody hp.packet h)
  | publish p => exact .publish (Publish.form_of_emitBody hp.packet h)
  | puback p => exact .puback (PublishResponse.form_of_emitBody hp.packet h)
  | pubrec p => exact .pubrec (PublishResponse.form_of_emitBody hp.packet h)
  | pubrel p => exact .pubrel (PublishResponse.form_of_emitBody hp.packet h)
  | pubcomp p => exact .pubcomp (PublishResponse.form_of_emitBody hp.packet h)
  | subscribe p => exact .subscribe (Subscribe.form_of_emitBody hp.packet hp.subscriptions h)
  | suback p => exact .suback (SubscriptionAck.form_of_emitBody hp.packet h)
  | unsubscribe p => exact .unsubscribe (Unsubscribe.form_of_emitBody hp.packet h)
  | unsuback p => exact .unsuback (SubscriptionAck.form_of_emitBody hp.packet h)
  | pingreq =>
    obtain rfl := Emission.done.inj h
    exact .pingreq
  | pingresp =>
    obtain rfl := Emission.done.inj h
    exact .pingresp
  | disconnect p => exact .disconnect (Disconnect.form_of_emitBody hp.packet h)
  | auth p => exact .auth (Auth.form_of_emitBody hp.packet h)

/-- The flags of a packet are some that its type may have. -/
theorem permits_flags (p : Packet) : p.type.Permits p.flags := by
  cases p with
  | publish p =>
    have hflags := Publish.announces_flags p
    have hqos := p.qos.code_lt
    refine ⟨hflags.lt, ?_⟩
    rintro ⟨hlow, hhigh⟩
    rw [Nat.testBit_eq_decide_div_mod_eq, decide_eq_true_eq] at hlow hhigh
    have hcode := hflags.qos
    show False
    simp only [flags] at hlow hhigh
    omega
  | _ => exact ⟨Nat.le_of_ble_eq_true rfl, rfl⟩

/-- A packet is written exactly if its body is and its length can be: as the byte with type and
    flags, the digits of the length, and the body. -/
theorem emit_eq_done_iff :
    p.emit = .done w ↔
      ∃ body, p.emitBody = .done body ∧ body.length ≤ VarInt.max ∧
        w = .ofNat (16 * p.type.code + p.flags) :: (VarInt.digits body.length ++ body) := by
  have hflags : ¬16 ≤ p.flags := Nat.not_le.mpr p.permits_flags.1
  unfold emit FixedHeader.emit
  rw [Emission.headed_eq_done]
  constructor
  · rintro ⟨hd, body, hbody, hheader, rfl⟩
    rw [if_neg hflags] at hheader
    split at hheader
    case isTrue => cases hheader
    case isFalse hmax =>
      rw [VarInt.emit_natCast (by omega), Emission.done_append_done] at hheader
      obtain rfl := Emission.done.inj hheader
      exact ⟨body, hbody, by omega, rfl⟩
  · rintro ⟨body, hbody, hmax, rfl⟩
    refine ⟨.ofNat (16 * p.type.code + p.flags) :: VarInt.digits body.length, body, hbody, ?_, rfl⟩
    rw [if_neg hflags, if_neg (by omega), VarInt.emit_natCast hmax]
    rfl

/-- **What is written as a packet** is a frame of its normal form, if that may be built. -/
theorem frame_of_emit (hp : p.normal.Built) (h : p.emit = .done w) : Frame w p.normal := by
  obtain ⟨body, hbody, hmax, rfl⟩ := emit_eq_done_iff.mp h
  exact .intro p.permits_flags (VarInt.form_digits hmax) (body_of_emit hp hbody)

end Packet

end Mqtt
